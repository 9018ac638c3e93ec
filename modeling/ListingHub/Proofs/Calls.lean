import ListingHub.Proofs.Queue

/-!
# Calls on a connection

Any calls on one connection in any order: it is opened and closed, envelopes are offered to it and
received from it, and its receiving half goes. What is received and what still waits is what was
accepted, the queue keeps within its capacity, and the lifecycle goes through each stage once.
-/

namespace ListingHub.Connection

namespace Change

/-- The envelope that a call gets into the queue. -/
def accepted (c : Connection) : Change → List Envelope
  | deliver envelope => if (c.deliver envelope).1 = .queued then [envelope] else []
  | markOpen | beginClose | markClosed | receive | shutReceiver | dropReceiver => []

/-- The envelope that a call takes from the queue. -/
def received (c : Connection) : Change → List Envelope
  | receive =>
      match c.receive.1 with
      | .envelope envelope => [envelope]
      | .empty | .disconnected | .dropped => []
  | markOpen | beginClose | markClosed | deliver _ | shutReceiver | dropReceiver => []

/-- The call says that it has opened the connection. -/
def opens (c : Connection) : Change → Bool
  | markOpen => c.markOpen.1
  | beginClose | markClosed | deliver _ | receive | shutReceiver | dropReceiver => false

/-- The call says that closing has started with it. -/
def closes (c : Connection) : Change → Bool
  | beginClose => c.beginClose.1
  | markOpen | markClosed | deliver _ | receive | shutReceiver | dropReceiver => false

end Change

/-- The connection after calls. -/
def afterCalls (c : Connection) (calls : List Change) : Connection :=
  calls.foldl (fun c change => change.apply c) c

/-- The calls, each with the connection it was made on. -/
def trace : Connection → List Change → List (Connection × Change)
  | _, [] => []
  | c, change :: calls => (c, change) :: trace (change.apply c) calls

/-- What calls get into the queue, in order. -/
def acceptedBy (c : Connection) (calls : List Change) : List Envelope :=
  (c.trace calls).flatMap fun (c, change) => change.accepted c

/-- What calls take from the queue, in order. -/
def receivedBy (c : Connection) (calls : List Change) : List Envelope :=
  (c.trace calls).flatMap fun (c, change) => change.received c

/-- How often calls say that they have opened the connection. -/
def openings (c : Connection) (calls : List Change) : Nat :=
  (c.trace calls).countP fun (c, change) => change.opens c

/-- How often calls say that closing has started with them. -/
def closings (c : Connection) (calls : List Change) : Nat :=
  (c.trace calls).countP fun (c, change) => change.closes c

variable {c : Connection}

@[simp]
theorem afterCalls_nil (c : Connection) : c.afterCalls [] = c := rfl

@[simp]
theorem afterCalls_cons (c : Connection) (change : Change) (calls : List Change) :
    c.afterCalls (change :: calls) = (change.apply c).afterCalls calls := rfl

/-- What every call keeps, calls keep. -/
theorem afterCalls_keeps {P : Connection → Prop}
    (hkept : ∀ (change : Change) c, P c → P (change.apply c)) (hc : P c)
    (calls : List Change) : P (c.afterCalls calls) := by
  induction calls generalizing c with
  | nil => exact hc
  | cons change calls ih => exact ih (hkept change c hc)

/-! ### The queue -/

theorem receiver_apply_of_dropped (change : Change) (hdropped : c.receiver = .dropped) :
    (change.apply c).receiver = .dropped := by
  cases change with
  | markOpen => simp only [Change.apply, markOpen]; split <;> exact hdropped
  | beginClose => simp only [Change.apply, beginClose]; split <;> exact hdropped
  | markClosed => exact hdropped
  | deliver envelope => simp only [Change.apply]; rw [deliver_snd]; exact hdropped
  | receive => simp only [Change.apply]; rw [receive_snd]; exact hdropped
  | shutReceiver => simp [Change.apply, shutReceiver, hdropped]
  | dropReceiver => rfl

/-- A receipt and what it leaves are what was there. -/
theorem received_append_receive (c : Connection) :
    Change.receive.received c ++ c.receive.2.queue = c.queue := by
  rcases c with ⟨_, _, _, _, held, receiver, queue⟩
  cases receiver <;> cases queue <;> cases held <;> rfl

/-- What a call takes from the queue and what it leaves there are what was there and what it puts
there, unless the receiving half goes. -/
theorem received_append_apply (change : Change) (hthere : (change.apply c).receiver ≠ .dropped) :
    change.received c ++ (change.apply c).queue = c.queue ++ change.accepted c := by
  cases change with
  | markOpen => simp [Change.received, Change.accepted, Change.apply]
  | beginClose => simp [Change.received, Change.accepted, Change.apply]
  | markClosed => simp [Change.received, Change.accepted, Change.apply, markClosed]
  | shutReceiver => simp [Change.received, Change.accepted, Change.apply, shutReceiver]
  | dropReceiver => exact absurd rfl hthere
  | deliver envelope =>
      simp only [Change.received, Change.accepted, Change.apply, deliver_fst, List.nil_append]
      exact queue_deliver envelope c
  | receive =>
      rw [Change.accepted, List.append_nil]
      exact received_append_receive c

/-- What calls receive and what waits in the end are what waited at first and was accepted since,
as long as the receiving half is there. -/
theorem receivedBy_append_queue (calls : List Change)
    (hthere : (c.afterCalls calls).receiver ≠ .dropped) :
    c.receivedBy calls ++ (c.afterCalls calls).queue = c.queue ++ c.acceptedBy calls := by
  induction calls generalizing c with
  | nil => exact (List.append_nil _).symm
  | cons change calls ih =>
      have hnow : (change.apply c).receiver ≠ .dropped := by
        intro hdropped
        exact hthere (afterCalls_keeps (P := fun d => d.receiver = .dropped)
          (fun next d => receiver_apply_of_dropped next) hdropped calls)
      have hfirst := received_append_apply change hnow
      have hrest := ih hthere
      calc c.receivedBy (change :: calls) ++ (c.afterCalls (change :: calls)).queue
        _ = change.received c ++ ((change.apply c).receivedBy calls ++
            ((change.apply c).afterCalls calls).queue) := by
          rw [← List.append_assoc]
          rfl
        _ = change.received c ++ (change.apply c).queue ++ (change.apply c).acceptedBy calls := by
          rw [hrest, List.append_assoc]
        _ = c.queue ++ (change.accepted c ++ (change.apply c).acceptedBy calls) := by
          rw [hfirst, List.append_assoc]
        _ = c.queue ++ c.acceptedBy (change :: calls) := rfl

@[simp]
theorem capacity_apply (change : Change) (c : Connection) :
    (change.apply c).capacity = c.capacity := by
  cases change with
  | markOpen => simp only [Change.apply, markOpen]; split <;> rfl
  | beginClose => simp only [Change.apply, beginClose]; split <;> rfl
  | deliver envelope => simp only [Change.apply]; rw [deliver_snd]
  | receive => simp only [Change.apply]; rw [receive_snd]
  | markClosed | shutReceiver | dropReceiver => rfl

/-- A queue keeps within its capacity. -/
theorem length_queue_apply (change : Change) (hroom : c.queue.length ≤ c.capacity) :
    (change.apply c).queue.length ≤ (change.apply c).capacity := by
  rw [capacity_apply]
  cases change with
  | markOpen => simpa [Change.apply] using hroom
  | beginClose => simpa [Change.apply] using hroom
  | markClosed | shutReceiver => exact hroom
  | dropReceiver => exact Nat.zero_le _
  | deliver envelope =>
      simp only [Change.apply]
      rw [queue_deliver]
      split
      · next hqueued =>
          rw [List.length_append]
          exact ((offer_eq_queued_iff c).mp hqueued).2.2.2
      · rwa [List.append_nil]
  | receive => exact Nat.le_trans c.queue_receive_suffix.length_le hroom

/-- What becomes of an envelope that is offered. -/
theorem Sound.deliver_eq (hsound : c.Sound) (envelope : Envelope) :
    c.deliver envelope =
      if c.lifecycle = .opened ∧ c.receiver = .alive then
        if c.queue.length < c.capacity then
          (.queued, { c with queue := c.queue ++ [envelope] })
        else (.full, c)
      else (.closed, c) := by
  split
  · next hboth =>
      have hoffer := offer_of_opened hsound hboth.1 hboth.2
      split
      · next hroom =>
          rw [if_neg (Nat.not_le.mpr hroom)] at hoffer
          exact deliver_of_queued envelope hoffer
      · next hfull =>
          rw [if_pos (Nat.le_of_not_lt hfull)] at hoffer
          rw [deliver_of_not_queued envelope (by simp [hoffer]), hoffer]
  · next hnot =>
      have hoffer := offer_of_not hnot
      rw [deliver_of_not_queued envelope (by simp [hoffer]), hoffer]

/-! ### The lifecycle -/

theorem stage_le_afterCalls (c : Connection) (calls : List Change) :
    c.stage ≤ (c.afterCalls calls).stage :=
  afterCalls_keeps (P := fun d => c.stage ≤ d.stage)
    (fun change d hle => Nat.le_trans hle (stage_le_apply change d)) (Nat.le_refl _) calls

/-- A call that can only be answered `true` before a stage, and reaches it then, is answered so
once. -/
theorem countP_trace_le {answer : Connection → Change → Bool} {bound : Nat}
    (hanswer : ∀ d change, answer d change = true →
      d.stage < bound ∧ bound ≤ (change.apply d).stage)
    (c : Connection) (calls : List Change) :
    (c.trace calls).countP (fun call => answer call.1 call.2) ≤
      if c.stage < bound then 1 else 0 := by
  induction calls generalizing c with
  | nil => exact Nat.zero_le _
  | cons change calls ih =>
      have hrest := ih (change.apply c)
      have hforward := stage_le_apply change c
      rw [trace, List.countP_cons]
      split
      · next hyes =>
          obtain ⟨hbefore, hafter⟩ := hanswer c change hyes
          rw [if_neg (Nat.not_lt.mpr hafter)] at hrest
          rw [if_pos hbefore]
          exact Nat.succ_le_succ hrest
      · refine Nat.le_trans hrest ?_
        split
        · next hlate => exact Nat.le_of_eq (if_pos (Nat.lt_of_le_of_lt hforward hlate)).symm
        · exact Nat.zero_le _

theorem stage_of_opens {change : Change} (hopens : change.opens c = true) :
    c.stage < 1 ∧ 1 ≤ (change.apply c).stage := by
  cases change with
  | markOpen =>
      simp only [Change.opens, Change.apply, markOpen] at hopens ⊢
      split at hopens
      · next hlife => simp [stage, hlife]
      · cases hopens
  | beginClose | markClosed | deliver _ | receive | shutReceiver | dropReceiver => cases hopens

theorem stage_of_closes {change : Change} (hcloses : change.closes c = true) :
    c.stage < 2 ∧ 2 ≤ (change.apply c).stage := by
  cases change with
  | beginClose =>
      simp only [Change.closes, Change.apply, beginClose] at hcloses ⊢
      split at hcloses
      · next hlife => simp [stage, hlife]
      · next hlife => simp [stage, hlife]
      · cases hcloses
      · cases hcloses
  | markOpen | markClosed | deliver _ | receive | shutReceiver | dropReceiver => cases hcloses

theorem openings_le_one (c : Connection) (calls : List Change) : c.openings calls ≤ 1 := by
  refine Nat.le_trans (countP_trace_le (fun d change => stage_of_opens) c calls) ?_
  split <;> decide

theorem closings_le_one (c : Connection) (calls : List Change) : c.closings calls ≤ 1 := by
  refine Nat.le_trans (countP_trace_le (fun d change => stage_of_closes) c calls) ?_
  split <;> decide

/-! ### After closing -/

/-- Once the sending half was let go, what is queued is received and then nothing. -/
theorem receive_of_released (hreleased : c.senderHeld = false) (hthere : c.receiver ≠ .dropped) :
    c.receive = match c.queue with
      | envelope :: rest => (.envelope envelope, { c with queue := rest })
      | [] => (.disconnected, c) := by
  rcases c with ⟨_, _, _, _, held, receiver, queue⟩
  obtain rfl : held = false := hreleased
  cases receiver with
  | dropped => exact absurd rfl hthere
  | alive | shut => cases queue <;> rfl

/-- One receipt after another. -/
theorem receive_afterCalls_replicate (hreleased : c.senderHeld = false)
    (hthere : c.receiver ≠ .dropped) (n : Nat) :
    (c.afterCalls (List.replicate n .receive)).receive.1 =
      match c.queue[n]? with
      | some envelope => .envelope envelope
      | none => .disconnected := by
  induction n generalizing c with
  | zero =>
      rw [List.replicate_zero, afterCalls_nil, receive_of_released hreleased hthere]
      cases c.queue <;> rfl
  | succ n ih =>
      have hreceive := receive_of_released hreleased hthere
      rw [List.replicate_succ, afterCalls_cons, Change.apply]
      cases hqueue : c.queue with
      | nil =>
          rw [hqueue] at hreceive
          rw [hreceive, ih hreleased hthere, hqueue]
          rfl
      | cons envelope rest =>
          rw [hqueue] at hreceive
          have hrest := ih (c := { c with queue := rest }) hreleased hthere
          rw [hreceive, hrest, List.getElem?_cons_succ]

/-- However a connection of any capacity is called: what was received and what waits is what was
accepted, in order, while the receiving half is there; no more waits than the capacity, which is at
least one; an offer is queued exactly on an open connection whose receiving half lives and has room,
is full exactly where only the room is missing and otherwise closed, and changes nothing but the
queue and that only when queued; the lifecycle never moves back, and opening and closing each start
once; from closing on, and only then, the pumps are told to leave and the sending half is let go,
what is queued can still be received, and after it the queue says that it is disconnected. -/
theorem calls_keep_account (identity : Identity) (capacity : Nat) (calls : List Change) :
    let start := new identity capacity
    let c := start.afterCalls calls
    (c.receiver ≠ .dropped → start.receivedBy calls ++ c.queue = start.acceptedBy calls) ∧
    c.queue.length ≤ max capacity 1 ∧
    (∀ envelope, c.deliver envelope =
      if c.lifecycle = .opened ∧ c.receiver = .alive then
        if c.queue.length < max capacity 1 then
          (.queued, { c with queue := c.queue ++ [envelope] })
        else (.full, c)
      else (.closed, c)) ∧
    (∀ more, c.stage ≤ (c.afterCalls more).stage) ∧
    start.openings calls ≤ 1 ∧ start.closings calls ≤ 1 ∧
    (2 ≤ c.stage ↔ c.cancelled = true) ∧ (2 ≤ c.stage ↔ c.senderHeld = false) ∧
    (2 ≤ c.stage → c.receiver ≠ .dropped → ∀ n,
      (c.afterCalls (List.replicate n .receive)).receive.1 =
        match c.queue[n]? with
        | some envelope => .envelope envelope
        | none => .disconnected) := by
  intro start c
  have hsound : c.Sound :=
    afterCalls_keeps (fun change d hd => hd.apply change) (sound_new identity capacity) calls
  have hcapacity : c.capacity = max capacity 1 :=
    afterCalls_keeps (P := fun d => d.capacity = max capacity 1)
      (fun change d hd => (capacity_apply change d).trans hd) rfl calls
  have hroom : c.queue.length ≤ c.capacity :=
    afterCalls_keeps (P := fun d => d.queue.length ≤ d.capacity)
      (fun change d => length_queue_apply change) (Nat.zero_le _) calls
  have hcancelled : 2 ≤ c.stage ↔ c.cancelled = true := by
    rw [two_le_stage_iff, hsound.cancelled_iff]
  have hreleased : 2 ≤ c.stage ↔ c.senderHeld = false := by
    rw [two_le_stage_iff, hsound.released_iff]
  refine ⟨receivedBy_append_queue calls, hcapacity ▸ hroom, ?_, c.stage_le_afterCalls,
    start.openings_le_one calls, start.closings_le_one calls, hcancelled, hreleased, ?_⟩
  · intro envelope
    rw [← hcapacity]
    exact hsound.deliver_eq envelope
  · intro hclosing hthere
    exact receive_afterCalls_replicate (hreleased.mp hclosing) hthere

/-- A connection of capacity nothing that is opened, takes one of two envelopes, is closed twice and
refuses a third. -/
def lateCalls : List Change :=
  [.markOpen, .deliver ⟨"a", .null⟩, .deliver ⟨"b", .null⟩, .beginClose, .markOpen, .beginClose,
    .deliver ⟨"c", .null⟩]

theorem lateCalls_keep_account :
    let start := new ⟨⟨1⟩, .user⟩ 0
    let c := start.afterCalls lateCalls
    c.receiver ≠ .dropped ∧ 2 ≤ c.stage ∧
    (start.receivedBy lateCalls ++ c.queue).map (·.eventType) = ["a"] ∧
    c.queue.length ≤ 1 ∧ start.openings lateCalls ≤ 1 ∧ start.closings lateCalls ≤ 1 ∧
    c.cancelled = true ∧ c.senderHeld = false ∧
    (c.afterCalls (List.replicate 1 .receive)).receive.1 = .disconnected := by
  intro start c
  have hthere : c.receiver ≠ .dropped := by decide
  have hclosing : 2 ≤ c.stage := by decide
  obtain ⟨hcarried, hroom, -, -, hopened, hclosed, hcancelled, hreleased, hreceived⟩ :=
    calls_keep_account ⟨⟨1⟩, .user⟩ 0 lateCalls
  refine ⟨hthere, hclosing, ?_, hroom, hopened, hclosed, hcancelled.mp hclosing,
    hreleased.mp hclosing, hreceived hclosing hthere 1⟩
  rw [hcarried hthere]
  rfl

end ListingHub.Connection
