import ListingHub.Proofs.Hub.Run
import ListingHub.Proofs.Queue
import Mathlib.Algebra.GroupWithZero.Nat

/-!
# No push without a row

Over any run a connection accepts a push no more often than its owner has a row with that text.
Between the row and the push lies the rest of the job, with steps of others in between, so the
account has a third side: what the jobs under way still owe, which is at most one push for each row
they stored. A step accepts only what was owed and owes more only for a new row.
-/

namespace ListingHub

namespace Envelope

/-- A peer takes the envelope for a push of this kind and text. -/
def pushes (kind : NotificationKind) (message : String) (envelope : Envelope) : Bool :=
  envelope.eventType == kind.name &&
    match envelope.decodePayload Push.shape with
    | .ok push => push.message == message
    | .error _ => false

theorem pushes_notification (kind other : NotificationKind) (message text : String) :
    (notification other text).pushes kind message = true ↔ other = kind ∧ text = message := by
  have hname : other.name = kind.name ↔ other = kind := by
    cases other <;> cases kind <;> decide
  have hdecode : (notification other text).decodePayload Push.shape = .ok ⟨text⟩ := rfl
  rw [pushes, hdecode]
  simp [notification, hname]

end Envelope

/-- A kind of push to one connection of a user. -/
structure Notice where
  connection : Handle
  user : UserId
  kind : NotificationKind
  message : String

/-- A recording owes the push once the row is stored. -/
def Recording.owes (notice : Notice) : Recording → Nat
  | lookingUp => 0
  | storing recipients todo => if notice.user ∈ recipients ∧ notice.user ∉ todo then 1 else 0
  | finished (.ok recipients) => if notice.user ∈ recipients then 1 else 0
  | finished (.error _) => 0

/-- A broadcast owes the push until it was offered to the connection. -/
def Broadcast.owes (notice : Notice) (recipients : List UserId) : Broadcast → Nat
  | choosing => if notice.user ∈ recipients then 1 else 0
  | delivering todo _ => todo.count notice.connection
  | evicting .. | finished _ => 0

def Handling.owes (notice : Notice) : Handling → Nat
  | recording work _ => work.owes notice
  | fanningOut recipients broadcast => broadcast.owes notice recipients
  | finished _ => 0

/-- Only a job with an event of this kind and text can owe the push. -/
def ReadPump.owes (notice : Notice) : ReadPump → Nat
  | handling _ job work =>
      if job.event.kind = notice.kind ∧ job.event.message = notice.message then work.owes notice
      else 0
  | _ => 0

/-- What all jobs under way owe. -/
def Outline.owed (notice : Notice) (o : Outline) : Nat :=
  (o.readers.map (ReadPump.owes notice)).sum

/-- How many rows there are for a notice. -/
def Store.covers (store : Store) (notice : Notice) : Nat :=
  store.told notice.user notice.kind notice.message

variable {notice : Notice}

theorem Recording.owes_ofTodo (recipients todo : List UserId) :
    (ofTodo recipients todo).owes notice =
      if notice.user ∈ recipients ∧ notice.user ∉ todo then 1 else 0 := by
  cases todo with
  | nil => simp [ofTodo, owes]
  | cons user todo => rfl

/-- A step of a recording owes more only for a row that it stored. -/
theorem Recording.owes_step (faults : Faults) {event : Event} (now : Timestamp) (store : Store)
    (hkind : event.kind = notice.kind) (hmessage : event.message = notice.message)
    (work : Recording) :
    (work.step faults event now store).1.owes notice + store.covers notice ≤
      (work.step faults event now store).2.covers notice + work.owes notice := by
  cases work with
  | lookingUp =>
      simp only [step]
      split
      · next users _ =>
          rw [owes_ofTodo, if_neg fun hboth => hboth.2 hboth.1]
          simp [owes]
      · simp [owes]
  | finished outcome => exact Nat.le_of_eq (Nat.add_comm _ _)
  | storing recipients todo =>
      cases todo with
      | nil =>
          simp only [step, owes]
          simp [Nat.add_comm]
      | cons user todo =>
          cases hfails : faults.createFails user with
          | some reason => simp [step, Faults.create, Event.draft, hfails, owes]
          | none =>
              have hstored : (storing recipients (user :: todo)).step faults event now store =
                  (ofTodo recipients todo, (store.create (event.draft user) now).2) := by
                simp [step, Faults.create, Event.draft, hfails]
              have hcovers := store.told_create (event.draft user) now notice.user notice.kind
                notice.message
              have htold : (event.draft user).userId = notice.user ∧
                  (event.draft user).kind = notice.kind ∧
                  (event.draft user).message = notice.message ↔ user = notice.user := by
                simp [Event.draft, hkind, hmessage]
              simp only [htold] at hcovers
              simp only [hstored, Store.covers]
              rw [owes_ofTodo, hcovers, owes]
              by_cases huser : user = notice.user
              · -- The row is the one that the push is owed for.
                rw [if_pos huser]
                split <;> omega
              · simp only [huser, Ne.symm huser, List.mem_cons, false_or, if_false]
                omega

/-- What follows a step of recording owes no more than the recording. -/
theorem Handling.owes_afterRecording (notice : Notice) (work : Recording) :
    (Job.afterRecording work).owes notice ≤ work.owes notice := by
  unfold Job.afterRecording
  split
  · exact Nat.zero_le _
  · exact Nat.le_refl _
  · exact Nat.zero_le _
  · exact Nat.le_refl _

theorem ReadPump.Awaits.owes {reader : ReadPump} (hawaits : reader.Awaits) :
    reader.owes notice = 0 := by
  cases hawaits <;> rfl

/-- A move of a read pump on its own owes nothing new. -/
theorem ReadPump.Turns.owes_le {reader next : ReadPump} (hturns : reader.Turns next) :
    next.owes notice ≤ reader.owes notice := by
  cases hturns with
  | wait deadline hawaits => exact Nat.le_of_eq hawaits.owes
  | pause deadline job work wake => exact Nat.le_refl _
  | begin | stop | expire | pushed | conclude => simp [owes, Handling.owes, Recording.owes]

/-- The targets of a broadcast are owed at most what their user is. -/
theorem Broadcast.owes_snapshot (board : Switchboard) (recipients : List UserId)
    (huser : ∀ c, board.get? notice.connection = some c → c.user = notice.user) :
    (board.snapshot fun user => recipients.contains user).count notice.connection ≤
      if notice.user ∈ recipients then 1 else 0 := by
  have honce := List.nodup_iff_count.mp
    (board.snapshot_nodup fun user => recipients.contains user) notice.connection
  split
  · exact honce
  · next hout =>
      refine Nat.le_of_eq (List.count_eq_zero.mpr fun htarget => hout ?_)
      obtain ⟨-, c, hget, hwanted⟩ := (board.mem_snapshot _ _).mp htarget
      rw [← huser c hget]
      simpa using hwanted

/-- A step of a broadcast owes nothing new. -/
theorem Broadcast.owes_step_le (message : Message) (board : Switchboard)
    {recipients : List UserId}
    (hwanted : message.wanted = fun user => recipients.contains user)
    (huser : ∀ c, board.get? notice.connection = some c → c.user = notice.user)
    (broadcast : Broadcast) :
    (broadcast.step message board).1.owes notice recipients ≤
      broadcast.owes notice recipients := by
  cases broadcast with
  | choosing =>
      rw [step, hwanted]
      exact owes_snapshot board recipients huser
  | delivering todo tally =>
      cases todo with
      | nil => exact Nat.zero_le _
      | cons h todo => exact List.count_le_count_cons
  | evicting todo delivered =>
      cases todo with
      | nil => exact Nat.zero_le _
      | cons h todo => exact Nat.zero_le _
  | finished delivered => exact Nat.zero_le _

theorem sum_map_set {α : Type} (f : α → Nat) {list : List α} {i : Nat} {old : α}
    (hold : list[i]? = some old) (new : α) :
    ((list.set i new).map f).sum + f old = (list.map f).sum + f new := by
  induction list generalizing i with
  | nil => cases hold
  | cons a list ih =>
      cases i with
      | zero =>
          obtain rfl := Option.some.inj hold
          simp only [List.set_cons_zero, List.map_cons, List.sum_cons]
          omega
      | succ i =>
          have hrest := ih hold
          simp only [List.set_cons_succ, List.map_cons, List.sum_cons]
          omega

namespace Outline

variable {o next : Outline} {h : Handle}

/-- Only the job that moves can owe something else afterwards. -/
theorem owed_set (notice : Notice) {reader : ReadPump} (hreader : o.readers[h]? = some reader)
    (moved : ReadPump) (board : Switchboard) (store : Store) :
    ({ o with readers := o.readers.set h moved, board, store } : Outline).owed notice +
        reader.owes notice =
      o.owed notice + moved.owes notice :=
  sum_map_set _ hreader moved

theorem owed_set_le {reader moved : ReadPump} (hreader : o.readers[h]? = some reader)
    (hle : moved.owes notice ≤ reader.owes notice) (board : Switchboard) (store : Store) :
    ({ o with readers := o.readers.set h moved, board, store } : Outline).owed notice ≤
      o.owed notice := by
  have howed := owed_set notice hreader moved board store
  omega

/-- A row that is stored covers what is owed for it from then on. -/
theorem account_record (notice : Notice) {deadline : Instant} {job : Job} {work : Recording}
    {wake : Option Instant}
    (hreader : o.readers[h]? = some (.handling deadline job (.recording work wake)))
    (faults : Faults) (now : Timestamp) :
    ({ o with
        readers := o.readers.set h (.handling deadline job
          (Job.afterRecording (work.step faults job.event now o.store).1))
        store := (work.step faults job.event now o.store).2 } : Outline).owed notice +
        o.store.covers notice ≤
      (work.step faults job.event now o.store).2.covers notice + o.owed notice := by
  have howed := owed_set notice hreader (.handling deadline job
    (Job.afterRecording (work.step faults job.event now o.store).1)) o.board
    (work.step faults job.event now o.store).2
  simp only [ReadPump.owes] at howed
  by_cases hmatch : job.event.kind = notice.kind ∧ job.event.message = notice.message
  · have hstep := Recording.owes_step faults now o.store hmatch.1 hmatch.2 work
    have hafter := Handling.owes_afterRecording notice
      (work.step faults job.event now o.store).1
    rw [if_pos hmatch, if_pos hmatch, Handling.owes] at howed
    omega
  · have hcovers := (Recording.grows_step faults job.event now o.store work).told_le notice.user
      notice.kind notice.message
    rw [← Store.covers, ← Store.covers] at hcovers
    rw [if_neg hmatch, if_neg hmatch] at howed
    omega

/-- A step owes more only for a new row. -/
theorem Step.owed_le (hstep : Step o next)
    (huser : ∀ c, o.board.get? notice.connection = some c → c.user = notice.user) :
    next.owed notice + o.store.covers notice ≤ next.store.covers notice + o.owed notice := by
  have hcovers := hstep.grows.told_le notice.user notice.kind notice.message
  rw [← Store.covers, ← Store.covers] at hcovers
  -- All but a recording owe no more than before.
  rw [Nat.add_comm]
  cases hstep with
  | record hreader faults now =>
      rw [Nat.add_comm]
      exact account_record notice hreader faults now
  | rest | tend _ | remove _ | closeAll | write _ _ _ | receive _ _ _ _ | teardown _ =>
      exact Nat.add_le_add hcovers (Nat.le_refl _)
  | enter identity capacity =>
      apply Nat.add_le_add hcovers
      simp [owed, ReadPump.owes]
  | join hreader hawaits =>
      exact Nat.add_le_add hcovers (owed_set_le hreader (Nat.le_of_eq hawaits.owes) _ _)
  | turn hreader hturns => exact Nat.add_le_add hcovers (owed_set_le hreader hturns.owes_le _ _)
  | @push h deadline job recipients broadcast hreader =>
      refine Nat.add_le_add hcovers (owed_set_le hreader ?_ _ _)
      have hstep := broadcast.owes_step_le (job.message recipients) o.board rfl huser
      simp only [ReadPump.owes, Handling.owes]
      split
      · exact hstep
      · exact Nat.le_refl _
  | leave hreader => exact Nat.add_le_add hcovers (owed_set_le hreader (Nat.zero_le _) _ _)
  | finish hreader hwriter hended =>
      exact Nat.add_le_add hcovers (owed_set_le hreader (Nat.zero_le _) _ _)

/-- What a step does to the end of a queue: nothing, or it puts the envelope of a job there and
moves on to the next target. -/
theorem Step.queue_cases (hstep : Step o next) (g : Handle) :
    next.board.queue g <:+ o.board.queue g ∨
      ∃ (h : Handle) (deadline : Instant) (job : Job) (recipients : List UserId)
        (todo : List Handle) (tally after : Tally),
        o.readers[h]? = some (.handling deadline job
          (.fanningOut recipients (.delivering (g :: todo) tally))) ∧
        next.readers = o.readers.set h (.handling deadline job
          (.fanningOut recipients (.delivering todo after))) ∧
        next.store = o.store ∧
        next.board.queue g = o.board.queue g ++ [(job.message recipients).envelope] := by
  cases hstep with
  | rest | tend _ | turn _ _ | record _ _ _ | write _ _ _ => exact .inl (List.suffix_refl _)
  | remove h | closeAll | enter identity capacity | join _ _ | leave _ => exact .inl (by simp)
  | @push h deadline job recipients broadcast hreader =>
      rcases o.board.queue_broadcast_step (job.message recipients) broadcast g with
        hsame | ⟨todo, tally, after, rfl, hmoved, hqueue⟩
      · left
        simp only [hsame]
        exact List.suffix_refl _
      · exact .inr ⟨h, deadline, job, recipients, todo, tally, after, hreader,
          by simp only [hmoved], rfl, hqueue⟩
  | finish _ _ _ =>
      exact .inl (Switchboard.queue_modify_suffix (f := Connection.markClosed)
        (fun _ => List.suffix_refl _) _ _ _)
  | @receive h writer moved change hwriter hready hnext hchange =>
      refine .inl (Switchboard.queue_modify_suffix ?_ _ _ _)
      intro c
      rcases hchange with rfl | rfl | rfl
      · exact c.queue_receive_suffix
      · exact List.suffix_refl _
      · exact List.nil_suffix
  | @teardown h exit hwriter =>
      have hsuffix := Switchboard.queue_modify_suffix (f := Connection.dropReceiver)
        (fun _ => List.nil_suffix) ((o.board.remove h).2.beginClose h) h g
      exact .inl (by simpa using hsuffix)

/-- What a step accepts and what is owed after it was owed before or is covered by a new row. -/
theorem account_step (hstep : Step o next)
    (huser : ∀ c, o.board.get? notice.connection = some c → c.user = notice.user) :
    (o.board.accepted next.board notice.connection).countP
          (Envelope.pushes notice.kind notice.message) +
        next.owed notice + o.store.covers notice ≤
      next.store.covers notice + o.owed notice := by
  rcases hstep.queue_cases notice.connection with
    hsuffix | ⟨h, deadline, job, recipients, todo, tally, after, hreader, hmoved, hstore, hqueue⟩
  · rw [Switchboard.accepted_of_suffix hsuffix, List.countP_nil, Nat.zero_add]
    exact hstep.owed_le huser
  · have howed := sum_map_set (ReadPump.owes notice) hreader
      (.handling deadline job (.fanningOut recipients (.delivering todo after)))
    rw [← hmoved, ← owed, ← owed] at howed
    rw [Switchboard.accepted_of_append hqueue, List.countP_singleton, hstore]
    simp only [ReadPump.owes, Handling.owes, Broadcast.owes, List.count_cons_self] at howed
    -- The envelope is of the kind and text that the job owes, or of no concern here.
    simp only [Job.message, Envelope.pushes_notification]
    split
    · next hmatch =>
        rw [if_pos hmatch, if_pos hmatch] at howed
        omega
    · next hmatch =>
        rw [if_neg hmatch, if_neg hmatch] at howed
        omega

end Outline

namespace Hub

/-- What the queue of a connection accepts in a run, in order. -/
def acceptedIn (h : Handle) : Hub → List Happening → List Envelope
  | _, [] => []
  | hub, happening :: happenings =>
      hub.service.board.accepted (hub.after happening).service.board h ++
        acceptedIn h (hub.after happening) happenings

/-- A run accepts what was owed before or is covered by new rows, and owes the rest. -/
theorem account_run (notice : Notice) (hub : Hub) (happenings : List Happening)
    (huser : ∀ c, (hub.run happenings).connection? notice.connection = some c →
      c.user = notice.user) :
    (acceptedIn notice.connection hub happenings).countP
          (Envelope.pushes notice.kind notice.message) +
        (hub.run happenings).outline.owed notice + hub.service.store.covers notice ≤
      (hub.run happenings).service.store.covers notice + hub.outline.owed notice := by
  induction happenings generalizing hub with
  | nil =>
      rw [acceptedIn, List.countP_nil, Nat.zero_add, Nat.add_comm]
      exact Nat.le_refl _
  | cons happening happenings ih =>
      have hrest := ih (hub.after happening) huser
      -- The connection keeps its owner to the end of the run.
      have howner : ∀ c, hub.service.board.get? notice.connection = some c →
          c.user = notice.user := by
        intro c hget
        obtain ⟨d, hd, hidentity⟩ :=
          (hub.acted_run (happening :: happenings)).exists_get? hget
        rw [Connection.user, ← hidentity]
        exact huser d hd
      have hstep := Outline.account_step (hub.step_after happening) howner
      rw [acceptedIn, List.countP_append, run_cons]
      simp only [outline] at hstep hrest ⊢
      omega

/-- In every run of the wired application the pushes of a kind and text that a connection accepts
are at most as many as the rows of its owner with that kind and text. -/
theorem accepted_le_told (settings : Settings) (handlerTimeout : Duration) (store : Store)
    (faults : Faults) (start : Timestamp) (happenings : List Happening) (h : Handle)
    (c : Connection) (kind : NotificationKind) (message : String)
    (hget : ((Hub.new settings handlerTimeout store faults start).run happenings).connection? h =
      some c) :
    (acceptedIn h (Hub.new settings handlerTimeout store faults start) happenings).countP
        (Envelope.pushes kind message) ≤
      ((Hub.new settings handlerTimeout store faults start).run happenings).service.store.told
        c.user kind message := by
  have haccount := account_run ⟨h, c.user, kind, message⟩
    (Hub.new settings handlerTimeout store faults start) happenings (by
      intro d hd
      rw [Option.some.inj (hd.symm.trans hget)])
  have hnothing : (Hub.new settings handlerTimeout store faults start).outline.owed
      ⟨h, c.user, kind, message⟩ = 0 := rfl
  rw [hnothing] at haccount
  simp only [Store.covers] at haccount
  omega

/-- The agent of listing 42 is online and favorites the listing. -/
def favoriteRun : List Happening :=
  [.setAgent ⟨42⟩ ⟨7⟩, .accept ⟨⟨7⟩, .agent⟩ .direct, .read 0 true,
    .arrive 0 (.text "[\"favorited_listing_notification\",[42,\"1 Main St\"]]"),
    .read 0 true, .read 0 true, .read 0 true, .read 0 true, .read 0 true]

theorem favorite_accepted_le_told :
    let hub := Hub.new .standard ⟨10, 0, by decide, by decide⟩ .empty .none ⟨0, 0⟩
    (acceptedIn 0 hub favoriteRun).countP
        (Envelope.pushes .favoritedListing "New favorite on 1 Main St") = 1 ∧
    ∃ c, (hub.run favoriteRun).connection? 0 = some c ∧
      1 ≤ (hub.run favoriteRun).service.store.told c.user .favoritedListing
        "New favorite on 1 Main St" := by
  intro hub
  subst hub
  have hone : (acceptedIn 0 (Hub.new .standard ⟨10, 0, by decide, by decide⟩ .empty .none ⟨0, 0⟩)
      favoriteRun).countP (Envelope.pushes .favoritedListing "New favorite on 1 Main St") = 1 := by
    decide +kernel
  have hsome : (((Hub.new .standard ⟨10, 0, by decide, by decide⟩ .empty .none ⟨0, 0⟩).run
      favoriteRun).connection? 0).isSome := by
    decide +kernel
  obtain ⟨c, hget⟩ := Option.isSome_iff_exists.mp hsome
  have hle := accepted_le_told .standard ⟨10, 0, by decide, by decide⟩ .empty .none ⟨0, 0⟩
    favoriteRun 0 c .favoritedListing "New favorite on 1 Main St" hget
  rw [hone] at hle
  exact ⟨hone, c, hget, hle⟩

end Hub

end ListingHub
