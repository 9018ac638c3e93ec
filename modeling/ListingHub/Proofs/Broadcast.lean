import ListingHub.Proofs.Switchboard

/-!
# What a broadcast does

Each target is offered the envelope once, so what becomes of it there depends on that connection
alone and not on the other targets or their order. A connection whose queue was full is removed
last, if the policy says so. `Pushed` is what all this comes to for a switchboard.
-/

namespace ListingHub

/-- The outcome of an offer is what the connection would do with it. -/
@[simp]
theorem Connection.deliver_fst (envelope : Envelope) (c : Connection) :
    (c.deliver envelope).1 = c.offer := by
  unfold deliver
  split <;> simp_all

/-- An open connection whose receiving half lives is full or takes an envelope. -/
theorem Connection.offer_of_opened {c : Connection} (hsound : c.Sound)
    (hopen : c.lifecycle = .opened) (halive : c.receiver = .alive) :
    c.offer = if c.capacity ≤ c.queue.length then .full else .queued := by
  simp [offer, isOpen, hopen, halive, hsound.senderHeld_of_opened hopen]

/-- Any other connection takes nothing. -/
theorem Connection.offer_of_not {c : Connection}
    (hnot : ¬(c.lifecycle = .opened ∧ c.receiver = .alive)) : c.offer = .closed := by
  unfold offer
  rw [if_pos]
  by_cases hopen : c.lifecycle = .opened
  · simp [show c.receiver ≠ .alive from fun halive => hnot ⟨hopen, halive⟩]
  · simp [isOpen, hopen]

namespace Switchboard

/-- What would become of an envelope offered to a connection now. -/
def outcome (board : Switchboard) (h : Handle) : Delivery :=
  ((board.get? h).map Connection.offer).getD .closed

/-- The policy says that a connection is removed on this outcome. -/
def evicts (policy : OverflowPolicy) (outcome : Delivery) : Bool :=
  outcome == .full && policy == .disconnect

theorem get?_deliver (board : Switchboard) (envelope : Envelope) (h g : Handle) :
    (board.deliver envelope h).2.get? g =
      (board.get? g).map fun c => if g = h then (c.deliver envelope).2 else c := by
  unfold deliver
  cases hget : board.get? h with
  | some c => exact get?_modify board h g _
  | none =>
      by_cases hg : g = h
      · subst hg
        simp [hget]
      · simp [hg]

theorem deliver_fst (board : Switchboard) (envelope : Envelope) (h : Handle) :
    (board.deliver envelope h).1 = board.outcome h := by
  unfold deliver outcome
  split
  · next hget => simp [hget]
  · next c hget => simp [hget]

@[simp]
theorem members_deliver (board : Switchboard) (envelope : Envelope) (h : Handle) :
    (board.deliver envelope h).2.members = board.members := by
  unfold deliver
  split <;> rfl

@[simp]
theorem policy_deliver (board : Switchboard) (envelope : Envelope) (h : Handle) :
    (board.deliver envelope h).2.policy = board.policy := by
  unfold deliver
  split <;> rfl

/-- The switchboard after an offer is the one after the delivery it makes. -/
theorem offer_board (board : Switchboard) (envelope : Envelope) (tally : Tally) (h : Handle) :
    (board.offer envelope tally h).2.1 = (board.deliver envelope h).2 := by
  unfold offer
  split
  · next hdeliver => rw [hdeliver]
  · next hdeliver => rw [hdeliver]
  · next hdeliver =>
      rw [hdeliver]
      split <;> rfl

/-- An offer is an act, if anything. -/
theorem acted_offer (board : Switchboard) (envelope : Envelope) (tally : Tally) (h : Handle) :
    board.Acted (board.offer envelope tally h).2.1 := by
  rw [offer_board, deliver]
  split
  · exact .refl
  · exact Acted.refl.act (.change h (.deliver envelope))

/-- A step of a broadcast is an act, if anything. -/
theorem acted_broadcast_step (board : Switchboard) (message : Message) (broadcast : Broadcast) :
    board.Acted (broadcast.step message board).2.1 := by
  unfold Broadcast.step
  split
  · exact .refl
  · exact .refl
  · next h todo tally => exact board.acted_offer message.envelope tally h
  · exact .refl
  · next h todo delivered => exact Acted.refl.act (.remove h)
  · exact .refl

theorem acted_offerAll (envelope : Envelope) (targets : List Handle) (tally : Tally)
    (board : Switchboard) : board.Acted (offerAll envelope tally board targets).2.1 := by
  induction targets generalizing tally board with
  | nil => exact .refl
  | cons h targets ih => exact (board.acted_offer envelope tally h).trans (ih _ _)

theorem acted_evict (board : Switchboard) (handles : List Handle) :
    board.Acted (board.evict handles) := by
  have hremoved := (Acted.refl : board.Acted board).foldl (handles.map .remove)
  rw [List.foldl_map] at hremoved
  exact hremoved

/-- All that a broadcast does to the switchboard are acts. -/
theorem acted_broadcastTo (board : Switchboard) (envelope : Envelope) (targets : List Handle) :
    board.Acted (board.broadcastTo envelope targets).2.1 :=
  (acted_offerAll envelope targets .zero board).trans (acted_evict _ _)

@[simp]
theorem length_broadcast_step (board : Switchboard) (message : Message) (broadcast : Broadcast) :
    (broadcast.step message board).2.1.connections.length = board.connections.length := by
  unfold Broadcast.step
  split
  · rfl
  · rfl
  · simp only
    rw [offer_board, deliver]
    split
    · rfl
    · exact length_modify _ _ _
  · rfl
  · exact length_remove _ _
  · rfl

theorem offer_delivered (board : Switchboard) (envelope : Envelope) (tally : Tally) (h : Handle) :
    (board.offer envelope tally h).1.delivered =
      tally.delivered + if board.outcome h = .queued then 1 else 0 := by
  rw [← deliver_fst board envelope h]
  unfold offer
  split
  · next hdeliver => simp [hdeliver]
  · next hdeliver => simp [hdeliver]
  · next hdeliver =>
      simp only [hdeliver]
      split <;> rfl

theorem offer_overflowed (board : Switchboard) (envelope : Envelope) (tally : Tally) (h : Handle) :
    (board.offer envelope tally h).1.overflowed =
      tally.overflowed ++ if evicts board.policy (board.outcome h) then [h] else [] := by
  have hpolicy := policy_deliver board envelope h
  rw [← deliver_fst board envelope h]
  unfold offer
  split
  · next hdeliver => simp [hdeliver, evicts]
  · next hdeliver => simp [hdeliver, evicts]
  · next hdeliver =>
      simp only [hdeliver] at hpolicy ⊢
      split
      · next hdisconnect => simp [evicts, ← hpolicy, hdisconnect]
      · next hdrop => simp [evicts, ← hpolicy, hdrop]

theorem get?_offer (board : Switchboard) (envelope : Envelope) (tally : Tally) (h g : Handle) :
    (board.offer envelope tally h).2.1.get? g =
      (board.get? g).map fun c => if g = h then (c.deliver envelope).2 else c := by
  rw [offer_board, get?_deliver]

@[simp]
theorem members_offer (board : Switchboard) (envelope : Envelope) (tally : Tally) (h : Handle) :
    (board.offer envelope tally h).2.1.members = board.members := by
  rw [offer_board, members_deliver]

@[simp]
theorem policy_offer (board : Switchboard) (envelope : Envelope) (tally : Tally) (h : Handle) :
    (board.offer envelope tally h).2.1.policy = board.policy := by
  rw [offer_board, policy_deliver]

/-- An offer to one connection does not change what another would do with the next. -/
theorem outcome_offer_of_ne (board : Switchboard) (envelope : Envelope) (tally : Tally)
    {h g : Handle} (hne : g ≠ h) :
    (board.offer envelope tally h).2.1.outcome g = board.outcome g := by
  rw [outcome, get?_offer]
  simp [hne, outcome]

/-- Each of distinct targets is offered the envelope once. -/
theorem get?_offerAll (envelope : Envelope) {targets : List Handle} (hnodup : targets.Nodup)
    (tally : Tally) (board : Switchboard) (g : Handle) :
    (offerAll envelope tally board targets).2.1.get? g =
      (board.get? g).map fun c => if g ∈ targets then (c.deliver envelope).2 else c := by
  induction targets generalizing tally board with
  | nil => simp [offerAll]
  | cons h targets ih =>
      have hout := (List.nodup_cons.mp hnodup).1
      simp only [offerAll]
      rw [ih (List.nodup_cons.mp hnodup).2, get?_offer, Option.map_map]
      congr 1
      funext c
      by_cases hg : g = h
      · subst hg
        simp [hout]
      · simp [hg]

@[simp]
theorem members_offerAll (envelope : Envelope) (targets : List Handle) (tally : Tally)
    (board : Switchboard) :
    (offerAll envelope tally board targets).2.1.members = board.members := by
  induction targets generalizing tally board with
  | nil => rfl
  | cons h targets ih => simp [offerAll, ih]

@[simp]
theorem policy_offerAll (envelope : Envelope) (targets : List Handle) (tally : Tally)
    (board : Switchboard) :
    (offerAll envelope tally board targets).2.1.policy = board.policy := by
  induction targets generalizing tally board with
  | nil => rfl
  | cons h targets ih => simp [offerAll, ih]

/-- As many queues take the envelope as would take it at the start. -/
theorem offerAll_delivered (envelope : Envelope) {targets : List Handle} (hnodup : targets.Nodup)
    (tally : Tally) (board : Switchboard) :
    (offerAll envelope tally board targets).1.delivered =
      tally.delivered + targets.countP fun h => board.outcome h == .queued := by
  induction targets generalizing tally board with
  | nil => rfl
  | cons h targets ih =>
      have hout := (List.nodup_cons.mp hnodup).1
      have hsame : (targets.countP fun g =>
            (board.offer envelope tally h).2.1.outcome g == .queued) =
          targets.countP fun g => board.outcome g == .queued := by
        apply List.countP_congr
        intro g hg
        rw [outcome_offer_of_ne _ _ _ (ne_of_mem_of_not_mem hg hout)]
      simp only [offerAll]
      rw [ih (List.nodup_cons.mp hnodup).2, hsame, offer_delivered, List.countP_cons]
      simp only [beq_iff_eq]
      omega

/-- The connections to be removed are the targets that were full at the start. -/
theorem offerAll_overflowed (envelope : Envelope) {targets : List Handle}
    (hnodup : targets.Nodup) (tally : Tally) (board : Switchboard) :
    (offerAll envelope tally board targets).1.overflowed =
      tally.overflowed ++ targets.filter fun h => evicts board.policy (board.outcome h) := by
  induction targets generalizing tally board with
  | nil => simp [offerAll]
  | cons h targets ih =>
      have hout := (List.nodup_cons.mp hnodup).1
      have hsame : (targets.filter fun g =>
            evicts board.policy ((board.offer envelope tally h).2.1.outcome g)) =
          targets.filter fun g => evicts board.policy (board.outcome g) := by
        apply List.filter_congr
        intro g hg
        rw [outcome_offer_of_ne _ _ _ (ne_of_mem_of_not_mem hg hout)]
      simp only [offerAll]
      rw [ih (List.nodup_cons.mp hnodup).2, policy_offer, hsame, offer_overflowed,
        List.filter_cons, List.append_assoc]
      split <;> simp

theorem get?_evict (board : Switchboard) (handles : List Handle) (g : Handle) :
    (board.evict handles).get? g = (board.get? g).map fun c =>
      if g ∈ handles ∧ g ∈ board.members then c.beginClose.2 else c := by
  induction handles generalizing board with
  | nil => simp [evict]
  | cons h handles ih =>
      simp only [evict, List.foldl_cons] at ih ⊢
      rw [ih, get?_remove, Option.map_map]
      congr 1
      funext c
      by_cases hg : g = h
      · subst hg
        simp [mem_remove]
      · simp [mem_remove, hg]

theorem mem_evict (board : Switchboard) (handles : List Handle) (g : Handle) :
    g ∈ (board.evict handles).members ↔ g ∈ board.members ∧ g ∉ handles := by
  induction handles generalizing board with
  | nil => simp [evict]
  | cons h handles ih =>
      simp only [evict, List.foldl_cons] at ih ⊢
      rw [ih, mem_remove, List.mem_cons, not_or, and_assoc]

@[simp]
theorem policy_evict (board : Switchboard) (handles : List Handle) :
    (board.evict handles).policy = board.policy := by
  induction handles generalizing board with
  | nil => rfl
  | cons h handles ih =>
      simp only [evict, List.foldl_cons] at ih ⊢
      rw [ih, policy_remove]

/-- A registered connection after it was a target of a broadcast. -/
def afterOffer (policy : OverflowPolicy) (envelope : Envelope) (c : Connection) : Connection :=
  if evicts policy c.offer then c.beginClose.2 else (c.deliver envelope).2

theorem get?_broadcastTo (board : Switchboard) (envelope : Envelope) {targets : List Handle}
    (hnodup : targets.Nodup) (hin : ∀ h ∈ targets, h ∈ board.members) (g : Handle) :
    (board.broadcastTo envelope targets).2.1.get? g = (board.get? g).map fun c =>
      if g ∈ targets then afterOffer board.policy envelope c else c := by
  simp only [broadcastTo]
  rw [get?_evict, get?_offerAll envelope hnodup, offerAll_overflowed envelope hnodup,
    members_offerAll]
  cases hget : board.get? g with
  | none => rfl
  | some c =>
      have houtcome : board.outcome g = c.offer := by simp [outcome, hget]
      by_cases htarget : g ∈ targets
      · by_cases hevicts : evicts board.policy c.offer
        · have hfull : c.offer ≠ .queued := by
            intro hqueued
            simp [hqueued, evicts] at hevicts
          simp [Tally.zero, htarget, houtcome, hevicts, hin g htarget, afterOffer,
            Connection.deliver_of_not_queued envelope hfull]
        · simp [Tally.zero, htarget, houtcome, hevicts, afterOffer]
      · simp [Tally.zero, htarget]

theorem mem_broadcastTo (board : Switchboard) (envelope : Envelope) {targets : List Handle}
    (hnodup : targets.Nodup) (g : Handle) :
    g ∈ (board.broadcastTo envelope targets).2.1.members ↔
      g ∈ board.members ∧ ¬(g ∈ targets ∧ evicts board.policy (board.outcome g) = true) := by
  simp only [broadcastTo]
  rw [mem_evict, members_offerAll, offerAll_overflowed envelope hnodup]
  simp [Tally.zero]

/-- Room decides what becomes of a target that is open and whose receiving half lives. -/
theorem afterOffer_of_opened {c : Connection} (policy : OverflowPolicy) (envelope : Envelope)
    (hsound : c.Sound) (hopen : c.lifecycle = .opened) (halive : c.receiver = .alive) :
    afterOffer policy envelope c =
        (if c.queue.length < c.capacity then { c with queue := c.queue ++ [envelope] }
        else if policy = .disconnect then
          { c with lifecycle := .closing, cancelled := true, senderHeld := false }
        else c) ∧
      (evicts policy c.offer = true ↔ c.capacity ≤ c.queue.length ∧ policy = .disconnect) := by
  have hoffer := Connection.offer_of_opened hsound hopen halive
  by_cases hroom : c.queue.length < c.capacity
  · rw [if_neg (Nat.not_le.mpr hroom)] at hoffer
    rw [if_pos hroom, afterOffer, hoffer]
    simp [evicts, Connection.deliver_of_queued envelope hoffer, Nat.not_le.mpr hroom]
  · have hfull := Nat.le_of_not_lt hroom
    rw [if_pos hfull] at hoffer
    have hdeliver := Connection.deliver_of_not_queued envelope
      (show c.offer ≠ .queued by simp [hoffer])
    rw [if_neg hroom, afterOffer, hoffer]
    cases policy <;> simp [evicts, hfull, hdeliver, Connection.beginClose, hopen]

section

variable {board : Switchboard} {targets : List Handle} {h : Handle} {c : Connection}

/-- A target that is open and whose receiving half lives takes the envelope if it has room, and goes
if it has none and the policy says so. -/
theorem broadcastTo_of_opened (envelope : Envelope) (hnodup : targets.Nodup)
    (hin : ∀ g ∈ targets, g ∈ board.members) (htarget : h ∈ targets)
    (hget : board.get? h = some c) (hsound : c.Sound) (hopen : c.lifecycle = .opened)
    (halive : c.receiver = .alive) :
    (board.broadcastTo envelope targets).2.1.get? h = some
        (if c.queue.length < c.capacity then { c with queue := c.queue ++ [envelope] }
        else if board.policy = .disconnect then
          { c with lifecycle := .closing, cancelled := true, senderHeld := false }
        else c) ∧
      (h ∈ (board.broadcastTo envelope targets).2.1.members ↔
        ¬(c.capacity ≤ c.queue.length ∧ board.policy = .disconnect)) := by
  obtain ⟨hafter, hevicts⟩ := afterOffer_of_opened board.policy envelope hsound hopen halive
  have houtcome : board.outcome h = c.offer := by simp [outcome, hget]
  constructor
  · rw [get?_broadcastTo board envelope hnodup hin, hget, Option.map_some, if_pos htarget, hafter]
  · rw [mem_broadcastTo board envelope hnodup, houtcome, hevicts]
    simp only [hin h htarget, htarget, true_and]

/-- A connection that is no target, or one that would take nothing, stays as it was. -/
theorem broadcastTo_of_closed (envelope : Envelope) (hnodup : targets.Nodup)
    (hin : ∀ g ∈ targets, g ∈ board.members)
    (hclosed : h ∈ targets → ∀ c, board.get? h = some c → c.offer = .closed) :
    (board.broadcastTo envelope targets).2.1.get? h = board.get? h ∧
      (h ∈ (board.broadcastTo envelope targets).2.1.members ↔ h ∈ board.members) := by
  rw [get?_broadcastTo board envelope hnodup hin, mem_broadcastTo board envelope hnodup]
  by_cases htarget : h ∈ targets
  · obtain ⟨c, hget⟩ := exists_get?_of_mem (hin h htarget)
    have hoffer := hclosed htarget c hget
    have hdeliver := Connection.deliver_of_not_queued envelope
      (show c.offer ≠ .queued by simp [hoffer])
    simp [htarget, hget, outcome, hoffer, evicts, afterOffer, hdeliver]
  · simp [htarget]

end

theorem mem_snapshot (board : Switchboard) (wanted : UserId → Bool) (h : Handle) :
    h ∈ board.snapshot wanted ↔
      h ∈ board.members ∧ ∃ c, board.get? h = some c ∧ wanted c.user = true := by
  simp [snapshot, Option.any_eq_true]

theorem snapshot_nodup (board : Switchboard) (wanted : UserId → Bool) :
    (board.snapshot wanted).Nodup :=
  board.members_nodup.filter _

theorem get?_broadcast (board : Switchboard) (message : Message) (g : Handle) :
    (board.broadcast message).2.1.get? g = (board.get? g).map fun c =>
      if g ∈ board.snapshot message.wanted then afterOffer board.policy message.envelope c
      else c :=
  board.get?_broadcastTo message.envelope (board.snapshot_nodup message.wanted)
    (fun h hin => ((board.mem_snapshot _ h).mp hin).1) g

theorem mem_broadcast (board : Switchboard) (message : Message) (g : Handle) :
    g ∈ (board.broadcast message).2.1.members ↔ g ∈ board.members ∧
      ¬(g ∈ board.snapshot message.wanted ∧ evicts board.policy (board.outcome g) = true) :=
  board.mem_broadcastTo message.envelope (board.snapshot_nodup message.wanted) g

@[simp]
theorem policy_broadcast (board : Switchboard) (message : Message) :
    (board.broadcast message).2.1.policy = board.policy := by
  simp [broadcast, broadcastTo]

/-- A push to certain users can get through to a connection. -/
structure Reaches (board : Switchboard) (wanted : UserId → Prop) (h : Handle) (c : Connection) :
    Prop where
  registered : h ∈ board.members
  meant : wanted c.user
  opened : c.lifecycle = .opened
  receiving : c.receiver = .alive

/-- What pushing an envelope to certain users does to a switchboard. -/
structure Pushed (wanted : UserId → Prop) (envelope : Envelope) (before after : Switchboard) :
    Prop where
  /-- A connection that is reached and has room takes the envelope. -/
  taken : ∀ h c, before.get? h = some c → before.Reaches wanted h c →
    c.queue.length < c.capacity →
    after.get? h = some { c with queue := c.queue ++ [envelope] } ∧ h ∈ after.members
  /-- One that is reached and has no room is closed and removed where the policy says so. -/
  evicted : ∀ h c, before.get? h = some c → before.Reaches wanted h c →
    c.capacity ≤ c.queue.length → before.policy = .disconnect →
    after.get? h = some { c with lifecycle := .closing, cancelled := true, senderHeld := false } ∧
      h ∉ after.members
  /-- Otherwise it is passed over. -/
  passed : ∀ h c, before.get? h = some c → before.Reaches wanted h c →
    c.capacity ≤ c.queue.length → before.policy = .dropMessage →
    after.get? h = some c ∧ h ∈ after.members
  /-- All others stay as they were. -/
  untouched : ∀ h, (∀ c, before.get? h = some c → ¬before.Reaches wanted h c) →
    after.get? h = before.get? h ∧ (h ∈ after.members ↔ h ∈ before.members)
  policy : after.policy = before.policy

/-- A push that is meant for nobody does nothing. -/
theorem Pushed.of_forall_not {wanted : UserId → Prop} (hnobody : ∀ user, ¬wanted user)
    (board : Switchboard) (envelope : Envelope) : Pushed wanted envelope board board where
  taken := fun _ c _ hreach => absurd hreach.meant (hnobody c.user)
  evicted := fun _ c _ hreach => absurd hreach.meant (hnobody c.user)
  passed := fun _ c _ hreach => absurd hreach.meant (hnobody c.user)
  untouched := fun _ _ => ⟨rfl, Iff.rfl⟩
  policy := rfl

section

variable {board : Switchboard} {message : Message} {h : Handle} {c : Connection}

/-- Only its room decides what a broadcast makes of a connection that it reaches. -/
theorem Reaches.broadcast (hboard : board.Reachable) (hget : board.get? h = some c)
    (hreach : board.Reaches (fun user => message.wanted user = true) h c) :
    (board.broadcast message).2.1.get? h = some
        (if c.queue.length < c.capacity then { c with queue := c.queue ++ [message.envelope] }
        else if board.policy = .disconnect then
          { c with lifecycle := .closing, cancelled := true, senderHeld := false }
        else c) ∧
      (h ∈ (board.broadcast message).2.1.members ↔
        ¬(c.capacity ≤ c.queue.length ∧ board.policy = .disconnect)) :=
  broadcastTo_of_opened message.envelope (board.snapshot_nodup message.wanted)
    (fun g hin => ((board.mem_snapshot _ g).mp hin).1)
    ((board.mem_snapshot _ h).mpr ⟨hreach.registered, c, hget, hreach.meant⟩) hget
    (hboard.sound hget) hreach.opened hreach.receiving

/-- A connection that is not reached is no target, or it is one that takes nothing. -/
theorem broadcast_of_not_reaches
    (hreach : ∀ c, board.get? h = some c →
      ¬board.Reaches (fun user => message.wanted user = true) h c) :
    (board.broadcast message).2.1.get? h = board.get? h ∧
      (h ∈ (board.broadcast message).2.1.members ↔ h ∈ board.members) := by
  apply broadcastTo_of_closed message.envelope (board.snapshot_nodup message.wanted)
    fun g hin => ((board.mem_snapshot _ g).mp hin).1
  intro htarget c hget
  obtain ⟨hregistered, d, hd, hmeant⟩ := (board.mem_snapshot _ h).mp htarget
  obtain rfl := Option.some.inj (hget.symm.trans hd)
  apply Connection.offer_of_not
  intro hboth
  exact hreach c hget ⟨hregistered, hmeant, hboth.1, hboth.2⟩

end

/-- A broadcast is a push to the users it is meant for. -/
theorem pushed_broadcast {board : Switchboard} (hboard : board.Reachable) (message : Message) :
    Pushed (fun user => message.wanted user = true) message.envelope board
      (board.broadcast message).2.1 where
  taken := by
    intro h c hget hreach hroom
    obtain ⟨hafter, hmem⟩ := hreach.broadcast hboard hget
    rw [hafter, hmem, if_pos hroom]
    exact ⟨rfl, fun hboth => Nat.not_lt.mpr hboth.1 hroom⟩
  evicted := by
    intro h c hget hreach hfull hdisconnect
    obtain ⟨hafter, hmem⟩ := hreach.broadcast hboard hget
    rw [hafter, hmem, if_neg (Nat.not_lt.mpr hfull), if_pos hdisconnect]
    exact ⟨rfl, fun hstays => hstays ⟨hfull, hdisconnect⟩⟩
  passed := by
    intro h c hget hreach hfull hdrop
    obtain ⟨hafter, hmem⟩ := hreach.broadcast hboard hget
    rw [hafter, hmem, if_neg (Nat.not_lt.mpr hfull), hdrop]
    simp
  untouched := fun _ => broadcast_of_not_reaches
  policy := policy_broadcast board message

end Switchboard

end ListingHub
