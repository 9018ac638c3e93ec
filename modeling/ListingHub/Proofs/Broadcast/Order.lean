import ListingHub.Proofs.Registration
import Mathlib.Data.Set.Card

/-!
# Broadcasts in any order

A broadcast comes to its targets in no particular order. What becomes of a target depends on that
connection alone and the removals come last, so every order leaves the same switchboard, reaches the
same number of queues and logs the same lines but for their order.
-/

namespace ListingHub.Switchboard

variable {board other : Switchboard} {targets others : List Handle} {h : Handle} {c : Connection}

/-- The policy, the connections and the list of the members are all there is to a switchboard. -/
theorem eq_of_get? (hpolicy : board.policy = other.policy)
    (hget : ∀ h, board.get? h = other.get? h) (hmembers : board.members = other.members) :
    board = other := by
  have hconnections : board.connections = other.connections := List.ext_getElem? hget
  cases board
  cases other
  simp_all

/-- Those who are left after a pass of removals keep their order. -/
theorem members_evict (board : Switchboard) (handles : List Handle) :
    (board.evict handles).members = board.members.filter fun h => decide (h ∉ handles) := by
  induction handles generalizing board with
  | nil => simp [evict]
  | cons h handles ih =>
      simp only [evict, List.foldl_cons] at ih ⊢
      rw [ih, members_remove, board.members_nodup.erase_eq_filter, List.filter_filter]
      apply List.filter_congr
      intro g _
      by_cases hg : g = h <;> simp [hg]

/-- A line is logged for a target whose queue is full. -/
def fullEntries (board : Switchboard) (h : Handle) : List Entry :=
  if board.outcome h = .full then board.fullEntry h else []

/-- An offer that finds the queue full changes nothing, so the line tells of the connection as it
was. -/
theorem offer_log (board : Switchboard) (envelope : Envelope) (tally : Tally) (h : Handle) :
    (board.offer envelope tally h).2.2 = board.fullEntries h := by
  have hpolicy := policy_deliver board envelope h
  have hget := get?_deliver board envelope h h
  rw [fullEntries, ← deliver_fst board envelope h]
  unfold offer
  split
  · next hdeliver => simp [hdeliver]
  · next hdeliver => simp [hdeliver]
  · next after hdeliver =>
      simp only [hdeliver, if_true] at hpolicy hget ⊢
      have hentry : after.fullEntry h = board.fullEntry h := by
        rw [fullEntry, fullEntry, hget, hpolicy]
        cases board.get? h with
        | none => rfl
        | some c =>
            have howner := Connection.identity_apply (.deliver envelope) c
            simp only [Option.map_some, Connection.user]
            rw [show (c.deliver envelope).2.identity = c.identity from howner]
      split <;> exact hentry

theorem fullEntries_offer_of_ne (board : Switchboard) (envelope : Envelope) (tally : Tally)
    {h g : Handle} (hne : g ≠ h) :
    (board.offer envelope tally h).2.1.fullEntries g = board.fullEntries g := by
  rw [fullEntries, fullEntries, outcome_offer_of_ne _ _ _ hne, fullEntry, fullEntry, get?_offer,
    policy_offer]
  simp [hne]

/-- The lines of a pass of offers are those of its targets, as they were at the start. -/
theorem offerAll_log (envelope : Envelope) (hnodup : targets.Nodup) (tally : Tally)
    (board : Switchboard) :
    (offerAll envelope tally board targets).2.2 = targets.flatMap board.fullEntries := by
  induction targets generalizing tally board with
  | nil => rfl
  | cons h targets ih =>
      obtain ⟨hout, hrest⟩ := List.nodup_cons.mp hnodup
      have hsame : targets.flatMap (board.offer envelope tally h).2.1.fullEntries =
          targets.flatMap board.fullEntries := by
        rw [List.flatMap_def, List.flatMap_def]
        congr 1
        apply List.map_congr_left
        intro g hg
        exact fullEntries_offer_of_ne board envelope tally (ne_of_mem_of_not_mem hg hout)
      simp only [offerAll]
      rw [ih hrest, hsame, offer_log, List.flatMap_cons]

/-- The members after a broadcast are those before it but for the targets that are removed. -/
theorem members_broadcastTo (board : Switchboard) (envelope : Envelope) (hnodup : targets.Nodup) :
    (board.broadcastTo envelope targets).2.1.members = board.members.filter fun h =>
      decide (¬(h ∈ targets ∧ evicts board.policy (board.outcome h) = true)) := by
  simp only [broadcastTo]
  rw [members_evict, members_offerAll, offerAll_overflowed envelope hnodup]
  simp [Tally.zero]

theorem policy_broadcastTo (board : Switchboard) (envelope : Envelope) (targets : List Handle) :
    (board.broadcastTo envelope targets).2.1.policy = board.policy := by
  simp [broadcastTo]

/-- Every order of the targets comes to the same. -/
theorem broadcastTo_perm (envelope : Envelope) (hperm : targets.Perm others)
    (hnodup : targets.Nodup) (hin : ∀ h ∈ targets, h ∈ board.members) :
    (board.broadcastTo envelope targets).1 = (board.broadcastTo envelope others).1 ∧
      (board.broadcastTo envelope targets).2.1 = (board.broadcastTo envelope others).2.1 ∧
      (board.broadcastTo envelope targets).2.2.Perm (board.broadcastTo envelope others).2.2 := by
  have hnodup' : others.Nodup := hperm.nodup_iff.mp hnodup
  have hin' : ∀ h ∈ others, h ∈ board.members := fun h hmem => hin h (hperm.mem_iff.mpr hmem)
  refine ⟨?_, eq_of_get? ?_ ?_ ?_, ?_⟩
  · simp only [broadcastTo]
    rw [offerAll_delivered envelope hnodup, offerAll_delivered envelope hnodup', hperm.countP_eq]
  · rw [policy_broadcastTo, policy_broadcastTo]
  · intro h
    rw [get?_broadcastTo board envelope hnodup hin, get?_broadcastTo board envelope hnodup' hin']
    simp only [hperm.mem_iff]
  · rw [members_broadcastTo board envelope hnodup, members_broadcastTo board envelope hnodup']
    simp only [hperm.mem_iff]
  · simp only [broadcastTo]
    rw [offerAll_log envelope hnodup, offerAll_log envelope hnodup']
    exact hperm.flatMap_right _

/-- A broadcast gets through to a connection. -/
structure Hears (board : Switchboard) (p : Handle → Connection → Bool) (h : Handle)
    (c : Connection) : Prop where
  registered : h ∈ board.members
  meant : p h c = true
  opened : c.lifecycle = .opened
  receiving : c.receiver = .alive

theorem mem_matching (board : Switchboard) (p : Handle → Connection → Bool) (h : Handle) :
    h ∈ board.matching p ↔ h ∈ board.members ∧ ∃ c, board.get? h = some c ∧ p h c = true := by
  simp [matching, Option.any_eq_true]

/-- A matching connection that a broadcast does not get through to takes nothing. -/
theorem offer_of_not_hears {p : Handle → Connection → Bool} (hmatch : h ∈ board.matching p)
    (hget : board.get? h = some c) (hdeaf : ¬board.Hears p h c) : c.offer = .closed := by
  obtain ⟨hregistered, d, hd, hmeant⟩ := (board.mem_matching p h).mp hmatch
  obtain rfl := Option.some.inj (hget.symm.trans hd)
  exact Connection.offer_of_not fun hboth => hdeaf ⟨hregistered, hmeant, hboth.1, hboth.2⟩

/-- The queues that take the envelope are those with room of the connections that hear it. -/
theorem queued_iff (hboard : board.Reachable) {p : Handle → Connection → Bool}
    (hmatch : h ∈ board.matching p) : board.outcome h = .queued ↔
      ∃ c, board.get? h = some c ∧ board.Hears p h c ∧ c.queue.length < c.capacity := by
  obtain ⟨hregistered, c, hget, hmeant⟩ := (board.mem_matching p h).mp hmatch
  have houtcome : board.outcome h = c.offer := by simp [outcome, hget]
  rw [houtcome, Connection.offer_eq_queued_iff]
  constructor
  · rintro ⟨-, hopen, halive, hroom⟩
    exact ⟨c, hget, ⟨hregistered, hmeant, beq_iff_eq.mp hopen, halive⟩, hroom⟩
  · rintro ⟨d, hd, hhears, hroom⟩
    obtain rfl := Option.some.inj (hget.symm.trans hd)
    exact ⟨(hboard.sound hget).senderHeld_of_opened hhears.opened, beq_iff_eq.mpr hhears.opened,
      hhears.receiving, hroom⟩

theorem broadcastTo_fst (hboard : board.Reachable) (p : Handle → Connection → Bool)
    (envelope : Envelope) : (board.broadcastTo envelope (board.matching p)).1 =
      {h | ∃ c, board.get? h = some c ∧ board.Hears p h c ∧
        c.queue.length < c.capacity}.ncard := by
  have hnodup : (board.matching p).Nodup := board.members_nodup.filter _
  have htakers : {h | ∃ c, board.get? h = some c ∧ board.Hears p h c ∧
      c.queue.length < c.capacity} =
      (((board.matching p).filter fun h => board.outcome h == .queued).toFinset : Set Handle) := by
    ext h
    rw [Set.mem_ofPred_eq, Finset.mem_coe, List.mem_toFinset, List.mem_filter, beq_iff_eq]
    constructor
    · rintro ⟨c, hget, hhears, hroom⟩
      have hmatch := (board.mem_matching p h).mpr ⟨hhears.registered, c, hget, hhears.meant⟩
      exact ⟨hmatch, (queued_iff hboard hmatch).mpr ⟨c, hget, hhears, hroom⟩⟩
    · rintro ⟨hmatch, hqueued⟩
      exact (queued_iff hboard hmatch).mp hqueued
  rw [htakers, Set.ncard_coe_finset, List.toFinset_card_of_nodup (hnodup.filter _),
    ← List.countP_eq_length_filter]
  simp only [broadcastTo]
  rw [offerAll_delivered envelope hnodup, Tally.zero, Nat.zero_add]

/-- In whatever order a broadcast comes to the registered connections that match, it leaves the same
switchboard and answers the same. The matching connections that are open and whose receiving half
lives take the envelope once where they have room, and the answer is their number. Where they have
none they are removed, cancelled and closing, their queues as they were, if the policy is to
disconnect, and left as they were if it is to drop the message. Every other connection stays as it
was, registered or not. -/
theorem broadcast_in_any_order (hboard : board.Reachable) (p : Handle → Connection → Bool)
    (envelope : Envelope) {order : List Handle} (horder : order.Perm (board.matching p)) :
    let answer := (board.broadcastTo envelope order).1
    let after := (board.broadcastTo envelope order).2.1
    (answer = (board.broadcastTo envelope (board.matching p)).1 ∧
      after = (board.broadcastTo envelope (board.matching p)).2.1 ∧
      (board.broadcastTo envelope order).2.2.Perm
        (board.broadcastTo envelope (board.matching p)).2.2) ∧
    answer = {h | ∃ c, board.get? h = some c ∧ board.Hears p h c ∧
      c.queue.length < c.capacity}.ncard ∧
    (∀ h c, board.get? h = some c → board.Hears p h c →
      (c.queue.length < c.capacity →
        after.get? h = some { c with queue := c.queue ++ [envelope] } ∧ h ∈ after.members) ∧
      (c.capacity ≤ c.queue.length → board.policy = .disconnect →
        after.get? h =
          some { c with lifecycle := .closing, cancelled := true, senderHeld := false } ∧
        h ∉ after.members) ∧
      (c.capacity ≤ c.queue.length → board.policy = .dropMessage →
        after.get? h = some c ∧ h ∈ after.members)) ∧
    (∀ h, (∀ c, board.get? h = some c → ¬board.Hears p h c) →
      after.get? h = board.get? h ∧ (h ∈ after.members ↔ h ∈ board.members)) ∧
    after.policy = board.policy := by
  intro answer after
  have hnodup : order.Nodup := horder.nodup_iff.mpr (board.members_nodup.filter _)
  have hin : ∀ h ∈ order, h ∈ board.members :=
    fun h hmem => ((board.mem_matching p h).mp (horder.mem_iff.mp hmem)).1
  have hsame := broadcastTo_perm envelope horder hnodup hin
  refine ⟨hsame, hsame.1.trans (broadcastTo_fst hboard p envelope), ?_, ?_,
    board.policy_broadcastTo envelope order⟩
  · intro h c hget hhears
    have htarget : h ∈ order := horder.mem_iff.mpr
      ((board.mem_matching p h).mpr ⟨hhears.registered, c, hget, hhears.meant⟩)
    obtain ⟨hafter, hmem⟩ := broadcastTo_of_opened envelope hnodup hin htarget hget
      (hboard.sound hget) hhears.opened hhears.receiving
    refine ⟨fun hroom => ?_, fun hfull hdisconnect => ?_, fun hfull hdrop => ?_⟩
    · rw [if_pos hroom] at hafter
      exact ⟨hafter, hmem.mpr fun hboth => Nat.not_lt.mpr hboth.1 hroom⟩
    · rw [if_neg (Nat.not_lt.mpr hfull), if_pos hdisconnect] at hafter
      exact ⟨hafter, fun hstays => hmem.mp hstays ⟨hfull, hdisconnect⟩⟩
    · have hkeeps : board.policy ≠ .disconnect := by simp [hdrop]
      rw [if_neg (Nat.not_lt.mpr hfull), if_neg hkeeps] at hafter
      exact ⟨hafter, hmem.mpr fun hboth => hkeeps hboth.2⟩
  · intro h hdeaf
    apply broadcastTo_of_closed envelope hnodup hin
    intro htarget c hget
    exact offer_of_not_hears (horder.mem_iff.mp htarget) hget (hdeaf c hget)

/-- Three registered connections of capacity one, of which the second is full. -/
def oneFull : Switchboard :=
  [Act.connect ⟨⟨3⟩, .user⟩ 1, .connect ⟨⟨8⟩, .user⟩ 1, .connect ⟨⟨9⟩, .user⟩ 1, .add 0, .add 1,
    .add 2, .change 1 (.deliver ⟨"old", .null⟩)].foldl act (empty .disconnect)

/-- Everybody but the third is meant, the last of them first: one takes the envelope, the full one
goes and the third is left alone. -/
theorem broadcast_backwards :
    let after := (oneFull.broadcastTo ⟨"new", .null⟩ [1, 0]).2.1
    oneFull.Reachable ∧ [1, 0].Perm (oneFull.matching fun h _ => h != 2) ∧
    (oneFull.broadcastTo ⟨"new", .null⟩ [1, 0]).1 =
      {h | ∃ c, oneFull.get? h = some c ∧ oneFull.Hears (fun h _ => h != 2) h c ∧
        c.queue.length < c.capacity}.ncard ∧
    0 ∈ after.members ∧ 1 ∉ after.members ∧ after.get? 2 = oneFull.get? 2 := by
  intro after
  have hreachable : oneFull.Reachable := .acted (.empty .disconnect) (Acted.refl.foldl _)
  have horder : [1, 0].Perm (oneFull.matching fun h _ => h != 2) := .swap 0 1 []
  obtain ⟨-, hanswer, hheard, hothers, -⟩ :=
    broadcast_in_any_order hreachable (fun h _ => h != 2) ⟨"new", .null⟩ horder
  refine ⟨hreachable, horder, hanswer, ?_, ?_, ?_⟩
  · exact ((hheard 0 _ rfl ⟨by decide, rfl, rfl, rfl⟩).1 (by decide)).2
  · exact ((hheard 1 _ rfl ⟨by decide, rfl, rfl, rfl⟩).2.1 (by decide) rfl).2
  · refine (hothers 2 ?_).1
    intro c _ hhears
    exact absurd hhears.meant (by decide)

end ListingHub.Switchboard
