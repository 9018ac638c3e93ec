import ListingHub.Proofs.Broadcast

/-!
# What queues accept

A queue grows at its end by an offer, one envelope at a time, and by nothing else. Whatever else is
done to a switchboard leaves the end of every queue as it was, so what a queue accepted in one piece
of work can be read off the queue before and after.
-/

namespace ListingHub

namespace Connection

@[simp]
theorem queue_markOpen (c : Connection) : c.markOpen.2.queue = c.queue := by
  unfold markOpen
  split <;> rfl

@[simp]
theorem queue_beginClose (c : Connection) : c.beginClose.2.queue = c.queue := by
  unfold beginClose
  split <;> rfl

/-- Receiving takes from the front at most. -/
theorem queue_receive_suffix (c : Connection) : c.receive.2.queue <:+ c.queue := by
  rcases c with ⟨_, _, _, _, _, receiver, queue⟩
  cases receiver <;> cases queue <;> simp [receive]

theorem queue_deliver (envelope : Envelope) (c : Connection) :
    (c.deliver envelope).2.queue = c.queue ++ if c.offer = .queued then [envelope] else [] := by
  by_cases hqueued : c.offer = .queued
  · rw [deliver_of_queued _ hqueued, if_pos hqueued]
  · rw [deliver_of_not_queued _ hqueued, if_neg hqueued, List.append_nil]

end Connection

namespace Switchboard

variable {board before after : Switchboard} {h g : Handle}

/-- What waits for a connection; nothing, when there is no such connection. -/
def queue (board : Switchboard) (h : Handle) : List Envelope :=
  ((board.get? h).map Connection.queue).getD []

/-- The envelopes by which the queue of a connection grew. -/
def accepted (before after : Switchboard) (h : Handle) : List Envelope :=
  (after.queue h).drop (before.queue h).length

theorem accepted_of_suffix (hsuffix : after.queue h <:+ before.queue h) :
    before.accepted after h = [] :=
  List.drop_of_length_le hsuffix.length_le

theorem accepted_of_append {new : List Envelope} (happend : after.queue h = before.queue h ++ new) :
    before.accepted after h = new := by
  rw [accepted, happend, List.drop_left]

theorem queue_of_get?_map {f : Connection → Connection}
    (hget : after.get? g = (before.get? g).map f) (hf : ∀ c, (f c).queue = c.queue) :
    after.queue g = before.queue g := by
  rw [queue, queue, hget, Option.map_map]
  congr 2
  funext c
  exact hf c

/-- A change of a connection that takes from the front of its queue at most. -/
theorem queue_modify_suffix {f : Connection → Connection} (hf : ∀ c, (f c).queue <:+ c.queue)
    (board : Switchboard) (h g : Handle) : (board.modify h f).queue g <:+ board.queue g := by
  rw [queue, queue, get?_modify]
  cases board.get? g with
  | none => exact List.suffix_refl _
  | some c =>
      by_cases hg : g = h
      · simpa [hg] using hf c
      · simp [hg]

@[simp]
theorem queue_connect (board : Switchboard) (identity : Identity) (capacity : Nat) (g : Handle) :
    (board.connect identity capacity).2.queue g = board.queue g := by
  rw [queue, get?_connect]
  split
  · next hnew =>
      -- The new connection has an empty queue, and there was none in its place.
      have hnone : board.get? g = none := by
        rw [get?, hnew]
        exact List.getElem?_eq_none (Nat.le_refl _)
      simp [queue, hnone, Connection.new]
  · rfl

@[simp]
theorem queue_add (board : Switchboard) (h g : Handle) :
    (board.add h).2.queue g = board.queue g := by
  apply queue_of_get?_map (board.get?_add h g)
  intro c
  split
  · exact c.queue_markOpen
  · rfl

@[simp]
theorem queue_remove (board : Switchboard) (h g : Handle) :
    (board.remove h).2.queue g = board.queue g := by
  apply queue_of_get?_map (board.get?_remove h g)
  intro c
  split
  · exact c.queue_beginClose
  · rfl

@[simp]
theorem queue_beginClose (board : Switchboard) (h g : Handle) :
    (board.beginClose h).queue g = board.queue g := by
  apply queue_of_get?_map (board.get?_modify h g _)
  intro c
  split
  · exact c.queue_beginClose
  · rfl

@[simp]
theorem queue_closeAll (board : Switchboard) (g : Handle) :
    board.closeAll.2.queue g = board.queue g := by
  apply queue_of_get?_map (board.get?_closeAll g)
  intro c
  split
  · exact c.queue_beginClose
  · rfl

/-- An offer that is queued puts the envelope at the end of the target's queue. -/
theorem queue_offer (board : Switchboard) (envelope : Envelope) (tally : Tally) (h g : Handle) :
    (board.offer envelope tally h).2.1.queue g =
      board.queue g ++ if g = h ∧ board.outcome h = .queued then [envelope] else [] := by
  rw [queue, queue, get?_offer]
  cases hget : board.get? g with
  | none =>
      have hnot : ¬(g = h ∧ board.outcome h = .queued) := by
        rintro ⟨rfl, hqueued⟩
        simp [outcome, hget] at hqueued
      simp [hnot]
  | some c =>
      by_cases hg : g = h
      · subst hg
        simp [Connection.queue_deliver, outcome, hget]
      · simp [hg]

/-- A step of a broadcast gets into the queue of the target it is for, if into any. -/
theorem queue_broadcast_step (board : Switchboard) (message : Message) (broadcast : Broadcast)
    (g : Handle) :
    (broadcast.step message board).2.1.queue g = board.queue g ∨
      ∃ todo tally after, broadcast = .delivering (g :: todo) tally ∧
        (broadcast.step message board).1 = .delivering todo after ∧
        (broadcast.step message board).2.1.queue g = board.queue g ++ [message.envelope] := by
  cases broadcast with
  | choosing | finished delivered => exact .inl rfl
  | evicting todo delivered =>
      cases todo with
      | nil => exact .inl rfl
      | cons h todo => exact .inl (board.queue_remove h g)
  | delivering todo tally =>
      cases todo with
      | nil => exact .inl rfl
      | cons h todo =>
          have hqueue := board.queue_offer message.envelope tally h g
          split at hqueue
          · next htarget =>
              obtain ⟨rfl, -⟩ := htarget
              exact .inr ⟨todo, tally, _, rfl, rfl, hqueue⟩
          · rw [List.append_nil] at hqueue
            exact .inl hqueue

end Switchboard

end ListingHub
