import ListingHub.Proofs.Session.View

/-!
# Steps of a write pump

A step of a write pump is one of `Writes` for its own session, and nothing to any other.
-/

namespace ListingHub

namespace Hub

variable {hub next : Hub} {h g : Handle} {s t : Session}

theorem caller?_write (hs : hub.session? g = some s) (h : Handle) :
    hub.caller? h (.write g) =
      match s.peer.writer with
      | .leaving _ => if g = h then some .writePump else none
      | _ => none := by
  simp only [caller?, hs, Option.map_some]
  cases s.peer.writer <;> rfl

/-- Only the write pump of a session takes steps. -/
theorem session?_of_writeStep (hstep : writeStep g hub = some next) :
    ∃ s, hub.session? g = some s := by
  unfold writeStep at hstep
  split at hstep
  · next peer c hpeer hget =>
      exact ⟨⟨peer, c, _⟩, session?_eq_some_iff.mpr ⟨hpeer, hget, rfl⟩⟩
  · cases hstep

/-- A write pump that waits takes nobody off. -/
theorem caller?_write_of_none (h : Handle) (hstep : writeStep g hub = none) :
    hub.caller? h (.write g) = none := by
  cases hown : hub.session? g with
  | none => rw [caller?, hown]; rfl
  | some own =>
      obtain ⟨hpeer, hget, -⟩ := session?_eq_some_iff.mp hown
      rw [caller?_write hown]
      simp only [writeStep, hpeer, hget] at hstep
      split
      · next exit hwriter =>
          rw [hwriter] at hstep
          cases hstep
      · rfl

/-- A write pump takes no other connection off. -/
theorem caller?_write_of_ne (hub : Hub) (hne : h ≠ g) : hub.caller? h (.write g) = none := by
  cases hown : hub.session? g with
  | none => rw [caller?, hown]; rfl
  | some own =>
      rw [caller?_write hown]
      split
      · exact if_neg (Ne.symm hne)
      · rfl

theorem shows_setWriter (hs : hub.session? h = some s)
    (hremoval : hub.removal? h (.write h) = none) (writer : WritePump) :
    hub.Shows (.write h) h (hub.setWriter h writer) none [] (s.setWriter writer) := by
  refine ⟨?_, hremoval, (List.append_nil _).symm, rfl, rfl⟩
  rw [session?_setWriter, if_pos rfl, hs]
  rfl

theorem shows_written (hs : hub.session? h = some s)
    (hremoval : hub.removal? h (.write h) = none) (sink : Sink) (frame : Frame)
    (writer : WritePump) :
    hub.Shows (.write h) h ((hub.written h sink frame).setWriter h writer) none []
      ((s.written sink frame).setWriter writer) := by
  refine ⟨?_, hremoval, (List.append_nil _).symm, rfl, rfl⟩
  rw [session?_setWriter, if_pos rfl, session?_written, if_pos rfl, hs]
  rfl

theorem shows_stopWriter (hs : hub.session? h = some s)
    (hremoval : hub.removal? h (.write h) = none) (writer : WritePump) :
    hub.Shows (.write h) h (hub.stopWriter h writer) none []
      ((s.mapConnection Connection.shutReceiver).setWriter writer) := by
  refine ⟨?_, hremoval, (List.append_nil _).symm, rfl, rfl⟩
  rw [stopWriter, session?_setWriter, if_pos rfl, session?_modify, if_pos rfl, hs]
  rfl

/-- A step of an idle write pump. -/
theorem writes_idleStep (hs : hub.session? h = some s) {due : Instant}
    (hwriter : s.peer.writer = .idle due) (hremoval : hub.removal? h (.write h) = none)
    (hstep : hub.idleStep h s.connection due = some next) :
    ∃ t, hub.Shows (.write h) h next none [] t ∧ s.Writes hub.settings hub.now none [] t := by
  obtain ⟨-, hget, -⟩ := session?_eq_some_iff.mp hs
  have hreceive : hub.service.board.receive h = (s.connection.receive.1,
      hub.service.board.modify h fun c => c.receive.2) := by
    rw [Switchboard.receive, show hub.service.board.get? h = some s.connection from hget]
  unfold idleStep at hstep
  split at hstep
  · next hcancelled =>
      obtain rfl := Option.some.inj hstep
      exact ⟨_, shows_stopWriter hs hremoval _, .stop hwriter hcancelled⟩
  · next hgo =>
      have hfree := Bool.eq_false_iff.mpr hgo
      rw [hreceive] at hstep
      split at hstep
      · next envelope board hfound =>
          obtain ⟨hreceipt, rfl⟩ := Prod.mk.inj hfound
          obtain rfl := Option.some.inj hstep
          refine ⟨_, ⟨?_, hremoval, (List.append_nil _).symm, rfl, rfl⟩,
            .fetch hwriter hfree hreceipt⟩
          have hmodified := hub.session?_modify h h fun c => c.receive.2
          rw [if_pos rfl, hs] at hmodified
          rw [session?_setWriter, if_pos rfl]
          exact congrArg (Option.map _) hmodified
      · next hfound =>
          obtain ⟨hreceipt, -⟩ := Prod.mk.inj hfound
          obtain rfl := Option.some.inj hstep
          exact ⟨_, shows_stopWriter hs hremoval _, .disconnect hwriter hfree (.inl hreceipt)⟩
      · next hfound =>
          obtain ⟨hreceipt, -⟩ := Prod.mk.inj hfound
          obtain rfl := Option.some.inj hstep
          exact ⟨_, shows_stopWriter hs hremoval _, .disconnect hwriter hfree (.inr hreceipt)⟩
      · next hfound =>
          obtain ⟨hreceipt, -⟩ := Prod.mk.inj hfound
          split at hstep
          · next hlate =>
              obtain rfl := Option.some.inj hstep
              exact ⟨_, shows_setWriter hs hremoval _, .ping hwriter hfree hreceipt hlate⟩
          · cases hstep

/-- A write pump starts once its connection is registered. -/
theorem writes_startWriter (hs : hub.session? h = some s) (hwriter : s.peer.writer = .starting)
    (hjoined : s.peer.reader ≠ .joining) (hremoval : hub.removal? h (.write h) = none) :
    ∃ t, hub.Shows (.write h) h (hub.startWriter h) none [] t ∧
      s.Writes hub.settings hub.now none [] t := by
  unfold startWriter
  split
  · next interval hinterval =>
      exact ⟨_, shows_setWriter hs hremoval _, .start hwriter hjoined hinterval⟩
  · next hinterval =>
      refine ⟨_, ⟨?_, hremoval, (List.append_nil _).symm, rfl, rfl⟩,
        .crash hwriter hjoined hinterval⟩
      rw [session?_setWriter, if_pos rfl, session?_modify, if_pos rfl, hs]
      rfl

/-- A step of the write pump of a session. -/
theorem writes_writeStep (hs : hub.session? h = some s) (hstep : writeStep h hub = some next) :
    ∃ removal lines t, hub.Shows (.write h) h next removal lines t ∧
      s.Writes hub.settings hub.now removal lines t := by
  obtain ⟨hpeer, hget, -⟩ := session?_eq_some_iff.mp hs
  have hremoval := removal?_eq hs (.write h)
  rw [caller?_write hs] at hremoval
  simp only [writeStep, hpeer, hget] at hstep
  split at hstep
  · next hwriter =>
      rw [hwriter] at hremoval
      split at hstep
      · cases hstep
      · next hjoined =>
          obtain rfl := Option.some.inj hstep
          obtain ⟨t, hshows, hwrites⟩ := writes_startWriter hs hwriter hjoined hremoval
          exact ⟨_, _, t, hshows, hwrites⟩
  · next due hwriter =>
      rw [hwriter] at hremoval
      obtain ⟨t, hshows, hwrites⟩ := writes_idleStep hs hwriter hremoval hstep
      exact ⟨_, _, t, hshows, hwrites⟩
  · next frame due hwriter =>
      rw [hwriter] at hremoval
      obtain ⟨outcome, hwrite, rfl⟩ := Option.map_eq_some_iff.mp hstep
      cases outcome with
      | ok sink => exact ⟨_, _, _, shows_written hs hremoval _ _ _, .send hwriter hwrite⟩
      | error reason => exact ⟨_, _, _, shows_stopWriter hs hremoval _, .fail hwriter hwrite⟩
  · next exit hwriter =>
      rw [hwriter] at hremoval
      obtain ⟨outcome, hwrite, rfl⟩ := Option.map_eq_some_iff.mp hstep
      cases outcome with
      | ok sink => exact ⟨_, _, _, shows_written hs hremoval _ _ _, .farewell hwriter hwrite⟩
      | error reason => exact ⟨_, _, _, shows_setWriter hs hremoval _, .giveUp hwriter hwrite⟩
  · next exit hwriter =>
      rw [hwriter] at hremoval
      obtain rfl := Option.some.inj hstep
      refine ⟨_, _, _, ⟨?_, ?_, ?_, rfl, rfl⟩, .teardown hwriter⟩
      · rw [session?_setWriter, if_pos rfl, session?_modify, if_pos rfl, session?_teardown,
          if_pos rfl, hs]
        rfl
      · rw [hremoval, if_pos rfl]
        rfl
      · exact milestones_teardown_self hs exit
  · cases hstep
  · cases hstep

theorem passes_stopWriter (hub : Hub) (hne : h ≠ g) (writer : WritePump) :
    hub.Passes h (hub.stopWriter g writer) := by
  refine ⟨?_, rfl, rfl, rfl⟩
  rw [stopWriter, session?_setWriter, if_neg hne, session?_modify, if_neg hne]

theorem passes_startWriter (hub : Hub) (hne : h ≠ g) : hub.Passes h (hub.startWriter g) := by
  unfold startWriter
  split
  · exact passes_setWriter hub hne _
  · refine ⟨?_, rfl, rfl, rfl⟩
    rw [session?_setWriter, if_neg hne, session?_modify, if_neg hne]

theorem passes_written (hub : Hub) (hne : h ≠ g) (sink : Sink) (frame : Frame)
    (writer : WritePump) : hub.Passes h ((hub.written g sink frame).setWriter g writer) := by
  refine ⟨?_, rfl, rfl, rfl⟩
  rw [session?_setWriter, if_neg hne, session?_written, if_neg hne]

theorem passes_idleStep {c : Connection} {due : Instant} (hne : h ≠ g)
    (hget : hub.connection? g = some c) (hstep : hub.idleStep g c due = some next) :
    hub.Passes h next := by
  have hreceive : hub.service.board.receive g =
      (c.receive.1, hub.service.board.modify g fun c => c.receive.2) := by
    rw [Switchboard.receive, show hub.service.board.get? g = some c from hget]
  unfold idleStep at hstep
  split at hstep
  · obtain rfl := Option.some.inj hstep
    exact passes_stopWriter hub hne _
  · rw [hreceive] at hstep
    split at hstep
    · next envelope board hfound =>
        obtain ⟨-, rfl⟩ := Prod.mk.inj hfound
        obtain rfl := Option.some.inj hstep
        have hmodified := hub.session?_modify g h fun c => c.receive.2
        rw [if_neg hne] at hmodified
        refine ⟨?_, rfl, rfl, rfl⟩
        rw [session?_setWriter, if_neg hne]
        exact hmodified
    · obtain rfl := Option.some.inj hstep
      exact passes_stopWriter hub hne _
    · obtain rfl := Option.some.inj hstep
      exact passes_stopWriter hub hne _
    · split at hstep
      · obtain rfl := Option.some.inj hstep
        exact passes_setWriter hub hne _
      · cases hstep

/-- A step of another write pump leaves the session alone. -/
theorem passes_writeStep (hne : h ≠ g) (hstep : writeStep g hub = some next) :
    hub.Passes h next := by
  unfold writeStep at hstep
  split at hstep
  · next peer c hpeer hget =>
      split at hstep
      · split at hstep
        · cases hstep
        · obtain rfl := Option.some.inj hstep
          exact passes_startWriter hub hne
      · exact passes_idleStep hne hget hstep
      · obtain ⟨outcome, -, rfl⟩ := Option.map_eq_some_iff.mp hstep
        cases outcome with
        | ok sink => exact passes_written hub hne sink _ _
        | error reason => exact passes_stopWriter hub hne _
      · obtain ⟨outcome, -, rfl⟩ := Option.map_eq_some_iff.mp hstep
        cases outcome with
        | ok sink => exact passes_written hub hne sink _ _
        | error reason => exact passes_setWriter hub hne _
      · next exit _ =>
          obtain rfl := Option.some.inj hstep
          refine ⟨?_, ?_, rfl, rfl⟩
          · rw [session?_setWriter, if_neg hne, session?_modify, if_neg hne, session?_teardown,
              if_neg hne]
          · exact hub.milestones_teardown_of_ne hne exit
      · cases hstep
      · cases hstep
  · cases hstep

end Hub

end ListingHub
