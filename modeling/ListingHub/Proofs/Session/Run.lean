import ListingHub.Proofs.Session.Reading
import ListingHub.Proofs.Session.Writing

/-!
# What a run does to a session

Whatever happens to a hub is a step of each of its sessions.
-/

namespace ListingHub

namespace Hub

variable {hub next : Hub} {h g : Handle} {s t : Session}

theorem passes_of_eq (hsame : next = hub) : hub.Passes h next := by
  rw [hsame]
  exact passes_refl hub h

theorem passes_fail (hub : Hub) (h : Handle) (failure : Failure) :
    hub.Passes h (Http.fail failure hub).2 := by
  refine ⟨rfl, ?_, rfl, rfl⟩
  have hnone : milestonesOf h
      ((Http.failureLog failure).map fun event => ((none : Option Handle), event)) = [] := by
    simp [milestonesOf]
  have hlogged := milestones_log hub ((Http.failureLog failure).map fun event => (none, event)) h
  rw [hnone, List.append_nil] at hlogged
  exact hlogged

theorem passes_toggleRead (hub : Hub) (h : Handle) (segment : String) (request : Http.Request) :
    hub.Passes h (Http.toggleRead segment request hub).2 := by
  unfold Http.toggleRead
  simp only
  split
  · exact passes_fail hub h _
  · split
    · exact passes_refl hub h
    · split
      · next failure store _ =>
          obtain ⟨hsession, hmilestones, hnow, hsettings⟩ :=
            passes_fail { hub with service := { hub.service with store } } h failure
          exact ⟨hsession, hmilestones, hnow, hsettings⟩
      · exact ⟨rfl, rfl, rfl, rfl⟩

/-- A request shows at no session. -/
theorem passes_respond (hub : Hub) (h : Handle) (request : Http.Request) :
    hub.Passes h (Http.respond request hub).2 := by
  unfold Http.respond
  simp only
  split
  · exact passes_refl hub h
  · split
    · exact passes_refl hub h
    · next route _ =>
        split
        · cases route with
          | health | upgrade => exact passes_refl hub h
          | notifications =>
              simp only [Http.serve, Http.listNotifications]
              split
              · exact passes_fail hub h _
              · exact passes_refl hub h
          | readFlag segment => exact passes_toggleRead hub h segment request
        · exact passes_refl hub h

theorem passes_accept (hs : hub.session? h = some s) (identity : Identity)
    (transport : Transport) : hub.Passes h (hub.accept identity transport).2 :=
  ⟨(session?_connect_of_some hs identity transport).trans hs.symm, rfl, rfl, rfl⟩

theorem passes_upgrade (hs : hub.session? h = some s) (request : Http.Request) :
    hub.Passes h (Http.upgrade request hub).2 := by
  unfold Http.upgrade
  split
  · exact passes_refl hub h
  · split
    · exact passes_fail hub h _
    · exact passes_accept hs _ .webSocket

/-- An arrival changes nothing, or it joins the inbox of a peer that is there to read it. -/
theorem arrive_cases (hub : Hub) (g : Handle) (arrival : Arrival) :
    (hub.arrive g arrival).2 = hub ∨
      ∃ peer next, hub.peers[g]? = some peer ∧ peer.isGone = false ∧ peer.hasEnded = false ∧
        (hub.arrive g arrival).2 =
          hub.modifyPeer g fun peer => { peer with inbox := peer.inbox ++ [next] } := by
  unfold arrive
  split
  · exact .inl rfl
  · next peer hpeer =>
      split
      · exact .inl rfl
      · next hopen =>
          obtain ⟨hgone, hended⟩ : peer.isGone = false ∧ peer.hasEnded = false := by
            simpa using hopen
          exact .inr ⟨peer, _, hpeer, hgone, hended, rfl⟩

theorem answerStep_cases (hstep : answerStep g hub = some next) :
    ∃ peer, hub.peers[g]? = some peer ∧ peer.unanswered ≠ 0 ∧
      next = hub.modifyPeer g fun peer' => { peer' with
        inbox := peer'.inbox ++ List.replicate peer.unanswered (Arrival.pong 0)
        unanswered := 0 } := by
  unfold answerStep at hstep
  split at hstep
  · cases hstep
  · next peer hpeer =>
      split at hstep
      · cases hstep
      · next hpings => exact ⟨peer, hpeer, hpings, (Option.some.inj hstep).symm⟩

theorem lapse_cases (hstep : lapse g hub = some next) :
    ∃ deadline job work wake,
      hub.peers[g]?.map Peer.reader = some (.handling deadline job (.recording work wake)) ∧
      job.limit.expires ≤ hub.now ∧
      next = hub.setReader g (.handling deadline job (.finished (.error job.limit.failure))) := by
  unfold lapse at hstep
  split at hstep
  · next deadline job work wake hreader =>
      split at hstep
      · next hlate =>
          exact ⟨deadline, job, work, wake, hreader, hlate, (Option.some.inj hstep).symm⟩
      · cases hstep
  · cases hstep

/-- A happening shows at a session as one of its steps. -/
def ShowsStep (hub : Hub) (happening : Happening) (h : Handle) (s : Session) : Prop :=
  ∃ removal lines t, hub.Shows happening h (hub.after happening) removal lines t ∧
    s.Step hub.settings hub.now h happening removal lines t

theorem Passes.showsStep {happening : Happening} (hpasses : hub.Passes h (hub.after happening))
    (hs : hub.session? h = some s) (hcaller : hub.caller? h happening = none)
    (hnow : happening.elapsed = 0) : hub.ShowsStep happening h s :=
  ⟨_, _, s, hpasses.shows hs hcaller hnow, .rest happening⟩

/-- A change of one peer shows at its session only. -/
theorem showsStep_modifyPeer {happening : Happening} (hs : hub.session? h = some s)
    (hcaller : hub.caller? h happening = none) (hnow : happening.elapsed = 0) {f : Peer → Peer}
    (hafter : hub.after happening = hub.modifyPeer g f)
    (htouched : h = g → s.Touched hub.now none (s.mapPeer f)) : hub.ShowsStep happening h s := by
  by_cases hg : h = g
  · have hshows := shows_modifyPeer hs hcaller hnow f
    subst hg
    rw [← hafter] at hshows
    exact ⟨_, _, _, hshows, .touch hnow (htouched rfl)⟩
  · have hpasses := passes_modifyPeer hub hg f
    rw [← hafter] at hpasses
    exact hpasses.showsStep hs hcaller hnow

theorem showsStep_arrive (hs : hub.session? h = some s) (g : Handle) (arrival : Arrival) :
    hub.ShowsStep (.arrive g arrival) h s := by
  obtain ⟨hpeer, -, -⟩ := session?_eq_some_iff.mp hs
  have hafter : hub.after (.arrive g arrival) = (hub.arrive g arrival).2 := rfl
  rcases hub.arrive_cases g arrival with hsame | ⟨peer, arrived, hthere, hgone, hended, hnext⟩
  · exact (passes_of_eq (hafter.trans hsame)).showsStep hs rfl rfl
  · apply showsStep_modifyPeer hs rfl rfl (hafter.trans hnext)
    rintro rfl
    obtain rfl := Option.some.inj (hpeer.symm.trans hthere)
    exact .arrive arrived hgone hended

theorem showsStep_read (hs : hub.session? h = some s) (g : Handle) (cancelFirst : Bool) :
    hub.ShowsStep (.read g cancelFirst) h s := by
  cases hstep : readStep cancelFirst g hub with
  | none =>
      have hafter : hub.after (.read g cancelFirst) = hub := by rw [after, hstep]; rfl
      exact (passes_of_eq hafter).showsStep hs (caller?_read_of_none h hstep) rfl
  | some next =>
      have hafter : hub.after (.read g cancelFirst) = next := by rw [after, hstep]; rfl
      rw [ShowsStep, hafter]
      by_cases hg : h = g
      · subst hg
        obtain ⟨removal, lines, t, hshows, hreads⟩ := reads_readStep hs hstep
        exact ⟨removal, lines, t, hshows, .read hreads⟩
      · obtain ⟨removal, t, hshows, hpushed⟩ := (pushed_readStep hg hstep).shows hs rfl
        exact ⟨removal, [], t, hshows, .touch rfl (.pushed hpushed)⟩

theorem showsStep_write (hs : hub.session? h = some s) (g : Handle) :
    hub.ShowsStep (.write g) h s := by
  cases hstep : writeStep g hub with
  | none =>
      have hafter : hub.after (.write g) = hub := by rw [after, hstep]; rfl
      exact (passes_of_eq hafter).showsStep hs (caller?_write_of_none h hstep) rfl
  | some next =>
      have hafter : hub.after (.write g) = next := by rw [after, hstep]; rfl
      by_cases hg : h = g
      · subst hg
        obtain ⟨removal, lines, t, hshows, hwrites⟩ := writes_writeStep hs hstep
        rw [ShowsStep, hafter]
        exact ⟨removal, lines, t, hshows, .write hwrites⟩
      · apply Passes.showsStep _ hs (caller?_write_of_ne hub hg) rfl
        rw [hafter]
        exact passes_writeStep hg hstep

theorem showsStep_lapse (hs : hub.session? h = some s) (g : Handle) :
    hub.ShowsStep (.lapse g) h s := by
  obtain ⟨hpeer, -, -⟩ := session?_eq_some_iff.mp hs
  have hafter : hub.after (.lapse g) = (Hub.lapse g hub).getD hub := rfl
  cases hstep : Hub.lapse g hub with
  | none =>
      rw [hstep] at hafter
      exact (passes_of_eq hafter).showsStep hs rfl rfl
  | some next =>
      obtain ⟨deadline, job, work, wake, hreader, hlate, rfl⟩ := lapse_cases hstep
      rw [hstep] at hafter
      apply showsStep_modifyPeer hs rfl rfl hafter
      rintro rfl
      rw [hpeer] at hreader
      exact .lapse (Option.some.inj hreader) hlate

theorem showsStep_answer (hs : hub.session? h = some s) (g : Handle) :
    hub.ShowsStep (.answer g) h s := by
  obtain ⟨hpeer, -, -⟩ := session?_eq_some_iff.mp hs
  have hafter : hub.after (.answer g) = (answerStep g hub).getD hub := rfl
  cases hstep : answerStep g hub with
  | none =>
      rw [hstep] at hafter
      exact (passes_of_eq hafter).showsStep hs rfl rfl
  | some next =>
      obtain ⟨peer, hthere, hpings, rfl⟩ := answerStep_cases hstep
      rw [hstep] at hafter
      apply showsStep_modifyPeer hs rfl rfl hafter
      rintro rfl
      obtain rfl := Option.some.inj (hpeer.symm.trans hthere)
      exact .answer hpings

/-- A removal from outside strikes one session off. -/
theorem showsStep_remove (hs : hub.session? h = some s) (g : Handle) :
    hub.ShowsStep (.remove g) h s := by
  have hremoval := removal?_eq hs (.remove g)
  have hremoved := hub.session?_remove g h
  rw [hs] at hremoved
  by_cases hg : h = g
  · subst hg
    rw [if_pos rfl] at hremoved
    rw [caller?, if_pos rfl] at hremoval
    exact ⟨_, _, _, ⟨hremoved, hremoval, (List.append_nil _).symm, rfl, rfl⟩,
      .touch rfl (.struck .outside rfl)⟩
  · rw [if_neg hg] at hremoved
    rw [caller?, if_neg (Ne.symm hg)] at hremoval
    exact ⟨_, _, s, ⟨hremoved, hremoval, (List.append_nil _).symm, rfl, rfl⟩, .rest _⟩

theorem showsStep_closeAll (hs : hub.session? h = some s) : hub.ShowsStep .closeAll h s := by
  refine ⟨_, _, _, ⟨?_, removal?_eq hs .closeAll, (List.append_nil _).symm, rfl, rfl⟩,
    .touch rfl (.struck .closeAll rfl)⟩
  rw [after, session?_closeAll, hs, Option.map_some]

/-- Whatever happens to a hub is a step of each of its sessions. -/
theorem shows_after (hs : hub.session? h = some s) (happening : Happening) :
    hub.ShowsStep happening h s := by
  cases happening with
  | accept identity transport => exact (passes_accept hs identity transport).showsStep hs rfl rfl
  | upgrade request => exact (passes_upgrade hs request).showsStep hs rfl rfl
  | request request => exact (passes_respond hub h request).showsStep hs rfl rfl
  | arrive g arrival => exact showsStep_arrive hs g arrival
  | block g blocked => exact showsStep_modifyPeer hs rfl rfl rfl fun _ => .resink rfl
  | breakSink g reason => exact showsStep_modifyPeer hs rfl rfl rfl fun _ => .resink rfl
  | read g cancelFirst => exact showsStep_read hs g cancelFirst
  | lapse g => exact showsStep_lapse hs g
  | write g => exact showsStep_write hs g
  | answer g => exact showsStep_answer hs g
  | closeAll => exact showsStep_closeAll hs
  | remove g => exact showsStep_remove hs g
  | pass nanos =>
      exact ⟨_, _, s, ⟨hs, removal?_of_caller? rfl, (List.append_nil _).symm, rfl, rfl⟩,
        .rest _⟩
  | faults _ | setAgent _ _ | addFavorite _ _ | addSession _ _ | create _ _ =>
      exact Passes.showsStep ⟨rfl, rfl, rfl, rfl⟩ hs rfl rfl

theorem length_of_lawful (hlawful : hub.outline.Lawful) :
    hub.peers.length = hub.service.board.connections.length := by
  simpa [outline] using hlawful.readers_length

theorem lawful_run (hlawful : hub.outline.Lawful) (happenings : List Happening) :
    (hub.run happenings).outline.Lawful :=
  outline_run (fun _ _ => Outline.lawful_step) hlawful happenings

/-- Every peer has its session. -/
theorem session?_of_peer (hlength : hub.peers.length = hub.service.board.connections.length)
    {peer : Peer} (hpeer : hub.peers[h]? = some peer) :
    ∃ s, hub.session? h = some s ∧ s.peer = peer := by
  have hlt : h < hub.service.board.connections.length :=
    hlength ▸ (List.getElem?_eq_some_iff.mp hpeer).1
  obtain ⟨c, hget⟩ : ∃ c, hub.connection? h = some c := ⟨_, List.getElem?_eq_getElem hlt⟩
  exact ⟨⟨peer, c, _⟩, session?_eq_some_iff.mpr ⟨hpeer, hget, rfl⟩, rfl⟩

/-- Without a session nobody is registered. -/
theorem contains_of_session?_none
    (hlength : hub.peers.length = hub.service.board.connections.length)
    (hnone : hub.session? h = none) : hub.service.board.contains h = false := by
  rw [Bool.eq_false_iff, Ne, Switchboard.contains_iff]
  intro hin
  have hlt : h < hub.peers.length := hlength ▸ hub.service.board.members_lt h hin
  obtain ⟨s, hs, -⟩ := session?_of_peer hlength (List.getElem?_eq_getElem hlt)
  rw [hnone] at hs
  cases hs

/-- A peer that is let in gets a fresh session. -/
theorem session?_accept (hlength : hub.peers.length = hub.service.board.connections.length)
    (identity : Identity) (transport : Transport) (h : Handle) :
    (hub.accept identity transport).2.session? h =
      if h = hub.peers.length then
        some (.fresh identity transport hub.settings.outboundCapacity)
      else hub.session? h := by
  have hboard : (hub.accept identity transport).2.connection? h =
      if h = hub.service.board.connections.length then
        some (.new identity hub.settings.outboundCapacity)
      else hub.connection? h := Switchboard.get?_connect _ _ _ h
  split
  · next hh =>
      refine session?_eq_some_iff.mpr ⟨?_, ?_, ?_⟩
      · simp [accept, hh, Session.fresh]
      · rw [hboard, if_pos (hh.trans hlength)]
        rfl
      · rw [Session.fresh, Bool.eq_false_iff, Ne, Switchboard.contains_iff]
        intro hin
        exact Nat.ne_of_lt (hub.service.board.members_lt h hin) (hh.trans hlength)
  · next hh =>
      have hpeers : (hub.accept identity transport).2.peers[h]? = hub.peers[h]? := by
        rcases Nat.lt_or_ge h hub.peers.length with hlt | hge
        · simp [accept, List.getElem?_append_left hlt]
        · have hpast : hub.peers.length + 1 ≤ h := Nat.lt_of_le_of_ne hge (Ne.symm hh)
          rw [List.getElem?_eq_none hge]
          exact List.getElem?_eq_none (by simpa [accept] using hpast)
      refine session?_congr hpeers ?_ rfl
      rw [hboard, if_neg fun heq => hh (heq.trans hlength.symm)]

/-- Without a session nobody takes it off. -/
theorem removal?_of_session?_none
    (hlength : hub.peers.length = hub.service.board.connections.length)
    (hnone : hub.session? h = none) (happening : Happening) : hub.removal? h happening = none := by
  rw [removal?, contains_of_session?_none hlength hnone]
  rfl

/-- From one hub without a session to the next nothing shows but, at most, that the session is
there and fresh. -/
structure Appears (hub : Hub) (h : Handle) (next : Hub) : Prop where
  milestones : next.milestones h = hub.milestones h
  settings : next.settings = hub.settings
  session : next.session? h = none ∨ ∃ identity transport,
    next.session? h = some (.fresh identity transport hub.settings.outboundCapacity)

theorem Passes.appears (hpasses : hub.Passes h next) (hnone : hub.session? h = none) :
    hub.Appears h next :=
  ⟨hpasses.milestones, hpasses.settings, .inl (hpasses.session.trans hnone)⟩

theorem appears_modifyPeer (hnone : hub.session? h = none) (g : Handle) (f : Peer → Peer) :
    hub.Appears h (hub.modifyPeer g f) := by
  refine ⟨rfl, rfl, .inl ?_⟩
  rw [session?_modifyPeer, hnone]
  split <;> rfl

theorem appears_getD {task : Option Hub} (hnone : hub.session? h = none)
    (hstep : ∀ next, task = some next → hub.Appears h next) : hub.Appears h (task.getD hub) := by
  cases task with
  | none => exact (passes_refl hub h).appears hnone
  | some next => exact hstep next rfl

theorem appears_accept (hlength : hub.peers.length = hub.service.board.connections.length)
    (hnone : hub.session? h = none) (identity : Identity) (transport : Transport) :
    hub.Appears h (hub.accept identity transport).2 := by
  refine ⟨rfl, rfl, ?_⟩
  rw [session?_accept hlength]
  split
  · exact .inr ⟨identity, transport, rfl⟩
  · exact .inl hnone

theorem appears_upgrade (hlength : hub.peers.length = hub.service.board.connections.length)
    (hnone : hub.session? h = none) (request : Http.Request) :
    hub.Appears h (Http.upgrade request hub).2 := by
  unfold Http.upgrade
  split
  · exact (passes_refl hub h).appears hnone
  · split
    · exact (passes_fail hub h _).appears hnone
    · exact appears_accept hlength hnone _ .webSocket

theorem appears_readStep (hnone : hub.session? h = none) {cancelFirst : Bool}
    (hstep : readStep cancelFirst g hub = some next) : hub.Appears h next := by
  have hne : h ≠ g := by
    rintro rfl
    obtain ⟨s, hs⟩ := session?_of_readStep hstep
    rw [hnone] at hs
    cases hs
  obtain ⟨⟨push, hsession, -⟩, hmilestones, -, hsettings⟩ := pushed_readStep hne hstep
  rw [hnone] at hsession
  exact ⟨hmilestones, hsettings, .inl hsession⟩

theorem appears_writeStep (hnone : hub.session? h = none) (hstep : writeStep g hub = some next) :
    hub.Appears h next := by
  have hne : h ≠ g := by
    rintro rfl
    obtain ⟨s, hs⟩ := session?_of_writeStep hstep
    rw [hnone] at hs
    cases hs
  exact (passes_writeStep hne hstep).appears hnone

/-- Whatever happens to a hub without a session lets it appear at most. -/
theorem appears_after (hlength : hub.peers.length = hub.service.board.connections.length)
    (hnone : hub.session? h = none) (happening : Happening) :
    hub.Appears h (hub.after happening) := by
  cases happening with
  | accept identity transport => exact appears_accept hlength hnone identity transport
  | upgrade request => exact appears_upgrade hlength hnone request
  | request request => exact (passes_respond hub h request).appears hnone
  | arrive g arrival =>
      rw [after]
      rcases hub.arrive_cases g arrival with hsame | ⟨peer, arrived, -, -, -, hnext⟩
      · exact (passes_of_eq hsame).appears hnone
      · rw [hnext]
        exact appears_modifyPeer hnone g _
  | block g blocked => exact appears_modifyPeer hnone g _
  | breakSink g reason => exact appears_modifyPeer hnone g _
  | read g cancelFirst => exact appears_getD hnone fun next => appears_readStep hnone
  | lapse g =>
      apply appears_getD hnone
      intro next hstep
      obtain ⟨_, _, _, _, -, -, rfl⟩ := lapse_cases hstep
      exact appears_modifyPeer hnone g _
  | write g => exact appears_getD hnone fun next => appears_writeStep hnone
  | answer g =>
      apply appears_getD hnone
      intro next hstep
      obtain ⟨_, -, -, rfl⟩ := answerStep_cases hstep
      exact appears_modifyPeer hnone g _
  | closeAll =>
      refine ⟨rfl, rfl, .inl ?_⟩
      rw [after, session?_closeAll, hnone]
      rfl
  | remove g =>
      refine ⟨rfl, rfl, .inl ?_⟩
      rw [after, session?_remove, hnone, Option.map_none, ite_self]
  | pass _ | faults _ | setAgent _ _ | addFavorite _ _ | addSession _ _ | create _ _ =>
      exact ⟨rfl, rfl, .inl hnone⟩

end Hub

end ListingHub
