import ListingHub.Proofs.Session.Basic

/-!
# The sessions of a hub

What a hub shows of one connection, and how the changes that the tasks are made of show there: one
lemma for each change, which says that it changes one session and leaves the others alone.
-/

namespace ListingHub

namespace Hub

variable {hub next : Hub} {h g : Handle} {s t : Session}

/-- The session of a connection. -/
def session? (hub : Hub) (h : Handle) : Option Session :=
  hub.peers[h]?.bind fun peer =>
    (hub.connection? h).map fun c => ⟨peer, c, hub.service.board.contains h⟩

/-- What the log tells of the life of a connection. -/
def milestones (hub : Hub) (h : Handle) : List LogEvent :=
  milestonesOf h hub.journal

/-- Who tries to take a connection off by what happens. -/
def caller? (hub : Hub) (h : Handle) : Happening → Option Remover
  | .read g _ =>
      match (hub.session? g).map fun s : Session => s.peer.reader with
      | some (.leaving _) => if g = h then some .readPump else none
      | some (.handling _ _ work) => if work.evictee? = some h then some .overflow else none
      | _ => none
  | .write g =>
      match (hub.session? g).map fun s : Session => s.peer.writer with
      | some (.leaving _) => if g = h then some .writePump else none
      | _ => none
  | .closeAll => some .closeAll
  | .remove g => if g = h then some .outside else none
  | _ => none

/-- Who takes a connection off the registry by what happens. -/
def removal? (hub : Hub) (h : Handle) (happening : Happening) : Option Remover :=
  if hub.service.board.contains h then hub.caller? h happening else none

theorem session?_eq_some_iff :
    hub.session? h = some s ↔ hub.peers[h]? = some s.peer ∧
      hub.connection? h = some s.connection ∧ hub.service.board.contains h = s.registered := by
  obtain ⟨peer, c, registered⟩ := s
  cases hpeer : hub.peers[h]? with
  | none => simp [session?, hpeer]
  | some peer' =>
      cases hget : hub.connection? h with
      | none => simp [session?, hpeer, hget]
      | some c' => simp [session?, hpeer, hget]

/-- A session depends on its peer and the switchboard only. -/
theorem session?_congr {other : Hub} (hpeers : hub.peers[h]? = other.peers[h]?)
    (hget : hub.connection? h = other.connection? h)
    (hcontains : hub.service.board.contains h = other.service.board.contains h) :
    hub.session? h = other.session? h := by
  rw [session?, session?, hpeers, hget, hcontains]

@[simp]
theorem session?_log (hub : Hub) (entries : List Entry) (h : Handle) :
    (hub.log entries).session? h = hub.session? h := rfl

theorem session?_modifyPeer (hub : Hub) (g h : Handle) (f : Peer → Peer) :
    (hub.modifyPeer g f).session? h =
      if h = g then (hub.session? h).map fun s => s.mapPeer f else hub.session? h := by
  by_cases hg : h = g
  · subst hg
    rw [if_pos rfl, session?, session?, Option.map_bind]
    simp [modifyPeer, connection?, Function.comp_def, Session.mapPeer, Option.bind_map]
  · rw [if_neg hg]
    exact session?_congr (by simp [modifyPeer, Ne.symm hg]) rfl rfl

@[simp]
theorem session?_setReader (hub : Hub) (g h : Handle) (reader : ReadPump) :
    (hub.setReader g reader).session? h =
      if h = g then (hub.session? h).map fun s => s.setReader reader else hub.session? h :=
  hub.session?_modifyPeer g h _

@[simp]
theorem session?_setWriter (hub : Hub) (g h : Handle) (writer : WritePump) :
    (hub.setWriter g writer).session? h =
      if h = g then (hub.session? h).map fun s => s.setWriter writer else hub.session? h :=
  hub.session?_modifyPeer g h _

@[simp]
theorem session?_written (hub : Hub) (g h : Handle) (sink : Sink) (frame : Frame) :
    (hub.written g sink frame).session? h =
      if h = g then (hub.session? h).map fun s => s.written sink frame else hub.session? h :=
  hub.session?_modifyPeer g h _

/-- A change of the switchboard shows at a session as the change of its connection and of its
registration. -/
theorem session?_mapBoard {f : Switchboard → Switchboard} {change : Connection → Connection}
    (hub : Hub) (hget : (f hub.service.board).get? h = (hub.service.board.get? h).map change) :
    (hub.mapBoard f).session? h = (hub.session? h).map fun s =>
      { s.mapConnection change with registered := (f hub.service.board).contains h } := by
  rw [session?, session?, Option.map_bind]
  simp [mapBoard, connection?, hget, Session.mapConnection, Function.comp_def]

/-- A change that registers and removes nobody shows at a connection only. -/
theorem session?_mapBoard_of_members {f : Switchboard → Switchboard}
    {change : Connection → Connection} (hub : Hub)
    (hget : (f hub.service.board).get? h = (hub.service.board.get? h).map change)
    (hmembers : (f hub.service.board).members = hub.service.board.members) :
    (hub.mapBoard f).session? h = (hub.session? h).map fun s => s.mapConnection change := by
  rw [session?_mapBoard hub hget]
  cases hs : hub.session? h with
  | none => rfl
  | some s =>
      obtain ⟨-, -, hregistered⟩ := session?_eq_some_iff.mp hs
      simp [Switchboard.contains, hmembers, ← hregistered, Session.mapConnection]

theorem session?_modify (hub : Hub) (g h : Handle) (f : Connection → Connection) :
    (hub.mapBoard fun board => board.modify g f).session? h =
      if h = g then (hub.session? h).map fun s => s.mapConnection f else hub.session? h := by
  by_cases hg : h = g
  · subst hg
    rw [if_pos rfl]
    exact session?_mapBoard_of_members hub (Switchboard.get?_modify_self _ h f) rfl
  · rw [if_neg hg]
    exact session?_congr rfl (Switchboard.get?_modify_of_ne _ f hg) rfl

theorem session?_add (hub : Hub) (g h : Handle) :
    (hub.mapBoard fun board => (board.add g).2).session? h =
      if h = g then (hub.session? h).map Session.joined else hub.session? h := by
  rw [session?_mapBoard hub (hub.service.board.get?_add g h)]
  cases hs : hub.session? h with
  | none => simp
  | some s =>
      obtain ⟨peer, c, registered⟩ := s
      obtain ⟨-, hget, rfl⟩ := session?_eq_some_iff.mp hs
      by_cases hg : h = g
      · subst hg
        have hmade := Switchboard.lt_of_get? hget
        simp [Switchboard.contains, Switchboard.mem_add, hmade, Session.joined,
          Session.mapConnection]
      · simp [Switchboard.contains, Switchboard.mem_add, hg, Session.mapConnection]

theorem session?_remove (hub : Hub) (g h : Handle) :
    (hub.mapBoard fun board => (board.remove g).2).session? h =
      if h = g then (hub.session? h).map Session.struck else hub.session? h := by
  rw [session?_mapBoard hub (hub.service.board.get?_remove g h)]
  cases hs : hub.session? h with
  | none => simp
  | some s =>
      obtain ⟨peer, c, registered⟩ := s
      obtain ⟨-, -, rfl⟩ := session?_eq_some_iff.mp hs
      by_cases hg : h = g
      · subst hg
        simp [Switchboard.contains, Switchboard.mem_remove, Session.struck,
          Session.mapConnection]
      · simp [Switchboard.contains, Switchboard.mem_remove, hg, Session.mapConnection]

theorem session?_closeAll (hub : Hub) (h : Handle) :
    hub.closeAll.2.session? h = (hub.session? h).map Session.struck := by
  have hclosed : hub.closeAll.2 = hub.mapBoard fun board => board.closeAll.2 := rfl
  rw [hclosed, session?_mapBoard hub (hub.service.board.get?_closeAll h)]
  cases hs : hub.session? h with
  | none => rfl
  | some s =>
      obtain ⟨-, -, hregistered⟩ := session?_eq_some_iff.mp hs
      simp [Switchboard.contains, ← hregistered, Session.struck, Session.mapConnection]

/-- A teardown takes its connection off, whoever was first. -/
theorem session?_teardown (hub : Hub) (g h : Handle) (exit : Exit) :
    (hub.teardown g exit).session? h =
      if h = g then (hub.session? h).map Session.torn else hub.session? h := by
  have htorn : (hub.teardown g exit).session? h =
      ((hub.mapBoard fun board => (board.remove g).2).mapBoard fun board =>
        board.modify g fun c => c.beginClose.2).session? h := rfl
  rw [htorn, session?_modify, session?_remove]
  by_cases hg : h = g
  · subst hg
    rw [if_pos rfl, if_pos rfl, if_pos rfl, Option.map_map]
    congr 1
    funext s
    cases hregistered : s.registered with
    | true => simp [Session.struck, Session.torn, Session.mapConnection, hregistered]
    | false => simp [Session.struck, Session.torn, Session.mapConnection, hregistered]
  · rw [if_neg hg, if_neg hg, if_neg hg]

theorem session?_connect_of_some (hs : hub.session? h = some s) (identity : Identity)
    (transport : Transport) : (hub.accept identity transport).2.session? h = some s := by
  obtain ⟨hpeer, hget, hregistered⟩ := session?_eq_some_iff.mp hs
  refine session?_eq_some_iff.mpr ⟨?_, ?_, hregistered⟩
  · have hlt := (List.getElem?_eq_some_iff.mp hpeer).1
    simp [accept, List.getElem?_append_left hlt, hpeer]
  · have hne := Nat.ne_of_lt (Switchboard.lt_of_get? hget)
    exact (Switchboard.get?_connect _ _ _ h).trans ((if_neg hne).trans hget)

/-! ### The log -/

@[simp]
theorem milestones_log (hub : Hub) (entries : List Entry) (h : Handle) :
    (hub.log entries).milestones h = hub.milestones h ++ milestonesOf h entries :=
  milestonesOf_append h hub.journal entries

/-- The line of a teardown. -/
theorem milestones_teardown (hub : Hub) (g h : Handle) (exit : Exit) :
    (hub.teardown g exit).milestones h = hub.milestones h ++ milestonesOf h
      (match hub.service.board.contains g, (hub.service.board.remove g).2.get? g with
        | true, some c => [(some g, LogEvent.tearingDown c.user exit)]
        | _, _ => []) := by
  rw [← Switchboard.remove_fst]
  exact milestones_log _ _ h

/-- A teardown tells of the connection it takes off. -/
theorem milestones_teardown_self (hs : hub.session? h = some s) (exit : Exit) :
    (hub.teardown h exit).milestones h = hub.milestones h ++ s.tearingLines exit := by
  obtain ⟨-, hget, hregistered⟩ := session?_eq_some_iff.mp hs
  have huser : s.connection.beginClose.2.identity = s.connection.identity :=
    Connection.identity_apply .beginClose s.connection
  rw [milestones_teardown, Switchboard.get?_remove, hregistered,
    show hub.service.board.get? h = some s.connection from hget]
  congr 1
  cases hold : s.registered with
  | true =>
      have hin := (hub.service.board.contains_iff h).mp (hregistered.trans hold)
      simp [milestonesOf, LogEvent.isMilestone, Session.tearingLines, hold, hin, Connection.user,
        huser]
  | false => simp [milestonesOf, Session.tearingLines, hold]

/-- It tells of no other. -/
theorem milestones_teardown_of_ne (hub : Hub) (hne : h ≠ g) (exit : Exit) :
    (hub.teardown g exit).milestones h = hub.milestones h := by
  rw [milestones_teardown]
  split
  · simp [milestonesOf, Ne.symm hne]
  · exact List.append_nil _

/-- A happening shows at a session: what it is afterwards, who took it off, and what the log says of
its life. -/
structure Shows (hub : Hub) (happening : Happening) (h : Handle) (next : Hub)
    (removal : Option Remover) (lines : List LogEvent) (t : Session) : Prop where
  session : next.session? h = some t
  removal : hub.removal? h happening = removal
  milestones : next.milestones h = hub.milestones h ++ lines
  now : next.now = hub.now + happening.elapsed
  settings : next.settings = hub.settings

theorem removal?_eq (hs : hub.session? h = some s) (happening : Happening) :
    hub.removal? h happening = (hub.caller? h happening).bind s.removal := by
  obtain ⟨-, -, hregistered⟩ := session?_eq_some_iff.mp hs
  rw [removal?, hregistered]
  unfold Session.removal
  cases s.registered <;> cases hub.caller? h happening <;> rfl

/-- Nobody takes a session off. -/
theorem removal?_of_caller? {happening : Happening} (hcaller : hub.caller? h happening = none) :
    hub.removal? h happening = none := by
  rw [removal?, hcaller, ite_self]

/-- From one hub to the next nothing shows at a session. -/
structure Passes (hub : Hub) (h : Handle) (next : Hub) : Prop where
  session : next.session? h = hub.session? h
  milestones : next.milestones h = hub.milestones h
  now : next.now = hub.now
  settings : next.settings = hub.settings

theorem passes_refl (hub : Hub) (h : Handle) : hub.Passes h hub :=
  ⟨rfl, rfl, rfl, rfl⟩

theorem Passes.shows {happening : Happening} (hpasses : hub.Passes h next)
    (hs : hub.session? h = some s) (hcaller : hub.caller? h happening = none)
    (hnow : happening.elapsed = 0) : hub.Shows happening h next none [] s where
  session := hpasses.session.trans hs
  removal := removal?_of_caller? hcaller
  milestones := by rw [hpasses.milestones, List.append_nil]
  now := by rw [hnow, Nat.add_zero, hpasses.now]
  settings := hpasses.settings

/-- From one hub to the next a session was pushed to, at most. -/
structure PushedTo (hub : Hub) (happening : Happening) (h : Handle) (next : Hub) : Prop where
  session : ∃ push : Session → Session, next.session? h = (hub.session? h).map push ∧
    ∀ s : Session, s.Pushed ((hub.caller? h happening).bind s.removal) (push s)
  milestones : next.milestones h = hub.milestones h
  now : next.now = hub.now
  settings : next.settings = hub.settings

theorem Passes.pushedTo {happening : Happening} (hpasses : hub.Passes h next)
    (hcaller : hub.caller? h happening = none) : hub.PushedTo happening h next where
  session := by
    refine ⟨id, hpasses.session.trans Option.map_id_apply.symm, ?_⟩
    intro s
    rw [hcaller]
    exact .spared
  milestones := hpasses.milestones
  now := hpasses.now
  settings := hpasses.settings

theorem PushedTo.shows {happening : Happening} (hpushed : hub.PushedTo happening h next)
    (hs : hub.session? h = some s) (hnow : happening.elapsed = 0) :
    ∃ removal t, hub.Shows happening h next removal [] t ∧ s.Pushed removal t := by
  obtain ⟨⟨push, hsession, hpush⟩, hmilestones, hclock, hsettings⟩ := hpushed
  refine ⟨_, push s, ⟨?_, removal?_eq hs happening, ?_, ?_, hsettings⟩, hpush s⟩
  · rw [hsession, hs, Option.map_some]
  · rw [hmilestones, List.append_nil]
  · rw [hnow, hclock, Nat.add_zero]

/-- A change of one peer passes all others. -/
theorem passes_modifyPeer (hub : Hub) (hne : h ≠ g) (f : Peer → Peer) :
    hub.Passes h (hub.modifyPeer g f) :=
  ⟨by rw [session?_modifyPeer, if_neg hne], rfl, rfl, rfl⟩

theorem passes_setReader (hub : Hub) (hne : h ≠ g) (reader : ReadPump) :
    hub.Passes h (hub.setReader g reader) :=
  passes_modifyPeer hub hne _

theorem passes_setWriter (hub : Hub) (hne : h ≠ g) (writer : WritePump) :
    hub.Passes h (hub.setWriter g writer) :=
  passes_modifyPeer hub hne _

theorem shows_modifyPeer {happening : Happening} (hs : hub.session? h = some s)
    (hcaller : hub.caller? h happening = none) (hnow : happening.elapsed = 0) (f : Peer → Peer) :
    hub.Shows happening h (hub.modifyPeer h f) none [] (s.mapPeer f) where
  session := by rw [session?_modifyPeer, if_pos rfl, hs, Option.map_some]
  removal := removal?_of_caller? hcaller
  milestones := (List.append_nil _).symm
  now := by rw [hnow]; rfl
  settings := rfl

end Hub

end ListingHub
