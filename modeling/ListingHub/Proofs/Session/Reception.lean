import ListingHub.Proofs.Session.Keepalive

/-!
# What a read pump takes

The inbox of a connection is a queue. Whatever happens to the hub can only add to its end, and only
the read pump of the connection takes from it: one arrival at a time, from the front, while it waits
and was not told to leave first. So what was taken in a run and what is left are what was there and
what has arrived since, in order.
-/

namespace ListingHub

theorem Arrival.isPong_of_data? {arrival : Arrival} {data : List UInt8}
    (hdata : arrival.data? = some data) : arrival.isPong = false := by
  cases arrival with
  | text _ | binary _ => rfl
  | ping _ | pong _ | close | failure _ | ended => cases hdata

namespace Session

variable {settings : Settings} {now : Instant} {s t : Session} {arrival : Arrival}

/-- What the read pump of a session takes: what arrived first, while it waits. A pump that was told
to leave may see that first. -/
def takes? (cancelFirst : Bool) (s : Session) : Option Arrival :=
  match s.peer.reader with
  | .waiting _ => if s.connection.cancelled && cancelFirst then none else s.peer.inbox.head?
  | .joining | .handling .. | .leaving _ | .draining _ | .done _ | .crashed => none

/-- The read pump of a session takes an arrival, which leads it on. -/
inductive Takes (settings : Settings) (now : Instant) (s : Session) (arrival : Arrival) :
    Session → Prop
  | lead {deadline : Instant} {inbox : List Arrival} {next : ReadPump}
      (hreader : s.peer.reader = .waiting deadline) (hinbox : s.peer.inbox = arrival :: inbox)
      (hleads : arrival.Leads settings now deadline next) :
      Takes settings now s arrival ((s.fetched arrival inbox).setReader next)

/-- Where the read pump of a session goes without taking anything. -/
inductive Moves (settings : Settings) (now : Instant) (s : Session) : ReadPump → Prop
  | stay : Moves settings now s s.peer.reader
  | join (hreader : s.peer.reader = .joining) : Moves settings now s (.awaiting settings now)
  | expire {deadline : Instant} (hreader : s.peer.reader = .waiting deadline)
      (hinbox : s.peer.inbox = []) (hlate : deadline ≤ now) :
      Moves settings now s (.leaving .deadlineExceeded)
  | cancel {deadline : Instant} (hreader : s.peer.reader = .waiting deadline)
      (hcancelled : s.connection.cancelled = true) : Moves settings now s (.leaving .cancelled)
  | handle {deadline : Instant} {job : Job} {work : Handling}
      (hreader : s.peer.reader = .handling deadline job work) (next : Handling) :
      Moves settings now s (.handling deadline job next)
  | conclude {deadline : Instant} {job : Job} {work : Handling}
      (hreader : s.peer.reader = .handling deadline job work) :
      Moves settings now s (.waiting deadline)
  | leave {exit : Exit} (hreader : s.peer.reader = .leaving exit) :
      Moves settings now s (.draining exit)
  | finish {exit : Exit} (hreader : s.peer.reader = .draining exit) :
      Moves settings now s (.done exit)

/-- A read pump that has left does not come back. -/
theorem Moves.left (hmoves : s.Moves settings now t.peer.reader) (hleft : s.peer.hasLeft = true) :
    t.peer.hasLeft = true := by
  unfold Peer.hasLeft at hleft ⊢
  generalize t.peer.reader = reader at hmoves
  cases hmoves with
  | stay => exact hleft
  | leave _ | finish _ => rfl
  | join hreader | expire hreader _ _ | cancel hreader _ | handle hreader _ | conclude hreader =>
      rw [hreader] at hleft
      cases hleft

/-- A read pump that has crashed does nothing any more. -/
theorem Moves.crashed (hmoves : s.Moves settings now t.peer.reader)
    (hreader : s.peer.reader = .crashed) : t.peer.reader = .crashed := by
  generalize t.peer.reader = reader at hmoves
  cases hmoves with
  | stay => exact hreader
  | join hother | expire hother _ _ | cancel hother _ | handle hother _ | conclude hother
  | leave hother | finish hother =>
      rw [hother] at hreader
      cases hreader

/-- A read pump crashes only for a deadline that the clock cannot tell. -/
theorem Moves.limit_le (hmoves : s.Moves settings now t.peer.reader)
    (hreader : t.peer.reader = .crashed) :
    s.peer.reader = .crashed ∨ Instant.limit ≤ now + settings.pongWait.toNanos := by
  generalize t.peer.reader = reader at hmoves hreader
  cases hmoves with
  | stay => exact .inl hreader
  | join _ => exact .inr (ReadPump.awaiting_eq_crashed_iff.mp hreader)
  | _ => cases hreader

theorem Takes.limit_le (htakes : s.Takes settings now arrival t)
    (hreader : t.peer.reader = .crashed) :
    Instant.limit ≤ now + settings.pongWait.toNanos := by
  cases htakes with
  | @lead deadline inbox next _ _ hleads =>
      replace hreader : next = .crashed := hreader
      cases hleads with
      | pong _ => exact ReadPump.awaiting_eq_crashed_iff.mp hreader
      | _ => cases hreader

theorem takes?_of_waiting {deadline : Instant} {cancelFirst : Bool}
    (hreader : s.peer.reader = .waiting deadline)
    (hfree : ¬(s.connection.cancelled = true ∧ cancelFirst = true)) :
    s.takes? cancelFirst = s.peer.inbox.head? := by
  simp only [takes?, hreader]
  rw [if_neg (by simpa using hfree)]

theorem takes?_eq_some {cancelFirst : Bool} (htakes : s.takes? cancelFirst = some arrival) :
    ∃ deadline inbox, s.peer.reader = .waiting deadline ∧ s.peer.inbox = arrival :: inbox ∧
      ¬(s.connection.cancelled = true ∧ cancelFirst = true) := by
  unfold takes? at htakes
  split at htakes
  · next deadline hreader =>
      split at htakes
      · cases htakes
      · next hfree =>
          obtain ⟨inbox, hinbox⟩ := List.head?_eq_some_iff.mp htakes
          exact ⟨deadline, inbox, hreader, hinbox, by simpa using hfree⟩
  all_goals cases htakes

/-- Nothing is added to the inbox of a session. -/
theorem exists_append_of_eq (hinbox : t.peer.inbox = s.peer.inbox) :
    ∃ more, t.peer.inbox = s.peer.inbox ++ more :=
  ⟨[], by rw [hinbox, List.append_nil]⟩

/-- A step of the read pump that takes nothing. -/
theorem Reads.moves {cancelFirst : Bool} {removal : Option Remover} {lines : List LogEvent}
    (hreads : s.Reads settings now cancelFirst removal lines t)
    (htakes : s.takes? cancelFirst = none) :
    s.Moves settings now t.peer.reader ∧ t.peer.inbox = s.peer.inbox := by
  cases hreads with
  | join hreader => exact ⟨.join hreader, rfl⟩
  | take hreader hinbox hfree hleads =>
      rw [takes?_of_waiting hreader hfree, hinbox] at htakes
      cases htakes
  | expire hreader hinbox hlate hfree => exact ⟨.expire hreader hinbox hlate, rfl⟩
  | cancel hreader hcancelled => exact ⟨.cancel hreader hcancelled, rfl⟩
  | handle hreader hpushed next =>
      have hinbox := congrArg Peer.inbox hpushed.peer_eq
      exact ⟨.handle hreader next, hinbox⟩
  | conclude hreader => exact ⟨.conclude hreader, rfl⟩
  | leave hreader => exact ⟨.leave hreader, rfl⟩
  | finish hreader hended => exact ⟨.finish hreader, rfl⟩

/-- What happens elsewhere. -/
theorem Touched.moves {removal : Option Remover} (htouched : s.Touched now removal t) :
    s.Moves settings now t.peer.reader ∧ ∃ more, t.peer.inbox = s.peer.inbox ++ more := by
  cases htouched with
  | pushed hpushed =>
      rw [hpushed.peer_eq]
      exact ⟨.stay, exists_append_of_eq rfl⟩
  | struck _ _ | resink _ => exact ⟨.stay, exists_append_of_eq rfl⟩
  | arrive arrival _ _ => exact ⟨.stay, [arrival], rfl⟩
  | answer _ => exact ⟨.stay, List.replicate s.peer.unanswered (Arrival.pong 0), rfl⟩
  | lapse hreader _ => exact ⟨.handle hreader _, exists_append_of_eq rfl⟩

/-- A step that takes nothing from the inbox adds to its end at most. -/
theorem Step.moves {h : Handle} {happening : Happening} {removal : Option Remover}
    {lines : List LogEvent} (hstep : s.Step settings now h happening removal lines t)
    (htakes : ∀ cancelFirst, happening = .read h cancelFirst → s.takes? cancelFirst = none) :
    s.Moves settings now t.peer.reader ∧ ∃ more, t.peer.inbox = s.peer.inbox ++ more := by
  cases hstep with
  | rest happening => exact ⟨.stay, exists_append_of_eq rfl⟩
  | read hreads =>
      obtain ⟨hmoves, hinbox⟩ := hreads.moves (htakes _ rfl)
      exact ⟨hmoves, exists_append_of_eq hinbox⟩
  | write hwrites =>
      obtain ⟨hreader, hinbox⟩ := hwrites.reading_eq
      rw [hreader]
      exact ⟨.stay, exists_append_of_eq hinbox⟩
  | touch hnow htouched => exact htouched.moves

end Session

namespace Hub

variable {hub : Hub} {h : Handle} {happening : Happening} {s t : Session} {arrival : Arrival}

/-- What the read pump of a connection takes by what happens. -/
def takes? (hub : Hub) (h : Handle) : Happening → Option Arrival
  | .read g cancelFirst =>
      if g = h then (hub.session? h).bind (Session.takes? cancelFirst) else none
  | _ => none

/-- What arrives at a connection by what happens. -/
def arrives (hub : Hub) (h : Handle) (happening : Happening) : List Arrival :=
  match hub.session? h, (hub.after happening).session? h with
  | some s, some t => t.peer.inbox.drop s.peer.inbox.length
  | _, _ => []

/-- What a read pump takes in a run, in order. -/
def taken (h : Handle) : Hub → List Happening → List Arrival
  | _, [] => []
  | hub, happening :: happenings =>
      (hub.takes? h happening).toList ++ taken h (hub.after happening) happenings

/-- What arrives at a connection in a run, in order. -/
def arrived (h : Handle) : Hub → List Happening → List Arrival
  | _, [] => []
  | hub, happening :: happenings =>
      hub.arrives h happening ++ arrived h (hub.after happening) happenings

/-- The hub whose read pump has an arrival in hand, which leaves `inbox`. -/
def fetched (hub : Hub) (h : Handle) (arrival : Arrival) (inbox : List Arrival) : Hub :=
  hub.modifyPeer h fun peer =>
    { peer.fetch inbox with sink := answer peer.transport arrival peer.sink }

theorem session?_fetched (hs : hub.session? h = some s) (arrival : Arrival)
    (inbox : List Arrival) :
    (hub.fetched h arrival inbox).session? h = some (s.fetched arrival inbox) := by
  rw [fetched, session?_modifyPeer, if_pos rfl, hs]
  rfl

theorem takes?_eq_some (htakes : hub.takes? h happening = some arrival) :
    ∃ cancelFirst s, happening = .read h cancelFirst ∧ hub.session? h = some s ∧
      s.takes? cancelFirst = some arrival := by
  unfold takes? at htakes
  split at htakes
  · next g cancelFirst =>
      split at htakes
      · next hg =>
          subst hg
          obtain ⟨s, hs, htakes⟩ := Option.bind_eq_some_iff.mp htakes
          exact ⟨cancelFirst, s, rfl, hs, htakes⟩
      · cases htakes
  · cases htakes

/-- Registration sets the deadline, if the clock can tell it. -/
theorem session?_after_join (hs : hub.session? h = some s) (hreader : s.peer.reader = .joining)
    (cancelFirst : Bool) :
    (hub.after (.read h cancelFirst)).session? h =
      some (s.joined.setReader (.awaiting hub.settings hub.now)) := by
  obtain ⟨hpeer, hget, -⟩ := session?_eq_some_iff.mp hs
  have hnext : hub.after (.read h cancelFirst) = hub.join h s.connection := by
    simp only [after, readStep, hpeer, hget, hreader, Option.getD_some]
  rw [hnext, session?_join, if_pos rfl, hs]
  rfl

/-- A read pump that waits and is not told to leave first deals with what arrived first. -/
theorem after_read_waiting (hs : hub.session? h = some s) {deadline : Instant}
    {inbox : List Arrival} (hreader : s.peer.reader = .waiting deadline)
    (hinbox : s.peer.inbox = arrival :: inbox) {cancelFirst : Bool}
    (hfree : ¬(s.connection.cancelled = true ∧ cancelFirst = true)) :
    hub.after (.read h cancelFirst) =
      (hub.fetched h arrival inbox).take h s.connection.user deadline arrival := by
  obtain ⟨hpeer, hget, -⟩ := session?_eq_some_iff.mp hs
  have htake : hub.takeNext h s.peer s.connection.user deadline =
      some ((hub.fetched h arrival inbox).take h s.connection.user deadline arrival) := by
    simp only [takeNext, hinbox]
    rfl
  have hgoes : ¬(s.connection.cancelled && (cancelFirst || false)) = true := by simpa using hfree
  simp only [after, readStep, hpeer, hget, hreader, htake, Option.isNone_some, if_neg hgoes,
    Option.getD_some]

/-- A read pump that takes an arrival deals with it. -/
theorem after_of_takes? (htakes : hub.takes? h happening = some arrival) :
    ∃ s deadline inbox, hub.session? h = some s ∧ s.peer.reader = .waiting deadline ∧
      s.peer.inbox = arrival :: inbox ∧ hub.after happening =
        (hub.fetched h arrival inbox).take h s.connection.user deadline arrival := by
  obtain ⟨cancelFirst, s, rfl, hs, htakes⟩ := takes?_eq_some htakes
  obtain ⟨deadline, inbox, hreader, hinbox, hfree⟩ := Session.takes?_eq_some htakes
  exact ⟨s, deadline, inbox, hs, hreader, hinbox, after_read_waiting hs hreader hinbox hfree⟩

/-- Whatever happens, the read pump of a session takes an arrival or goes on without one. -/
theorem takes_or_moves (hs : hub.session? h = some s) (happening : Happening) :
    ∃ t, (hub.after happening).session? h = some t ∧
      ((∃ arrival, hub.takes? h happening = some arrival ∧
          s.Takes hub.settings hub.now arrival t) ∨
        hub.takes? h happening = none ∧ s.Moves hub.settings hub.now t.peer.reader ∧
          ∃ more, t.peer.inbox = s.peer.inbox ++ more) := by
  cases htakes : hub.takes? h happening with
  | some arrival =>
      obtain ⟨s', deadline, inbox, hs', hreader, hinbox, hafter⟩ := after_of_takes? htakes
      obtain rfl := Option.some.inj (hs'.symm.trans hs)
      obtain ⟨next, hleads, hmoved⟩ := moved_take (hub.fetched h arrival inbox) h
        s'.connection.user deadline arrival
      refine ⟨_, ?_, .inl ⟨arrival, rfl, .lead hreader hinbox hleads⟩⟩
      rw [hafter, hmoved.session, session?_setReader, if_pos rfl, session?_fetched hs]
      rfl
  | none =>
      obtain ⟨removal, lines, t, hshows, hstep⟩ := shows_after hs happening
      refine ⟨t, hshows.session, .inr ⟨rfl, hstep.moves ?_⟩⟩
      rintro cancelFirst rfl
      rw [takes?, if_pos rfl, hs] at htakes
      exact htakes

theorem settings_after (hs : hub.session? h = some s) (happening : Happening) :
    (hub.after happening).settings = hub.settings := by
  obtain ⟨_, _, _, hshows, -⟩ := shows_after hs happening
  exact hshows.settings

theorem now_after (hs : hub.session? h = some s) (happening : Happening) :
    (hub.after happening).now = hub.now + happening.elapsed := by
  obtain ⟨_, _, _, hshows, -⟩ := shows_after hs happening
  exact hshows.now

theorem hasLeft_run (hs : hub.session? h = some s) (hleft : s.peer.hasLeft = true)
    (happenings : List Happening) :
    ∃ t, (hub.run happenings).session? h = some t ∧ t.peer.hasLeft = true := by
  induction happenings generalizing hub s with
  | nil => exact ⟨s, hs, hleft⟩
  | cons happening happenings ih =>
      obtain ⟨t, ht, ⟨arrival, -, htakes⟩ | ⟨-, hmoves, -⟩⟩ := takes_or_moves hs happening
      · cases htakes with
        | lead hreader _ _ => simp [Peer.hasLeft, hreader] at hleft
      · exact ih ht (hmoves.left hleft)

/-- A read pump that has crashed takes nothing, whatever happens. -/
theorem crashed_run (hs : hub.session? h = some s) (hreader : s.peer.reader = .crashed)
    (happenings : List Happening) :
    hub.taken h happenings = [] ∧
      ∃ t, (hub.run happenings).session? h = some t ∧ t.peer.reader = .crashed := by
  induction happenings generalizing hub s with
  | nil => exact ⟨rfl, s, hs, hreader⟩
  | cons happening happenings ih =>
      obtain ⟨t, ht, ⟨arrival, -, htakes⟩ | ⟨hnothing, hmoves, -⟩⟩ := takes_or_moves hs happening
      · cases htakes with
        | lead hwaits _ _ =>
            rw [hwaits] at hreader
            cases hreader
      · obtain ⟨htaken, hlast⟩ := ih ht (hmoves.crashed hreader)
        rw [taken, hnothing, htaken]
        exact ⟨rfl, hlast⟩

/-- A read pump that has crashed could not have told its next deadline now either. -/
theorem limit_le_of_crashed (hs : hub.session? h = some s)
    (hlate : s.peer.reader = .crashed →
      Instant.limit ≤ hub.now + hub.settings.pongWait.toNanos)
    (happenings : List Happening) (ht : (hub.run happenings).session? h = some t)
    (hreader : t.peer.reader = .crashed) :
    Instant.limit ≤ (hub.run happenings).now + hub.settings.pongWait.toNanos := by
  induction happenings generalizing hub s with
  | nil =>
      obtain rfl := Option.some.inj (hs.symm.trans ht)
      exact hlate hreader
  | cons happening happenings ih =>
      have hsettings := settings_after hs happening
      have hclock : hub.now ≤ (hub.after happening).now := by
        rw [now_after hs]
        exact Nat.le_add_right _ _
      obtain ⟨between, hbetween, hstep⟩ := takes_or_moves hs happening
      rw [← hsettings]
      refine ih hbetween ?_ ht
      intro hcrashed
      have hlimit : Instant.limit ≤ hub.now + hub.settings.pongWait.toNanos := by
        rcases hstep with ⟨arrival, -, htakes⟩ | ⟨-, hmoves, -⟩
        · exact htakes.limit_le hcrashed
        · exact (hmoves.limit_le hcrashed).elim hlate id
      rw [hsettings]
      exact Nat.le_trans hlimit (Nat.add_le_add_right hclock _)

/-- So a read pump crashes only when the clock cannot tell its deadline. -/
theorem limit_le_of_crashed_of_none (hlawful : hub.outline.Lawful) (hnone : hub.session? h = none)
    (happenings : List Happening) (ht : (hub.run happenings).session? h = some t)
    (hreader : t.peer.reader = .crashed) :
    Instant.limit ≤ (hub.run happenings).now + hub.settings.pongWait.toNanos := by
  induction happenings generalizing hub with
  | nil =>
      rw [run_nil, hnone] at ht
      cases ht
  | cons happening happenings ih =>
      obtain ⟨-, hsettings, hstill | ⟨identity, transport, hfresh⟩⟩ :=
        appears_after (length_of_lawful hlawful) hnone happening
      · rw [← hsettings]
        exact ih (Outline.lawful_step hlawful (hub.step_after happening)) hstill ht
      · rw [← hsettings]
        refine limit_le_of_crashed hfresh ?_ happenings ht hreader
        intro hcrashed
        cases hcrashed

/-- Of one happening: what was taken and what is left are what was there and what arrived. -/
theorem takes?_append_inbox (hs : hub.session? h = some s) (happening : Happening) :
    ∃ t, (hub.after happening).session? h = some t ∧
      (hub.takes? h happening).toList ++ t.peer.inbox =
        s.peer.inbox ++ hub.arrives h happening := by
  obtain ⟨t, ht, ⟨arrival, htakes, htook⟩ | ⟨htakes, -, more, hmore⟩⟩ :=
    takes_or_moves hs happening
  · refine ⟨t, ht, ?_⟩
    simp only [htakes, arrives, hs, ht]
    cases htook with
    | lead hreader hinbox hleads =>
        simp [Session.setReader, Session.fetched, Session.mapPeer, Peer.fetch, hinbox]
  · refine ⟨t, ht, ?_⟩
    simp only [htakes, arrives, hs, ht, hmore]
    simp

/-- What was taken in a run and what is left are what was there and what has arrived since. -/
theorem taken_append_inbox (hs : hub.session? h = some s) (happenings : List Happening) :
    ∃ t, (hub.run happenings).session? h = some t ∧
      hub.taken h happenings ++ t.peer.inbox = s.peer.inbox ++ hub.arrived h happenings := by
  induction happenings generalizing hub s with
  | nil => exact ⟨s, hs, (List.append_nil _).symm⟩
  | cons happening happenings ih =>
      obtain ⟨between, hbetween, hstep⟩ := takes?_append_inbox hs happening
      obtain ⟨t, ht, hrest⟩ := ih hbetween
      refine ⟨t, ht, ?_⟩
      rw [taken, arrived, List.append_assoc, hrest, ← List.append_assoc, hstep, List.append_assoc]

end Hub

end ListingHub
