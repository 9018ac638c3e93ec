import ListingHub.Proofs.Session.Reception

/-!
# The deadline of a read pump

The deadline stands where the latest pong that was taken put it, or the registration if there was
none. Data frames, pings and handlers leave it alone, however long they take. It is looked at only
when a read pump that waits has nothing to take, so that what has arrived counts, however late it is
taken.
-/

namespace ListingHub

theorem Arrival.exists_of_isPong {arrival : Arrival} (hpong : arrival.isPong = true) :
    ∃ size, arrival = .pong size := by
  cases arrival with
  | pong size => exact ⟨size, rfl⟩
  | text _ | binary _ | ping _ | close | failure _ | ended => cases hpong

namespace Session

variable {settings : Settings} {now : Instant} {s t : Session} {arrival : Arrival}
  {deadline later : Instant}

/-- Without taking anything a read pump that has joined keeps its deadline, if it has one then. -/
theorem Moves.deadline?_eq (hmoves : s.Moves settings now t.peer.reader)
    (hjoined : s.peer.hasJoined = true) (hlater : t.peer.reader.deadline? = some later) :
    s.peer.reader.deadline? = some later := by
  generalize t.peer.reader = reader at hmoves hlater
  cases hmoves with
  | stay => exact hlater
  | join hreader => simp [Peer.hasJoined, hreader] at hjoined
  | handle hreader _ | conclude hreader =>
      rw [hreader]
      exact hlater
  | expire _ _ _ | cancel _ _ | leave _ | finish _ => cases hlater

/-- A pong that is taken moves the deadline, and no other arrival does. -/
theorem Takes.deadline?_eq (htakes : s.Takes settings now arrival t)
    (hlater : t.peer.reader.deadline? = some later) :
    ∃ deadline, s.peer.reader.deadline? = some deadline ∧
      later = if arrival.isPong then now + settings.pongWait.toNanos else deadline := by
  cases htakes with
  | @lead deadline inbox next hreader hinbox hleads =>
      refine ⟨deadline, by rw [hreader]; rfl, ?_⟩
      replace hlater : next.deadline? = some later := hlater
      cases hleads with
      | pong size =>
          rw [ReadPump.deadline?_awaiting, Instant.after?_eq_some_iff] at hlater
          exact hlater.1
      | ping size => exact (Option.some.inj hlater).symm
      | passed hdata _ | begun hdata _ _ =>
          rw [Arrival.isPong_of_data? hdata]
          exact (Option.some.inj hlater).symm
      | close | ended | failure _ | tooLarge _ _ => cases hlater

theorem Moves.joined (hmoves : s.Moves settings now t.peer.reader)
    (hjoined : s.peer.hasJoined = true) : t.peer.hasJoined = true := by
  unfold Peer.hasJoined at hjoined ⊢
  generalize t.peer.reader = reader at hmoves
  cases hmoves with
  | stay => exact hjoined
  | join hreader =>
      rw [hreader] at hjoined
      cases hjoined
  | _ => rfl

theorem Takes.joined (htakes : s.Takes settings now arrival t) : t.peer.hasJoined = true := by
  cases htakes with
  | lead _ _ hleads => exact (Peer.underway hleads.underway).1

/-- Only a step of its own moves a read pump that waits. -/
theorem Step.waiting {h : Handle} {happening : Happening} {removal : Option Remover}
    {lines : List LogEvent} (hstep : s.Step settings now h happening removal lines t)
    (hreader : s.peer.reader = .waiting deadline)
    (hother : ∀ cancelFirst, happening ≠ .read h cancelFirst) :
    t.peer.reader = .waiting deadline := by
  cases hstep with
  | rest happening => exact hreader
  | read hreads => exact absurd rfl (hother _)
  | write hwrites => rw [hwrites.reading_eq.1, hreader]
  | touch _ htouched =>
      cases htouched with
      | pushed hpushed => rw [hpushed.peer_eq, hreader]
      | struck _ _ | arrive _ _ _ | answer _ | resink _ => exact hreader
      | lapse hhandling _ =>
          rw [hreader] at hhandling
          cases hhandling

end Session

namespace Hub

variable {hub : Hub} {h : Handle} {s t : Session} {happening : Happening}
  {happenings : List Happening} {deadline later : Instant}

/-- When the latest pong of a run was taken, or else the instant `began`. -/
def lastPong (h : Handle) : Instant → Hub → List Happening → Instant
  | began, _, [] => began
  | began, hub, happening :: happenings =>
      lastPong h (if (hub.takes? h happening).any Arrival.isPong then hub.now else began)
        (hub.after happening) happenings

/-- What arrives at a connection in a run, with the instants. -/
def arrivedAt (h : Handle) : Hub → List Happening → List (Instant × Arrival)
  | _, [] => []
  | hub, happening :: happenings =>
      (hub.arrives h happening).map (fun arrival => (hub.now, arrival)) ++
        arrivedAt h (hub.after happening) happenings

/-- A read pump that waits is on time: it has nothing to do when it looks, and no time passes while
it has, nor beyond its deadline. -/
def isOnTime (hub : Hub) (h : Handle) : Happening → Bool
  | .read g cancelFirst => g != h || (readStep cancelFirst h hub).isNone
  | .pass nanos => nanos == 0 || (hub.session? h).all fun s =>
      s.peer.inbox.isEmpty && s.peer.reader.deadline?.all fun deadline => hub.now + nanos ≤ deadline
  | _ => true

/-- Throughout a run a read pump waits and is on time. -/
def waitsOnTime (h : Handle) : Hub → List Happening → Bool
  | _, [] => true
  | hub, happening :: happenings =>
      hub.isOnTime h happening && waitsOnTime h (hub.after happening) happenings

/-- Whatever happens to it, a session that has joined keeps its deadline, or a pong that it takes
moves it. -/
theorem deadline_after (hs : hub.session? h = some s) (hjoined : s.peer.hasJoined = true)
    (ht : (hub.after happening).session? h = some t)
    (hlater : t.peer.reader.deadline? = some later) :
    ∃ deadline, s.peer.reader.deadline? = some deadline ∧
      later = if (hub.takes? h happening).any Arrival.isPong then
        hub.now + hub.settings.pongWait.toNanos else deadline := by
  obtain ⟨t', ht', ⟨arrival, htakes, htook⟩ | ⟨htakes, hmoves, -⟩⟩ := takes_or_moves hs happening
  · obtain rfl := Option.some.inj (ht'.symm.trans ht)
    rw [htakes]
    exact htook.deadline?_eq hlater
  · obtain rfl := Option.some.inj (ht'.symm.trans ht)
    rw [htakes]
    exact ⟨later, hmoves.deadline?_eq hjoined hlater, rfl⟩

theorem joined_after (hs : hub.session? h = some s) (hjoined : s.peer.hasJoined = true)
    (happening : Happening) :
    ∃ t, (hub.after happening).session? h = some t ∧ t.peer.hasJoined = true := by
  obtain ⟨t, ht, ⟨arrival, -, htook⟩ | ⟨-, hmoves, -⟩⟩ := takes_or_moves hs happening
  · exact ⟨t, ht, htook.joined⟩
  · exact ⟨t, ht, hmoves.joined hjoined⟩

/-- The deadline of a session stands where the latest pong put it, and that was not later than
now. -/
theorem deadline_run (hs : hub.session? h = some s) (hjoined : s.peer.hasJoined = true)
    {began : Instant} (hpast : began ≤ hub.now)
    (hbegan : ∀ deadline, s.peer.reader.deadline? = some deadline →
      deadline = began + hub.settings.pongWait.toNanos) (happenings : List Happening) :
    hub.lastPong h began happenings ≤ (hub.run happenings).now ∧
      (hub.run happenings).settings = hub.settings ∧
      ∃ t, (hub.run happenings).session? h = some t ∧ t.peer.hasJoined = true ∧
        ∀ deadline, t.peer.reader.deadline? = some deadline →
          deadline = hub.lastPong h began happenings + hub.settings.pongWait.toNanos := by
  induction happenings generalizing hub s began with
  | nil => exact ⟨hpast, rfl, s, hs, hjoined, hbegan⟩
  | cons happening happenings ih =>
      obtain ⟨between, hbetween, hjoined'⟩ := joined_after hs hjoined happening
      have hsettings := settings_after hs happening
      have hclock : hub.now ≤ (hub.after happening).now := by
        rw [now_after hs]
        exact Nat.le_add_right _ _
      rw [run_cons, lastPong, ← hsettings]
      apply ih hbetween hjoined'
      · split
        · exact hclock
        · exact Nat.le_trans hpast hclock
      · intro later hlater
        obtain ⟨deadline, hdeadline, hmoved⟩ := deadline_after hs hjoined hbetween hlater
        rw [hmoved, hsettings]
        split
        · rfl
        · exact hbegan deadline hdeadline

/-- Nothing happens to a hub whose read pump waits and looks for something to do. -/
theorem after_read_of_none {cancelFirst : Bool} (hnone : readStep cancelFirst h hub = none) :
    hub.after (.read h cancelFirst) = hub := by
  rw [after, hnone]
  rfl

/-- Time does not pass beyond the deadline of a wait that is on time. -/
theorem now_le_of_isOnTime (hs : hub.session? h = some s)
    (hreader : s.peer.reader = .waiting deadline) (hontime : hub.isOnTime h happening = true) :
    hub.now + happening.elapsed ≤ max deadline hub.now := by
  cases happening with
  | pass nanos =>
      rw [isOnTime, hs, Option.all_some, hreader, Bool.or_eq_true] at hontime
      rcases hontime with hnone | hwithin
      · rw [Happening.elapsed, beq_iff_eq.mp hnone]
        exact Nat.le_max_right _ _
      · rw [Bool.and_eq_true] at hwithin
        have hwithin : hub.now + nanos ≤ deadline := by
          simpa [ReadPump.deadline?] using hwithin.2
        exact Nat.le_trans hwithin (Nat.le_max_left _ _)
  | _ => exact Nat.le_max_right _ _

/-- One happening of a wait that is on time. -/
theorem waiting_after (hs : hub.session? h = some s) (hreader : s.peer.reader = .waiting deadline)
    (hontime : hub.isOnTime h happening = true) :
    ∃ t, (hub.after happening).session? h = some t ∧ t.peer.reader = .waiting deadline ∧
      t.peer.inbox = s.peer.inbox ++ hub.arrives h happening ∧
      (hub.after happening).now ≤ max deadline hub.now := by
  by_cases hown : ∃ cancelFirst, happening = .read h cancelFirst
  · obtain ⟨cancelFirst, rfl⟩ := hown
    have hnone : readStep cancelFirst h hub = none := by
      simpa [isOnTime] using hontime
    have hafter := after_read_of_none hnone
    refine ⟨s, by rw [hafter, hs], hreader, ?_, ?_⟩
    · simp [arrives, hafter, hs]
    · rw [hafter]
      exact Nat.le_max_right _ _
  · have hother : ∀ cancelFirst, happening ≠ .read h cancelFirst :=
      fun cancelFirst heq => hown ⟨cancelFirst, heq⟩
    obtain ⟨removal, lines, t, hshows, hstep⟩ := shows_after hs happening
    obtain ⟨t', ht', hqueue⟩ := takes?_append_inbox hs happening
    obtain rfl := Option.some.inj (ht'.symm.trans hshows.session)
    have htakes : hub.takes? h happening = none := by
      rw [Option.eq_none_iff_forall_ne_some]
      intro arrival htakes
      obtain ⟨cancelFirst, -, hread, -⟩ := takes?_eq_some htakes
      exact hother cancelFirst hread
    rw [htakes] at hqueue
    refine ⟨t', ht', hstep.waiting hreader hother, hqueue, ?_⟩
    rw [hshows.now]
    exact now_le_of_isOnTime hs hreader hontime

/-- A wait that is on time: the read pump still waits for what was there or has arrived, no later
than at its deadline unless it was late from the start. -/
theorem waiting_run (hs : hub.session? h = some s) (hreader : s.peer.reader = .waiting deadline)
    (hontime : hub.waitsOnTime h happenings = true) :
    ∃ t, (hub.run happenings).session? h = some t ∧ t.peer.reader = .waiting deadline ∧
      t.peer.inbox = s.peer.inbox ++ (hub.arrivedAt h happenings).map Prod.snd ∧
      hub.now ≤ (hub.run happenings).now ∧ (hub.run happenings).now ≤ max deadline hub.now ∧
      ∀ entry ∈ hub.arrivedAt h happenings, entry.1 ≤ (hub.run happenings).now := by
  induction happenings generalizing hub s with
  | nil =>
      refine ⟨s, hs, hreader, (List.append_nil _).symm, Nat.le_refl _, Nat.le_max_right _ _, ?_⟩
      intro entry hin
      cases hin
  | cons happening happenings ih =>
      rw [waitsOnTime, Bool.and_eq_true] at hontime
      obtain ⟨between, hbetween, hreader', hinbox, hsoon⟩ :=
        waiting_after hs hreader hontime.1
      obtain ⟨t, ht, hwaits, hinbox', hlate, hsoon', hearlier⟩ := ih hbetween hreader' hontime.2
      have hclock : hub.now ≤ (hub.after happening).now := by
        rw [now_after hs]
        exact Nat.le_add_right _ _
      refine ⟨t, ht, hwaits, ?_, Nat.le_trans hclock hlate, ?_, ?_⟩
      · rw [arrivedAt, List.map_append, List.map_map, Function.comp_def, List.map_id',
          ← List.append_assoc, ← hinbox, hinbox']
      · exact Nat.le_trans hsoon' (Nat.max_le.mpr ⟨Nat.le_max_left _ _, hsoon⟩)
      · intro entry hin
        rw [arrivedAt, List.mem_append, List.mem_map] at hin
        rcases hin with ⟨arrival, -, rfl⟩ | hlater
        · exact Nat.le_trans hclock hlate
        · exact hearlier entry hlater

/-- A read pump that waits and was not told to leave takes what arrived first or misses its
deadline. -/
theorem readStep_waiting (hs : hub.session? h = some s)
    (hreader : s.peer.reader = .waiting deadline) (hfree : s.connection.cancelled = false)
    (cancelFirst : Bool) :
    readStep cancelFirst h hub = hub.takeNext h s.peer s.connection.user deadline := by
  obtain ⟨hpeer, hget, -⟩ := session?_eq_some_iff.mp hs
  simp [readStep, hpeer, hget, hreader, hfree]

/-- It has something to do as soon as something has arrived or its deadline is there. -/
theorem readStep_isSome_iff (hs : hub.session? h = some s)
    (hreader : s.peer.reader = .waiting deadline) (hfree : s.connection.cancelled = false)
    (cancelFirst : Bool) :
    (readStep cancelFirst h hub).isSome = true ↔ s.peer.inbox ≠ [] ∨ deadline ≤ hub.now := by
  rw [readStep_waiting hs hreader hfree, takeNext]
  cases s.peer.inbox with
  | nil => split <;> simp_all
  | cons arrival inbox => simp

/-- It misses its deadline exactly if nothing has arrived then. -/
theorem missed_iff_empty (hs : hub.session? h = some s)
    (hreader : s.peer.reader = .waiting deadline) (hfree : s.connection.cancelled = false)
    {cancelFirst : Bool} (hgoes : (readStep cancelFirst h hub).isSome = true) :
    (hub.after (.read h cancelFirst)).readExit? h = some .deadlineExceeded ↔ s.peer.inbox = [] := by
  constructor
  · intro hexit
    obtain ⟨removal, lines, t, hshows, hstep⟩ := shows_after hs (.read h cancelFirst)
    rw [readExit?, hshows.session] at hexit
    have hbefore : s.peer.reader.exit? ≠ some .deadlineExceeded := by
      rw [hreader]
      simp [ReadPump.exit?]
    obtain ⟨_, _, -, -, hinbox, -, -⟩ := hstep.late hbefore hexit
    exact hinbox
  · intro hinbox
    have hlate : deadline ≤ hub.now :=
      ((readStep_isSome_iff hs hreader hfree cancelFirst).mp hgoes).resolve_left (· hinbox)
    have hstep : readStep cancelFirst h hub =
        some (hub.setReader h (.leaving .deadlineExceeded)) := by
      simp only [readStep_waiting hs hreader hfree, takeNext, hinbox, if_pos hlate]
    have hnext : hub.after (.read h cancelFirst) =
        hub.setReader h (.leaving .deadlineExceeded) := by
      rw [after, hstep]
      rfl
    rw [readExit?, hnext, session?_setReader, if_pos rfl, hs]
    rfl

/-- A wait that is on time ends with a missed deadline exactly if nothing had arrived when it began
and nothing arrives before the deadline, and then at the deadline or at once. -/
theorem missed_iff_of_waitsOnTime (hs : hub.session? h = some s)
    (hreader : s.peer.reader = .waiting deadline) (hontime : hub.waitsOnTime h happenings = true)
    (ht : (hub.run happenings).session? h = some t) (hfree : t.connection.cancelled = false)
    (hexact : ∀ entry ∈ hub.arrivedAt h happenings, entry.1 ≠ deadline) {cancelFirst : Bool}
    (hgoes : (readStep cancelFirst h (hub.run happenings)).isSome = true) :
    (((hub.run happenings).after (.read h cancelFirst)).readExit? h = some .deadlineExceeded ↔
      s.peer.inbox = [] ∧
        ∀ entry ∈ hub.arrivedAt h happenings, hub.now < entry.1 ∧ deadline ≤ entry.1) ∧
    (((hub.run happenings).after (.read h cancelFirst)).readExit? h = some .deadlineExceeded →
      (hub.run happenings).now = max deadline hub.now) := by
  obtain ⟨t', ht', hwaits, hinbox, hlater, hsoon, hearlier⟩ := waiting_run hs hreader hontime
  obtain rfl := Option.some.inj (ht'.symm.trans ht)
  have hmissed := missed_iff_empty ht hwaits hfree hgoes
  have hempty : t'.peer.inbox = [] ↔ s.peer.inbox = [] ∧ hub.arrivedAt h happenings = [] := by
    rw [hinbox, List.append_eq_nil_iff, List.map_eq_nil_iff]
  -- Between the deadline and the end of the wait there is no time for anything to arrive.
  have hnone : (∀ entry ∈ hub.arrivedAt h happenings, hub.now < entry.1 ∧ deadline ≤ entry.1) →
      hub.arrivedAt h happenings = [] := by
    intro hlate
    rw [List.eq_nil_iff_forall_not_mem]
    intro entry hin
    obtain ⟨hafter, hdue⟩ := hlate entry hin
    have hbefore := Nat.le_trans (hearlier entry hin) hsoon
    have hpast : deadline < entry.1 := Nat.lt_of_le_of_ne hdue (hexact entry hin).symm
    exact absurd hbefore (Nat.not_le.mpr (Nat.max_lt.mpr ⟨hpast, hafter⟩))
  rw [hmissed, hempty]
  refine ⟨⟨?_, ?_⟩, ?_⟩
  · rintro ⟨hold, hnew⟩
    refine ⟨hold, ?_⟩
    rw [hnew]
    intro entry hin
    cases hin
  · rintro ⟨hold, hlate⟩
    exact ⟨hold, hnone hlate⟩
  · rintro hnothing
    have hdue : deadline ≤ (hub.run happenings).now :=
      ((readStep_isSome_iff ht hwaits hfree cancelFirst).mp hgoes).resolve_left
        (· (hempty.mpr hnothing))
    exact Nat.le_antisymm hsoon (Nat.max_le.mpr ⟨hdue, hlater⟩)

/-- The deadline of a read pump stands where the latest pong that it took put it, or its
registration, plus the wait for a pong; nothing else moves it, and nothing moves it back. The pump
misses it only when it waits and finds nothing. A wait that is on time ends at the latest at the
deadline, or at once if that is over when it begins, and a pump that was not told to leave misses
its deadline in it exactly if nothing had arrived when it began and nothing arrives before the
deadline; what has arrived it takes, even after the deadline. -/
theorem deadline_missed_iff (hub : Hub) (h : Handle) (s : Session) (cancelFirst : Bool)
    (hs : hub.session? h = some s) (hreader : s.peer.reader = .joining) (past : List Happening) :
    let wait := hub.settings.pongWait.toNanos
    let first := hub.after (.read h cancelFirst)
    let here := first.run past
    ∃ t, here.session? h = some t ∧
      (∀ deadline, t.peer.reader.deadline? = some deadline →
        deadline = first.lastPong h hub.now past + wait ∧
        ∀ happening u later, (here.after happening).session? h = some u →
          u.peer.reader.deadline? = some later → deadline ≤ later ∧
            (later ≠ deadline → later = here.now + wait ∧
              ∃ size, here.takes? h happening = some (.pong size))) ∧
      (∀ happening, t.peer.reader.exit? ≠ some .deadlineExceeded →
        (here.after happening).readExit? h = some .deadlineExceeded →
        ∃ cancelFirst deadline, happening = .read h cancelFirst ∧
          t.peer.reader = .waiting deadline ∧ t.peer.inbox = [] ∧ deadline ≤ here.now) ∧
      ∀ deadline more, t.peer.reader = .waiting deadline → here.waitsOnTime h more = true →
        let there := here.run more
        there.now ≤ max deadline here.now ∧
        ∃ u, there.session? h = some u ∧ u.peer.reader = .waiting deadline ∧
          (u.connection.cancelled = false → ∀ cancelFirst,
            ((readStep cancelFirst h there).isSome = true ↔
              u.peer.inbox ≠ [] ∨ deadline ≤ there.now) ∧
            there.takes? h (.read h cancelFirst) = u.peer.inbox.head? ∧
            ((∀ entry ∈ here.arrivedAt h more, entry.1 ≠ deadline) →
              (readStep cancelFirst h there).isSome = true →
              ((there.after (.read h cancelFirst)).readExit? h = some .deadlineExceeded ↔
                t.peer.inbox = [] ∧
                  ∀ entry ∈ here.arrivedAt h more, here.now < entry.1 ∧ deadline ≤ entry.1) ∧
              ((there.after (.read h cancelFirst)).readExit? h = some .deadlineExceeded →
                there.now = max deadline here.now))) := by
  intro wait first here
  have hjoined := session?_after_join hs hreader cancelFirst
  have hnow : first.now = hub.now := now_after hs (.read h cancelFirst)
  have hsettings : first.settings = hub.settings := settings_after hs (.read h cancelFirst)
  have hbegan : ∀ deadline, (ReadPump.awaiting hub.settings hub.now).deadline? = some deadline →
      deadline = hub.now + first.settings.pongWait.toNanos := by
    intro deadline hdeadline
    rw [ReadPump.deadline?_awaiting, Instant.after?_eq_some_iff] at hdeadline
    rw [hsettings]
    exact hdeadline.1
  have hunderway := (ReadPump.awaits_awaiting hub.settings hub.now).underway
  obtain ⟨hlatest, hkept, t, ht, hthere, hstands⟩ :=
    deadline_run hjoined (Peer.underway hunderway).1 (Nat.le_of_eq hnow.symm) hbegan past
  have hwait : first.settings.pongWait.toNanos = wait := by rw [hsettings]
  have hwait' : here.settings.pongWait.toNanos = wait := by rw [hkept, hsettings]
  rw [hwait] at hstands
  refine ⟨t, ht, ?_, ?_, ?_⟩
  · intro deadline hdeadline
    refine ⟨hstands deadline hdeadline, ?_⟩
    intro happening u later hu hlater
    obtain ⟨deadline', hdeadline', hmoved⟩ := deadline_after ht hthere hu hlater
    obtain rfl := Option.some.inj (hdeadline'.symm.trans hdeadline)
    rw [hwait'] at hmoved
    split at hmoved
    · next hpong =>
        obtain ⟨arrival, htakes, hpong⟩ := (Option.any_eq_true _ _).mp hpong
        obtain ⟨size, rfl⟩ := Arrival.exists_of_isPong hpong
        have hforward : deadline' ≤ later := by
          rw [hmoved, hstands deadline' hdeadline']
          exact Nat.add_le_add_right hlatest wait
        exact ⟨hforward, fun _ => ⟨hmoved, size, htakes⟩⟩
    · exact ⟨Nat.le_of_eq hmoved.symm, fun hchanged => absurd hmoved hchanged⟩
  · intro happening hbefore hexit
    obtain ⟨removal, lines, u, hshows, hstep⟩ := shows_after ht happening
    rw [readExit?, hshows.session] at hexit
    obtain ⟨deadline, first, rfl, hreader, hinbox, hlate, -⟩ := hstep.late hbefore hexit
    exact ⟨first, deadline, rfl, hreader, hinbox, hlate⟩
  · intro deadline more hreader hontime there
    obtain ⟨u, hu, hwaits, -, -, hsoon, -⟩ := waiting_run ht hreader hontime
    refine ⟨hsoon, u, hu, hwaits, ?_⟩
    intro hfree cancelFirst
    refine ⟨readStep_isSome_iff hu hwaits hfree cancelFirst, ?_, ?_⟩
    · rw [takes?, if_pos rfl, hu, Option.bind_some,
        Session.takes?_of_waiting hwaits (by simp [hfree])]
    · intro hexact hgoes
      exact missed_iff_of_waitsOnTime ht hreader hontime hu hfree hexact hgoes

/-- A pong is taken after three seconds, and three seconds later an event whose recipients take nine
seconds to find. -/
def slowRun : List Happening :=
  [.pass (3 * 10 ^ 9), .arrive 0 (.pong 0), .read 0 true, .pass (3 * 10 ^ 9),
    .arrive 0 (.text ("\x7b\"type\":\"favorited_listing_notification\"," ++
      "\"payload\":\x7b\"listing_id\":42,\"address\":\"a\"\x7d\x7d")),
    .read 0 true, .read 0 true, .pass (9 * 10 ^ 9), .read 0 true, .read 0 true]

/-- The deadline is over by then, and the read pump misses it as soon as it waits. -/
theorem slow_handler_misses_deadline :
    let faults := { Faults.none with lookupDelay := fun _ => 9 * 10 ^ 9 }
    let hub := (Hub.new .standard ⟨10, 0, by decide, by decide⟩ .empty faults ⟨0, 0⟩).run
      [.accept ⟨⟨1⟩, .user⟩ .direct]
    let here := (hub.after (.read 0 true)).run slowRun
    let there := here.run [.write 0]
    ∃ s t deadline, hub.session? 0 = some s ∧ s.peer.reader = .joining ∧
      here.session? 0 = some t ∧ t.peer.reader = .waiting deadline ∧
      here.waitsOnTime 0 [.write 0] = true ∧ (readStep true 0 there).isSome = true ∧
      deadline = 13 * 10 ^ 9 ∧ there.now = 15 * 10 ^ 9 ∧
      (there.after (.read 0 true)).readExit? 0 = some .deadlineExceeded := by
  intro faults hub here there
  obtain ⟨s, hs, hreader⟩ : ∃ s, hub.session? 0 = some s ∧ s.peer.reader = .joining :=
    ⟨_, rfl, rfl⟩
  obtain ⟨t, ht, hstands, -, hwait⟩ := deadline_missed_iff hub 0 s true hs hreader slowRun
  have hwaits : (here.session? 0).any (fun t => match t.peer.reader with
      | .waiting _ => t.peer.inbox.isEmpty
      | _ => false) = true := by
    decide +kernel
  have hfree : (there.session? 0).all (fun u => !u.connection.cancelled) = true := by
    decide +kernel
  have hontime : here.waitsOnTime 0 [.write 0] = true := by decide +kernel
  have hnothing : here.arrivedAt 0 [.write 0] = [] := by decide +kernel
  have hgoes : (readStep true 0 there).isSome = true := by decide +kernel
  have hlatest : (hub.after (.read 0 true)).lastPong 0 hub.now slowRun = 3 * 10 ^ 9 := by
    decide +kernel
  have hnow : there.now = 15 * 10 ^ 9 := by decide +kernel
  have hpong : hub.settings.pongWait.toNanos = 10 * 10 ^ 9 := by decide +kernel
  rw [ht, Option.any_some] at hwaits
  split at hwaits
  · next deadline hreader' =>
      have hdeadline := (hstands deadline (by rw [hreader']; rfl)).1
      rw [hlatest, hpong] at hdeadline
      obtain ⟨-, u, hu, -, hlooks⟩ := hwait deadline [.write 0] hreader' hontime
      have hu : there.session? 0 = some u := hu
      rw [hu, Option.all_some] at hfree
      obtain ⟨-, -, hmissed⟩ := hlooks (by simpa using hfree) true
      have hnothing : ∀ entry, entry ∉ here.arrivedAt 0 [.write 0] := by simp [hnothing]
      obtain ⟨hmissed, -⟩ := hmissed (fun entry hin => absurd hin (hnothing entry)) hgoes
      refine ⟨s, t, deadline, hs, hreader, ht, hreader', hontime, hgoes, ?_, hnow, ?_⟩
      · omega
      · apply hmissed.mpr
        exact ⟨List.isEmpty_iff.mp hwaits, fun entry hin => absurd hin (hnothing entry)⟩
  · cases hwaits

end Hub

end ListingHub
