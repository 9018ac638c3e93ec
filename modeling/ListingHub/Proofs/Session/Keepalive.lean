import ListingHub.Proofs.Session.Pace
import ListingHub.Proofs.Session.Removal
import Mathlib.Algebra.GroupWithZero.Nat

/-!
# A peer that answers its pings is not given up

The read pump gives a peer up when no pong moves the deadline in time, and only the write pump asks
for pongs. The two share nothing but the pace. A pong that has arrived counts, however late it is
taken, because the read pump takes what has arrived before it looks at the clock. Only a pump that
was told to leave may look at the clock when its peer has answered in time.
-/

namespace ListingHub

/-- Nothing is read after the arrival. -/
def Arrival.isLast : Arrival → Bool
  | close | failure _ | ended => true
  | text _ | binary _ | ping _ | pong _ => false

/-- The read pump that takes the arrival does not miss its deadline. -/
def Arrival.settles (arrival : Arrival) : Bool :=
  arrival.isPong || arrival.isLast

theorem Arrival.settles_of_data? {arrival : Arrival} {data : List UInt8}
    (hdata : arrival.data? = some data) : arrival.settles = false := by
  cases arrival with
  | text _ | binary _ => rfl
  | ping _ | pong _ | close | failure _ | ended => cases hdata

/-- The deadline of a read pump that waits or handles an event. -/
def ReadPump.deadline? : ReadPump → Option Instant
  | waiting deadline | handling deadline _ _ => some deadline
  | joining | leaving _ | draining _ | done _ | crashed => none

/-- Why a read pump stopped, if it did. -/
def ReadPump.exit? : ReadPump → Option Exit
  | leaving exit | draining exit | done exit => some exit
  | joining | waiting _ | handling .. | crashed => none

/-- The deadline of a read pump is one that its clock can tell. -/
theorem ReadPump.deadline?_awaiting (settings : Settings) (now : Instant) :
    (awaiting settings now).deadline? = now.after? settings.pongWait := by
  unfold awaiting
  split
  · next h => rw [h, deadline?]
  · next h => rw [h, deadline?]

theorem ReadPump.Awaits.exit? {reader : ReadPump} (hawaits : reader.Awaits) :
    reader.exit? = none := by
  cases hawaits <;> rfl

/-- A read pump that has just taken an arrival misses no deadline. -/
theorem Arrival.Leads.exit?_ne {settings : Settings} {now deadline : Instant} {arrival : Arrival}
    {next : ReadPump} (hleads : arrival.Leads settings now deadline next) :
    next.exit? ≠ some .deadlineExceeded := by
  intro hexit
  cases hleads with
  | pong _ =>
      rw [(ReadPump.awaits_awaiting settings now).exit?] at hexit
      cases hexit
  | _ => cases hexit

namespace Session

variable {settings : Settings} {pace : Pace settings} {now deadline : Nat} {owed : Option Nat}
  {s t : Session}

/-- The read pump has a deadline, was not told to leave, and nothing that arrived ends its stream:
it depends on pongs. -/
def awaitsPong (s : Session) : Bool :=
  s.peer.reader.deadline?.isSome && !s.connection.cancelled && !s.peer.inbox.any Arrival.isLast

theorem Writes.reading_eq {removal : Option Remover} {lines : List LogEvent}
    (hwrites : s.Writes settings now removal lines t) :
    t.peer.reader = s.peer.reader ∧ t.peer.inbox = s.peer.inbox := by
  cases hwrites <;> exact ⟨rfl, rfl⟩

theorem Writes.cancelled {removal : Option Remover} {lines : List LogEvent}
    (hwrites : s.Writes settings now removal lines t) (hcancelled : s.connection.cancelled = true) :
    t.connection.cancelled = true := by
  cases hwrites with
  | start _ _ _ | ping _ _ _ _ | send _ _ | farewell _ _ | giveUp _ _ => exact hcancelled
  | crash _ _ _ => exact Connection.cancelled_apply .dropReceiver hcancelled
  | stop _ _ | disconnect _ _ _ | fail _ _ =>
      exact Connection.cancelled_apply .shutReceiver hcancelled
  | fetch _ _ _ => exact Connection.cancelled_apply .receive hcancelled
  | teardown _ => exact Connection.cancelled_beginClose _

theorem cancelled_struck (hcancelled : s.connection.cancelled = true) :
    s.struck.connection.cancelled = true := by
  unfold struck
  split
  · exact Connection.cancelled_beginClose _
  · exact hcancelled

theorem Pushed.cancelled {removal : Option Remover} (hpushed : s.Pushed removal t)
    (hcancelled : s.connection.cancelled = true) : t.connection.cancelled = true := by
  cases hpushed with
  | spared => exact hcancelled
  | offered envelope => exact Connection.cancelled_apply (.deliver envelope) hcancelled
  | evicted => exact cancelled_struck hcancelled

/-- Until a deadline the read pump takes something that settles it, or it is told to leave. -/
def Safe (pace : Pace settings) (now : Nat) (owed : Option Nat) (deadline : Nat) (s : Session) :
    Prop :=
  s.connection.cancelled = true ∨
    s.peer.writer.OnPace pace.every now owed ∧
      (s.peer.inbox.any Arrival.settles = true ∨ s.peer.writer.Meets pace now owed deadline)

/-- No pong that the read pump depends on is late. -/
def Timely (pace : Pace settings) (now : Nat) (owed : Option Nat) (s : Session) : Prop :=
  s.awaitsPong = true → ∀ since, owed = some since → now < since + pace.spare

theorem Timely.lt (htimely : s.Timely pace now owed) (hfree : s.connection.cancelled = false)
    {deadline : Instant} (hdeadline : s.peer.reader.deadline? = some deadline)
    (hunsettled : s.peer.inbox.any Arrival.settles = false) :
    ∀ since, owed = some since → now < since + pace.spare := by
  apply htimely
  have hopen : s.peer.inbox.any Arrival.isLast = false := by
    rw [List.any_eq_false] at hunsettled ⊢
    intro arrival hin hlast
    exact hunsettled arrival hin (by simp [Arrival.settles, hlast])
  simp [awaitsPong, hfree, hdeadline, hopen]

/-- A read pump that finds nothing after its deadline was told to leave. -/
theorem Safe.cancelled_of_late {deadline : Instant} (hsafe : s.Safe pace now owed deadline)
    (hdeadline : s.peer.reader.deadline? = some deadline) (hinbox : s.peer.inbox = [])
    (hlate : deadline ≤ now) (htimely : s.Timely pace now owed) :
    s.connection.cancelled = true := by
  cases hfree : s.connection.cancelled with
  | true => rfl
  | false =>
      obtain ⟨hpace, hmet⟩ := hsafe.resolve_left (by simp [hfree])
      have hunsettled : s.peer.inbox.any Arrival.settles = false := by
        rw [hinbox]
        rfl
      have hmeets := hmet.resolve_left (by simp [hunsettled])
      have hlt := hmeets.lt_deadline hpace (htimely.lt hfree hdeadline hunsettled)
      exact absurd hlate (Nat.not_le.mpr hlt)

theorem Safe.writes {deadline : Instant} {removal : Option Remover} {lines : List LogEvent}
    (hsafe : s.Safe pace now owed deadline) (hdeadline : s.peer.reader.deadline? = some deadline)
    (htimely : s.Timely pace now owed) (hwrites : s.Writes settings now removal lines t) :
    t.Safe pace now (s.owedAfter t now owed) deadline := by
  cases hfree : s.connection.cancelled with
  | true => exact .inl (hwrites.cancelled hfree)
  | false =>
      obtain ⟨hpace, hmet⟩ := hsafe.resolve_left (by simp [hfree])
      rcases hwrites.keepsPace hpace with htold | ⟨hnext, hkeeps⟩
      · exact .inl htold
      · refine .inr ⟨hnext, ?_⟩
        rw [hwrites.reading_eq.2]
        cases hsettled : s.peer.inbox.any Arrival.settles with
        | true => exact .inl rfl
        | false =>
            have hmeets := hmet.resolve_left (by simp [hsettled])
            exact .inr (hkeeps deadline (htimely.lt hfree hdeadline hsettled) hmeets)

/-- Taking an arrival moves the deadline, or settles nothing, or is the last thing to be read. -/
theorem Safe.take {deadline : Instant} {arrival : Arrival} {inbox : List Arrival} {next : ReadPump}
    (hsafe : s.Safe pace now owed deadline) (hinbox : s.peer.inbox = arrival :: inbox)
    (hleads : arrival.Leads settings now deadline next) {later : Instant}
    (hlater : next.deadline? = some later) :
    ((s.fetched arrival inbox).setReader next).Safe pace now owed later := by
  rcases hsafe with hcancelled | ⟨hpace, hmet⟩
  · exact .inl hcancelled
  · refine .inr ⟨hpace, ?_⟩
    -- An arrival that settles nothing leaves what does.
    have hpassed : arrival.settles = false → inbox.any Arrival.settles = true ∨
        s.peer.writer.Meets pace now owed deadline := by
      intro hunsettled
      simpa [hinbox, hunsettled] using hmet
    cases hleads with
    | pong size =>
        rw [ReadPump.deadline?_awaiting, Instant.after?_eq_some_iff] at hlater
        obtain ⟨rfl, -⟩ := hlater
        exact .inr hpace.meets
    | ping size =>
        obtain rfl := Option.some.inj hlater
        exact hpassed rfl
    | close | ended | failure _ | tooLarge _ _ => cases hlater
    | passed hdata _ =>
        obtain rfl := Option.some.inj hlater
        exact hpassed (Arrival.settles_of_data? hdata)
    | begun hdata _ _ =>
        obtain rfl := Option.some.inj hlater
        exact hpassed (Arrival.settles_of_data? hdata)

/-- What arrives settles deadlines, if anything. -/
theorem Safe.supply {deadline : Instant} (hsafe : s.Safe pace now owed deadline)
    (hcancelled : s.connection.cancelled = true → t.connection.cancelled = true)
    (hwriter : t.peer.writer = s.peer.writer) {more : List Arrival}
    (hinbox : t.peer.inbox = s.peer.inbox ++ more) :
    t.Safe pace now (if more.any Arrival.isPong then none else owed) deadline := by
  rcases hsafe with hold | ⟨hpace, hmet⟩
  · exact .inl (hcancelled hold)
  · rw [Safe, hwriter, hinbox, List.any_append]
    cases hpong : more.any Arrival.isPong with
    | true =>
        have hsettles : more.any Arrival.settles = true := by
          obtain ⟨arrival, hin, hpong⟩ := List.any_eq_true.mp hpong
          exact List.any_eq_true.mpr ⟨arrival, hin, by simp [Arrival.settles, hpong]⟩
        exact .inr ⟨hpace.ponged, .inl (by simp [hsettles])⟩
    | false => exact .inr ⟨hpace, hmet.imp_left fun hsettled => by simp [hsettled]⟩

/-- Time passes. -/
theorem Safe.pass {deadline : Instant} (hsafe : s.Safe pace now owed deadline) {elapsed : Nat}
    (hallows : s.peer.writer.allows now elapsed = true) :
    s.Safe pace (now + elapsed) owed deadline := by
  rcases hsafe with hcancelled | ⟨hpace, hmet⟩
  · exact .inl hcancelled
  · obtain ⟨hnext, hmeets⟩ := hpace.pass hallows
    exact .inr ⟨hnext, hmet.imp_right (hmeets deadline)⟩

/-- The pumps of a session start together, and a deadline is safe. -/
structure OnSchedule (pace : Pace settings) (now : Nat) (owed : Option Nat) (s : Session) :
    Prop where
  joining : s.peer.hasJoined = false → s.peer.writer = .starting ∧ owed = none
  safe : ∀ deadline, s.peer.reader.deadline? = some deadline → s.Safe pace now owed deadline

theorem onSchedule_fresh (identity : Identity) (transport : Transport) (capacity : Nat) :
    (fresh identity transport capacity).OnSchedule pace now none where
  joining := fun _ => ⟨rfl, rfl⟩
  safe := by
    intro deadline hdeadline
    cases hdeadline

/-- A read pump that has joined is on schedule if its deadline is. -/
theorem onSchedule_of_joined (hjoined : t.peer.hasJoined = true)
    (hsafe : ∀ deadline, t.peer.reader.deadline? = some deadline → t.Safe pace now owed deadline) :
    t.OnSchedule pace now owed where
  joining := by
    intro hwaits
    rw [hjoined] at hwaits
    cases hwaits
  safe := hsafe

/-- A read pump that has stopped is on schedule. -/
theorem onSchedule_of_stopped (hjoined : t.peer.hasJoined = true)
    (hdeadline : t.peer.reader.deadline? = none) : t.OnSchedule pace now owed := by
  apply onSchedule_of_joined hjoined
  intro deadline hsome
  rw [hdeadline] at hsome
  cases hsome

theorem OnSchedule.writes {removal : Option Remover} {lines : List LogEvent}
    (hschedule : s.OnSchedule pace now owed) (htimely : s.Timely pace now owed)
    (hwrites : s.Writes settings now removal lines t) :
    t.OnSchedule pace now (s.owedAfter t now owed) := by
  obtain ⟨hreader, -⟩ := hwrites.reading_eq
  have hjoined : s.peer.hasJoined = true := by
    cases hjoined : s.peer.hasJoined with
    | true => rfl
    | false =>
        -- Until the connection is registered the write pump does not start.
        obtain ⟨hstarting, -⟩ := hschedule.joining hjoined
        rw [Peer.hasJoined] at hjoined
        cases hwrites <;> simp_all
  apply onSchedule_of_joined
  · rw [Peer.hasJoined, hreader]
    exact hjoined
  · rw [hreader]
    intro deadline hdeadline
    exact (hschedule.safe deadline hdeadline).writes hdeadline htimely hwrites

/-- What happens elsewhere supplies the session with arrivals, if with anything. -/
theorem OnSchedule.supply (hschedule : s.OnSchedule pace now owed)
    (hcancelled : s.connection.cancelled = true → t.connection.cancelled = true)
    (hreader : t.peer.reader = s.peer.reader) (hwriter : t.peer.writer = s.peer.writer)
    (hsent : t.peer.sink.sent = s.peer.sink.sent) {more : List Arrival}
    (hinbox : t.peer.inbox = s.peer.inbox ++ more) :
    t.OnSchedule pace now (s.owedAfter t now owed) := by
  have howed : s.owedAfter t now owed = if more.any Arrival.isPong then none else owed := by
    simp [owedAfter, ponged, pinged, hinbox, hsent]
  rw [howed]
  constructor
  · rw [Peer.hasJoined, hreader, hwriter]
    intro hjoining
    obtain ⟨hstarting, rfl⟩ := hschedule.joining hjoining
    exact ⟨hstarting, ite_self none⟩
  · rw [hreader]
    intro deadline hdeadline
    exact (hschedule.safe deadline hdeadline).supply hcancelled hwriter hinbox

theorem OnSchedule.pushed {removal : Option Remover} (hschedule : s.OnSchedule pace now owed)
    (hpushed : s.Pushed removal t) : t.OnSchedule pace now (s.owedAfter t now owed) := by
  have hpeer := hpushed.peer_eq
  have hinbox : t.peer.inbox = s.peer.inbox ++ [] := by rw [hpeer, List.append_nil]
  exact hschedule.supply hpushed.cancelled (by rw [hpeer]) (by rw [hpeer]) (by rw [hpeer]) hinbox

theorem OnSchedule.touched {removal : Option Remover} (hschedule : s.OnSchedule pace now owed)
    (htouched : s.Touched now removal t) : t.OnSchedule pace now (s.owedAfter t now owed) := by
  cases htouched with
  | pushed hpushed => exact hschedule.pushed hpushed
  | struck remover hother =>
      exact hschedule.supply cancelled_struck rfl rfl rfl (List.append_nil _).symm
  | arrive arrival hopen hmore => exact hschedule.supply id rfl rfl rfl rfl
  | answer hpings => exact hschedule.supply id rfl rfl rfl rfl
  | resink hsent => exact hschedule.supply id rfl rfl hsent (List.append_nil _).symm
  | @lapse deadline job work wake hreader hlate =>
      have howed : s.owedAfter (s.setReader (.handling deadline job
          (.finished (.error job.limit.failure)))) now owed = owed := owedAfter_of_eq rfl rfl
      rw [howed]
      apply onSchedule_of_joined rfl
      intro later hlater
      apply hschedule.safe
      rw [hreader]
      exact hlater

/-- The read pump writes no pings and lets no pongs arrive. -/
theorem Reads.owedAfter_eq {cancelFirst : Bool} {removal : Option Remover} {lines : List LogEvent}
    (hreads : s.Reads settings now cancelFirst removal lines t) :
    s.owedAfter t now owed = owed := by
  cases hreads with
  | join _ | expire _ _ _ _ | cancel _ _ | conclude _ | leave _ | finish _ _ =>
      exact owedAfter_of_eq rfl rfl
  | handle _ hpushed next =>
      have hpeer := hpushed.peer_eq
      apply owedAfter_of_eq
      · simp [setReader, hpeer]
      · simp [setReader, hpeer]
  | @take deadline arrival inbox next _ hinbox _ _ =>
      have hponged : s.ponged ((s.fetched arrival inbox).setReader next) = false := by
        have hless : inbox.length ≤ (arrival :: inbox).length := Nat.le_succ _
        rw [ponged, hinbox,
          show ((s.fetched arrival inbox).setReader next).peer.inbox = inbox from rfl,
          List.drop_eq_nil_of_le hless]
        rfl
      have hpinged : s.pinged ((s.fetched arrival inbox).setReader next) = false := by
        simp only [pinged, setReader, fetched, mapPeer, Hub.answer]
        split <;> simp
      rw [owedAfter, hponged, hpinged]
      rfl

theorem OnSchedule.join (hschedule : s.OnSchedule pace now owed)
    (hreader : s.peer.reader = .joining) :
    (s.joined.setReader (.awaiting settings now)).OnSchedule pace now owed := by
  obtain ⟨hstarting, rfl⟩ := hschedule.joining (by rw [Peer.hasJoined, hreader])
  have hpace : s.peer.writer.OnPace pace.every now none := by
    rw [hstarting]
    exact WritePump.onPace_starting pace.every now
  apply onSchedule_of_joined
  · exact (Peer.underway (ReadPump.awaits_awaiting settings now).underway).1
  · intro deadline hdeadline
    obtain ⟨rfl, -⟩ := Instant.after?_eq_some_iff.mp
      ((ReadPump.deadline?_awaiting settings now).symm.trans hdeadline)
    exact .inr ⟨hpace, .inr hpace.meets⟩

/-- The read pump stays on schedule. -/
theorem OnSchedule.reads {cancelFirst : Bool} {removal : Option Remover} {lines : List LogEvent}
    (hschedule : s.OnSchedule pace now owed)
    (hreads : s.Reads settings now cancelFirst removal lines t) :
    t.OnSchedule pace now (s.owedAfter t now owed) := by
  rw [hreads.owedAfter_eq]
  cases hreads with
  | join hreader => exact hschedule.join hreader
  | take hreader hinbox _ hleads =>
      have hsafe := hschedule.safe _ (by rw [hreader]; rfl)
      apply onSchedule_of_joined
      · exact (Peer.underway hleads.underway).1
      · intro later hlater
        exact hsafe.take hinbox hleads hlater
  | expire _ _ _ _ | cancel _ _ | leave _ | finish _ _ => exact onSchedule_of_stopped rfl rfl
  | @handle deadline job work removal u hreader hpushed next =>
      have hpeer := hpushed.peer_eq
      have howed : s.owedAfter u now owed = owed := owedAfter_of_eq (by rw [hpeer]) (by rw [hpeer])
      have hnext := hschedule.pushed hpushed
      rw [howed] at hnext
      apply onSchedule_of_joined rfl
      intro later hlater
      apply hnext.safe
      rw [hpeer, hreader]
      exact hlater
  | conclude hreader =>
      have hdeadline := congrArg ReadPump.deadline? hreader
      apply onSchedule_of_joined rfl
      intro later hlater
      exact hschedule.safe later (hdeadline.trans hlater)

theorem OnSchedule.pass (hschedule : s.OnSchedule pace now owed) {elapsed : Nat}
    (hallows : s.peer.hasJoined = true → s.peer.writer.allows now elapsed = true) :
    s.OnSchedule pace (now + elapsed) owed where
  joining := hschedule.joining
  safe := by
    intro deadline hdeadline
    have hjoined : s.peer.hasJoined = true := by
      unfold Peer.hasJoined
      split
      · next hreader =>
          rw [hreader] at hdeadline
          cases hdeadline
      · rfl
    exact (hschedule.safe deadline hdeadline).pass (hallows hjoined)

/-- Every step keeps a session on schedule, if the pumps are punctual and no pong is late. -/
theorem OnSchedule.step {h : Handle} {happening : Happening} {removal : Option Remover}
    {lines : List LogEvent} (hschedule : s.OnSchedule pace now owed)
    (hstep : s.Step settings now h happening removal lines t)
    (hallows : s.peer.hasJoined = true → s.peer.writer.allows now happening.elapsed = true)
    (htimely : s.Timely pace now owed) :
    t.OnSchedule pace (now + happening.elapsed) (s.owedAfter t now owed) := by
  cases hstep with
  | rest happening =>
      rw [owedAfter_of_eq rfl rfl]
      exact hschedule.pass hallows
  | read hreads => exact hschedule.reads hreads
  | write hwrites => exact hschedule.writes htimely hwrites
  | touch hnow htouched =>
      rw [hnow]
      exact hschedule.touched htouched

/-- Only a read pump that waits, finds nothing and looks at the clock misses its deadline. -/
theorem Step.late {h : Handle} {happening : Happening} {removal : Option Remover}
    {lines : List LogEvent} (hstep : s.Step settings now h happening removal lines t)
    (hbefore : s.peer.reader.exit? ≠ some .deadlineExceeded)
    (hexit : t.peer.reader.exit? = some .deadlineExceeded) :
    ∃ deadline cancelFirst, happening = .read h cancelFirst ∧
      s.peer.reader = .waiting deadline ∧ s.peer.inbox = [] ∧ deadline ≤ now ∧
      ¬(s.connection.cancelled = true ∧ cancelFirst = true) := by
  cases hstep with
  | rest happening => exact absurd hexit hbefore
  | write hwrites =>
      rw [hwrites.reading_eq.1] at hexit
      exact absurd hexit hbefore
  | touch hnow htouched =>
      cases htouched with
      | pushed hpushed =>
          rw [hpushed.peer_eq] at hexit
          exact absurd hexit hbefore
      | struck _ _ | arrive _ _ _ | answer _ | resink _ => exact absurd hexit hbefore
      | lapse _ _ => cases hexit
  | @read cancelFirst _ _ _ hreads =>
      cases hreads with
      | expire hreader hinbox hlate hfree => exact ⟨_, _, rfl, hreader, hinbox, hlate, hfree⟩
      | leave hreader | finish hreader _ =>
          rw [hreader] at hbefore
          exact absurd hexit hbefore
      | take _ _ _ hleads => exact absurd hexit hleads.exit?_ne
      | join _ =>
          have hawaits := ReadPump.awaits_awaiting settings now
          exact absurd (hawaits.exit?.symm.trans hexit) (by simp)
      | cancel _ _ | handle _ _ _ | conclude _ => cases hexit

end Session

namespace Hub

variable {hub : Hub} {h : Handle} {settings : Settings} {pace : Pace settings}
  {owed : Option Nat} {happening : Happening} {happenings : List Happening}

/-- Why the read pump of a connection stopped, if it did. -/
def readExit? (hub : Hub) (h : Handle) : Option Exit :=
  (hub.session? h).bind fun s => s.peer.reader.exit?

/-- The write pump of a connection allows the time that passes. -/
def isPunctual (hub : Hub) (h : Handle) (happening : Happening) : Bool :=
  (hub.session? h).all fun s =>
    !s.peer.hasJoined || s.peer.writer.allows hub.now happening.elapsed

/-- Throughout a run the pumps of a connection start together, its timers are on time and what is
written to it takes no time. -/
def runsPunctually (h : Handle) : Hub → List Happening → Bool
  | _, [] => true
  | hub, happening :: happenings =>
      hub.isPunctual h happening && runsPunctually h (hub.after happening) happenings

/-- A ping is written. -/
def pings (hub : Hub) (h : Handle) (happening : Happening) : Bool :=
  (hub.session? h).any fun s => ((hub.after happening).session? h).any fun t => s.pinged t

/-- A pong arrives. -/
def pongs (hub : Hub) (h : Handle) (happening : Happening) : Bool :=
  (hub.session? h).any fun s => ((hub.after happening).session? h).any fun t => s.ponged t

/-- Before the limit a pong arrives, as long as the read pump depends on one. -/
def answeredBefore (h : Handle) (limit : Nat) : Hub → List Happening → Bool
  | hub, [] => !(hub.session? h).any Session.awaitsPong || hub.now < limit
  | hub, happening :: happenings =>
      (!(hub.session? h).any Session.awaitsPong || hub.now < limit) &&
        (hub.pongs h happening || answeredBefore h limit (hub.after happening) happenings)

/-- Each ping of a run has its pong before a time has passed. -/
def answersWithin (h : Handle) (span : Nat) : Hub → List Happening → Bool
  | _, [] => true
  | hub, happening :: happenings =>
      (!hub.pings h happening ||
        answeredBefore h (hub.now + span) (hub.after happening) happenings) &&
        answersWithin h span (hub.after happening) happenings

theorem lt_of_answeredBefore {limit : Nat}
    (hanswered : answeredBefore h limit hub happenings = true) {s : Session}
    (hs : hub.session? h = some s) (hawaits : s.awaitsPong = true) : hub.now < limit := by
  cases happenings with
  | nil => simpa [answeredBefore, hs, hawaits] using hanswered
  | cons happening happenings =>
      rw [answeredBefore, Bool.and_eq_true] at hanswered
      simpa [hs, hawaits] using hanswered.1

theorem answeredBefore_tail {limit : Nat}
    (hanswered : answeredBefore h limit hub (happening :: happenings) = true)
    (hpongs : hub.pongs h happening = false) :
    answeredBefore h limit (hub.after happening) happenings = true := by
  rw [answeredBefore, Bool.and_eq_true, hpongs, Bool.false_or] at hanswered
  exact hanswered.2

/-- The hub has the settings of the pace, and a connection is on schedule, or there is no such
connection yet. -/
def OnSchedule (hub : Hub) (h : Handle) (pace : Pace settings) (owed : Option Nat) : Prop :=
  hub.settings = settings ∧
    (hub.session? h = none ∧ owed = none ∨
      ∃ s, hub.session? h = some s ∧ s.OnSchedule pace hub.now owed)

/-- A ping that no pong has followed was written now, or was the oldest before. -/
theorem since_of_owedAfter {s t : Session} (hs : hub.session? h = some s)
    (ht : (hub.after happening).session? h = some t) {since : Nat}
    (howed : s.owedAfter t hub.now owed = some since) :
    hub.pongs h happening = false ∧
      (owed = some since ∨ hub.pings h happening = true ∧ since = hub.now) := by
  simp only [pongs, pings, hs, ht, Option.any_some]
  unfold Session.owedAfter at howed
  split at howed
  · cases howed
  · next hponged =>
      refine ⟨Bool.eq_false_iff.mpr hponged, ?_⟩
      split at howed
      · next hpinged =>
          cases owed with
          | none => exact .inr ⟨hpinged, (Option.some.inj howed).symm⟩
          | some first => exact .inl howed
      · exact .inl howed

theorem onSchedule_after (hlength : hub.peers.length = hub.service.board.connections.length)
    (hschedule : hub.OnSchedule h pace owed)
    (hpunctual : hub.isPunctual h happening = true)
    (htimely : ∀ s, hub.session? h = some s → s.Timely pace hub.now owed) :
    ∃ next, (hub.after happening).OnSchedule h pace next ∧ ∀ since, next = some since →
      hub.pongs h happening = false ∧
        (owed = some since ∨ hub.pings h happening = true ∧ since = hub.now) := by
  obtain ⟨hsettings, ⟨hnone, rfl⟩ | ⟨s, hs, hschedule⟩⟩ := hschedule
  · obtain ⟨-, hsame, hsession⟩ := appears_after hlength hnone happening
    refine ⟨none, ⟨hsame.trans hsettings, ?_⟩, fun since hsince => by cases hsince⟩
    rcases hsession with hstill | ⟨identity, transport, hfresh⟩
    · exact .inl ⟨hstill, rfl⟩
    · exact .inr ⟨_, hfresh, Session.onSchedule_fresh identity transport _⟩
  · obtain ⟨removal, lines, t, hshows, hstep⟩ := shows_after hs happening
    rw [hsettings] at hstep
    refine ⟨s.owedAfter t hub.now owed,
      ⟨hshows.settings.trans hsettings, .inr ⟨t, hshows.session, ?_⟩⟩,
      fun since => since_of_owedAfter hs hshows.session⟩
    rw [hshows.now]
    apply hschedule.step hstep _ (htimely s hs)
    intro hjoined
    simpa [isPunctual, hs, hjoined] using hpunctual

/-- A read pump that misses its deadline on schedule was told to leave and looks at the clock
first. -/
theorem OnSchedule.cancelled_of_late
    (hlength : hub.peers.length = hub.service.board.connections.length)
    (hschedule : hub.OnSchedule h pace owed)
    (htimely : ∀ s, hub.session? h = some s → s.Timely pace hub.now owed)
    (hbefore : hub.readExit? h ≠ some .deadlineExceeded)
    (hexit : (hub.after happening).readExit? h = some .deadlineExceeded) :
    happening = .read h false ∧ hub.readExit? h = none ∧
      ∃ c, hub.connection? h = some c ∧ c.cancelled = true := by
  obtain ⟨-, ⟨hnone, -⟩ | ⟨s, hs, hschedule⟩⟩ := hschedule
  · obtain ⟨-, -, hstill | ⟨identity, transport, hfresh⟩⟩ := appears_after hlength hnone happening
    · rw [readExit?, hstill] at hexit
      cases hexit
    · rw [readExit?, hfresh] at hexit
      cases hexit
  · obtain ⟨removal, lines, t, hshows, hstep⟩ := shows_after hs happening
    rw [readExit?, hs] at hbefore
    rw [readExit?, hshows.session] at hexit
    obtain ⟨deadline, cancelFirst, rfl, hreader, hinbox, hlate, hfree⟩ := hstep.late hbefore hexit
    have hdeadline := congrArg ReadPump.deadline? hreader
    have hcancelled := (hschedule.safe deadline hdeadline).cancelled_of_late hdeadline hinbox
      hlate (htimely s hs)
    have hlast : cancelFirst = false :=
      Bool.eq_false_iff.mpr fun hfirst => hfree ⟨hcancelled, hfirst⟩
    have hwaits : hub.readExit? h = none := by
      rw [readExit?, hs]
      exact congrArg ReadPump.exit? hreader
    obtain ⟨-, hget, -⟩ := session?_eq_some_iff.mp hs
    exact ⟨by rw [hlast], hwaits, s.connection, hget, hcancelled⟩

/-- A read pump that misses its deadline in a punctual run in which no pong is late was told to
leave before it looked at the clock. -/
theorem OnSchedule.cancelled_of_missed (hlawful : hub.outline.Lawful)
    (hschedule : hub.OnSchedule h pace owed)
    (hpunctual : runsPunctually h hub happenings = true)
    (hanswers : answersWithin h pace.spare hub happenings = true)
    (howed : ∀ since, owed = some since →
      answeredBefore h (since + pace.spare) hub happenings = true)
    (hbefore : hub.readExit? h ≠ some .deadlineExceeded)
    (hexit : (hub.run happenings).readExit? h = some .deadlineExceeded) :
    ∃ past future, happenings = past ++ .read h false :: future ∧
      (hub.run past).readExit? h = none ∧
      ∃ c, (hub.run past).connection? h = some c ∧ c.cancelled = true := by
  induction happenings generalizing hub owed with
  | nil => exact absurd hexit hbefore
  | cons happening happenings ih =>
      rw [runsPunctually, Bool.and_eq_true] at hpunctual
      rw [answersWithin, Bool.and_eq_true] at hanswers
      have hlength := length_of_lawful hlawful
      have htimely : ∀ s, hub.session? h = some s → s.Timely pace hub.now owed := by
        intro s hs hawaits since hsince
        exact lt_of_answeredBefore (howed since hsince) hs hawaits
      by_cases hmissed : (hub.after happening).readExit? h = some .deadlineExceeded
      · -- This is the step that misses it.
        obtain ⟨rfl, hwaits, hcancelled⟩ :=
          hschedule.cancelled_of_late hlength htimely hbefore hmissed
        exact ⟨[], happenings, rfl, hwaits, hcancelled⟩
      · obtain ⟨next, hnext, hsince⟩ := onSchedule_after hlength hschedule hpunctual.1 htimely
        have hlater : ∀ since, next = some since →
            answeredBefore h (since + pace.spare) (hub.after happening) happenings = true := by
          intro since hnext
          obtain ⟨hpongs, hold | ⟨hpings, rfl⟩⟩ := hsince since hnext
          · exact answeredBefore_tail (howed since hold) hpongs
          · simpa [hpings] using hanswers.1
        obtain ⟨past, future, rfl, hwaits, hcancelled⟩ :=
          ih (Outline.lawful_step hlawful (hub.step_after happening)) hnext hpunctual.2 hanswers.2
            hlater hmissed hexit
        exact ⟨happening :: past, future, rfl, hwaits, hcancelled⟩

/-- In every run in which the pumps of a connection start together, its timers are on time, what is
written to it takes no time, and each ping has its pong before the wait for a pong less the time
between two pings is over, the read pump misses its deadline only if its connection was cancelled
before, whatever else arrives, however long handlers take and whatever is pushed. A pump that is
told to leave while a handler keeps it past its deadline finds both when the handler returns, and
may look at either first. -/
theorem answering_peer_meets_deadline (settings : Settings) (pace : Pace settings)
    (handlerTimeout : Duration) (store : Store) (faults : Faults) (start : Timestamp)
    (router : Router Handler) (happenings : List Happening) (h : Handle) :
    let first := (Hub.new settings handlerTimeout store faults start).withRouter router
    first.runsPunctually h happenings = true →
    first.answersWithin h pace.spare happenings = true →
    (first.run happenings).readExit? h = some .deadlineExceeded →
    ∃ past future, happenings = past ++ .read h false :: future ∧
      (first.run past).readExit? h = none ∧
      ∃ c, (first.run past).connection? h = some c ∧ c.cancelled = true := by
  intro first hpunctual hanswers hexit
  have hlawful := lawful_new settings handlerTimeout store faults start router
  have hstart : first.OnSchedule h pace none := ⟨rfl, .inl ⟨rfl, rfl⟩⟩
  have hnothing : ∀ since, none = some since →
      answeredBefore h (since + pace.spare) first happenings = true := by
    intro since hnone
    cases hnone
  apply hstart.cancelled_of_missed hlawful hpunctual hanswers hnothing _ hexit
  intro hmissed
  cases hmissed

/-- A peer sends an event whose recipients take twelve seconds to find. -/
def slowEvent : List Happening :=
  [.arrive 0 (.text ("\x7b\"type\":\"favorited_listing_notification\"," ++
      "\"payload\":\x7b\"listing_id\":42,\"address\":\"a\"\x7d\x7d")),
    .read 0 true, .read 0 true]

/-- A second later all connections are closed, and the write pump stops. After the twelve seconds
the read pump is back and looks at the clock. -/
def closedMeanwhile : List Happening :=
  [.pass (10 ^ 9), .closeAll, .write 0, .write 0, .write 0, .pass (11 * 10 ^ 9), .read 0 true,
    .read 0 true, .read 0 false]

/-- A peer answers the ping that is due after nine seconds half a second later. Its event is handled
then, and the deadline that the pong has set is missed because all connections were closed. -/
theorem answered_ping_leaves_closing :
    let pace : Pace .standard := ⟨⟨9, 0, by decide, by decide⟩, by decide, by decide⟩
    let faults := { Faults.none with lookupDelay := fun _ => 12 * 10 ^ 9 }
    let first := (Hub.new .standard ⟨30, 0, by decide, by decide⟩ .empty faults ⟨0, 0⟩).withRouter
      (Router.empty.register "favorited_listing_notification" .dispatcher).2
    let happenings := [.accept ⟨⟨1⟩, .user⟩ .direct, .read 0 true, .write 0, .pass (9 * 10 ^ 9),
      .write 0, .write 0, .pass (5 * 10 ^ 8), .arrive 0 (.pong 0), .read 0 true] ++ slowEvent ++
      closedMeanwhile
    first.runsPunctually 0 happenings = true ∧
    first.answersWithin 0 pace.spare happenings = true ∧
    (first.run happenings).readExit? 0 = some .deadlineExceeded ∧
    ∃ past future, happenings = past ++ .read 0 false :: future ∧
      (first.run past).readExit? 0 = none ∧
      ∃ c, (first.run past).connection? 0 = some c ∧ c.cancelled = true := by
  intro pace faults first happenings
  have hpunctual : first.runsPunctually 0 happenings = true := by decide +kernel
  have hanswers : first.answersWithin 0 pace.spare happenings = true := by decide +kernel
  have hexit : (first.run happenings).readExit? 0 = some .deadlineExceeded := by decide +kernel
  exact ⟨hpunctual, hanswers, hexit, answering_peer_meets_deadline .standard pace
    ⟨30, 0, by decide, by decide⟩ .empty faults ⟨0, 0⟩ _ happenings 0 hpunctual hanswers hexit⟩

/-- The read pump of a peer that owes no pong exits for a missed deadline: all connections are
closed while it handles an event, which takes it past the deadline. -/
theorem answering_peer_misses_deadline :
    let pace : Pace .standard := ⟨⟨9, 0, by decide, by decide⟩, by decide, by decide⟩
    let faults := { Faults.none with lookupDelay := fun _ => 12 * 10 ^ 9 }
    let first := (Hub.new .standard ⟨30, 0, by decide, by decide⟩ .empty faults ⟨0, 0⟩).withRouter
      (Router.empty.register "favorited_listing_notification" .dispatcher).2
    let happenings := [.accept ⟨⟨1⟩, .user⟩ .direct, .read 0 true, .write 0] ++ slowEvent ++
      closedMeanwhile
    first.runsPunctually 0 happenings = true ∧
    first.answersWithin 0 pace.spare happenings = true ∧
    (first.run happenings).readExit? 0 = some .deadlineExceeded := by
  decide +kernel

end Hub

end ListingHub
