import ListingHub.Proofs.Session.Run

/-!
# A connection is taken off once

Four parties can take a connection off the registry: its two pumps, a broadcast that finds its queue
full, and whoever closes all connections. The account of a session compares who did so far, and what
the log tells of its life, with how far its pumps are. Every step keeps the account, so that exactly
one of them did when the peer is served, and the log tells of it if it was a pump.
-/

namespace ListingHub

/-- The connection was registered. -/
def Peer.hasJoined (peer : Peer) : Bool :=
  match peer.reader with
  | .joining => false
  | _ => true

/-- The read pump has torn its connection down. -/
def Peer.hasLeft (peer : Peer) : Bool :=
  match peer.reader with
  | .draining _ | .done _ => true
  | _ => false

/-- The read pump has joined and has not torn its connection down. One that crashed never will. -/
def ReadPump.isUnderway : ReadPump → Bool
  | waiting _ | handling .. | leaving _ | crashed => true
  | joining | draining _ | done _ => false

theorem ReadPump.Awaits.underway {reader : ReadPump} (hawaits : reader.Awaits) :
    reader.isUnderway = true := by
  cases hawaits <;> rfl

theorem Peer.underway {peer : Peer} (hunderway : peer.reader.isUnderway = true) :
    peer.hasJoined = true ∧ peer.hasLeft = false ∧ peer.isServed = false := by
  unfold hasJoined hasLeft isServed
  cases hreader : peer.reader with
  | waiting deadline | handling deadline job work | leaving exit | crashed =>
      exact ⟨rfl, rfl, rfl⟩
  | joining | draining exit | done exit =>
      rw [hreader] at hunderway
      cases hunderway

theorem Peer.left_of_isServed {peer : Peer} (hserved : peer.isServed = true) :
    peer.hasJoined = true ∧ peer.hasLeft = true := by
  unfold isServed at hserved
  unfold hasJoined hasLeft
  split at hserved
  · next hreader => simp [hreader]
  · cases hserved

/-- Taking an arrival keeps a read pump underway. -/
theorem Arrival.Leads.underway {settings : Settings} {now deadline : Instant} {arrival : Arrival}
    {next : ReadPump} (hleads : arrival.Leads settings now deadline next) :
    next.isUnderway = true := by
  cases hleads with
  | pong _ => exact (ReadPump.awaits_awaiting settings now).underway
  | _ => rfl

/-- How many lines have a message. -/
def tells (message : String) (lines : List LogEvent) : Nat :=
  lines.countP fun line => line.message == message

@[simp]
theorem tells_append (message : String) (lines more : List LogEvent) :
    tells message (lines ++ more) = tells message lines + tells message more :=
  List.countP_append

@[simp]
theorem tells_nil (message : String) : tells message [] = 0 := rfl

namespace Session

variable {s t : Session} {removals more : List Remover} {lines told : List LogEvent}

/-- Who took a session off so far, and what the log told of its life, fit how far its pumps are. -/
structure Accounted (s : Session) (removals : List Remover) (lines : List LogEvent) : Prop where
  removed : removals.length + s.registered.toNat = s.peer.hasJoined.toNat
  opened : tells "connection opened" lines = s.peer.hasJoined.toNat
  torn : tells "tearing down connection" lines = removals.countP Remover.isPump
  closed : tells "connection closed" lines = s.peer.isServed.toNat
  left : s.peer.hasLeft = true → s.registered = false
  ended : s.peer.isServed = true → s.peer.writer.ending?.isSome = true

theorem accounted_fresh (identity : Identity) (transport : Transport) (capacity : Nat) :
    (fresh identity transport capacity).Accounted [] [] := by
  constructor
  · rfl
  · rfl
  · rfl
  · rfl
  · intro hleft
    cases hleft
  · intro hserved
    cases hserved

/-- A session whose read pump is underway has an account. -/
theorem exists_accounted (hunderway : s.peer.reader.isUnderway = true) :
    ∃ removals lines, s.Accounted removals lines := by
  obtain ⟨hjoined, hleft, hserved⟩ := Peer.underway hunderway
  have hfits : ∀ removals : List Remover, removals.length + s.registered.toNat = 1 →
      removals.countP Remover.isPump = 0 → ∃ lines, s.Accounted removals lines := by
    intro removals hremoved htorn
    refine ⟨[.opened s.connection.identity], ?_⟩
    constructor
    · rw [hremoved, hjoined]
      rfl
    · rw [hjoined]
      rfl
    · rw [htorn]
      rfl
    · rw [hserved]
      rfl
    · rw [hleft]
      intro hfalse
      cases hfalse
    · rw [hserved]
      intro hfalse
      cases hfalse
  cases hregistered : s.registered with
  | true => exact ⟨[], hfits [] (by rw [hregistered]; rfl) rfl⟩
  | false => exact ⟨[.outside], hfits [.outside] (by rw [hregistered]; rfl) rfl⟩

/-- A step between joining and the end: somebody may take the session off, and the log tells of it
if it was a pump. -/
theorem Accounted.move (haccount : s.Accounted removals lines)
    (hjoined : t.peer.hasJoined = s.peer.hasJoined) (hserved : t.peer.isServed = s.peer.isServed)
    (hleft : t.peer.hasLeft = true → t.registered = false)
    (hended : t.peer.isServed = true → t.peer.writer.ending?.isSome = true)
    (hremoved : more.length + t.registered.toNat = s.registered.toNat)
    (hopened : tells "connection opened" told = 0) (hclosed : tells "connection closed" told = 0)
    (htorn : tells "tearing down connection" told = more.countP Remover.isPump) :
    t.Accounted (removals ++ more) (lines ++ told) where
  removed := by rw [List.length_append, Nat.add_assoc, hremoved, haccount.removed, hjoined]
  opened := by rw [tells_append, hopened, haccount.opened, hjoined, Nat.add_zero]
  torn := by rw [tells_append, htorn, haccount.torn, List.countP_append]
  closed := by rw [tells_append, hclosed, haccount.closed, hserved, Nat.add_zero]
  left := hleft
  ended := hended

/-- A step that takes nobody off and tells nothing. -/
theorem Accounted.stay (haccount : s.Accounted removals lines)
    (hjoined : t.peer.hasJoined = s.peer.hasJoined) (hserved : t.peer.isServed = s.peer.isServed)
    (hleft : t.peer.hasLeft = s.peer.hasLeft) (hregistered : t.registered = s.registered)
    (hended : t.peer.isServed = true → t.peer.writer.ending?.isSome = true) :
    t.Accounted removals lines := by
  have hmoved : t.Accounted (removals ++ []) (lines ++ []) := by
    refine haccount.move hjoined hserved ?_ hended ?_ rfl rfl rfl
    · rw [hleft, hregistered]
      exact haccount.left
    · rw [hregistered]
      exact Nat.zero_add _
  simpa using hmoved

/-- Nobody took the session off and nothing was told. -/
theorem Accounted.nothing (haccount : t.Accounted removals lines) :
    t.Accounted (removals ++ (none : Option Remover).toList) (lines ++ []) := by
  simpa using haccount

/-- A move of a read pump between joining and its teardown. -/
theorem Accounted.turn (haccount : s.Accounted removals lines)
    (hbefore : s.peer.reader.isUnderway = true) (hafter : t.peer.reader.isUnderway = true)
    (hregistered : t.registered = s.registered) : t.Accounted removals lines := by
  obtain ⟨hjoined, hleft, hserved⟩ := Peer.underway hbefore
  obtain ⟨hjoined', hleft', hserved'⟩ := Peer.underway hafter
  apply haccount.stay
  · rw [hjoined, hjoined']
  · rw [hserved, hserved']
  · rw [hleft, hleft']
  · exact hregistered
  · rw [hserved']
    intro hfalse
    cases hfalse

/-- A move of a write pump that has not ended. -/
theorem Accounted.write (haccount : s.Accounted removals lines)
    (hruns : s.peer.writer.ending? = none) (hreader : t.peer.reader = s.peer.reader)
    (hregistered : t.registered = s.registered) : t.Accounted removals lines := by
  have hserved : t.peer.isServed = s.peer.isServed := by
    rw [Peer.isServed, Peer.isServed, hreader]
  apply haccount.stay
  · rw [Peer.hasJoined, Peer.hasJoined, hreader]
  · exact hserved
  · rw [Peer.hasLeft, Peer.hasLeft, hreader]
  · exact hregistered
  · intro hdone
    have hended := haccount.ended (hserved ▸ hdone)
    rw [hruns] at hended
    cases hended

/-- Who takes a registered session off is one more, and nobody can take off another. -/
theorem length_removal (s : Session) (remover : Remover) :
    (s.removal remover).toList.length = s.registered.toNat := by
  unfold removal
  cases s.registered <;> rfl

/-- The session is struck off by nobody of its own. -/
theorem Accounted.strike (haccount : s.Accounted removals lines) {remover : Remover}
    (hother : remover.isPump = false) :
    s.struck.Accounted (removals ++ (s.removal remover).toList) (lines ++ []) := by
  refine haccount.move rfl rfl (fun _ => rfl) haccount.ended ?_ rfl rfl ?_
  · exact s.length_removal remover
  · unfold removal
    cases s.registered with
    | true => simp [hother]
    | false => rfl

/-- A pump tears the session down. -/
theorem Accounted.tear (haccount : s.Accounted removals lines) {remover : Remover}
    (hpump : remover.isPump = true) (exit : Exit)
    (hjoined : t.peer.hasJoined = s.peer.hasJoined) (hserved : t.peer.isServed = s.peer.isServed)
    (hended : t.peer.isServed = true → t.peer.writer.ending?.isSome = true)
    (hout : t.registered = false) :
    t.Accounted (removals ++ (s.removal remover).toList) (lines ++ s.tearingLines exit) := by
  refine haccount.move hjoined hserved (fun _ => hout) hended ?_ ?_ ?_ ?_
  · rw [hout]
    exact s.length_removal remover
  · unfold tearingLines
    cases s.registered <;> rfl
  · unfold tearingLines
    cases s.registered <;> rfl
  · unfold tearingLines removal
    cases s.registered with
    | true => simp [hpump, tells, LogEvent.message]
    | false => rfl

theorem Accounted.pushed {removal : Option Remover} (haccount : s.Accounted removals lines)
    (hpushed : s.Pushed removal t) :
    t.Accounted (removals ++ removal.toList) (lines ++ []) := by
  cases hpushed with
  | spared => exact haccount.nothing
  | offered envelope =>
      apply Accounted.nothing
      exact haccount.stay rfl rfl rfl rfl haccount.ended
  | evicted => exact haccount.strike rfl

theorem Pushed.peer_eq {removal : Option Remover} (hpushed : s.Pushed removal t) :
    t.peer = s.peer := by
  cases hpushed <;> rfl

/-- The read pump of a session that joins has taken nobody off, nor has anybody else. -/
theorem Accounted.join (haccount : s.Accounted removals lines) (hreader : s.peer.reader = .joining)
    {next : ReadPump} (hunderway : next.isUnderway = true) :
    (s.joined.setReader next).Accounted (removals ++ (none : Option Remover).toList)
      (lines ++ [.opened s.connection.identity]) := by
  have hjoined : s.peer.hasJoined = false := by
    rw [Peer.hasJoined, hreader]
  have hserved : s.peer.isServed = false := by
    rw [Peer.isServed, hreader]
  have hunderway' : (s.joined.setReader next).peer.reader.isUnderway = true := hunderway
  obtain ⟨hjoined', hleft', hserved'⟩ := Peer.underway hunderway'
  obtain ⟨hremoved, hopened, htorn, hclosed, -, -⟩ := haccount
  rw [hjoined] at hremoved hopened
  rw [hserved] at hclosed
  constructor
  · have hnobody : removals.length = 0 := Nat.eq_zero_of_add_eq_zero_right hremoved
    rw [hjoined']
    simp [hnobody, joined, setReader]
  · rw [tells_append, hopened, hjoined']
    rfl
  · rw [tells_append, htorn, List.countP_append]
    rfl
  · rw [tells_append, hclosed, hserved']
    rfl
  · rw [hleft']
    intro hfalse
    cases hfalse
  · rw [hserved']
    intro hfalse
    cases hfalse

theorem Accounted.finish (haccount : s.Accounted removals lines) {exit : Exit} {write : String}
    (hreader : s.peer.reader = .draining exit) (hended : s.peer.writer.ending? = some write) :
    ((s.mapConnection Connection.markClosed).setReader (.done exit)).Accounted
      (removals ++ (none : Option Remover).toList)
      (lines ++ [.closed s.connection.user exit write]) := by
  have hjoined : s.peer.hasJoined = true := by
    rw [Peer.hasJoined, hreader]
  have hserved : s.peer.isServed = false := by
    rw [Peer.isServed, hreader]
  have hleft : s.peer.hasLeft = true := by
    rw [Peer.hasLeft, hreader]
  obtain ⟨hremoved, hopened, htorn, hclosed, hout, -⟩ := haccount
  rw [hjoined] at hremoved hopened
  rw [hserved] at hclosed
  constructor
  · rw [List.length_append]
    exact hremoved
  · rw [tells_append, hopened]
    rfl
  · rw [tells_append, htorn, List.countP_append]
    rfl
  · rw [tells_append, hclosed]
    rfl
  · intro _
    exact hout hleft
  · intro _
    exact Option.isSome_iff_exists.mpr ⟨write, hended⟩

theorem Accounted.reads {settings : Settings} {now : Instant} {cancelFirst : Bool}
    {removal : Option Remover} (haccount : s.Accounted removals lines)
    (hreads : s.Reads settings now cancelFirst removal told t) :
    t.Accounted (removals ++ removal.toList) (lines ++ told) := by
  cases hreads with
  | join hreader => exact haccount.join hreader (ReadPump.awaits_awaiting settings now).underway
  | take hreader hinbox hfree hleads =>
      apply Accounted.nothing
      apply haccount.turn
      · rw [hreader]
        rfl
      · exact hleads.underway
      · rfl
  | expire hreader _ _ _ | cancel hreader _ | conclude hreader =>
      apply Accounted.nothing
      apply haccount.turn
      · rw [hreader]
        rfl
      · rfl
      · rfl
  | handle hreader hpushed next =>
      apply (haccount.pushed hpushed).turn
      · rw [hpushed.peer_eq, hreader]
        rfl
      · rfl
      · rfl
  | leave hreader =>
      apply haccount.tear rfl
      · simp [Peer.hasJoined, setReader, hreader]
      · simp [Peer.isServed, setReader, hreader]
      · intro hdone
        cases hdone
      · rfl
  | finish hreader hended => exact haccount.finish hreader hended

theorem Accounted.writes {settings : Settings} {now : Instant} {removal : Option Remover}
    (haccount : s.Accounted removals lines) (hwrites : s.Writes settings now removal told t) :
    t.Accounted (removals ++ removal.toList) (lines ++ told) := by
  cases hwrites with
  | start hwriter _ _ | crash hwriter _ _ | stop hwriter _ | fetch hwriter _ _
  | disconnect hwriter _ _ | ping hwriter _ _ _ | send hwriter _ | fail hwriter _
  | farewell hwriter _ | giveUp hwriter _ =>
      apply Accounted.nothing
      apply haccount.write
      · rw [hwriter]
        rfl
      · rfl
      · rfl
  | teardown hwriter =>
      apply haccount.tear rfl
      · rfl
      · rfl
      · intro _
        rfl
      · rfl

theorem Accounted.touched {now : Instant} {removal : Option Remover}
    (haccount : s.Accounted removals lines) (htouched : s.Touched now removal t) :
    t.Accounted (removals ++ removal.toList) (lines ++ []) := by
  cases htouched with
  | pushed hpushed => exact haccount.pushed hpushed
  | struck remover hother => exact haccount.strike hother
  | arrive _ _ _ | answer _ | resink _ =>
      apply Accounted.nothing
      exact haccount.stay rfl rfl rfl rfl haccount.ended
  | lapse hreader hlate =>
      apply Accounted.nothing
      apply haccount.turn
      · rw [hreader]
        rfl
      · rfl
      · rfl

/-- Every step keeps the account. -/
theorem Accounted.step {settings : Settings} {now : Instant} {h : Handle} {happening : Happening}
    {removal : Option Remover} (haccount : s.Accounted removals lines)
    (hstep : s.Step settings now h happening removal told t) :
    t.Accounted (removals ++ removal.toList) (lines ++ told) := by
  cases hstep with
  | rest happening => exact haccount.nothing
  | read hreads => exact haccount.reads hreads
  | write hwrites => exact haccount.writes hwrites
  | touch _ htouched => exact haccount.touched htouched

end Session

namespace Hub

variable {hub : Hub} {h : Handle} {removers : List Remover}

/-- Who takes a connection off in a run, in order. -/
def removals (h : Handle) : Hub → List Happening → List Remover
  | _, [] => []
  | hub, happening :: happenings =>
      (hub.removal? h happening).toList ++ removals h (hub.after happening) happenings

/-- How many lines of the log are about a connection and have a message. -/
def logged (hub : Hub) (h : Handle) (message : String) : Nat :=
  hub.journal.countP fun entry => entry.1 == some h && entry.2.message == message

/-- The account of a connection fits, or there is no such connection yet and nothing to account
for. -/
def Accounts (hub : Hub) (h : Handle) (removers : List Remover) : Prop :=
  (hub.session? h = none ∧ removers = [] ∧ hub.milestones h = []) ∨
    ∃ s, hub.session? h = some s ∧ s.Accounted removers (hub.milestones h)

theorem accounts_after (hlength : hub.peers.length = hub.service.board.connections.length)
    (haccounts : hub.Accounts h removers) (happening : Happening) :
    (hub.after happening).Accounts h (removers ++ (hub.removal? h happening).toList) := by
  rcases haccounts with ⟨hnone, rfl, hnothing⟩ | ⟨s, hs, haccount⟩
  · obtain ⟨hmilestones, -, hsession⟩ := appears_after hlength hnone happening
    rw [hnothing] at hmilestones
    rw [removal?_of_session?_none hlength hnone]
    rcases hsession with hstill | ⟨identity, transport, hfresh⟩
    · exact .inl ⟨hstill, rfl, hmilestones⟩
    · refine .inr ⟨_, hfresh, ?_⟩
      rw [hmilestones]
      exact Session.accounted_fresh identity transport _
  · obtain ⟨removal, lines, t, hshows, hstep⟩ := shows_after hs happening
    refine .inr ⟨t, hshows.session, ?_⟩
    rw [hshows.removal, hshows.milestones]
    exact haccount.step hstep

/-- Every run keeps the account. -/
theorem accounts_run (hlawful : hub.outline.Lawful) (haccounts : hub.Accounts h removers)
    (happenings : List Happening) :
    (hub.run happenings).Accounts h (removers ++ hub.removals h happenings) := by
  induction happenings generalizing hub removers with
  | nil =>
      rw [Hub.removals, List.append_nil]
      exact haccounts
  | cons happening happenings ih =>
      rw [Hub.removals, ← List.append_assoc]
      exact ih (Outline.lawful_step hlawful (hub.step_after happening))
        (accounts_after (length_of_lawful hlawful) haccounts happening)

/-- A session that is there has its account. -/
theorem Accounts.accounted (haccounts : hub.Accounts h removers) {s : Session}
    (hs : hub.session? h = some s) : s.Accounted removers (hub.milestones h) := by
  rcases haccounts with ⟨hnone, -, -⟩ | ⟨t, ht, haccount⟩
  · rw [hnone] at hs
    cases hs
  · obtain rfl := Option.some.inj (ht.symm.trans hs)
    exact haccount

theorem accounts_start (settings : Settings) (handlerTimeout : Duration) (store : Store)
    (faults : Faults) (start : Timestamp) (router : Router Handler) (h : Handle) :
    ((Hub.new settings handlerTimeout store faults start).withRouter router).Accounts h [] :=
  .inl ⟨rfl, rfl, rfl⟩

/-- The milestones of a connection have all lines of their messages. -/
theorem logged_eq_tells {message : String}
    (hmilestone : ∀ line : LogEvent, line.message = message → line.isMilestone = true)
    (hub : Hub) (h : Handle) : hub.logged h message = tells message (hub.milestones h) := by
  rw [logged, tells, milestones, milestonesOf, List.countP_map, List.countP_filter]
  apply List.countP_congr
  intro entry _
  simp only [Function.comp_apply, Bool.and_eq_true, beq_iff_eq]
  constructor
  · rintro ⟨hhandle, hmessage⟩
    exact ⟨hmessage, hhandle, hmilestone entry.2 hmessage⟩
  · rintro ⟨hmessage, hhandle, -⟩
    exact ⟨hhandle, hmessage⟩

theorem isMilestone_of_message {line : LogEvent}
    (hmessage : line.message = "connection opened" ∨ line.message = "tearing down connection" ∨
      line.message = "connection closed") : line.isMilestone = true := by
  cases line <;> simp_all [LogEvent.message, LogEvent.isMilestone]

theorem caller?_of_removal? {happening : Happening} {remover : Remover}
    (hremoval : hub.removal? h happening = some remover) :
    hub.caller? h happening = some remover := by
  rw [removal?] at hremoval
  split at hremoval
  · exact hremoval
  · cases hremoval

/-- Only a removal from outside is nobody's of the hub. -/
theorem eq_remove_of_caller? {happening : Happening}
    (hcaller : hub.caller? h happening = some .outside) : happening = .remove h := by
  unfold caller? at hcaller
  split at hcaller
  · split at hcaller
    · split at hcaller <;> cases hcaller
    · split at hcaller <;> cases hcaller
    · cases hcaller
  · split at hcaller
    · split at hcaller <;> cases hcaller
    · cases hcaller
  · cases hcaller
  · split at hcaller
    · next hh => rw [hh]
    · cases hcaller
  · cases hcaller

theorem remove_mem_of_outside {happenings : List Happening}
    (hin : Remover.outside ∈ hub.removals h happenings) : .remove h ∈ happenings := by
  induction happenings generalizing hub with
  | nil => cases hin
  | cons happening happenings ih =>
      rw [removals, List.mem_append] at hin
      rcases hin with hnow | hlater
      · have hcaller := caller?_of_removal? (Option.mem_toList.mp hnow)
        rw [eq_remove_of_caller? hcaller]
        exact List.mem_cons_self
      · exact List.mem_cons_of_mem _ (ih hlater)

/-- The log tells that a connection is closed only when its read pump has left and its write pump
has ended. -/
theorem draining_of_tells_closed {s t : Session} {settings : Settings} {now : Instant}
    {happening : Happening} {removal : Option Remover} {lines : List LogEvent}
    (hstep : s.Step settings now h happening removal lines t)
    (htells : 0 < tells "connection closed" lines) :
    ∃ exit, s.peer.reader = .draining exit ∧ s.peer.writer.ending?.isSome = true := by
  have hquiet : ∀ exit, tells "connection closed" (s.tearingLines exit) = 0 := by
    intro exit
    unfold Session.tearingLines
    cases s.registered <;> rfl
  cases hstep with
  | rest _ | touch _ _ => cases htells
  | write hwrites =>
      cases hwrites with
      | teardown _ =>
          rw [hquiet] at htells
          cases htells
      | _ => cases htells
  | read hreads =>
      cases hreads with
      | finish hreader hended => exact ⟨_, hreader, Option.isSome_iff_exists.mpr ⟨_, hended⟩⟩
      | leave _ =>
          rw [hquiet] at htells
          cases htells
      | _ => cases htells

/-- What the account of a connection comes to. -/
theorem Accounts.fits (hlength : hub.peers.length = hub.service.board.connections.length)
    (haccounts : hub.Accounts h removers) :
    removers.length ≤ 1 ∧
    (h ∈ hub.service.board.members ↔
      hub.peers[h]?.any Peer.hasJoined = true ∧ removers = []) ∧
    (hub.peers[h]?.any Peer.isServed = true → removers.length = 1) ∧
    tells "tearing down connection" (hub.milestones h) = removers.countP Remover.isPump ∧
    tells "connection opened" (hub.milestones h) = (hub.peers[h]?.any Peer.hasJoined).toNat ∧
    tells "connection closed" (hub.milestones h) = (hub.peers[h]?.any Peer.isServed).toNat := by
  rw [← Switchboard.contains_iff]
  rcases haccounts with ⟨hnone, rfl, hnothing⟩ | ⟨s, hs, haccount⟩
  · have hpeer : hub.peers[h]? = none := by
      rw [Option.eq_none_iff_forall_ne_some]
      intro peer hpeer
      obtain ⟨s, hs, -⟩ := session?_of_peer hlength hpeer
      rw [hnone] at hs
      cases hs
    rw [hpeer, hnothing, contains_of_session?_none hlength hnone]
    simp
  · obtain ⟨hpeer, -, hregistered⟩ := session?_eq_some_iff.mp hs
    obtain ⟨hremoved, hopened, htorn, hclosed, hout, -⟩ := haccount
    rw [hpeer, hregistered]
    simp only [Option.any_some]
    have hjoined := Bool.toNat_le s.peer.hasJoined
    refine ⟨?_, ?_, ?_, htorn, hopened, hclosed⟩
    · omega
    · rw [← Bool.toNat_eq_one, ← Bool.toNat_eq_one, ← List.length_eq_zero_iff]
      omega
    · intro hserved
      obtain ⟨hjoined, hleft⟩ := Peer.left_of_isServed hserved
      rw [hout hleft, hjoined] at hremoved
      exact hremoved

/-- In every run at most one party takes a connection off the registry, and exactly one has done so
when its peer is served. The log tells that it was torn down when that was one of its own pumps,
that it was opened when it was registered, and that it was closed when it was served, each once; the
last not before both pumps have left. -/
theorem removed_once (settings : Settings) (handlerTimeout : Duration) (store : Store)
    (faults : Faults) (start : Timestamp) (router : Router Handler) (happenings : List Happening)
    (h : Handle) :
    let first := (Hub.new settings handlerTimeout store faults start).withRouter router
    let hub := first.run happenings
    let joined := hub.peers[h]?.any Peer.hasJoined
    let served := hub.peers[h]?.any Peer.isServed
    (first.removals h happenings).length ≤ 1 ∧
    (h ∈ hub.service.board.members ↔ joined = true ∧ first.removals h happenings = []) ∧
    (served = true → (first.removals h happenings).length = 1) ∧
    (.outside ∈ first.removals h happenings → .remove h ∈ happenings) ∧
    hub.logged h "tearing down connection" =
      (first.removals h happenings).countP Remover.isPump ∧
    hub.logged h "connection opened" = joined.toNat ∧
    hub.logged h "connection closed" = served.toNat ∧
    ∀ happening, hub.logged h "connection closed" <
        (hub.after happening).logged h "connection closed" →
      ∃ peer exit, hub.peers[h]? = some peer ∧ peer.reader = .draining exit ∧
        peer.writer.ending?.isSome = true := by
  intro first hub joined served
  have hlawful := lawful_new settings handlerTimeout store faults start router
  have haccounts : hub.Accounts h (first.removals h happenings) :=
    accounts_run hlawful (accounts_start settings handlerTimeout store faults start router h)
      happenings
  have hlogged : ∀ message, message = "connection opened" ∨
      message = "tearing down connection" ∨ message = "connection closed" →
      ∀ hub : Hub, hub.logged h message = tells message (hub.milestones h) := by
    intro message hmessage hub
    apply logged_eq_tells
    rintro line rfl
    exact isMilestone_of_message hmessage
  have hlength : hub.peers.length = hub.service.board.connections.length :=
    length_of_lawful (lawful_run hlawful happenings)
  obtain ⟨hone, hmember, hserved, htorn, hopened, hclosed⟩ := haccounts.fits hlength
  refine ⟨hone, hmember, hserved, remove_mem_of_outside, ?_, ?_, ?_, ?_⟩
  · rw [hlogged _ (.inr (.inl rfl)), htorn]
  · rw [hlogged _ (.inl rfl), hopened]
  · rw [hlogged _ (.inr (.inr rfl)), hclosed]
  · intro happening hmore
    rw [hlogged _ (.inr (.inr rfl)), hlogged _ (.inr (.inr rfl))] at hmore
    cases hs : hub.session? h with
    | none =>
        rw [(appears_after hlength hs happening).milestones] at hmore
        exact absurd hmore (Nat.lt_irrefl _)
    | some s =>
        obtain ⟨hpeer, -, -⟩ := session?_eq_some_iff.mp hs
        obtain ⟨removal, lines, t, hshows, hstep⟩ := shows_after hs happening
        rw [hshows.milestones, tells_append] at hmore
        obtain ⟨exit, hreader, hended⟩ := draining_of_tells_closed hstep (by omega)
        exact ⟨s.peer, exit, hpeer, hreader, hended⟩

/-- All connections are closed under a peer, whose write pump ends and whose read pump is about to
say so; another time the peer is removed from outside. -/
theorem drained_connection_removed_once :
    let first := (Hub.new .standard ⟨10, 0, by decide, by decide⟩ .empty .none ⟨0, 0⟩).withRouter
      .empty
    let happenings := [.accept ⟨⟨1⟩, .user⟩ .direct, .read 0 true, .write 0, .closeAll, .write 0,
      .write 0, .write 0, .read 0 true, .read 0 true]
    (first.removals 0 (happenings ++ [.read 0 true])).length = 1 ∧
    Happening.remove 0 ∈ happenings.take 2 ++ [.remove 0] ∧
    ∃ peer exit, (first.run happenings).peers[0]? = some peer ∧ peer.reader = .draining exit ∧
      peer.writer.ending?.isSome = true := by
  intro first happenings
  obtain ⟨-, -, hserved, -⟩ := removed_once .standard ⟨10, 0, by decide, by decide⟩ .empty .none
    ⟨0, 0⟩ .empty (happenings ++ [.read 0 true]) 0
  obtain ⟨-, -, -, houtside, -⟩ := removed_once .standard ⟨10, 0, by decide, by decide⟩ .empty
    .none ⟨0, 0⟩ .empty (happenings.take 2 ++ [.remove 0]) 0
  obtain ⟨-, -, -, -, -, -, -, hdraining⟩ := removed_once .standard
    ⟨10, 0, by decide, by decide⟩ .empty .none ⟨0, 0⟩ .empty happenings 0
  exact ⟨hserved rfl, houtside (by decide), hdraining (.read 0 true) (by decide)⟩

end Hub

end ListingHub
