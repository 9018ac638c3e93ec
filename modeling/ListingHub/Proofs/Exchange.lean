import ListingHub.Proofs.Hub.Lifecycle

/-!
# Operations under way at the same time

Registering a connection, removing one, broadcasting and closing all connections can be under way on
one switchboard at the same time. An operation goes on by turns: a turn is what is done under one
hold of the lock that guards the registry, or one call on one connection outside of it, and the
turns of different operations come in any order.

A broadcast offers its envelope to targets that it chose earlier, so an offer may come after its
target was taken off. Main statement: it is refused then, whatever took the target off, except
between the two halves of closing all connections, which takes them off first and closes them
afterwards.
-/

namespace ListingHub

/-- What a switchboard is told to do. -/
inductive Command where
  | add (h : Handle)
  | remove (h : Handle)
  | broadcast (message : Message)
  | closeAll

/-- What came of a command. -/
inductive Answer where
  | added (new : Bool)
  | removed (found : Bool)
  | delivered (count : Nat)
  | closed (count : Nat)
  deriving DecidableEq, Repr

/-- How far the execution of a command is. -/
inductive Operation where
  | adding (h : Handle)
  | removing (h : Handle)
  | broadcasting (message : Message) (progress : Broadcast)
  /-- All connections are still to be taken off. -/
  | draining
  /-- So many connections were taken off, of which these are still to be closed. -/
  | closing (todo : List Handle) (count : Nat)
  | finished (answer : Answer)

/-- Carries out a command with nothing in between. -/
def Switchboard.obey (board : Switchboard) : Command → Answer × Switchboard
  | .add h => (.added (board.add h).1, (board.add h).2)
  | .remove h => (.removed (board.remove h).1, (board.remove h).2)
  | .broadcast message => (.delivered (board.broadcast message).1, (board.broadcast message).2.1)
  | .closeAll => (.closed board.closeAll.1, board.closeAll.2)

/-- Nothing was done about a command yet. -/
def Command.operation : Command → Operation
  | add h => .adding h
  | remove h => .removing h
  | broadcast message => .broadcasting message .choosing
  | closeAll => .draining

namespace Operation

/-- The next turn of an operation. -/
def step (board : Switchboard) : Operation → Operation × Switchboard
  | adding h => (finished (.added (board.add h).1), (board.add h).2)
  | removing h => (finished (.removed (board.remove h).1), (board.remove h).2)
  | broadcasting _ (.finished delivered) => (finished (.delivered delivered), board)
  | broadcasting message progress =>
      (broadcasting message (progress.step message board).1, (progress.step message board).2.1)
  | draining => (closing board.drain.1 board.drain.1.length, board.drain.2)
  | closing [] count => (finished (.closed count), board)
  | closing (h :: todo) count => (closing todo count, board.beginClose h)
  | finished answer => (finished answer, board)

/-- The connections that an operation has taken off and has yet to close. -/
def toClose : Operation → List Handle
  | closing todo _ => todo
  | _ => []

/-- Turns of an operation with nothing in between. -/
inductive Runs : Operation → Switchboard → Operation → Switchboard → Prop
  | refl (operation : Operation) (board : Switchboard) : Runs operation board operation board
  | step {operation last : Operation} {board after : Switchboard}
      (hrest : Runs (operation.step board).1 (operation.step board).2 last after) :
      Runs operation board last after

variable {operation between last : Operation} {board board' after : Switchboard}

theorem Runs.trans (hfirst : Runs operation board between board')
    (hlast : Runs between board' last after) : Runs operation board last after := by
  induction hfirst with
  | refl => exact hlast
  | step hrest ih => exact .step (ih hlast)

theorem runs_closing (todo : List Handle) (count : Nat) (board : Switchboard) :
    Runs (closing todo count) board (closing [] count)
      (todo.foldl Switchboard.beginClose board) := by
  induction todo generalizing board with
  | nil => exact .refl _ _
  | cons h todo ih => exact .step (ih (board.beginClose h))

theorem runs_delivering (message : Message) (todo : List Handle) (tally : Tally)
    (board : Switchboard) :
    Runs (broadcasting message (.delivering todo tally)) board
      (broadcasting message (.delivering []
        (Switchboard.offerAll message.envelope tally board todo).1))
      (Switchboard.offerAll message.envelope tally board todo).2.1 := by
  induction todo generalizing tally board with
  | nil => exact .refl _ _
  | cons h todo ih => exact .step (ih _ _)

theorem runs_evicting (message : Message) (todo : List Handle) (delivered : Nat)
    (board : Switchboard) :
    Runs (broadcasting message (.evicting todo delivered)) board
      (broadcasting message (.evicting [] delivered)) (board.evict todo) := by
  induction todo generalizing board with
  | nil => exact .refl _ _
  | cons h todo ih => exact .step (ih (board.remove h).2)

/-- The turns of a command that nothing comes between are its execution. -/
theorem runs_obey (command : Command) (board : Switchboard) :
    Runs command.operation board (finished (board.obey command).1) (board.obey command).2 := by
  cases command with
  | add h | remove h => exact .step (.refl _ _)
  | broadcast message =>
      apply Runs.step
      apply (runs_delivering message (board.snapshot message.wanted) .zero board).trans
      apply Runs.step
      apply (runs_evicting message _ _ _).trans
      exact .step (.step (.refl _ _))
  | closeAll =>
      apply Runs.step
      apply (runs_closing board.members board.members.length board.drain.2).trans
      exact .step (.refl _ _)

/-- All that a turn does to the switchboard is an act. -/
theorem acted_step (operation : Operation) (board : Switchboard) :
    board.Acted (operation.step board).2 := by
  unfold step
  split
  · next h => exact Switchboard.Acted.refl.act (.add h)
  · next h => exact Switchboard.Acted.refl.act (.remove h)
  · exact .refl
  · next message progress _ => exact board.acted_broadcast_step message progress
  · exact Switchboard.Acted.refl.act .drain
  · exact .refl
  · next h todo count => exact Switchboard.Acted.refl.act (.change h .beginClose)
  · exact .refl

end Operation

/-- A switchboard and the operations on it. -/
structure Exchange where
  board : Switchboard
  operations : List Operation

/-- What happens next at an exchange. -/
inductive Turn where
  | connect (identity : Identity) (capacity : Nat)
  /-- An operation begins. -/
  | begin (command : Command)
  /-- An operation goes on. -/
  | proceed (i : Nat)
  /-- A call on a connection by its pumps. Only registration opens a connection. -/
  | call (h : Handle) (change : Connection.Change) (hopens : change ≠ .markOpen)

namespace Exchange

/-- No connection was ever made and nothing is under way. -/
def empty (policy : OverflowPolicy) : Exchange :=
  ⟨.empty policy, []⟩

/-- The exchange after a turn. -/
def turn (exchange : Exchange) : Turn → Exchange
  | .connect identity capacity =>
      { exchange with board := (exchange.board.connect identity capacity).2 }
  | .begin command =>
      { exchange with operations := exchange.operations ++ [command.operation] }
  | .proceed i =>
      match exchange.operations[i]? with
      | none => exchange
      | some operation =>
          { board := (operation.step exchange.board).2
            operations := exchange.operations.set i (operation.step exchange.board).1 }
  | .call h change _ => { exchange with board := exchange.board.modify h change.apply }

/-- The exchange after several turns. -/
def run (exchange : Exchange) (turns : List Turn) : Exchange :=
  turns.foldl turn exchange

theorem run_append (exchange : Exchange) (turns more : List Turn) :
    exchange.run (turns ++ more) = (exchange.run turns).run more :=
  List.foldl_append

/-- Closing all connections has taken a connection off and has yet to close it. -/
def Drains (exchange : Exchange) (h : Handle) : Prop :=
  ∃ operation ∈ exchange.operations, h ∈ operation.toClose

instance (exchange : Exchange) (h : Handle) : Decidable (exchange.Drains h) :=
  inferInstanceAs (Decidable (∃ operation ∈ exchange.operations, h ∈ operation.toClose))

variable {exchange : Exchange} {h g : Handle} {i : Nat} {operation next : Operation}

/-- All that turns do to the switchboard are acts. -/
theorem acted_run (exchange : Exchange) (turns : List Turn) :
    exchange.board.Acted (exchange.run turns).board := by
  induction turns generalizing exchange with
  | nil => exact .refl
  | cons next turns ih =>
      have hturn : exchange.board.Acted (exchange.turn next).board := by
        cases next with
        | connect identity capacity =>
            exact Switchboard.Acted.refl.act (.connect identity capacity)
        | begin command => exact .refl
        | proceed i =>
            simp only [turn]
            split
            · exact .refl
            · next operation _ => exact operation.acted_step exchange.board
        | call h change hopens => exact Switchboard.Acted.refl.act (.change h change)
      exact hturn.trans (ih (exchange.turn next))

/-- A turn of one operation leaves what the others have yet to close. -/
theorem Drains.set (hdrains : exchange.Drains h) (hop : exchange.operations[i]? = some operation)
    (hkeeps : h ∈ operation.toClose → h ∈ next.toClose) (board : Switchboard) :
    Drains ⟨board, exchange.operations.set i next⟩ h := by
  obtain ⟨other, hother, hin⟩ := hdrains
  obtain ⟨j, hj⟩ := List.mem_iff_getElem?.mp hother
  by_cases hij : i = j
  · subst hij
    obtain rfl := Option.some.inj (hop.symm.trans hj)
    have hlt : i < exchange.operations.length := (List.getElem?_eq_some_iff.mp hop).1
    exact ⟨next, List.mem_of_getElem? (List.getElem?_set_self hlt), hkeeps hin⟩
  · refine ⟨other, List.mem_of_getElem? (i := j) ?_, hin⟩
    rw [List.getElem?_set_ne hij]
    exact hj

/-- So does a turn of an operation that has nothing to close. -/
theorem Drains.set_of_nil (hdrains : exchange.Drains h)
    (hop : exchange.operations[i]? = some operation) (hnone : operation.toClose = [])
    (board : Switchboard) (next : Operation) :
    Drains ⟨board, exchange.operations.set i next⟩ h := by
  apply hdrains.set hop
  intro hin
  rw [hnone] at hin
  cases hin

/-- A registered connection is not connecting any more, and an open one is registered or about to be
closed. -/
structure Covers (exchange : Exchange) : Prop where
  joined : ∀ h c, exchange.board.get? h = some c → h ∈ exchange.board.members →
    c.lifecycle ≠ .connecting
  reached : ∀ h c, exchange.board.get? h = some c → c.lifecycle = .opened →
    h ∈ exchange.board.members ∨ exchange.Drains h

theorem covers_empty (policy : OverflowPolicy) : (empty policy).Covers := by
  constructor <;> intro h c hget <;> cases hget

/-- A change of the switchboard that spares the connections, with nothing closed. -/
theorem Covers.of_spares (hcovers : exchange.Covers) {board : Switchboard}
    {operations : List Operation} (hspares : ∀ h, exchange.board.Spares board h)
    (hdrains : ∀ h, exchange.Drains h → Drains ⟨board, operations⟩ h) :
    Covers ⟨board, operations⟩ where
  joined := by
    intro h d hd hin
    obtain ⟨c, hc, ⟨hmem, hlife⟩ | ⟨-, hout, -⟩⟩ := hspares h d hd
    · rw [hlife]
      exact hcovers.joined h c hc (hmem.mp hin)
    · exact absurd hin hout
  reached := by
    intro h d hd hopen
    obtain ⟨c, hc, ⟨hmem, hlife⟩ | ⟨-, -, hlife⟩⟩ := hspares h d hd
    · rw [hlife] at hopen
      exact (hcovers.reached h c hc hopen).imp hmem.mpr (hdrains h)
    · rw [hlife, Connection.lifecycle_beginClose] at hopen
      split at hopen <;> cases hopen

theorem Covers.connect (hcovers : exchange.Covers) (identity : Identity) (capacity : Nat) :
    Covers { exchange with board := (exchange.board.connect identity capacity).2 } where
  joined := by
    intro h d hd hin
    rw [Switchboard.get?_connect, if_neg (Nat.ne_of_lt (exchange.board.members_lt h hin))] at hd
    exact hcovers.joined h d hd hin
  reached := by
    intro h d hd hopen
    rw [Switchboard.get?_connect] at hd
    split at hd
    · obtain rfl := Option.some.inj hd
      cases hopen
    · exact hcovers.reached h d hd hopen

theorem Covers.add (hcovers : exchange.Covers) (h : Handle) {operations : List Operation}
    (hdrains : ∀ g, exchange.Drains g → Drains ⟨(exchange.board.add h).2, operations⟩ g) :
    Covers ⟨(exchange.board.add h).2, operations⟩ where
  joined := by
    intro g d hd hin
    rw [Switchboard.get?_add] at hd
    obtain ⟨c, hc, rfl⟩ := Option.map_eq_some_iff.mp hd
    split
    · next hnew =>
        simp only [Connection.markOpen]
        split
        · simp
        · next hlife => exact hlife
    · next hold =>
        rcases (Switchboard.mem_add _ _ _).mp hin with hmem | ⟨rfl, -⟩
        · exact hcovers.joined g c hc hmem
        · have hmem : g ∈ exchange.board.members :=
            Decidable.byContradiction fun hout => hold ⟨rfl, hout⟩
          exact hcovers.joined g c hc hmem
  reached := by
    intro g d hd hopen
    rw [Switchboard.get?_add] at hd
    obtain ⟨c, hc, rfl⟩ := Option.map_eq_some_iff.mp hd
    by_cases hnew : g = h ∧ h ∉ exchange.board.members
    · obtain ⟨rfl, -⟩ := hnew
      exact .inl ((Switchboard.mem_add _ _ _).mpr (.inr ⟨rfl, Switchboard.lt_of_get? hc⟩))
    · rw [if_neg hnew] at hopen
      refine (hcovers.reached g c hc hopen).imp (fun hmem => ?_) (hdrains g)
      exact (Switchboard.mem_add _ _ _).mpr (.inl hmem)

/-- Taken off by draining, the connections are all about to be closed. -/
theorem Covers.drain (hcovers : exchange.Covers) {i : Nat}
    (hop : exchange.operations[i]? = some .draining) :
    Covers ⟨exchange.board.drain.2, exchange.operations.set i
      (.closing exchange.board.drain.1 exchange.board.drain.1.length)⟩ where
  joined := by
    intro h d _ hin
    cases hin
  reached := by
    intro h d hd hopen
    rcases hcovers.reached h d hd hopen with hmem | hdrains
    · have hlt : i < exchange.operations.length := (List.getElem?_eq_some_iff.mp hop).1
      exact .inr ⟨_, List.mem_of_getElem? (List.getElem?_set_self hlt), hmem⟩
    · exact .inr (hdrains.set_of_nil hop rfl _ _)

/-- Closed, a connection is not open. -/
theorem Covers.close (hcovers : exchange.Covers) {todo : List Handle} {count : Nat}
    (hop : exchange.operations[i]? = some (.closing (h :: todo) count)) :
    Covers ⟨exchange.board.beginClose h, exchange.operations.set i (.closing todo count)⟩ where
  joined := by
    intro g d hd hin
    rw [Switchboard.beginClose, Switchboard.get?_modify] at hd
    obtain ⟨c, hc, rfl⟩ := Option.map_eq_some_iff.mp hd
    split
    · rw [Connection.lifecycle_beginClose]
      split <;> simp
    · exact hcovers.joined g c hc hin
  reached := by
    intro g d hd hopen
    rw [Switchboard.beginClose, Switchboard.get?_modify] at hd
    obtain ⟨c, hc, rfl⟩ := Option.map_eq_some_iff.mp hd
    by_cases hg : g = h
    · rw [if_pos hg, Connection.lifecycle_beginClose] at hopen
      split at hopen <;> cases hopen
    · rw [if_neg hg] at hopen
      refine (hcovers.reached g c hc hopen).imp_right fun hdrains => hdrains.set hop ?_ _
      exact fun hin => (List.mem_cons.mp hin).resolve_left hg

/-- Every turn of an operation leaves the open connections registered or about to be closed. -/
theorem Covers.step (hcovers : exchange.Covers) (hop : exchange.operations[i]? = some operation) :
    Covers ⟨(operation.step exchange.board).2,
      exchange.operations.set i (operation.step exchange.board).1⟩ := by
  unfold Operation.step
  split
  · next h => exact hcovers.add h fun g hdrains => hdrains.set_of_nil hop rfl _ _
  · next h =>
      exact hcovers.of_spares (exchange.board.spares_remove h) fun g hdrains =>
        hdrains.set_of_nil hop rfl _ _
  · exact hcovers.of_spares (.refl exchange.board) fun g hdrains =>
      hdrains.set_of_nil hop rfl _ _
  · next message progress _ =>
      exact hcovers.of_spares (exchange.board.spares_broadcast_step message progress)
        fun g hdrains => hdrains.set_of_nil hop rfl _ _
  · exact hcovers.drain hop
  · exact hcovers.of_spares (.refl exchange.board) fun g hdrains =>
      hdrains.set_of_nil hop rfl _ _
  · next h todo count => exact hcovers.close hop
  · exact hcovers.of_spares (.refl exchange.board) fun g hdrains =>
      hdrains.set_of_nil hop rfl _ _

/-- A call on a connection other than opening it. -/
theorem Covers.call (hcovers : exchange.Covers) (h : Handle) {change : Connection.Change}
    (hopens : change ≠ .markOpen) :
    Covers { exchange with board := exchange.board.modify h change.apply } where
  joined := by
    intro g d hd hin
    rw [Switchboard.get?_modify] at hd
    obtain ⟨c, hc, rfl⟩ := Option.map_eq_some_iff.mp hd
    have hjoined := hcovers.joined g c hc hin
    split
    · have hstage := Connection.stage_le_apply change c
      intro hlife
      simp only [Connection.stage, hlife] at hstage
      split at hstage
      · next hconnecting => exact hjoined hconnecting
      all_goals cases hstage
    · exact hjoined
  reached := by
    intro g d hd hopen
    rw [Switchboard.get?_modify] at hd
    obtain ⟨c, hc, rfl⟩ := Option.map_eq_some_iff.mp hd
    split at hopen
    · exact hcovers.reached g c hc (Connection.opened_of_apply hopens hopen)
    · exact hcovers.reached g c hc hopen

theorem Covers.turn (hcovers : exchange.Covers) (next : Turn) : (exchange.turn next).Covers := by
  cases next with
  | connect identity capacity => exact hcovers.connect identity capacity
  | begin command =>
      apply hcovers.of_spares (.refl exchange.board)
      rintro h ⟨operation, hop, hin⟩
      exact ⟨operation, List.mem_append_left _ hop, hin⟩
  | proceed i =>
      simp only [Exchange.turn]
      split
      · exact hcovers
      · next operation hop => exact hcovers.step hop
  | call h change hopens => exact hcovers.call h hopens

/-- At every moment the open connections are registered or about to be closed. -/
theorem covers_run (policy : OverflowPolicy) (turns : List Turn) :
    ((empty policy).run turns).Covers := by
  have hkeeps : ∀ exchange : Exchange, exchange.Covers → (exchange.run turns).Covers := by
    induction turns with
    | nil => exact fun _ hcovers => hcovers
    | cons next turns ih => exact fun exchange hcovers => ih _ (hcovers.turn next)
  exact hkeeps (empty policy) (covers_empty policy)

/-- A connection that has left the registry takes nothing any more, from whichever moment its
targets were chosen, once no closing of all connections is about to close it. -/
theorem queue_closed_once_left (policy : OverflowPolicy) (before since later : List Turn)
    (h : Handle) (envelope : Envelope)
    (hin : h ∈ ((empty policy).run before).board.members)
    (hout : h ∉ ((empty policy).run (before ++ since)).board.members)
    (hclosed : ¬((empty policy).run (before ++ since)).Drains h) :
    (((empty policy).run (before ++ since ++ later)).board.deliver envelope h).1 = .closed := by
  obtain ⟨c, hget⟩ := Switchboard.exists_get?_of_mem hin
  have hjoined := (covers_run policy before).joined h c hget hin
  have hsince := acted_run ((empty policy).run before) since
  have hlater := acted_run ((empty policy).run (before ++ since)) later
  rw [← run_append] at hsince hlater
  obtain ⟨d, hd, hstage⟩ := hsince.stage_le hget
  obtain ⟨e, he, hstage'⟩ := hlater.stage_le hd
  -- It was registered once, so it is past connecting, and it is not open any more.
  have hnot : d.lifecycle ≠ .opened := by
    intro hopen
    rcases (covers_run policy (before ++ since)).reached h d hd hopen with hmem | hdrains
    · exact hout hmem
    · exact hclosed hdrains
  have hclosing : e.lifecycle ≠ .opened := by
    intro hopen
    simp only [Connection.stage] at hstage hstage'
    cases hc : c.lifecycle <;> cases hd' : d.lifecycle <;> simp_all
  rw [Switchboard.deliver_fst, Switchboard.outcome, he]
  exact Connection.offer_of_not fun hboth => hclosing hboth.1

/-- A push for everybody. -/
def pushToAll : Message :=
  ⟨fun _ => true, .notification .priceDrop "Price Drop: 1 Main St was reduced to 1"⟩

/-- A connection is registered, and a broadcast chooses it as its target. -/
def chosenRun : List Turn :=
  [.connect ⟨⟨1⟩, .user⟩ 4, .begin (.add 0), .proceed 0, .begin (.broadcast pushToAll), .proceed 1]

/-- The target is removed before it is offered the push, which it refuses. -/
theorem queue_closed_once_removed :
    0 ∈ ((empty .disconnect).run chosenRun).board.members ∧
    0 ∉ ((empty .disconnect).run
      (chosenRun ++ [.begin (.remove 0), .proceed 2])).board.members ∧
    ¬((empty .disconnect).run (chosenRun ++ [.begin (.remove 0), .proceed 2])).Drains 0 ∧
    (((empty .disconnect).run (chosenRun ++ [.begin (.remove 0), .proceed 2] ++ [])).board.deliver
      pushToAll.envelope 0).1 = .closed := by
  have hin : 0 ∈ ((empty .disconnect).run chosenRun).board.members := by decide
  have hout : 0 ∉ ((empty .disconnect).run
      (chosenRun ++ [.begin (.remove 0), .proceed 2])).board.members := by
    decide
  have hclosed : ¬((empty .disconnect).run
      (chosenRun ++ [.begin (.remove 0), .proceed 2])).Drains 0 := by
    decide
  exact ⟨hin, hout, hclosed,
    queue_closed_once_left .disconnect _ _ [] 0 pushToAll.envelope hin hout hclosed⟩

/-- The target is taken off by closing all connections, but it is not closed yet: it takes the push
that it is offered now. -/
theorem drained_connection_takes_push :
    0 ∈ ((empty .disconnect).run chosenRun).board.members ∧
    0 ∉ ((empty .disconnect).run (chosenRun ++ [.begin .closeAll, .proceed 2])).board.members ∧
    (((empty .disconnect).run (chosenRun ++ [.begin .closeAll, .proceed 2])).board.deliver
      pushToAll.envelope 0).1 = .queued ∧
    (((empty .disconnect).run
      (chosenRun ++ [.begin .closeAll, .proceed 2, .proceed 1])).board.get? 0).map
        (fun c => c.queue.length) = some 1 := by
  decide

end Exchange

end ListingHub
