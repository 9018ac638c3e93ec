import ListingHub.Proofs.Broadcast
import Mathlib.Algebra.BigOperators.Finprod

/-!
# The account of a registry

However registrations, removals, broadcasts and closures follow one another, who came and who went
adds up to who is there. A broadcast takes connections off without saying so, and a closure any
number of them; `comings` and `goings` name the connections, `account` adds up the answers, and one
permutation for each transaction ties both to the members.
-/

namespace ListingHub

namespace Switchboard

/-- The registered connections that match. -/
def matching (board : Switchboard) (p : Handle → Connection → Bool) : List Handle :=
  board.members.filter fun h => (board.get? h).any (p h)

/-- The targets of a message are the registered connections whose users are wanted. -/
theorem broadcast_eq_broadcastTo (board : Switchboard) (message : Message) :
    board.broadcast message =
      board.broadcastTo message.envelope (board.matching fun _ c => message.wanted c.user) := rfl

/-- Whom a pass of removals takes off: those whose removal succeeds. -/
def evictions (board : Switchboard) : List Handle → List Handle
  | [] => []
  | h :: handles =>
      (if (board.remove h).1 then [h] else []) ++ (board.remove h).2.evictions handles

/-- Something done to a registry in one go, or to a connection meanwhile. -/
inductive Transaction where
  | add (h : Handle)
  | remove (h : Handle)
  /-- A broadcast to the registered connections that match. -/
  | broadcast (p : Handle → Connection → Bool) (envelope : Envelope)
  | closeAll
  | connect (identity : Identity) (capacity : Nat)
  | change (h : Handle) (change : Connection.Change)

/-- How often a registration and a removal succeeded, how many connections broadcasts took off, and
what closures answered. -/
structure Account where
  added : Nat
  removed : Nat
  evicted : Nat
  closed : Nat
  deriving DecidableEq, Repr

namespace Account

/-- Nothing was done. -/
def zero : Account := ⟨0, 0, 0, 0⟩

/-- Two accounts in one. -/
def plus (account other : Account) : Account where
  added := account.added + other.added
  removed := account.removed + other.removed
  evicted := account.evicted + other.evicted
  closed := account.closed + other.closed

end Account

/-- The switchboard after a transaction. -/
def transact (board : Switchboard) : Transaction → Switchboard
  | .add h => (board.add h).2
  | .remove h => (board.remove h).2
  | .broadcast p envelope => (board.broadcastTo envelope (board.matching p)).2.1
  | .closeAll => board.closeAll.2
  | .connect identity capacity => (board.connect identity capacity).2
  | .change h change => board.modify h change.apply

namespace Transaction

/-- Whom a broadcast takes off. -/
def evicted (board : Switchboard) (p : Handle → Connection → Bool) (envelope : Envelope) :
    List Handle :=
  let (tally, board, _) := offerAll envelope .zero board (board.matching p)
  board.evictions tally.overflowed

/-- Whom a transaction registers. -/
def comings (board : Switchboard) : Transaction → List Handle
  | .add h => if (board.add h).1 then [h] else []
  | .remove _ | .broadcast .. | .closeAll | .connect .. | .change .. => []

/-- Whom a transaction takes off. -/
def goings (board : Switchboard) : Transaction → List Handle
  | .remove h => if (board.remove h).1 then [h] else []
  | .broadcast p envelope => evicted board p envelope
  | .closeAll => board.drain.1
  | .add _ | .connect .. | .change .. => []

/-- What a transaction answers. -/
def account (board : Switchboard) : Transaction → Account
  | .add h => { Account.zero with added := (board.add h).1.toNat }
  | .remove h => { Account.zero with removed := (board.remove h).1.toNat }
  | .broadcast p envelope => { Account.zero with evicted := (evicted board p envelope).length }
  | .closeAll => { Account.zero with closed := board.closeAll.1 }
  | .connect .. | .change .. => .zero

end Transaction

/-- The switchboard after a history. -/
def transactAll (board : Switchboard) (history : List Transaction) : Switchboard :=
  history.foldl transact board

/-- Whom a history registered, once for each time. -/
def comings (board : Switchboard) : List Transaction → List Handle
  | [] => []
  | next :: history => next.comings board ++ (board.transact next).comings history

/-- Whom a history took off, once for each time. -/
def goings (board : Switchboard) : List Transaction → List Handle
  | [] => []
  | next :: history => next.goings board ++ (board.transact next).goings history

/-- The answers of a history, added up. -/
def account (board : Switchboard) : List Transaction → Account
  | [] => .zero
  | next :: history => (next.account board).plus ((board.transact next).account history)

/-- A registration succeeds exactly on a connection that is not registered. -/
theorem add_fst (board : Switchboard) {h : Handle} (hmade : h < board.connections.length) :
    (board.add h).1 = !board.contains h := by
  cases hin : board.contains h with
  | true =>
      have hout : ¬(h ∉ board.members ∧ h < board.connections.length) :=
        fun hnew => hnew.1 ((board.contains_iff h).mp hin)
      rw [add, dif_neg hout]
      rfl
  | false =>
      have hnew : h ∉ board.members := by
        rw [← contains_iff, hin]
        exact Bool.false_ne_true
      rw [add, dif_pos ⟨hnew, hmade⟩]
      rfl

/-- A removal right after a removal does nothing. -/
theorem remove_remove (board : Switchboard) (h : Handle) :
    (board.remove h).2.remove h = (false, (board.remove h).2) := by
  have hout : (board.remove h).2.contains h = false := by
    rw [Bool.eq_false_iff, Ne, contains_iff, mem_remove]
    exact fun hin => hin.2 rfl
  rw [remove, hout]
  rfl

/-! ### Who is there -/

theorem perm_add (board : Switchboard) (h : Handle) :
    (board.add h).2.members.Perm (board.members ++ if (board.add h).1 then [h] else []) := by
  unfold add
  split
  · exact .refl _
  · rw [if_neg (by simp), List.append_nil]

theorem perm_remove (board : Switchboard) (h : Handle) :
    ((board.remove h).2.members ++ if (board.remove h).1 then [h] else []).Perm board.members := by
  rw [members_remove, remove_fst]
  split
  · next hin =>
      rw [contains_iff] at hin
      exact List.perm_append_comm.trans (List.perm_cons_erase hin).symm
  · next hout =>
      rw [contains_iff] at hout
      rw [List.append_nil, List.erase_of_not_mem hout]

/-- Those a pass of removals took off and those it left are all that were there. -/
theorem perm_evict (board : Switchboard) (handles : List Handle) :
    ((board.evict handles).members ++ board.evictions handles).Perm board.members := by
  induction handles generalizing board with
  | nil => rw [evictions, List.append_nil]; exact .refl _
  | cons h handles ih =>
      have hfirst := board.perm_remove h
      have hrest := ih (board.remove h).2
      simp only [evict, List.foldl_cons] at hrest ⊢
      rw [evictions]
      refine .trans ?_ ((hrest.append_right _).trans hfirst)
      rw [List.append_assoc]
      exact List.perm_append_comm.append_left _

/-- Everybody in a pass of removals goes who is there and comes up once. -/
theorem evictions_of_nodup {handles : List Handle} (hnodup : handles.Nodup)
    (board : Switchboard) (hin : ∀ h ∈ handles, h ∈ board.members) :
    board.evictions handles = handles := by
  induction handles generalizing board with
  | nil => rfl
  | cons h handles ih =>
      obtain ⟨hout, hrest⟩ := List.nodup_cons.mp hnodup
      have hremoved : (board.remove h).1 = true := by
        rw [remove_fst, contains_iff]
        exact hin h List.mem_cons_self
      have hstay : ∀ g ∈ handles, g ∈ (board.remove h).2.members := by
        intro g hg
        rw [mem_remove]
        exact ⟨hin g (List.mem_cons_of_mem h hg), ne_of_mem_of_not_mem hg hout⟩
      rw [evictions, hremoved, if_pos rfl, ih hrest _ hstay]
      rfl

/-- A broadcast takes off the matching connections whose queues are full, if the policy says so. -/
theorem evicted_eq_filter (board : Switchboard) (p : Handle → Connection → Bool)
    (envelope : Envelope) : Transaction.evicted board p envelope =
      (board.matching p).filter fun h => evicts board.policy (board.outcome h) := by
  have hnodup : (board.matching p).Nodup := board.members_nodup.filter _
  have hfull := offerAll_overflowed envelope hnodup .zero board
  rw [Tally.zero, List.nil_append] at hfull
  simp only [Transaction.evicted, Tally.zero]
  rw [hfull]
  apply evictions_of_nodup (hnodup.filter _)
  intro h hin
  rw [members_offerAll]
  exact List.mem_of_mem_filter (List.mem_of_mem_filter hin)

/-- Who is there after a transaction and who has gone are who was there and who has come. -/
theorem perm_transact (board : Switchboard) (next : Transaction) :
    ((board.transact next).members ++ next.goings board).Perm
      (board.members ++ next.comings board) := by
  cases next with
  | add h => simpa [transact, Transaction.goings, Transaction.comings] using board.perm_add h
  | remove h => simpa [transact, Transaction.goings, Transaction.comings] using board.perm_remove h
  | broadcast p envelope =>
      have hevicted := perm_evict (offerAll envelope .zero board (board.matching p)).2.1
        (offerAll envelope .zero board (board.matching p)).1.overflowed
      rw [members_offerAll] at hevicted
      simpa [transact, Transaction.goings, Transaction.comings, Transaction.evicted, broadcastTo]
        using hevicted
  | closeAll => simp [transact, Transaction.goings, Transaction.comings, drain]
  | connect identity capacity => simp [transact, Transaction.goings, Transaction.comings, connect]
  | change h change => simp [transact, Transaction.goings, Transaction.comings]

open scoped List in
/-- Who is there after a history and who has gone are who was there and who has come. -/
theorem perm_transactAll (board : Switchboard) (history : List Transaction) :
    ((board.transactAll history).members ++ board.goings history).Perm
      (board.members ++ board.comings history) := by
  induction history generalizing board with
  | nil => exact .refl _
  | cons next history ih =>
      have hrest := ih (board.transact next)
      have hfirst := board.perm_transact next
      -- Those who went first stand aside while the rest of the history is accounted for.
      calc (board.transactAll (next :: history)).members ++ board.goings (next :: history)
        _ = ((board.transact next).transactAll history).members ++
            (next.goings board ++ (board.transact next).goings history) := rfl
        _ ~ ((board.transact next).transactAll history).members ++
            ((board.transact next).goings history ++ next.goings board) :=
          List.perm_append_comm.append_left _
        _ ~ (board.transact next).members ++ (board.transact next).comings history ++
            next.goings board := by
          rw [← List.append_assoc]
          exact hrest.append_right _
        _ ~ (board.transact next).members ++ next.goings board ++
            (board.transact next).comings history := by
          rw [List.append_assoc, List.append_assoc]
          exact List.perm_append_comm.append_left _
        _ ~ board.members ++ next.comings board ++ (board.transact next).comings history :=
          hfirst.append_right _
        _ = board.members ++ board.comings (next :: history) := List.append_assoc _ _ _

/-- The answers of a transaction count those it names. -/
theorem account_transact (board : Switchboard) (next : Transaction) :
    (next.account board).added = (next.comings board).length ∧
      (next.account board).removed + (next.account board).evicted +
        (next.account board).closed = (next.goings board).length := by
  cases next with
  | add h =>
      cases hadded : (board.add h).1 <;>
        simp [Transaction.account, Transaction.comings, Transaction.goings, Account.zero, hadded]
  | remove h =>
      cases hremoved : (board.remove h).1 <;>
        simp [Transaction.account, Transaction.comings, Transaction.goings, Account.zero, hremoved]
  | broadcast p envelope =>
      simp [Transaction.account, Transaction.comings, Transaction.goings, Account.zero]
  | closeAll =>
      simp [Transaction.account, Transaction.comings, Transaction.goings, Account.zero, closeAll]
  | connect _ _ | change _ _ =>
      simp [Transaction.account, Transaction.comings, Transaction.goings, Account.zero]

theorem account_transactAll (board : Switchboard) (history : List Transaction) :
    (board.account history).added = (board.comings history).length ∧
      (board.account history).removed + (board.account history).evicted +
        (board.account history).closed = (board.goings history).length := by
  induction history generalizing board with
  | nil => exact ⟨rfl, rfl⟩
  | cons next history ih =>
      obtain ⟨hcame, hwent⟩ := ih (board.transact next)
      obtain ⟨hcoming, hgoing⟩ := board.account_transact next
      simp only [account, Account.plus, comings, goings, List.length_append]
      omega

/-! ### Whose connections are there -/

/-- The owners of the registered connections, once for each connection. -/
def owners (board : Switchboard) : List UserId :=
  board.members.filterMap fun h => (board.get? h).map Connection.user

theorem length_owners (board : Switchboard) : board.owners.length = board.size := by
  rw [owners, List.length_filterMap_eq_countP, size, List.countP_eq_length]
  intro h hin
  obtain ⟨c, hget⟩ := exists_get?_of_mem hin
  simp [hget]

theorem connectionsFor_eq_count (board : Switchboard) (user : UserId) :
    board.connectionsFor user = board.owners.count user := by
  rw [connectionsFor, snapshot, owners, ← List.countP_eq_length_filter, List.count,
    List.countP_filterMap]
  apply List.countP_congr
  intro h hin
  cases board.get? h <;> simp

/-- The connections of all users are the registered connections. -/
theorem finsum_connectionsFor (board : Switchboard) :
    ∑ᶠ user, board.connectionsFor user = board.size := by
  have hsupport : (Function.support fun user => board.owners.count user) ⊆
      (board.owners.toFinset : Set UserId) := by
    intro user hcount
    simpa [List.count_eq_zero] using hcount
  calc ∑ᶠ user, board.connectionsFor user
    _ = ∑ᶠ user, board.owners.count user := finsum_congr board.connectionsFor_eq_count
    _ = ∑ user ∈ board.owners.toFinset, board.owners.count user :=
      finsum_eq_sum_of_support_subset _ hsupport
    _ = board.owners.length := List.sum_toFinset_count_eq_length _
    _ = board.size := board.length_owners

/-- The connections of a user are counted once each. -/
theorem connectionsFor_eq_card (board : Switchboard) (user : UserId) :
    board.connectionsFor user = ((Finset.range board.connections.length).filter fun h =>
      board.contains h ∧ (board.get? h).map Connection.user = some user).card := by
  rw [connectionsFor, ← List.toFinset_card_of_nodup (board.snapshot_nodup _)]
  congr 1
  ext h
  rw [List.mem_toFinset, mem_snapshot, Finset.mem_filter, Finset.mem_range, contains_iff,
    Option.map_eq_some_iff]
  constructor
  · rintro ⟨hin, c, hget, huser⟩
    exact ⟨board.members_lt h hin, hin, c, hget, beq_iff_eq.mp huser⟩
  · rintro ⟨-, hin, c, hget, huser⟩
    exact ⟨hin, c, hget, beq_iff_eq.mpr huser⟩

/-- After every history that begins with nobody registered, the registered connections are those
whose registration succeeded less those that were removed, evicted or closed with all others. For
each connection the difference is one or nothing and says whether it is registered. A registration
succeeds exactly on a connection that is not registered, a removal exactly on one that is, and a
second one does nothing. The connections of a user are counted once each, and those of all users are
all connections. -/
theorem registrations_balance {start : Switchboard} (hempty : start.members = [])
    (history : List Transaction) :
    let board := start.transactAll history
    let account := start.account history
    account.added = board.size + account.removed + account.evicted + account.closed ∧
    (∀ h, (start.comings history).count h =
      (start.goings history).count h + (board.contains h).toNat) ∧
    (∀ p envelope, Transaction.evicted board p envelope =
      (board.matching p).filter fun h => evicts board.policy (board.outcome h)) ∧
    (∀ h, h < board.connections.length → (board.add h).1 = !board.contains h) ∧
    (∀ h, (board.remove h).1 = board.contains h ∧
      (board.remove h).2.remove h = (false, (board.remove h).2)) ∧
    (∀ user, board.connectionsFor user = ((Finset.range board.connections.length).filter fun h =>
      board.contains h ∧ (board.get? h).map Connection.user = some user).card) ∧
    ∑ᶠ user, board.connectionsFor user = board.size ∧
    (board.isEmpty = true ↔ board.size = 0) := by
  intro board account
  obtain ⟨hcame, hwent⟩ := start.account_transactAll history
  have hperm := start.perm_transactAll history
  rw [hempty, List.nil_append] at hperm
  refine ⟨?_, ?_, board.evicted_eq_filter, fun h => board.add_fst, ?_,
    board.connectionsFor_eq_card, board.finsum_connectionsFor, ?_⟩
  · have hlength : board.size + (start.goings history).length =
        (start.comings history).length := by
      rw [size, ← List.length_append, hperm.length_eq]
    rw [hcame, ← hlength, ← hwent, Nat.add_assoc, Nat.add_assoc, Nat.add_assoc]
  · intro h
    rw [← hperm.count_eq, List.count_append, Nat.add_comm]
    congr 1
    cases hin : board.contains h with
    | true => exact List.count_eq_one_of_mem board.members_nodup ((board.contains_iff h).mp hin)
    | false =>
        apply List.count_eq_zero_of_not_mem
        rw [← contains_iff, hin]
        exact Bool.false_ne_true
  · intro h
    exact ⟨board.remove_fst h, board.remove_remove h⟩
  · rw [isEmpty, size, List.isEmpty_iff, List.length_eq_zero_iff]

/-- Of two users with a connection each, one is evicted and comes back, the other is removed twice,
and then all connections are closed. -/
theorem registrations_balance_evicted :
    let start := ((empty .disconnect).connect ⟨⟨3⟩, .user⟩ 1).2.connect ⟨⟨8⟩, .user⟩ 1 |>.2
    let history := [.add 0, .add 1, .add 1, .broadcast (fun h _ => h == 0) ⟨"first", .null⟩,
      .broadcast (fun _ _ => true) ⟨"second", .null⟩, .remove 1, .remove 1, .add 0, .closeAll]
    start.members = [] ∧
    start.account history = ⟨3, 1, 1, 1⟩ ∧
    (start.comings history).count 0 = 2 ∧
    (start.goings history).count 0 = 2 ∧
    (start.transactAll history).size = 0 := by
  intro start history
  have hempty : start.members = [] := rfl
  have haccount : start.account history = ⟨3, 1, 1, 1⟩ := by decide
  have hgone : (start.goings history).count 0 = 2 := by decide
  have hleft : (start.transactAll history).contains 0 = false := by decide
  obtain ⟨htotal, hcount, -⟩ := registrations_balance hempty history
  simp only [haccount] at htotal
  refine ⟨hempty, haccount, ?_, hgone, by omega⟩
  rw [hcount, hgone, hleft]
  rfl

end Switchboard

end ListingHub
