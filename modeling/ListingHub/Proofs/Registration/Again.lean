import ListingHub.Proofs.Broadcast.Order
import ListingHub.Proofs.Hub.Lifecycle

/-!
# Registering a connection again

Registration puts any connection on the list of the members, but it opens only one that is
connecting. A connection is that until it is registered or closed for the first time, so every later
registration succeeds and opens nothing: the connection is a member that takes no envelope, which no
broadcast finds full and which therefore stays until it is removed.
-/

namespace ListingHub

/-- A call starts closing the connection or ends its lifecycle. -/
def Connection.Change.isClosing : Connection.Change → Bool
  | beginClose | markClosed => true
  | markOpen | deliver _ | receive | shutReceiver | dropReceiver => false

/-- All other calls but opening leave the lifecycle alone. -/
theorem Connection.lifecycle_apply {change : Connection.Change}
    (hcloses : change.isClosing = false) (hopens : change ≠ .markOpen) (c : Connection) :
    (change.apply c).lifecycle = c.lifecycle := by
  cases change with
  | markOpen => exact absurd rfl hopens
  | beginClose | markClosed => cases hcloses
  | deliver envelope => simp only [Change.apply]; rw [deliver_snd]
  | receive => simp only [Change.apply]; rw [receive_snd]
  | shutReceiver | dropReceiver => rfl

theorem Connection.two_le_stage_of_isClosing {change : Connection.Change}
    (hcloses : change.isClosing = true) (c : Connection) : 2 ≤ (change.apply c).stage := by
  cases change with
  | beginClose =>
      simp only [Change.apply, stage, lifecycle_beginClose]
      by_cases hclosed : c.lifecycle = .closed <;> simp [hclosed]
  | markClosed => simp [Change.apply, markClosed, stage]
  | markOpen | deliver _ | receive | shutReceiver | dropReceiver => cases hcloses

namespace Switchboard

variable {board start : Switchboard} {h : Handle} {next : Transaction} {c : Connection}

theorem spares_broadcastTo (board : Switchboard) (envelope : Envelope) {targets : List Handle}
    (hnodup : targets.Nodup) (hin : ∀ g ∈ targets, g ∈ board.members) (h : Handle) :
    Spares board (board.broadcastTo envelope targets).2.1 h := by
  apply spares_of_get?_map (board.get?_broadcastTo envelope hnodup hin h)
  intro c hget
  have houtcome : board.outcome h = c.offer := by simp [outcome, hget]
  rw [mem_broadcastTo board envelope hnodup, houtcome]
  by_cases htarget : h ∈ targets
  · by_cases hevicts : evicts board.policy c.offer = true
    · exact .inr ⟨hin h htarget, by simp [htarget, hevicts], by simp [htarget, afterOffer, hevicts]⟩
    · refine .inl ⟨by simp [hevicts], ?_⟩
      rw [if_pos htarget, afterOffer, if_neg hevicts, Connection.deliver_snd]
  · exact .inl ⟨by simp [htarget], by simp [htarget]⟩

/-- All that transactions do to the switchboard are acts. -/
theorem acted_transact (board : Switchboard) (next : Transaction) :
    board.Acted (board.transact next) := by
  cases next with
  | add h => exact Acted.refl.act (.add h)
  | remove h => exact Acted.refl.act (.remove h)
  | broadcast p envelope => exact board.acted_broadcastTo envelope _
  | closeAll => exact board.acted_closeAll
  | connect identity capacity => exact Acted.refl.act (.connect identity capacity)
  | change h change => exact Acted.refl.act (.change h change)

theorem acted_transactAll (board : Switchboard) (history : List Transaction) :
    board.Acted (board.transactAll history) := by
  induction history generalizing board with
  | nil => exact .refl
  | cons next history ih => exact (board.acted_transact next).trans (ih (board.transact next))

/-- A transaction that neither registers a connection nor opens or closes it by a call spares it. -/
theorem spares_transact (hget : board.get? h = some c) (hstays : h ∉ next.comings board)
    (hcalls : ∀ change, next = .change h change → change.isClosing = false ∧ change ≠ .markOpen) :
    board.Spares (board.transact next) h := by
  have hmade := lt_of_get? hget
  cases next with
  | add g =>
      by_cases hg : h = g
      · subst hg
        have hrefused : (board.add h).1 = false := by
          cases hadded : (board.add h).1 with
          | false => rfl
          | true => simp [Transaction.comings, hadded] at hstays
        have hsame : board.transact (.add h) = board := by
          simp only [transact, add] at hrefused ⊢
          split at hrefused
          · cases hrefused
          · next hknown => rw [dif_neg hknown]
        rw [hsame]
        exact .refl board h
      · exact board.spares_add_of_ne hg
  | remove g => exact board.spares_remove g h
  | broadcast p envelope =>
      exact board.spares_broadcastTo envelope (board.members_nodup.filter _)
        (fun g hg => List.mem_of_mem_filter hg) h
  | closeAll => exact board.spares_closeAll h
  | connect identity capacity =>
      exact board.spares_connect_of_ne identity capacity (Nat.ne_of_lt hmade)
  | change g change =>
      by_cases hg : h = g
      · subst hg
        obtain ⟨hcloses, hopens⟩ := hcalls change rfl
        exact spares_modify (Connection.lifecycle_apply hcloses hopens) board h h
      · exact board.spares_modify_of_ne _ hg

/-- A connection that was neither registered nor closed yet. -/
def Untouched (board : Switchboard) (h : Handle) : Prop :=
  h ∉ board.members ∧ ∃ c, board.get? h = some c ∧ c.lifecycle = .connecting

/-- A connection that was registered or closed: it is not connecting any more, and open only as
long as it is registered. -/
def Used (board : Switchboard) (h : Handle) : Prop :=
  ∃ c, board.get? h = some c ∧ c.lifecycle ≠ .connecting ∧
    (c.lifecycle = .opened → h ∈ board.members)

/-- A transaction registers a connection or closes it by a call. -/
def Transaction.Touches (board : Switchboard) (h : Handle) (next : Transaction) : Prop :=
  h ∈ next.comings board ∨ ∃ change, next = .change h change ∧ change.isClosing = true

theorem Untouched.spared {after : Switchboard} (huntouched : board.Untouched h)
    (hspares : board.Spares after h) (hacted : board.Acted after) : after.Untouched h := by
  obtain ⟨hout, c, hget, hlife⟩ := huntouched
  obtain ⟨d, hd, -⟩ := hacted.exists_get? hget
  obtain ⟨c', hc', ⟨hmem, hsame⟩ | ⟨hin, -, -⟩⟩ := hspares d hd
  · obtain rfl := Option.some.inj (hget.symm.trans hc')
    exact ⟨fun hin => hout (hmem.mp hin), d, hd, hsame.trans hlife⟩
  · exact absurd hin hout

theorem Used.spared {after : Switchboard} (hused : board.Used h) (hspares : board.Spares after h)
    (hacted : board.Acted after) : after.Used h := by
  obtain ⟨c, hget, hlife, hopen⟩ := hused
  obtain ⟨d, hd, -⟩ := hacted.exists_get? hget
  obtain ⟨c', hc', ⟨hmem, hsame⟩ | ⟨-, -, hclosed⟩⟩ := hspares d hd
  · obtain rfl := Option.some.inj (hget.symm.trans hc')
    exact ⟨d, hd, hsame ▸ hlife, fun hd' => hmem.mpr (hopen (hsame ▸ hd'))⟩
  · rw [Connection.lifecycle_beginClose] at hclosed
    refine ⟨d, hd, ?_, ?_⟩ <;> rw [hclosed] <;> split <;> simp

/-- A connection past opening is used, registered or not. -/
theorem used_of_stage (hget : board.get? h = some c) (hstage : 2 ≤ c.stage) : board.Used h := by
  refine ⟨c, hget, ?_, ?_⟩ <;> intro hlife <;> simp [Connection.stage, hlife] at hstage

/-- Registered, a connection is not connecting. -/
theorem used_add (hget : board.get? h = some c) (hout : h ∉ board.members) :
    (board.add h).2.Used h := by
  have hmade := lt_of_get? hget
  refine ⟨c.markOpen.2, ?_, ?_, fun _ => (mem_add board h h).mpr (.inr ⟨rfl, hmade⟩)⟩
  · rw [get?_add, hget]
    simp [hout]
  · simp only [Connection.markOpen]
    split
    · simp
    · next hlife => exact hlife

/-- Registered or closed by a transaction, a connection is used. -/
theorem used_transact (hget : board.get? h = some c) (htouches : next.Touches board h) :
    (board.transact next).Used h := by
  rcases htouches with hcomes | ⟨change, rfl, hcloses⟩
  · cases next with
    | add g =>
        simp only [Transaction.comings] at hcomes
        split at hcomes
        · next hadded =>
            obtain rfl := List.mem_singleton.mp hcomes
            rw [add_fst board (lt_of_get? hget), Bool.not_eq_true', Bool.eq_false_iff, Ne,
              contains_iff] at hadded
            exact used_add hget hadded
        · cases hcomes
    | remove _ | broadcast _ _ | closeAll | connect _ _ | change _ _ => cases hcomes
  · refine used_of_stage ?_ (Connection.two_le_stage_of_isClosing hcloses c)
    rw [transact, get?_modify_self, hget, Option.map_some]

/-- Used once, used for good. -/
theorem Used.transact (hused : board.Used h) (next : Transaction) :
    (board.transact next).Used h := by
  obtain ⟨c, hget, hlife, hopen⟩ := id hused
  by_cases htouches : next.Touches board h
  · exact used_transact hget htouches
  · rw [Transaction.Touches, not_or, not_exists] at htouches
    by_cases hopens : next = .change h .markOpen
    · -- Opening does nothing to a connection that is not connecting.
      subst hopens
      refine ⟨c, ?_, hlife, hopen⟩
      rw [Switchboard.transact, get?_modify_self, hget]
      simp [Connection.Change.apply, Connection.markOpen, hlife]
    · apply hused.spared (spares_transact hget htouches.1 ?_) (board.acted_transact next)
      rintro change rfl
      refine ⟨?_, fun hchange => hopens (hchange ▸ rfl)⟩
      rw [Bool.eq_false_iff]
      exact fun hcloses => htouches.2 change ⟨rfl, hcloses⟩

theorem Used.transactAll (hused : board.Used h) (history : List Transaction) :
    (board.transactAll history).Used h := by
  induction history generalizing board with
  | nil => exact hused
  | cons next history ih => exact ih (hused.transact next)

/-- A history that nobody calls to open a connection leaves the connection untouched, or it
registers the connection or closes it by a call and leaves it used. -/
theorem Untouched.transactAll (huntouched : board.Untouched h) {history : List Transaction}
    (hopens : Transaction.change h .markOpen ∉ history) :
    (board.transactAll history).Untouched h ∧ h ∉ board.comings history ∧
        (∀ change, Transaction.change h change ∈ history → change.isClosing = false) ∨
      (board.transactAll history).Used h ∧ ¬(h ∉ board.comings history ∧
        ∀ change, Transaction.change h change ∈ history → change.isClosing = false) := by
  induction history generalizing board with
  | nil =>
      refine .inl ⟨huntouched, List.not_mem_nil, ?_⟩
      intro change hin
      cases hin
  | cons next history ih =>
      obtain ⟨hfirst, hrest⟩ := List.ne_and_not_mem_of_not_mem_cons hopens
      obtain ⟨hout, c, hget, hlife⟩ := id huntouched
      by_cases htouches : next.Touches board h
      · refine .inr ⟨(used_transact hget htouches).transactAll history, ?_⟩
        rintro ⟨hcomes, hcalls⟩
        rcases htouches with hnow | ⟨change, rfl, hcloses⟩
        · exact hcomes (List.mem_append_left _ hnow)
        · rw [hcalls change List.mem_cons_self] at hcloses
          cases hcloses
      · rw [Transaction.Touches, not_or, not_exists] at htouches
        have hcalm : ∀ change, next = .change h change → change.isClosing = false := by
          intro change hnext
          rw [Bool.eq_false_iff]
          exact fun hcloses => htouches.2 change ⟨hnext, hcloses⟩
        have hspares := spares_transact hget htouches.1 fun change hnext =>
          ⟨hcalm change hnext, fun hchange => hfirst (hchange ▸ hnext.symm)⟩
        have hstill := huntouched.spared hspares (board.acted_transact next)
        have hcomings : h ∈ board.comings (next :: history) ↔
            h ∈ (board.transact next).comings history := by
          rw [comings, List.mem_append]
          exact or_iff_right htouches.1
        have hcalls : (∀ change, Transaction.change h change ∈ next :: history →
              change.isClosing = false) ↔
            ∀ change, Transaction.change h change ∈ history → change.isClosing = false := by
          constructor
          · exact fun hall change hin => hall change (List.mem_cons_of_mem _ hin)
          · intro hall change hin
            rcases List.mem_cons.mp hin with hnow | hlater
            · exact hcalm change hnow.symm
            · exact hall change hlater
        rw [hcomings, hcalls]
        exact ih hstill hrest

/-- A member that is past opening takes nothing. -/
theorem outcome_of_stage (hget : board.get? h = some c) (hstage : 2 ≤ c.stage) :
    board.outcome h = .closed := by
  rw [outcome, hget]
  apply Connection.offer_of_not
  rintro ⟨hopen, -⟩
  simp [Connection.stage, hopen] at hstage

/-- It stays a member until it is removed or all are. -/
theorem mem_transact_of_stage (hget : board.get? h = some c) (hstage : 2 ≤ c.stage)
    (hin : h ∈ board.members) (hremove : next ≠ .remove h) (hclose : next ≠ .closeAll) :
    h ∈ (board.transact next).members := by
  cases next with
  | add g => exact (mem_add board g h).mpr (.inl hin)
  | remove g =>
      refine (mem_remove board g h).mpr ⟨hin, ?_⟩
      rintro rfl
      exact hremove rfl
  | broadcast p envelope =>
      refine (mem_broadcastTo board envelope (board.members_nodup.filter _) h).mpr ⟨hin, ?_⟩
      simp [outcome_of_stage hget hstage, evicts]
  | closeAll => exact absurd rfl hclose
  | connect identity capacity => exact hin
  | change g change => exact hin

theorem mem_transactAll_of_stage {history : List Transaction} (hget : board.get? h = some c)
    (hstage : 2 ≤ c.stage) (hin : h ∈ board.members)
    (hremove : Transaction.remove h ∉ history) (hclose : Transaction.closeAll ∉ history) :
    h ∈ (board.transactAll history).members := by
  induction history generalizing board c with
  | nil => exact hin
  | cons next history ih =>
      obtain ⟨hfirst, hremove⟩ := List.ne_and_not_mem_of_not_mem_cons hremove
      obtain ⟨hfirst', hclose⟩ := List.ne_and_not_mem_of_not_mem_cons hclose
      obtain ⟨d, hd, hforward⟩ := (board.acted_transact next).stage_le hget
      exact ih hd (Nat.le_trans hstage hforward)
        (mem_transact_of_stage hget hstage hin hfirst.symm hfirst'.symm) hremove hclose

/-- An open member whose receiving half lives and that has room takes part in a broadcast that is
meant for it. -/
theorem Hears.taken {p : Handle → Connection → Bool} (hhears : board.Hears p h c)
    (hget : board.get? h = some c) (hsound : c.Sound) (hroom : c.queue.length < c.capacity)
    (envelope : Envelope) :
    (board.broadcastTo envelope (board.matching p)).2.1.get? h =
        some { c with queue := c.queue ++ [envelope] } ∧
      h ∈ (board.broadcastTo envelope (board.matching p)).2.1.members ∧
      1 ≤ (board.broadcastTo envelope (board.matching p)).1 := by
  have hnodup : (board.matching p).Nodup := board.members_nodup.filter _
  have htarget := (board.mem_matching p h).mpr ⟨hhears.registered, c, hget, hhears.meant⟩
  obtain ⟨hafter, hmem⟩ := broadcastTo_of_opened envelope hnodup
    (fun g hg => List.mem_of_mem_filter hg) htarget hget hsound hhears.opened hhears.receiving
  rw [if_pos hroom] at hafter
  refine ⟨hafter, hmem.mpr fun hboth => Nat.not_lt.mpr hboth.1 hroom, ?_⟩
  simp only [broadcastTo]
  rw [offerAll_delivered envelope hnodup, Tally.zero, Nat.zero_add]
  refine List.countP_pos_iff.mpr ⟨h, htarget, ?_⟩
  have hoffer := Connection.offer_of_opened hsound hhears.opened hhears.receiving
  rw [if_neg (Nat.not_le.mpr hroom)] at hoffer
  simp [outcome, hget, hoffer]

/-- After any history of a new connection, a registration that succeeds makes it a member, and it is
open then exactly if it was never registered and never closed by a call before. If it is open, a
broadcast that is meant for it gets through to it while its receiving half lives and it has room.
If it is not, it is as it was: told to leave, closed to every envelope from then on, and a member
until it is removed or all are. -/
theorem opened_by_add_iff {identity : Identity} {capacity : Nat}
    (hmade : start.get? h = some (.new identity capacity)) (hout : h ∉ start.members)
    (history : List Transaction) (hopens : Transaction.change h .markOpen ∉ history)
    (hadded : ((start.transactAll history).add h).1 = true) :
    let board := start.transactAll history
    let after := (board.add h).2
    ∃ c, after.get? h = some c ∧ h ∈ after.members ∧
      (c.lifecycle = .opened ↔ h ∉ start.comings history ∧
        ∀ change, Transaction.change h change ∈ history → change.isClosing = false) ∧
      (c.lifecycle = .opened → c.receiver = .alive → c.queue.length < c.capacity →
        ∀ p envelope, p h c = true →
          (after.broadcastTo envelope (after.matching p)).2.1.get? h =
              some { c with queue := c.queue ++ [envelope] } ∧
            h ∈ (after.broadcastTo envelope (after.matching p)).2.1.members ∧
            1 ≤ (after.broadcastTo envelope (after.matching p)).1) ∧
      (c.lifecycle ≠ .opened → board.get? h = some c ∧ c.cancelled = true ∧
        (∀ more envelope, ((after.transactAll more).deliver envelope h).1 = .closed) ∧
        ∀ more, Transaction.remove h ∉ more → Transaction.closeAll ∉ more →
          h ∈ (after.transactAll more).members) := by
  intro board after
  have hkept : ∀ (change : Connection.Change) (d : Connection), d.Sound →
      (change.apply d).Sound := fun change d hd => hd.apply change
  obtain ⟨c, hget, hsound⟩ := (start.acted_transactAll history).keeps hkept hmade
    (Connection.sound_new identity capacity)
  have hnew : h ∉ board.members := by
    rw [add_fst _ (lt_of_get? hget), Bool.not_eq_true', Bool.eq_false_iff, Ne, contains_iff]
      at hadded
    exact hadded
  have hafter : after.get? h = some c.markOpen.2 := by
    rw [get?_add, hget]
    simp [hnew]
  have hmember : h ∈ after.members := (mem_add board h h).mpr (.inr ⟨rfl, lt_of_get? hget⟩)
  refine ⟨c.markOpen.2, hafter, hmember, ?_, ?_, ?_⟩
  · rcases Untouched.transactAll ⟨hout, _, hmade, rfl⟩ hopens with
      ⟨⟨-, d, hd, hlife⟩, hcalm⟩ | ⟨⟨d, hd, hlife, hopen⟩, htouched⟩
    · obtain rfl := Option.some.inj (hget.symm.trans hd)
      rw [Connection.markOpen, if_pos hlife]
      exact iff_of_true rfl hcalm
    · obtain rfl := Option.some.inj (hget.symm.trans hd)
      rw [Connection.markOpen, if_neg hlife]
      exact iff_of_false (fun hopened => hnew (hopen hopened)) htouched
  · intro hopen halive hroom p envelope hmeant
    exact Hears.taken ⟨hmember, hmeant, hopen, halive⟩ hafter hsound.markOpen hroom envelope
  · intro hclosed
    have hlife : c.lifecycle ≠ .connecting := by
      intro hconnecting
      simp [Connection.markOpen, hconnecting] at hclosed
    rw [Connection.markOpen, if_neg hlife] at hafter hclosed ⊢
    have hstage : 2 ≤ c.stage := by
      cases hc : c.lifecycle <;> simp_all [Connection.stage]
    refine ⟨hget, hsound.cancelled_iff.mpr ((Connection.two_le_stage_iff c).mp hstage), ?_, ?_⟩
    · intro more envelope
      obtain ⟨d, hd, hforward⟩ := (after.acted_transactAll more).stage_le hafter
      rw [deliver_fst]
      exact outcome_of_stage hd (Nat.le_trans hstage hforward)
    · intro more
      exact mem_transactAll_of_stage hafter hstage hmember

/-- One connection, of capacity one, that was just made. -/
def justMade : Switchboard :=
  ((empty .disconnect).connect ⟨⟨3⟩, .user⟩ 1).2

/-- A removal and a closure come before the registration and find nobody, so it opens the
connection, and a broadcast to everybody gets through to it. -/
theorem opened_by_first_add :
    let history := [.remove 0, .closeAll]
    let after := ((justMade.transactAll history).add 0).2
    justMade.get? 0 = some (.new ⟨⟨3⟩, .user⟩ 1) ∧ 0 ∉ justMade.members ∧
    Transaction.change 0 .markOpen ∉ history ∧ ((justMade.transactAll history).add 0).1 = true ∧
    (∃ c, after.get? 0 = some c ∧ c.lifecycle = .opened) ∧
    1 ≤ (after.broadcastTo ⟨"new", .null⟩ (after.matching fun _ _ => true)).1 := by
  intro history after
  have hmade : justMade.get? 0 = some (.new ⟨⟨3⟩, .user⟩ 1) := rfl
  have hout : 0 ∉ justMade.members := by decide
  have hopens : Transaction.change 0 .markOpen ∉ history := by simp [history]
  have hadded : ((justMade.transactAll history).add 0).1 = true := by decide
  obtain ⟨c, hget, -, hopened, hpushed, -⟩ :=
    opened_by_add_iff hmade hout history hopens hadded
  have hopen := hopened.mpr ⟨by decide, by simp [history]⟩
  have hempty : after.get? 0 = some { Connection.new ⟨⟨3⟩, .user⟩ 1 with lifecycle := .opened } :=
    rfl
  obtain rfl := Option.some.inj (hget.symm.trans hempty)
  exact ⟨hmade, hout, hopens, hadded, ⟨_, hget, hopen⟩,
    (hpushed hopen rfl (by decide) (fun _ _ => true) ⟨"new", .null⟩ rfl).2.2⟩

/-- Registered, removed and registered again, the connection is a member and not open, and a
broadcast to everybody gets through to nobody. -/
theorem added_again_stays_closing :
    let board := justMade.transactAll [.add 0, .remove 0]
    (board.add 0).1 = true ∧
    ((board.add 0).2.get? 0).map Connection.lifecycle = some .closing ∧
    0 ∈ (board.add 0).2.members ∧
    ((board.add 0).2.broadcast ⟨fun _ => true, ⟨"new", .null⟩⟩).1 = 0 := by
  decide

end Switchboard

end ListingHub
