import ListingHub.Broadcast

/-!
# What is done to a switchboard

An act is what is done in one piece: a change under the lock of the registry, or one call on one
connection. Every switchboard in use came about by acts, and on such a switchboard the lifecycle of
a connection, its cancellation and the sending half of its queue tell the same.
-/

namespace ListingHub

namespace Connection

/-- A call on a connection. -/
inductive Change where
  | markOpen
  | beginClose
  | markClosed
  | deliver (envelope : Envelope)
  | receive
  | shutReceiver
  | dropReceiver

/-- The connection after a call. -/
def Change.apply : Change → Connection → Connection
  | markOpen, c => c.markOpen.2
  | beginClose, c => c.beginClose.2
  | markClosed, c => c.markClosed
  | deliver envelope, c => (c.deliver envelope).2
  | receive, c => c.receive.2
  | shutReceiver, c => c.shutReceiver
  | dropReceiver, c => c.dropReceiver

/-- Closing has started exactly when the pumps were told to leave and exactly when the sending half
of the queue was let go. -/
structure Sound (c : Connection) : Prop where
  cancelled_iff : c.cancelled = true ↔ c.lifecycle = .closing ∨ c.lifecycle = .closed
  released_iff : c.senderHeld = false ↔ c.lifecycle = .closing ∨ c.lifecycle = .closed

theorem sound_new (identity : Identity) (capacity : Nat) : (new identity capacity).Sound := by
  constructor <;> simp [new]

theorem sound_markClosed (c : Connection) : c.markClosed.Sound := by
  constructor <;> simp [markClosed]

/-- Whatever a connection was, starting to close it brings its parts into line. -/
theorem sound_beginClose (c : Connection) : c.beginClose.2.Sound := by
  unfold beginClose
  split
  · constructor <;> simp
  · constructor <;> simp
  · next hlife => constructor <;> simp [hlife]
  · next hlife => constructor <;> simp [hlife]

theorem Sound.markOpen {c : Connection} (h : c.Sound) : c.markOpen.2.Sound := by
  unfold Connection.markOpen
  split
  · next hlife =>
      have hcancelled := h.cancelled_iff
      have hreleased := h.released_iff
      constructor <;> simp_all
  · exact h

/-- A change of the queue or its receiving half alone keeps a connection sound. -/
theorem Sound.of_eq {c d : Connection} (h : c.Sound) (hlife : d.lifecycle = c.lifecycle)
    (hcancelled : d.cancelled = c.cancelled) (hheld : d.senderHeld = c.senderHeld) : d.Sound where
  cancelled_iff := by rw [hcancelled, hlife, h.cancelled_iff]
  released_iff := by rw [hheld, hlife, h.released_iff]

/-- An offer changes nothing but the queue. -/
theorem deliver_snd (envelope : Envelope) (c : Connection) :
    (c.deliver envelope).2 = { c with queue := (c.deliver envelope).2.queue } := by
  unfold deliver
  split <;> rfl

/-- Receiving changes nothing but the queue. -/
theorem receive_snd (c : Connection) :
    c.receive.2 = { c with queue := c.receive.2.queue } := by
  unfold receive
  split <;> rfl

theorem Sound.apply {c : Connection} (h : c.Sound) (change : Change) : (change.apply c).Sound := by
  cases change with
  | markOpen => exact h.markOpen
  | beginClose => exact sound_beginClose c
  | markClosed => exact sound_markClosed c
  | deliver envelope =>
      simp only [Change.apply]
      rw [deliver_snd]
      exact h.of_eq rfl rfl rfl
  | receive =>
      simp only [Change.apply]
      rw [receive_snd]
      exact h.of_eq rfl rfl rfl
  | shutReceiver => exact h.of_eq rfl rfl rfl
  | dropReceiver => exact h.of_eq rfl rfl rfl

/-- An open connection holds the sending half of its queue. -/
theorem Sound.senderHeld_of_opened {c : Connection} (h : c.Sound) (hopen : c.lifecycle = .opened) :
    c.senderHeld = true := by
  have hreleased := h.released_iff
  simp_all

/-- Closing starts once. -/
@[simp]
theorem beginClose_beginClose (c : Connection) :
    c.beginClose.2.beginClose = (false, c.beginClose.2) := by
  rcases c with ⟨_, _, lifecycle, _, _, _, _⟩
  cases lifecycle <;> rfl

/-- Who owns a connection never changes. -/
@[simp]
theorem identity_apply (change : Change) (c : Connection) :
    (change.apply c).identity = c.identity := by
  cases change with
  | markOpen => simp only [Change.apply, markOpen]; split <;> rfl
  | beginClose => simp only [Change.apply, beginClose]; split <;> rfl
  | deliver envelope => simp only [Change.apply]; rw [deliver_snd]
  | receive => simp only [Change.apply]; rw [receive_snd]
  | markClosed | shutReceiver | dropReceiver => rfl

/-- The stages of a lifecycle in their order. -/
def stage (c : Connection) : Nat :=
  match c.lifecycle with
  | .connecting => 0
  | .opened => 1
  | .closing => 2
  | .closed => 3

theorem two_le_stage_iff (c : Connection) :
    2 ≤ c.stage ↔ c.lifecycle = .closing ∨ c.lifecycle = .closed := by
  cases hlife : c.lifecycle <;> simp [stage, hlife]

/-- A lifecycle only moves forward. -/
theorem stage_le_apply (change : Change) (c : Connection) : c.stage ≤ (change.apply c).stage := by
  cases change with
  | markOpen =>
      simp only [Change.apply, markOpen]
      split
      · next hlife => simp [stage, hlife]
      · exact Nat.le_refl _
  | beginClose =>
      simp only [Change.apply, beginClose]
      split
      · next hlife => simp [stage, hlife]
      · next hlife => simp [stage, hlife]
      · exact Nat.le_refl _
      · exact Nat.le_refl _
  | markClosed =>
      simp only [Change.apply, markClosed, stage]
      split <;> omega
  | deliver envelope =>
      simp only [Change.apply]
      rw [deliver_snd]
      exact Nat.le_refl _
  | receive =>
      simp only [Change.apply]
      rw [receive_snd]
      exact Nat.le_refl _
  | shutReceiver | dropReceiver => exact Nat.le_refl _

/-- Pumps that were told to leave are never told to stay. -/
theorem cancelled_apply (change : Change) {c : Connection} (hcancelled : c.cancelled = true) :
    (change.apply c).cancelled = true := by
  cases change with
  | markOpen =>
      simp only [Change.apply, markOpen]
      split <;> exact hcancelled
  | beginClose => exact cancelled_beginClose c
  | markClosed => rfl
  | deliver envelope =>
      simp only [Change.apply]
      rw [deliver_snd]
      exact hcancelled
  | receive =>
      simp only [Change.apply]
      rw [receive_snd]
      exact hcancelled
  | shutReceiver | dropReceiver => exact hcancelled

/-- Only registration opens a connection. -/
theorem opened_of_apply {change : Change} {c : Connection} (hopens : change ≠ .markOpen)
    (hopen : (change.apply c).lifecycle = .opened) : c.lifecycle = .opened := by
  cases change with
  | markOpen => exact absurd rfl hopens
  | beginClose =>
      simp only [Change.apply, beginClose] at hopen
      split at hopen
      · cases hopen
      · cases hopen
      · exact hopen
      · exact hopen
  | markClosed => cases hopen
  | deliver envelope =>
      simp only [Change.apply] at hopen
      rw [deliver_snd] at hopen
      exact hopen
  | receive =>
      simp only [Change.apply] at hopen
      rw [receive_snd] at hopen
      exact hopen
  | shutReceiver | dropReceiver => exact hopen

end Connection

/-- Something done to a switchboard in one piece. -/
inductive Act where
  | connect (identity : Identity) (capacity : Nat)
  | add (h : Handle)
  | remove (h : Handle)
  | drain
  | change (h : Handle) (change : Connection.Change)

namespace Switchboard

/-- The switchboard after an act. -/
def act (board : Switchboard) : Act → Switchboard
  | .connect identity capacity => (board.connect identity capacity).2
  | .add h => (board.add h).2
  | .remove h => (board.remove h).2
  | .drain => board.drain.2
  | .change h change => board.modify h change.apply

/-- A switchboard that came about by acts. -/
inductive Reachable : Switchboard → Prop
  | empty (policy : OverflowPolicy) : Reachable (.empty policy)
  | act {board : Switchboard} (act : Act) (h : Reachable board) : Reachable (board.act act)

/-- One switchboard came about from another by acts. -/
inductive Acted (start : Switchboard) : Switchboard → Prop
  | refl : Acted start start
  | act {board : Switchboard} (act : Act) (h : Acted start board) : Acted start (board.act act)

theorem Acted.trans {start between board : Switchboard} (hfirst : start.Acted between)
    (hlast : between.Acted board) : start.Acted board := by
  induction hlast with
  | refl => exact hfirst
  | act next h ih => exact ih.act next

theorem Acted.foldl {start board : Switchboard} (h : start.Acted board) (acts : List Act) :
    start.Acted (acts.foldl Switchboard.act board) := by
  induction acts generalizing board with
  | nil => exact h
  | cons next acts ih => exact ih (.act next h)

theorem acted_closeAll (board : Switchboard) : board.Acted board.closeAll.2 := by
  have hclosed := ((Acted.refl : board.Acted board).act .drain).foldl
    (board.members.map fun h => .change h .beginClose)
  rw [List.foldl_map] at hclosed
  exact hclosed

theorem Reachable.acted {start board : Switchboard} (hstart : start.Reachable)
    (h : start.Acted board) : board.Reachable := by
  induction h with
  | refl => exact hstart
  | act next h ih => exact ih.act next

theorem lt_of_get? {board : Switchboard} {h : Handle} {c : Connection}
    (hget : board.get? h = some c) : h < board.connections.length :=
  (List.getElem?_eq_some_iff.mp hget).1

/-- Every registered name has its connection. -/
theorem exists_get?_of_mem {board : Switchboard} {h : Handle} (hin : h ∈ board.members) :
    ∃ c, board.get? h = some c :=
  ⟨_, List.getElem?_eq_getElem (board.members_lt h hin)⟩

@[simp]
theorem contains_iff (board : Switchboard) (h : Handle) :
    board.contains h = true ↔ h ∈ board.members := by
  simp [contains]

@[simp]
theorem members_modify (board : Switchboard) (h : Handle) (f : Connection → Connection) :
    (board.modify h f).members = board.members := rfl

@[simp]
theorem policy_modify (board : Switchboard) (h : Handle) (f : Connection → Connection) :
    (board.modify h f).policy = board.policy := rfl

@[simp]
theorem length_modify (board : Switchboard) (h : Handle) (f : Connection → Connection) :
    (board.modify h f).connections.length = board.connections.length := by
  simp [modify]

theorem get?_modify (board : Switchboard) (h g : Handle) (f : Connection → Connection) :
    (board.modify h f).get? g = (board.get? g).map fun c => if g = h then f c else c := by
  by_cases hg : g = h
  · subst hg
    simp
  · simp [get?_modify_of_ne _ _ hg, hg]

theorem get?_connect (board : Switchboard) (identity : Identity) (capacity : Nat) (g : Handle) :
    (board.connect identity capacity).2.get? g =
      if g = board.connections.length then some (.new identity capacity) else board.get? g := by
  simp only [connect, get?]
  split
  · next hg => simp [hg]
  · next hg =>
      rcases Nat.lt_or_ge g board.connections.length with hlt | hge
      · rw [List.getElem?_append_left hlt]
      · have hpast : board.connections.length + 1 ≤ g := Nat.lt_of_le_of_ne hge (Ne.symm hg)
        rw [List.getElem?_eq_none (by simpa using hpast), List.getElem?_eq_none hge]

theorem get?_add (board : Switchboard) (h g : Handle) :
    (board.add h).2.get? g =
      (board.get? g).map fun c => if g = h ∧ h ∉ board.members then c.markOpen.2 else c := by
  unfold add
  split
  · next hout =>
      rw [get?_modify]
      simp only [hout.1, not_false_eq_true, and_true]
      rfl
  · next hout =>
      cases hget : board.get? g with
      | none => rfl
      | some c =>
          have hnot : ¬(g = h ∧ h ∉ board.members) := by
            rintro ⟨rfl, hnew⟩
            exact hout ⟨hnew, lt_of_get? hget⟩
          simp [hnot]

theorem mem_add (board : Switchboard) (h g : Handle) :
    g ∈ (board.add h).2.members ↔
      g ∈ board.members ∨ g = h ∧ h < board.connections.length := by
  unfold add
  split
  · next hout => simp [enroll, hout.2]
  · next hout =>
      constructor
      · exact Or.inl
      · rintro (hin | ⟨rfl, hmade⟩)
        · exact hin
        · exact Decidable.byContradiction fun hnew => hout ⟨hnew, hmade⟩

theorem get?_remove (board : Switchboard) (h g : Handle) :
    (board.remove h).2.get? g =
      (board.get? g).map fun c => if g = h ∧ h ∈ board.members then c.beginClose.2 else c := by
  unfold remove
  split
  · next hin =>
      rw [contains_iff] at hin
      rw [beginClose, get?_modify]
      simp only [hin, and_true]
      rfl
  · next hout =>
      rw [contains_iff] at hout
      simp [hout]

theorem mem_remove (board : Switchboard) (h g : Handle) :
    g ∈ (board.remove h).2.members ↔ g ∈ board.members ∧ g ≠ h := by
  rw [members_remove, board.members_nodup.mem_erase_iff, and_comm]

/-- A removal succeeds exactly on a registered connection. -/
theorem remove_fst (board : Switchboard) (h : Handle) :
    (board.remove h).1 = board.contains h := by
  unfold remove
  split
  · next hin => exact hin.symm
  · next hout => exact (Bool.eq_false_iff.mpr hout).symm

theorem get?_foldl_beginClose (board : Switchboard) (handles : List Handle) (g : Handle) :
    (handles.foldl beginClose board).get? g =
      (board.get? g).map fun c => if g ∈ handles then c.beginClose.2 else c := by
  induction handles generalizing board with
  | nil => simp
  | cons h handles ih =>
      rw [List.foldl_cons, ih, beginClose, get?_modify, Option.map_map]
      congr 1
      funext c
      by_cases hg : g = h
      · subst hg
        simp
      · simp [hg]

theorem members_foldl_beginClose (board : Switchboard) (handles : List Handle) :
    (handles.foldl beginClose board).members = board.members := by
  induction handles generalizing board with
  | nil => rfl
  | cons h handles ih => exact ih (board.beginClose h)

theorem length_foldl_beginClose (board : Switchboard) (handles : List Handle) :
    (handles.foldl beginClose board).connections.length = board.connections.length := by
  induction handles generalizing board with
  | nil => rfl
  | cons h handles ih => exact (ih (board.beginClose h)).trans (length_modify board h _)

theorem get?_closeAll (board : Switchboard) (g : Handle) :
    board.closeAll.2.get? g =
      (board.get? g).map fun c => if g ∈ board.members then c.beginClose.2 else c :=
  get?_foldl_beginClose board.drain.2 board.members g

@[simp]
theorem members_closeAll (board : Switchboard) : board.closeAll.2.members = [] :=
  members_foldl_beginClose board.drain.2 board.members

@[simp]
theorem length_connect (board : Switchboard) (identity : Identity) (capacity : Nat) :
    (board.connect identity capacity).2.connections.length = board.connections.length + 1 := by
  simp [connect]

@[simp]
theorem length_add (board : Switchboard) (h : Handle) :
    (board.add h).2.connections.length = board.connections.length := by
  unfold add
  split
  · exact length_modify _ h _
  · rfl

@[simp]
theorem length_remove (board : Switchboard) (h : Handle) :
    (board.remove h).2.connections.length = board.connections.length := by
  unfold remove
  split
  · exact length_modify _ h _
  · rfl

@[simp]
theorem length_closeAll (board : Switchboard) :
    board.closeAll.2.connections.length = board.connections.length :=
  length_foldl_beginClose board.drain.2 board.members

@[simp]
theorem policy_add (board : Switchboard) (h : Handle) : (board.add h).2.policy = board.policy := by
  unfold add
  split <;> rfl

@[simp]
theorem policy_remove (board : Switchboard) (h : Handle) :
    (board.remove h).2.policy = board.policy := by
  unfold remove
  split <;> rfl

/-- What an act does to a connection that is there: nothing, or a call on it. -/
theorem get?_act_of_some {board : Switchboard} {h : Handle} {c : Connection}
    (hget : board.get? h = some c) (act : Act) :
    (board.act act).get? h = some c ∨
      ∃ change : Connection.Change, (board.act act).get? h = some (change.apply c) := by
  cases act with
  | connect identity capacity =>
      left
      rw [Switchboard.act, get?_connect, if_neg (Nat.ne_of_lt (lt_of_get? hget)), hget]
  | add g =>
      rw [Switchboard.act, get?_add, hget]
      by_cases hg : h = g ∧ g ∉ board.members
      · exact .inr ⟨.markOpen, by simp [hg, Connection.Change.apply]⟩
      · exact .inl (by simp [hg])
  | remove g =>
      rw [Switchboard.act, get?_remove, hget]
      by_cases hg : h = g ∧ g ∈ board.members
      · exact .inr ⟨.beginClose, by simp [hg, Connection.Change.apply]⟩
      · exact .inl (by simp [hg])
  | drain => exact .inl hget
  | change g change =>
      rw [Switchboard.act, get?_modify, hget]
      by_cases hg : h = g
      · exact .inr ⟨change, by simp [hg]⟩
      · exact .inl (by simp [hg])

/-- A connection that is there after an act was there before or was made by the act. -/
theorem get?_of_act {board : Switchboard} {h : Handle} {c : Connection} {act : Act}
    (hget : (board.act act).get? h = some c) :
    (∃ before, board.get? h = some before) ∨
      ∃ identity capacity, c = .new identity capacity := by
  cases act with
  | connect identity capacity =>
      rw [Switchboard.act, get?_connect] at hget
      split at hget
      · exact .inr ⟨identity, capacity, (Option.some.inj hget).symm⟩
      · exact .inl ⟨c, hget⟩
  | add g =>
      rw [Switchboard.act, get?_add, Option.map_eq_some_iff] at hget
      exact .inl (hget.imp fun before hbefore => hbefore.1)
  | remove g =>
      rw [Switchboard.act, get?_remove, Option.map_eq_some_iff] at hget
      exact .inl (hget.imp fun before hbefore => hbefore.1)
  | drain => exact .inl ⟨c, hget⟩
  | change g change =>
      rw [Switchboard.act, get?_modify, Option.map_eq_some_iff] at hget
      exact .inl (hget.imp fun before hbefore => hbefore.1)

/-- What every change of a connection keeps, acts keep. -/
theorem Acted.keeps {start board : Switchboard} {kept : Connection → Prop}
    (hkept : ∀ change c, kept c → kept (Connection.Change.apply change c))
    (h : start.Acted board) {g : Handle} {c : Connection} (hget : start.get? g = some c)
    (hc : kept c) : ∃ d, board.get? g = some d ∧ kept d := by
  induction h with
  | refl => exact ⟨c, hget, hc⟩
  | act next h ih =>
      obtain ⟨d, hd, hold⟩ := ih
      rcases get?_act_of_some hd next with hsame | ⟨change, hchange⟩
      · exact ⟨d, hsame, hold⟩
      · exact ⟨_, hchange, hkept change d hold⟩

/-- Acts take no connection away and give none to another owner. -/
theorem Acted.exists_get? {start board : Switchboard} (h : start.Acted board) {g : Handle}
    {c : Connection} (hget : start.get? g = some c) :
    ∃ d, board.get? g = some d ∧ d.identity = c.identity := by
  have hkept : ∀ (change : Connection.Change) (d : Connection), d.identity = c.identity →
      (change.apply d).identity = c.identity := by
    intro change d hidentity
    rw [Connection.identity_apply, hidentity]
  exact h.keeps hkept hget rfl

/-- Acts take no lifecycle back. -/
theorem Acted.stage_le {start board : Switchboard} (h : start.Acted board) {g : Handle}
    {c : Connection} (hget : start.get? g = some c) :
    ∃ d, board.get? g = some d ∧ c.stage ≤ d.stage :=
  h.keeps (fun change d hstage => Nat.le_trans hstage (Connection.stage_le_apply change d)) hget
    (Nat.le_refl _)

/-- On a switchboard that came about by acts every connection is sound. -/
theorem Reachable.sound {board : Switchboard} (hboard : board.Reachable) {h : Handle}
    {c : Connection} (hget : board.get? h = some c) : c.Sound := by
  induction hboard generalizing c with
  | empty policy => simp [get?, Switchboard.empty] at hget
  | @act board act hboard ih =>
      rcases get?_of_act hget with ⟨before, hbefore⟩ | ⟨identity, capacity, rfl⟩
      · rcases get?_act_of_some hbefore act with hsame | ⟨change, hchange⟩
        · rw [hget] at hsame
          exact ih (hsame ▸ hbefore)
        · obtain rfl := Option.some.inj (hget.symm.trans hchange)
          exact (ih hbefore).apply change
      · exact Connection.sound_new identity capacity

end Switchboard

end ListingHub
