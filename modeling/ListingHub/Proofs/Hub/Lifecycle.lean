import ListingHub.Proofs.Broadcast
import ListingHub.Proofs.Hub.Run

/-!
# Lifecycle and registry agree

How far the read pump of a peer is says where its connection stands. The invariant is `Agrees`:
before it joins, a connection is connecting and unknown to the registry; while it is served, it is
either registered and open or taken off and closing; afterwards it is off the registry for good.
What others do to a connection is to take it off and start closing it, which `Spares` says, and that
keeps the agreement at every stage.
-/

namespace ListingHub

/-- The lifecycle of a connection once closing has started. -/
theorem Connection.lifecycle_beginClose (c : Connection) :
    c.beginClose.2.lifecycle = if c.lifecycle = .closed then .closed else .closing := by
  unfold beginClose
  split <;> simp_all

namespace Switchboard

variable {before between after board : Switchboard} {h g : Handle}

/-- Between two states of the switchboard a connection kept its registration and its lifecycle, or
it was taken off and started to close. -/
def Spares (before after : Switchboard) (h : Handle) : Prop :=
  ∀ d, after.get? h = some d → ∃ c, before.get? h = some c ∧
    ((h ∈ after.members ↔ h ∈ before.members) ∧ d.lifecycle = c.lifecycle ∨
      h ∈ before.members ∧ h ∉ after.members ∧ d.lifecycle = c.beginClose.2.lifecycle)

theorem Spares.refl (board : Switchboard) (h : Handle) : Spares board board h :=
  fun c hget => ⟨c, hget, .inl ⟨Iff.rfl, rfl⟩⟩

theorem Spares.trans (hfirst : Spares before between h) (hlast : Spares between after h) :
    Spares before after h := by
  intro e he
  obtain ⟨d, hd, hlast⟩ := hlast e he
  obtain ⟨c, hc, hfirst⟩ := hfirst d hd
  refine ⟨c, hc, ?_⟩
  rcases hfirst with ⟨hmem, hlife⟩ | ⟨hin, hout, hlife⟩
  · rcases hlast with ⟨hmem', hlife'⟩ | ⟨hin', hout', hlife'⟩
    · exact .inl ⟨hmem'.trans hmem, hlife'.trans hlife⟩
    · refine .inr ⟨hmem.mp hin', hout', ?_⟩
      rw [hlife', Connection.lifecycle_beginClose, hlife, ← Connection.lifecycle_beginClose]
  · rcases hlast with ⟨hmem', hlife'⟩ | ⟨hin', -, -⟩
    · exact .inr ⟨hin, fun hin' => hout (hmem'.mp hin'), hlife'.trans hlife⟩
    · exact absurd hin' hout

/-- A change that shows at a connection as `f` does. -/
theorem spares_of_get?_map {f : Connection → Connection}
    (hget : after.get? h = (before.get? h).map f)
    (hf : ∀ c, before.get? h = some c →
      (h ∈ after.members ↔ h ∈ before.members) ∧ (f c).lifecycle = c.lifecycle ∨
        h ∈ before.members ∧ h ∉ after.members ∧ (f c).lifecycle = c.beginClose.2.lifecycle) :
    Spares before after h := by
  intro d hd
  rw [hget] at hd
  obtain ⟨c, hc, rfl⟩ := Option.map_eq_some_iff.mp hd
  exact ⟨c, hc, hf c hc⟩

/-- A change that leaves a connection alone. -/
theorem spares_of_get?_eq (hget : after.get? h = before.get? h)
    (hmem : h ∈ after.members ↔ h ∈ before.members) : Spares before after h := by
  intro d hd
  rw [hget] at hd
  exact ⟨d, hd, .inl ⟨hmem, rfl⟩⟩

/-- A change that leaves the lifecycle alone spares all connections. -/
theorem spares_modify {f : Connection → Connection} (hf : ∀ c, (f c).lifecycle = c.lifecycle)
    (board : Switchboard) (h g : Handle) : Spares board (board.modify h f) g := by
  apply spares_of_get?_map (board.get?_modify h g f)
  intro c _
  refine .inl ⟨Iff.rfl, ?_⟩
  split
  · exact hf c
  · rfl

/-- A change spares all other connections. -/
theorem spares_modify_of_ne (board : Switchboard) (f : Connection → Connection) (hne : g ≠ h) :
    Spares board (board.modify h f) g :=
  spares_of_get?_eq (get?_modify_of_ne _ _ hne) Iff.rfl

theorem spares_remove (board : Switchboard) (h g : Handle) :
    Spares board (board.remove h).2 g := by
  apply spares_of_get?_map (board.get?_remove h g)
  intro c _
  rw [mem_remove]
  split
  · next hboth =>
      obtain ⟨rfl, hin⟩ := hboth
      exact .inr ⟨hin, by simp, rfl⟩
  · next hnot =>
      refine .inl ⟨⟨fun hin => hin.1, fun hin => ⟨hin, ?_⟩⟩, rfl⟩
      rintro rfl
      exact hnot ⟨rfl, hin⟩

theorem spares_closeAll (board : Switchboard) (g : Handle) : Spares board board.closeAll.2 g := by
  apply spares_of_get?_map (board.get?_closeAll g)
  intro c _
  split
  · next hin => exact .inr ⟨hin, by simp, rfl⟩
  · next hout => exact .inl ⟨by simp [hout], rfl⟩

theorem spares_add_of_ne (board : Switchboard) (hne : g ≠ h) : Spares board (board.add h).2 g := by
  apply spares_of_get?_eq
  · rw [get?_add]
    simp [hne]
  · simp [mem_add, hne]

theorem spares_connect_of_ne (board : Switchboard) (identity : Identity) (capacity : Nat)
    (hne : g ≠ board.connections.length) :
    Spares board (board.connect identity capacity).2 g := by
  apply spares_of_get?_eq
  · rw [get?_connect, if_neg hne]
  · exact Iff.rfl

/-- A step of a broadcast spares all connections, its targets too. -/
theorem spares_broadcast_step (board : Switchboard) (message : Message) (broadcast : Broadcast)
    (g : Handle) : Spares board (broadcast.step message board).2.1 g := by
  unfold Broadcast.step
  split
  · exact .refl board g
  · exact .refl board g
  · next h todo tally =>
      simp only
      rw [offer_board, deliver]
      split
      · exact .refl board g
      · apply spares_modify
        intro c
        rw [Connection.deliver_snd]
  · exact .refl board g
  · next h todo delivered => exact spares_remove board h g
  · exact .refl board g

/-- The teardown of a connection takes it off, whatever it was. -/
theorem not_mem_teardown (board : Switchboard) (h : Handle) :
    h ∉ ((board.remove h).2.beginClose h).members := by
  intro hin
  exact ((mem_remove board h h).mp hin).2 rfl

theorem length_teardown (board : Switchboard) (h : Handle) :
    ((board.remove h).2.beginClose h).connections.length = board.connections.length := by
  rw [beginClose, length_modify, length_remove]

/-- It starts closing the connection. -/
theorem get?_teardown (board : Switchboard) (h : Handle) :
    ((board.remove h).2.beginClose h).get? h = (board.get? h).map fun c => c.beginClose.2 := by
  rw [beginClose, get?_modify_self, get?_remove, Option.map_map]
  congr 1
  funext c
  by_cases hin : h ∈ board.members
  · simp [hin]
  · simp [hin]

theorem spares_teardown_of_ne (board : Switchboard) (hne : g ≠ h) :
    Spares board ((board.remove h).2.beginClose h) g :=
  (spares_remove board h g).trans (spares_modify_of_ne _ _ hne)

end Switchboard

namespace ReadPump

/-- How a connection has to stand while its read pump is at this stage. -/
def Agrees (registered : Prop) (lifecycle : Lifecycle) : ReadPump → Prop
  | joining => ¬registered ∧ lifecycle = .connecting
  | waiting _ | handling .. | leaving _ | crashed =>
      registered ∧ lifecycle = .opened ∨ ¬registered ∧ lifecycle = .closing
  | draining _ => ¬registered ∧ lifecycle = .closing
  | done _ => ¬registered ∧ lifecycle = .closed

variable {reader next : ReadPump} {registered : Prop} {lifecycle : Lifecycle}

theorem Awaits.ne_joining (hawaits : next.Awaits) : next ≠ .joining := by
  cases hawaits <;> simp

/-- A read pump that waits is served, if only by others once it has crashed. -/
theorem Awaits.agrees (hawaits : next.Awaits)
    (hserved : registered ∧ lifecycle = .opened ∨ ¬registered ∧ lifecycle = .closing) :
    next.Agrees registered lifecycle := by
  cases hawaits <;> exact hserved

/-- A move of its own does not take a read pump to another stage. -/
theorem Turns.agrees (hturns : reader.Turns next) (hagrees : reader.Agrees registered lifecycle) :
    next.Agrees registered lifecycle := by
  cases hturns with
  | wait deadline hawaits => exact hawaits.agrees hagrees
  | begin | stop | pause | expire | pushed | conclude => exact hagrees

theorem Turns.ne_joining (hturns : reader.Turns next) : next ≠ .joining := by
  cases hturns with
  | wait deadline hawaits => exact hawaits.ne_joining
  | begin | stop | pause | expire | pushed | conclude => simp

theorem Agrees.registered_iff (hagrees : reader.Agrees registered lifecycle) :
    registered ↔ lifecycle = .opened := by
  cases reader with
  | joining | draining exit | done exit => simp [hagrees.1, hagrees.2]
  | waiting deadline | handling deadline job work | leaving exit | crashed =>
      rcases hagrees with ⟨hin, hlife⟩ | ⟨hout, hlife⟩
      · simp [hin, hlife]
      · simp [hout, hlife]

theorem Agrees.connecting_iff (hagrees : reader.Agrees registered lifecycle) :
    lifecycle = .connecting ↔ reader = .joining := by
  cases reader with
  | joining | draining exit | done exit => simp [hagrees.2]
  | waiting deadline | handling deadline job work | leaving exit | crashed =>
      rcases hagrees with ⟨-, hlife⟩ | ⟨-, hlife⟩ <;> simp [hlife]

theorem Agrees.closed_iff {peer : Peer} (hagrees : peer.reader.Agrees registered lifecycle) :
    lifecycle = .closed ↔ peer.isServed = true := by
  unfold Peer.isServed
  cases hreader : peer.reader with
  | joining | draining exit | done exit =>
      rw [hreader] at hagrees
      simp [hagrees.2]
  | waiting deadline | handling deadline job work | leaving exit | crashed =>
      rw [hreader] at hagrees
      rcases hagrees with ⟨-, hlife⟩ | ⟨-, hlife⟩ <;> simp [hlife]

/-- A connection that others spare stays in agreement with its read pump. -/
theorem Agrees.spared {before after : Switchboard} {h : Handle} {c d : Connection}
    (hspares : before.Spares after h) (hc : before.get? h = some c) (hd : after.get? h = some d)
    (hagrees : reader.Agrees (h ∈ before.members) c.lifecycle) :
    reader.Agrees (h ∈ after.members) d.lifecycle := by
  obtain ⟨c', hc', hkept | ⟨hin, hout, hlife⟩⟩ := hspares d hd
  · obtain rfl := Option.some.inj (hc.symm.trans hc')
    rw [hkept.2]
    simpa only [hkept.1] using hagrees
  · obtain rfl := Option.some.inj (hc.symm.trans hc')
    -- It was registered, so it is being served, and it was open.
    cases reader with
    | joining | draining exit | done exit => exact absurd hin hagrees.1
    | waiting deadline | handling deadline job work | leaving exit | crashed =>
        rcases hagrees with ⟨-, hopen⟩ | hnot
        · refine .inr ⟨hout, ?_⟩
          rw [hlife, Connection.lifecycle_beginClose, hopen]
          simp
        · exact absurd hin hnot.1

/-- After a teardown a read pump that had joined is in agreement still. -/
theorem Agrees.torn {c : Connection} (hjoined : reader ≠ .joining)
    (hagrees : reader.Agrees registered c.lifecycle) :
    reader.Agrees False c.beginClose.2.lifecycle := by
  rw [Connection.lifecycle_beginClose]
  cases reader with
  | joining => exact absurd rfl hjoined
  | waiting deadline | handling deadline job work | leaving exit | crashed =>
      rcases hagrees with ⟨-, hlife⟩ | ⟨-, hlife⟩
      · exact .inr ⟨not_false, by simp [hlife]⟩
      · exact .inr ⟨not_false, by simp [hlife]⟩
  | draining exit | done exit => exact ⟨not_false, by simp [hagrees.2]⟩

end ReadPump

namespace Outline

variable {o next : Outline} {h : Handle} {board : Switchboard} {store : Store}

/-- Every peer has its connection and every connection agrees with its read pump, and no write pump
starts before the read pump has joined. -/
structure Lawful (o : Outline) : Prop where
  readers_length : o.readers.length = o.board.connections.length
  writers_length : o.writers.length = o.board.connections.length
  agrees : ∀ h reader c, o.readers[h]? = some reader → o.board.get? h = some c →
    reader.Agrees (h ∈ o.board.members) c.lifecycle
  waits : ∀ h : Handle, o.readers[h]? = some .joining → o.writers[h]? = some .starting

namespace Lawful

/-- A connection that a change of the switchboard spares. -/
theorem spared (hlawful : o.Lawful) {reader : ReadPump} {d : Connection}
    (hreader : o.readers[h]? = some reader) (hspares : o.board.Spares board h)
    (hd : board.get? h = some d) : reader.Agrees (h ∈ board.members) d.lifecycle := by
  obtain ⟨c, hc, -⟩ := hspares d hd
  exact (hlawful.agrees h reader c hreader hc).spared hspares hc hd

/-- A change of the switchboard that spares all connections. -/
theorem of_spares (hlawful : o.Lawful)
    (hlength : board.connections.length = o.board.connections.length)
    (hspares : ∀ h, o.board.Spares board h) : Lawful { o with board, store } where
  readers_length := hlawful.readers_length.trans hlength.symm
  writers_length := hlawful.writers_length.trans hlength.symm
  agrees := fun h _ _ hreader hd => hlawful.spared hreader (hspares h) hd
  waits := hlawful.waits

/-- A move of a read pump that has joined then, and with it a change of the switchboard that spares
the other connections. -/
theorem move (hlawful : o.Lawful) {reader next : ReadPump} {f : Connection → Connection}
    (hreader : o.readers[h]? = some reader) (hjoined : next ≠ .joining)
    (hlength : board.connections.length = o.board.connections.length)
    (hspares : ∀ g, g ≠ h → o.board.Spares board g)
    (hget : board.get? h = (o.board.get? h).map f)
    (hown : ∀ c, o.board.get? h = some c → reader.Agrees (h ∈ o.board.members) c.lifecycle →
      next.Agrees (h ∈ board.members) (f c).lifecycle) :
    Lawful { o with readers := o.readers.set h next, board, store } where
  readers_length := by simpa using hlawful.readers_length.trans hlength.symm
  writers_length := hlawful.writers_length.trans hlength.symm
  agrees := by
    intro g pump d hpump hd
    by_cases hg : g = h
    · subst hg
      rw [List.getElem?_set_self (List.getElem?_eq_some_iff.mp hreader).1] at hpump
      obtain rfl := Option.some.inj hpump
      rw [hget] at hd
      obtain ⟨c, hc, rfl⟩ := Option.map_eq_some_iff.mp hd
      exact hown c hc (hlawful.agrees g reader c hreader hc)
    · rw [List.getElem?_set_ne (Ne.symm hg)] at hpump
      exact hlawful.spared hpump (hspares g hg) hd
  waits := by
    intro g hjoining
    by_cases hg : g = h
    · subst hg
      rw [List.getElem?_set_self (List.getElem?_eq_some_iff.mp hreader).1] at hjoining
      exact absurd (Option.some.inj hjoining) hjoined
    · rw [List.getElem?_set_ne (Ne.symm hg)] at hjoining
      exact hlawful.waits g hjoining

/-- A write pump that is not waiting for its read pump to join has seen it join. -/
theorem joined (hlawful : o.Lawful) {writer : WritePump} (hwriter : o.writers[h]? = some writer)
    (hready : writer = .starting → o.readers[h]? ≠ some .joining) :
    o.readers[h]? ≠ some .joining := by
  intro hjoining
  have hstarting := hlawful.waits h hjoining
  rw [hwriter] at hstarting
  exact hready (Option.some.inj hstarting) hjoining

/-- A move of the write pump of a read pump that has joined. -/
theorem setWriter (hlawful : o.Lawful) (hjoined : o.readers[h]? ≠ some .joining)
    (writer : WritePump) : Lawful { o with writers := o.writers.set h writer } where
  readers_length := hlawful.readers_length
  writers_length := by simpa using hlawful.writers_length
  agrees := hlawful.agrees
  waits := by
    intro g hjoining
    have hg : h ≠ g := by
      rintro rfl
      exact hjoined hjoining
    rw [List.getElem?_set_ne hg]
    exact hlawful.waits g hjoining

theorem enter (hlawful : o.Lawful) (identity : Identity) (capacity : Nat) :
    Lawful { o with
      readers := o.readers ++ [.joining]
      writers := o.writers ++ [.starting]
      board := (o.board.connect identity capacity).2 } where
  readers_length := by simpa using hlawful.readers_length
  writers_length := by simpa using hlawful.writers_length
  agrees := by
    intro g reader d hreader hd
    by_cases hg : g = o.board.connections.length
    · subst hg
      rw [List.getElem?_append_right (Nat.le_of_eq hlawful.readers_length),
        hlawful.readers_length, Nat.sub_self] at hreader
      rw [Switchboard.get?_connect, if_pos rfl] at hd
      obtain rfl := Option.some.inj hreader
      obtain rfl := Option.some.inj hd
      exact ⟨fun hin => Nat.lt_irrefl _ (o.board.members_lt _ hin), rfl⟩
    · have hspares := o.board.spares_connect_of_ne identity capacity hg
      obtain ⟨c, hc, -⟩ := hspares d hd
      have hold : g < o.readers.length :=
        Nat.lt_of_lt_of_eq (Switchboard.lt_of_get? hc) hlawful.readers_length.symm
      rw [List.getElem?_append_left hold] at hreader
      exact hlawful.spared hreader hspares hd
  waits := by
    intro g hjoining
    rcases Nat.lt_or_ge g o.readers.length with hold | hnew
    · rw [List.getElem?_append_left hold] at hjoining
      have hstarting := hlawful.waits g hjoining
      rw [List.getElem?_append_left (List.getElem?_eq_some_iff.mp hstarting).1]
      exact hstarting
    · rw [List.getElem?_append_right hnew, List.getElem?_singleton] at hjoining
      rw [hlawful.readers_length, ← hlawful.writers_length] at hnew hjoining
      rw [List.getElem?_append_right hnew, List.getElem?_singleton]
      split at hjoining
      · next hlast => rw [if_pos hlast]
      · cases hjoining

/-- A move of a read pump on its own leaves everything in agreement. -/
theorem turn (hlawful : o.Lawful) {reader next : ReadPump}
    (hreader : o.readers[h]? = some reader) (hjoined : next ≠ .joining)
    (hagrees : ∀ registered lifecycle, reader.Agrees registered lifecycle →
      next.Agrees registered lifecycle) :
    Lawful { o with readers := o.readers.set h next, store } :=
  hlawful.move hreader hjoined rfl (fun g _ => .refl o.board g) Option.map_id_apply.symm
    fun _ _ => hagrees _ _

theorem join (hlawful : o.Lawful) {reader : ReadPump} (hreader : o.readers[h]? = some .joining)
    (hawaits : reader.Awaits) :
    Lawful { o with
      readers := o.readers.set h reader
      board := (o.board.add h).2 } := by
  apply hlawful.move hreader hawaits.ne_joining (by simp)
    (fun g hg => o.board.spares_add_of_ne hg) (o.board.get?_add h h)
  rintro c hget ⟨hout, hconnecting⟩
  refine hawaits.agrees (.inl ⟨?_, ?_⟩)
  · exact (Switchboard.mem_add _ _ _).mpr (.inr ⟨rfl, Switchboard.lt_of_get? hget⟩)
  · simp [hout, Connection.markOpen, hconnecting]

/-- The teardown of a read pump. -/
theorem leave (hlawful : o.Lawful) {exit : Exit} (hreader : o.readers[h]? = some (.leaving exit)) :
    Lawful { o with
      readers := o.readers.set h (.draining exit)
      board := (o.board.remove h).2.beginClose h } := by
  apply hlawful.move hreader (by simp) (o.board.length_teardown h)
    (fun g hg => o.board.spares_teardown_of_ne hg) (o.board.get?_teardown h)
  intro c _ hagrees
  refine ⟨o.board.not_mem_teardown h, ?_⟩
  rw [Connection.lifecycle_beginClose]
  rcases hagrees with ⟨-, hlife⟩ | ⟨-, hlife⟩
  · simp [hlife]
  · simp [hlife]

theorem finish (hlawful : o.Lawful) {exit : Exit}
    (hreader : o.readers[h]? = some (.draining exit)) :
    Lawful { o with
      readers := o.readers.set h (.done exit)
      board := o.board.modify h Connection.markClosed } := by
  apply hlawful.move hreader (by simp) (by simp)
    (fun g hg => o.board.spares_modify_of_ne _ hg) (o.board.get?_modify_self h _)
  intro c _ hagrees
  exact ⟨hagrees.1, rfl⟩

/-- The teardown of a write pump, at whatever stage its read pump is. -/
theorem teardown (hlawful : o.Lawful) {exit : Exit}
    (hwriter : o.writers[h]? = some (.leaving exit)) :
    Lawful { o with
      writers := o.writers.set h (.done exit)
      board := ((o.board.remove h).2.beginClose h).modify h Connection.dropReceiver } := by
  have hjoined := hlawful.joined hwriter (by simp)
  have hlength : (((o.board.remove h).2.beginClose h).modify h
      Connection.dropReceiver).connections.length = o.board.connections.length := by
    rw [Switchboard.length_modify, Switchboard.length_teardown]
  have hwrites := hlawful.setWriter hjoined (.done exit)
  have hother : ∀ g, g ≠ h → o.board.Spares
      (((o.board.remove h).2.beginClose h).modify h Connection.dropReceiver) g :=
    fun g hg => (o.board.spares_teardown_of_ne hg).trans
      (Switchboard.spares_modify_of_ne _ _ hg)
  refine ⟨hwrites.readers_length.trans hlength.symm,
    hwrites.writers_length.trans hlength.symm, ?_, hwrites.waits⟩
  intro g reader d hreader hd
  by_cases hg : g = h
  · subst hg
    rw [Switchboard.get?_modify_self, Switchboard.get?_teardown, Option.map_map] at hd
    obtain ⟨c, hc, rfl⟩ := Option.map_eq_some_iff.mp hd
    have htorn := (hlawful.agrees g reader c hreader hc).torn fun hjoining =>
      hjoined (hjoining ▸ hreader)
    rw [← eq_false (o.board.not_mem_teardown g)] at htorn
    exact htorn
  · exact hlawful.spared hreader (hother g hg) hd

end Lawful

/-- Every step keeps lifecycle and registry in agreement. -/
theorem lawful_step (hlawful : o.Lawful) (hstep : Step o next) : next.Lawful := by
  cases hstep with
  | rest => exact hlawful
  | tend hgrows => exact hlawful.of_spares rfl fun g => .refl o.board g
  | remove h =>
      exact hlawful.of_spares (by simp) (o.board.spares_remove h)
  | closeAll =>
      exact hlawful.of_spares (by simp) o.board.spares_closeAll
  | enter identity capacity => exact hlawful.enter identity capacity
  | join hreader hawaits => exact hlawful.join hreader hawaits
  | turn hreader hturns =>
      exact hlawful.turn hreader hturns.ne_joining fun _ _ => hturns.agrees
  | record hreader faults now => exact hlawful.turn hreader (by simp) fun _ _ hagrees => hagrees
  | @push h deadline job recipients broadcast hreader =>
      -- The switchboard changes first, which spares the connection of the job too.
      have hspared : Lawful { o with
          board := (broadcast.step (job.message recipients) o.board).2.1 } :=
        hlawful.of_spares (by simp) (o.board.spares_broadcast_step _ _)
      exact hspared.turn hreader (by simp) fun _ _ hagrees => hagrees
  | leave hreader => exact hlawful.leave hreader
  | finish hreader hwriter hended => exact hlawful.finish hreader
  | write hwriter hready hnext => exact hlawful.setWriter (hlawful.joined hwriter hready) _
  | @receive h writer next change hwriter hready hnext hchange =>
      have hlifecycle : ∀ c, (change.apply c).lifecycle = c.lifecycle := by
        intro c
        rcases hchange with rfl | rfl | rfl
        · rw [Connection.Change.apply, Connection.receive_snd]
        · rfl
        · rfl
      have hspared : Lawful { o with board := o.board.modify h change.apply } :=
        hlawful.of_spares (by simp) (o.board.spares_modify hlifecycle h)
      exact hspared.setWriter (hlawful.joined hwriter hready) next
  | teardown hwriter => exact hlawful.teardown hwriter

end Outline

namespace Hub

theorem lawful_new (settings : Settings) (handlerTimeout : Duration) (store : Store)
    (faults : Faults) (start : Timestamp) (router : Router Handler) :
    ((Hub.new settings handlerTimeout store faults start).withRouter router).outline.Lawful where
  readers_length := rfl
  writers_length := rfl
  agrees := by
    intro h reader c hreader
    cases hreader
  waits := by
    intro h hjoining
    cases hjoining

/-- After every run a connection is registered exactly when it is open. It is connecting until its
read pump joins, it is closed exactly when its peer was served, and from the start of closing on it
is off the registry, its pumps are told to leave and its queue takes nothing more. -/
theorem registered_iff_opened (settings : Settings) (handlerTimeout : Duration) (store : Store)
    (faults : Faults) (start : Timestamp) (router : Router Handler)
    (happenings : List Happening) :
    let hub := ((Hub.new settings handlerTimeout store faults start).withRouter router).run
      happenings
    hub.peers.length = hub.service.board.connections.length ∧
    ∀ h peer c, hub.peers[h]? = some peer → hub.connection? h = some c →
      (h ∈ hub.service.board.members ↔ c.lifecycle = .opened) ∧
      (c.lifecycle = .connecting ↔ peer.reader = .joining) ∧
      (c.lifecycle = .closing ∨ c.lifecycle = .closed →
        h ∉ hub.service.board.members ∧ c.cancelled = true ∧ c.senderHeld = false) ∧
      (c.lifecycle = .closed ↔ peer.isServed = true) := by
  intro hub
  have hlawful : hub.outline.Lawful := outline_run (fun _ _ => Outline.lawful_step)
    (lawful_new settings handlerTimeout store faults start router) happenings
  have hacted := acted_run
    ((Hub.new settings handlerTimeout store faults start).withRouter router) happenings
  have hreachable : hub.service.board.Reachable :=
    .acted (.empty settings.overflowPolicy) hacted
  refine ⟨by simpa [outline] using hlawful.readers_length, ?_⟩
  intro h peer c hpeer hget
  have hagrees := hlawful.agrees h peer.reader c (readers_of_peer hpeer) hget
  have hsound := hreachable.sound hget
  have hregistered : h ∈ hub.service.board.members ↔ c.lifecycle = .opened :=
    hagrees.registered_iff
  refine ⟨hregistered, hagrees.connecting_iff, ?_, hagrees.closed_iff⟩
  intro hclosing
  refine ⟨?_, hsound.cancelled_iff.mpr hclosing, hsound.released_iff.mpr hclosing⟩
  intro hin
  rw [hregistered.mp hin] at hclosing
  rcases hclosing with hlife | hlife <;> cases hlife

/-- A peer that is served to the end while all connections are closed under it. -/
theorem served_connection_closed :
    let happenings := [.accept ⟨⟨1⟩, .user⟩ .direct, .read 0 true, .write 0, .closeAll, .write 0,
      .write 0, .write 0, .read 0 true, .read 0 true, .read 0 true]
    let hub := ((Hub.new .standard ⟨10, 0, by decide, by decide⟩ .empty .none ⟨0, 0⟩).withRouter
      .empty).run happenings
    0 ∉ hub.service.board.members ∧
    ∃ c, hub.connection? 0 = some c ∧ c.lifecycle = .closed ∧ c.cancelled = true := by
  intro happenings hub
  obtain ⟨-, hall⟩ := registered_iff_opened .standard ⟨10, 0, by decide, by decide⟩ .empty
    .none ⟨0, 0⟩ .empty happenings
  obtain ⟨peer, hpeer, hserved⟩ : ∃ peer, hub.peers[0]? = some peer ∧ peer.isServed = true :=
    ⟨_, rfl, rfl⟩
  obtain ⟨c, hget⟩ : ∃ c, hub.connection? 0 = some c := ⟨_, rfl⟩
  obtain ⟨-, -, hclosing, hclosed⟩ := hall 0 peer c hpeer hget
  have hlife := hclosed.mpr hserved
  obtain ⟨hout, hcancelled, -⟩ := hclosing (.inr hlife)
  exact ⟨hout, c, hget, hlife, hcancelled⟩

end Hub

end ListingHub
