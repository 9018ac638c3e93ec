import ListingHub.Proofs.Recipients
import ListingHub.Proofs.Recording

/-!
# A store is what its history says

Everything a store answers follows from the operations that were carried out on it since it was
empty. Rows come from the creations, in their order and numbered from one; the read flag of a row is
the parity of its owner's toggles that came after it. Agents and sessions are the last ones set for
their key, favorites all that were ever added.

A toggle finds its row by the number. Below the limit of numbers no two rows share one, so the first
row that fits is the only one, and flipping it is flipping every row that fits. That makes a toggle
a map over the rows, and a row after a whole history the row after the toggles that were meant for
it.
-/

namespace ListingHub

namespace Notification

/-- What a row was stored for. -/
def draft (row : Notification) : Draft where
  userId := row.userId
  listingId := row.listingId
  kind := row.kind
  message := row.message

/-- The row with its read flag flipped. -/
def flipped (row : Notification) : Notification :=
  { row with isRead := !row.isRead }

/-- The row after so many flips. -/
def turned (times : Nat) (row : Notification) : Notification :=
  { row with isRead := row.isRead ^^ decide (times % 2 = 1) }

@[simp]
theorem turned_zero (row : Notification) : row.turned 0 = row := by
  simp [turned]

/-- One flip more, the first of all. -/
theorem turned_succ (times : Nat) (row : Notification) :
    row.turned (times + 1) = row.flipped.turned times := by
  have hparity : decide ((times + 1) % 2 = 1) = !decide (times % 2 = 1) := by
    rw [← decide_not]
    exact decide_eq_decide.mpr (by omega)
  simp only [turned, flipped, hparity]
  cases row.isRead <;> simp

end Notification

namespace Store

/-- Something that is done to a store or asked of it. -/
inductive Operation where
  | create (draft : Draft) (now : Timestamp)
  | toggleRead (id : NotificationId) (user : UserId)
  | listFor (user : UserId)
  | setAgent (listing : ListingId) (agent : UserId)
  | addFavorite (user : UserId) (listing : ListingId)
  | addSession (token : String) (identity : Identity)
  | agentOf (listing : ListingId)
  | interested (listing : ListingId)
  | resolve (token : String)
  deriving DecidableEq

namespace Operation

/-- The store after an operation; nothing that is asked changes it. -/
def apply (store : Store) : Operation → Store
  | create draft now => (store.create draft now).2
  | toggleRead id user => (store.toggleRead id user).2
  | setAgent listing agent => store.setAgent listing agent
  | addFavorite user listing => store.addFavorite user listing
  | addSession token identity => store.addSession token identity
  | listFor _ | agentOf _ | interested _ | resolve _ => store

/-- What an operation creates. -/
def created? : Operation → Option Draft
  | create draft _ => some draft
  | _ => none

/-- Whom an operation makes the agent of a listing. -/
def agent? (listing : ListingId) : Operation → Option UserId
  | setAgent other agent => if other = listing then some agent else none
  | _ => none

/-- For whom an operation issues a token. -/
def session? (token : String) : Operation → Option Identity
  | addSession other identity => if other = token then some identity else none
  | _ => none

end Operation

/-- The store after all operations of a history. -/
def replay (store : Store) (history : List Operation) : Store :=
  history.foldl Operation.apply store

/-- What was created, in the order of creation. -/
def created (history : List Operation) : List Draft :=
  history.filterMap Operation.created?

/-- What came after the creation of a row that has so many rows before it. -/
def since : Nat → List Operation → List Operation
  | _, [] => []
  | 0, .create .. :: later => later
  | before + 1, .create .. :: later => since before later
  | before, _ :: later => since before later

/-- A row after the toggles of its owner in a history. -/
def settled (history : List Operation) (row : Notification) : Notification :=
  row.turned (history.count (.toggleRead row.id row.userId))

/-- The rows that a history creates when so many rows were stored before. -/
def ledger : Nat → List Operation → List Notification
  | _, [] => []
  | stored, .create draft now :: later =>
      settled later (.ofDraft (.after stored) draft now) :: ledger (stored + 1) later
  | stored, _ :: later => ledger stored later

@[simp]
theorem replay_cons (store : Store) (operation : Operation) (later : List Operation) :
    store.replay (operation :: later) = (operation.apply store).replay later := rfl

section Toggles

variable {id : NotificationId} {user : UserId}

/-- The row after a toggle of a user. -/
def toggled (id : NotificationId) (user : UserId) (row : Notification) : Notification :=
  if row.id = id ∧ row.userId = user then row.flipped else row

/-- No other row has the number, so the first row that fits is the only one. -/
theorem flipFirst_eq_map {rows : List Notification} (h : (rows.map (·.id)).Nodup) :
    flipFirst (fun row => row.id == id && row.userId == user) rows =
      rows.map (toggled id user) := by
  induction rows with
  | nil => rfl
  | cons row rows ih =>
      rw [List.map_cons, List.nodup_cons] at h
      by_cases hfits : row.id = id ∧ row.userId = user
      · have hrest : rows.map (toggled id user) = rows := by
          apply (List.map_congr_left ?_).trans rows.map_id
          intro other hother
          apply if_neg
          rintro ⟨hid, -⟩
          exact h.1 (List.mem_map.mpr ⟨other, hother, hid.trans hfits.1.symm⟩)
        simp [flipFirst, toggled, hfits, hrest, Notification.flipped]
      · have hfalse : (row.id == id && row.userId == user) = false := by
          simpa using hfits
        simp [flipFirst, toggled, hfits, hfalse, ih h.2]

/-- Below the limit no two rows have one number. -/
theorem ids_nodup {store : Store} (h : store.stored < 2 ^ 63) : (store.rows.map (·.id)).Nodup := by
  rw [store.numbered]
  apply List.pairwise_map.mpr
  apply List.nodup_range.imp_of_mem
  intro rows others hrows hothers hne hsame
  rw [List.mem_range] at hrows hothers
  exact hne (NotificationId.after_injective (by omega) (by omega) hsame)

/-- A toggle flips every row that fits. -/
theorem rows_toggleRead {store : Store} (h : store.stored < 2 ^ 63) :
    (store.toggleRead id user).2.rows = store.rows.map (toggled id user) := by
  cases hfind : store.find? id user with
  | some row =>
      simp only [toggleRead, hfind, flip]
      exact flipFirst_eq_map (ids_nodup h)
  | none =>
      simp only [toggleRead, hfind]
      apply ((List.map_congr_left ?_).trans store.rows.map_id).symm
      intro row hrow
      apply if_neg
      simpa using List.find?_eq_none.mp hfind row hrow

@[simp]
theorem stored_toggleRead (store : Store) (id : NotificationId) (user : UserId) :
    (store.toggleRead id user).2.stored = store.stored := by
  unfold toggleRead
  split <;> rfl

/-- A toggle and what follows it do to a row what the history says. -/
theorem settled_toggleRead (later : List Operation) (row : Notification) :
    settled (.toggleRead id user :: later) row = settled later (toggled id user row) := by
  by_cases hfits : row.id = id ∧ row.userId = user
  · obtain ⟨rfl, rfl⟩ := hfits
    simp [settled, toggled, Notification.turned_succ, Notification.flipped]
  · have hother : Operation.toggleRead id user ≠ .toggleRead row.id row.userId := by
      rintro hsame
      injection hsame with hid huser
      exact hfits ⟨hid.symm, huser.symm⟩
    simp [settled, toggled, hfits, hother]

end Toggles

@[simp]
theorem settled_nil (row : Notification) : settled [] row = row := row.turned_zero

/-- After a history the old rows are turned by its toggles, and the rows that it creates follow. -/
theorem rows_replay (history : List Operation) {store : Store}
    (h : store.stored + (created history).length < 2 ^ 63) :
    (store.replay history).rows =
      store.rows.map (settled history) ++ ledger store.stored history := by
  induction history generalizing store with
  | nil => simp [replay, ledger, show settled [] = id from funext settled_nil]
  | cons operation later ih =>
      -- Most operations leave the rows alone.
      have hquiet (hcreated : operation.created? = none)
          (hrows : (operation.apply store).rows = store.rows)
          (hledger : ledger store.stored (operation :: later) = ledger store.stored later)
          (hsettled : settled (operation :: later) = settled later) :
          (store.replay (operation :: later)).rows =
            store.rows.map (settled (operation :: later)) ++
              ledger store.stored (operation :: later) := by
        have hstored : (operation.apply store).stored = store.stored := by
          rw [stored_eq_length, stored_eq_length, hrows]
        rw [replay_cons, ih, hrows, hstored, hledger, hsettled]
        simpa [created, hcreated, hstored] using h
      cases operation with
      | create draft now =>
          have hroom : (store.create draft now).2.stored + (created later).length < 2 ^ 63 := by
            simp only [created, List.filterMap_cons, Operation.created?, List.length_cons] at h
            simp only [create, created]
            omega
          have hold : settled (.create draft now :: later) = settled later := by
            funext row
            simp [settled]
          rw [replay_cons, Operation.apply, ih hroom, rows_create, hold]
          simp [ledger, create]
      | toggleRead id user =>
          have hroom : store.stored + (created later).length < 2 ^ 63 := h
          have hstored := stored_toggleRead store id user
          rw [replay_cons, Operation.apply, ih (by rwa [hstored]), hstored,
            rows_toggleRead (by omega), List.map_map, ledger]
          · simp only [Function.comp_def, ← settled_toggleRead]
          all_goals simp
      | addFavorite user listing =>
          apply hquiet rfl _ rfl (funext fun row => by simp [settled])
          simp only [Operation.apply, addFavorite]
          split <;> rfl
      | setAgent | addSession | listFor | agentOf | interested | resolve =>
          exact hquiet rfl rfl rfl (funext fun row => by simp [settled])

/-- What a history creates keeps its data. -/
theorem drafts_ledger (stored : Nat) (history : List Operation) :
    (ledger stored history).map Notification.draft = created history := by
  fun_induction ledger stored history with
  | case1 => rfl
  | case2 stored draft now later ih =>
      rw [List.map_cons, ih]
      rfl
  | case3 stored operation later hother ih =>
      cases operation with
      | create draft now => exact absurd rfl (hother draft now)
      | _ => exact ih

/-- The rows of a history are numbered on, and the toggles since its creation turn each. -/
theorem getElem?_ledger {stored i : Nat} {history : List Operation} {row : Notification}
    (h : (ledger stored history)[i]? = some row) :
    row.id = .after (stored + i) ∧ (row.isRead = true ↔
      (since i history).count (.toggleRead row.id row.userId) % 2 = 1) := by
  fun_induction ledger stored history generalizing i with
  | case1 => simp at h
  | case2 stored draft now later ih =>
      cases i with
      | zero =>
          obtain rfl : settled later (.ofDraft (.after stored) draft now) = row := by
            simpa using h
          refine ⟨rfl, ?_⟩
          rw [since]
          simp only [settled, Notification.turned, Notification.ofDraft, Bool.false_xor]
          exact decide_eq_true_iff
      | succ i =>
          have hrow := ih (by simpa using h)
          rw [since]
          rwa [Nat.add_right_comm, Nat.add_assoc] at hrow
  | case3 stored operation later hother ih =>
      rw [since]
      · exact ih h
      · exact fun draft now _ hcreate => hother draft now hcreate
      · exact fun _ draft now _ hcreate => hother draft now hcreate

/-- Where an operation that gives something replaces what was kept, the last one counts. -/
theorem newest_replay {α : Type} (kept : Store → Option α) (given : Operation → Option α)
    (h : ∀ store operation, kept (operation.apply store) = (given operation).or (kept store))
    (store : Store) (history : List Operation) :
    kept (store.replay history) = (history.filterMap given).getLast?.or (kept store) := by
  induction history generalizing store with
  | nil => simp [replay]
  | cons operation later ih =>
      rw [replay_cons, ih, h]
      cases hgiven : given operation with
      | none => simp [hgiven]
      | some new =>
          rw [List.filterMap_cons_some hgiven, List.getLast?_cons]
          cases (later.filterMap given).getLast? <;> rfl

/-- An operation makes an agent, or the listing keeps the one it has. -/
theorem lookup_agents_apply (listing : ListingId) (store : Store) (operation : Operation) :
    (operation.apply store).agents.lookup listing =
      (operation.agent? listing).or (store.agents.lookup listing) := by
  cases operation with
  | setAgent other agent =>
      by_cases hsame : other = listing
      · simp [Operation.apply, Operation.agent?, setAgent, hsame]
      · have hfalse : (listing == other) = false := by
          simpa using Ne.symm hsame
        simp [Operation.apply, Operation.agent?, setAgent, hsame, List.lookup_cons, hfalse]
  | toggleRead id user =>
      simp only [Operation.apply, Operation.agent?, toggleRead]
      split <;> rfl
  | addFavorite user listing =>
      simp only [Operation.apply, Operation.agent?, addFavorite]
      split <;> rfl
  | create | listFor | addSession | agentOf | interested | resolve => rfl

/-- An operation issues a token, or it keeps the identity it has. -/
theorem resolve_apply (token : String) (store : Store) (operation : Operation) :
    (operation.apply store).resolve token =
      (operation.session? token).or (store.resolve token) := by
  cases operation with
  | addSession other identity =>
      by_cases hsame : other = token
      · simp [Operation.apply, Operation.session?, resolve, addSession, hsame]
      · have hfalse : (token == other) = false := by
          simpa using Ne.symm hsame
        simp [Operation.apply, Operation.session?, resolve, addSession, hsame, List.lookup_cons,
          hfalse]
  | toggleRead id user =>
      simp only [Operation.apply, Operation.session?, toggleRead]
      split <;> rfl
  | addFavorite user listing =>
      simp only [Operation.apply, Operation.session?, addFavorite]
      split <;> rfl
  | create | listFor | setAgent | agentOf | interested | resolve => rfl

/-- Favorites are added and stay. -/
theorem mem_favorites_replay (history : List Operation) (store : Store) (listing : ListingId)
    (user : UserId) : (listing, user) ∈ (store.replay history).favorites ↔
      .addFavorite user listing ∈ history ∨ (listing, user) ∈ store.favorites := by
  induction history generalizing store with
  | nil => simp [replay]
  | cons operation later ih =>
      rw [replay_cons, ih, List.mem_cons]
      have hstep : (listing, user) ∈ (operation.apply store).favorites ↔
          .addFavorite user listing = operation ∨ (listing, user) ∈ store.favorites := by
        cases operation with
        | addFavorite other place =>
            simp only [Operation.apply, addFavorite, Operation.addFavorite.injEq]
            split
            · next hin =>
                constructor
                · exact .inr
                · rintro (⟨rfl, rfl⟩ | hold)
                  · exact hin
                  · exact hold
            · simp [and_comm, or_comm]
        | toggleRead id user =>
            simp only [Operation.apply, toggleRead, reduceCtorEq, false_or]
            split <;> rfl
        | create | listFor | setAgent | addSession | agentOf | interested | resolve =>
            simp [Operation.apply, create, setAgent, addSession]
      rw [hstep, or_assoc, or_left_comm]

/-- One row of a store was flipped, and nothing else was done to it. -/
structure Flips (i : Nat) (row : Notification) (before after : Store) : Prop where
  rows : after.rows = before.rows.set i row.flipped
  stored : after.stored = before.stored
  agents : after.agents = before.agents
  favorites : after.favorites = before.favorites
  sessions : after.sessions = before.sessions

/-- The number of a row says where it stands. -/
theorem id_of_getElem? {store : Store} {i : Nat} {row : Notification}
    (h : store.rows[i]? = some row) : row.id = .after i ∧ i < store.stored := by
  have hid : (store.rows.map (·.id))[i]? = some row.id := by
    simp [h]
  rw [store.numbered, List.getElem?_map, Option.map_eq_some_iff] at hid
  obtain ⟨place, hat, hafter⟩ := hid
  obtain ⟨hlt, rfl⟩ := List.getElem?_eq_some_iff.mp hat
  rw [List.length_range] at hlt
  exact ⟨by simpa using hafter.symm, hlt⟩

section Owner

variable {store : Store} {i : Nat} {row : Notification} (hroom : store.stored < 2 ^ 63)
  (h : store.rows[i]? = some row)

include hroom h

/-- Below the limit a number is the number of one row. -/
theorem index_unique {j : Nat} {other : Notification} (hother : store.rows[j]? = some other)
    (hsame : other.id = row.id) : j = i := by
  obtain ⟨hid, hi⟩ := id_of_getElem? h
  obtain ⟨hotherid, hj⟩ := id_of_getElem? hother
  exact NotificationId.after_injective (by omega) (by omega)
    (hotherid.symm.trans (hsame.trans hid))

/-- The owner of a row finds it. -/
theorem find?_own : store.find? row.id row.userId = some row := by
  cases hfind : store.find? row.id row.userId with
  | none =>
      have hnone := List.find?_eq_none.mp hfind row (List.mem_of_getElem? h)
      simp at hnone
  | some other =>
      have hfits := List.find?_some hfind
      rw [Bool.and_eq_true, beq_iff_eq] at hfits
      obtain ⟨j, hj⟩ := List.getElem?_of_mem (List.mem_of_find?_eq_some hfind)
      obtain rfl := index_unique hroom h hj hfits.1
      exact hj.symm.trans h

/-- The owner of a row flips it and no other. -/
theorem flips_own : store.Flips i row (store.toggleRead row.id row.userId).2 where
  rows := by
    rw [rows_toggleRead hroom]
    apply List.ext_getElem?
    intro j
    rw [List.getElem?_map, List.getElem?_set]
    split
    · next hsame =>
        subst hsame
        obtain ⟨hlt, rfl⟩ := List.getElem?_eq_some_iff.mp h
        simp [hlt, toggled]
    · next hne =>
        cases hj : store.rows[j]? with
        | none => rfl
        | some other =>
            have hother : other.id ≠ row.id := fun hsame => hne (index_unique hroom h hj hsame).symm
            simp [toggled, hother]
  stored := stored_toggleRead store row.id row.userId
  agents := by simp only [toggleRead, find?_own hroom h, flip]
  favorites := by simp only [toggleRead, find?_own hroom h, flip]
  sessions := by simp only [toggleRead, find?_own hroom h, flip]

end Owner

/-- What a store says of the history that made it from an empty one. -/
structure Tells (history : List Operation) (store : Store) : Prop where
  /-- The rows are those that were created, oldest first. -/
  created : store.rows.map Notification.draft = created history
  /-- They are numbered from one, and a row is read after an odd number of toggles of its owner. -/
  rows : ∀ (i : Nat) row, store.rows[i]? = some row → row.id.key.toInt = (i : Int) + 1 ∧
    (row.isRead = true ↔ (since i history).count (.toggleRead row.id row.userId) % 2 = 1)
  /-- Its owner flips a row and gets it back. -/
  toggled : ∀ (i : Nat) row, store.rows[i]? = some row →
    (store.toggleRead row.id row.userId).1 = .ok row.flipped ∧
      store.Flips i row (store.toggleRead row.id row.userId).2
  /-- Nobody else does. -/
  refused : ∀ id user, (∀ row ∈ store.rows, row.id = id → row.userId ≠ user) →
    store.toggleRead id user = (.error (.notificationNotFound id), store)
  /-- A user is shown the rows that are the user's own, oldest first. -/
  listed : ∀ user, (∀ row, row ∈ store.listFor user ↔ row ∈ store.rows ∧ row.userId = user) ∧
    (store.listFor user).Pairwise fun older newer => older.id.key.toInt < newer.id.key.toInt
  /-- The last agent of a listing counts. -/
  agents : ∀ listing, store.agentOf listing =
    match (history.filterMap (Operation.agent? listing)).getLast? with
    | some agent => .ok agent
    | none => .error (.listingNotFound listing)
  /-- Every user who ever favorited a listing is interested, once and in the order of their keys. -/
  interested : ∀ listing, (∀ user, user ∈ store.interested listing ↔
      .addFavorite user listing ∈ history) ∧
    (store.interested listing).Pairwise fun a b => a.key < b.key
  /-- The last identity of a token counts. -/
  sessions : ∀ token, store.resolve token =
    (history.filterMap (Operation.session? token)).getLast?

/-- Whatever is done to a store that was empty, it tells of all of it, as long as the numbers of its
rows do not run out. -/
theorem tells_replay (history : List Operation) (h : (created history).length < 2 ^ 63 - 1) :
    (empty.replay history).Tells history := by
  have hrows : (empty.replay history).rows = ledger 0 history := by
    have hroom : empty.stored + (created history).length < 2 ^ 63 := by
      simp only [empty]
      omega
    simpa [empty] using rows_replay history hroom
  have hdrafts : (empty.replay history).rows.map Notification.draft = created history := by
    rw [hrows, drafts_ledger]
  have hstored : (empty.replay history).stored = (created history).length := by
    rw [stored_eq_length, ← hdrafts, List.length_map]
  have hroom : (empty.replay history).stored < 2 ^ 63 := by omega
  have hid {i : Nat} {row : Notification} (hrow : (empty.replay history).rows[i]? = some row) :
      row.id.key.toInt = (i : Int) + 1 := by
    obtain ⟨hid, hlt⟩ := id_of_getElem? hrow
    rw [hid]
    exact NotificationId.toInt_after (by omega)
  constructor
  case created => exact hdrafts
  case rows =>
      intro i row hrow
      refine ⟨hid hrow, ?_⟩
      rw [hrows] at hrow
      exact (getElem?_ledger hrow).2
  case toggled =>
      intro i row hrow
      constructor
      · simp only [toggleRead, find?_own hroom hrow, Notification.flipped]
      · exact flips_own hroom hrow
  case refused =>
      intro id user hnot
      have hnone : (empty.replay history).find? id user = none := by
        apply List.find?_eq_none.mpr
        intro row hrow
        simpa using hnot row hrow
      simp only [toggleRead, hnone]
  case listed =>
      intro user
      constructor
      · intro row
        simp [listFor]
      · apply List.Pairwise.filter
        apply List.pairwise_iff_getElem.mpr
        intro i j hi hj hlt
        rw [hid (List.getElem?_eq_getElem hi), hid (List.getElem?_eq_getElem hj)]
        omega
  case agents =>
      intro listing
      have hlast := newest_replay (fun store => store.agents.lookup listing)
        (Operation.agent? listing) (lookup_agents_apply listing) empty history
      simp only [agentOf, hlast]
      cases (history.filterMap (Operation.agent? listing)).getLast? <;> rfl
  case interested =>
      intro listing
      constructor
      · intro user
        rw [mem_interested, mem_favorites_replay]
        simp [empty]
      · exact interested_ascending _ listing
  case sessions =>
      intro token
      calc
        (empty.replay history).resolve token =
            (history.filterMap (Operation.session? token)).getLast?.or (empty.resolve token) :=
          newest_replay (fun store => store.resolve token) (Operation.session? token)
            (resolve_apply token) empty history
        _ = (history.filterMap (Operation.session? token)).getLast? := Option.or_none

/-- A listing of one agent is favorited twice by user 3, who gets two notifications of it. The user
reads the first, somebody else tries to. -/
def twoRows : List Operation :=
  let draft : Draft := ⟨⟨3⟩, ⟨42⟩, .priceDrop, "Price drop"⟩
  [.setAgent ⟨42⟩ ⟨5⟩, .addFavorite ⟨3⟩ ⟨42⟩, .addFavorite ⟨3⟩ ⟨42⟩, .create draft ⟨0, 0⟩,
    .create draft ⟨1, 0⟩, .toggleRead ⟨1⟩ ⟨3⟩, .toggleRead ⟨1⟩ ⟨5⟩, .setAgent ⟨42⟩ ⟨6⟩]

theorem tells_replay_twoRows :
    (created twoRows).length < 2 ^ 63 - 1 ∧
    (empty.replay twoRows).rows.map (fun row => (row.id.key.toInt, row.isRead)) =
      [(1, true), (2, false)] ∧
    ((empty.replay twoRows).toggleRead ⟨1⟩ ⟨5⟩).1 = .error (.notificationNotFound ⟨1⟩) ∧
    (empty.replay twoRows).agentOf ⟨42⟩ = .ok ⟨6⟩ ∧
    ∀ user, user ∈ (empty.replay twoRows).interested ⟨42⟩ ↔
      .addFavorite user ⟨42⟩ ∈ twoRows := by
  have hroom : (created twoRows).length < 2 ^ 63 - 1 := by decide
  have htells := tells_replay twoRows hroom
  refine ⟨hroom, by decide, ?_, htells.agents ⟨42⟩, (htells.interested ⟨42⟩).1⟩
  rw [htells.refused ⟨1⟩ ⟨5⟩ (by decide)]

/-- A toggle that comes before its row finds nothing and turns nothing, so the toggles of the whole
history do not say whether a row is read. -/
theorem earlier_toggle_turns_nothing :
    ¬ ∀ history, (created history).length < 2 ^ 63 - 1 →
      ∀ row ∈ (empty.replay history).rows, (row.isRead = true ↔
        history.count (.toggleRead row.id row.userId) % 2 = 1) := by
  intro hall
  let draft : Draft := ⟨⟨1⟩, ⟨2⟩, .priceDrop, "Price drop"⟩
  have hfirst := hall [.toggleRead ⟨1⟩ ⟨1⟩, .create draft ⟨0, 0⟩] (by decide)
    (.ofDraft ⟨1⟩ draft ⟨0, 0⟩) (by decide)
  exact absurd hfirst (by decide)

end Store

end ListingHub
