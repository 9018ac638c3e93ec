import ListingHub.Json.View
import ListingHub.Proofs.Outcome

/-!
# Records taken from values

A record is taken from an object exactly when each of its fields takes the only member of its name,
or has its own value where no member has that name; members of other names do not matter. It is
taken from a list when each field takes the element at its place and none is left.

No field looks at the member of another one, so that an object is gone through for each field alone
and the row is put together from what comes out.
-/

namespace ListingHub.Json

variable {members : List (String × Json)} {name : String} {value : Json}

/-- No other member has the name of this one. -/
def Sole (m : String × Json) (members : List (String × Json)) : Prop :=
  members.filter (fun other => other.1 == m.1) = [m]

theorem filter_name_eq_nil :
    members.filter (fun m => m.1 == name) = [] ↔ name ∉ members.map (·.1) := by
  simp only [List.filter_eq_nil_iff, beq_iff_eq, List.mem_map, not_exists, not_and]

theorem sole_cons_self {found : Json} :
    Sole (name, found) ((name, value) :: members) ↔
      found = value ∧ name ∉ members.map (·.1) := by
  rw [Sole, List.filter_cons_of_pos (by simp), List.cons.injEq, filter_name_eq_nil]
  exact and_congr_left fun _ => ⟨fun h => (Prod.mk.inj h).2.symm, fun h => by rw [h]⟩

theorem sole_cons_of_ne {other : String} {found : Json} (h : other ≠ name) :
    Sole (other, found) ((name, value) :: members) ↔ Sole (other, found) members := by
  rw [Sole, List.filter_cons_of_neg (by simpa using h.symm)]
  exact Iff.rfl

/-- Where no name comes twice, every member is the only one of its name. -/
theorem sole_iff_mem (hnames : (members.map (·.1)).Nodup) {m : String × Json} :
    Sole m members ↔ m ∈ members := by
  induction members with
  | nil => simp [Sole]
  | cons first members ih =>
      obtain ⟨name, value⟩ := first
      obtain ⟨hfresh, hnames⟩ := List.nodup_cons.mp hnames
      obtain ⟨other, found⟩ := m
      rw [List.mem_cons, Prod.mk.injEq]
      by_cases hname : other = name
      · subst hname
        have hrest : (other, found) ∉ members := fun hmem =>
          hfresh (List.mem_map.mpr ⟨_, hmem, rfl⟩)
        simp [sole_cons_self, hfresh, hrest]
      · simp [sole_cons_of_ne hname, ih hnames, hname]

/-- A field takes the only member of its name, or has its own value where there is none. -/
def Field.TakenFrom (field : Field View) (members : List (String × Json))
    (v : field.Carrier) : Prop :=
  field.name ∉ members.map (·.1) ∧ field.absent = some v ∨
    ∃ value, Sole (field.name, value) members ∧ field.take value = .ok v

/-- A slot that is filled stays as it is and allows no further member of its name; any other takes
the only member to come. -/
def Field.CompletedFrom (field : Field View) (members : List (String × Json)) :
    Option field.Carrier → field.Carrier → Prop
  | some filled, v => field.name ∉ members.map (·.1) ∧ filled = v
  | none, v => field.TakenFrom members v

/-- Each field of a row is taken from the members of an object. -/
def Row.TakenFrom (members : List (String × Json)) :
    (fields : List (Field View)) → Row fields → Prop
  | [], _ => True
  | field :: fields, (v, row) => field.TakenFrom members v ∧ TakenFrom members fields row

/-- Each field of a row is taken from the next element of a list, or has its own value behind the
last one. -/
def Row.TakenInOrder : (fields : List (Field View)) → List Json → Row fields → Prop
  | [], elements, _ => elements = []
  | field :: fields, [], (v, row) => field.absent = some v ∧ TakenInOrder fields [] row
  | field :: fields, element :: elements, (v, row) =>
      field.take element = .ok v ∧ TakenInOrder fields elements row

section Objects

variable {field : Field View} {fields : List (Field View)} {slots : Slots fields}
  {slot : Option field.Carrier} {row : Row fields} {v : field.Carrier}

theorem viewMembers_of_unknown (h : slots.find name = .unknown) :
    viewMembers fields slots ((name, value) :: members) = viewMembers fields slots members := by
  rw [viewMembers, h]

theorem viewMembers_of_taken (h : slots.find name = .taken) :
    viewMembers fields slots ((name, value) :: members) = .error (.repeatedField name) := by
  rw [viewMembers, h]

theorem viewMembers_of_free {fill : View (Slots fields)} (h : slots.find name = .free fill) :
    viewMembers fields slots ((name, value) :: members) =
      fill value >>= fun filled => viewMembers fields filled members := by
  rw [viewMembers, h]

theorem find_of_not_mem (h : name ∉ fields.map (·.name)) : slots.find name = .unknown := by
  induction fields with
  | nil => rfl
  | cons field fields ih =>
      obtain ⟨slot, slots⟩ := slots
      rw [List.map_cons, List.mem_cons, not_or] at h
      rw [Slots.find, if_neg (Ne.symm h.1), ih h.2]

/-- A member of another name changes nothing for a field. -/
theorem completedFrom_cons_of_ne (h : field.name ≠ name) :
    field.CompletedFrom ((name, value) :: members) slot v ↔ field.CompletedFrom members slot v := by
  cases slot <;>
    simp only [Field.CompletedFrom, Field.TakenFrom, sole_cons_of_ne h, List.map_cons,
      List.mem_cons, h, false_or]

theorem not_completedFrom_of_filled {filled : field.Carrier} :
    ¬field.CompletedFrom ((field.name, value) :: members) (some filled) v :=
  fun h => h.1 List.mem_cons_self

/-- The member of a field fills its slot. -/
theorem completedFrom_cons_self :
    field.CompletedFrom ((field.name, value) :: members) none v ↔
      ∃ new, field.take value = .ok new ∧ field.CompletedFrom members (some new) v := by
  constructor
  · rintro (⟨habsent, -⟩ | ⟨found, hsole, htake⟩)
    · exact absurd List.mem_cons_self habsent
    · obtain ⟨rfl, hothers⟩ := sole_cons_self.mp hsole
      exact ⟨v, htake, hothers, rfl⟩
  · rintro ⟨new, htake, hothers, rfl⟩
    exact .inr ⟨value, sole_cons_self.mpr ⟨rfl, hothers⟩, htake⟩

/-- What fills a slot goes on with the slots it fills. -/
theorem bind_fill_eq_ok {α β γ : Type} {fill : View α} {f : α → β}
    {next : β → Except Mismatch γ} {c : γ} :
    ((f <$> fill) value >>= next) = .ok c ↔ ∃ a, fill value = .ok a ∧ next (f a) = .ok c := by
  change (Except.map f (fill value) >>= next) = _ ↔ _
  cases fill value <;> simp [Except.map, bind, Except.bind]

/-- A second member of a field's name is refused. -/
theorem viewMembers_cons_filled {filled : field.Carrier} :
    viewMembers (field :: fields) (some filled, slots) ((field.name, value) :: members) =
      .error (.repeatedField field.name) := by
  apply viewMembers_of_taken
  rw [Slots.find, if_pos rfl]
  rfl

/-- The first member of a field's name fills its slot. -/
theorem viewMembers_cons_none_eq_ok_iff :
    viewMembers (field :: fields) (none, slots) ((field.name, value) :: members) = .ok (v, row) ↔
      ∃ new, field.take value = .ok new ∧
        viewMembers (field :: fields) (some new, slots) members = .ok (v, row) := by
  have hfind : Slots.find field.name (field :: fields) (none, slots) =
      .free ((fun new => (some new, slots)) <$> field.take) := by
    rw [Slots.find, if_pos rfl]
    rfl
  rw [viewMembers_of_free hfind]
  exact bind_fill_eq_ok

theorem viewMembers_nil_eq_ok_iff :
    viewMembers (field :: fields) (slot, slots) [] = .ok (v, row) ↔
      field.CompletedFrom [] slot v ∧ viewMembers fields slots [] = .ok row := by
  change Slots.row? (field :: fields) (slot, slots) = _ ↔ _ ∧ Slots.row? fields slots = _
  rw [Slots.row?]
  cases slot with
  | some filled =>
      have hfield : field.CompletedFrom [] (some filled) v ↔ filled = v := by
        simp [Field.CompletedFrom]
      rw [hfield]
      exact map_pair_eq_ok
  | none =>
      have hfield : field.CompletedFrom [] none v ↔ field.absent = some v := by
        simp [Field.CompletedFrom, Field.TakenFrom, Sole]
      rw [hfield]
      cases field.absent with
      | some own =>
          rw [Option.some.injEq]
          exact map_pair_eq_ok
      | none => simp

/-- The first field of an object and the others do not look at each other's members. -/
theorem viewMembers_cons_eq_ok_iff (hname : field.name ∉ fields.map (·.name)) :
    viewMembers (field :: fields) (slot, slots) members = .ok (v, row) ↔
      field.CompletedFrom members slot v ∧ viewMembers fields slots members = .ok row := by
  induction members generalizing slot slots with
  | nil => exact viewMembers_nil_eq_ok_iff
  | cons first members ih =>
      obtain ⟨name, value⟩ := first
      by_cases heq : field.name = name
      · subst heq
        rw [viewMembers_of_unknown (find_of_not_mem hname)]
        cases slot with
        | some filled =>
            rw [viewMembers_cons_filled]
            exact ⟨nofun, fun h => absurd h.1 not_completedFrom_of_filled⟩
        | none =>
            rw [completedFrom_cons_self, ← exists_and_right]
            refine viewMembers_cons_none_eq_ok_iff.trans (exists_congr fun new => ?_)
            rw [and_assoc]
            exact and_congr_right fun _ => ih
      · rw [completedFrom_cons_of_ne heq]
        cases hfind : slots.find name with
        | unknown =>
            have hfirst : Slots.find name (field :: fields) (slot, slots) = .unknown := by
              rw [Slots.find, if_neg heq, hfind]
            rw [viewMembers_of_unknown hfirst, viewMembers_of_unknown hfind, ih]
        | taken =>
            have hfirst : Slots.find name (field :: fields) (slot, slots) = .taken := by
              rw [Slots.find, if_neg heq, hfind]
            rw [viewMembers_of_taken hfirst, viewMembers_of_taken hfind]
            exact ⟨nofun, fun h => nomatch h.2⟩
        | free fill =>
            have hfirst : Slots.find name (field :: fields) (slot, slots) =
                .free ((fun filled => (slot, filled)) <$> fill) := by
              rw [Slots.find, if_neg heq, hfind]
            rw [viewMembers_of_free hfirst, viewMembers_of_free hfind, bind_eq_ok,
              ← exists_and_left]
            refine bind_fill_eq_ok.trans (exists_congr fun filled => ?_)
            rw [and_left_comm]
            exact and_congr_right fun _ => ih

/-- An object gives each field what its members hold for it. -/
theorem viewMembers_empty_eq_ok_iff (hnames : (fields.map (·.name)).Nodup) :
    viewMembers fields (.empty fields) members = .ok row ↔ Row.TakenFrom members fields row := by
  induction fields with
  | nil =>
      have hall : viewMembers [] () members = .ok () := by
        induction members with
        | nil => rfl
        | cons first members ih => exact (viewMembers_of_unknown rfl).trans ih
      exact ⟨fun _ => trivial, fun _ => hall⟩
  | cons field fields ih =>
      obtain ⟨v, row⟩ := row
      obtain ⟨hname, hnames⟩ := List.nodup_cons.mp hnames
      exact (viewMembers_cons_eq_ok_iff hname).trans (and_congr Iff.rfl (ih hnames))

end Objects

section Lists

variable {tooShort : Nat → Mismatch} {field : Field View} {fields : List (Field View)} {index : Nat}
  {row : Row fields} {v : field.Carrier}

theorem viewElements_nil_eq_ok_iff :
    viewElements tooShort (field :: fields) index [] = .ok (v, row) ↔
      field.absent = some v ∧ viewElements tooShort fields (index + 1) [] = .ok row := by
  obtain ⟨name, carrier, take, absent⟩ := field
  cases absent with
  | some own => exact map_pair_eq_ok.trans (and_congr_left fun _ => Option.some_inj.symm)
  | none => exact ⟨nofun, fun h => nomatch h.1⟩

theorem viewElements_cons_eq_ok_iff {element : Json} {elements : List Json} :
    viewElements tooShort (field :: fields) index (element :: elements) = .ok (v, row) ↔
      field.take element = .ok v ∧
        viewElements tooShort fields (index + 1) elements = .ok row := by
  change (field.take element >>= fun taken =>
    viewElements tooShort fields (index + 1) elements >>= fun others => .ok (taken, others)) = _ ↔ _
  constructor
  · intro h
    obtain ⟨taken, htake, h⟩ := bind_eq_ok.mp h
    obtain ⟨others, hothers, h⟩ := bind_eq_ok.mp h
    cases h
    exact ⟨htake, hothers⟩
  · rintro ⟨htake, hothers⟩
    rw [htake, bind_ok, hothers]
    rfl

/-- A list gives each field the element at its place. -/
theorem viewElements_eq_ok_iff {elements : List Json} :
    viewElements tooShort fields index elements = .ok row ↔
      Row.TakenInOrder fields elements row := by
  induction fields generalizing index elements with
  | nil =>
      cases elements with
      | nil => exact ⟨fun _ => rfl, fun _ => rfl⟩
      | cons element elements => exact ⟨nofun, nofun⟩
  | cons field fields ih =>
      obtain ⟨v, row⟩ := row
      cases elements with
      | nil => exact viewElements_nil_eq_ok_iff.trans (and_congr_right fun _ => ih)
      | cons element elements =>
          exact viewElements_cons_eq_ok_iff.trans (and_congr_right fun _ => ih)

end Lists

/-- A record is taken from the members of an object or from the elements of a list, and from nothing
else. -/
theorem Record.view_eq_ok_iff {α : Type} {record : Record View α}
    (hnames : (record.fields.map (·.name)).Nodup) {value : Json} {a : α} :
    record.view value = .ok a ↔
      ∃ row, record.build row = a ∧
        ((∃ members, value = .obj members ∧ Row.TakenFrom members record.fields row) ∨
          ∃ elements, value = .arr elements ∧ Row.TakenInOrder record.fields elements row) := by
  cases value with
  | obj members =>
      rw [Record.view, map_eq_ok]
      simp [viewMembers_empty_eq_ok_iff hnames, and_comm]
  | arr elements =>
      rw [Record.view, map_eq_ok]
      simp [viewElements_eq_ok_iff, and_comm]
  | null | bool _ | int _ | double _ | str _ => simp [Record.view]

/-- A value gives details: an object has each of them as the only member of its name, whatever other
members it has, and a list has exactly their values in their order. -/
inductive Gives (details : List (String × Json)) : Json → Prop
  | object {members : List (String × Json)} (each : ∀ detail ∈ details, Sole detail members) :
      Gives details (.obj members)
  | list : Gives details (.arr (details.map (·.2)))

theorem gives_obj_iff {details : List (String × Json)} :
    Gives details (.obj members) ↔ ∀ detail ∈ details, Sole detail members := by
  refine ⟨?_, .object⟩
  rintro ⟨each⟩
  exact each

theorem gives_arr_iff {details : List (String × Json)} {elements : List Json} :
    Gives details (.arr elements) ↔ elements = details.map (·.2) := by
  refine ⟨?_, ?_⟩
  · rintro ⟨⟩
    rfl
  · rintro rfl
    exact .list

/-- Each value of a row is what its field takes from one value and from no other, and no field has
a value of its own. -/
inductive Row.Written : {fields : List (Field View)} → Row fields → List (String × Json) → Prop
  | nil : @Written [] () []
  | cons {field : Field View} {fields : List (Field View)} {v : field.Carrier} {row : Row fields}
      {written : Json} {details : List (String × Json)} (needed : field.absent = none)
      (take : ∀ value, field.take value = .ok v ↔ value = written) (others : Written row details) :
      @Written (field :: fields) (v, row) ((field.name, written) :: details)

section Written

variable {fields : List (Field View)} {row : Row fields} {details : List (String × Json)}

theorem takenFrom_iff_sole {field : Field View} {v : field.Carrier} {written : Json}
    (hneeded : field.absent = none) (htake : ∀ value, field.take value = .ok v ↔ value = written) :
    field.TakenFrom members v ↔ Sole (field.name, written) members := by
  simp [Field.TakenFrom, hneeded, htake]

theorem Row.Written.takenFrom_iff (h : Row.Written row details) :
    Row.TakenFrom members fields row ↔ ∀ detail ∈ details, Sole detail members := by
  induction h with
  | nil => exact ⟨fun _ => nofun, fun _ => trivial⟩
  | cons needed take others ih =>
      rw [List.forall_mem_cons]
      exact and_congr (takenFrom_iff_sole needed take) ih

theorem Row.Written.takenInOrder_iff (h : Row.Written row details) {elements : List Json} :
    Row.TakenInOrder fields elements row ↔ elements = details.map (·.2) := by
  induction h generalizing elements with
  | nil => exact Iff.rfl
  | cons needed take others ih =>
      rw [List.map_cons]
      cases elements with
      | nil => simp [Row.TakenInOrder, needed]
      | cons element elements =>
          rw [List.cons.injEq]
          exact and_congr (take element) ih

/-- A row that is written as details is taken from the values that give these. -/
theorem Row.Written.gives_iff (h : Row.Written row details) :
    ((∃ members, value = .obj members ∧ Row.TakenFrom members fields row) ∨
      ∃ elements, value = .arr elements ∧ Row.TakenInOrder fields elements row) ↔
      Gives details value := by
  constructor
  · rintro (⟨members, rfl, hrow⟩ | ⟨elements, rfl, hrow⟩)
    · exact gives_obj_iff.mpr (h.takenFrom_iff.mp hrow)
    · exact gives_arr_iff.mpr (h.takenInOrder_iff.mp hrow)
  · rintro (⟨each⟩ | _)
    · exact .inl ⟨_, rfl, h.takenFrom_iff.mpr each⟩
    · exact .inr ⟨_, rfl, h.takenInOrder_iff.mpr rfl⟩

/-- If the rows of a record are written as the details of what is built from them, the record is
taken from the values that give these. -/
theorem Record.view_eq_ok_iff_gives {α : Type} {record : Record View α} {a : α}
    {details : α → List (String × Json)} (hnames : (record.fields.map (·.name)).Nodup)
    (hwritten : ∀ row : Row record.fields, row.Written (details (record.build row))) :
    record.view value = .ok a ↔ (∃ row, record.build row = a) ∧ Gives (details a) value := by
  rw [Record.view_eq_ok_iff hnames, ← exists_and_right]
  refine exists_congr fun row => and_congr_right ?_
  rintro rfl
  exact (hwritten row).gives_iff

end Written

end ListingHub.Json
