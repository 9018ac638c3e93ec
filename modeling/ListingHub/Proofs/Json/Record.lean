import ListingHub.Json.Typed
import ListingHub.Proofs.Json.Quotation

/-!
# The fields that a record is given

The names of the fields that bytes have values for are gathered as the record is read, without its
row. Each value in the row of a record that was read was taken for a field that is given, or is the
field's value when it is absent.
-/

namespace ListingHub.Json

/-- Moves past the value of a member, which is taken if a field has its name. -/
def pastMember (fields : List (Field Reader)) (name : String) (bytes : List UInt8) :
    Except Fault (List UInt8) :=
  match fields.find? fun field => field.name == name with
  | some field => (field.take bytes).map fun (_, rest) => rest
  | none => skipValue bytes

/-- The names of the members of an object, up to its closing brace. -/
def readNames (fields : List (Field Reader)) : Nat → Bool → Reader (List String)
  | 0, _, _ => .error (.before .endInObject [])
  | fuel + 1, first, bytes => do
      match ← nextName first bytes with
      | (none, rest) => return ([], rest)
      | (some name, rest) =>
          let (names, rest) ← readNames fields fuel false (← pastMember fields name (← colon rest))
          return (name :: names, rest)

/-- The names of the fields whose place in a list is taken, `index` of which came before. -/
def readPlaces : List (Field Reader) → (index : Nat) → Reader (List String)
  | [], _, bytes => .ok ([], bytes)
  | field :: fields, index, bytes => do
      let (more, rest) ← nextElement (index == 0) bytes
      if more then
        let (_, rest) ← field.take rest
        let (names, rest) ← readPlaces fields (index + 1) rest
        return (field.name :: names, rest)
      else readPlaces fields (index + 1) rest

/-- The names that a record in JSON text has values for. -/
def Record.given {α : Type} (record : Record Reader α) (bytes : List UInt8) :
    Except Fault (List String) :=
  match skipBlanks bytes with
  | 0x5B :: rest => (readPlaces record.fields 0 rest).map fun (names, _) => names
  | 0x7B :: rest =>
      (readNames record.fields (rest.length + 1) true rest).map fun (names, _) => names
  | _ => .ok []

/-- Some bytes were taken as the value of a field. -/
def Field.Took (field : Field Reader) (value : field.Carrier) : Prop :=
  ∃ bytes rest, field.take bytes = .ok (value, rest)

/-- Each value was taken for a field with one of the names. -/
def Slots.Follows (names : List String) : (fields : List (Field Reader)) → Slots fields → Prop
  | [], _ => True
  | field :: fields, (value, slots) =>
      (∀ v ∈ value, field.name ∈ names ∧ field.Took v) ∧ Follows names fields slots

/-- Each value was taken for a field with one of the names, or is the field's own. -/
def Row.Follows (names : List String) : (fields : List (Field Reader)) → Row fields → Prop
  | [], _ => True
  | field :: fields, (value, row) =>
      (field.name ∈ names ∧ field.Took value ∨ field.absent = some value) ∧
        Follows names fields row

variable {names more : List String}

theorem Slots.follows_empty (fields : List (Field Reader)) :
    Slots.Follows names fields (Slots.empty fields) := by
  induction fields with
  | nil => trivial
  | cons field fields ih => exact ⟨fun _ => nofun, ih⟩

theorem Slots.Follows.mono {fields : List (Field Reader)} {slots : Slots fields}
    (h : Slots.Follows names fields slots) (hsub : names ⊆ more) :
    Slots.Follows more fields slots := by
  induction fields with
  | nil => trivial
  | cons field fields ih =>
      exact ⟨fun v hv => (h.1 v hv).imp_left fun hname => hsub hname, ih h.2⟩

theorem Row.Follows.mono {fields : List (Field Reader)} {row : Row fields}
    (h : Row.Follows names fields row) (hsub : names ⊆ more) : Row.Follows more fields row := by
  induction fields with
  | nil => trivial
  | cons field fields ih => exact ⟨h.1.imp_left (.imp_left fun hname => hsub hname), ih h.2⟩

/-- A name without a slot is no field's. -/
theorem find?_of_unknown {fields : List (Field Reader)} {slots : Slots fields} {name : String}
    (h : slots.find name = .unknown) : (fields.find? fun field => field.name == name) = none := by
  induction fields with
  | nil => rfl
  | cons field fields ih =>
      obtain ⟨value, slots⟩ := slots
      rw [Slots.find] at h
      split at h
      · split at h <;> cases h
      · next hname =>
          rw [List.find?_cons_of_neg (by simpa using hname)]
          split at h
          · next hrest => exact ih hrest
          · cases h
          · cases h

/-- A free slot is filled with what its field takes. -/
theorem follows_of_free {fields : List (Field Reader)} {slots filled : Slots fields}
    {name : String} {fill : Reader (Slots fields)} (h : slots.find name = .free fill)
    (hslots : Slots.Follows names fields slots) {bytes rest : List UInt8}
    (hfill : fill bytes = .ok (filled, rest)) :
    pastMember fields name bytes = .ok rest ∧ Slots.Follows (name :: names) fields filled := by
  induction fields with
  | nil => cases h
  | cons field fields ih =>
      obtain ⟨value, slots⟩ := slots
      rw [Slots.find] at h
      split at h
      · next hname =>
          split at h
          · cases h
          cases h
          obtain ⟨⟨new, next⟩, htake, heq⟩ := map_eq_ok.mp hfill
          cases heq
          constructor
          · rw [pastMember, List.find?_cons_of_pos (by simpa using hname)]
            simp only [htake]
            rfl
          · refine ⟨fun v hv => ?_, hslots.2.mono (List.subset_cons_self _ _)⟩
            cases hv
            exact ⟨hname ▸ List.mem_cons_self, _, _, htake⟩
      · next hname =>
          split at h
          · cases h
          · cases h
          · next fill' hrest =>
              cases h
              obtain ⟨⟨others, next⟩, hothers, heq⟩ := map_eq_ok.mp hfill
              cases heq
              obtain ⟨hpast, hfollows⟩ := ih hrest hslots.2 hothers
              constructor
              · rw [pastMember, List.find?_cons_of_neg (by simpa using hname)]
                exact hpast
              · exact ⟨fun v hv => (hslots.1 v hv).imp_left (List.mem_cons_of_mem _), hfollows⟩

/-- A row of slots has what they hold, and elsewhere the fields' own values. -/
theorem follows_of_row? {fields : List (Field Reader)} {slots : Slots fields} {row : Row fields}
    (h : slots.row? = .ok row) (hslots : Slots.Follows names fields slots) :
    Row.Follows names fields row := by
  induction fields with
  | nil => trivial
  | cons field fields ih =>
      obtain ⟨value, slots⟩ := slots
      rw [Slots.row?] at h
      split at h
      · next taken htaken =>
          obtain ⟨others, hothers, heq⟩ := map_eq_ok.mp h
          cases heq
          refine ⟨?_, ih hothers hslots.2⟩
          cases value with
          | none => exact .inr htaken
          | some =>
              cases htaken
              exact .inl (hslots.1 _ rfl)
      · cases h

/-- One name, then the others. -/
theorem readNames_cons {fields : List (Field Reader)} {first : Bool} {name : String}
    {bytes after value next : List UInt8} (hname : nextName first bytes = .ok (some name, after))
    (hcolon : colon after = .ok value) (hpast : pastMember fields name value = .ok next)
    (fuel : Nat) :
    readNames fields (fuel + 1) first bytes =
      (readNames fields fuel false next).map fun (others, rest) => (name :: others, rest) := by
  rw [readNames, hname, bind_ok]
  dsimp only
  rw [hcolon, bind_ok, hpast, bind_ok]
  cases readNames fields fuel false next <;> rfl

/-- One member fills its slot, then the others. -/
theorem readSlots_cons {fields : List (Field Reader)} {first : Bool} {name : String}
    {bytes after value next : List UInt8} {slots filled : Slots fields}
    {fill : Reader (Slots fields)} (hname : nextName first bytes = .ok (some name, after))
    (hcolon : colon after = .ok value) (hfind : slots.find name = .free fill)
    (hfill : fill value = .ok (filled, next)) (fuel : Nat) :
    readSlots fields (fuel + 1) first slots bytes = readSlots fields fuel false filled next := by
  rw [readSlots, hname, bind_ok]
  simp only [hfind]
  rw [hcolon, bind_ok, hfill, bind_ok]

/-- The members of an object that was read have names, and its row follows them. -/
theorem follows_of_readSlots {fields : List (Field Reader)} {fuel : Nat} {first : Bool}
    {slots : Slots fields} {bytes rest : List UInt8} {row : Row fields}
    (h : readSlots fields fuel first slots bytes = .ok (.ok row, rest))
    (hslots : Slots.Follows names fields slots) :
    ∃ others, readNames fields fuel first bytes = .ok (others, rest) ∧
      Row.Follows (others ++ names) fields row := by
  induction fuel generalizing first slots bytes names with
  | zero => cases h
  | succ fuel ih =>
      rw [readSlots] at h
      obtain ⟨⟨name, after⟩, hname, h⟩ := bind_eq_ok.mp h
      cases name with
      | none =>
          obtain ⟨hrow, rfl⟩ := Prod.mk.inj (Except.ok.inj h)
          refine ⟨[], ?_, follows_of_row? hrow hslots⟩
          rw [readNames, hname]
          rfl
      | some name =>
          -- whatever is done with the member, the rest is read with one more name before it
          have hmore {value next : List UInt8} {slots : Slots fields}
              (hcolon : colon after = .ok value) (hpast : pastMember fields name value = .ok next)
              (hslots : Slots.Follows (name :: names) fields slots)
              (h : readSlots fields fuel false slots next = .ok (.ok row, rest)) :
              ∃ others, readNames fields (fuel + 1) first bytes = .ok (others, rest) ∧
                Row.Follows (others ++ names) fields row := by
            obtain ⟨others, hothers, hfollows⟩ := ih h hslots
            refine ⟨name :: others, ?_, hfollows.mono List.perm_middle.subset⟩
            rw [readNames_cons hname hcolon hpast, hothers]
            rfl
          dsimp only at h
          split at h
          · next hfind =>
              obtain ⟨value, hcolon, h⟩ := bind_eq_ok.mp h
              obtain ⟨next, hskip, h⟩ := bind_eq_ok.mp h
              refine hmore hcolon ?_ (hslots.mono (List.subset_cons_self _ _)) h
              rw [pastMember, find?_of_unknown hfind]
              exact hskip
          · cases h
          · next fill hfind =>
              obtain ⟨value, hcolon, h⟩ := bind_eq_ok.mp h
              obtain ⟨⟨filled, next⟩, hfill, h⟩ := bind_eq_ok.mp h
              obtain ⟨hpast, hfollows⟩ := follows_of_free hfind hslots hfill
              exact hmore hcolon hpast hfollows h

/-- The places of a list that was read are those of fields, and its row follows them. -/
theorem follows_of_readRow {tooShort : Nat → Mismatch} {fields : List (Field Reader)}
    {index : Nat} {bytes rest : List UInt8} {row : Row fields}
    (h : readRow tooShort fields index bytes = .ok (.ok row, rest)) :
    ∃ places, readPlaces fields index bytes = .ok (places, rest) ∧
      Row.Follows places fields row := by
  induction fields generalizing index bytes with
  | nil =>
      cases h
      exact ⟨[], rfl, trivial⟩
  | cons field fields ih =>
      rw [readRow] at h
      obtain ⟨⟨present, after⟩, hnext, h⟩ := bind_eq_ok.mp h
      rw [readPlaces, hnext, bind_ok]
      cases present with
      | true =>
          obtain ⟨⟨value, after'⟩, htake, h⟩ := bind_eq_ok.mp h
          obtain ⟨⟨others, after''⟩, hothers, h⟩ := bind_eq_ok.mp h
          obtain ⟨hrow, rfl⟩ := Prod.mk.inj (Except.ok.inj h)
          obtain ⟨others, rfl, heq⟩ := map_eq_ok.mp hrow
          cases heq
          obtain ⟨places, hplaces, hfollows⟩ := ih hothers
          refine ⟨field.name :: places, ?_, .inl ⟨List.mem_cons_self, _, _, htake⟩,
            hfollows.mono (List.subset_cons_self _ _)⟩
          simp only [↓reduceIte]
          rw [htake, bind_ok, hplaces]
          rfl
      | false =>
          simp only [Bool.false_eq_true, ↓reduceIte] at h ⊢
          split at h
          · next value habsent =>
              obtain ⟨⟨others, after''⟩, hothers, h⟩ := bind_eq_ok.mp h
              obtain ⟨hrow, rfl⟩ := Prod.mk.inj (Except.ok.inj h)
              obtain ⟨others, rfl, heq⟩ := map_eq_ok.mp hrow
              cases heq
              obtain ⟨places, hplaces, hfollows⟩ := ih hothers
              exact ⟨places, hplaces, .inr habsent, hfollows⟩
          · cases h

theorem refuse_ne_ok {α : Type} {expected : String} {bytes : List UInt8} (a : α)
    (rest : List UInt8) : refuse expected bytes ≠ .ok (a, rest) := by
  intro h
  unfold refuse at h
  split at h
  · cases h
  · cases h
  · obtain ⟨_, -, h⟩ := bind_eq_ok.mp h
    cases h

/-- What a record that was read is given is known, and the record is built of a row that follows. -/
theorem Record.follows_of_read {α : Type} {record : Record Reader α} {bytes rest : List UInt8}
    {a : α} (h : record.read bytes = .ok (a, rest)) :
    ∃ names row, record.given bytes = .ok names ∧ Row.Follows names record.fields row ∧
      a = record.build row := by
  unfold Record.read at h
  split at h
  · cases h
  · next list hskip =>
      obtain ⟨⟨row, after⟩, hrow, h⟩ := bind_eq_ok.mp h
      cases row with
      | error => cases h
      | ok row =>
          obtain ⟨next, -, h⟩ := bind_eq_ok.mp h
          cases h
          obtain ⟨places, hplaces, hfollows⟩ := follows_of_readRow hrow
          refine ⟨places, row, ?_, hfollows, rfl⟩
          rw [Record.given, hskip]
          simp only [hplaces]
          rfl
  · next object hskip =>
      obtain ⟨⟨row, after⟩, hrow, h⟩ := bind_eq_ok.mp h
      cases row with
      | error => cases h
      | ok row =>
          cases h
          obtain ⟨names, hnames, hfollows⟩ :=
            follows_of_readSlots hrow (@Slots.follows_empty [] record.fields)
          rw [List.append_nil] at hfollows
          refine ⟨names, row, ?_, hfollows, rfl⟩
          rw [Record.given, hskip]
          simp only [hnames]
          rfl
  · exact absurd h (refuse_ne_ok a rest)

end ListingHub.Json
