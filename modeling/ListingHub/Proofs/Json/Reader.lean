import ListingHub.Json.Reader
import ListingHub.Proofs.Json.Basic
import ListingHub.Proofs.Json.Number
import ListingHub.Proofs.Json.Quotation
import ListingHub.Proofs.Json.Writer

/-!
# Values read back

What is read fits: its integers are within their bounds, its containers within the depth, and the
names of its objects in order. A value that fits and holds no double is read back from its compact
text by the same reader, whatever bytes follow that no number goes on with.
-/

namespace ListingHub.Json

open Utf8 (spell)

/-- A value as it can be read with containers `depth` deep. -/
def Fits : Nat → Json → Prop
  | _, .null | _, .bool _ | _, .str _ | _, .double _ => True
  | _, .int value => IsNumber (.int value)
  | 0, .arr _ | 0, .obj _ => False
  | depth + 1, .arr elements => ∀ element ∈ elements, Fits depth element
  | depth + 1, .obj members => Ordered members ∧ ∀ m ∈ members, Fits depth m.2

/-- The names of a value that was read come in the order of their bytes. -/
theorem Fits.ascends {depth : Nat} {value : Json} (h : Fits depth value) : value.Ascends := by
  intro members inside
  induction depth generalizing value with
  | zero => cases inside <;> exact h.elim
  | succ depth ih =>
      cases inside with
      | self => exact h.1.imp Utf8.ofText_lt
      | element mem inside => exact ih (h _ mem) inside
      | member mem inside => exact ih (h.2 _ mem) inside

theorem IsNumber.fits {value : Json} (h : value.IsNumber) (depth : Nat) : Fits depth value := by
  cases value <;> cases depth <;> first | exact h | exact h.elim

theorem readWord_eq {value v : Json} {letters bytes rest : List UInt8}
    (h : readWord value letters bytes = .ok (v, rest)) : v = value := by
  induction letters generalizing bytes with
  | nil =>
      cases h
      rfl
  | cons letter letters ih =>
      cases bytes with
      | nil => cases h
      | cons b bytes =>
          rw [readWord] at h
          split at h
          · exact ih h
          · cases h

/-- A value that is no container fits any depth. -/
theorem fits_of_readScalar {bytes rest : List UInt8} {v : Json}
    (h : readScalar bytes = .ok (v, rest)) (depth : Nat) : Fits depth v := by
  unfold readScalar at h
  split at h
  · cases h
  · rw [readWord_eq h]
    cases depth <;> trivial
  · rw [readWord_eq h]
    cases depth <;> trivial
  · rw [readWord_eq h]
    cases depth <;> trivial
  · obtain ⟨text, -, h⟩ := map_eq_ok.mp h
    cases h
    cases depth <;> trivial
  · split at h
    · exact (isNumber_of_readNumber h).fits depth
    · cases h

/-- What the elements of a list are comes from the reader of one. -/
theorem forall_of_readElements {P : Json → Prop} {value : Reader Json}
    (hvalue : ∀ {bytes rest v}, value bytes = .ok (v, rest) → P v) {fuel : Nat} {first : Bool}
    {bytes rest : List UInt8} {elements : List Json}
    (h : readElements value fuel first bytes = .ok (elements, rest)) :
    ∀ element ∈ elements, P element := by
  induction fuel generalizing first bytes rest elements with
  | zero => cases h
  | succ fuel ih =>
      rw [readElements] at h
      obtain ⟨⟨more, next⟩, -, h⟩ := bind_eq_ok.mp h
      dsimp only at h
      split at h
      · obtain ⟨⟨element, next⟩, helement, h⟩ := bind_eq_ok.mp h
        obtain ⟨⟨others, next⟩, hothers, h⟩ := bind_eq_ok.mp h
        cases h
        exact List.forall_mem_cons.mpr ⟨hvalue helement, ih hothers⟩
      · cases h
        exact fun element hmem => absurd hmem List.not_mem_nil

/-- What the members of an object are comes from the reader of one. -/
theorem forall_of_readMembers {P : Json → Prop} {value : Reader Json}
    (hvalue : ∀ {bytes rest v}, value bytes = .ok (v, rest) → P v) {fuel : Nat} {first : Bool}
    {bytes rest : List UInt8} {members : List (String × Json)}
    (h : readMembers value fuel first bytes = .ok (members, rest)) :
    ∀ m ∈ members, P m.2 := by
  induction fuel generalizing first bytes rest members with
  | zero => cases h
  | succ fuel ih =>
      rw [readMembers] at h
      obtain ⟨⟨name, next⟩, -, h⟩ := bind_eq_ok.mp h
      cases name with
      | none =>
          cases h
          exact fun m hmem => absurd hmem List.not_mem_nil
      | some name =>
          obtain ⟨next, -, h⟩ := bind_eq_ok.mp h
          obtain ⟨⟨member, next⟩, hmember, h⟩ := bind_eq_ok.mp h
          obtain ⟨⟨others, next⟩, hothers, h⟩ := bind_eq_ok.mp h
          cases h
          exact List.forall_mem_cons.mpr ⟨hvalue hmember, ih hothers⟩

/-- A value that is read fits the depth it was read with. -/
theorem fits_of_readValue {depth : Nat} {bytes rest : List UInt8} {v : Json}
    (h : readValue depth bytes = .ok (v, rest)) : Fits depth v := by
  induction depth generalizing bytes rest v with
  | zero =>
      rw [readValue] at h
      split at h
      · cases h
      · cases h
      · exact fits_of_readScalar h 0
  | succ depth ih =>
      rw [readValue] at h
      split at h
      · obtain ⟨⟨elements, next⟩, helements, h⟩ := map_eq_ok.mp h
        cases h
        exact forall_of_readElements ih helements
      · obtain ⟨⟨members, next⟩, hmembers, h⟩ := map_eq_ok.mp h
        cases h
        have hfits := forall_of_readMembers ih hmembers
        refine ⟨Ordered.gather List.Pairwise.nil members, fun m hm => ?_⟩
        exact hfits m ((mem_gather hm).resolve_left List.not_mem_nil)
      · exact fits_of_readScalar h _

theorem skipBlanks_cons {b : UInt8} (h : isBlank b = false) (bytes : List UInt8) :
    skipBlanks (b :: bytes) = b :: bytes := by
  rw [skipBlanks, List.dropWhile_cons_of_neg (by simp [h])]

/-- A reader reads the text of a value back, whatever follows that no number goes on with. -/
structure ReadsBack (read : Reader Json) (value : Json) : Prop where
  begins : ∃ b bytes, spell value.write = b :: bytes ∧ isBlank b = false ∧ b ≠ 0x5D
  back : ∀ rest, Apart rest → read (spell value.write ++ rest) = .ok (value, rest)

/-- Bytes that begin neither a list nor an object are read as what is no container. -/
theorem readValue_of_scalar {b : UInt8} (hblank : isBlank b = false) (hlist : b ≠ 0x5B)
    (hobject : b ≠ 0x7B) (depth : Nat) (bytes : List UInt8) :
    readValue depth (b :: bytes) = readScalar (b :: bytes) := by
  cases depth <;>
  · rw [readValue, skipBlanks_cons hblank]
    split
    · next heq => exact absurd (List.cons.inj heq).1 hlist
    · next heq => exact absurd (List.cons.inj heq).1 hobject
    · rfl

theorem readsBack_of_scalar {depth : Nat} {value : Json} {b : UInt8} {bytes : List UInt8}
    (hspelled : spell value.write = b :: bytes)
    (hb : isBlank b = false ∧ b ≠ 0x5B ∧ b ≠ 0x7B ∧ b ≠ 0x5D)
    (hread : ∀ rest, Apart rest → readScalar (b :: bytes ++ rest) = .ok (value, rest)) :
    ReadsBack (readValue depth) value where
  begins := ⟨b, bytes, hspelled, hb.1, hb.2.2.2⟩
  back rest hrest := by
    rw [hspelled, List.cons_append, readValue_of_scalar hb.1 hb.2.1 hb.2.2.1]
    exact hread rest hrest

/-- A minus sign or a digit begins a number and nothing else. -/
theorem ne_of_number {b other : UInt8} (h : b = 0x2D ∨ isDigit b = true)
    (hother : other ≠ 0x2D ∧ isDigit other = false) : b ≠ other := by
  rintro rfl
  rcases h with h | h
  · exact hother.1 h
  · rw [hother.2] at h
    cases h

theorem readScalar_of_number {b : UInt8} (h : b = 0x2D ∨ isDigit b = true) (bytes : List UInt8) :
    readScalar (b :: bytes) = readNumber (b :: bytes) := by
  unfold readScalar
  split
  · next heq => cases heq
  · next heq => exact absurd (List.cons.inj heq).1 (ne_of_number h (by decide))
  · next heq => exact absurd (List.cons.inj heq).1 (ne_of_number h (by decide))
  · next heq => exact absurd (List.cons.inj heq).1 (ne_of_number h (by decide))
  · next heq => exact absurd (List.cons.inj heq).1 (ne_of_number h (by decide))
  · next heq =>
      cases heq
      rw [if_pos h]

theorem readsBack_int {value : Int} (h : IsNumber (.int value)) (depth : Nat) :
    ReadsBack (readValue depth) (.int value) := by
  obtain ⟨b, bytes, hspelled, hb, hread⟩ := readNumber_toString h
  have hother {other : UInt8} (hother : other ≠ 0x2D ∧ isDigit other = false) : b ≠ other :=
    ne_of_number hb hother
  refine readsBack_of_scalar (by rw [write, hspelled]) ⟨?_, ?_, ?_, ?_⟩ fun rest hrest => ?_
  · simp only [isBlank, Bool.or_eq_false_iff, beq_eq_false_iff_ne]
    exact ⟨⟨⟨hother (by decide), hother (by decide)⟩, hother (by decide)⟩, hother (by decide)⟩
  · exact hother (by decide)
  · exact hother (by decide)
  · exact hother (by decide)
  · rw [List.cons_append, readScalar_of_number hb]
    exact hread rest hrest

theorem readsBack_str (text : String) (depth : Nat) : ReadsBack (readValue depth) (.str text) := by
  obtain ⟨body, hspelled, hread⟩ := readText_writeText text
  refine readsBack_of_scalar (b := 0x22) (by rw [write, hspelled]) (by decide) fun rest hrest => ?_
  rw [List.cons_append, readScalar, hread rest]
  rfl

/-- A comma, a bracket or a brace ends a number. -/
theorem apart_cons {b : UInt8} (h : b = 0x2C ∨ b = 0x5D ∨ b = 0x7D) (rest : List UInt8) :
    Apart (b :: rest) := by
  rintro b' hb'
  cases hb'
  rcases h with rfl | rfl | rfl <;> decide

/-- What follows an item: a comma and another one, or the closing bracket. -/
theorem apart_further {α : Type} (item : α → List Char) (items : List α) {closing : UInt8}
    (h : closing = 0x5D ∨ closing = 0x7D) (rest : List UInt8) :
    Apart (spell (further item items) ++ closing :: rest) := by
  cases items with
  | nil => exact apart_cons (.inr h) rest
  | cons first items => exact apart_cons (.inl rfl) _

theorem spell_further {α : Type} (item : α → List Char) (first : α) (items : List α) :
    spell (further item (first :: items)) =
      0x2C :: (spell (item first) ++ spell (further item items)) := by
  rw [further_cons, Utf8.spell_cons, Utf8.spell_append]
  rfl

/-- Every item takes a byte at least. -/
theorem length_le_further {α : Type} (item : α → List Char) (items : List α) :
    items.length ≤ (spell (further item items)).length := by
  induction items with
  | nil => exact Nat.le_refl 0
  | cons first items ih =>
      rw [spell_further, List.length_cons, List.length_cons, List.length_append]
      omega

/-- One element is read back, then the others. -/
theorem readElements_cons {read : Reader Json} {element : Json} {elements : List Json}
    (h : ReadsBack read element) {fuel : Nat} {first : Bool} {bytes rest : List UInt8}
    (hnext : nextElement first bytes = .ok (true, spell element.write ++
      (spell (further write elements) ++ 0x5D :: rest)))
    (hothers : readElements read fuel false (spell (further write elements) ++ 0x5D :: rest) =
      .ok (elements, rest)) :
    readElements read (fuel + 1) first bytes = .ok (element :: elements, rest) := by
  rw [readElements, hnext, bind_ok]
  simp only [↓reduceIte]
  rw [h.back _ (apart_further write elements (.inl rfl) rest), bind_ok]
  dsimp only
  rw [hothers]
  rfl

/-- Elements behind commas are read back up to the closing bracket. -/
theorem readElements_further {read : Reader Json} {elements : List Json}
    (h : ∀ element ∈ elements, ReadsBack read element) {fuel : Nat}
    (hfuel : elements.length < fuel) (rest : List UInt8) :
    readElements read fuel false (spell (further write elements) ++ 0x5D :: rest) =
      .ok (elements, rest) := by
  induction elements generalizing fuel with
  | nil =>
      obtain ⟨fuel, rfl⟩ := Nat.exists_eq_add_one_of_ne_zero (Nat.ne_zero_of_lt hfuel)
      rfl
  | cons element elements ih =>
      obtain ⟨fuel, rfl⟩ := Nat.exists_eq_add_one_of_ne_zero (Nat.ne_zero_of_lt hfuel)
      obtain ⟨hfirst, helements⟩ := List.forall_mem_cons.mp h
      obtain ⟨b, bytes, hspelled, hblank, hclosing⟩ := hfirst.begins
      apply readElements_cons hfirst _ (ih helements (Nat.lt_of_succ_lt_succ hfuel))
      rw [spell_further, List.cons_append, List.append_assoc, hspelled, nextElement,
        skipBlanks_cons (by decide)]
      simp [skipBlanks_cons hblank, hclosing]

/-- The elements of a list are read back up to the closing bracket. -/
theorem readElements_write {read : Reader Json} {elements : List Json}
    (h : ∀ element ∈ elements, ReadsBack read element) (rest : List UInt8) :
    readElements read ((spell (writeElements elements) ++ 0x5D :: rest).length + 1) true
      (spell (writeElements elements) ++ 0x5D :: rest) = .ok (elements, rest) := by
  cases elements with
  | nil => rfl
  | cons element elements =>
      obtain ⟨hfirst, helements⟩ := List.forall_mem_cons.mp h
      obtain ⟨b, bytes, hspelled, hblank, hclosing⟩ := hfirst.begins
      have hlength := length_le_further write elements
      rw [writeElements_cons, Utf8.spell_append, List.append_assoc]
      apply readElements_cons hfirst _ (readElements_further helements _ rest)
      · rw [hspelled, List.cons_append, nextElement, skipBlanks_cons hblank]
        simp [hclosing]
      · simp only [List.length_append, List.length_cons]
        omega

/-- A name is read back up to the colon. -/
theorem spell_writeMember (m : String × Json) :
    ∃ name, spell (writeMember m) = 0x22 :: name ∧ ∀ rest,
      readText (name ++ rest) = .ok (m.1, 0x3A :: (spell m.2.write ++ rest)) := by
  obtain ⟨body, hspelled, hread⟩ := readText_writeText m.1
  refine ⟨body ++ 0x3A :: spell m.2.write, ?_, fun rest => ?_⟩
  · rw [writeMember, Utf8.spell_append, hspelled, Utf8.spell_cons]
    rfl
  · rw [List.append_assoc, List.cons_append]
    exact hread _

theorem nextName_writeMember (m : String × Json) (rest : List UInt8) :
    nextName true (spell (writeMember m) ++ rest) =
      .ok (some m.1, 0x3A :: (spell m.2.write ++ rest)) := by
  obtain ⟨name, hspelled, hname⟩ := spell_writeMember m
  rw [hspelled, List.cons_append, nextName, skipBlanks_cons (by decide)]
  simp [hname, Except.map]

theorem nextName_comma (m : String × Json) (rest : List UInt8) :
    nextName false (0x2C :: (spell (writeMember m) ++ rest)) =
      .ok (some m.1, 0x3A :: (spell m.2.write ++ rest)) := by
  obtain ⟨name, hspelled, hname⟩ := spell_writeMember m
  rw [hspelled, List.cons_append, nextName, skipBlanks_cons (by decide)]
  dsimp only
  rw [skipBlanks_cons (by decide)]
  simp [hname, Except.map]

theorem colon_cons (rest : List UInt8) : colon (0x3A :: rest) = .ok rest := rfl

/-- One member is read back, then the others. -/
theorem readMembers_cons {read : Reader Json} {m : String × Json} {members : List (String × Json)}
    (h : ReadsBack read m.2) {fuel : Nat} {first : Bool} {bytes rest : List UInt8}
    (hnext : nextName first bytes = .ok (some m.1, 0x3A :: (spell m.2.write ++
      (spell (further writeMember members) ++ 0x7D :: rest))))
    (hothers : readMembers read fuel false (spell (further writeMember members) ++ 0x7D :: rest) =
      .ok (members, rest)) :
    readMembers read (fuel + 1) first bytes = .ok (m :: members, rest) := by
  rw [readMembers, hnext, bind_ok]
  dsimp only
  rw [colon_cons, bind_ok, h.back _ (apart_further writeMember members (.inr rfl) rest), bind_ok]
  dsimp only
  rw [hothers]
  rfl

/-- Members behind commas are read back up to the closing brace. -/
theorem readMembers_further {read : Reader Json} {members : List (String × Json)}
    (h : ∀ m ∈ members, ReadsBack read m.2) {fuel : Nat} (hfuel : members.length < fuel)
    (rest : List UInt8) :
    readMembers read fuel false (spell (further writeMember members) ++ 0x7D :: rest) =
      .ok (members, rest) := by
  induction members generalizing fuel with
  | nil =>
      obtain ⟨fuel, rfl⟩ := Nat.exists_eq_add_one_of_ne_zero (Nat.ne_zero_of_lt hfuel)
      rfl
  | cons m members ih =>
      obtain ⟨fuel, rfl⟩ := Nat.exists_eq_add_one_of_ne_zero (Nat.ne_zero_of_lt hfuel)
      obtain ⟨hfirst, hmembers⟩ := List.forall_mem_cons.mp h
      apply readMembers_cons hfirst _ (ih hmembers (Nat.lt_of_succ_lt_succ hfuel))
      rw [spell_further, List.cons_append, List.append_assoc]
      exact nextName_comma m _

/-- The members of an object are read back up to the closing brace. -/
theorem readMembers_write {read : Reader Json} {members : List (String × Json)}
    (h : ∀ m ∈ members, ReadsBack read m.2) (rest : List UInt8) :
    readMembers read ((spell (writeMembers members) ++ 0x7D :: rest).length + 1) true
      (spell (writeMembers members) ++ 0x7D :: rest) = .ok (members, rest) := by
  cases members with
  | nil => rfl
  | cons m members =>
      obtain ⟨hfirst, hmembers⟩ := List.forall_mem_cons.mp h
      have hlength := length_le_further writeMember members
      rw [writeMembers_cons, Utf8.spell_append, List.append_assoc]
      apply readMembers_cons hfirst (nextName_writeMember m _) (readMembers_further hmembers _ rest)
      simp only [List.length_append, List.length_cons]
      omega

theorem readsBack_arr {depth : Nat} {elements : List Json}
    (h : ∀ element ∈ elements, ReadsBack (readValue depth) element) :
    ReadsBack (readValue (depth + 1)) (.arr elements) := by
  have hspelled : spell (write (.arr elements)) = 0x5B :: (spell (writeElements elements) ++
      [0x5D]) := by
    rw [write, Utf8.spell_cons, Utf8.spell_append]
    rfl
  refine ⟨⟨0x5B, _, hspelled, by decide⟩, fun rest _ => ?_⟩
  rw [hspelled, List.cons_append, List.append_assoc, List.singleton_append, readValue,
    skipBlanks_cons (by decide)]
  simp only []
  rw [readElements_write h rest]
  rfl

theorem spell_write_obj (members : List (String × Json)) :
    spell (write (.obj members)) = 0x7B :: (spell (writeMembers members) ++ [0x7D]) := by
  rw [write, Utf8.spell_cons, Utf8.spell_append]
  rfl

/-- Members are read back in whatever order they were written, and put together. -/
theorem readValue_write_obj {depth : Nat} {members : List (String × Json)}
    (h : ∀ m ∈ members, ReadsBack (readValue depth) m.2) (rest : List UInt8) :
    readValue (depth + 1) (spell (write (.obj members)) ++ rest) =
      .ok (ofMembers members, rest) := by
  rw [spell_write_obj, List.cons_append, List.append_assoc, List.singleton_append, readValue,
    skipBlanks_cons (by decide)]
  simp only []
  rw [readMembers_write h rest, Except.map]

theorem readsBack_obj {depth : Nat} {members : List (String × Json)} (hordered : Ordered members)
    (h : ∀ m ∈ members, ReadsBack (readValue depth) m.2) :
    ReadsBack (readValue (depth + 1)) (.obj members) := by
  refine ⟨⟨0x7B, _, spell_write_obj members, by decide⟩, fun rest _ => ?_⟩
  rw [readValue_write_obj h, ofMembers_of_ordered hordered]

/-- A value that fits and holds no double is read back from its text. -/
theorem readsBack_of_fits {depth : Nat} {value : Json} (hfits : Fits depth value)
    (hexact : value.Exact) : ReadsBack (readValue depth) value := by
  cases value with
  | null => exact readsBack_of_scalar rfl (by decide) fun rest _ => rfl
  | bool value => cases value <;> exact readsBack_of_scalar rfl (by decide) fun rest _ => rfl
  | int => exact readsBack_int (by cases depth <;> exact hfits) depth
  | double bits => exact absurd (.self _) (hexact bits)
  | str text => exact readsBack_str text depth
  | arr elements =>
      cases depth with
      | zero => exact hfits.elim
      | succ depth =>
          exact readsBack_arr fun element mem =>
            readsBack_of_fits (hfits element mem) (exact_arr_iff.mp hexact element mem)
  | obj members =>
      cases depth with
      | zero => exact hfits.elim
      | succ depth =>
          exact readsBack_obj hfits.1 fun m mem =>
            readsBack_of_fits (hfits.2 m mem) (exact_obj_iff.mp hexact m mem)

/-- Behind the one value of a text there are only blanks. -/
theorem readAll_eq_ok_iff {α : Type} {read : Reader α} {bytes : List UInt8} {value : α} :
    readAll read bytes = .ok value ↔
      ∃ rest, read bytes = .ok (value, rest) ∧ skipBlanks rest = [] := by
  constructor
  · intro h
    obtain ⟨⟨read, rest⟩, hread, h⟩ := bind_eq_ok.mp h
    dsimp only at h
    split at h
    · next hends =>
        cases h
        exact ⟨rest, hread, hends⟩
    · cases h
  · rintro ⟨rest, hread, hends⟩
    rw [readAll, hread, bind_ok]
    simp only [hends]
    rfl

/-- The text of an object is read back as the object of its members put together. -/
theorem ofBytes_text_obj {members : List (String × Json)}
    (hfits : ∀ m ∈ members, Fits (depthLimit - 1) m.2) (hexact : ∀ m ∈ members, m.2.Exact) :
    ofBytes (Utf8.ofText (text (.obj members))) = .ok (ofMembers members) := by
  have hback : ∀ m ∈ members, ReadsBack (readValue (depthLimit - 1)) m.2 := fun m mem =>
    readsBack_of_fits (hfits m mem) (hexact m mem)
  have hread := readValue_write_obj hback []
  rw [List.append_nil] at hread
  rw [text, Utf8.ofText_ofList]
  exact readAll_eq_ok_iff.mpr ⟨[], hread, rfl⟩

end ListingHub.Json
