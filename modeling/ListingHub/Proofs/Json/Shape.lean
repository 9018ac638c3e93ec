import ListingHub.Proofs.Json.Reader
import ListingHub.Proofs.Json.Record
import ListingHub.Proofs.Json.Skip

/-!
# The shape of a record

An object shows its members, a list its elements: the places where their values begin, whoever asks
for them. A record is read from bytes exactly when its fields find their values there, each by its
name in an object, or by its place in a list.

The shape is found by skipping every value, so that it does not depend on the fields; a field must
take no more and no less than what is skipped.
-/

namespace ListingHub.Json

/-- The places of the elements of a list, up to its bracket. -/
inductive Elements : (first : Bool) → (bytes : List UInt8) → List (List UInt8) →
    (rest : List UInt8) → Prop
  | nil {first bytes rest} (hend : nextElement first bytes = .ok (false, 0x5D :: rest)) :
    Elements first bytes [] rest
  | cons {first bytes element behind elements rest}
    (hnext : nextElement first bytes = .ok (true, element))
    (hskip : skipValue element = .ok behind) (others : Elements false behind elements rest) :
    Elements first bytes (element :: elements) rest

/-- The names of the members of an object and the places of their values, up to its brace. -/
inductive Members : (first : Bool) → (bytes : List UInt8) → List (String × List UInt8) →
    (rest : List UInt8) → Prop
  | nil {first bytes rest} (hend : nextName first bytes = .ok (none, 0x7D :: rest)) :
    Members first bytes [] rest
  | cons {first bytes name after value behind members rest}
    (hname : nextName first bytes = .ok (some name, after)) (hcolon : colon after = .ok value)
    (hskip : skipValue value = .ok behind) (others : Members false behind members rest) :
    Members first bytes ((name, value) :: members) rest

/-- The places of the values that the members of a name have. -/
def named (name : String) (members : List (String × List UInt8)) : List (List UInt8) :=
  (members.filter fun m => m.1 == name).map (·.2)

@[simp]
theorem named_nil (name : String) : named name [] = [] := rfl

@[simp]
theorem named_cons_self (name : String) (value : List UInt8)
    (members : List (String × List UInt8)) :
    named name ((name, value) :: members) = value :: named name members := by
  simp [named]

theorem named_cons_of_ne {name other : String} (h : other ≠ name) (value : List UInt8)
    (members : List (String × List UInt8)) :
    named name ((other, value) :: members) = named name members := by
  simp [named, h]

/-- The field's value stands at a place. -/
def Field.Finds (field : Field Reader) (place : List UInt8) (value : field.Carrier) : Prop :=
  ∃ rest, field.take place = .ok (value, rest)

/-- A field finds its value at the one place of its name, or has its own where there is none. -/
def Field.Gathers (field : Field Reader) (members : List (String × List UInt8))
    (value : field.Carrier) : Prop :=
  named field.name members = [] ∧ field.absent = some value ∨
    ∃ place, named field.name members = [place] ∧ field.Finds place value

/-- Each field of a row finds its value among the members of an object. -/
def Row.Gathered (members : List (String × List UInt8)) :
    (fields : List (Field Reader)) → Row fields → Prop
  | [], _ => True
  | field :: fields, (value, row) => field.Gathers members value ∧ Gathered members fields row

/-- Each field of a row finds its value at the next place of a list, or has its own behind the last
one. -/
def Row.Aligned : (fields : List (Field Reader)) → (elements : List (List UInt8)) →
    Row fields → Prop
  | [], elements, _ => elements = []
  | field :: fields, [], (value, row) => field.absent = some value ∧ Aligned fields [] row
  | field :: fields, place :: elements, (value, row) =>
      field.Finds place value ∧ Aligned fields elements row

/-- A slot that is filled stays as it is; any other is gathered from the members to come. -/
def Field.Completes (field : Field Reader) (members : List (String × List UInt8)) :
    Option field.Carrier → field.Carrier → Prop
  | some filled, value => named field.name members = [] ∧ filled = value
  | none, value => field.Gathers members value

/-- Each slot, completed from the members to come, has the value of its field in a row. -/
def Slots.Completes (members : List (String × List UInt8)) :
    (fields : List (Field Reader)) → Slots fields → Row fields → Prop
  | [], _, _ => True
  | field :: fields, (slot, slots), (value, row) =>
      field.Completes members slot value ∧ Completes members fields slots row

/-- What a field takes is what is skipped. -/
def Field.Skips (field : Field Reader) : Prop :=
  ∀ {bytes rest : List UInt8} {value : field.Carrier},
    field.take bytes = .ok (value, rest) → skipValue bytes = .ok rest

section Objects

variable {fields : List (Field Reader)} {members : List (String × List UInt8)}
  {slots filled : Slots fields} {row : Row fields} {name : String} {value : List UInt8}

theorem completes_cons {field : Field Reader} {slot : Option field.Carrier} {v : field.Carrier} :
    Slots.Completes members (field :: fields) (slot, slots) (v, row) ↔
      field.Completes members slot v ∧ Slots.Completes members fields slots row := Iff.rfl

theorem completes_empty :
    Slots.Completes members fields (.empty fields) row ↔ Row.Gathered members fields row := by
  induction fields with
  | nil => exact Iff.rfl
  | cons field fields ih => exact and_congr Iff.rfl ih

theorem gathers_nil {field : Field Reader} {v : field.Carrier} :
    field.Gathers [] v ↔ field.absent = some v := by
  simp [Field.Gathers]

/-- Slots without a member to come are complete when each has a value. -/
theorem row?_eq_ok_iff : slots.row? = .ok row ↔ Slots.Completes [] fields slots row := by
  induction fields with
  | nil => exact ⟨fun _ => trivial, fun _ => rfl⟩
  | cons field fields ih =>
      obtain ⟨slot, slots⟩ := slots
      obtain ⟨v, row⟩ := row
      rw [Slots.row?, completes_cons, ← ih]
      cases slot with
      | some filled =>
          have hfield : field.Completes [] (some filled) v ↔ filled = v := by simp [Field.Completes]
          rw [hfield]
          exact map_pair_eq_ok
      | none =>
          have hfield : field.Completes [] none v ↔ field.absent = some v := gathers_nil
          rw [hfield]
          cases field.absent with
          | some own =>
              rw [Option.some.injEq]
              exact map_pair_eq_ok
          | none => simp

/-- A member of another name changes nothing for a field. -/
theorem completes_cons_field {field : Field Reader} {slot : Option field.Carrier}
    {v : field.Carrier} (h : field.name ≠ name) :
    field.Completes ((name, value) :: members) slot v ↔ field.Completes members slot v := by
  cases slot <;> simp only [Field.Completes, Field.Gathers, named_cons_of_ne h.symm]

/-- A member whose name is no field's changes nothing. -/
theorem completes_cons_of_not_mem (h : name ∉ fields.map (·.name)) :
    Slots.Completes ((name, value) :: members) fields slots row ↔
      Slots.Completes members fields slots row := by
  induction fields with
  | nil => exact Iff.rfl
  | cons field fields ih =>
      obtain ⟨slot, slots⟩ := slots
      obtain ⟨v, row⟩ := row
      rw [List.map_cons, List.mem_cons, not_or] at h
      rw [completes_cons, completes_cons, ih h.2, completes_cons_field (Ne.symm h.1)]

theorem not_mem_of_unknown (h : slots.find name = .unknown) : name ∉ fields.map (·.name) := by
  have hnone := find?_of_unknown h
  simpa using hnone

/-- No slot is filled twice. -/
theorem not_completes_of_taken (h : slots.find name = .taken) :
    ¬Slots.Completes ((name, value) :: members) fields slots row := by
  induction fields with
  | nil => cases h
  | cons field fields ih =>
      obtain ⟨slot, slots⟩ := slots
      obtain ⟨v, row⟩ := row
      rintro ⟨hfield, hfields⟩
      rw [Slots.find] at h
      split at h
      · next hname =>
          split at h
          · next hfilled =>
              obtain ⟨filled, rfl⟩ := Option.isSome_iff_exists.mp hfilled
              obtain ⟨hnone, -⟩ :
                  named field.name ((name, value) :: members) = [] ∧ filled = v := hfield
              rw [hname, named_cons_self] at hnone
              cases hnone
          · cases h
      · split at h
        · cases h
        · next hrest => exact ih hrest hfields
        · cases h

/-- A free slot is filled from its member. -/
theorem completes_iff_of_free {fill : Reader (Slots fields)} (h : slots.find name = .free fill)
    (hnames : (fields.map (·.name)).Nodup) :
    Slots.Completes ((name, value) :: members) fields slots row ↔
      ∃ filled rest, fill value = .ok (filled, rest) ∧
        Slots.Completes members fields filled row := by
  induction fields with
  | nil => cases h
  | cons field fields ih =>
      obtain ⟨slot, slots⟩ := slots
      obtain ⟨v, row⟩ := row
      rw [List.map_cons, List.nodup_cons] at hnames
      rw [Slots.find] at h
      split at h
      · next hname =>
          split at h
          · cases h
          · next hfree =>
              cases h
              -- The member is this field's own, so that it is none of the others'.
              obtain rfl := Option.not_isSome_iff_eq_none.mp hfree
              rw [completes_cons, completes_cons_of_not_mem (hname ▸ hnames.1)]
              constructor
              · rintro ⟨hfield, hfields⟩
                rw [Field.Completes, Field.Gathers, hname, named_cons_self] at hfield
                obtain ⟨hnil, -⟩ | ⟨place, hplace, rest, htake⟩ := hfield
                · cases hnil
                · obtain ⟨rfl, hothers⟩ := List.cons.inj hplace
                  refine ⟨(some v, slots), rest, congrArg (Except.map _) htake, ?_, hfields⟩
                  exact ⟨hname ▸ hothers, rfl⟩
              · rintro ⟨filled, rest, hfill, hfilled⟩
                obtain ⟨⟨new, next⟩, htake, heq⟩ := map_eq_ok.mp hfill
                cases heq
                obtain ⟨⟨hothers, rfl⟩, hfields⟩ := hfilled
                refine ⟨.inr ⟨value, ?_, rest, htake⟩, hfields⟩
                rw [← hname, named_cons_self, hothers]
      · next hname =>
          split at h
          · cases h
          · cases h
          · next fill' hfree =>
              cases h
              rw [completes_cons, ih hfree hnames.2]
              constructor
              · rintro ⟨hfield, filled, rest, hfill, hfilled⟩
                refine ⟨(slot, filled), rest, congrArg (Except.map _) hfill, ?_, hfilled⟩
                exact (completes_cons_field hname).mp hfield
              · rintro ⟨filled, rest, hfill, hfilled⟩
                obtain ⟨⟨others, next⟩, hothers, heq⟩ := map_eq_ok.mp hfill
                cases heq
                exact ⟨(completes_cons_field hname).mpr hfilled.1, others, rest, hothers, hfilled.2⟩

/-- What fills a slot is what is skipped. -/
theorem skipValue_of_free {fill : Reader (Slots fields)} (h : slots.find name = .free fill)
    (hskips : ∀ field ∈ fields, field.Skips) {rest : List UInt8}
    (hfill : fill value = .ok (filled, rest)) : skipValue value = .ok rest := by
  induction fields with
  | nil => cases h
  | cons field fields ih =>
      obtain ⟨slot, slots⟩ := slots
      obtain ⟨hfield, hfields⟩ := List.forall_mem_cons.mp hskips
      rw [Slots.find] at h
      split at h
      · split at h
        · cases h
        cases h
        obtain ⟨⟨new, next⟩, htake, heq⟩ := map_eq_ok.mp hfill
        cases heq
        exact hfield htake
      · split at h
        · cases h
        · cases h
        · next fill' hfree =>
            cases h
            obtain ⟨⟨others, next⟩, hothers, heq⟩ := map_eq_ok.mp hfill
            cases heq
            exact ih hfree hfields hothers

/-- What is behind a member is shorter than what begins with it. -/
theorem length_of_member {first : Bool} {bytes after value behind : List UInt8}
    (hname : nextName first bytes = .ok (some name, after)) (hcolon : colon after = .ok value)
    (hskip : skipValue value = .ok behind) : behind.length < bytes.length := by
  have hafter := length_of_nextName hname
  have hvalue := length_of_colon hcolon
  have hbehind := length_of_skipValue hskip
  omega

/-- Slots that are filled from an object are completed by its members. -/
theorem completes_of_readSlots (hnames : (fields.map (·.name)).Nodup)
    (hskips : ∀ field ∈ fields, field.Skips) {fuel : Nat} {first : Bool} {bytes next : List UInt8}
    (h : readSlots fields fuel first slots bytes = .ok (.ok row, next)) :
    ∃ members rest, next = 0x7D :: rest ∧ Members first bytes members rest ∧
      Slots.Completes members fields slots row := by
  induction fuel generalizing first bytes slots with
  | zero => cases h
  | succ fuel ih =>
      obtain ⟨⟨found, after⟩, hname, h⟩ := bind_eq_ok.mp h
      cases found with
      | none =>
          obtain ⟨rest, rfl, -⟩ := closing_of_no_name hname
          obtain ⟨hrow, rfl⟩ := Prod.mk.inj (Except.ok.inj h)
          exact ⟨[], rest, rfl, .nil hname, row?_eq_ok_iff.mp hrow⟩
      | some name =>
          dsimp only at h
          split at h
          · next hunknown =>
              obtain ⟨value, hcolon, h⟩ := bind_eq_ok.mp h
              obtain ⟨behind, hskip, h⟩ := bind_eq_ok.mp h
              obtain ⟨members, rest, rfl, hmembers, hrow⟩ := ih h
              refine ⟨(name, value) :: members, rest, rfl, .cons hname hcolon hskip hmembers, ?_⟩
              exact (completes_cons_of_not_mem (not_mem_of_unknown hunknown)).mpr hrow
          · cases h
          · next fill hfree =>
              obtain ⟨value, hcolon, h⟩ := bind_eq_ok.mp h
              obtain ⟨⟨filled, behind⟩, hfill, h⟩ := bind_eq_ok.mp h
              have hskip := skipValue_of_free hfree hskips hfill
              obtain ⟨members, rest, rfl, hmembers, hrow⟩ := ih h
              refine ⟨(name, value) :: members, rest, rfl, .cons hname hcolon hskip hmembers, ?_⟩
              exact (completes_iff_of_free hfree hnames).mpr ⟨filled, behind, hfill, hrow⟩

/-- Slots are filled from an object whose members complete them. -/
theorem readSlots_of_completes (hnames : (fields.map (·.name)).Nodup)
    (hskips : ∀ field ∈ fields, field.Skips) {fuel : Nat} {first : Bool} {bytes rest : List UInt8}
    (hfuel : bytes.length < fuel) (hmembers : Members first bytes members rest)
    (hrow : Slots.Completes members fields slots row) :
    readSlots fields fuel first slots bytes = .ok (.ok row, 0x7D :: rest) := by
  -- Each member takes a byte at least, which leaves fuel for those behind it.
  induction hmembers generalizing fuel slots with
  | nil hend =>
      obtain ⟨fuel, rfl⟩ := Nat.exists_eq_add_one_of_ne_zero (Nat.ne_zero_of_lt hfuel)
      rw [readSlots, hend, bind_ok]
      exact congrArg (fun outcome => Except.ok (outcome, _)) (row?_eq_ok_iff.mpr hrow)
  | @cons first bytes name after value behind members rest hname hcolon hskip others ih =>
      obtain ⟨fuel, rfl⟩ := Nat.exists_eq_add_one_of_ne_zero (Nat.ne_zero_of_lt hfuel)
      have hbehind := length_of_member hname hcolon hskip
      have hleft : behind.length < fuel := by omega
      rw [readSlots, hname, bind_ok]
      dsimp only
      cases hfind : slots.find name with
      | unknown =>
          simp only [hcolon, bind_ok, hskip]
          exact ih hleft ((completes_cons_of_not_mem (not_mem_of_unknown hfind)).mp hrow)
      | taken => exact absurd hrow (not_completes_of_taken hfind)
      | free fill =>
          -- The field ends where skipping its value ended.
          obtain ⟨filled, next, hfill, hfilled⟩ := (completes_iff_of_free hfind hnames).mp hrow
          obtain rfl : next = behind :=
            Except.ok.inj ((skipValue_of_free hfind hskips hfill).symm.trans hskip)
          simp only [hcolon, bind_ok, hfill]
          exact ih hleft hfilled

end Objects

section Lists

variable {fields : List (Field Reader)} {row : Row fields} {elements : List (List UInt8)}
  {first : Bool} {bytes next rest : List UInt8}

theorem nextElement_of_closing (h : skipBlanks bytes = 0x5D :: rest) :
    nextElement first bytes = .ok (false, 0x5D :: rest) := by
  rw [nextElement, h]
  rfl

/-- Only a bracket closes a list. -/
theorem closeList_eq_ok_iff : closeList bytes = .ok rest ↔ skipBlanks bytes = 0x5D :: rest := by
  constructor
  · intro h
    unfold closeList at h
    split at h
    · cases h
    · next heq =>
        cases h
        exact heq
    · split at h <;> cases h
    · cases h
  · intro h
    rw [closeList, h]
    rfl

/-- Where the bracket comes next, no element is left. -/
theorem Elements.eq_nil {tail : List UInt8} (h : Elements first (0x5D :: tail) elements rest) :
    elements = [] ∧ rest = tail := by
  have hend : nextElement first (0x5D :: tail) = .ok (false, 0x5D :: tail) :=
    nextElement_of_closing rfl
  cases h with
  | nil hend' =>
      rw [hend] at hend'
      cases hend'
      exact ⟨rfl, rfl⟩
  | cons hnext =>
      rw [hend] at hnext
      cases hnext

/-- A row that is read from a list, closed behind it, is aligned with the elements. -/
theorem aligned_of_readRow {tooShort : Nat → Mismatch} (hskips : ∀ field ∈ fields, field.Skips)
    {index : Nat} (h : readRow tooShort fields index bytes = .ok (.ok row, next))
    (hclose : closeList next = .ok rest) :
    ∃ elements, Elements (index == 0) bytes elements rest ∧ Row.Aligned fields elements row := by
  induction fields generalizing index bytes with
  | nil =>
      obtain ⟨-, rfl⟩ := Prod.mk.inj (Except.ok.inj h)
      exact ⟨[], .nil (nextElement_of_closing (closeList_eq_ok_iff.mp hclose)), rfl⟩
  | cons field fields ih =>
      obtain ⟨hfield, hfields⟩ := List.forall_mem_cons.mp hskips
      obtain ⟨⟨more, after⟩, hnext, h⟩ := bind_eq_ok.mp h
      cases more with
      | true =>
          obtain ⟨⟨v, behind⟩, htake, h⟩ := bind_eq_ok.mp h
          obtain ⟨⟨others, last⟩, hrow, h⟩ := bind_eq_ok.mp h
          obtain ⟨hmap, rfl⟩ := Prod.mk.inj (Except.ok.inj h)
          obtain ⟨others, rfl, rfl⟩ := map_eq_ok.mp hmap
          obtain ⟨elements, helements, haligned⟩ := ih hfields hrow
          exact ⟨after :: elements, .cons hnext (hfield htake) helements, ⟨behind, htake⟩, haligned⟩
      | false =>
          obtain ⟨tail, rfl, -⟩ := closing_of_no_element hnext
          dsimp only at h
          rw [if_neg Bool.false_ne_true] at h
          split at h
          · next own habsent =>
              obtain ⟨⟨others, last⟩, hrow, h⟩ := bind_eq_ok.mp h
              obtain ⟨hmap, rfl⟩ := Prod.mk.inj (Except.ok.inj h)
              obtain ⟨others, rfl, rfl⟩ := map_eq_ok.mp hmap
              -- The bracket was not moved past, so that the fields behind find it too.
              obtain ⟨elements, helements, haligned⟩ := ih hfields hrow
              obtain ⟨rfl, rfl⟩ := helements.eq_nil
              exact ⟨[], .nil hnext, habsent, haligned⟩
          · cases h

/-- A row that is aligned with the elements of a list is read from it. -/
theorem readRow_of_aligned (tooShort : Nat → Mismatch) (hskips : ∀ field ∈ fields, field.Skips)
    (index : Nat) (helements : Elements (index == 0) bytes elements rest)
    (haligned : Row.Aligned fields elements row) :
    ∃ next, readRow tooShort fields index bytes = .ok (.ok row, next) ∧
      closeList next = .ok rest := by
  induction fields generalizing index bytes elements with
  | nil =>
      obtain rfl : elements = [] := haligned
      cases helements with
      | nil hend =>
          obtain ⟨_, heq, hclosing⟩ := closing_of_no_element hend
          exact ⟨bytes, rfl, closeList_eq_ok_iff.mpr (hclosing.trans heq.symm)⟩
  | cons field fields ih =>
      obtain ⟨v, row⟩ := row
      obtain ⟨hfield, hfields⟩ := List.forall_mem_cons.mp hskips
      cases helements with
      | nil hend =>
          obtain ⟨habsent, haligned⟩ := haligned
          have hclosed : Elements (index + 1 == 0) (0x5D :: rest) [] rest :=
            .nil (nextElement_of_closing rfl)
          obtain ⟨next, hrow, hclose⟩ := ih hfields (index + 1) hclosed haligned
          refine ⟨next, ?_, hclose⟩
          rw [readRow, hend, bind_ok]
          dsimp only
          rw [if_neg Bool.false_ne_true, habsent]
          dsimp only
          rw [hrow]
          rfl
      | @cons _ _ place behind elements _ hnext hskip others =>
          obtain ⟨⟨taken, htake⟩, haligned⟩ := haligned
          obtain rfl : taken = behind := Except.ok.inj ((hfield htake).symm.trans hskip)
          obtain ⟨next, hrow, hclose⟩ := ih hfields (index + 1) others haligned
          refine ⟨next, ?_, hclose⟩
          rw [readRow, hnext, bind_ok]
          dsimp only
          rw [if_pos rfl, htake, bind_ok]
          dsimp only
          rw [hrow]
          rfl

end Lists

section Records

variable {α : Type} {record : Record Reader α} {bytes rest : List UInt8} {value : α}

/-- A record is read from the members of an object or from the elements of a list, and from nothing
else. -/
theorem Record.read_eq_ok_iff (hnames : (record.fields.map (·.name)).Nodup)
    (hskips : ∀ field ∈ record.fields, field.Skips) :
    record.read bytes = .ok (value, rest) ↔
      ∃ row, value = record.build row ∧
        ((∃ opened members, skipBlanks bytes = 0x7B :: opened ∧ Members true opened members rest ∧
            Row.Gathered members record.fields row) ∨
          ∃ opened elements, skipBlanks bytes = 0x5B :: opened ∧
            Elements true opened elements rest ∧ Row.Aligned record.fields elements row) := by
  constructor
  · intro h
    rw [Record.read] at h
    split at h
    · cases h
    · next opened heq =>
        obtain ⟨⟨outcome, next⟩, hrow, h⟩ := bind_eq_ok.mp h
        cases outcome with
        | error why => cases h
        | ok row =>
            obtain ⟨behind, hclose, h⟩ := bind_eq_ok.mp h
            cases h
            obtain ⟨elements, helements, haligned⟩ := aligned_of_readRow hskips hrow hclose
            exact ⟨row, rfl, .inr ⟨opened, elements, heq, helements, haligned⟩⟩
    · next opened heq =>
        obtain ⟨⟨outcome, next⟩, hslots, h⟩ := bind_eq_ok.mp h
        cases outcome with
        | error why => cases h
        | ok row =>
            cases h
            obtain ⟨members, behind, rfl, hmembers, hrow⟩ :=
              completes_of_readSlots hnames hskips hslots
            exact ⟨row, rfl, .inl ⟨opened, members, heq, hmembers, completes_empty.mp hrow⟩⟩
    · exact absurd h (refuse_ne_ok value rest)
  · rintro ⟨row, rfl, ⟨opened, members, heq, hmembers, hrow⟩ |
      ⟨opened, elements, heq, helements, hrow⟩⟩
    · have hslots := readSlots_of_completes hnames hskips (Nat.lt_succ_self _) hmembers
        (completes_empty.mpr hrow)
      rw [Record.read, heq]
      simp only []
      rw [hslots]
      rfl
    · obtain ⟨next, hread, hclose⟩ := readRow_of_aligned
        (fun index => .tooShort index record.name record.fields.length) hskips 0 helements hrow
      rw [Record.read, heq]
      simp only []
      rw [hread, bind_ok]
      simp only []
      rw [hclose]
      rfl

end Records

section Values

variable {bytes rest : List UInt8} {text : String} {depth : Nat}

theorem readText_of_readScalar (h : readScalar bytes = .ok (.str text, rest)) :
    ∃ tail, bytes = 0x22 :: tail ∧ readText tail = .ok (text, rest) := by
  unfold readScalar at h
  split at h
  · cases h
  · cases readWord_eq h
  · cases readWord_eq h
  · cases readWord_eq h
  · next tail =>
      obtain ⟨⟨read, after⟩, htext, heq⟩ := map_eq_ok.mp h
      cases heq
      exact ⟨tail, rfl, htext⟩
  · split at h
    · exact (isNumber_of_readNumber h).elim
    · cases h

theorem readText_of_readValue (h : readValue depth bytes = .ok (.str text, rest)) :
    ∃ tail, skipBlanks bytes = 0x22 :: tail ∧ readText tail = .ok (text, rest) := by
  unfold readValue at h
  split at h
  · split at h
    · cases h
    · cases h
    · exact readText_of_readScalar h
  · split at h
    · obtain ⟨read, -, heq⟩ := map_eq_ok.mp h
      cases heq
    · obtain ⟨read, -, heq⟩ := map_eq_ok.mp h
      cases heq
    · exact readText_of_readScalar h

theorem readValue_of_readText {tail : List UInt8} (hquote : skipBlanks bytes = 0x22 :: tail)
    (htext : readText tail = .ok (text, rest)) :
    readValue depth bytes = .ok (.str text, rest) := by
  have hscalar : readScalar (0x22 :: tail) = .ok (.str text, rest) := by
    rw [readScalar, htext]
    rfl
  cases depth <;>
  · rw [readValue, hquote]
    exact hscalar

/-- A string is what is read as one among all values. -/
theorem readString_eq_ok_iff (depth : Nat) :
    readString bytes = .ok (text, rest) ↔ readValue depth bytes = .ok (.str text, rest) := by
  constructor
  · intro h
    rw [readString, readStringAs] at h
    split at h
    · cases h
    · next tail hquote =>
        obtain ⟨⟨read, after⟩, htext, heq⟩ := bind_eq_ok.mp h
        cases heq
        exact readValue_of_readText hquote htext
    · exact absurd h (refuse_ne_ok text rest)
  · intro h
    obtain ⟨tail, hquote, htext⟩ := readText_of_readValue h
    rw [readString, readStringAs, hquote]
    simp only []
    rw [htext]
    rfl

/-- A value stands at a place, with containers at most `depth` inside each other. -/
def Stands (depth : Nat) (place : List UInt8) (value : Json) : Prop :=
  ∃ rest, readValue depth place = .ok (value, rest)

variable {value : Json} {place : List UInt8}

theorem Stands.unique {other : Json} (h : Stands depth place value)
    (hother : Stands depth place other) : value = other := by
  obtain ⟨rest, h⟩ := h
  obtain ⟨rest', hother⟩ := hother
  exact congrArg Prod.fst (Except.ok.inj (h.symm.trans hother))

variable {first : Bool} {places : List (String × List UInt8)} {behind : List UInt8}

/-- The members of an object that is read stand at their places. -/
theorem stands_of_readMembers (h : Members first bytes places rest) {rounds : Nat}
    {members : List (String × Json)}
    (hread : readMembers (readValue depth) rounds first bytes = .ok (members, behind)) :
    List.Forall₂ (fun p m => p.1 = m.1 ∧ Stands depth p.2 m.2) places members := by
  induction h generalizing rounds members behind with
  | nil hend =>
      cases rounds with
      | zero => cases hread
      | succ rounds =>
          rw [readMembers, hend, bind_ok] at hread
          cases hread
          exact .nil
  | cons hname hcolon hskip others ih =>
      cases rounds with
      | zero => cases hread
      | succ rounds =>
          rw [readMembers, hname, bind_ok] at hread
          simp only [hcolon, bind_ok] at hread
          obtain ⟨⟨member, after⟩, hmember, hread⟩ := bind_eq_ok.mp hread
          obtain ⟨⟨members, last⟩, hmembers, hread⟩ := bind_eq_ok.mp hread
          cases hread
          obtain rfl := Except.ok.inj ((skipValue_of_readValue hmember).symm.trans hskip)
          exact .cons ⟨rfl, after, hmember⟩ (ih hmembers)

/-- The elements of a list that is read stand at their places. -/
theorem stands_of_readElements {places : List (List UInt8)} (h : Elements first bytes places rest)
    {rounds : Nat} {elements : List Json}
    (hread : readElements (readValue depth) rounds first bytes = .ok (elements, behind)) :
    List.Forall₂ (Stands depth) places elements := by
  induction h generalizing rounds elements behind with
  | nil hend =>
      cases rounds with
      | zero => cases hread
      | succ rounds =>
          rw [readElements, hend, bind_ok] at hread
          cases hread
          exact .nil
  | cons hnext hskip others ih =>
      cases rounds with
      | zero => cases hread
      | succ rounds =>
          rw [readElements, hnext, bind_ok] at hread
          obtain ⟨⟨element, after⟩, helement, hread⟩ := bind_eq_ok.mp hread
          obtain ⟨⟨elements, last⟩, helements, hread⟩ := bind_eq_ok.mp hread
          cases hread
          obtain rfl := Except.ok.inj ((skipValue_of_readValue helement).symm.trans hskip)
          exact .cons ⟨after, helement⟩ (ih helements)

variable {members : List (String × Json)} {name : String}

/-- A name that no place has is not among the members that were gathered. -/
theorem lookup_of_named_nil
    (h : List.Forall₂ (fun p m => p.1 = m.1 ∧ Stands depth p.2 m.2) places members)
    (hnil : named name places = []) (placed : List (String × Json)) :
    (gather placed members).lookup name = placed.lookup name := by
  induction h generalizing placed with
  | nil => rfl
  | @cons p m places members hfirst others ih =>
      obtain ⟨other, value⟩ := p
      obtain rfl : other = m.1 := hfirst.1
      by_cases hname : m.1 = name
      · rw [hname, named_cons_self] at hnil
        cases hnil
      · rw [named_cons_of_ne hname] at hnil
        exact (ih hnil _).trans (lookup_put_of_ne m.2 placed (Ne.symm hname))

/-- The one place of a name has the value of that name among the members that were gathered. -/
theorem stands_of_named
    (h : List.Forall₂ (fun p m => p.1 = m.1 ∧ Stands depth p.2 m.2) places members)
    (hone : named name places = [place]) (placed : List (String × Json)) :
    ∃ value, (gather placed members).lookup name = some value ∧ Stands depth place value := by
  induction h generalizing placed with
  | nil => cases hone
  | @cons p m places members hfirst others ih =>
      obtain ⟨other, start⟩ := p
      obtain rfl : other = m.1 := hfirst.1
      by_cases hname : m.1 = name
      · rw [hname, named_cons_self] at hone
        obtain ⟨rfl, hnil⟩ := List.cons.inj hone
        refine ⟨m.2, ?_, hfirst.2⟩
        exact (lookup_of_named_nil others hnil _).trans (hname ▸ lookup_put_self m.1 m.2 placed)
      · rw [named_cons_of_ne hname] at hone
        exact ih hone _

end Values

end ListingHub.Json
