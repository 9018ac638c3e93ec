import ListingHub.Json.Writer
import ListingHub.Proofs.Json.Basic
import ListingHub.Proofs.Json.Number

/-!
# Compact texts

Elements and members are written one after another with commas between them. Outside its strings the
text of a value has no blank.
-/

namespace ListingHub.Json

/-- Items after the first, each behind a comma. -/
def further {α : Type} (item : α → List Char) (items : List α) : List Char :=
  items.flatMap fun next => ',' :: item next

theorem further_cons {α : Type} (item : α → List Char) (first : α) (items : List α) :
    further item (first :: items) = ',' :: (item first ++ further item items) :=
  List.flatMap_cons

theorem writeElements_cons (element : Json) (elements : List Json) :
    writeElements (element :: elements) = element.write ++ further write elements := by
  induction elements generalizing element with
  | nil => exact (List.append_nil _).symm
  | cons next elements ih =>
      rw [writeElements, ih next, further_cons]
      exact List.cons_ne_nil _ _

/-- A member: its name, a colon and its value. -/
def writeMember (m : String × Json) : List Char :=
  writeText m.1 ++ ':' :: m.2.write

theorem writeMembers_cons (m : String × Json) (members : List (String × Json)) :
    writeMembers (m :: members) = writeMember m ++ further writeMember members := by
  induction members generalizing m with
  | nil => exact (List.append_nil _).symm
  | cons next members ih =>
      rw [writeMembers, ih next]
      · simp only [further_cons, writeMember, List.append_assoc, List.cons_append]
      · exact List.cons_ne_nil _ _

mutual

/-- The characters of a JSON text outside its strings, with their opening quotes. -/
def outside : List Char → List Char
  | [] => []
  | '"' :: rest => '"' :: inside rest
  | c :: rest => c :: outside rest

/-- The characters outside strings after an opening quote. -/
def inside : List Char → List Char
  | [] => []
  | '"' :: rest => outside rest
  | '\\' :: _ :: rest => inside rest
  | _ :: rest => inside rest

end

/-- No blank stands outside the strings. -/
def Compact (text : List Char) : Prop :=
  ∀ c ∈ outside text, c.isWhitespace = false

/-- Characters that keep compact what follows them. -/
def Tight (characters : List Char) : Prop :=
  ∀ rest, Compact rest → Compact (characters ++ rest)

theorem Tight.append {first second : List Char} (hfirst : Tight first) (hsecond : Tight second) :
    Tight (first ++ second) := by
  intro rest hrest
  rw [List.append_assoc]
  exact hfirst _ (hsecond rest hrest)

theorem Tight.compact {characters : List Char} (h : Tight characters) : Compact characters := by
  have hnil := h [] fun c hc => absurd hc List.not_mem_nil
  rwa [List.append_nil] at hnil

theorem Tight.cons {c : Char} {characters : List Char} (hquote : c ≠ '"')
    (hblank : c.isWhitespace = false) (h : Tight characters) : Tight (c :: characters) := by
  intro rest hrest
  have houtside : outside (c :: (characters ++ rest)) = c :: outside (characters ++ rest) := by
    rw [outside]
    exact hquote
  rw [List.cons_append, Compact, houtside]
  exact List.forall_mem_cons.mpr ⟨hblank, h rest hrest⟩

theorem tight_nil : Tight [] := fun _ hrest => hrest

/-- Characters that are neither quotes nor blanks are tight. -/
theorem tight_of_forall {characters : List Char}
    (h : ∀ c ∈ characters, c ≠ '"' ∧ c.isWhitespace = false) : Tight characters := by
  induction characters with
  | nil => exact tight_nil
  | cons c characters ih =>
      obtain ⟨⟨hquote, hblank⟩, hrest⟩ := List.forall_mem_cons.mp h
      exact .cons hquote hblank (ih hrest)

theorem tight_of_all {characters : List Char}
    (h : (characters.all fun c => c != '"' && !c.isWhitespace) = true) : Tight characters := by
  refine tight_of_forall fun c hc => ?_
  simpa using List.all_eq_true.mp h c hc

/-- Inside a string a character that needs no escape is passed over. -/
theorem inside_cons {c : Char} (hquote : c ≠ '"') (hbackslash : c ≠ '\\') (rest : List Char) :
    inside (c :: rest) = inside rest := by
  rw [inside]
  · exact hquote
  · rintro next tail rfl
    exact absurd rfl hbackslash

/-- A written character does not end its string. -/
theorem inside_escapeChar (c : Char) (rest : List Char) :
    inside (escapeChar c ++ rest) = inside rest := by
  unfold escapeChar
  split
  case h_8 hquote hbackslash _ _ _ _ _ =>
      split
      · next hcontrol =>
          have hdigit (n : Nat) : Nat.digitChar n ≠ '"' ∧ Nat.digitChar n ≠ '\\' := by simp
          simp only [List.cons_append, List.nil_append]
          rw [inside, inside_cons (by decide) (by decide), inside_cons (by decide) (by decide),
            inside_cons (hdigit _).1 (hdigit _).2, inside_cons (hdigit _).1 (hdigit _).2]
      · exact inside_cons hquote hbackslash rest
  all_goals rfl

theorem inside_flatMap_escapeChar (characters rest : List Char) :
    inside (characters.flatMap escapeChar ++ '"' :: rest) = outside rest := by
  induction characters with
  | nil => rfl
  | cons c characters ih => rw [List.flatMap_cons, List.append_assoc, inside_escapeChar, ih]

theorem tight_writeText (text : String) : Tight (writeText text) := by
  intro rest hrest
  have houtside : outside (writeText text ++ rest) = '"' :: outside rest := by
    rw [writeText, List.cons_append, List.append_assoc, outside, List.singleton_append,
      inside_flatMap_escapeChar]
  rw [Compact, houtside]
  exact List.forall_mem_cons.mpr ⟨by decide, hrest⟩

theorem tight_further {α : Type} {item : α → List Char} {items : List α}
    (h : ∀ i ∈ items, Tight (item i)) : Tight (further item items) := by
  induction items with
  | nil => exact tight_nil
  | cons first items ih =>
      obtain ⟨hfirst, hitems⟩ := List.forall_mem_cons.mp h
      rw [further_cons]
      exact .cons (by decide) (by decide) (hfirst.append (ih hitems))

/-- Decimal digits are neither quotes nor blanks. -/
theorem tight_toDigits (n : Nat) : Tight (Nat.toDigits 10 n) := by
  refine tight_of_forall fun c hc => ?_
  have hdigit := toNat_of_mem_toDigits hc
  have hne {other : Char} (hother : ¬(0x30 ≤ other.toNat ∧ other.toNat ≤ 0x39)) : c ≠ other := by
    rintro rfl
    exact hother hdigit
  refine ⟨hne (by decide), ?_⟩
  simp only [Char.isWhitespace, Bool.or_eq_false_iff, decide_eq_false_iff_not]
  exact ⟨⟨⟨hne (by decide), hne (by decide)⟩, hne (by decide)⟩, hne (by decide)⟩

theorem tight_toString (value : Int) : Tight (toString value).toList := by
  cases value with
  | ofNat n =>
      rw [toList_toString_ofNat]
      exact tight_toDigits n
  | negSucc n =>
      rw [toList_toString_negSucc]
      exact .cons (by decide) (by decide) (tight_toDigits _)

/-- The text of a value that holds no double is tight. -/
theorem tight_write {value : Json} (h : value.Exact) : Tight value.write := by
  cases value with
  | null => exact tight_of_all rfl
  | bool value => cases value <;> exact tight_of_all rfl
  | int value => exact tight_toString value
  | double bits => exact absurd (.self _) (h bits)
  | str text => exact tight_writeText text
  | arr elements =>
      have helements : ∀ element ∈ elements, Tight element.write := fun element mem =>
        tight_write (exact_arr_iff.mp h element mem)
      rw [write]
      apply Tight.cons (by decide) (by decide)
      apply Tight.append _ (tight_of_all rfl)
      cases elements with
      | nil => exact tight_nil
      | cons element elements =>
          obtain ⟨hfirst, hothers⟩ := List.forall_mem_cons.mp helements
          rw [writeElements_cons]
          exact hfirst.append (tight_further hothers)
  | obj members =>
      have hmembers : ∀ m ∈ members, Tight (writeMember m) := fun m mem =>
        have hvalue := tight_write (exact_obj_iff.mp h m mem)
        (tight_writeText m.1).append (.cons (by decide) (by decide) hvalue)
      rw [write]
      apply Tight.cons (by decide) (by decide)
      apply Tight.append _ (tight_of_all rfl)
      cases members with
      | nil => exact tight_nil
      | cons m members =>
          obtain ⟨hfirst, hothers⟩ := List.forall_mem_cons.mp hmembers
          rw [writeMembers_cons]
          exact hfirst.append (tight_further hothers)
termination_by sizeOf value
decreasing_by
  · subst_vars
    have hsize := List.sizeOf_lt_of_mem mem
    rw [Json.arr.sizeOf_spec]
    omega
  · subst_vars
    have hsize := List.sizeOf_lt_of_mem mem
    have hpair : sizeOf m = 1 + sizeOf m.1 + sizeOf m.2 := rfl
    rw [Json.obj.sizeOf_spec]
    omega

end ListingHub.Json
