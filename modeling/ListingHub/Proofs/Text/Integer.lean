import ListingHub.Text.Integer

/-!
# The numbers that texts spell

A text spells a number with one or more decimal digits, before which a plus sign may stand. It is
read as a number below a bound exactly when it spells one.
-/

namespace ListingHub.Text

/-- One or more digits, with or without a plus sign before them, have the value of a number. -/
def Spells (text : List Char) (n : Nat) : Prop :=
  ∃ digits, digits ≠ [] ∧ (∀ c ∈ digits, c.isDigit) ∧ (text = digits ∨ text = '+' :: digits) ∧
    Nat.ofDigitChars 10 digits 0 = n

theorem digit?_eq (c : Char) :
    digit? c = if c.isDigit then some (c.toNat - '0'.toNat) else none := by
  have hdigit : ('0' ≤ c ∧ c ≤ '9') ↔ c.isDigit = true := by
    simp [Char.isDigit, Char.le_def]
  rw [digit?]
  simp only [hdigit]

/-- Digits are read on from a value as their own value after it. -/
theorem digitsFrom_eq_some_iff {value n : Nat} {digits : List Char} :
    digitsFrom value digits = some n ↔
      (∀ c ∈ digits, c.isDigit) ∧ Nat.ofDigitChars 10 digits value = n := by
  induction digits generalizing value with
  | nil => simp [digitsFrom]
  | cons c digits ih =>
      rw [digitsFrom, digit?_eq, List.forall_mem_cons, Nat.ofDigitChars_cons, and_assoc]
      split
      · next hdigit => simp only [Option.bind_some, ih, hdigit, true_and]
      · next hdigit => simp [hdigit]

theorem natural?_eq_some_iff {n : Nat} {digits : List Char} :
    natural? digits = some n ↔
      digits ≠ [] ∧ (∀ c ∈ digits, c.isDigit) ∧ Nat.ofDigitChars 10 digits 0 = n := by
  cases digits with
  | nil => simp [natural?]
  | cons c digits => simp [natural?, digitsFrom_eq_some_iff]

theorem spells_plus_iff {n : Nat} {rest : List Char} :
    Spells ('+' :: rest) n ↔ natural? rest = some n := by
  rw [natural?_eq_some_iff]
  constructor
  · rintro ⟨digits, hne, hdigits, heq | heq, hvalue⟩
    · have hplus : ('+').isDigit := hdigits '+' (heq ▸ List.mem_cons_self)
      cases hplus
    · obtain rfl := (List.cons.inj heq).2
      exact ⟨hne, hdigits, hvalue⟩
  · rintro ⟨hne, hdigits, hvalue⟩
    exact ⟨rest, hne, hdigits, .inr rfl, hvalue⟩

theorem spells_iff_of_ne {n : Nat} {text : List Char} (h : ∀ rest, text ≠ '+' :: rest) :
    Spells text n ↔ natural? text = some n := by
  rw [natural?_eq_some_iff]
  constructor
  · rintro ⟨digits, hne, hdigits, rfl | heq, hvalue⟩
    · exact ⟨hne, hdigits, hvalue⟩
    · exact absurd heq (h digits)
  · rintro ⟨hne, hdigits, hvalue⟩
    exact ⟨text, hne, hdigits, .inl rfl, hvalue⟩

/-- A text is read as a number below a bound exactly when it spells it. -/
theorem unsigned?_eq_some_iff {bound n : Nat} {text : List Char} :
    unsigned? bound text = some n ↔ Spells text n ∧ n < bound := by
  unfold unsigned?
  rw [Option.filter_eq_some_iff, decide_eq_true_eq]
  split
  · rw [spells_plus_iff]
  · next hplus => rw [spells_iff_of_ne fun rest heq => hplus rest heq]

end ListingHub.Text
