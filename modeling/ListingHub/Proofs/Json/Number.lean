import ListingHub.Json.Number
import ListingHub.Proofs.Text.Utf8

/-!
# Integers read back

A number that is read is a double or an integer that fits 64 bits, signed or unsigned. The decimal
digits of such an integer are read back as it, up to bytes that no number goes on with.
-/

namespace ListingHub.Json

open Utf8 (spell)

/-- What may stand where a number stands. -/
def IsNumber : Json → Prop
  | .int value => -9_223_372_036_854_775_808 ≤ value ∧ value < 18_446_744_073_709_551_616
  | .double _ => True
  | _ => False

/-- Digits that fit stay below the bound. -/
theorem fit_lt {bound value : Nat} (h : value < bound) (digits : List Nat) :
    (fit bound value digits).1 < bound := by
  induction digits generalizing value with
  | nil => exact h
  | cons d digits ih =>
      rw [fit]
      split
      · next hfits => exact ih hfits
      · exact h

theorem isNumber_whole {significand : Nat} (h : significand < 18_446_744_073_709_551_616)
    (negative : Bool) : (whole negative significand).IsNumber := by
  unfold whole
  split
  · constructor <;> omega
  split
  · trivial
  · constructor <;> omega

theorem isNumber_of_value {x : Literal} {bytes rest : List UInt8} {v : Json}
    (h : x.value bytes = .ok (v, rest)) : v.IsNumber := by
  unfold Literal.value at h
  split at h <;> cases h
  trivial

theorem isNumber_of_readExponentDigits {x : Literal} {negative : Bool} {bytes rest : List UInt8}
    {v : Json} (h : readExponentDigits x negative bytes = .ok (v, rest)) : v.IsNumber := by
  unfold readExponentDigits at h
  split at h
  · cases h
  split at h
  · cases h
  dsimp only at h
  split at h
  · exact isNumber_of_value h
  split at h <;> cases h
  trivial

theorem isNumber_of_readExponent {x : Literal} {bytes rest : List UInt8} {v : Json}
    (h : readExponent x bytes = .ok (v, rest)) : v.IsNumber := by
  unfold readExponent at h
  split at h
  · split at h <;> exact isNumber_of_readExponentDigits h
  · split at h <;> exact isNumber_of_readExponentDigits h
  · exact isNumber_of_value h

theorem isNumber_of_readFraction {x : Literal} {bytes rest : List UInt8} {v : Json}
    (h : readFraction x bytes = .ok (v, rest)) : v.IsNumber := by
  unfold readFraction at h
  dsimp only at h
  split at h
  · cases h
  · cases h
  · exact isNumber_of_readExponent h

theorem isNumber_of_readPart {x : Literal} (hx : x.significand < 18_446_744_073_709_551_616)
    {bytes rest : List UInt8} {v : Json} (h : readPart x bytes = .ok (v, rest)) : v.IsNumber := by
  unfold readPart at h
  split at h
  · exact isNumber_of_readFraction h
  · exact isNumber_of_readExponent h
  · exact isNumber_of_readExponent h
  split at h
  · cases h
    exact isNumber_whole hx _
  · exact isNumber_of_value h

theorem isNumber_of_readUnsigned {negative : Bool} {bytes rest : List UInt8} {v : Json}
    (h : readUnsigned negative bytes = .ok (v, rest)) : v.IsNumber := by
  unfold readUnsigned at h
  split at h
  · cases h
  split at h
  · split at h
    · split at h
      · cases h
      · exact isNumber_of_readPart (Nat.succ_pos _) h
    · exact isNumber_of_readPart (Nat.succ_pos _) h
  split at h
  · exact isNumber_of_readPart (fit_lt (Nat.succ_pos _) _) h
  · cases h

/-- A number that is read is a double or fits 64 bits. -/
theorem isNumber_of_readNumber {bytes rest : List UInt8} {v : Json}
    (h : readNumber bytes = .ok (v, rest)) : v.IsNumber := by
  unfold readNumber at h
  split at h <;> exact isNumber_of_readUnsigned h

/-- Bytes that no number goes on with. -/
def Apart (rest : List UInt8) : Prop :=
  ∀ b ∈ rest.head?, isDigit b = false ∧ b ≠ 0x2E ∧ b ≠ 0x65 ∧ b ≠ 0x45

theorem isDigit_iff {b : UInt8} : isDigit b = true ↔ 0x30 ≤ b.toNat ∧ b.toNat ≤ 0x39 := by
  simp [isDigit, UInt8.le_iff_toNat_le]

/-- The digits of a number in a text. -/
theorem toNat_of_mem_toDigits {n : Nat} {c : Char} (h : c ∈ Nat.toDigits 10 n) :
    0x30 ≤ c.toNat ∧ c.toNat ≤ 0x39 := by
  have hdigit := Nat.isDigit_of_mem_toDigits (by omega) (by omega) h
  simpa [Char.isDigit, UInt32.le_iff_toNat_le] using hdigit

theorem spell_toDigits (n : Nat) :
    spell (Nat.toDigits 10 n) = (Nat.toDigits 10 n).map fun c => UInt8.ofNat c.toNat := by
  apply Utf8.spell_ascii
  intro c hc
  have := toNat_of_mem_toDigits hc
  omega

theorem isDigit_of_mem_spell {n : Nat} {b : UInt8} (h : b ∈ spell (Nat.toDigits 10 n)) :
    isDigit b = true := by
  rw [spell_toDigits] at h
  obtain ⟨c, hc, rfl⟩ := List.mem_map.mp h
  have hdigit := toNat_of_mem_toDigits hc
  rw [isDigit_iff, Utf8.toNat_ofNat_of_lt (by omega)]
  exact hdigit

theorem takeWhile_of_apart {rest : List UInt8} (h : Apart rest) :
    rest.takeWhile isDigit = [] := by
  cases rest with
  | nil => rfl
  | cons b rest => simp [(h b rfl).1]

theorem dropWhile_of_apart {rest : List UInt8} (h : Apart rest) :
    rest.dropWhile isDigit = rest := by
  cases rest with
  | nil => rfl
  | cons b rest => simp [(h b rfl).1]

/-- The digits of a number end before bytes that no number goes on with. -/
theorem afterDigits_toDigits (n : Nat) {rest : List UInt8} (h : Apart rest) :
    afterDigits (spell (Nat.toDigits 10 n) ++ rest) = rest := by
  rw [afterDigits, List.dropWhile_append_of_pos fun b => isDigit_of_mem_spell,
    dropWhile_of_apart h]

theorem digitsOf_toDigits (n : Nat) {rest : List UInt8} (h : Apart rest) :
    digitsOf (spell (Nat.toDigits 10 n) ++ rest) =
      (Nat.toDigits 10 n).map fun c => c.toNat - 0x30 := by
  rw [digitsOf, List.takeWhile_append_of_pos fun b => isDigit_of_mem_spell,
    takeWhile_of_apart h, List.append_nil, spell_toDigits, List.map_map]
  apply List.map_congr_left
  intro c hc
  have hdigit := toNat_of_mem_toDigits hc
  rw [Function.comp_apply, Utf8.toNat_ofNat_of_lt (by omega)]

/-- Digits that spell a number below the bound all fit. -/
theorem fit_ofDigitChars {bound value : Nat} {digits : List Char}
    (h : Nat.ofDigitChars 10 digits value < bound) :
    fit bound value (digits.map fun c => c.toNat - 0x30) =
      (Nat.ofDigitChars 10 digits value, 0) := by
  induction digits generalizing value with
  | nil => rw [List.map_nil, fit, Nat.ofDigitChars_nil]
  | cons c digits ih =>
      have hzero : '0'.toNat = 0x30 := rfl
      rw [Nat.ofDigitChars_cons, hzero, Nat.mul_comm] at h ⊢
      have hgrows : value * 10 + (c.toNat - 0x30) ≤
          Nat.ofDigitChars 10 digits (value * 10 + (c.toNat - 0x30)) := by
        rw [Nat.ofDigitChars_eq_ofDigitChars_zero]
        exact Nat.le_trans (Nat.le_mul_of_pos_left _ (Nat.pow_pos (by omega))) (Nat.le_add_right ..)
      rw [List.map_cons, fit, if_pos (by omega), ih h]

/-- The digits of a positive number do not begin with a zero. -/
theorem head_toDigits_ne_zero {n : Nat} (h : 0 < n) {c : Char} {digits : List Char}
    (hdigits : Nat.toDigits 10 n = c :: digits) : c ≠ '0' := by
  induction n using Nat.strongRecOn generalizing digits with
  | ind n ih =>
      rw [Nat.toDigits_eq_if (by omega)] at hdigits
      split at hdigits
      · cases hdigits
        simpa using Nat.ne_of_gt h
      · obtain ⟨c', digits', hfirst⟩ :=
          List.exists_cons_of_ne_nil (Nat.toDigits_ne_nil (n := n / 10))
        rw [hfirst, List.cons_append] at hdigits
        cases hdigits
        exact ih (n / 10) (by omega) (by omega) hfirst

/-- The bytes of a number begin with a digit, which is zero for zero alone. -/
theorem exists_spell_toDigits (n : Nat) :
    ∃ b bytes, spell (Nat.toDigits 10 n) = b :: bytes ∧ isDigit b = true ∧ (0 < n → b ≠ 0x30) := by
  obtain ⟨c, digits, hdigits⟩ := List.exists_cons_of_ne_nil (Nat.toDigits_ne_nil (n := n))
  have hspelled : spell (Nat.toDigits 10 n) =
      UInt8.ofNat c.toNat :: digits.map fun c => UInt8.ofNat c.toNat := by
    rw [spell_toDigits, hdigits, List.map_cons]
  have hdigit := toNat_of_mem_toDigits (hdigits ▸ List.mem_cons_self : c ∈ Nat.toDigits 10 n)
  refine ⟨_, _, hspelled, isDigit_of_mem_spell (hspelled ▸ List.mem_cons_self), fun hpos hb => ?_⟩
  apply head_toDigits_ne_zero hpos hdigits
  apply Char.toNat_inj.mp
  calc c.toNat = (UInt8.ofNat c.toNat).toNat := (Utf8.toNat_ofNat_of_lt (by omega)).symm
    _ = '0'.toNat := by rw [hb]; rfl

theorem readPart_of_apart {rest : List UInt8} (h : Apart rest) (negative : Bool)
    (significand : Nat) :
    readPart ⟨negative, significand, 0⟩ rest = .ok (whole negative significand, rest) := by
  unfold readPart
  split
  · exact absurd rfl (h _ rfl).2.1
  · exact absurd rfl (h _ rfl).2.2.1
  · exact absurd rfl (h _ rfl).2.2.2
  · rfl

/-- The digits of a number that fits 64 bits are read back. -/
theorem readUnsigned_toDigits (negative : Bool) {n : Nat} (hn : n < 18_446_744_073_709_551_616)
    {rest : List UInt8} (hrest : Apart rest) :
    readUnsigned negative (spell (Nat.toDigits 10 n) ++ rest) =
      .ok (whole negative n, rest) := by
  rcases Nat.eq_zero_or_pos n with rfl | hpos
  · rw [Nat.toDigits_zero]
    change readUnsigned negative (0x30 :: rest) = _
    cases rest with
    | nil => rfl
    | cons b rest =>
        have hdigit := (hrest b rfl).1
        simp only [readUnsigned, hdigit, ↓reduceIte]
        exact readPart_of_apart hrest negative 0
  · obtain ⟨b, bytes, hspelled, hdigit, hb⟩ := exists_spell_toDigits n
    have hfit : fit 18_446_744_073_709_551_616 0
        ((Nat.toDigits 10 n).map fun c => c.toNat - 0x30) = (n, 0) := by
      have hvalue : Nat.ofDigitChars 10 (Nat.toDigits 10 n) 0 = n := Nat.ofDigitChars_ten_toDigits
      rw [fit_ofDigitChars (by rw [hvalue]; exact hn), hvalue]
    rw [hspelled, List.cons_append]
    simp only [readUnsigned, if_neg (hb hpos), if_pos hdigit]
    rw [← List.cons_append, ← hspelled, digitsOf_toDigits n hrest, afterDigits_toDigits n hrest,
      hfit]
    exact readPart_of_apart hrest negative n

theorem toList_toString_ofNat (n : Nat) :
    (toString (Int.ofNat n)).toList = Nat.toDigits 10 n := by
  simp [Int.repr]

theorem toList_toString_negSucc (n : Nat) :
    (toString (Int.negSucc n)).toList = '-' :: Nat.toDigits 10 (n + 1) := by
  simp [Int.repr]

/-- The digits of an integer that fits 64 bits, after its sign, are read back. -/
theorem readNumber_toString {value : Int} (h : IsNumber (.int value)) :
    ∃ b bytes, spell (toString value).toList = b :: bytes ∧ (b = 0x2D ∨ isDigit b = true) ∧
      ∀ rest, Apart rest → readNumber (b :: bytes ++ rest) = .ok (.int value, rest) := by
  obtain ⟨hlow, hhigh⟩ := h
  cases value with
  | ofNat n =>
      obtain ⟨b, bytes, hspelled, hdigit, -⟩ := exists_spell_toDigits n
      rw [toList_toString_ofNat]
      refine ⟨b, bytes, hspelled, .inr hdigit, fun rest hrest => ?_⟩
      have hunsigned :
          readNumber (b :: bytes ++ rest) = readUnsigned false (b :: bytes ++ rest) := by
        rw [readNumber]
        intro tail htail
        rw [List.cons_append, List.cons.injEq] at htail
        rw [htail.1] at hdigit
        cases hdigit
      rw [hunsigned, ← hspelled, readUnsigned_toDigits false (Int.ofNat_lt.mp hhigh) hrest]
      rfl
  | negSucc n =>
      rw [toList_toString_negSucc, Utf8.spell_cons]
      refine ⟨0x2D, spell (Nat.toDigits 10 (n + 1)), rfl, .inl rfl, fun rest hrest => ?_⟩
      have hwhole : whole true (n + 1) = .int (Int.negSucc n) := by
        rw [whole, if_neg (by decide), if_neg (by omega), Int.negSucc_eq]
        rfl
      rw [List.cons_append, readNumber, readUnsigned_toDigits true (by omega) hrest, hwhole]

end ListingHub.Json
