import ListingHub.Text.Quoted

/-!
# Quoted text tells the text

Inside quotes every character is written so that it can be told from what is written, whatever
follows: one that prints stands for itself and is no backslash, every other is named behind a
backslash, by a letter or by its code point in braces. So no two texts are quoted alike.
-/

namespace ListingHub.Text

/-- The value of a lower-case hexadecimal digit. -/
def hexDigitValue (c : Char) : Nat :=
  if c.isDigit then c.toNat - 0x30 else c.toNat - 0x57

/-- The number that hexadecimal digits spell. -/
def hexNumber (digits : List Char) : Nat :=
  digits.foldl (fun n c => 16 * n + hexDigitValue c) 0

/-- The character that a letter behind a backslash names; a quote and a backslash name
themselves. -/
def named : Char → Char
  | 'n' => '\n'
  | 'r' => '\r'
  | 't' => '\t'
  | '0' => '\x00'
  | c => c

/-- The first character of text inside quotes, and what is written after it. -/
def unquote? : List Char → Option (Char × List Char)
  | '\\' :: 'u' :: '\x7b' :: rest =>
      some (Char.ofNat (hexNumber (rest.takeWhile (· != '\x7d'))),
        (rest.dropWhile (· != '\x7d')).drop 1)
  | '\\' :: c :: rest => some (named c, rest)
  | c :: rest => some (c, rest)
  | [] => none

theorem hexDigitValue_digitChar {n : Nat} (h : n < 16) :
    hexDigitValue (Nat.digitChar n) = n ∧ Nat.digitChar n ≠ '\x7d' := by
  revert n
  decide

/-- The digits of a number spell it, and no brace is among them. -/
theorem hexNumber_hexDigits (n : Nat) :
    hexNumber (hexDigits n) = n ∧ ∀ c ∈ hexDigits n, c ≠ '\x7d' := by
  induction n using Nat.strongRecOn with
  | ind n ih =>
      rw [hexDigits, Nat.toDigits_eq_if (by omega)]
      split
      · next hsmall =>
          obtain ⟨hvalue, hbrace⟩ := hexDigitValue_digitChar hsmall
          exact ⟨by simp [hexNumber, hvalue], List.forall_mem_singleton.mpr hbrace⟩
      · obtain ⟨hvalue, hbrace⟩ := hexDigitValue_digitChar (Nat.mod_lt n (show 0 < 16 by omega))
        obtain ⟨hhigh, hbraces⟩ := ih (n / 16) (by omega)
        rw [hexDigits] at hhigh hbraces
        constructor
        · rw [hexNumber, List.foldl_append, ← hexNumber, hhigh, List.foldl_cons, List.foldl_nil,
            hvalue]
          omega
        · intro c hc
          rcases List.mem_append.mp hc with hc | hc
          · exact hbraces c hc
          · rwa [List.mem_singleton.mp hc]

/-- A character is told from what it is written as, whatever follows. -/
theorem unquote?_quoteChar (c : Char) (rest : List Char) :
    unquote? (quoteChar c ++ rest) = some (c, rest) := by
  unfold quoteChar
  split
  -- What no letter names stands for itself or is written by its code point.
  case h_7 hquote hbackslash _ _ _ _ =>
      split
      · rw [List.singleton_append, unquote?]
        · rintro _ rfl
          exact absurd rfl hbackslash
        · rintro _ _ rfl
          exact absurd rfl hbackslash
      · obtain ⟨hnumber, hbrace⟩ := hexNumber_hexDigits c.toNat
        have hdigits : ∀ d ∈ hexDigits c.toNat, (d != '\x7d') = true := fun d hd =>
          bne_iff_ne.mpr (hbrace d hd)
        simp only [List.append_assoc, List.cons_append, List.nil_append, unquote?]
        rw [List.takeWhile_append_of_pos hdigits, List.dropWhile_append_of_pos hdigits,
          List.takeWhile_cons_of_neg (by decide), List.dropWhile_cons_of_neg (by decide),
          List.append_nil, hnumber, Char.ofNat_toNat, List.drop_one, List.tail_cons]
  all_goals rfl

theorem unquote?_flatMap_cons (c : Char) (rest : List Char) :
    unquote? ((c :: rest).flatMap quoteChar) = some (c, rest.flatMap quoteChar) := by
  rw [List.flatMap_cons, unquote?_quoteChar]

theorem flatMap_quoteChar_inj {first second : List Char}
    (h : first.flatMap quoteChar = second.flatMap quoteChar) : first = second := by
  have htold := congrArg unquote? h
  induction first generalizing second with
  | nil =>
      cases second with
      | nil => rfl
      | cons d second =>
          rw [unquote?_flatMap_cons] at htold
          cases htold
  | cons c first ih =>
      cases second with
      | nil =>
          rw [unquote?_flatMap_cons] at htold
          cases htold
      | cons d second =>
          rw [unquote?_flatMap_cons, unquote?_flatMap_cons] at htold
          obtain ⟨rfl, hrest⟩ := Prod.mk.inj (Option.some.inj htold)
          rw [ih hrest (congrArg unquote? hrest)]

/-- Only one text is quoted as it is. -/
theorem quoted_inj {first second : String} : quoted first = quoted second ↔ first = second := by
  refine ⟨fun h => ?_, congrArg quoted⟩
  rw [quoted, quoted, String.ofList_inj, List.cons_append, List.cons_append, List.cons.injEq,
    List.append_cancel_right_eq] at h
  exact String.toList_inj.mp (flatMap_quoteChar_inj h.2)

end ListingHub.Text
