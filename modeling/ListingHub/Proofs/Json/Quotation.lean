import ListingHub.Json.Quotation
import ListingHub.Json.Writer
import ListingHub.Proofs.Outcome
import ListingHub.Proofs.Text.Utf8

/-!
# Strings read back

A written character is either behind a backslash, and its escape names it, or stands for itself and
none of its bytes ends a string. So a string is read back up to its closing quote, whatever follows.
-/

namespace ListingHub.Json

open String (utf8EncodeChar)
open Utf8 (spell)

theorem isPlain_iff {b : UInt8} :
    isPlain b = true ↔ 0x20 ≤ b.toNat ∧ b.toNat ≠ 0x22 ∧ b.toNat ≠ 0x5C := by
  simp [isPlain, UInt8.le_iff_toNat_le, ← UInt8.toNat_inj, and_assoc]

/-- The bytes of a character that stands for itself are plain. -/
theorem isPlain_of_mem_utf8EncodeChar {c : Char} (hlow : ¬c < ' ') (hquote : c ≠ '"')
    (hbackslash : c ≠ '\\') {b : UInt8} (hb : b ∈ utf8EncodeChar c) : isPlain b = true := by
  have hlow : 32 ≤ c.toNat := Nat.le_of_not_lt hlow
  have hquote : c.toNat ≠ 0x22 := fun h => hquote (Char.toNat_inj.mp h)
  have hbackslash : c.toNat ≠ 0x5C := fun h => hbackslash (Char.toNat_inj.mp h)
  rw [isPlain_iff]
  have hbyte := Utf8.toNat_of_mem_utf8EncodeChar hb
  omega

/-- A hexadecimal digit is one byte and has its value. -/
theorem hexValue?_digitChar {n : Nat} (h : n < 16) :
    ∃ b, utf8EncodeChar (Nat.digitChar n) = [b] ∧ Text.hexValue? b = some (UInt8.ofNat n) := by
  refine ⟨UInt8.ofNat (Nat.digitChar n).toNat, ?_⟩
  revert n
  decide

/-- Digits that name no surrogate name a character. -/
theorem readUnicode_of_readHex {bytes rest : List UInt8} {code : Nat}
    (h : readHex bytes = .ok (code, rest)) (hcode : code < 0xD800) :
    readUnicode bytes = .ok (Char.ofNat code, rest) := by
  rw [readUnicode, h, bind_ok]
  dsimp only
  rw [if_neg (by omega), if_neg (by omega)]
  rfl

/-- Four digits, the first two of them zero, name a control character. -/
theorem readUnicode_control {c : Char} (h : c < ' ') (rest : List UInt8) :
    readUnicode (spell ['0', '0', Nat.digitChar (c.toNat / 16), Nat.digitChar (c.toNat % 16)] ++
      rest) = .ok (c, rest) := by
  have hlow : c.toNat < 32 := h
  obtain ⟨high, hhigh, hhighvalue⟩ := hexValue?_digitChar (show c.toNat / 16 < 16 by omega)
  obtain ⟨low, hlow', hlowvalue⟩ := hexValue?_digitChar (show c.toNat % 16 < 16 by omega)
  have hzero : Text.hexValue? 0x30 = some 0 := rfl
  have hspelled : spell ['0', '0', Nat.digitChar (c.toNat / 16), Nat.digitChar (c.toNat % 16)] =
      [0x30, 0x30, high, low] := by
    simp only [Utf8.spell_cons, Utf8.spell_nil, hhigh, hlow']
    rfl
  have hhex : readHex ([0x30, 0x30, high, low] ++ rest) = .ok (c.toNat, rest) := by
    have hvalue : 16 * (c.toNat / 16 % 256) + c.toNat % 16 % 256 = c.toNat := by omega
    simp [readHex, hzero, hhighvalue, hlowvalue, hvalue]
  rw [hspelled, readUnicode_of_readHex hhex (by omega), Char.ofNat_toNat]

/-- A written character is escaped, and its escape names it, or its bytes are plain. -/
theorem spell_escapeChar (c : Char) :
    (∃ escape, spell (escapeChar c) = 0x5C :: escape ∧
      ∀ rest, readEscape (escape ++ rest) = .ok (c, rest)) ∨
    (spell (escapeChar c) = utf8EncodeChar c ∧ ∀ b ∈ utf8EncodeChar c, isPlain b = true) := by
  have hshort {letter : Char} {name : UInt8} (hspelled : spell ['\\', letter] = [0x5C, name])
      (hnamed : ∀ rest, readEscape (name :: rest) = .ok (c, rest)) :
      ∃ escape, spell ['\\', letter] = 0x5C :: escape ∧
        ∀ rest, readEscape (escape ++ rest) = .ok (c, rest) :=
    ⟨[name], hspelled, hnamed⟩
  unfold escapeChar
  split
  case h_8 hquote hbackslash _ _ _ _ _ =>
      split
      · next hcontrol =>
          refine .inl ⟨0x75 :: spell ['0', '0', Nat.digitChar (c.toNat / 16),
            Nat.digitChar (c.toNat % 16)], rfl, fun rest => ?_⟩
          exact readUnicode_control hcontrol rest
      · next hcontrol =>
          exact .inr ⟨by simp, fun b => isPlain_of_mem_utf8EncodeChar hcontrol hquote hbackslash⟩
  all_goals exact .inl (hshort rfl fun rest => rfl)

/-- A plain byte stands for itself. -/
theorem readEncoded_cons {b : UInt8} (h : isPlain b = true) (fuel : Nat) (bytes : List UInt8) :
    readEncoded (fuel + 1) (b :: bytes) =
      (readEncoded fuel bytes).map fun (encoded, rest) => (b :: encoded, rest) := by
  obtain ⟨hcontrol, hquote, hbackslash⟩ := isPlain_iff.mp h
  have hcontrol : ¬b < 0x20 := by
    rw [UInt8.lt_iff_toNat_lt]
    exact Nat.not_lt_of_le hcontrol
  rw [readEncoded]
  · rw [if_neg hcontrol]
    cases readEncoded fuel bytes <;> rfl
  · rintro rfl
    exact hquote rfl
  · rintro rfl
    exact hbackslash rfl

/-- Plain bytes stand for themselves. -/
theorem readEncoded_plain {bytes : List UInt8} (h : ∀ b ∈ bytes, isPlain b = true) (fuel : Nat)
    (rest : List UInt8) :
    readEncoded (fuel + bytes.length) (bytes ++ rest) =
      (readEncoded fuel rest).map fun (encoded, rest) => (bytes ++ encoded, rest) := by
  induction bytes with
  | nil => cases hread : readEncoded fuel rest <;> simp [hread, Except.map]
  | cons b bytes ih =>
      have ih := ih fun b hb => h b (List.mem_cons_of_mem _ hb)
      rw [List.cons_append, List.length_cons, ← Nat.add_assoc,
        readEncoded_cons (h b List.mem_cons_self), ih]
      cases readEncoded fuel rest <;> rfl

/-- A written string is read back up to its closing quote. -/
theorem readEncoded_written (characters : List Char) {fuel : Nat} (rest : List UInt8)
    (h : (spell (characters.flatMap escapeChar)).length < fuel) :
    readEncoded fuel (spell (characters.flatMap escapeChar) ++ 0x22 :: rest) =
      .ok (spell characters, rest) := by
  induction characters generalizing fuel with
  | nil =>
      obtain ⟨fuel, rfl⟩ := Nat.exists_eq_add_one_of_ne_zero (Nat.ne_of_gt h)
      rfl
  | cons c characters ih =>
      rw [List.flatMap_cons, Utf8.spell_append] at h ⊢
      rw [List.length_append] at h
      rw [List.append_assoc, Utf8.spell_cons]
      rcases spell_escapeChar c with ⟨escape, hspelled, hnamed⟩ | ⟨hspelled, hplain⟩
      · rw [hspelled, List.length_cons] at h
        obtain ⟨fuel, rfl⟩ := Nat.exists_eq_add_one_of_ne_zero (show fuel ≠ 0 by omega)
        rw [hspelled, List.cons_append, readEncoded, hnamed, bind_ok]
        dsimp only
        rw [ih (by omega), bind_ok, Utf8.ofText_singleton]
        rfl
      · rw [hspelled] at h ⊢
        have hlength : (utf8EncodeChar c).length ≤ fuel := by omega
        obtain ⟨left, rfl⟩ := Nat.exists_eq_add_of_le' hlength
        rw [readEncoded_plain hplain, ih (by omega)]
        rfl

/-- A written string is read back, whatever follows it. -/
theorem readText_writeText (text : String) :
    ∃ body, spell (writeText text) = 0x22 :: body ∧
      ∀ rest, readText (body ++ rest) = .ok (text, rest) := by
  refine ⟨spell (text.toList.flatMap escapeChar) ++ [0x22], ?_, fun rest => ?_⟩
  · rw [writeText, Utf8.spell_cons, Utf8.spell_append]
    rfl
  · have hfuel : (spell (text.toList.flatMap escapeChar)).length <
        (spell (text.toList.flatMap escapeChar) ++ 0x22 :: rest).length + 1 := by
      rw [List.length_append]
      omega
    rw [List.append_assoc, List.singleton_append, readText, readEncoded_written _ _ hfuel, bind_ok]
    simp only [Utf8.scan_spell, String.ofList_toList]
    rfl

end ListingHub.Json
