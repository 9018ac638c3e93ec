import ListingHub.Json.Typed
import ListingHub.Proofs.Outcome
import Mathlib.Data.List.DropRight

/-!
# What can be read can be skipped

Readers go down into a value, and their depth is limited; skipping goes along the bytes and keeps
the containers that are open. Whatever a reader takes for a value, skipping moves past the same
bytes: a string or a number by the same steps, a container by one round for each value inside it.
Each round takes a byte at least, so that skipping never runs out of rounds.
-/

namespace ListingHub.Json

section Lengths

variable {bytes rest : List UInt8}

theorem length_skipBlanks_le (bytes : List UInt8) : (skipBlanks bytes).length ≤ bytes.length :=
  (List.dropWhile_suffix _).length_le

theorem length_afterDigits_le (bytes : List UInt8) : (afterDigits bytes).length ≤ bytes.length :=
  (List.dropWhile_suffix _).length_le

/-- Four digits are four bytes. -/
theorem length_of_readHex {code : Nat} (h : readHex bytes = .ok (code, rest)) :
    bytes.length = rest.length + 4 := by
  unfold readHex at h
  split at h
  · split at h
    · cases h
      rfl
    · cases h
  · cases h

/-- The second half of a pair is behind a backslash and a `u`. -/
theorem readHex_of_readLowSurrogate {high : Nat} {c : Char}
    (h : readLowSurrogate high bytes = .ok (c, rest)) :
    ∃ digits low, bytes = 0x5C :: 0x75 :: digits ∧ readHex digits = .ok (low, rest) := by
  unfold readLowSurrogate at h
  split at h
  · cases h
  · cases h
  · next digits =>
      obtain ⟨⟨low, after⟩, hlow, h⟩ := bind_eq_ok.mp h
      dsimp only at h
      split at h
      · obtain ⟨-, rfl⟩ := Prod.mk.inj (Except.ok.inj h)
        exact ⟨digits, low, rfl, hlow⟩
      · cases h
  · cases h
  · cases h

/-- A character named by digits takes four of them, or a pair of surrogates. -/
theorem readHex_of_readUnicode {c : Char} (h : readUnicode bytes = .ok (c, rest)) :
    ∃ code after, readHex bytes = .ok (code, after) ∧
      (after = rest ∨ ∃ digits low, after = 0x5C :: 0x75 :: digits ∧
        readHex digits = .ok (low, rest)) := by
  obtain ⟨⟨code, after⟩, hcode, h⟩ := bind_eq_ok.mp h
  refine ⟨code, after, hcode, ?_⟩
  dsimp only at h
  split at h
  · cases h
  split at h
  · exact .inr (readHex_of_readLowSurrogate h)
  · cases h
    exact .inl rfl

theorem length_of_readEscape {c : Char} (h : readEscape bytes = .ok (c, rest)) :
    rest.length < bytes.length := by
  unfold readEscape at h
  split at h
  case h_10 =>
      obtain ⟨code, after, hcode, hafter⟩ := readHex_of_readUnicode h
      have hlength := length_of_readHex hcode
      rcases hafter with rfl | ⟨digits, low, rfl, hlow⟩
      · simp only [List.length_cons]
        omega
      · have hpair := length_of_readHex hlow
        simp only [List.length_cons] at hlength ⊢
        omega
  all_goals cases h <;> exact Nat.lt_succ_self _

theorem length_of_skipText {fuel : Nat} (h : skipText fuel bytes = .ok rest) :
    rest.length < bytes.length := by
  induction fuel generalizing bytes with
  | zero => cases h
  | succ fuel ih =>
      have hplain := (List.dropWhile_suffix (l := bytes) isPlain).length_le
      rw [skipText] at h
      split at h
      · cases h
      · next heq =>
          cases h
          rw [heq] at hplain
          exact hplain
      · next heq =>
          obtain ⟨⟨code, after⟩, hcode, h⟩ := bind_eq_ok.mp h
          have hafter := length_of_readHex hcode
          have hrest := ih h
          rw [heq] at hplain
          simp only [List.length_cons] at hplain
          omega
      · next heq =>
          obtain ⟨⟨c, after⟩, hc, h⟩ := bind_eq_ok.mp h
          have hafter := length_of_readEscape hc
          have hrest := ih h
          rw [heq] at hplain
          simp only [List.length_cons] at hplain
          omega
      · cases h

theorem length_of_skipExponentDigits (h : skipExponentDigits bytes = .ok rest) :
    rest.length < bytes.length := by
  unfold skipExponentDigits at h
  split at h
  · cases h
  · split at h <;> cases h
    exact Nat.lt_succ_of_le (length_afterDigits_le _)

theorem length_of_skipExponent (h : skipExponent bytes = .ok rest) :
    rest.length ≤ bytes.length := by
  unfold skipExponent at h
  split at h
  case h_3 =>
      cases h
      exact Nat.le_refl _
  all_goals
    split at h <;>
    · have hdigits := length_of_skipExponentDigits h
      simp only [List.length_cons]
      omega

theorem length_of_skipFraction (h : skipFraction bytes = .ok rest) :
    rest.length ≤ bytes.length := by
  unfold skipFraction at h
  split at h
  · split at h
    · cases h
    · have hexponent := length_of_skipExponent h
      have hdigits := length_afterDigits_le ‹_›
      simp only [List.length_cons]
      omega
  · exact length_of_skipExponent h

theorem length_of_skipUnsigned (h : skipUnsigned bytes = .ok rest) :
    rest.length < bytes.length := by
  unfold skipUnsigned at h
  split at h
  · cases h
  · next tail =>
      have hdigits := length_afterDigits_le tail
      rw [List.length_cons]
      split at h
      · split at h
        · exact Nat.lt_succ_of_le (length_of_skipFraction h)
        · cases h
      · split at h
        · have hfraction := length_of_skipFraction h
          omega
        · cases h

theorem length_of_readWord {value v : Json} {letters : List UInt8}
    (h : readWord value letters bytes = .ok (v, rest)) : rest.length ≤ bytes.length := by
  induction letters generalizing bytes with
  | nil =>
      cases h
      exact Nat.le_refl _
  | cons letter letters ih =>
      cases bytes with
      | nil => cases h
      | cons b bytes =>
          rw [readWord] at h
          split at h
          · exact Nat.le_succ_of_le (ih h)
          · cases h

theorem length_of_skipScalar (h : skipScalar bytes = .ok rest) : rest.length < bytes.length := by
  unfold skipScalar at h
  split at h
  · exact Nat.lt_succ_of_lt (length_of_skipText h)
  · exact Nat.lt_succ_of_lt (length_of_skipUnsigned h)
  · next b tail hquote hminus =>
      split at h
      · exact length_of_skipUnsigned h
      · next hdigit =>
          obtain ⟨⟨v, after⟩, hread, rfl⟩ := map_eq_ok.mp h
          unfold readScalar at hread
          split at hread
          · cases hread
          · next heq =>
              cases heq
              exact Nat.lt_succ_of_le (length_of_readWord hread)
          · next heq =>
              cases heq
              exact Nat.lt_succ_of_le (length_of_readWord hread)
          · next heq =>
              cases heq
              exact Nat.lt_succ_of_le (length_of_readWord hread)
          · next heq => exact absurd (List.cons.inj heq).1 hquote
          · next heq =>
              cases heq
              rw [if_neg (not_or.mpr ⟨hminus, hdigit⟩)] at hread
              cases hread
  · cases h

theorem length_of_colon (h : colon bytes = .ok rest) : rest.length < bytes.length := by
  have hblanks := length_skipBlanks_le bytes
  unfold colon at h
  split at h
  · cases h
  · next heq =>
      split at h <;> cases h
      rw [heq] at hblanks
      exact hblanks

theorem length_of_skipName (h : skipName bytes = .ok rest) : rest.length < bytes.length := by
  have hblanks := length_skipBlanks_le bytes
  unfold skipName at h
  split at h
  · cases h
  · next heq =>
      obtain ⟨after, htext, h⟩ := bind_eq_ok.mp h
      have hafter := length_of_skipText htext
      have hrest := length_of_colon h
      rw [heq] at hblanks
      simp only [List.length_cons] at hblanks
      omega
  · cases h

theorem length_of_skipToValue {fresh : Bool} {frames opened : List Frame}
    (h : skipToValue fresh frames bytes = .ok (opened, rest)) : rest.length ≤ bytes.length := by
  induction frames generalizing fresh bytes with
  | nil =>
      cases h
      exact Nat.le_refl _
  | cons frame frames ih =>
      have hblanks := length_skipBlanks_le bytes
      cases frame with
      | list =>
          rw [skipToValue] at h
          split at h
          · cases h
          · next heq =>
              have hrest := ih h
              rw [heq, List.length_cons] at hblanks
              omega
          · split at h
            · cases h
              exact hblanks
            · split at h <;> cases h
              simp only [*, List.length_cons] at hblanks
              omega
      | object =>
          rw [skipToValue] at h
          split at h
          · cases h
          · next heq =>
              have hrest := ih h
              rw [heq, List.length_cons] at hblanks
              omega
          · split at h
            · obtain ⟨after, hname, heq⟩ := map_eq_ok.mp h
              cases heq
              exact Nat.le_trans (Nat.le_of_lt (length_of_skipName hname)) hblanks
            · split at h
              · obtain ⟨after, hname, heq⟩ := map_eq_ok.mp h
                cases heq
                have hafter := length_of_skipName hname
                simp only [*, List.length_cons] at hblanks
                omega
              · cases h

end Lengths

section Rounds

variable {bytes rest : List UInt8} {fuel : Nat} {frames : List Frame}

/-- What skipping does after the opening bracket of a container, or behind a value. -/
def skipFrom (fuel : Nat) (fresh : Bool) (frames : List Frame) (bytes : List UInt8) :
    Except Fault (List UInt8) := do
  let (frames, rest) ← skipToValue fresh frames bytes
  if frames.isEmpty then return rest else skipValues fuel frames rest

theorem skipValues_list (h : skipBlanks bytes = 0x5B :: rest) :
    skipValues (fuel + 1) frames bytes = skipFrom fuel true (.list :: frames) rest := by
  simp only [skipValues, h]
  rfl

theorem skipValues_object (h : skipBlanks bytes = 0x7B :: rest) :
    skipValues (fuel + 1) frames bytes = skipFrom fuel true (.object :: frames) rest := by
  simp only [skipValues, h]
  rfl

theorem skipValues_scalar (hlist : ∀ tail, skipBlanks bytes ≠ 0x5B :: tail)
    (hobject : ∀ tail, skipBlanks bytes ≠ 0x7B :: tail) :
    skipValues (fuel + 1) frames bytes =
      (skipScalar (skipBlanks bytes) >>= skipFrom fuel false frames) := by
  rw [skipValues]
  split
  · next heq => exact absurd heq (hlist _)
  · next heq => exact absurd heq (hobject _)
  · cases skipScalar (skipBlanks bytes) <;> rfl

/-- A container that is closed leaves the ones around it. -/
theorem skipFrom_of_closed {fresh : Bool} {frame : Frame}
    (h : skipToValue fresh (frame :: frames) bytes = skipToValue false frames rest) :
    skipFrom fuel fresh (frame :: frames) bytes = skipFrom fuel false frames rest := by
  rw [skipFrom, skipFrom, h]

/-- In a container that is open, the next value is moved past. -/
theorem skipFrom_of_opened {fresh : Bool} {frame : Frame} {opened : List Frame}
    (h : skipToValue fresh frames bytes = .ok (frame :: opened, rest)) :
    skipFrom fuel fresh frames bytes = skipValues fuel (frame :: opened) rest := by
  rw [skipFrom, h]
  rfl

/-- With nothing open, skipping ends behind a value. -/
theorem skipFrom_nil : skipFrom fuel false [] bytes = .ok bytes := rfl

/-- Each round moves on. -/
theorem length_of_skipValues (h : skipValues fuel frames bytes = .ok rest) :
    rest.length ≤ bytes.length := by
  induction fuel generalizing frames bytes with
  | zero =>
      cases h
      exact Nat.le_refl _
  | succ fuel ih =>
      have hfrom {fresh : Bool} {frames : List Frame} {bytes : List UInt8}
          (h : skipFrom fuel fresh frames bytes = .ok rest) : rest.length ≤ bytes.length := by
        obtain ⟨⟨opened, next⟩, hnext, h⟩ := bind_eq_ok.mp h
        have hlength := length_of_skipToValue hnext
        dsimp only at h
        split at h
        · cases h
          exact hlength
        · exact Nat.le_trans (ih h) hlength
      have hblanks := length_skipBlanks_le bytes
      by_cases hlist : ∃ tail, skipBlanks bytes = 0x5B :: tail
      · obtain ⟨tail, htail⟩ := hlist
        rw [skipValues_list htail] at h
        have hrest := hfrom h
        rw [htail, List.length_cons] at hblanks
        omega
      by_cases hobject : ∃ tail, skipBlanks bytes = 0x7B :: tail
      · obtain ⟨tail, htail⟩ := hobject
        rw [skipValues_object htail] at h
        have hrest := hfrom h
        rw [htail, List.length_cons] at hblanks
        omega
      · rw [skipValues_scalar (not_exists.mp hlist) (not_exists.mp hobject)] at h
        obtain ⟨after, hscalar, h⟩ := bind_eq_ok.mp h
        have hrest := hfrom h
        have hafter := length_of_skipScalar hscalar
        omega

theorem length_of_skipValue (h : skipValue bytes = .ok rest) : rest.length ≤ bytes.length :=
  length_of_skipValues h

end Rounds

section Scalars

variable {bytes rest : List UInt8} {v : Json}

/-- A plain byte is moved past with those behind it. -/
theorem skipText_cons {b : UInt8} (h : isPlain b = true) (fuel : Nat) (bytes : List UInt8) :
    skipText (fuel + 1) (b :: bytes) = skipText (fuel + 1) bytes := by
  rw [skipText, skipText, List.dropWhile_cons_of_pos h]

/-- Digits that name a character are moved past by themselves. -/
theorem skipText_unicode {digits : List UInt8} {code : Nat}
    (h : readHex digits = .ok (code, rest)) (fuel : Nat) :
    skipText (fuel + 1) (0x5C :: 0x75 :: digits) = skipText fuel rest := by
  rw [skipText, List.dropWhile_cons_of_neg (by decide)]
  simp only []
  rw [h, bind_ok]

theorem skipText_escape {escape : List UInt8} {c : Char} (h : readEscape escape = .ok (c, rest))
    (hunicode : ∀ digits, escape ≠ 0x75 :: digits) (fuel : Nat) :
    skipText (fuel + 1) (0x5C :: escape) = skipText fuel rest := by
  rw [skipText, List.dropWhile_cons_of_neg (by decide)]
  split
  · next heq => cases heq
  · next heq => cases heq
  · next digits heq => exact absurd (List.cons.inj heq).2 (hunicode digits)
  · next heq =>
      cases heq
      rw [h, bind_ok]
  · next hescape => exact absurd rfl (hescape _)

/-- Up to its closing quote, the bytes of a string that is read are moved past. -/
theorem skipText_of_readEncoded {fuel : Nat} {encoded : List UInt8}
    (h : readEncoded fuel bytes = .ok (encoded, rest)) {left : Nat} (hleft : bytes.length < left) :
    skipText left bytes = .ok rest := by
  induction fuel generalizing bytes encoded left with
  | zero => cases h
  | succ fuel ih =>
      obtain ⟨left, rfl⟩ := Nat.exists_eq_add_one_of_ne_zero (Nat.ne_zero_of_lt hleft)
      unfold readEncoded at h
      split at h
      · cases h
      · cases h
        rfl
      · next escape =>
          obtain ⟨⟨c, after⟩, hc, h⟩ := bind_eq_ok.mp h
          obtain ⟨⟨others, next⟩, hothers, h⟩ := bind_eq_ok.mp h
          cases h
          rw [List.length_cons] at hleft
          by_cases hunicode : ∃ digits, escape = 0x75 :: digits
          · obtain ⟨digits, rfl⟩ := hunicode
            obtain ⟨code, middle, hcode, hmiddle⟩ := readHex_of_readUnicode hc
            have hlength := length_of_readHex hcode
            rw [List.length_cons] at hleft
            rw [skipText_unicode hcode]
            rcases hmiddle with rfl | ⟨pair, low, rfl, hlow⟩
            · exact ih hothers (by omega)
            · -- a pair of surrogates is two escapes to the skipper
              have hpair := length_of_readHex hlow
              simp only [List.length_cons] at hlength
              obtain ⟨left, rfl⟩ := Nat.exists_eq_add_one_of_ne_zero (show left ≠ 0 by omega)
              rw [skipText_unicode hlow]
              exact ih hothers (by omega)
          · have hlength := length_of_readEscape hc
            rw [skipText_escape hc (not_exists.mp hunicode)]
            exact ih hothers (by omega)
      · next b tail hquote hbackslash =>
          split at h
          · cases h
          · next hcontrol =>
              obtain ⟨⟨others, next⟩, hothers, h⟩ := bind_eq_ok.mp h
              cases h
              have hplain : isPlain b = true := by
                simp only [isPlain, Bool.and_eq_true, decide_eq_true_eq, bne_iff_ne]
                exact ⟨⟨UInt8.not_lt.mp hcontrol, hquote⟩, hbackslash⟩
              rw [skipText_cons hplain]
              exact ih hothers (Nat.lt_of_succ_lt hleft)

theorem skipText_of_readText {text : String} (h : readText bytes = .ok (text, rest)) {left : Nat}
    (hleft : bytes.length < left) : skipText left bytes = .ok rest := by
  obtain ⟨⟨encoded, after⟩, hencoded, h⟩ := bind_eq_ok.mp h
  dsimp only at h
  split at h <;> cases h
  exact skipText_of_readEncoded hencoded hleft

/-- A digit among others is moved past with them. -/
theorem afterDigits_cons {b : UInt8} (h : isDigit b = true) (bytes : List UInt8) :
    afterDigits (b :: bytes) = afterDigits bytes :=
  List.dropWhile_cons_of_pos h

theorem eq_of_value {x : Literal} (h : x.value bytes = .ok (v, rest)) : bytes = rest := by
  unfold Literal.value at h
  split at h <;> cases h
  rfl

theorem skipExponentDigits_of_read {x : Literal} {negative : Bool}
    (h : readExponentDigits x negative bytes = .ok (v, rest)) :
    skipExponentDigits bytes = .ok rest := by
  unfold readExponentDigits at h
  split at h
  · cases h
  · next b tail =>
      split at h
      · cases h
      · next hdigit =>
          have hdigit : isDigit b = true := by simpa using hdigit
          rw [skipExponentDigits, if_pos hdigit, ← afterDigits_cons hdigit]
          dsimp only at h
          split at h
          · rw [eq_of_value h]
          · split at h <;> cases h
            rfl

theorem skipExponent_of_read {x : Literal} (h : readExponent x bytes = .ok (v, rest)) :
    skipExponent bytes = .ok rest := by
  unfold readExponent at h
  split at h
  case h_3 hlower hupper =>
      unfold skipExponent
      rw [← eq_of_value h]
      split
      · exact absurd rfl (hlower _)
      · exact absurd rfl (hupper _)
      · rfl
  all_goals
    split at h
    · rw [skipExponent]
      exact skipExponentDigits_of_read h
    · rw [skipExponent]
      exact skipExponentDigits_of_read h
    · next hplus hminus =>
        rw [skipExponent]
        · exact skipExponentDigits_of_read h
        · exact hplus
        · exact hminus

theorem skipFraction_of_readPart {x : Literal} (h : readPart x bytes = .ok (v, rest)) :
    skipFraction bytes = .ok rest := by
  unfold readPart at h
  split at h
  · next fraction =>
      rw [skipFraction]
      unfold readFraction at h
      dsimp only at h
      split at h
      · cases h
      · cases h
      · next hdigits _ =>
          rw [if_neg hdigits]
          exact skipExponent_of_read h
  · exact skipExponent_of_read h
  · exact skipExponent_of_read h
  · next hpoint hlower hupper =>
      have hafter : bytes = rest := by
        split at h
        · cases h
          rfl
        · exact eq_of_value h
      unfold skipFraction
      split
      · exact absurd rfl (hpoint _)
      · unfold skipExponent
        split
        · exact absurd rfl (hlower _)
        · exact absurd rfl (hupper _)
        · rw [hafter]

/-- Where no digit comes next, no digits come. -/
theorem digitsOf_cons {b : UInt8} (h : isDigit b = false) (bytes : List UInt8) :
    digitsOf (b :: bytes) = [] := by
  rw [digitsOf, List.takeWhile_cons_of_neg (by simp [h]), List.map_nil]

theorem skipUnsigned_of_read {negative : Bool} (h : readUnsigned negative bytes = .ok (v, rest)) :
    skipUnsigned bytes = .ok rest := by
  unfold readUnsigned at h
  split at h
  · cases h
  · next b tail =>
      rw [skipUnsigned]
      split at h
      · next hzero =>
          rw [if_pos hzero]
          split at h
          · next b tail =>
              split at h
              · cases h
              · next hdigit =>
                  rw [if_pos (digitsOf_cons (Bool.eq_false_iff.mpr hdigit) tail)]
                  exact skipFraction_of_readPart h
          · exact skipFraction_of_readPart h
      · next hzero =>
          rw [if_neg hzero]
          split at h
          · next hdigit =>
              rw [if_pos hdigit, ← afterDigits_cons hdigit]
              exact skipFraction_of_readPart h
          · cases h

/-- A value that is no container is moved past. -/
theorem skipScalar_of_read (h : readScalar bytes = .ok (v, rest)) :
    skipScalar bytes = .ok rest := by
  have hword : (readScalar bytes).map (fun found => found.2) = .ok rest := by
    rw [h]
    rfl
  unfold readScalar at h
  split at h
  · cases h
  · exact hword
  · exact hword
  · exact hword
  · next tail =>
      obtain ⟨⟨text, after⟩, htext, h⟩ := map_eq_ok.mp h
      cases h
      exact skipText_of_readText htext (Nat.lt_succ_self _)
  · next b tail _ _ _ hquote =>
      split at h
      · next hnumber =>
          unfold readNumber at h
          split at h
          · next heq =>
              cases heq
              exact skipUnsigned_of_read h
          · next hminus =>
              have hne : b ≠ 0x2D := fun heq => hminus tail (by rw [heq])
              rw [skipScalar, if_pos (hnumber.resolve_left hne)]
              · exact skipUnsigned_of_read h
              · exact hquote
              · exact hne
      · cases h

end Scalars

section Containers

variable {first : Bool} {bytes rest : List UInt8} {frames : List Frame}

theorem skipBlanks_skipBlanks (bytes : List UInt8) :
    skipBlanks (skipBlanks bytes) = skipBlanks bytes := by
  rw [skipBlanks, skipBlanks, List.dropWhile_idempotent]

/-- Skipping begins behind blanks. -/
theorem skipValues_skipBlanks (fuel : Nat) (frames : List Frame) (bytes : List UInt8) :
    skipValues (fuel + 1) frames (skipBlanks bytes) = skipValues (fuel + 1) frames bytes := by
  rw [skipValues, skipValues, skipBlanks_skipBlanks]

/-- A list ends with its bracket, or goes on with an element, which is behind a comma unless it is
the first. -/
theorem nextElement_cases {more : Bool} {next : List UInt8}
    (h : nextElement first bytes = .ok (more, next)) :
    (more = false ∧ ∃ rest, next = 0x5D :: rest ∧ skipBlanks bytes = 0x5D :: rest) ∨
    (more = true ∧ (∀ rest, skipBlanks bytes ≠ 0x5D :: rest) ∧
      (first = true ∧ next ≠ [] ∧ skipBlanks bytes = next ∨
        first = false ∧ ∃ tail, skipBlanks bytes = 0x2C :: tail ∧ skipBlanks tail = next)) := by
  unfold nextElement at h
  split at h
  · cases h
  · next b tail heq =>
      split at h
      · next hclosing =>
          cases h
          rw [heq, hclosing]
          exact .inl ⟨rfl, tail, rfl, rfl⟩
      · next hclosing =>
          have hopen : ∀ rest, skipBlanks bytes ≠ 0x5D :: rest := by
            rintro rest hrest
            exact hclosing (List.cons.inj (heq.symm.trans hrest)).1
          split at h
          · next hfirst =>
              cases h
              exact .inr ⟨rfl, hopen, .inl ⟨hfirst, List.cons_ne_nil _ _, heq⟩⟩
          · next hfirst =>
              split at h
              · next hcomma =>
                  split at h
                  · cases h
                  · next helement =>
                      split at h <;> cases h
                      refine .inr ⟨rfl, hopen,
                        .inr ⟨Bool.eq_false_iff.mpr hfirst, tail, ?_, helement⟩⟩
                      rw [heq, hcomma]
              · cases h

/-- An object ends with its brace, or goes on with a name, which is behind a comma unless it is the
first. -/
theorem nextName_cases {found : Option String} {after : List UInt8}
    (h : nextName first bytes = .ok (found, after)) :
    (found = none ∧ ∃ rest, after = 0x7D :: rest ∧ skipBlanks bytes = 0x7D :: rest) ∨
    ∃ name tail, found = some name ∧ readText tail = .ok (name, after) ∧
      (first = true ∧ skipBlanks bytes = 0x22 :: tail ∨
        first = false ∧ ∃ more, skipBlanks bytes = 0x2C :: more ∧
          skipBlanks more = 0x22 :: tail) := by
  unfold nextName at h
  split at h
  · cases h
  · next b tail heq =>
      split at h
      · next hclosing =>
          cases h
          rw [heq, hclosing]
          exact .inl ⟨rfl, tail, rfl, rfl⟩
      · split at h
        · next hfirst =>
            split at h
            · next hquote =>
                obtain ⟨⟨name, rest⟩, htext, hname⟩ := map_eq_ok.mp h
                cases hname
                rw [heq, hquote]
                exact .inr ⟨name, tail, rfl, htext, .inl ⟨hfirst, rfl⟩⟩
            · cases h
        · next hfirst =>
            split at h
            · next hcomma =>
                split at h
                · cases h
                · next b' tail' heq' =>
                    split at h
                    · next hquote =>
                        obtain ⟨⟨name, rest⟩, htext, hname⟩ := map_eq_ok.mp h
                        cases hname
                        have hlater := Bool.eq_false_iff.mpr hfirst
                        refine .inr ⟨name, tail', rfl, htext, .inr ⟨hlater, tail, ?_, ?_⟩⟩
                        · rw [heq, hcomma]
                        · rw [heq', hquote]
                    · split at h <;> cases h
            · cases h

theorem length_of_nextName {name : String} {after : List UInt8}
    (h : nextName first bytes = .ok (some name, after)) : after.length < bytes.length := by
  have hblanks := length_skipBlanks_le bytes
  rcases nextName_cases h with ⟨hnone, -⟩ | ⟨name, tail, -, htext, hwhere⟩
  · cases hnone
  have hafter := length_of_skipText (skipText_of_readText htext (Nat.lt_succ_self _))
  rcases hwhere with ⟨-, hquote⟩ | ⟨-, more, hcomma, hquote⟩
  · rw [hquote, List.length_cons] at hblanks
    omega
  · have hmore := length_skipBlanks_le more
    rw [hquote, List.length_cons] at hmore
    rw [hcomma, List.length_cons] at hblanks
    omega

/-- Without a further element the bracket comes next. -/
theorem closing_of_no_element {next : List UInt8}
    (h : nextElement first bytes = .ok (false, next)) :
    ∃ rest, next = 0x5D :: rest ∧ skipBlanks bytes = 0x5D :: rest := by
  rcases nextElement_cases h with ⟨-, hclosing⟩ | ⟨hmore, -⟩
  · exact hclosing
  · cases hmore

/-- Without a further name the brace comes next. -/
theorem closing_of_no_name {next : List UInt8} (h : nextName first bytes = .ok (none, next)) :
    ∃ rest, next = 0x7D :: rest ∧ skipBlanks bytes = 0x7D :: rest := by
  rcases nextName_cases h with ⟨-, hclosing⟩ | ⟨name, tail, hname, -⟩
  · exact hclosing
  · cases hname

/-- A bracket closes the list that is open. -/
theorem skipToValue_of_bracket (h : skipBlanks bytes = 0x5D :: rest) (first : Bool)
    (frames : List Frame) :
    skipToValue first (.list :: frames) bytes = skipToValue false frames rest := by
  rw [skipToValue, h]
  rfl

/-- A brace closes the object that is open. -/
theorem skipToValue_of_brace (h : skipBlanks bytes = 0x7D :: rest) (first : Bool)
    (frames : List Frame) :
    skipToValue first (.object :: frames) bytes = skipToValue false frames rest := by
  rw [skipToValue, h]
  rfl

/-- What is behind a byte is shorter than what the byte was found in. -/
theorem length_of_skipBlanks {b : UInt8} (h : skipBlanks bytes = b :: rest) :
    rest.length < bytes.length := by
  have hlength := length_skipBlanks_le bytes
  rw [h] at hlength
  exact hlength

/-- The next element is the next value of a list. -/
theorem skipToValue_of_element {element : List UInt8}
    (h : nextElement first bytes = .ok (true, element)) (frames : List Frame) :
    ∃ tail, skipBlanks tail = element ∧ tail.length ≤ bytes.length ∧
      skipToValue first (.list :: frames) bytes = .ok (.list :: frames, tail) := by
  have hlength := length_skipBlanks_le bytes
  rcases nextElement_cases h with ⟨hmore, -⟩ | ⟨-, hopen, hnext⟩
  · cases hmore
  rw [skipToValue]
  split
  · next hnil =>
      rcases hnext with ⟨-, hne, heq⟩ | ⟨-, tail, heq, -⟩
      · exact absurd (heq.symm.trans hnil) hne
      · rw [heq] at hnil
        cases hnil
  · next hclosing => exact absurd hclosing (hopen _)
  · rcases hnext with ⟨rfl, -, rfl⟩ | ⟨rfl, tail, heq, rfl⟩
    · exact ⟨skipBlanks bytes, skipBlanks_skipBlanks bytes, hlength, rfl⟩
    · refine ⟨tail, rfl, ?_, ?_⟩
      · rw [heq, List.length_cons] at hlength
        omega
      · rw [heq]
        rfl

/-- A name that is read is moved past with its colon. -/
theorem skipName_of_read {tail after value : List UInt8} {name : String}
    (htext : readText tail = .ok (name, after)) (hcolon : colon after = .ok value)
    (hquote : skipBlanks bytes = 0x22 :: tail) : skipName bytes = .ok value := by
  rw [skipName, hquote]
  simp only []
  rw [skipText_of_readText htext (Nat.lt_succ_self _), bind_ok, hcolon]

/-- The value behind the next name is the next value of an object. -/
theorem skipToValue_of_name {name : String} {after value : List UInt8}
    (h : nextName first bytes = .ok (some name, after)) (hcolon : colon after = .ok value)
    (frames : List Frame) :
    skipToValue first (.object :: frames) bytes = .ok (.object :: frames, value) := by
  rcases nextName_cases h with ⟨hnone, -⟩ | ⟨name, tail, -, htext, hwhere⟩
  · cases hnone
  rw [skipToValue]
  rcases hwhere with ⟨rfl, hquote⟩ | ⟨rfl, more, hcomma, hquote⟩
  · have hname : skipName (0x22 :: tail) = .ok value := skipName_of_read htext hcolon rfl
    rw [hquote]
    exact congrArg (Except.map _) hname
  · have hname := skipName_of_read htext hcolon hquote
    rw [hcomma]
    exact congrArg (Except.map _) hname

/-- After a value that is read, skipping goes on behind it with rounds to spare. -/
def Passes (read : Reader Json) : Prop :=
  ∀ {bytes rest : List UInt8} {v : Json}, read bytes = .ok (v, rest) →
    ∀ (frames : List Frame) {fuel : Nat}, bytes.length < fuel →
      ∃ left, rest.length < left ∧ skipValues fuel frames bytes = skipFrom left false frames rest

variable {read : Reader Json} {rounds fuel : Nat}

/-- The elements of a list are moved past one after another. -/
theorem Passes.elements (hread : Passes read) {elements : List Json}
    (h : readElements read rounds first bytes = .ok (elements, rest)) (frames : List Frame)
    (hfuel : bytes.length < fuel) :
    ∃ left, rest.length < left ∧
      skipFrom fuel first (.list :: frames) bytes = skipFrom left false frames rest := by
  induction rounds generalizing first bytes elements fuel with
  | zero => cases h
  | succ rounds ih =>
      obtain ⟨⟨more, next⟩, hnext, h⟩ := bind_eq_ok.mp h
      cases more with
      | false =>
          obtain ⟨tail, rfl, hbracket⟩ := closing_of_no_element hnext
          cases h
          exact ⟨fuel, Nat.lt_trans (length_of_skipBlanks hbracket) hfuel,
            skipFrom_of_closed (skipToValue_of_bracket hbracket first frames)⟩
      | true =>
          obtain ⟨⟨element, behind⟩, helement, h⟩ := bind_eq_ok.mp h
          obtain ⟨⟨others, last⟩, hothers, h⟩ := bind_eq_ok.mp h
          cases h
          obtain ⟨tail, rfl, htail, hopened⟩ := skipToValue_of_element hnext frames
          have hblanks := length_skipBlanks_le tail
          have hrounds : (skipBlanks tail).length < fuel := by omega
          obtain ⟨left, hleft, hpassed⟩ := hread helement (.list :: frames) hrounds
          obtain ⟨fuel, rfl⟩ := Nat.exists_eq_add_one_of_ne_zero (Nat.ne_zero_of_lt hfuel)
          rw [skipFrom_of_opened hopened, ← skipValues_skipBlanks, hpassed]
          exact ih hothers hleft

/-- The members of an object are moved past one after another. -/
theorem Passes.members (hread : Passes read) {members : List (String × Json)}
    (h : readMembers read rounds first bytes = .ok (members, rest)) (frames : List Frame)
    (hfuel : bytes.length < fuel) :
    ∃ left, rest.length < left ∧
      skipFrom fuel first (.object :: frames) bytes = skipFrom left false frames rest := by
  induction rounds generalizing first bytes members fuel with
  | zero => cases h
  | succ rounds ih =>
      obtain ⟨⟨found, after⟩, hname, h⟩ := bind_eq_ok.mp h
      cases found with
      | none =>
          obtain ⟨tail, rfl, hbrace⟩ := closing_of_no_name hname
          cases h
          exact ⟨fuel, Nat.lt_trans (length_of_skipBlanks hbrace) hfuel,
            skipFrom_of_closed (skipToValue_of_brace hbrace first frames)⟩
      | some name =>
          obtain ⟨value, hcolon, h⟩ := bind_eq_ok.mp h
          obtain ⟨⟨member, behind⟩, hmember, h⟩ := bind_eq_ok.mp h
          obtain ⟨⟨others, last⟩, hothers, h⟩ := bind_eq_ok.mp h
          cases h
          have hopened := skipToValue_of_name hname hcolon frames
          have hvalue := length_of_skipToValue hopened
          have hrounds : value.length < fuel := by omega
          obtain ⟨left, hleft, hpassed⟩ := hread hmember (.object :: frames) hrounds
          rw [skipFrom_of_opened hopened, hpassed]
          exact ih hothers hleft

/-- What is read as no container is moved past, whatever is open. -/
theorem passes_scalar {v : Json} (hlist : ∀ tail, skipBlanks bytes ≠ 0x5B :: tail)
    (hobject : ∀ tail, skipBlanks bytes ≠ 0x7B :: tail)
    (h : readScalar (skipBlanks bytes) = .ok (v, rest)) (frames : List Frame)
    (hfuel : bytes.length < fuel) :
    ∃ left, rest.length < left ∧
      skipValues fuel frames bytes = skipFrom left false frames rest := by
  have hscalar := skipScalar_of_read h
  have hblanks := length_skipBlanks_le bytes
  have hlength := length_of_skipScalar hscalar
  obtain ⟨fuel, rfl⟩ := Nat.exists_eq_add_one_of_ne_zero (Nat.ne_zero_of_lt hfuel)
  refine ⟨fuel, by omega, ?_⟩
  rw [skipValues_scalar hlist hobject, hscalar, bind_ok]

/-- Whatever depth it is read with, a value that is read is moved past. -/
theorem passes_readValue (depth : Nat) : Passes (readValue depth) := by
  induction depth with
  | zero =>
      intro bytes rest v h frames fuel hfuel
      unfold readValue at h
      split at h
      · cases h
      · cases h
      · next hlist hobject => exact passes_scalar hlist hobject h frames hfuel
  | succ depth ih =>
      intro bytes rest v h frames fuel hfuel
      have hblanks := length_skipBlanks_le bytes
      unfold readValue at h
      split at h
      · next tail heq =>
          obtain ⟨⟨elements, behind⟩, helements, h⟩ := map_eq_ok.mp h
          cases h
          rw [heq, List.length_cons] at hblanks
          obtain ⟨fuel, rfl⟩ := Nat.exists_eq_add_one_of_ne_zero (Nat.ne_zero_of_lt hfuel)
          rw [skipValues_list heq]
          exact ih.elements helements frames (by omega)
      · next tail heq =>
          obtain ⟨⟨members, behind⟩, hmembers, h⟩ := map_eq_ok.mp h
          cases h
          rw [heq, List.length_cons] at hblanks
          obtain ⟨fuel, rfl⟩ := Nat.exists_eq_add_one_of_ne_zero (Nat.ne_zero_of_lt hfuel)
          rw [skipValues_object heq]
          exact ih.members hmembers frames (by omega)
      · next hlist hobject => exact passes_scalar hlist hobject h frames hfuel

/-- A value that can be read can be skipped, and both end at the same byte. -/
theorem skipValue_of_readValue {depth : Nat} {v : Json}
    (h : readValue depth bytes = .ok (v, rest)) : skipValue bytes = .ok rest := by
  obtain ⟨left, -, hpassed⟩ := passes_readValue depth h [] (Nat.lt_succ_self _)
  rw [skipValue, hpassed, skipFrom_nil]

end Containers

end ListingHub.Json
