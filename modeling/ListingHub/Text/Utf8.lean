/-!
# UTF-8

Bytes as text. `next?` takes one character off the front of a list of bytes and refuses what is not
the shortest form of a scalar value; `scan` takes as many as it can, and `decode?` reads a whole
list. `ofText` writes text as bytes.
-/

namespace ListingHub.Utf8

/-- The bytes of a text. -/
def ofText (text : String) : List UInt8 :=
  text.toByteArray.data.toList

/-- The six bits that a continuation byte carries. -/
def trail? (b : UInt8) : Option Nat :=
  if 0x80 ≤ b ∧ b < 0xC0 then some (b.toNat - 0x80) else none

/-- Appends the bits of `n` continuation bytes to `code`. -/
def trails? : Nat → Nat → List UInt8 → Option (Nat × List UInt8)
  | 0, code, rest => some (code, rest)
  | _ + 1, _, [] => none
  | n + 1, code, t :: rest => (trail? t).bind fun bits => trails? n (code * 64 + bits) rest

/-- `n` continuation bytes are `n` bytes. -/
theorem trails?_length {n code value : Nat} {bytes rest : List UInt8}
    (h : trails? n code bytes = some (value, rest)) : rest.length + n = bytes.length := by
  induction n, code, bytes using trails?.induct with
  | case1 => cases h; rfl
  | case2 => cases h
  | case3 n code t bytes ih =>
      obtain ⟨bits, _, h⟩ := Option.bind_eq_some_iff.1 h
      have := ih bits h
      simp only [List.length_cons]; omega

/-- The character of a code point from `least` on; surrogates have none. -/
def scalar? (least code : Nat) : Option Char :=
  if least ≤ code ∧ (code < 0xD800 ∨ 0xDFFF < code ∧ code < 0x110000) then some (Char.ofNat code)
  else none

/-- The character that leading bits and `n` continuation bytes spell. -/
def long? (least n bits : Nat) (bytes : List UInt8) : Option (Char × List UInt8) :=
  (trails? n bits bytes).bind fun (code, rest) => (scalar? least code).map (·, rest)

/-- Takes the first character of UTF-8 text, `none` where no character begins. -/
def next? : List UInt8 → Option (Char × List UInt8)
  | [] => none
  | b :: rest =>
      if b < 0x80 then some (Char.ofNat b.toNat, rest)
      else if b < 0xE0 then long? 0x80 1 (b.toNat - 0xC0) rest
      else if b < 0xF0 then long? 0x800 2 (b.toNat - 0xE0) rest
      else if b < 0xF8 then long? 0x10000 3 (b.toNat - 0xF0) rest
      else none

/-- What follows a character with continuation bytes. -/
theorem long?_length {least n bits : Nat} {bytes rest : List UInt8} {c : Char}
    (h : long? least n bits bytes = some (c, rest)) : rest.length + n = bytes.length := by
  obtain ⟨⟨code, rest'⟩, ht, h⟩ := Option.bind_eq_some_iff.1 h
  obtain ⟨_, _, h⟩ := Option.map_eq_some_iff.1 h
  cases h
  exact trails?_length ht

/-- A character takes at least one byte. -/
theorem next?_length {bytes rest : List UInt8} {c : Char} (h : next? bytes = some (c, rest)) :
    rest.length < bytes.length := by
  cases bytes with
  | nil => cases h
  | cons b tail =>
      simp only [next?] at h
      have hl {least n bits : Nat} (h : long? least n bits tail = some (c, rest)) :
          rest.length < (b :: tail).length := by
        have := long?_length h
        simp only [List.length_cons]; omega
      split at h
      · cases h; simp
      · split at h
        · exact hl h
        · split at h
          · exact hl h
          · split at h
            · exact hl h
            · cases h

/-- The characters at the front of bytes, and the bytes from the first on that begins none. -/
def scan (bytes : List UInt8) : List Char × List UInt8 :=
  match h : next? bytes with
  | none => ([], bytes)
  | some (c, rest) =>
      have := next?_length h
      let (characters, left) := scan rest
      (c :: characters, left)
termination_by bytes.length

/-- The characters of bytes that are UTF-8 throughout. -/
def decode? (bytes : List UInt8) : Option (List Char) :=
  match scan bytes with
  | (characters, []) => some characters
  | _ => none

/-- The text of bytes that are UTF-8 throughout. -/
def toText? (bytes : List UInt8) : Option String :=
  (decode? bytes).map String.ofList

end ListingHub.Utf8
