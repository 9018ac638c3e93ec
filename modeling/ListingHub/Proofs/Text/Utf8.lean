import ListingHub.Text.Utf8

/-!
# UTF-8 read back

The bytes of a text are those of its characters one after another. Each character is read back from
its own bytes whatever follows, and from no others, so a text is read from its bytes and from
nothing else. Bytes come in the order of the characters they spell, so texts compare as their bytes
do.
-/

namespace ListingHub.Utf8

open String (utf8EncodeChar)

/-- The bytes of characters one after another. -/
def spell (characters : List Char) : List UInt8 :=
  characters.flatMap utf8EncodeChar

@[simp] theorem spell_nil : spell [] = [] := rfl

@[simp] theorem spell_cons (c : Char) (characters : List Char) :
    spell (c :: characters) = utf8EncodeChar c ++ spell characters :=
  List.flatMap_cons

@[simp] theorem spell_append (first second : List Char) :
    spell (first ++ second) = spell first ++ spell second :=
  List.flatMap_append

theorem ofText_ofList (characters : List Char) :
    ofText (String.ofList characters) = spell characters := by
  simp [ofText, spell, String.toByteArray_ofList, List.utf8Encode]

theorem ofText_eq (text : String) : ofText text = spell text.toList := by
  rw [← ofText_ofList, String.ofList_toList]

theorem ofText_singleton (c : Char) : ofText (String.singleton c) = utf8EncodeChar c := by
  simp [ofText_eq]

/-- A byte that is given by a number. -/
theorem toNat_ofNat_of_lt {n : Nat} (h : n < 256) : (UInt8.ofNat n).toNat = n := by
  simpa using Nat.mod_eq_of_lt h

theorem ofNat_lt_iff {n m : Nat} (hn : n < 256) (hm : m < 256) :
    UInt8.ofNat n < UInt8.ofNat m ↔ n < m := by
  rw [UInt8.lt_iff_toNat_lt, toNat_ofNat_of_lt hn, toNat_ofNat_of_lt hm]

/-- A continuation byte carries its six bits. -/
theorem trails?_cons {n code bits : Nat} (h : bits < 64) (rest : List UInt8) :
    trails? (n + 1) code (UInt8.ofNat (bits + 0x80) :: rest) =
      trails? n (code * 64 + bits) rest := by
  have hnat := toNat_ofNat_of_lt (show bits + 0x80 < 256 by omega)
  have hlow : 0x80 ≤ UInt8.ofNat (bits + 0x80) := by
    rw [UInt8.le_iff_toNat_le, hnat]
    exact Nat.le_add_left 0x80 bits
  have hhigh : UInt8.ofNat (bits + 0x80) < 0xC0 :=
    (ofNat_lt_iff (m := 0xC0) (by omega) (by omega)).mpr (by omega)
  rw [trails?, trail?, if_pos ⟨hlow, hhigh⟩, hnat]
  simp

/-- The bits of a character give it back. -/
theorem long?_of_trails? {least n bits : Nat} {bytes rest : List UInt8} {c : Char}
    (h : trails? n bits bytes = some (c.toNat, rest)) (hleast : least ≤ c.toNat) :
    long? least n bits bytes = some (c, rest) := by
  have hvalid : c.toNat < 0xD800 ∨ 0xDFFF < c.toNat ∧ c.toNat < 0x110000 := c.valid
  simp only [long?, h, Option.bind_some, scalar?, if_pos (And.intro hleast hvalid),
    Char.ofNat_toNat, Option.map_some]

/-- The first byte tells how many follow. -/
theorem next?_ofNat {n : Nat} (h : n < 256) (rest : List UInt8) :
    next? (UInt8.ofNat n :: rest) =
      if n < 0x80 then some (Char.ofNat n, rest)
      else if n < 0xE0 then long? 0x80 1 (n - 0xC0) rest
      else if n < 0xF0 then long? 0x800 2 (n - 0xE0) rest
      else if n < 0xF8 then long? 0x10000 3 (n - 0xF0) rest
      else none := by
  have h1 : UInt8.ofNat n < 0x80 ↔ n < 0x80 := ofNat_lt_iff (m := 0x80) h (by omega)
  have h2 : UInt8.ofNat n < 0xE0 ↔ n < 0xE0 := ofNat_lt_iff (m := 0xE0) h (by omega)
  have h3 : UInt8.ofNat n < 0xF0 ↔ n < 0xF0 := ofNat_lt_iff (m := 0xF0) h (by omega)
  have h4 : UInt8.ofNat n < 0xF8 ↔ n < 0xF8 := ofNat_lt_iff (m := 0xF8) h (by omega)
  simp only [next?, toNat_ofNat_of_lt h, h1, h2, h3, h4]

theorem toNat_lt (c : Char) : c.toNat < 0x110000 := by
  have hscalar : c.toNat < 0xD800 ∨ 0xDFFF < c.toNat ∧ c.toNat < 0x110000 := c.valid
  omega

/-- The four lengths of a character. -/
theorem utf8EncodeChar_eq (c : Char) :
    utf8EncodeChar c =
      if c.toNat ≤ 127 then [UInt8.ofNat c.toNat]
      else if c.toNat ≤ 2047 then
        [UInt8.ofNat (c.toNat / 64 % 32 + 192), UInt8.ofNat (c.toNat % 64 + 128)]
      else if c.toNat ≤ 65535 then
        [UInt8.ofNat (c.toNat / 4096 % 16 + 224), UInt8.ofNat (c.toNat / 64 % 64 + 128),
          UInt8.ofNat (c.toNat % 64 + 128)]
      else
        [UInt8.ofNat (c.toNat / 262144 % 8 + 240), UInt8.ofNat (c.toNat / 4096 % 64 + 128),
          UInt8.ofNat (c.toNat / 64 % 64 + 128), UInt8.ofNat (c.toNat % 64 + 128)] := by
  rw [utf8EncodeChar]
  rfl

/-- A character below 128 is one byte. -/
theorem utf8EncodeChar_ascii {c : Char} (h : c.toNat < 128) :
    utf8EncodeChar c = [UInt8.ofNat c.toNat] := by
  rw [utf8EncodeChar_eq, if_pos (by omega)]

/-- Characters below 128 are one byte each. -/
theorem spell_ascii {characters : List Char} (h : ∀ c ∈ characters, c.toNat < 128) :
    spell characters = characters.map fun c => UInt8.ofNat c.toNat := by
  induction characters with
  | nil => rfl
  | cons c characters ih =>
      rw [spell_cons, utf8EncodeChar_ascii (h c List.mem_cons_self),
        ih fun c hc => h c (List.mem_cons_of_mem _ hc)]
      rfl

/-- A byte of a character is the character or 128 at least. -/
theorem toNat_of_mem_utf8EncodeChar {c : Char} {b : UInt8} (h : b ∈ utf8EncodeChar c) :
    b.toNat = c.toNat ∨ 128 ≤ b.toNat := by
  have hlong {n : Nat} (hlow : 128 ≤ n) (hhigh : n < 256) (hb : b = UInt8.ofNat n) :
      b.toNat = c.toNat ∨ 128 ≤ b.toNat := by
    rw [hb, toNat_ofNat_of_lt hhigh]
    exact .inr hlow
  rw [utf8EncodeChar_eq] at h
  split at h
  · rw [List.mem_singleton] at h
    rw [h, toNat_ofNat_of_lt (by omega)]
    exact .inl rfl
  split at h
  · simp only [List.mem_cons, List.not_mem_nil, or_false] at h
    rcases h with h | h <;> exact hlong (by omega) (by omega) h
  split at h
  · simp only [List.mem_cons, List.not_mem_nil, or_false] at h
    rcases h with h | h | h <;> exact hlong (by omega) (by omega) h
  · simp only [List.mem_cons, List.not_mem_nil, or_false] at h
    rcases h with h | h | h | h <;> exact hlong (by omega) (by omega) h

/-- A character is read back from its bytes. -/
theorem next?_utf8EncodeChar (c : Char) (rest : List UInt8) :
    next? (utf8EncodeChar c ++ rest) = some (c, rest) := by
  have hvalid := toNat_lt c
  rw [utf8EncodeChar_eq]
  split
  · next h1 =>
      rw [List.singleton_append, next?_ofNat (by omega), if_pos (by omega), Char.ofNat_toNat]
  split
  · next h1 h2 =>
      have hcode : (c.toNat / 64 % 32 + 192 - 0xC0) * 64 + c.toNat % 64 = c.toNat := by omega
      rw [List.cons_append, next?_ofNat (by omega), if_neg (by omega), if_pos (by omega)]
      apply long?_of_trails? _ (by omega)
      rw [List.singleton_append, trails?_cons (by omega), hcode, trails?]
  split
  · next h1 h2 h3 =>
      have hcode : ((c.toNat / 4096 % 16 + 224 - 0xE0) * 64 + c.toNat / 64 % 64) * 64 +
          c.toNat % 64 = c.toNat := by omega
      simp only [List.cons_append, List.nil_append]
      rw [next?_ofNat (by omega), if_neg (by omega), if_neg (by omega), if_pos (by omega)]
      apply long?_of_trails? _ (by omega)
      rw [trails?_cons (by omega), trails?_cons (by omega), hcode, trails?]
  · next h1 h2 h3 =>
      have hcode : (((c.toNat / 262144 % 8 + 240 - 0xF0) * 64 + c.toNat / 4096 % 64) * 64 +
          c.toNat / 64 % 64) * 64 + c.toNat % 64 = c.toNat := by omega
      simp only [List.cons_append, List.nil_append]
      rw [next?_ofNat (by omega), if_neg (by omega), if_neg (by omega), if_neg (by omega),
        if_pos (by omega)]
      apply long?_of_trails? _ (by omega)
      rw [trails?_cons (by omega), trails?_cons (by omega), trails?_cons (by omega), hcode,
        trails?]

/-- Characters are read back from their bytes, and none is left over. -/
theorem scan_spell (characters : List Char) : scan (spell characters) = (characters, []) := by
  induction characters with
  | nil =>
      rw [spell_nil, scan]
      rfl
  | cons c characters ih =>
      rw [spell_cons, scan]
      split
      · next h => rw [next?_utf8EncodeChar] at h; cases h
      · next h =>
          rw [next?_utf8EncodeChar] at h
          cases h
          simp only [ih]

/-- A continuation byte is given by its six bits. -/
theorem trail?_eq_some {b : UInt8} {bits : Nat} (h : trail? b = some bits) :
    b.toNat = bits + 0x80 ∧ bits < 64 := by
  unfold trail? at h
  split at h
  · next hrange =>
      have hlow : 0x80 ≤ b.toNat := UInt8.le_iff_toNat_le.mp hrange.1
      have hhigh : b.toNat < 0xC0 := UInt8.lt_iff_toNat_lt.mp hrange.2
      obtain rfl := Option.some.inj h
      omega
  · cases h

/-- The bytes that `n` continuation bytes are read from. -/
theorem trails?_succ_eq_some {n code value : Nat} {bytes rest : List UInt8}
    (h : trails? (n + 1) code bytes = some (value, rest)) :
    ∃ b bits tail, bytes = b :: tail ∧ b.toNat = bits + 0x80 ∧ bits < 64 ∧
      trails? n (code * 64 + bits) tail = some (value, rest) := by
  cases bytes with
  | nil => cases h
  | cons b tail =>
      obtain ⟨bits, hbits, hrest⟩ := Option.bind_eq_some_iff.mp h
      obtain ⟨hb, hlt⟩ := trail?_eq_some hbits
      exact ⟨b, bits, tail, rfl, hb, hlt, hrest⟩

/-- A value without the bits that `n` continuation bytes carry. -/
def leading : Nat → Nat → Nat
  | 0, value => value
  | n + 1, value => leading n value / 64

/-- The last `n` bytes of a value, each with six of its bits. -/
def trailBytes : Nat → Nat → List UInt8
  | 0, _ => []
  | n + 1, value => UInt8.ofNat (leading n value % 64 + 0x80) :: trailBytes n value

theorem eq_ofNat {b : UInt8} {n : Nat} (h : b.toNat = n) : b = UInt8.ofNat n := by
  rw [← h, UInt8.ofNat_toNat]

/-- A value is read from its own continuation bytes, and the bits before them came first. -/
theorem eq_of_trails? {n code value : Nat} {bytes rest : List UInt8}
    (h : trails? n code bytes = some (value, rest)) :
    bytes = trailBytes n value ++ rest ∧ leading n value = code := by
  induction n generalizing code bytes with
  | zero =>
      obtain ⟨rfl, rfl⟩ := Prod.mk.inj (Option.some.inj h)
      exact ⟨rfl, rfl⟩
  | succ n ih =>
      obtain ⟨b, bits, tail, rfl, hb, hlt, h⟩ := trails?_succ_eq_some h
      obtain ⟨rfl, hcode⟩ := ih h
      have hbits : b.toNat = leading n value % 64 + 0x80 := by omega
      refine ⟨by rw [trailBytes, ← eq_ofNat hbits, List.cons_append], ?_⟩
      rw [leading]
      omega

/-- A code point is the number of its character. -/
theorem toNat_ofNat_of_valid {n : Nat} (h : n.isValidChar) : (Char.ofNat n).toNat = n := by
  rw [Char.ofNat, dif_pos h]
  rfl

/-- A character is made of the bits of its bytes. -/
theorem long?_eq_some {least n bits : Nat} {bytes rest : List UInt8} {c : Char}
    (h : long? least n bits bytes = some (c, rest)) :
    least ≤ c.toNat ∧ bytes = trailBytes n c.toNat ++ rest ∧ leading n c.toNat = bits := by
  obtain ⟨⟨code, tail⟩, htrails, h⟩ := Option.bind_eq_some_iff.mp h
  obtain ⟨c', hscalar, heq⟩ := Option.map_eq_some_iff.mp h
  cases heq
  unfold scalar? at hscalar
  split at hscalar
  · next hcode =>
      obtain rfl := Option.some.inj hscalar
      rw [toNat_ofNat_of_valid hcode.2]
      exact ⟨hcode.1, eq_of_trails? htrails⟩
  · cases hscalar

/-- A character is only read from its own bytes. -/
theorem eq_of_next? {bytes rest : List UInt8} {c : Char} (h : next? bytes = some (c, rest)) :
    bytes = utf8EncodeChar c ++ rest := by
  cases bytes with
  | nil => cases h
  | cons b tail =>
      have hbyte := b.toNat_lt
      have h80 : b < 0x80 ↔ b.toNat < 0x80 := UInt8.lt_iff_toNat_lt
      have hE0 : b < 0xE0 ↔ b.toNat < 0xE0 := UInt8.lt_iff_toNat_lt
      have hF0 : b < 0xF0 ↔ b.toNat < 0xF0 := UInt8.lt_iff_toNat_lt
      have hF8 : b < 0xF8 ↔ b.toNat < 0xF8 := UInt8.lt_iff_toNat_lt
      rw [utf8EncodeChar_eq]
      simp only [next?, h80, hE0, hF0, hF8] at h
      -- the first byte tells how many follow; the least character so long excludes longer forms
      split at h
      · obtain ⟨rfl, rfl⟩ := Prod.mk.inj (Option.some.inj h)
        rw [toNat_ofNat_of_valid (.inl (by omega)), if_pos (by omega), UInt8.ofNat_toNat,
          List.singleton_append]
      split at h
      · obtain ⟨hleast, rfl, hbits⟩ := long?_eq_some h
        simp only [leading] at hbits
        have hb : b.toNat = c.toNat / 64 % 32 + 192 := by omega
        rw [if_neg (by omega), if_pos (by omega), ← eq_ofNat hb]
        simp [trailBytes, leading]
      split at h
      · obtain ⟨hleast, rfl, hbits⟩ := long?_eq_some h
        simp only [leading] at hbits
        have hb : b.toNat = c.toNat / 4096 % 16 + 224 := by omega
        rw [if_neg (by omega), if_neg (by omega), if_pos (by omega), ← eq_ofNat hb]
        simp [trailBytes, leading]
      split at h
      · obtain ⟨hleast, rfl, hbits⟩ := long?_eq_some h
        simp only [leading] at hbits
        have hb : b.toNat = c.toNat / 262144 % 8 + 240 := by omega
        rw [if_neg (by omega), if_neg (by omega), if_neg (by omega), ← eq_ofNat hb]
        simp [trailBytes, leading, Nat.div_div_eq_div_mul]
      · cases h

/-- What was read as characters are their bytes. -/
theorem eq_of_scan (bytes : List UInt8) : bytes = spell (scan bytes).1 ++ (scan bytes).2 := by
  fun_induction scan bytes with
  | case1 bytes hnone => rfl
  | case2 bytes c rest hnext hlength characters left hscan ih =>
      rw [hscan] at ih
      rw [spell_cons, List.append_assoc, ← ih]
      exact eq_of_next? hnext

/-- Bytes are read as a text exactly when they are the bytes of the text. -/
theorem toText?_eq_some_iff {bytes : List UInt8} {text : String} :
    toText? bytes = some text ↔ bytes = ofText text := by
  rw [ofText_eq]
  constructor
  · intro h
    obtain ⟨characters, hdecode, rfl⟩ := Option.map_eq_some_iff.mp h
    have hbytes := eq_of_scan bytes
    unfold decode? at hdecode
    split at hdecode
    · next hscan =>
        obtain rfl := Option.some.inj hdecode
        rw [hscan, List.append_nil] at hbytes
        rw [String.toList_ofList]
        exact hbytes
    · cases hdecode
  · rintro rfl
    rw [toText?, decode?, scan_spell]
    simp

/-- Bytes given by numbers compare as the numbers do, the first that differ deciding. -/
theorem cons_lt_cons {n m : Nat} {left right : List UInt8} (hn : n < 256) (hm : m < 256)
    (h : n < m ∨ n = m ∧ left < right) : UInt8.ofNat n :: left < UInt8.ofNat m :: right := by
  apply List.cons_lt_cons_iff.mpr
  rcases h with hlt | ⟨rfl, htail⟩
  · exact .inl ((ofNat_lt_iff hn hm).mpr hlt)
  · exact .inr ⟨rfl, htail⟩

/-- Whatever follows them, the bytes of a lesser character are less. -/
theorem utf8EncodeChar_lt {c d : Char} (h : c < d) (left right : List UInt8) :
    utf8EncodeChar c ++ left < utf8EncodeChar d ++ right := by
  have hlt : c.toNat < d.toNat := h
  have hc := toNat_lt c
  have hd := toNat_lt d
  have hfirst {n m : Nat} {x y : List UInt8} (hn : n < m) (hm : m < 256) :
      UInt8.ofNat n :: x < UInt8.ofNat m :: y := cons_lt_cons (by omega) hm (.inl hn)
  rw [utf8EncodeChar_eq, utf8EncodeChar_eq]
  -- a longer character has the greater first byte; of two as long, some byte differs
  split
  · split
    · exact hfirst hlt (by omega)
    split
    · exact hfirst (by omega) (by omega)
    split <;> exact hfirst (by omega) (by omega)
  rw [if_neg (show ¬d.toNat ≤ 127 by omega)]
  split
  · split
    · rcases Nat.lt_or_ge (c.toNat / 64) (d.toNat / 64) with hone | hone
      · exact hfirst (by omega) (by omega)
      · exact cons_lt_cons (by omega) (by omega) (.inr ⟨by omega, hfirst (by omega) (by omega)⟩)
    split <;> exact hfirst (by omega) (by omega)
  rw [if_neg (show ¬d.toNat ≤ 2047 by omega)]
  split
  · split
    · rcases Nat.lt_or_ge (c.toNat / 4096) (d.toNat / 4096) with hone | hone
      · exact hfirst (by omega) (by omega)
      refine cons_lt_cons (by omega) (by omega) (.inr ⟨by omega, ?_⟩)
      rcases Nat.lt_or_ge (c.toNat / 64) (d.toNat / 64) with htwo | htwo
      · exact hfirst (by omega) (by omega)
      · exact cons_lt_cons (by omega) (by omega) (.inr ⟨by omega, hfirst (by omega) (by omega)⟩)
    · exact hfirst (by omega) (by omega)
  rw [if_neg (show ¬d.toNat ≤ 65535 by omega)]
  rcases Nat.lt_or_ge (c.toNat / 262144) (d.toNat / 262144) with hone | hone
  · exact hfirst (by omega) (by omega)
  refine cons_lt_cons (by omega) (by omega) (.inr ⟨by omega, ?_⟩)
  rcases Nat.lt_or_ge (c.toNat / 4096) (d.toNat / 4096) with htwo | htwo
  · exact hfirst (by omega) (by omega)
  refine cons_lt_cons (by omega) (by omega) (.inr ⟨by omega, ?_⟩)
  rcases Nat.lt_or_ge (c.toNat / 64) (d.toNat / 64) with hthree | hthree
  · exact hfirst (by omega) (by omega)
  · exact cons_lt_cons (by omega) (by omega) (.inr ⟨by omega, hfirst (by omega) (by omega)⟩)

/-- Texts compare as their bytes do. -/
theorem spell_lt {first second : List Char} (h : first < second) : spell first < spell second := by
  induction h with
  | @nil c characters =>
      obtain ⟨b, bytes, hbytes⟩ :=
        List.exists_cons_of_ne_nil (String.utf8EncodeChar_ne_nil (c := c))
      rw [spell_nil, spell_cons, hbytes]
      exact List.nil_lt_cons _ _
  | rel hlt => exact utf8EncodeChar_lt hlt _ _
  | cons _ ih => exact List.append_left_lt ih

theorem ofText_lt {first second : String} (h : first < second) : ofText first < ofText second := by
  rw [ofText_eq, ofText_eq]
  exact spell_lt (String.lt_iff.mp h)

end ListingHub.Utf8
