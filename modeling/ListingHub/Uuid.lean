import ListingHub.Json.Typed

/-!
# Connection names

A connection is named by 128 bits, written as 32 lower-case hexadecimal digits in five groups. The
digits are read in either case, with or without the hyphens, the hyphenated form also in braces or
after `urn:uuid:`, which too is read in either case.
-/

namespace ListingHub

/-- A universally unique name of 128 bits. -/
structure Uuid where
  bits : BitVec 128
  deriving DecidableEq, Repr

namespace Uuid

/-- The lengths of the groups of digits. -/
def groups : List Nat := [8, 4, 4, 4, 12]

/-- Where the groups begin when one hyphen stands between them. -/
def groupStarts : List Nat := [0, 9, 14, 19, 24]

/-- The prefix of a name that is written as a resource. -/
def urn : List Char := "urn:uuid:".toList

/-- The value of a hexadecimal digit in either case. -/
def hexValue? (c : Char) : Option Nat :=
  if '0' ≤ c ∧ c ≤ '9' then some (c.toNat - '0'.toNat)
  else if 'a' ≤ c ∧ c ≤ 'f' then some (c.toNat - 'a'.toNat + 10)
  else if 'A' ≤ c ∧ c ≤ 'F' then some (c.toNat - 'A'.toNat + 10)
  else none

/-- The name of 32 digits. -/
def ofDigits? (digits : List Char) : Option Uuid :=
  (digits.mapM hexValue?).map fun values => ⟨.ofNat 128 (values.foldl (fun n v => 16 * n + v) 0)⟩

/-- The name of digits with hyphens between their groups. -/
def ofHyphenated? (text : List Char) : Option Uuid :=
  if text.length = 36 ∧ (groupStarts.drop 1).all (fun start => text[start - 1]? == some '-') then
    ofDigits? ((groupStarts.zip groups).flatMap fun (start, length) =>
      (text.drop start).take length)
  else none

/-- Text without braces or the resource prefix, and how many characters came before it. -/
def unwrap (text : List Char) : List Char × Nat :=
  if text.head? = some '\x7b' ∧ text.getLast? = some '\x7d' ∧ 2 ≤ text.length then
    (text.tail.dropLast, 1)
  else if urn.isPrefixOf (text.map Char.toLower) then (text.drop urn.length, urn.length)
  else (text, 0)

/-- Reads a name in one of its written forms. -/
def ofText? (text : List Char) : Option Uuid :=
  let (inner, wrapped) := unwrap text
  if text.length = 32 then ofDigits? text
  else if text.length = 36 ∨ text.length = 38 ∧ wrapped = 1 ∨ text.length = 45 ∧ wrapped = 9 then
    ofHyphenated? inner
  else none

/-- The number of bytes of text. -/
def byteSize (text : List Char) : Nat :=
  text.foldr (fun c size => c.utf8Size + size) 0

/-- The byte position of each character. -/
def positions : Nat → List Char → List (Nat × Char)
  | _, [] => []
  | start, c :: rest => (start, c) :: positions (start + c.utf8Size) rest

/-- The most bytes that a written form has: the resource prefix and the hyphenated digits. -/
def longest : Nat := 45

/-- Why text of at most `longest` bytes is no name. The first character that is neither a digit nor
a hyphen is to blame, then the number of groups, then the first group of a wrong length. -/
def groupFault (judged : List Char) : String :=
  let (body, offset) := unwrap judged
  let placed := positions 0 body
  let hyphens := (placed.filter fun p => p.2 == '-').map (·.1)
  let size := byteSize judged
  match placed.find? fun p => p.2 != '-' && (hexValue? p.2).isNone with
  | some (index, c) =>
      "invalid character: found `" ++ String.singleton c ++ "` at " ++ toString (index + offset)
  | none =>
      if hyphens.length = 0 ∧ offset = 0 then "invalid length: found " ++ toString size
      else if hyphens.length ≠ 4 then
        "invalid group count: expected 5, found " ++ toString (hyphens.length + 1)
      else
        let ends := hyphens.zip ((groupStarts.zip (groupStarts.drop 1)).zip (List.range 4))
        let (group, length) := match ends.find? fun (place, (_, next), _) => place + 1 != next with
          | some (place, (start, _), group) => (group, place - start)
          | none => (4, size - 24)
        "invalid group length in group " ++ toString group ++ ": expected " ++
          toString (groups.getD group 0) ++ ", found " ++ toString length

/-- Why text is no name. Of a wrapped text of the right length only the inside is judged. -/
def fault (text : List Char) : String :=
  if longest < byteSize text then "invalid length: found " ++ toString (byteSize text)
  else
    let inner := (unwrap text).1
    groupFault (if byteSize inner = 36 then inner else text)

/-- The digits in groups with hyphens between them. -/
def text (id : Uuid) : String :=
  let digits := Nat.toDigits 16 id.bits.toNat
  let padded := List.replicate (32 - digits.length) '0' ++ digits
  let group start length := String.ofList ((padded.drop start).take length)
  String.intercalate "-" [group 0 8, group 8 4, group 12 4, group 16 4, group 20 12]

/-- Reads a name from JSON. -/
def read : Json.Reader Uuid :=
  Json.readStringAs "a formatted UUID string" fun text =>
    match ofText? text.toList with
    | some id => .ok id
    | none => .error (.badText ("UUID parsing failed: " ++ fault text.toList))

end Uuid

end ListingHub
