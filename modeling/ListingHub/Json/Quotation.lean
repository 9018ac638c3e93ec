import ListingHub.Json.Fault
import ListingHub.Text.Percent
import ListingHub.Text.Utf8

/-!
# Reading strings

A string runs to the next quote that no backslash hides. Its bytes are UTF-8 without control
characters; escapes name single characters, the ones beyond 16 bits as a pair of surrogates. Its
escapes and control characters are judged before its encoding.
-/

namespace ListingHub.Json

/-- Four hexadecimal digits. All four are consumed before they are judged. -/
def readHex : Reader Nat
  | a :: b :: c :: d :: rest =>
      match [a, b, c, d].mapM Text.hexValue? with
      | some digits => .ok (digits.foldl (fun n digit => 16 * n + digit.toNat) 0, rest)
      | none => .error (.before .badEscape rest)
  | _ => .error (.before .endInString [])

/-- The second half of a surrogate pair. -/
def readLowSurrogate (high : Nat) : Reader Char
  | [] => .error (.before .endInString [])
  | 0x5C :: [] => .error (.before .endInString [])
  | 0x5C :: 0x75 :: rest => do
      let (low, rest) ← readHex rest
      if 0xDC00 ≤ low ∧ low ≤ 0xDFFF then
        return (Char.ofNat (0x10000 + (high - 0xD800) * 0x400 + (low - 0xDC00)), rest)
      else throw (.before .loneSurrogate rest)
  | 0x5C :: _ :: rest => .error (.before .halfSurrogatePair rest)
  | _ :: rest => .error (.before .halfSurrogatePair rest)

/-- The character after a backslash and a `u`. -/
def readUnicode : Reader Char := fun bytes => do
  let (code, rest) ← readHex bytes
  if 0xDC00 ≤ code ∧ code ≤ 0xDFFF then throw (.before .loneSurrogate rest)
  else if 0xD800 ≤ code ∧ code ≤ 0xDBFF then readLowSurrogate code rest
  else return (Char.ofNat code, rest)

/-- The character after a backslash. -/
def readEscape : Reader Char
  | [] => .error (.before .endInString [])
  | 0x22 :: rest => .ok ('"', rest)
  | 0x5C :: rest => .ok ('\\', rest)
  | 0x2F :: rest => .ok ('/', rest)
  | 0x62 :: rest => .ok ('\x08', rest)
  | 0x66 :: rest => .ok ('\x0c', rest)
  | 0x6E :: rest => .ok ('\n', rest)
  | 0x72 :: rest => .ok ('\r', rest)
  | 0x74 :: rest => .ok ('\t', rest)
  | 0x75 :: rest => readUnicode rest
  | _ :: rest => .error (.before .badEscape rest)

/-- A byte that stands for itself in a string. -/
def isPlain (b : UInt8) : Bool :=
  0x20 ≤ b && b != 0x22 && b != 0x5C

/-- The bytes that stand for text up to the closing quote, those of a character for each escape.
Every round takes at least one byte of `fuel`. -/
def readEncoded : Nat → Reader (List UInt8)
  | 0, _ => .error (.before .endInString [])
  | fuel + 1, bytes =>
      match bytes with
      | [] => .error (.before .endInString [])
      | 0x22 :: rest => .ok ([], rest)
      | 0x5C :: rest => do
          let (c, rest) ← readEscape rest
          let (encoded, rest) ← readEncoded fuel rest
          return (Utf8.ofText (String.singleton c) ++ encoded, rest)
      | b :: rest =>
          if b < 0x20 then .error (.before .controlCharacter rest)
          else do
            let (encoded, rest) ← readEncoded fuel rest
            return (b :: encoded, rest)

/-- A string after its opening quote. Whether its bytes are UTF-8 is judged at the closing quote;
the place of a fault lies before the quote by as many bytes as cannot be read as characters. -/
def readText : Reader String := fun bytes => do
  let (encoded, rest) ← readEncoded (bytes.length + 1) bytes
  match Utf8.scan encoded with
  | (characters, []) => return (String.ofList characters, rest)
  | (_, bad) => throw ⟨.badUtf8, rest.length + bad.length⟩

end ListingHub.Json
