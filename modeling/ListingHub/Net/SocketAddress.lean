import ListingHub.Text.Integer

/-!
# Socket addresses

An address of the fourth or the sixth version of the Internet protocol with a port, read from and
written as text. The octets of a version 4 address have no leading zeros; the groups of a version 6
address may be cut short once by `::` and may end with a version 4 address.
-/

namespace ListingHub

/-- An address and a port. -/
inductive SocketAddress where
  /-- Four octets and a port. -/
  | v4 (octets : List Nat) (port : Nat)
  /-- Eight groups of 16 bits, a scope and a port. -/
  | v6 (groups : List Nat) (scope port : Nat)
  deriving DecidableEq, Repr

namespace SocketAddress

/-- The digits of a base at the front of text. -/
def digitRun (base : Nat) (text : List Char) : List Nat × List Char :=
  let value? (c : Char) : Option Nat :=
    let digit :=
      if '0' ≤ c ∧ c ≤ '9' then c.toNat - '0'.toNat
      else if 'a' ≤ c ∧ c ≤ 'f' then c.toNat - 'a'.toNat + 10
      else if 'A' ≤ c ∧ c ≤ 'F' then c.toNat - 'A'.toNat + 10
      else base
    if digit < base then some digit else none
  let run := text.takeWhile fun c => (value? c).isSome
  (run.filterMap value?, text.dropWhile fun c => (value? c).isSome)

/-- A number below `bound` at the front of text. -/
def number? (base bound : Nat) (text : List Char) : Option (Nat × List Char) :=
  let (digits, rest) := digitRun base text
  let value := digits.foldl (fun n d => base * n + d) 0
  if digits ≠ [] ∧ value < bound then some (value, rest) else none

/-- A character at the front of text. -/
def char? (c : Char) : List Char → Option (List Char)
  | [] => none
  | d :: rest => if c = d then some rest else none

/-- An octet: up to three digits without a leading zero. -/
def octet? (text : List Char) : Option (Nat × List Char) :=
  match digitRun 10 text with
  | ([_], _) => number? 10 256 text
  | (first :: rest, _) => if first = 0 ∨ 2 < rest.length then none else number? 10 256 text
  | ([], _) => none

/-- Four octets with points between them. -/
def octets? (text : List Char) : Option (List Nat × List Char) := do
  let (a, text) ← octet? text
  let (b, text) ← octet? (← char? '.' text)
  let (c, text) ← octet? (← char? '.' text)
  let (d, text) ← octet? (← char? '.' text)
  return ([a, b, c, d], text)

/-- A group of up to four hexadecimal digits. -/
def group? (text : List Char) : Option (Nat × List Char) :=
  if 4 < (digitRun 16 text).1.length then none else number? 16 65_536 text

/-- A run of at most `room` groups with colons between them, the last two of which may be written as
four octets; the flag tells whether they are. -/
def groups : (room : Nat) → (first : Bool) → List Char → List Nat × Bool × List Char
  | 0, _, text => ([], false, text)
  | room + 1, first, text =>
      match if first then some text else char? ':' text with
      | none => ([], false, text)
      | some item =>
          match if 0 < room then octets? item else none with
          | some ([a, b, c, d], rest) => ([256 * a + b, 256 * c + d], true, rest)
          | _ =>
              match group? item with
              | some (value, rest) =>
                  let (values, embedded, rest) := groups room false rest
                  (value :: values, embedded, rest)
              | none => ([], false, text)

/-- Eight groups; `::` stands for one or more groups of zeros. -/
def address6? (text : List Char) : Option (List Nat × List Char) :=
  let (head, embedded, rest) := groups 8 true text
  if head.length = 8 then some (head, rest)
  else if embedded then none
  else
    match rest with
    | ':' :: ':' :: rest =>
        let (tail, _, rest) := groups (7 - head.length) true rest
        some (head ++ List.replicate (8 - head.length - tail.length) 0 ++ tail, rest)
    | _ => none

/-- A colon and a port. -/
def port? (text : List Char) : Option (Nat × List Char) :=
  (char? ':' text).bind (number? 10 65_536)

/-- A version 4 address and a port. -/
def v4? (text : List Char) : Option (SocketAddress × List Char) := do
  let (octets, text) ← octets? text
  let (port, text) ← port? text
  return (.v4 octets port, text)

/-- A version 6 address in brackets, with or without a scope, and a port. -/
def v6? (text : List Char) : Option (SocketAddress × List Char) := do
  let (groups, text) ← address6? (← char? '[' text)
  let (scope, text) := ((char? '%' text).bind (number? 10 4_294_967_296)).getD (0, text)
  let (port, text) ← port? (← char? ']' text)
  return (.v6 groups scope port, text)

/-- Reads an address. -/
def ofText? (text : String) : Option SocketAddress :=
  match v4? text.toList <|> v6? text.toList with
  | some (address, []) => some address
  | _ => none

/-- Numbers in decimal digits with points between them. -/
def octetText (octets : List Nat) : String :=
  String.intercalate "." (octets.map toString)

/-- Numbers in hexadecimal digits with colons between them. -/
def groupText (groups : List Nat) : String :=
  String.intercalate ":" (groups.map fun g => String.ofList (Nat.toDigits 16 g))

/-- The length of the run of zeros at the front. -/
def zeroRun (groups : List Nat) : Nat :=
  (groups.takeWhile (· == 0)).length

/-- Where the first longest run of zeros begins and how long it is. -/
def longestZeros (groups : List Nat) : Nat × Nat :=
  (List.range groups.length).foldl
    (fun best start =>
      let length := zeroRun (groups.drop start)
      if best.2 < length then (start, length) else best)
    (0, 0)

/-- Eight groups, the first longest run of two or more zeros as `::`. Addresses that embed one of
version 4 show its octets. -/
def address6Text (groups : List Nat) : String :=
  let (start, length) := longestZeros groups
  match groups with
  | [0, 0, 0, 0, 0, 0xFFFF, a, b] =>
      "::ffff:" ++ octetText [a / 256, a % 256, b / 256, b % 256]
  | _ =>
      if 1 < length then
        groupText (groups.take start) ++ "::" ++ groupText (groups.drop (start + length))
      else groupText groups

/-- The text of an address. -/
def text : SocketAddress → String
  | v4 octets port => octetText octets ++ ":" ++ toString port
  | v6 groups scope port =>
      "[" ++ address6Text groups ++ (if scope = 0 then "" else "%" ++ toString scope) ++ "]:" ++
        toString port

end SocketAddress

end ListingHub
