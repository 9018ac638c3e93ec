/-!
# Integers in decimal digits

Reading signs and digits as a number within given bounds. Nothing but ASCII digits counts: no
blanks, no separators, no empty digits; leading zeros are free.
-/

namespace ListingHub.Text

/-- The value of an ASCII digit. -/
def digit? (c : Char) : Option Nat :=
  if '0' ≤ c ∧ c ≤ '9' then some (c.toNat - '0'.toNat) else none

/-- The number that digits spell when read after `value`. -/
def digitsFrom (value : Nat) : List Char → Option Nat
  | [] => some value
  | c :: rest => (digit? c).bind fun d => digitsFrom (10 * value + d) rest

/-- The number that one or more digits spell. -/
def natural? : List Char → Option Nat
  | [] => none
  | digits => digitsFrom 0 digits

/-- A number below `bound`, with an optional plus sign. -/
def unsigned? (bound : Nat) (text : List Char) : Option Nat :=
  let value := match text with
    | '+' :: digits => natural? digits
    | digits => natural? digits
  value.filter (· < bound)

/-- A 64-bit integer with an optional sign. -/
def signed? (text : List Char) : Option Int64 :=
  let value : Option Int := match text with
    | '+' :: digits => (natural? digits).map Int.ofNat
    | '-' :: digits => (natural? digits).map fun n => -Int.ofNat n
    | digits => (natural? digits).map Int.ofNat
  value.bind fun z =>
    if -9_223_372_036_854_775_808 ≤ z ∧ z < 9_223_372_036_854_775_808 then some (Int64.ofInt z)
    else none

/-- Decimal digits, at least `width` of them. -/
def padded (width n : Nat) : String :=
  let digits := Nat.toDigits 10 n
  String.ofList (List.replicate (width - digits.length) '0' ++ digits)

end ListingHub.Text
