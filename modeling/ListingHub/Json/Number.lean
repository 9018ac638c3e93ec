import ListingHub.Json.Fault

/-!
# Reading numbers

An integer that fits 64 bits, signed or unsigned, stays an integer; `-0`, larger integers and
numbers with a fraction or an exponent become doubles. A double is the significand, cut to the
leading digits that fit 64 bits, times or over a power of ten, each operation rounded once.
-/

namespace ListingHub.Json

/-- An ASCII digit. -/
def isDigit (b : UInt8) : Bool :=
  0x30 ≤ b && b ≤ 0x39

/-- The digits at the front of bytes. -/
def digitsOf (bytes : List UInt8) : List Nat :=
  (bytes.takeWhile isDigit).map fun b => b.toNat - 0x30

/-- What follows the digits at the front of bytes. -/
def afterDigits (bytes : List UInt8) : List UInt8 :=
  bytes.dropWhile isDigit

/-- Appends digits to `value` while it stays below `bound`; also returns how many are left out. -/
def fit (bound value : Nat) : List Nat → Nat × Nat
  | [] => (value, 0)
  | d :: rest =>
      if value * 10 + d < bound then fit bound (value * 10 + d) rest else (value, rest.length + 1)

/-- A decimal number as written: `significand * 10 ^ exponent` with its sign. -/
structure Literal where
  negative : Bool
  significand : Nat
  exponent : Int

/-- The double `10 ^ n`. -/
def tenTo (n : Nat) : Float :=
  Float.ofScientific 1 false n

/-- A double under its sign, as bits. -/
def Literal.signed (x : Literal) (magnitude : Float) : Json :=
  .double (if x.negative then -magnitude else magnitude).toBits

/-- The magnitude of a literal as a double, `none` above the range. Powers of ten end at 308;
below that the significand is divided by `10 ^ 308` first, and twice leaves nothing. -/
def Literal.magnitude? (x : Literal) : Option Float :=
  let significand := x.significand.toUInt64.toFloat
  if 0 ≤ x.exponent then
    if x.exponent ≤ 308 then
      let value := significand * tenTo x.exponent.toNat
      if value.isInf then none else some value
    else if x.significand = 0 then some 0 else none
  else if -308 ≤ x.exponent then some (significand / tenTo (-x.exponent).toNat)
  else if -616 ≤ x.exponent then
    some (significand / tenTo 308 / tenTo (-x.exponent - 308).toNat)
  else some 0

/-- The value of a literal that ends before `rest`. -/
def Literal.value (x : Literal) : Reader Json := fun rest =>
  match x.magnitude? with
  | some magnitude => .ok (x.signed magnitude, rest)
  | none => .error (.before .numberOutOfRange rest)

/-- The digits of an exponent. One beyond 31 bits makes the number zero or puts it out of range. -/
def readExponentDigits (x : Literal) (negative : Bool) : Reader Json := fun bytes =>
  match bytes with
  | [] => .error (.before .endInValue [])
  | b :: tail =>
      if !isDigit b then .error (.before .badNumber tail)
      else
        let (exponent, out) := fit 2_147_483_648 0 (digitsOf bytes)
        let rest := afterDigits bytes
        if out = 0 then
          { x with exponent :=
              x.exponent + (if negative then -(exponent : Int) else exponent) }.value rest
        else if x.significand ≠ 0 ∧ !negative then
          .error ⟨.numberOutOfRange, rest.length + (out - 1)⟩
        else .ok (x.signed 0, rest)

/-- An exponent, if one follows. -/
def readExponent (x : Literal) : Reader Json
  | 0x65 :: rest | 0x45 :: rest =>
      match rest with
      | 0x2B :: rest => readExponentDigits x false rest
      | 0x2D :: rest => readExponentDigits x true rest
      | rest => readExponentDigits x false rest
  | rest => x.value rest

/-- A fraction after its point. -/
def readFraction (x : Literal) : Reader Json := fun bytes =>
  let digits := digitsOf bytes
  let rest := afterDigits bytes
  match digits, rest with
  | [], [] => .error (.before .endInValue [])
  | [], rest => .error (.onto .badNumber rest)
  | digits, rest =>
      let (significand, out) := fit 18_446_744_073_709_551_616 x.significand digits
      readExponent { x with significand, exponent := x.exponent - (digits.length - out : Nat) } rest

/-- A whole number that fits 64 bits; negative zero and what lies below the signed range are
doubles. -/
def whole (negative : Bool) (significand : Nat) : Json :=
  if !negative then .int significand
  else if significand = 0 ∨ 9_223_372_036_854_775_808 < significand then
    (Literal.mk negative significand 0).signed significand.toUInt64.toFloat
  else .int (-significand)

/-- What may follow the integer part of a number. -/
def readPart (x : Literal) : Reader Json
  | 0x2E :: rest => readFraction x rest
  | 0x65 :: rest => readExponent x (0x65 :: rest)
  | 0x45 :: rest => readExponent x (0x45 :: rest)
  | rest => if x.exponent = 0 then .ok (whole x.negative x.significand, rest) else x.value rest

/-- A number after its sign. A leading zero stands alone. -/
def readUnsigned (negative : Bool) : Reader Json := fun bytes =>
  match bytes with
  | [] => .error (.before .endInValue [])
  | b :: tail =>
      if b = 0x30 then
        match tail with
        | next :: _ =>
            if isDigit next then .error (.onto .badNumber tail)
            else readPart ⟨negative, 0, 0⟩ tail
        | [] => readPart ⟨negative, 0, 0⟩ tail
      else if isDigit b then
        let (significand, out) := fit 18_446_744_073_709_551_616 0 (digitsOf bytes)
        readPart ⟨negative, significand, out⟩ (afterDigits bytes)
      else .error (.before .badNumber tail)

/-- A number, whose first byte is a digit or a minus sign. -/
def readNumber : Reader Json
  | 0x2D :: rest => readUnsigned true rest
  | rest => readUnsigned false rest

end ListingHub.Json
