import ListingHub.Json.Reader

/-!
# Skipping values

A value that nobody asked for is checked for its form alone: containers may lie inside each other
without limit, numbers may be out of range, strings may hold any bytes and halves of surrogate
pairs.
-/

namespace ListingHub.Json

/-- Moves past the digits of an exponent. -/
def skipExponentDigits : List UInt8 → Except Fault (List UInt8)
  | [] => .error (.before .badNumber [])
  | b :: rest => if isDigit b then .ok (afterDigits rest) else .error (.before .badNumber rest)

/-- Moves past an exponent, if one follows. -/
def skipExponent : List UInt8 → Except Fault (List UInt8)
  | 0x65 :: rest | 0x45 :: rest =>
      match rest with
      | 0x2B :: rest | 0x2D :: rest => skipExponentDigits rest
      | rest => skipExponentDigits rest
  | rest => .ok rest

/-- Moves past what may follow the integer part of a number. -/
def skipFraction : List UInt8 → Except Fault (List UInt8)
  | 0x2E :: rest =>
      if digitsOf rest = [] then .error (.onto .badNumber rest) else skipExponent (afterDigits rest)
  | rest => skipExponent rest

/-- Moves past a number after its sign. -/
def skipUnsigned : List UInt8 → Except Fault (List UInt8)
  | [] => .error (.before .badNumber [])
  | b :: rest =>
      if b = 0x30 then
        if digitsOf rest = [] then skipFraction rest else .error (.onto .badNumber rest)
      else if isDigit b then skipFraction (afterDigits rest)
      else .error (.before .badNumber rest)

/-- Moves past the rest of a string. A control character is not consumed. -/
def skipText : Nat → List UInt8 → Except Fault (List UInt8)
  | 0, _ => .error (.before .endInString [])
  | fuel + 1, bytes =>
      match bytes.dropWhile isPlain with
      | [] => .error (.before .endInString [])
      | 0x22 :: rest => .ok rest
      | 0x5C :: 0x75 :: rest => do
          let (_, rest) ← readHex rest
          skipText fuel rest
      | 0x5C :: rest => do
          let (_, rest) ← readEscape rest
          skipText fuel rest
      | rest => .error (.before .controlCharacter rest)

/-- Moves past a value that is no container. -/
def skipScalar : List UInt8 → Except Fault (List UInt8)
  | 0x22 :: rest => skipText (rest.length + 1) rest
  | 0x2D :: rest => skipUnsigned rest
  | b :: rest =>
      if isDigit b then skipUnsigned (b :: rest)
      else (readScalar (b :: rest)).map fun (_, rest) => rest
  | [] => .error (.before .endInValue [])

/-- A container that is open. -/
inductive Frame where
  | list
  | object
  deriving DecidableEq, Repr

/-- Moves past a name and its colon. -/
def skipName (bytes : List UInt8) : Except Fault (List UInt8) :=
  match skipBlanks bytes with
  | [] => .error (.before .endInObject [])
  | 0x22 :: rest => do colon (← skipText (rest.length + 1) rest)
  | rest => .error (.onto .expectedKey rest)

/-- Moves from an element that ended, or from an opening bracket when `fresh`, to the next value;
no frame is left when the outermost container has ended. -/
def skipToValue (fresh : Bool) :
    List Frame → List UInt8 → Except Fault (List Frame × List UInt8)
  | [], bytes => .ok ([], bytes)
  | .list :: frames, bytes =>
      match skipBlanks bytes with
      | [] => .error (.before .endInList [])
      | 0x5D :: rest => skipToValue false frames rest
      | rest =>
          if fresh then .ok (.list :: frames, rest)
          else
            match rest with
            | 0x2C :: rest => .ok (.list :: frames, rest)
            | rest => .error (.onto .expectedCommaOrBracket rest)
  | .object :: frames, bytes =>
      match skipBlanks bytes with
      | [] => .error (.before .endInObject [])
      | 0x7D :: rest => skipToValue false frames rest
      | rest =>
          if fresh then (skipName rest).map fun rest => (.object :: frames, rest)
          else
            match rest with
            | 0x2C :: rest => (skipName rest).map fun rest => (.object :: frames, rest)
            | rest => .error (.onto .expectedCommaOrBrace rest)

/-- Moves past values until no frame is open. -/
def skipValues : Nat → List Frame → List UInt8 → Except Fault (List UInt8)
  | 0, _, bytes => .ok bytes
  | fuel + 1, frames, bytes => do
      let (fresh, opened, rest) ←
        match skipBlanks bytes with
        | 0x5B :: rest => pure (true, Frame.list :: frames, rest)
        | 0x7B :: rest => pure (true, Frame.object :: frames, rest)
        | rest => do pure (false, frames, ← skipScalar rest)
      let (frames, rest) ← skipToValue fresh opened rest
      if frames.isEmpty then return rest else skipValues fuel frames rest

/-- Moves past one value. -/
def skipValue (bytes : List UInt8) : Except Fault (List UInt8) :=
  skipValues (bytes.length + 1) [] bytes

end ListingHub.Json
