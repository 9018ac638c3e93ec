import ListingHub.Json.Record
import ListingHub.Json.Skip

/-!
# Reading typed values from text

Strings, 64-bit integers, variants and records are read without building a value first. A record is
an object, whose unknown members are skipped, or a list of its fields in order. A mismatch is placed
after what was consumed when it was found; one that concerns a whole record, after its bracket.
-/

namespace ListingHub.Json

/-- Refuses what stands here, placed after it; a container is not entered. -/
def refuse {α : Type} (expected : String) : Reader α := fun bytes => do
  let (found, rest) ←
    match bytes with
    | 0x5B :: _ => pure (Found.sequence, bytes)
    | 0x7B :: _ => pure (Found.map, bytes)
    | _ => (readScalar bytes).map fun (value, rest) => (value.found, rest)
  throw (.before (.mismatch (.wrongType found expected)) rest)

/-- A string, as far as `convert` accepts it. -/
def readStringAs {α : Type} (expected : String) (convert : String → Except Mismatch α) :
    Reader α := fun bytes => do
  match skipBlanks bytes with
  | [] => throw (.before .endInValue [])
  | 0x22 :: rest =>
      let (text, rest) ← readText rest
      match convert text with
      | .ok value => return (value, rest)
      | .error why => throw (.before (.mismatch why) rest)
  | rest => refuse expected rest

/-- A string. -/
def readString : Reader String :=
  readStringAs "a string" .ok

/-- An integer in the signed 64-bit range. -/
def toInt64 (value : Int) : Except Mismatch Int64 :=
  if -9_223_372_036_854_775_808 ≤ value ∧ value < 9_223_372_036_854_775_808 then
    .ok (Int64.ofInt value)
  else .error (.outOfRange value "i64")

/-- A signed 64-bit integer. -/
def readInt64 : Reader Int64 := fun bytes => do
  match skipBlanks bytes with
  | [] => throw (.before .endInValue [])
  | b :: rest =>
      if b = 0x2D ∨ isDigit b then
        let (number, rest) ← readNumber (b :: rest)
        let checked := match number with
          | .int value => toInt64 value
          | other => .error (.wrongType other.found "i64")
        match checked with
        | .ok value => return (value, rest)
        | .error why => throw (.before (.mismatch why) rest)
      else refuse "i64" (b :: rest)

/-- One of the named values. -/
def variant {α : Type} (variants : List (String × α)) (name : String) : Except Mismatch α :=
  match variants.lookup name with
  | some value => .ok value
  | none => .error (.unknownVariant name (variants.map (·.1)))

/-- Nothing, written `null`. -/
def readUnit : Reader Unit := fun bytes => do
  match skipBlanks bytes with
  | [] => throw (.before .endInValue [])
  | 0x6E :: rest => (readScalar (0x6E :: rest)).map fun (_, rest) => ((), rest)
  | rest => refuse "unit" rest

/-- One of the named values: its name as a string, or an object of that name and `null`. -/
def readVariant {α : Type} (variants : List (String × α)) : Reader α := fun bytes => do
  match skipBlanks bytes with
  | [] => throw (.before .endInValue [])
  | 0x22 :: rest => readStringAs "variant identifier" (variant variants) (0x22 :: rest)
  | 0x7B :: rest =>
      match ← nextName true rest with
      | (none, rest) => throw (.onto .expectedValue rest)
      | (some name, rest) =>
          match variant variants name with
          | .error why => throw (.before (.mismatch why) rest)
          | .ok value =>
              let (_, rest) ← readUnit (← colon rest)
              match skipBlanks rest with
              | [] => throw (.before .endInObject [])
              | b :: rest =>
                  if b = 0x7D then return (value, rest)
                  else throw (.before .expectedValue (b :: rest))
  | rest => throw (.onto .expectedValue rest)

/-- The members of an object, up to its closing brace or to a name that comes again. -/
def readSlots (fields : List (Field Reader)) :
    Nat → Bool → Slots fields → Reader (Except Mismatch (Row fields))
  | 0, _, _, _ => .error (.before .endInObject [])
  | fuel + 1, first, slots, bytes => do
      match ← nextName first bytes with
      | (none, rest) => return (slots.row?, rest)
      | (some name, rest) =>
          match slots.find name with
          | .unknown => readSlots fields fuel false slots (← skipValue (← colon rest))
          | .taken => return (.error (.repeatedField name), rest)
          | .free fill =>
              let (slots, rest) ← fill (← colon rest)
              readSlots fields fuel false slots rest

/-- The elements of a list as fields in order, `index` of which came before. -/
def readRow (tooShort : Nat → Mismatch) :
    (fields : List (Field Reader)) → (index : Nat) → Reader (Except Mismatch (Row fields))
  | [], _, bytes => .ok (.ok (), bytes)
  | field :: fields, index, bytes => do
      let (more, rest) ← nextElement (index == 0) bytes
      if more then
        let (value, rest) ← field.take rest
        let (row, rest) ← readRow tooShort fields (index + 1) rest
        return (row.map (value, ·), rest)
      else
        match field.absent with
        | some value =>
            let (row, rest) ← readRow tooShort fields (index + 1) rest
            return (row.map (value, ·), rest)
        | none => return (.error (tooShort index), rest)

/-- Moves past a closing bracket, if it comes next. -/
def pastClosing (bracket : UInt8) (bytes : List UInt8) : List UInt8 :=
  match skipBlanks bytes with
  | [] => []
  | b :: rest => if b = bracket then rest else b :: rest

/-- Moves past the closing bracket of a list that has no further element to offer. -/
def closeList (bytes : List UInt8) : Except Fault (List UInt8) :=
  match skipBlanks bytes with
  | [] => .error (.before .endInList [])
  | 0x5D :: rest => .ok rest
  | 0x2C :: rest =>
      match skipBlanks rest with
      | 0x5D :: rest => .error (.onto .trailingComma (0x5D :: rest))
      | rest => .error (.onto .trailingCharacters rest)
  | rest => .error (.onto .trailingCharacters rest)

/-- Reads a record. -/
def Record.read {α : Type} (record : Record Reader α) : Reader α := fun bytes => do
  match skipBlanks bytes with
  | [] => throw (.before .endInValue [])
  | 0x5B :: rest =>
      let tooShort index := .tooShort index record.name record.fields.length
      match ← readRow tooShort record.fields 0 rest with
      | (.ok row, rest) => return (record.build row, ← closeList rest)
      | (.error why, rest) => throw (.before (.mismatch why) (pastClosing 0x5D rest))
  | 0x7B :: rest =>
      match ← readSlots record.fields (rest.length + 1) true (.empty record.fields) rest with
      | (.ok row, rest) => return (record.build row, pastClosing 0x7D rest)
      | (.error why, rest) => throw (.before (.mismatch why) (pastClosing 0x7D rest))
  | rest => refuse record.expected rest

end ListingHub.Json
