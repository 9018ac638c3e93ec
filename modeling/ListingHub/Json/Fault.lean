import ListingHub.Json.Basic
import ListingHub.Text.Quoted

/-!
# Why JSON is refused

A `Mismatch` says why a well-formed value does not fit what was asked for. A `Fault` says why bytes
cannot be read and where: the place is the number of bytes that were left, which is shown as a line
and a column of the bytes consumed.
-/

namespace ListingHub.Json

/-- What stood where something else was expected. -/
inductive Found where
  | null
  | bool (value : Bool)
  | int (value : Int)
  | double (bits : UInt64)
  | str (text : String)
  | sequence
  | map
  deriving DecidableEq, Repr

/-- What a value is to somebody who expected something else. -/
def found : Json → Found
  | .null => .null
  | .bool value => .bool value
  | .int value => .int value
  | .double bits => .double bits
  | .str text => .str text
  | .arr _ => .sequence
  | .obj _ => .map

/-- How a message names what stood there. -/
def Found.message : Found → String
  | .null => "null"
  | .bool value => "boolean `" ++ (if value then "true" else "false") ++ "`"
  | .int value => "integer `" ++ toString value ++ "`"
  | .double bits => "floating point `" ++ String.ofList (doubleText bits) ++ "`"
  | .str text => "string " ++ Text.quoted text
  | .sequence => "sequence"
  | .map => "map"

/-- Why a value does not fit what was asked for. -/
inductive Mismatch where
  | wrongType (found : Found) (expected : String)
  | outOfRange (value : Int) (expected : String)
  | unknownVariant (name : String) (variants : List String)
  | missingField (name : String)
  | repeatedField (name : String)
  | tooShort (length : Nat) (record : String) (fields : Nat)
  | tooLong (length : Nat)
  | badText (reason : String)
  deriving DecidableEq, Repr

/-- A list of alternatives in words. -/
def oneOf : List String → String
  | [] => "there are no variants"
  | [a] => "expected `" ++ a ++ "`"
  | [a, b] => "expected `" ++ a ++ "` or `" ++ b ++ "`"
  | names => "expected one of " ++ String.intercalate ", " (names.map fun n => "`" ++ n ++ "`")

/-- The message of a mismatch. -/
def Mismatch.message : Mismatch → String
  | .wrongType found expected => "invalid type: " ++ found.message ++ ", expected " ++ expected
  | .outOfRange value expected =>
      "invalid value: integer `" ++ toString value ++ "`, expected " ++ expected
  | .unknownVariant name variants => "unknown variant `" ++ name ++ "`, " ++ oneOf variants
  | .missingField name => "missing field `" ++ name ++ "`"
  | .repeatedField name => "duplicate field `" ++ name ++ "`"
  | .tooShort length record fields =>
      "invalid length " ++ toString length ++ ", expected struct " ++ record ++ " with " ++
        toString fields ++ (if fields = 1 then " element" else " elements")
  | .tooLong length =>
      "invalid length " ++ toString length ++ ", expected fewer elements in array"
  | .badText reason => reason

/-- Why bytes cannot be read as JSON. -/
inductive Cause where
  | endInList
  | endInObject
  | endInString
  | endInValue
  | expectedColon
  | expectedCommaOrBracket
  | expectedCommaOrBrace
  | expectedWord
  | expectedValue
  | expectedKey
  | trailingComma
  | trailingCharacters
  | badNumber
  | numberOutOfRange
  | badEscape
  | loneSurrogate
  | halfSurrogatePair
  | controlCharacter
  | badUtf8
  | tooDeep
  | mismatch (why : Mismatch)
  deriving DecidableEq, Repr

/-- The message of a cause. -/
def Cause.message : Cause → String
  | .endInList => "EOF while parsing a list"
  | .endInObject => "EOF while parsing an object"
  | .endInString => "EOF while parsing a string"
  | .endInValue => "EOF while parsing a value"
  | .expectedColon => "expected `:`"
  | .expectedCommaOrBracket => "expected `,` or `]`"
  | .expectedCommaOrBrace => "expected `,` or `\x7d`"
  | .expectedWord => "expected ident"
  | .expectedValue => "expected value"
  | .expectedKey => "key must be a string"
  | .trailingComma => "trailing comma"
  | .trailingCharacters => "trailing characters"
  | .badNumber => "invalid number"
  | .numberOutOfRange => "number out of range"
  | .badEscape => "invalid escape"
  | .loneSurrogate => "lone leading surrogate in hex escape"
  | .halfSurrogatePair => "unexpected end of hex escape"
  | .controlCharacter => "control character (\\u0000-\\u001F) found while parsing a string"
  | .badUtf8 => "invalid unicode code point"
  | .tooDeep => "recursion limit exceeded"
  | .mismatch why => why.message

/-- A cause and the number of bytes left when it was found. -/
structure Fault where
  cause : Cause
  left : Nat
  deriving DecidableEq, Repr

/-- A fault found when everything before `rest` was consumed. -/
def Fault.before (cause : Cause) (rest : List UInt8) : Fault :=
  ⟨cause, rest.length⟩

/-- A fault at the first byte of `rest`, which counts as consumed; there may be none. -/
def Fault.onto (cause : Cause) (rest : List UInt8) : Fault :=
  ⟨cause, rest.length - 1⟩

/-- Lines are counted from one; a column is the number of bytes after the last line feed. -/
def Fault.position (input : List UInt8) (fault : Fault) : Nat × Nat :=
  let consumed := input.take (input.length - fault.left)
  (consumed.count 10 + 1, (consumed.reverse.takeWhile (· ≠ 10)).length)

/-- The message of a fault in the reading of `input`. -/
def Fault.message (input : List UInt8) (fault : Fault) : String :=
  let (line, column) := fault.position input
  fault.cause.message ++ " at line " ++ toString line ++ " column " ++ toString column

/-- Reads a value from the front of bytes and returns what follows it. -/
def Reader (α : Type) : Type :=
  List UInt8 → Except Fault (α × List UInt8)

instance : Functor Reader where
  map f read := fun bytes => (read bytes).map fun (value, rest) => (f value, rest)

end ListingHub.Json
