import ListingHub.Json.Number
import ListingHub.Json.Quotation

/-!
# Reading values

`readValue depth` reads one value in which at most `depth` containers lie inside each other. The
steps that lists and objects share with records stand first: `nextElement`, `nextName` and `colon`.
-/

namespace ListingHub.Json

/-- Space, tab, line feed and carriage return. -/
def isBlank (b : UInt8) : Bool :=
  b == 0x20 || b == 0x09 || b == 0x0A || b == 0x0D

/-- What follows the blanks at the front of bytes. -/
def skipBlanks (bytes : List UInt8) : List UInt8 :=
  bytes.dropWhile isBlank

/-- The rest of a word whose first letter is known. -/
def readWord (value : Json) : List UInt8 → Reader Json
  | [], rest => .ok (value, rest)
  | _ :: _, [] => .error (.before .endInValue [])
  | letter :: letters, b :: rest =>
      if b = letter then readWord value letters rest else .error (.before .expectedWord rest)

/-- A value that is no container. -/
def readScalar : Reader Json
  | [] => .error (.before .endInValue [])
  | 0x6E :: rest => readWord .null [0x75, 0x6C, 0x6C] rest
  | 0x74 :: rest => readWord (.bool true) [0x72, 0x75, 0x65] rest
  | 0x66 :: rest => readWord (.bool false) [0x61, 0x6C, 0x73, 0x65] rest
  | 0x22 :: rest => (readText rest).map fun (text, rest) => (.str text, rest)
  | b :: rest =>
      if b = 0x2D ∨ isDigit b then readNumber (b :: rest)
      else .error (.onto .expectedValue (b :: rest))

/-- Moves to the next element of a list; `false` means that the closing bracket comes next. -/
def nextElement (first : Bool) : Reader Bool := fun bytes =>
  match skipBlanks bytes with
  | [] => .error (.before .endInList [])
  | b :: rest =>
      if b = 0x5D then .ok (false, b :: rest)
      else if first then .ok (true, b :: rest)
      else if b = 0x2C then
        match skipBlanks rest with
        | [] => .error (.before .endInValue [])
        | b :: rest =>
            if b = 0x5D then .error (.onto .trailingComma (b :: rest)) else .ok (true, b :: rest)
      else .error (.onto .expectedCommaOrBracket (b :: rest))

/-- Reads the name of the next member of an object; `none` means that the closing brace comes
next. -/
def nextName (first : Bool) : Reader (Option String) := fun bytes =>
  match skipBlanks bytes with
  | [] => .error (.before .endInObject [])
  | b :: rest =>
      if b = 0x7D then .ok (none, b :: rest)
      else if first then
        if b = 0x22 then (readText rest).map fun (name, rest) => (some name, rest)
        else .error (.onto .expectedKey (b :: rest))
      else if b = 0x2C then
        match skipBlanks rest with
        | [] => .error (.before .endInValue [])
        | b :: rest =>
            if b = 0x22 then (readText rest).map fun (name, rest) => (some name, rest)
            else if b = 0x7D then .error (.onto .trailingComma (b :: rest))
            else .error (.onto .expectedKey (b :: rest))
      else .error (.onto .expectedCommaOrBrace (b :: rest))

/-- The colon between a name and its value. -/
def colon (bytes : List UInt8) : Except Fault (List UInt8) :=
  match skipBlanks bytes with
  | [] => .error (.before .endInObject [])
  | b :: rest => if b = 0x3A then .ok rest else .error (.onto .expectedColon (b :: rest))

/-- The elements of a list and its closing bracket. -/
def readElements (value : Reader Json) : Nat → Bool → Reader (List Json)
  | 0, _, _ => .error (.before .endInList [])
  | fuel + 1, first, bytes => do
      let (more, rest) ← nextElement first bytes
      if more then
        let (element, rest) ← value rest
        let (elements, rest) ← readElements value fuel false rest
        return (element :: elements, rest)
      else return ([], rest.drop 1)

/-- The members of an object and its closing brace. -/
def readMembers (value : Reader Json) : Nat → Bool → Reader (List (String × Json))
  | 0, _, _ => .error (.before .endInObject [])
  | fuel + 1, first, bytes => do
      match ← nextName first bytes with
      | (none, rest) => return ([], rest.drop 1)
      | (some name, rest) =>
          let (member, rest) ← value (← colon rest)
          let (members, rest) ← readMembers value fuel false rest
          return ((name, member) :: members, rest)

/-- Reads a value that holds at most `depth` containers inside each other. -/
def readValue : Nat → Reader Json
  | 0, bytes =>
      match skipBlanks bytes with
      | 0x5B :: rest | 0x7B :: rest => .error (.before .tooDeep rest)
      | rest => readScalar rest
  | depth + 1, bytes =>
      match skipBlanks bytes with
      | 0x5B :: rest =>
          (readElements (readValue depth) (rest.length + 1) true rest).map
            fun (elements, rest) => (.arr elements, rest)
      | 0x7B :: rest =>
          (readMembers (readValue depth) (rest.length + 1) true rest).map
            fun (members, rest) => (.ofMembers members, rest)
      | rest => readScalar rest

/-- How many containers may lie inside each other. -/
def depthLimit : Nat := 127

/-- Reads bytes that hold one value and blanks around it. -/
def readAll {α : Type} (read : Reader α) (bytes : List UInt8) : Except Fault α := do
  let (value, rest) ← read bytes
  match skipBlanks rest with
  | [] => return value
  | rest => throw (.onto .trailingCharacters rest)

/-- Reads a JSON text. -/
def ofBytes (bytes : List UInt8) : Except Fault Json :=
  readAll (readValue depthLimit) bytes

end ListingHub.Json
