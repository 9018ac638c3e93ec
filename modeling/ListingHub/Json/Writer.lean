import ListingHub.Json.Basic

/-!
# Writing values

The compact text of a value: no blanks, members in their order. In strings only quotes, backslashes
and characters below the blank are escaped.
-/

namespace ListingHub.Json

/-- A character inside a written string. -/
def escapeChar (c : Char) : List Char :=
  match c with
  | '"' => ['\\', '"']
  | '\\' => ['\\', '\\']
  | '\x08' => ['\\', 'b']
  | '\t' => ['\\', 't']
  | '\n' => ['\\', 'n']
  | '\x0c' => ['\\', 'f']
  | '\r' => ['\\', 'r']
  | c =>
      if c < ' ' then
        ['\\', 'u', '0', '0', Nat.digitChar (c.toNat / 16), Nat.digitChar (c.toNat % 16)]
      else [c]

/-- A string between its quotes. -/
def writeText (text : String) : List Char :=
  '"' :: (text.toList.flatMap escapeChar ++ ['"'])

mutual

/-- The compact text of a value. -/
def write : Json → List Char
  | .null => ['n', 'u', 'l', 'l']
  | .bool true => ['t', 'r', 'u', 'e']
  | .bool false => ['f', 'a', 'l', 's', 'e']
  | .int value => (toString value).toList
  | .double bits => doubleText bits
  | .str text => writeText text
  | .arr elements => '[' :: (writeElements elements ++ [']'])
  | .obj members => '\x7b' :: (writeMembers members ++ ['\x7d'])

/-- Elements with commas between them. -/
def writeElements : List Json → List Char
  | [] => []
  | [element] => write element
  | element :: elements => write element ++ ',' :: writeElements elements

/-- Members with commas between them. -/
def writeMembers : List (String × Json) → List Char
  | [] => []
  | [(name, value)] => writeText name ++ ':' :: write value
  | (name, value) :: members =>
      writeText name ++ ':' :: (write value ++ ',' :: writeMembers members)

end

/-- The compact text of a value. -/
def text (value : Json) : String :=
  String.ofList value.write

end ListingHub.Json
