import ListingHub.Json.Typed

/-!
# Typed views of values

Strings, 64-bit integers and records taken from a value that was read before. The members of an
object are taken in the order of their names and the first that does not fit is reported; a missing
field is reported after them. Here nothing has a place.
-/

namespace ListingHub.Json

/-- Takes a typed value from a JSON value. -/
def View (α : Type) : Type :=
  Json → Except Mismatch α

instance : Functor View where
  map f view := fun value => (view value).map f

/-- A string. -/
def asString : View String
  | .str text => .ok text
  | other => .error (.wrongType other.found "a string")

/-- A signed 64-bit integer. -/
def asInt64 : View Int64
  | .int value => toInt64 value
  | other => .error (.wrongType other.found "i64")

/-- The members of an object as a row; those without a field are left aside. -/
def viewMembers (fields : List (Field View)) :
    Slots fields → List (String × Json) → Except Mismatch (Row fields)
  | slots, [] => slots.row?
  | slots, (name, value) :: members =>
      match slots.find name with
      | .unknown => viewMembers fields slots members
      | .taken => .error (.repeatedField name)
      | .free fill => do viewMembers fields (← fill value) members

/-- The elements of a list as a row, `index` of which came before. -/
def viewElements (tooShort : Nat → Mismatch) :
    (fields : List (Field View)) → (index : Nat) → List Json → Except Mismatch (Row fields)
  | [], _, [] => .ok ()
  | [], index, extra => .error (.tooLong (index + extra.length))
  | field :: fields, index, [] =>
      match field.absent with
      | some value => (viewElements tooShort fields (index + 1) []).map (value, ·)
      | none => .error (tooShort index)
  | field :: fields, index, element :: elements => do
      let value ← field.take element
      let row ← viewElements tooShort fields (index + 1) elements
      return (value, row)

/-- Takes a record from an object or from a list of its fields in order. -/
def Record.view {α : Type} (record : Record View α) : View α
  | .obj members => (viewMembers record.fields (.empty record.fields) members).map record.build
  | .arr elements =>
      let tooShort index := .tooShort index record.name record.fields.length
      (viewElements tooShort record.fields 0 elements).map record.build
  | other => .error (.wrongType other.found record.expected)

end ListingHub.Json
