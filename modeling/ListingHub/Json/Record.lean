import ListingHub.Json.Fault

/-!
# Records

A record is a name and a list of named fields, each with its own way of being taken: from text or
from a value. Its members may come in any order, so that they are gathered in slots, one for each
field, and become a row when all of them are there.
-/

namespace ListingHub.Json

/-- A named field, how its value is taken, and its value when it is absent. -/
structure Field (Take : Type → Type) where
  name : String
  Carrier : Type
  take : Take Carrier
  absent : Option Carrier

variable {Take : Type → Type}

/-- One value for each field. -/
def Row : List (Field Take) → Type
  | [] => Unit
  | field :: fields => field.Carrier × Row fields

/-- At most one value for each field. -/
def Slots : List (Field Take) → Type
  | [] => Unit
  | field :: fields => Option field.Carrier × Slots fields

/-- No field has a value. -/
def Slots.empty : (fields : List (Field Take)) → Slots fields
  | [] => ()
  | _ :: fields => (none, Slots.empty fields)

/-- What a member's name means to the slots of a record. -/
inductive Slot (α : Type) where
  /-- No field has this name. -/
  | unknown
  /-- The field has a value already. -/
  | taken
  /-- Taking the value fills the slot. -/
  | free (fill : α)

/-- The slot of the field called `name`. -/
def Slots.find [Functor Take] (name : String) :
    (fields : List (Field Take)) → Slots fields → Slot (Take (Slots fields))
  | [], _ => .unknown
  | field :: fields, (value, slots) =>
      if field.name = name then
        if value.isSome then .taken else .free ((fun new => (some new, slots)) <$> field.take)
      else
        match find name fields slots with
        | .unknown => .unknown
        | .taken => .taken
        | .free fill => .free ((fun slots => (value, slots)) <$> fill)

/-- The row of filled slots. The first field without any value is missed. -/
def Slots.row? : (fields : List (Field Take)) → Slots fields → Except Mismatch (Row fields)
  | [], _ => .ok ()
  | field :: fields, (value, slots) =>
      match value <|> field.absent with
      | some value => (row? fields slots).map (value, ·)
      | none => .error (.missingField field.name)

/-- A record: its fields and what a row of them stands for. -/
structure Record (Take : Type → Type) (α : Type) where
  name : String
  fields : List (Field Take)
  build : Row fields → α

/-- How a message names a record that was expected. -/
def Record.expected {α : Type} (record : Record Take α) : String :=
  "struct " ++ record.name

end ListingHub.Json
