import ListingHub.Decimal.Shortest

/-!
# JSON values

A number is either an integer, kept exactly, or a double, kept as its bits. An object keeps its
members in the order given. An object that was read has them in the order of their names, each name
once: `put` keeps a list of members so, and `Json.ofMembers` builds the object in which the last
member of a name wins.
-/

namespace ListingHub

/-- A JSON value. -/
inductive Json where
  | null
  | bool (value : Bool)
  | int (value : Int)
  | double (bits : UInt64)
  | str (text : String)
  | arr (elements : List Json)
  | obj (members : List (String × Json))
  deriving Repr, Inhabited

namespace Json

/-- Puts a member in the place of its name, over an earlier member of that name. -/
def put (name : String) (value : Json) : List (String × Json) → List (String × Json)
  | [] => [(name, value)]
  | (other, old) :: rest =>
      if name < other then (name, value) :: (other, old) :: rest
      else if name = other then (name, value) :: rest
      else (other, old) :: put name value rest

theorem lookup_put_self (name : String) (value : Json) (members : List (String × Json)) :
    (put name value members).lookup name = some value := by
  induction members with
  | nil => simp [put]
  | cons member rest ih =>
      rcases member with ⟨other, old⟩
      unfold put
      split
      · simp
      · split
        · simp
        · next hne => simp [List.lookup_cons, beq_eq_false_iff_ne.mpr hne, ih]

/-- Putting a member leaves the other names alone. -/
theorem lookup_put_of_ne {name asked : String} (value : Json) (members : List (String × Json))
    (h : asked ≠ name) : (put name value members).lookup asked = members.lookup asked := by
  have hasked := beq_eq_false_iff_ne.mpr h
  induction members with
  | nil => simp [put, List.lookup_cons, hasked]
  | cons member rest ih =>
      rcases member with ⟨other, old⟩
      unfold put
      split
      · simp [List.lookup_cons, hasked]
      · split
        · next heq => simp [List.lookup_cons, ← heq, hasked]
        · simp [List.lookup_cons, ih]

/-- The object of members read one after another. -/
def ofMembers (members : List (String × Json)) : Json :=
  .obj (members.foldl (fun placed m => put m.1 m.2 placed) [])

/-- Doubles are written positionally from `1e-5` up to below `1e16`. -/
def doubleLayout : Decimal.Layout := ⟨-5, 16⟩

/-- The text of a double. -/
def doubleText (bits : UInt64) : List Char :=
  doubleLayout.writeBits bits

end Json

end ListingHub
