import ListingHub.Json.Basic
import ListingHub.Proofs.Text.Utf8

/-!
# The values inside a value

A value is made of parts: itself, and the parts of its elements and members. An object that was put
together member by member has its names in order, and putting the members of such an object together
again changes nothing.
-/

namespace ListingHub.Json

/-- A value inside a value, itself included. -/
inductive Part : Json → Json → Prop
  | self (value : Json) : Part value value
  | element {part element : Json} {elements : List Json} (mem : element ∈ elements)
      (inside : Part part element) : Part part (.arr elements)
  | member {part : Json} {m : String × Json} {members : List (String × Json)}
      (mem : m ∈ members) (inside : Part part m.2) : Part part (.obj members)

/-- No part is a double. -/
def Exact (value : Json) : Prop :=
  ∀ bits, ¬Part (.double bits) value

/-- The names of every object inside a value come in the strict order of their bytes. -/
def Ascends (value : Json) : Prop :=
  ∀ members, Part (.obj members) value →
    members.Pairwise fun m n => Utf8.ofText m.1 < Utf8.ofText n.1

@[simp] theorem exact_arr_iff {elements : List Json} :
    Exact (.arr elements) ↔ ∀ element ∈ elements, element.Exact := by
  constructor
  · exact fun h element mem bits inside => h bits (.element mem inside)
  · rintro h bits (_ | ⟨mem, inside⟩ | _)
    exact h _ mem bits inside

@[simp] theorem exact_obj_iff {members : List (String × Json)} :
    Exact (.obj members) ↔ ∀ m ∈ members, m.2.Exact := by
  constructor
  · exact fun h m mem bits inside => h bits (.member mem inside)
  · rintro h bits (_ | _ | ⟨mem, inside⟩)
    exact h _ mem bits inside

@[simp] theorem exact_null : Exact .null := fun _ => nofun

@[simp] theorem exact_bool (value : Bool) : Exact (.bool value) := fun _ => nofun

@[simp] theorem exact_int (value : Int) : Exact (.int value) := fun _ => nofun

@[simp] theorem exact_str (text : String) : Exact (.str text) := fun _ => nofun

/-- Members with their names in order, each once. -/
def Ordered (members : List (String × Json)) : Prop :=
  members.Pairwise fun m n => m.1 < n.1

theorem mem_put {name : String} {value : Json} {members : List (String × Json)}
    {m : String × Json} (h : m ∈ put name value members) : m = (name, value) ∨ m ∈ members := by
  induction members with
  | nil => exact .inl (List.mem_singleton.mp h)
  | cons first members ih =>
      rcases first with ⟨other, old⟩
      rw [put] at h
      split at h
      · exact List.mem_cons.mp h
      split at h
      · rcases List.mem_cons.mp h with rfl | hm
        · exact .inl rfl
        · exact .inr (List.mem_cons_of_mem _ hm)
      · rcases List.mem_cons.mp h with rfl | hm
        · exact .inr List.mem_cons_self
        · exact (ih hm).imp_right (List.mem_cons_of_mem _)

/-- Putting a member keeps the names in order. -/
theorem Ordered.put {members : List (String × Json)} (h : Ordered members) (name : String)
    (value : Json) : Ordered (put name value members) := by
  induction members with
  | nil => exact List.pairwise_singleton _ _
  | cons first members ih =>
      rcases first with ⟨other, old⟩
      obtain ⟨hfirst, hrest⟩ := List.pairwise_cons.mp h
      rw [Json.put]
      split
      · next hlt =>
          refine List.pairwise_cons.mpr ⟨fun m hm => ?_, h⟩
          rcases List.mem_cons.mp hm with rfl | hm
          · exact hlt
          · exact String.lt_trans hlt (hfirst m hm)
      · next hge =>
          split
          · next heq =>
              subst heq
              exact List.pairwise_cons.mpr ⟨hfirst, hrest⟩
          · next hne =>
              refine List.pairwise_cons.mpr ⟨fun m hm => ?_, ih hrest⟩
              rcases mem_put hm with rfl | hm
              · rcases Std.lt_trichotomy name other with hlt | heq | hlt
                · exact absurd hlt hge
                · exact absurd heq hne
                · exact hlt
              · exact hfirst m hm

/-- A member whose name comes after all others is put last. -/
theorem put_of_forall_lt {name : String} {members : List (String × Json)}
    (h : ∀ m ∈ members, m.1 < name) (value : Json) :
    put name value members = members ++ [(name, value)] := by
  induction members with
  | nil => rfl
  | cons first members ih =>
      rcases first with ⟨other, old⟩
      have hlt : other < name := h _ List.mem_cons_self
      have hne : name ≠ other := by
        rintro rfl
        exact String.lt_irrefl _ hlt
      rw [put, if_neg (String.lt_asymm hlt), if_neg hne,
        ih fun m hm => h m (List.mem_cons_of_mem _ hm), List.cons_append]

/-- The members that were put together over others that had been. -/
def gather (placed members : List (String × Json)) : List (String × Json) :=
  members.foldl (fun placed m => put m.1 m.2 placed) placed

theorem mem_gather {placed members : List (String × Json)} {m : String × Json}
    (h : m ∈ gather placed members) : m ∈ placed ∨ m ∈ members := by
  induction members generalizing placed with
  | nil => exact .inl h
  | cons first members ih =>
      rcases ih h with hm | hm
      · rcases mem_put hm with rfl | hm
        · exact .inr List.mem_cons_self
        · exact .inl hm
      · exact .inr (List.mem_cons_of_mem _ hm)

theorem Ordered.gather {placed : List (String × Json)} (h : Ordered placed)
    (members : List (String × Json)) : Ordered (gather placed members) := by
  induction members generalizing placed with
  | nil => exact h
  | cons first members ih => exact ih (h.put first.1 first.2)

/-- Members in order are put one after another. -/
theorem gather_of_ordered {placed members : List (String × Json)}
    (h : Ordered (placed ++ members)) : gather placed members = placed ++ members := by
  induction members generalizing placed with
  | nil => exact (List.append_nil placed).symm
  | cons first members ih =>
      have hbefore : ∀ m ∈ placed, m.1 < first.1 := fun m hm =>
        (List.pairwise_append.mp h).2.2 m hm first List.mem_cons_self
      have hplaced := put_of_forall_lt hbefore first.2
      have happend : placed ++ first :: members = placed ++ [first] ++ members := by
        rw [List.append_assoc, List.singleton_append]
      rw [happend] at h ⊢
      rw [← ih h]
      exact congrArg (Json.gather · members) hplaced

/-- Members in order make up the object that has them. -/
theorem ofMembers_of_ordered {members : List (String × Json)} (h : Ordered members) :
    ofMembers members = .obj members :=
  congrArg Json.obj (gather_of_ordered h)

end ListingHub.Json
