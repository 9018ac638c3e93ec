import ListingHub.Router
import Mathlib.Data.List.Induction
import Mathlib.Data.List.Nodup

/-!
# A router is what was registered

A router that was filled by registrations has forgotten all of them but the last for each type: it
names each registered type once, and an envelope of that type goes to the handler that was
registered last for it, once and to no other. A type that was never registered has no handler, and
its envelopes are refused by their type.

Which handlers are invoked cannot be read off an outcome, so a router is also run with handlers
that note every invocation.
-/

namespace ListingHub.Router

variable {H S σ : Type}

/-- The router after registrations, the earliest of them first. -/
def filled (registrations : List (String × H)) : Router H :=
  registrations.foldl (fun router r => (router.register r.1 r.2).2) empty

/-- The last registration for a type is of the handler. -/
def Decides (registrations : List (String × H)) (eventType : String) (handler : H) : Prop :=
  ∃ earlier later, registrations = earlier ++ (eventType, handler) :: later ∧
    ∀ r ∈ later, r.1 ≠ eventType

/-- A handler that was invoked, with what it was given. -/
structure Invocation (H S : Type) where
  handler : H
  envelope : Envelope
  source : S

/-- Invokes a handler, and notes with what it was invoked. -/
def noting (invoke : H → Envelope → S → σ → Except Failure Unit × σ) (handler : H)
    (envelope : Envelope) (source : S) (state : List (Invocation H S) × σ) :
    Except Failure Unit × List (Invocation H S) × σ :=
  let (outcome, after) := invoke handler envelope source state.2
  (outcome, state.1 ++ [⟨handler, envelope, source⟩], after)

variable {registrations : List (String × H)} {eventType : String} {handler : H}

/-! ## One registration more -/

theorem filled_append_singleton (registrations : List (String × H)) (r : String × H) :
    filled (registrations ++ [r]) = ((filled registrations).register r.1 r.2).2 :=
  List.foldl_concat ..

/-- A further registration decides its own type, and leaves every other to those before. -/
theorem decides_append_singleton {r : String × H} :
    Decides (registrations ++ [r]) eventType handler ↔
      r = (eventType, handler) ∨ r.1 ≠ eventType ∧ Decides registrations eventType handler := by
  constructor
  · rintro ⟨earlier, later, hsplit, hlater⟩
    rcases List.eq_nil_or_concat later with rfl | ⟨middle, last, rfl⟩
    · obtain ⟨-, hlast⟩ := List.append_inj' hsplit rfl
      exact .inl (List.singleton_inj.mp hlast)
    · rw [List.concat_eq_append, ← List.cons_append, ← List.append_assoc] at hsplit
      obtain ⟨hbefore, hlast⟩ := List.append_inj' hsplit rfl
      obtain rfl := List.singleton_inj.mp hlast
      have hmiddle : ∀ other ∈ middle, other.1 ≠ eventType := fun other hother =>
        hlater other (by simp [hother])
      exact .inr ⟨hlater r (by simp), earlier, middle, hbefore, hmiddle⟩
  · rintro (rfl | ⟨hne, earlier, later, rfl, hlater⟩)
    · exact ⟨registrations, [], rfl, by simp⟩
    · refine ⟨earlier, later ++ [r], by simp, fun other hother => ?_⟩
      rcases List.mem_append.mp hother with hother | hother
      · exact hlater other hother
      · rwa [List.mem_singleton.mp hother]

/-! ## What a filled router holds -/

/-- The handler of a type is the one registered last for it. -/
theorem find?_filled_eq_some_iff :
    (filled registrations).find? eventType = some handler ↔
      Decides registrations eventType handler := by
  -- From the end of the history, since the last registration is the one a router was built by.
  induction registrations using List.reverseRecOn with
  | nil =>
      constructor
      · intro h
        cases h
      · rintro ⟨earlier, later, hsplit, -⟩
        simp at hsplit
  | append_singleton registrations r ih =>
      rw [filled_append_singleton, decides_append_singleton]
      rcases Decidable.em (r.1 = eventType) with rfl | hne
      · rw [find?_register_self]
        simp [Prod.ext_iff]
      · rw [find?_register_of_ne _ _ (Ne.symm hne), ih]
        simp [Prod.ext_iff, hne]

/-- A type has no handler when nothing was registered for it. -/
theorem find?_filled_eq_none_iff :
    (filled registrations).find? eventType = none ↔ eventType ∉ registrations.map (·.1) := by
  induction registrations using List.reverseRecOn with
  | nil => exact ⟨fun _ => List.not_mem_nil, fun _ => rfl⟩
  | append_singleton registrations r ih =>
      rw [filled_append_singleton, List.map_append, List.mem_append]
      rcases Decidable.em (r.1 = eventType) with rfl | hne
      · rw [find?_register_self]
        simp
      · rw [find?_register_of_ne _ _ (Ne.symm hne), ih]
        simp [Ne.symm hne]

theorem handles_filled_iff :
    (filled registrations).handles eventType = true ↔ eventType ∈ registrations.map (·.1) := by
  rw [handles, Option.isSome_iff_ne_none, Ne, find?_filled_eq_none_iff, not_not]

/-- A registration names its type first, in place of where it was named before. -/
theorem eventTypes_register (router : Router H) (eventType : String) (handler : H) :
    (router.register eventType handler).2.eventTypes =
      eventType :: router.eventTypes.filter (· != eventType) := by
  rw [register, eventTypes, List.map_cons, eventTypes, List.filter_map]
  rfl

theorem mem_eventTypes_filled :
    eventType ∈ (filled registrations).eventTypes ↔ eventType ∈ registrations.map (·.1) := by
  induction registrations using List.reverseRecOn with
  | nil => exact Iff.rfl
  | append_singleton registrations r ih =>
      rw [filled_append_singleton, eventTypes_register, List.mem_cons, List.mem_filter, ih,
        List.map_append, List.mem_append, List.map_singleton, List.mem_singleton, bne_iff_ne]
      tauto

/-- No type is named twice. -/
theorem nodup_eventTypes_filled (registrations : List (String × H)) :
    (filled registrations).eventTypes.Nodup := by
  induction registrations using List.reverseRecOn with
  | nil => exact List.nodup_nil
  | append_singleton registrations r ih =>
      rw [filled_append_singleton, eventTypes_register, List.nodup_cons]
      exact ⟨by simp, ih.filter _⟩

/-! ## Routing -/

variable {envelope : Envelope}

/-- What the handler of an envelope's type does is all that routing does. -/
theorem route_filled_of_decides (h : Decides registrations envelope.eventType handler)
    (invoke : H → Envelope → S → σ → Except Failure Unit × σ) (source : S) (state : σ) :
    (filled registrations).route invoke envelope source state =
      invoke handler envelope source state := by
  rw [route, find?_filled_eq_some_iff.mpr h]

theorem route_filled_of_not_mem
    (h : envelope.eventType ∉ registrations.map (·.1))
    (invoke : H → Envelope → S → σ → Except Failure Unit × σ) (source : S) (state : σ) :
    (filled registrations).route invoke envelope source state =
      (.error (.unknownEventType envelope.eventType), state) := by
  rw [route, find?_filled_eq_none_iff.mpr h]

/-- After any registrations an envelope is given, with its source, to the handler registered last
for its type, once and to no other handler, and comes out as that handler leaves it; where nothing
was registered for its type no handler is invoked and it is refused by that type. A further
registration returns the handler that decided its type before, if there was one. A type is handled
when some registration was for it, and is then named exactly once. -/
theorem routes_to_last_registered (registrations : List (String × H))
    (invoke : H → Envelope → S → σ → Except Failure Unit × σ) (envelope : Envelope) (source : S)
    (noted : List (Invocation H S)) (state : σ) :
    (∀ handler, Decides registrations envelope.eventType handler →
      (filled registrations).route invoke envelope source state =
        invoke handler envelope source state ∧
      (filled registrations).route (noting invoke) envelope source (noted, state) =
        ((invoke handler envelope source state).1, noted ++ [⟨handler, envelope, source⟩],
          (invoke handler envelope source state).2)) ∧
    (envelope.eventType ∉ registrations.map (·.1) →
      (filled registrations).route (noting invoke) envelope source (noted, state) =
        (.error (.unknownEventType envelope.eventType), noted, state)) ∧
    (∀ eventType new replaced, ((filled registrations).register eventType new).1 = some replaced ↔
      Decides registrations eventType replaced) ∧
    (∀ eventType new, ((filled registrations).register eventType new).1 = none ↔
      eventType ∉ registrations.map (·.1)) ∧
    (∀ eventType, (filled registrations).handles eventType = true ↔
      eventType ∈ registrations.map (·.1)) ∧
    (filled registrations).eventTypes.Nodup ∧
    ∀ eventType, eventType ∈ (filled registrations).eventTypes ↔
      eventType ∈ registrations.map (·.1) := by
  refine ⟨fun handler hdecides => ⟨?_, ?_⟩, fun habsent => ?_, ?_, ?_, ?_, ?_, ?_⟩
  · exact route_filled_of_decides hdecides invoke source state
  · exact route_filled_of_decides hdecides (noting invoke) source (noted, state)
  · exact route_filled_of_not_mem habsent (noting invoke) source (noted, state)
  · exact fun eventType new replaced => find?_filled_eq_some_iff
  · exact fun eventType new => find?_filled_eq_none_iff
  · exact fun eventType => handles_filled_iff
  · exact nodup_eventTypes_filled registrations
  · exact fun eventType => mem_eventTypes_filled

/-- Three registrations, two of them for one type. -/
def twice : List (String × Nat) := [("x", 1), ("y", 2), ("x", 3)]

/-- A handler that fails by its number and counts in the state. -/
def failing (handler : Nat) (_ : Envelope) (_ : UserId) (count : Nat) :
    Except Failure Unit × Nat :=
  (.error (.internal (toString handler)), count + 1)

/-- The handler registered first for the type is replaced and not invoked. -/
theorem routes_to_last_registered_twice :
    Decides twice "x" 3 ∧
    (filled twice).route (noting failing) ⟨"x", .null⟩ ⟨7⟩ ([], 0) =
      (.error (.internal "3"), [⟨3, ⟨"x", .null⟩, ⟨7⟩⟩], 1) ∧
    (filled twice).route (noting failing) ⟨"X", .null⟩ ⟨7⟩ ([], 0) =
      (.error (.unknownEventType "X"), [], 0) ∧
    ((filled twice).register "x" 4).1 = some 3 := by
  have hdecides : Decides twice "x" 3 := ⟨[("x", 1), ("y", 2)], [], rfl, by simp⟩
  have habsent : "X" ∉ twice.map (·.1) := by simp [twice]
  have hx := routes_to_last_registered twice failing ⟨"x", .null⟩ ⟨7⟩ [] 0
  have hX := routes_to_last_registered twice failing ⟨"X", .null⟩ ⟨7⟩ [] 0
  exact ⟨hdecides, (hx.1 3 hdecides).2, hX.2.1 habsent, (hx.2.2.1 "x" 4 3).mpr hdecides⟩

end ListingHub.Router
