import ListingHub.Envelope

/-!
# The router

Which handler takes the events of a type. Of the handlers registered for one type the last counts;
an event whose type has none is refused.
-/

namespace ListingHub

/-- Event types and their handlers, each type once. -/
structure Router (H : Type) where
  entries : List (String × H)

namespace Router

variable {H : Type}

/-- No type is handled. -/
def empty : Router H := ⟨[]⟩

/-- The handler of an event type. -/
def find? (router : Router H) (eventType : String) : Option H :=
  router.entries.lookup eventType

/-- An event type is handled. -/
def handles (router : Router H) (eventType : String) : Bool :=
  (router.find? eventType).isSome

/-- The event types that are handled. -/
def eventTypes (router : Router H) : List String :=
  router.entries.map (·.1)

/-- Registers a handler; also returns the one it replaces. -/
def register (router : Router H) (eventType : String) (handler : H) : Option H × Router H :=
  (router.find? eventType,
    ⟨(eventType, handler) :: router.entries.filter fun entry => entry.1 != eventType⟩)

theorem find?_register_self (router : Router H) (eventType : String) (handler : H) :
    (router.register eventType handler).2.find? eventType = some handler := by
  simp [register, find?]

/-- Registering a handler leaves the other types alone. -/
theorem find?_register_of_ne (router : Router H) {eventType other : String} (handler : H)
    (h : other ≠ eventType) :
    (router.register eventType handler).2.find? other = router.find? other := by
  have hkept : ∀ entries : List (String × H),
      (entries.filter fun entry => entry.1 != eventType).lookup other = entries.lookup other := by
    intro entries
    induction entries with
    | nil => rfl
    | cons entry rest ih =>
        rcases entry with ⟨name, held⟩
        rcases Decidable.em (name = eventType) with rfl | hne
        · simp [List.lookup_cons, ih, beq_eq_false_iff_ne.mpr h]
        · simp [List.lookup_cons, ih, hne]
  simp [register, find?, List.lookup_cons, beq_eq_false_iff_ne.mpr h, hkept]

/-- Lets the handler of an envelope's type take it, with what it came from. -/
def route {S σ : Type} (router : Router H)
    (invoke : H → Envelope → S → σ → Except Failure Unit × σ) (envelope : Envelope) (source : S)
    (state : σ) : Except Failure Unit × σ :=
  match router.find? envelope.eventType with
  | some handler => invoke handler envelope source state
  | none => (.error (.unknownEventType envelope.eventType), state)

end Router

end ListingHub
