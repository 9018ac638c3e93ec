import ListingHub.Event
import ListingHub.Proofs.Outcome

/-!
# What decoding an event says about its envelope

A record that was taken from a value was built from a row of its fields, whatever the value looked
like. So the type of an envelope alone decides the kind of its event.
-/

namespace ListingHub

/-- A record taken from a value was built from a row. -/
theorem Json.Record.exists_build_of_view {α : Type} {record : Json.Record Json.View α}
    {value : Json} {built : α} (h : record.view value = .ok built) :
    ∃ row, record.build row = built := by
  cases value with
  | obj members =>
      obtain ⟨row, -, hrow⟩ := map_eq_ok.mp h
      exact ⟨row, hrow⟩
  | arr elements =>
      obtain ⟨row, -, hrow⟩ := map_eq_ok.mp h
      exact ⟨row, hrow⟩
  | null | bool _ | int _ | double _ | str _ => cases h

namespace Event

/-- Whatever row fits the shape of a kind becomes an event of that kind. -/
theorem kind_build (kind : NotificationKind) (row : Json.Row (shape kind).fields) :
    ((shape kind).build row).kind = kind := by
  cases kind <;> rfl

theorem name_of_ofName? {name : String} {kind : NotificationKind}
    (h : NotificationKind.ofName? name = some kind) : kind.name = name := by
  simpa using List.find?_some h

/-- An event is of the kind that its envelope's type names. -/
theorem kind_of_ofEnvelope {envelope : Envelope} {event : Event}
    (h : ofEnvelope envelope = .ok event) : event.kind.name = envelope.eventType := by
  simp only [ofEnvelope] at h
  split at h
  · next kind hkind =>
      simp only [Envelope.decodePayload] at h
      split at h
      · next built hview =>
          obtain ⟨row, hrow⟩ := Json.Record.exists_build_of_view hview
          rw [← Except.ok.inj h, ← hrow, kind_build, name_of_ofName? hkind]
      · cases h
  · cases h

end Event

end ListingHub
