import ListingHub.Handling
import ListingHub.Proofs.Json.Shape
import ListingHub.Proofs.Router
import ListingHub.Proofs.Table

/-!
# The readers of a notification type

A notification type is read in five places: by its name alone, in a JSON text, in a row of the
database, in an envelope and by the router. Each of them takes the names of the three kinds and no
other text, and takes a name for the kind that has it.
-/

namespace ListingHub

namespace Json

variable {α : Type} {variants : List (String × α)} {name : String} {bytes rest : List UInt8}
  {value : α}

theorem variant_eq_ok_iff :
    variant variants name = .ok value ↔ variants.lookup name = some value := by
  unfold variant
  cases variants.lookup name <;> simp

/-- Where a string stands, its text is looked up among the names. -/
theorem readVariant_of_string {depth : Nat} (h : readValue depth bytes = .ok (.str name, rest)) :
    readVariant variants bytes =
      match variant variants name with
      | .ok value => .ok (value, rest)
      | .error why => .error (.before (.mismatch why) rest) := by
  obtain ⟨tail, hquote, htext⟩ := readText_of_readValue h
  rw [readVariant, hquote]
  simp only []
  rw [readStringAs, skipBlanks_cons (by decide)]
  simp only []
  rw [htext, bind_ok]
  rfl

/-- However a string is spelled in a JSON text, it is read as the value that has it for a name. -/
theorem readAll_readVariant_iff (h : ofBytes bytes = .ok (.str name)) :
    readAll (readVariant variants) bytes = .ok value ↔ variants.lookup name = some value := by
  obtain ⟨rest, hread, hends⟩ := readAll_eq_ok_iff.mp h
  rw [readAll_eq_ok_iff, readVariant_of_string hread, ← variant_eq_ok_iff]
  constructor
  · rintro ⟨after, hvariant, -⟩
    split at hvariant
    · next heq =>
        cases hvariant
        exact heq
    · cases hvariant
  · intro hvariant
    rw [hvariant]
    exact ⟨rest, rfl, hends⟩

/-- A written string is a JSON text of itself. -/
theorem ofBytes_text_str (text : String) :
    ofBytes (Utf8.ofText (Json.str text).text) = .ok (.str text) := by
  have hread := (readsBack_str text depthLimit).back [] (by simp [Apart])
  rw [List.append_nil] at hread
  rw [Json.text, Utf8.ofText_ofList]
  exact readAll_eq_ok_iff.mpr ⟨[], hread, rfl⟩

end Json

namespace NotificationKind

variable {name : String} {kind : NotificationKind} {bytes : List UInt8}

theorem name_injective {other : NotificationKind} (h : kind.name = other.name) : kind = other :=
  Option.some.inj ((ofName?_eq_some_iff.mpr h).symm.trans (ofName?_eq_some_iff.mpr rfl))

/-- The names that JSON texts are read by are those of the kinds. -/
theorem lookup_variant_eq_some_iff :
    (all.map fun kind => (kind.variant, kind)).lookup name = some kind ↔ kind.name = name := by
  constructor
  · intro h
    obtain ⟨earlier, later, hsplit, -⟩ := List.lookup_eq_some_iff.mp h
    have hmem : (name, kind) ∈ all.map fun kind => (kind.variant, kind) := by simp [hsplit]
    obtain ⟨other, -, heq⟩ := List.mem_map.mp hmem
    obtain ⟨rfl, rfl⟩ := Prod.mk.inj heq
    exact (variant_eq_name other).symm
  · rintro rfl
    cases kind <;> decide

/-- A JSON string is read as the kind that has it for a name. -/
theorem readAll_read_iff (h : Json.ofBytes bytes = .ok (.str name)) :
    Json.readAll read bytes = .ok kind ↔ kind.name = name :=
  (Json.readAll_readVariant_iff h).trans lookup_variant_eq_some_iff

/-- What the dispatcher is registered for. -/
def registrations : List (String × Handler) :=
  all.map fun kind => (kind.name, .dispatcher)

theorem mem_registrations_iff :
    name ∈ registrations.map (·.1) ↔ ∃ kind : NotificationKind, kind.name = name := by
  have hall : ∀ kind : NotificationKind, kind ∈ all := fun kind => by cases kind <;> decide
  simp [registrations, hall]

/-- Only the dispatcher is registered, and only for the kinds. -/
theorem of_decides {handler : Handler} (h : Router.Decides registrations name handler) :
    handler = .dispatcher ∧ ∃ kind : NotificationKind, kind.name = name := by
  obtain ⟨earlier, later, hsplit, -⟩ := h
  have hmem : (name, handler) ∈ registrations := by simp [hsplit]
  obtain ⟨kind, -, heq⟩ := List.mem_map.mp hmem
  obtain ⟨hname, hhandler⟩ := Prod.mk.inj heq
  exact ⟨hhandler.symm, kind, hname⟩

end NotificationKind

/-- The router of a service that the dispatcher was registered with before anything else. -/
theorem Service.router_registerDispatcher {service : Service} (h : service.router = .empty) :
    service.registerDispatcher.router = .filled NotificationKind.registrations := by
  rw [registerDispatcher, h, Router.filled, NotificationKind.registrations, List.foldl_map]

/-- A row is taken for the kind whose name it holds. -/
theorem NotificationRow.exists_kind_iff {row : NotificationRow} {kind : NotificationKind} :
    (∃ n, row.notification = .ok n ∧ n.kind = kind) ↔ kind.name = row.kind := by
  constructor
  · rintro ⟨n, hn, rfl⟩
    rw [← notification_eq_ok_iff.mp hn]
    rfl
  · intro hname
    obtain ⟨n, hn⟩ := exists_notification_iff.mpr ⟨kind, hname⟩
    refine ⟨n, hn, NotificationKind.name_injective ?_⟩
    rw [hname, ← notification_eq_ok_iff.mp hn]
    rfl

namespace Event

variable {envelope : Envelope} {refused : String}

/-- A refusal for a type is of the envelope's own type, which no kind has for a name. -/
theorem ofEnvelope_eq_refusal_iff :
    ofEnvelope envelope = .error (.unknownEventType refused) ↔
      refused = envelope.eventType ∧ ∀ kind : NotificationKind, kind.name ≠ envelope.eventType := by
  rw [← ofEnvelope_eq_unknown_iff]
  constructor
  · intro h
    have hrefused : refused = envelope.eventType := by
      unfold ofEnvelope Envelope.decodePayload at h
      split at h
      · split at h <;> cases h
      · cases h
        rfl
    exact ⟨hrefused, hrefused ▸ h⟩
  · rintro ⟨rfl, h⟩
    exact h

theorem forall_ne_refusal_iff :
    (∀ refused, ofEnvelope envelope ≠ .error (.unknownEventType refused)) ↔
      ∃ kind : NotificationKind, kind.name = envelope.eventType := by
  simp only [Ne, ofEnvelope_eq_refusal_iff, not_and, not_forall, not_not, forall_eq]

end Event

end ListingHub
