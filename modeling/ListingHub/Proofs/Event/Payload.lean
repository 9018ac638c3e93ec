import ListingHub.Proofs.Event
import ListingHub.Proofs.Json.View

/-!
# The payloads that say an event

The type of an envelope chooses one of three kinds of event; its payload says an event of that kind
when it gives the details of the event, by their names or in their order, with values of exactly
their types. An envelope is an event exactly then; otherwise it is refused for its type, if no kind
has that name, or else for its payload.
-/

namespace ListingHub

/-- A kind is found by its own name and by no other. -/
theorem NotificationKind.ofName?_eq_some_iff {name : String} {kind : NotificationKind} :
    ofName? name = some kind ↔ kind.name = name := by
  constructor
  · exact Event.name_of_ofName?
  · rintro rfl
    cases kind <;> decide

theorem NotificationKind.ofName?_eq_none_iff {name : String} :
    ofName? name = none ↔ ∀ kind : NotificationKind, kind.name ≠ name := by
  rw [Option.eq_none_iff_forall_ne_some]
  exact forall_congr' fun kind => not_congr ofName?_eq_some_iff

namespace Json

theorem asString_eq_ok_iff {value : Json} {text : String} :
    asString value = .ok text ↔ value = .str text := by
  cases value <;> simp [asString]

/-- An integer is taken as the key that is equal to it, if there is one. -/
theorem toInt64_eq_ok_iff {n : Int} {key : Int64} : toInt64 n = .ok key ↔ n = key.toInt := by
  constructor
  · intro h
    unfold toInt64 at h
    split at h
    · next hrange =>
        obtain rfl := Except.ok.inj h
        exact (Int64.toInt_ofInt_of_le hrange.1 hrange.2).symm
    · cases h
  · rintro rfl
    rw [toInt64, if_pos ⟨key.le_toInt, key.toInt_lt⟩, Int64.ofInt_toInt]

theorem asInt64_eq_ok_iff {value : Json} {key : Int64} :
    asInt64 value = .ok key ↔ value = .int key.toInt := by
  cases value <;> simp [asInt64, toInt64_eq_ok_iff]

end Json

namespace Envelope

variable {α : Type} {envelope : Envelope} {shape : Json.Record Json.View α} {a : α}

theorem decodePayload_eq_ok_iff :
    envelope.decodePayload shape = .ok a ↔ shape.view envelope.payload = .ok a := by
  unfold decodePayload
  split
  · next heq =>
      rw [heq]
      exact ⟨fun h => congrArg _ (Except.ok.inj h), fun h => congrArg _ (Except.ok.inj h)⟩
  · next heq =>
      rw [heq]
      exact ⟨nofun, nofun⟩

/-- A payload that is no such record is refused in the name of the envelope's type. -/
theorem decodePayload_eq_malformed_iff :
    (∃ reason, envelope.decodePayload shape =
      .error (.malformedPayload envelope.eventType reason)) ↔
      ∀ a, shape.view envelope.payload ≠ .ok a := by
  unfold decodePayload
  split
  · next a heq => exact ⟨nofun, fun h => absurd heq (h a)⟩
  · next why heq =>
      rw [heq]
      exact ⟨fun _ => nofun, fun _ => ⟨why.message, rfl⟩⟩

end Envelope

namespace Event

open Json (Gives Sole)

/-- The details of an event by their names, in their order. -/
def details : Event → List (String × Json)
  | favorited listing address =>
      [("listing_id", .int listing.key.toInt), ("address", .str address)]
  | priceDrop listing address price =>
      [("listing_id", .int listing.key.toInt), ("address", .str address), ("price", .str price)]
  | statusChange listing address status =>
      [("listing_id", .int listing.key.toInt), ("address", .str address), ("status", .str status)]

theorem listingField_take {value : Json} {listing : ListingId} :
    listingField.take value = .ok listing ↔ value = .int listing.key.toInt := by
  rw [← Json.asInt64_eq_ok_iff]
  refine map_eq_ok.trans ⟨?_, fun h => ⟨_, h, rfl⟩⟩
  rintro ⟨key, hkey, rfl⟩
  exact hkey

theorem textField_take {name text : String} {value : Json} :
    (textField name).take value = .ok text ↔ value = .str text :=
  Json.asString_eq_ok_iff

/-- A row of the payload that a kind asks for is written as the details of the event it builds. -/
theorem written_details (kind : NotificationKind) (row : Json.Row (shape kind).fields) :
    row.Written ((shape kind).build row).details := by
  cases kind with
  | favoritedListing =>
      exact .cons rfl (fun _ => listingField_take) (.cons rfl (fun _ => textField_take) .nil)
  | priceDrop | statusChanged =>
      exact .cons rfl (fun _ => listingField_take)
        (.cons rfl (fun _ => textField_take) (.cons rfl (fun _ => textField_take) .nil))

theorem nodup_names (kind : NotificationKind) :
    ((shape kind).fields.map (·.name)).Nodup := by
  cases kind <;> decide

/-- The rows of the payload that a kind asks for build the events of the kind. -/
theorem exists_build_eq_iff {kind : NotificationKind} {event : Event} :
    (∃ row, (shape kind).build row = event) ↔ event.kind = kind := by
  constructor
  · rintro ⟨row, rfl⟩
    exact kind_build kind row
  · rintro rfl
    cases event with
    | favorited listing address => exact ⟨(listing, address, ()), rfl⟩
    | priceDrop listing address price => exact ⟨(listing, address, price, ()), rfl⟩
    | statusChange listing address status => exact ⟨(listing, address, status, ()), rfl⟩

variable {envelope : Envelope} {event : Event} {kind : NotificationKind} {payload : Json}

/-- A payload is an event of the kind that asks for it when it gives the details of the event. -/
theorem view_eq_ok_iff :
    (shape kind).view payload = .ok event ↔ event.kind = kind ∧ Gives event.details payload := by
  rw [Json.Record.view_eq_ok_iff_gives (nodup_names kind) (written_details kind),
    exists_build_eq_iff]

/-- An envelope of a kind's name is decoded as that kind asks for. -/
theorem ofEnvelope_of_name (h : kind.name = envelope.eventType) :
    ofEnvelope envelope = envelope.decodePayload (shape kind) := by
  rw [ofEnvelope, NotificationKind.ofName?_eq_some_iff.mpr h]

/-- An envelope is an event exactly when its type is the name of the event's kind and its payload
gives the details of the event. -/
theorem ofEnvelope_eq_ok_iff :
    ofEnvelope envelope = .ok event ↔
      envelope.eventType = event.kind.name ∧ Gives event.details envelope.payload := by
  constructor
  · intro h
    have hname := kind_of_ofEnvelope h
    rw [ofEnvelope_of_name hname, Envelope.decodePayload_eq_ok_iff] at h
    exact ⟨hname.symm, (view_eq_ok_iff.mp h).2⟩
  · rintro ⟨hname, hgives⟩
    rw [ofEnvelope_of_name hname.symm, Envelope.decodePayload_eq_ok_iff]
    exact view_eq_ok_iff.mpr ⟨rfl, hgives⟩

/-- Only an envelope of no kind's name is refused for its type. -/
theorem ofEnvelope_eq_unknown_iff :
    ofEnvelope envelope = .error (.unknownEventType envelope.eventType) ↔
      ∀ kind : NotificationKind, kind.name ≠ envelope.eventType := by
  constructor
  · intro h kind hname
    rw [ofEnvelope_of_name hname, Envelope.decodePayload] at h
    split at h <;> cases h
  · intro h
    rw [ofEnvelope, NotificationKind.ofName?_eq_none_iff.mpr h]

/-- An envelope of a kind's name is refused for its payload exactly when that is no event of the
kind. -/
theorem ofEnvelope_eq_malformed_iff (hname : kind.name = envelope.eventType) :
    (∃ reason, ofEnvelope envelope = .error (.malformedPayload envelope.eventType reason)) ↔
      ∀ event : Event, event.kind = kind → ¬Gives event.details envelope.payload := by
  rw [ofEnvelope_of_name hname, Envelope.decodePayload_eq_malformed_iff]
  refine forall_congr' fun event => ?_
  rw [Ne, view_eq_ok_iff, not_and]

/-- An envelope is an event exactly when its type is the name of one of the three kinds and its
payload gives the details of an event of that kind: an object has each detail as the only member of
its name, which is to say as a member where no name comes twice, and a list has exactly the values
of the details in their order. The event is then the one with these details. An envelope of any
other type is refused for its type, whatever its payload, and every other envelope for its
payload. -/
theorem ofEnvelope_reads_details (envelope : Envelope) :
    (∀ event, ofEnvelope envelope = .ok event ↔
      envelope.eventType = event.kind.name ∧ Gives event.details envelope.payload) ∧
    (∀ members, envelope.payload = .obj members → (members.map (·.1)).Nodup →
      ∀ event, ofEnvelope envelope = .ok event ↔
        envelope.eventType = event.kind.name ∧ event.details ⊆ members) ∧
    (ofEnvelope envelope = .error (.unknownEventType envelope.eventType) ↔
      ∀ kind : NotificationKind, kind.name ≠ envelope.eventType) ∧
    ((∃ reason, ofEnvelope envelope = .error (.malformedPayload envelope.eventType reason)) ↔
      ∃ kind : NotificationKind, kind.name = envelope.eventType ∧
        ∀ event : Event, event.kind = kind → ¬Gives event.details envelope.payload) := by
  refine ⟨fun event => ofEnvelope_eq_ok_iff, ?_, ofEnvelope_eq_unknown_iff, ?_, ?_⟩
  · intro members hpayload hnames event
    rw [ofEnvelope_eq_ok_iff, hpayload, Json.gives_obj_iff]
    exact and_congr_right fun _ => forall₂_congr fun _ _ => Json.sole_iff_mem hnames
  · rintro ⟨reason, hreason⟩
    obtain ⟨kind, hname⟩ : ∃ kind : NotificationKind, kind.name = envelope.eventType := by
      refine Classical.not_forall_not.mp fun hnone => ?_
      rw [ofEnvelope_eq_unknown_iff.mpr hnone] at hreason
      cases hreason
    exact ⟨kind, hname, (ofEnvelope_eq_malformed_iff hname).mp ⟨reason, hreason⟩⟩
  · rintro ⟨kind, hname, hnone⟩
    exact (ofEnvelope_eq_malformed_iff hname).mpr hnone

/-- The details of a price drop out of their order and among others; the key is the least there
is. -/
def scattered : List (String × Json) :=
  [("", .null), ("address", .str "1 Main St"), ("listing_id", .int (-9_223_372_036_854_775_808)),
    ("price", .str "$4"), ("status", .int 7)]

/-- The same details as members and as elements are the same event; a key beyond the greatest is
refused. -/
theorem ofEnvelope_reads_details_scattered :
    (scattered.map (·.1)).Nodup ∧
    ofEnvelope ⟨"price_drop_notification", .obj scattered⟩ =
      .ok (.priceDrop ⟨Int64.minValue⟩ "1 Main St" "$4") ∧
    ofEnvelope ⟨"price_drop_notification",
        .arr [.int (-9_223_372_036_854_775_808), .str "1 Main St", .str "$4"]⟩ =
      .ok (.priceDrop ⟨Int64.minValue⟩ "1 Main St" "$4") ∧
    ∃ reason, ofEnvelope ⟨"price_drop_notification",
        .arr [.int 9_223_372_036_854_775_808, .str "1 Main St", .str "$4"]⟩ =
      .error (.malformedPayload "price_drop_notification" reason) := by
  have hnames : (scattered.map (·.1)).Nodup := by decide
  refine ⟨hnames, ?_, ?_, ?_⟩
  · refine ((ofEnvelope_reads_details _).2.1 scattered rfl hnames _).mpr ⟨rfl, ?_⟩
    simp [details, scattered]
  · exact ((ofEnvelope_reads_details _).1 _).mpr ⟨rfl, .list⟩
  · refine (ofEnvelope_reads_details _).2.2.2.mpr ⟨.priceDrop, rfl, fun event _ hgives => ?_⟩
    have hkey (key : Int64) : 9_223_372_036_854_775_808 ≠ key.toInt :=
      fun heq => Int.ne_of_lt key.toInt_lt heq.symm
    rw [Json.gives_arr_iff] at hgives
    cases event <;> simp [details, hkey] at hgives

end Event

end ListingHub
