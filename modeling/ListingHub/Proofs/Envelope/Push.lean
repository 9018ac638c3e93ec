import ListingHub.Proofs.Dispatch
import ListingHub.Proofs.Envelope
import ListingHub.Proofs.Event.Payload

/-!
# Pushes read back

A push has the name of its kind for a type and a payload of its message alone. Whatever characters
the message has, the frame gives the push back, so that no two pushes share a frame. The types of
pushes are those of events, but the payload of a push says no event: a push that is sent back is
refused and nothing comes of it.
-/

namespace ListingHub

namespace Push

/-- The details of a push by their names. -/
def details (push : Push) : List (String × Json) :=
  [("message", .str push.message)]

theorem written_details (row : Json.Row shape.fields) :
    row.Written (shape.build row).details :=
  .cons rfl (fun _ => Json.asString_eq_ok_iff) .nil

/-- A payload is a push when it gives the message and, as a list, nothing else. -/
theorem view_eq_ok_iff {payload : Json} {push : Push} :
    shape.view payload = .ok push ↔ Json.Gives push.details payload := by
  have hbuilt : ∃ row, shape.build row = push := ⟨(push.message, ()), rfl⟩
  rw [Json.Record.view_eq_ok_iff_gives (by decide) written_details]
  exact and_iff_right hbuilt

end Push

namespace Envelope

variable {kind : NotificationKind} {message : String}

theorem payload_notification (kind : NotificationKind) (message : String) :
    (notification kind message).payload = .obj (Push.mk message).details := rfl

/-- The frame of a push gives the push back. -/
theorem ofFrame_notification (kind : NotificationKind) (message : String) :
    ofFrame (Utf8.ofText (notification kind message).encode) =
      .ok (notification kind message) := by
  apply ofFrame_encode
  · exact ⟨List.pairwise_singleton _ _, List.forall_mem_singleton.mpr trivial⟩
  · exact Json.exact_obj_iff.mpr (List.forall_mem_singleton.mpr (Json.exact_str message))

/-- Kind and message are all that makes a push. -/
theorem notification_inj {other : NotificationKind} {text : String}
    (h : notification other text = notification kind message) : other = kind ∧ text = message := by
  obtain ⟨hname, hpayload⟩ := Envelope.mk.inj h
  constructor
  · exact Option.some.inj ((NotificationKind.ofName?_eq_some_iff.mpr hname).symm.trans
      (NotificationKind.ofName?_eq_some_iff.mpr rfl))
  · simpa [Push.toJson] using hpayload

/-- A push says no event, whatever its type. -/
theorem not_gives_details (event : Event) (message : String) :
    ¬Json.Gives event.details (notification kind message).payload := by
  rw [payload_notification, Json.gives_obj_iff]
  intro heach
  have hlisting : ("listing_id", Json.int event.listing.key.toInt) ∈ event.details := by
    cases event <;> exact List.mem_cons_self
  have hmember := (Json.sole_iff_mem (by simp [Push.details])).mp (heach _ hlisting)
  simp [Push.details] at hmember

theorem ofEnvelope_notification (kind : NotificationKind) (message : String) :
    ∃ reason, Event.ofEnvelope (notification kind message) =
      .error (.malformedPayload kind.name reason) :=
  (Event.ofEnvelope_eq_malformed_iff rfl).mpr fun event _ => not_gives_details event message

/-- The frame of a push is read back as the push: an envelope of its kind's name whose payload is
its message. So different pushes have different frames. Sent back, the push is refused for its
payload, and the dispatcher fails on it without any effect. -/
theorem push_read_back (kind : NotificationKind) (message : String) :
    let push := notification kind message
    ofFrame (Utf8.ofText push.encode) = .ok push ∧
    push.eventType = kind.name ∧
    push.decodePayload Push.shape = .ok ⟨message⟩ ∧
    (∀ other text, Utf8.ofText (notification other text).encode = Utf8.ofText push.encode →
      other = kind ∧ text = message) ∧
    ∃ reason, Event.ofEnvelope push = .error (.malformedPayload push.eventType reason) ∧
      ∀ (service : Service) (now : Instant) (source : Handle) (user : UserId),
        service.dispatch now source user push =
          (.error (.malformedPayload push.eventType reason), service, []) := by
  intro push
  obtain ⟨reason, hrefused⟩ := ofEnvelope_notification kind message
  have hback := ofFrame_notification kind message
  refine ⟨hback, rfl, ?_, ?_, reason, hrefused, ?_⟩
  · rw [decodePayload_eq_ok_iff, Push.view_eq_ok_iff, payload_notification, Json.gives_obj_iff]
    exact fun detail hdetail => (Json.sole_iff_mem (by simp [Push.details])).mpr hdetail
  · intro other text hframe
    have hother := ofFrame_notification other text
    rw [hframe, hback] at hother
    exact notification_inj (Except.ok.inj hother).symm
  · intro service now source user
    exact Service.dispatch_of_error hrefused

/-- A message with a quote, a backslash, a control character and characters of two and four bytes is
read back; under another kind it has another frame. -/
theorem push_read_back_escaped :
    let push := notification .priceDrop "\"\\\x01é😀"
    push.encode = "\x7b\"type\":\"price_drop_notification\"," ++
      "\"payload\":\x7b\"message\":\"\\\"\\\\\\u0001é😀\"\x7d\x7d" ∧
    ofFrame (Utf8.ofText push.encode) = .ok push ∧
    Utf8.ofText (notification .statusChanged "\"\\\x01é😀").encode ≠ Utf8.ofText push.encode := by
  intro push
  obtain ⟨hback, -, -, honly, -⟩ := push_read_back .priceDrop "\"\\\x01é😀"
  refine ⟨by decide, hback, fun hframe => ?_⟩
  cases (honly _ _ hframe).1

end Envelope

end ListingHub
