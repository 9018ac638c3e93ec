import ListingHub.Envelope
import ListingHub.Proofs.Json.Reader
import ListingHub.Proofs.Json.Record

/-!
# Envelopes written and read back

What a frame carried is written as a compact object of a type and a payload, and read back from that
object as it was, unless its payload holds a double.
-/

namespace ListingHub.Envelope

open Json (Fits ReadsBack writeMember)
open Utf8 (spell)

/-- The members of an envelope, a type and a payload. -/
def typeMember (e : Envelope) : String × Json :=
  ("type", .str e.eventType)

def payloadMember (e : Envelope) : String × Json :=
  ("payload", e.payload)

theorem toList_encode (e : Envelope) :
    e.encode.toList = '\x7b' :: (writeMember e.typeMember ++
      ',' :: (writeMember e.payloadMember ++ ['\x7d'])) := by
  have hmembers : Json.writeMembers [e.typeMember, e.payloadMember] =
      writeMember e.typeMember ++ ',' :: writeMember e.payloadMember := by
    rw [Json.writeMembers_cons, Json.further_cons, Json.further, List.flatMap_nil, List.append_nil]
  calc e.encode.toList = Json.write (.obj [e.typeMember, e.payloadMember]) := String.toList_ofList
    _ = '\x7b' :: (Json.writeMembers [e.typeMember, e.payloadMember] ++ ['\x7d']) := by
        rw [Json.write]
    _ = _ := by rw [hmembers, List.append_assoc, List.cons_append]

/-- The bytes of an envelope. -/
theorem ofText_encode (e : Envelope) :
    Utf8.ofText e.encode = 0x7B :: (spell (writeMember e.typeMember) ++
      0x2C :: (spell (writeMember e.payloadMember) ++ [0x7D])) := by
  rw [Utf8.ofText_eq, toList_encode, Utf8.spell_cons, Utf8.spell_append, Utf8.spell_cons,
    Utf8.spell_append]
  rfl

/-- A type is read back as any string is. -/
theorem readString_write (text : String) (rest : List UInt8) :
    Json.readString (spell (Json.write (.str text)) ++ rest) = .ok (text, rest) := by
  obtain ⟨body, hspelled, hread⟩ := Json.readText_writeText text
  rw [Json.write, hspelled, List.cons_append, Json.readString, Json.readStringAs,
    Json.skipBlanks_cons (by decide)]
  simp only []
  rw [hread rest]
  rfl

/-- What the members of an envelope have filled so far. -/
def slots (eventType : Option String) (payload : Option Json) : Json.Slots record.fields :=
  show Option String × Option Json × Unit from (eventType, payload, ())

/-- A string fills the slot of the type. -/
theorem find_type (payload : Option Json) :
    ∃ fill, (slots none payload).find "type" = .free fill ∧ ∀ {bytes rest text},
      Json.readString bytes = .ok (text, rest) →
        fill bytes = .ok (slots (some text) payload, rest) :=
  ⟨_, rfl, fun h => congrArg (Except.map _) h⟩

/-- Any value fills the slot of the payload. -/
theorem find_payload (eventType : Option String) :
    ∃ fill, (slots eventType none).find "payload" = .free fill ∧ ∀ {bytes rest value},
      Json.readValue (Json.depthLimit - 1) bytes = .ok (value, rest) →
        fill bytes = .ok (slots eventType (some value), rest) :=
  ⟨_, rfl, fun h => congrArg (Except.map _ ∘ Except.map _) h⟩

/-- The bytes of an envelope between its braces are enough for its two members and its end. -/
theorem exists_fuel (e : Envelope) :
    ∃ fuel, (spell (writeMember e.typeMember) ++
      0x2C :: (spell (writeMember e.payloadMember) ++ [0x7D])).length + 1 = fuel + 3 := by
  apply Nat.exists_eq_add_of_le'
  simp only [List.length_append, List.length_cons]
  omega

variable {e : Envelope}

theorem readValue_payload (hfits : Fits (Json.depthLimit - 1) e.payload)
    (hexact : e.payload.Exact) :
    Json.readValue (Json.depthLimit - 1) (spell e.payload.write ++ [0x7D]) =
      .ok (e.payload, [0x7D]) :=
  (Json.readsBack_of_fits hfits hexact).back [0x7D] (Json.apart_cons (by simp) [])

/-- An envelope whose payload fits and holds no double is read back from its text. -/
theorem ofFrame_encode (hfits : Fits (Json.depthLimit - 1) e.payload)
    (hexact : e.payload.Exact) : ofFrame (Utf8.ofText e.encode) = .ok e := by
  obtain ⟨fillType, hfindType, hfillType⟩ := find_type none
  obtain ⟨fillPayload, hfindPayload, hfillPayload⟩ := find_payload (some e.eventType)
  obtain ⟨fuel, hfuel⟩ := exists_fuel e
  have hslots : Json.readSlots record.fields (fuel + 3) true (.empty record.fields)
      (spell (writeMember e.typeMember) ++
        0x2C :: (spell (writeMember e.payloadMember) ++ [0x7D])) =
      .ok (.ok (show String × Json × Unit from (e.eventType, e.payload, ())), [0x7D]) := by
    rw [Json.readSlots_cons (Json.nextName_writeMember _ _) (Json.colon_cons _) hfindType
        (hfillType (readString_write e.eventType _)),
      Json.readSlots_cons (Json.nextName_comma _ _) (Json.colon_cons _) hfindPayload
        (hfillPayload (readValue_payload hfits hexact))]
    rfl
  have hread : Json.readAll record.read (Utf8.ofText e.encode) = .ok e := by
    rw [ofText_encode, Json.readAll, Json.Record.read, Json.skipBlanks_cons (by decide)]
    simp only []
    rw [hfuel, hslots]
    rfl
  rw [ofFrame, hread]

/-- A written envelope has a type, then a payload, and nothing else. -/
theorem given_encode (hfits : Fits (Json.depthLimit - 1) e.payload) (hexact : e.payload.Exact) :
    record.given (Utf8.ofText e.encode) = .ok ["type", "payload"] := by
  obtain ⟨fuel, hfuel⟩ := exists_fuel e
  have htype (rest : List UInt8) : Json.pastMember record.fields "type"
      (spell (Json.write (.str e.eventType)) ++ rest) = .ok rest :=
    congrArg (Except.map _) (readString_write e.eventType rest)
  have hpayload : Json.pastMember record.fields "payload" (spell e.payload.write ++ [0x7D]) =
      .ok [0x7D] :=
    congrArg (Except.map _) (readValue_payload hfits hexact)
  rw [ofText_encode, Json.Record.given, Json.skipBlanks_cons (by decide)]
  simp only []
  rw [hfuel, Json.readNames_cons (Json.nextName_writeMember _ _) (Json.colon_cons _) (htype _),
    Json.readNames_cons (Json.nextName_comma _ _) (Json.colon_cons _) hpayload]
  rfl

/-- What a frame has values for is known; without a payload, the payload is null. -/
theorem given_of_ofFrame {frame : List UInt8} (h : ofFrame frame = .ok e) :
    ∃ names, record.given frame = .ok names ∧
      ("payload" ∈ names ∧ Fits (Json.depthLimit - 1) e.payload ∨ e.payload = .null) := by
  unfold ofFrame at h
  split at h
  · next hread =>
      cases h
      obtain ⟨⟨value, rest⟩, hvalue, h⟩ := bind_eq_ok.mp hread
      have heq : value = e := by
        dsimp only at h
        split at h <;> cases h
        rfl
      obtain ⟨names, ⟨eventType, payload, _⟩, hgiven, hfollows, hbuilt⟩ :=
        Json.Record.follows_of_read hvalue
      refine ⟨names, hgiven, ?_⟩
      rw [← heq, hbuilt]
      rcases hfollows.2.1 with ⟨hmem, bytes, rest, htook⟩ | habsent
      · exact .inl ⟨hmem, Json.fits_of_readValue htook⟩
      · exact .inr (Option.some.inj habsent).symm
  · cases h

/-- The one form of an envelope: an object of its type and its payload without blanks, in which the
names of every object of the payload come in the strict order of their bytes. -/
structure Canonical (e : Envelope) (text : String) : Prop where
  given : record.given (Utf8.ofText text) = .ok ["type", "payload"]
  spelled : text = "\x7b\"type\":" ++ (Json.str e.eventType).text ++ ",\"payload\":" ++
    e.payload.text ++ "\x7d"
  compact : Json.Compact text.toList
  ascends : e.payload.Ascends

theorem exact_toJson (h : e.payload.Exact) : e.toJson.Exact := by
  rw [toJson, Json.exact_obj_iff]
  exact List.forall_mem_cons.mpr ⟨Json.exact_str _, List.forall_mem_singleton.mpr h⟩

theorem canonical_encode (hfits : Fits (Json.depthLimit - 1) e.payload)
    (hexact : e.payload.Exact) : Canonical e e.encode where
  given := given_encode hfits hexact
  spelled := by
    have htype : Json.writeText "type" = ['"', 't', 'y', 'p', 'e', '"'] := by decide
    have hpayload : Json.writeText "payload" = ['"', 'p', 'a', 'y', 'l', 'o', 'a', 'd', '"'] := by
      decide
    apply String.toList_inj.mp
    rw [toList_encode, writeMember, writeMember, typeMember, payloadMember, htype, hpayload]
    simp [Json.text]
  compact := by
    rw [encode, Json.text, String.toList_ofList]
    exact (Json.tight_write (exact_toJson hexact)).compact
  ascends := hfits.ascends

/-- An envelope that was read is written in its one form, with a null payload where there was none,
and read back as it was, so that writing it once more changes nothing. -/
theorem ofFrame_encode_ofFrame {frame : List UInt8} (h : ofFrame frame = .ok e)
    (hexact : e.payload.Exact) :
    ofFrame (Utf8.ofText e.encode) = .ok e ∧
    (∀ again, ofFrame (Utf8.ofText e.encode) = .ok again →
      Utf8.ofText again.encode = Utf8.ofText e.encode) ∧
    Canonical e e.encode ∧
    ∃ names, record.given frame = .ok names ∧ ("payload" ∉ names → e.payload = .null) := by
  obtain ⟨names, hgiven, hpayload⟩ := given_of_ofFrame h
  have hfits : Fits (Json.depthLimit - 1) e.payload := by
    rcases hpayload with ⟨-, hfits⟩ | hnull
    · exact hfits
    · rw [hnull]
      trivial
  have hback := ofFrame_encode hfits hexact
  refine ⟨hback, fun again hagain => ?_, canonical_encode hfits hexact, names, hgiven, ?_⟩
  · rw [hback] at hagain
    cases hagain
    rfl
  · exact fun habsent => hpayload.resolve_left fun hpresent => habsent hpresent.1

/-- A frame with blanks, members out of order and one of them twice. -/
def disordered : List UInt8 :=
  Utf8.ofText ("\x7b \"payload\": \x7b\"b\": 1, \"a\": \"\\u0001é\", " ++
    "\"b\": [18446744073709551615, \x7b\"z\": -1, \"\": null\x7d]\x7d, \"type\": \"t\" \x7d")

/-- What it carries. -/
def settled : Envelope :=
  ⟨"t", .obj [("a", .str "\x01é"),
    ("b", .arr [.int 18446744073709551615, .obj [("", .null), ("z", .int (-1))]])]⟩

theorem ofFrame_encode_ofFrame_disordered :
    ofFrame disordered = .ok settled ∧ settled.payload.Exact ∧
    ofFrame (Utf8.ofText settled.encode) = .ok settled ∧
    settled.encode = "\x7b\"type\":\"t\",\"payload\":\x7b\"a\":\"\\u0001é\"," ++
      "\"b\":[18446744073709551615,\x7b\"\":null,\"z\":-1\x7d]\x7d\x7d" ∧
    Canonical settled settled.encode := by
  have hread : ofFrame disordered = .ok settled := by with_unfolding_all rfl
  have hexact : settled.payload.Exact := by simp [settled]
  obtain ⟨hback, -, hcanonical, -⟩ := ofFrame_encode_ofFrame hread hexact
  exact ⟨hread, hexact, hback, rfl, hcanonical⟩

end ListingHub.Envelope
