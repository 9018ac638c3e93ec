import ListingHub.Proofs.Envelope
import ListingHub.Proofs.Json.Shape
import Mathlib.Data.List.Forall2

/-!
# The frames that carry an envelope

A frame is an envelope when it is an object with one type and at most one payload, or a list of a
type and perhaps a payload, with nothing but blanks around it. Every other frame is malformed.
-/

namespace ListingHub

open Json (Elements Members Stands depthLimit named skipBlanks)

namespace Envelope

/-- The members of an object are an envelope's: one type, a string, and at most one payload, which
is null when there is none. Members of other names are nobody's. -/
structure OfMembers (members : List (String × List UInt8)) (e : Envelope) : Prop where
  eventType : ∃ place, named "type" members = [place] ∧
    Stands (depthLimit - 1) place (.str e.eventType)
  payload : named "payload" members = [] ∧ e.payload = .null ∨
    ∃ place, named "payload" members = [place] ∧ Stands (depthLimit - 1) place e.payload

/-- The elements of a list are an envelope's: a type, a string, and perhaps a payload. -/
inductive OfElements : List (List UInt8) → Envelope → Prop
  | short {place e} (eventType : Stands (depthLimit - 1) place (.str e.eventType))
    (payload : e.payload = .null) : OfElements [place] e
  | long {place next e} (eventType : Stands (depthLimit - 1) place (.str e.eventType))
    (payload : Stands (depthLimit - 1) next e.payload) : OfElements [place, next] e

/-- A frame carries an envelope as an object or as a list. -/
inductive Carries (frame : List UInt8) (e : Envelope) : Prop
  | object {opened members rest} (opens : skipBlanks frame = 0x7B :: opened)
    (shape : Members true opened members rest) (holds : OfMembers members e)
    (ends : skipBlanks rest = [])
  | list {opened elements rest} (opens : skipBlanks frame = 0x5B :: opened)
    (shape : Elements true opened elements rest) (holds : OfElements elements e)
    (ends : skipBlanks rest = [])

/-- An object shows an envelope by its members of these names, a list by its elements. -/
inductive Shows : Json → Envelope → Prop
  | object {members e} (eventType : members.lookup "type" = some (.str e.eventType))
    (payload : (members.lookup "payload").getD .null = e.payload) : Shows (.obj members) e
  | short {e} (payload : e.payload = .null) : Shows (.arr [.str e.eventType]) e
  | long {e} : Shows (.arr [.str e.eventType, e.payload]) e

theorem nodup_names : (record.fields.map (·.name)).Nodup := by decide

/-- Both fields take what is skipped. -/
theorem skips_of_mem (field : Json.Field Json.Reader) (h : field ∈ record.fields) :
    field.Skips := by
  rcases List.mem_cons.mp h with rfl | h
  · exact fun htake => Json.skipValue_of_readValue
      ((Json.readString_eq_ok_iff (depthLimit - 1)).mp htake)
  · obtain rfl := List.mem_singleton.mp h
    exact Json.skipValue_of_readValue

/-- The field of the type finds a string. -/
theorem stands_of_readString {place : List UInt8} {text : String} :
    (∃ rest, Json.readString place = .ok (text, rest)) ↔
      Stands (depthLimit - 1) place (.str text) :=
  exists_congr fun _ => Json.readString_eq_ok_iff (depthLimit - 1)

theorem gathered_iff {members : List (String × List UInt8)} {row : Json.Row record.fields} :
    Json.Row.Gathered members record.fields row ↔ OfMembers members (record.build row) := by
  obtain ⟨eventType, payload, _⟩ := row
  constructor
  · rintro ⟨⟨-, habsent⟩ | ⟨place, hplace, hfinds⟩, hpayload, -⟩
    · cases habsent
    · refine ⟨⟨place, hplace, stands_of_readString.mp hfinds⟩, ?_⟩
      exact hpayload.imp_left (.imp_right fun h => (Option.some.inj h).symm)
  · rintro ⟨⟨place, hplace, hfinds⟩, hpayload⟩
    refine ⟨.inr ⟨place, hplace, stands_of_readString.mpr hfinds⟩, ?_, trivial⟩
    exact hpayload.imp_left (.imp_right fun h => congrArg some h.symm)

theorem aligned_iff {elements : List (List UInt8)} {row : Json.Row record.fields} :
    Json.Row.Aligned record.fields elements row ↔ OfElements elements (record.build row) := by
  obtain ⟨eventType, payload, _⟩ := row
  constructor
  · intro h
    match elements, h with
    | [_], ⟨hfinds, habsent, _⟩ =>
        exact .short (stands_of_readString.mp hfinds) (Option.some.inj habsent).symm
    | [_, _], ⟨hfinds, hpayload, _⟩ => exact .long (stands_of_readString.mp hfinds) hpayload
  · intro h
    cases h with
    | short hfinds hpayload =>
        exact ⟨stands_of_readString.mpr hfinds, congrArg some hpayload.symm, rfl⟩
    | long hfinds hpayload => exact ⟨stands_of_readString.mpr hfinds, hpayload, rfl⟩

variable {frame : List UInt8} {e : Envelope}

theorem ofFrame_eq_ok_iff : ofFrame frame = .ok e ↔ Json.readAll record.read frame = .ok e := by
  unfold ofFrame
  split
  · next heq =>
      rw [heq]
      exact ⟨fun h => congrArg _ (Except.ok.inj h), fun h => congrArg _ (Except.ok.inj h)⟩
  · next heq =>
      rw [heq]
      exact ⟨nofun, nofun⟩

/-- An envelope is read from its members or from its elements. -/
theorem read_iff {bytes rest : List UInt8} :
    record.read bytes = .ok (e, rest) ↔ ∃ row, e = record.build row ∧
      ((∃ opened members, skipBlanks bytes = 0x7B :: opened ∧ Members true opened members rest ∧
          Json.Row.Gathered members record.fields row) ∨
        ∃ opened elements, skipBlanks bytes = 0x5B :: opened ∧
          Elements true opened elements rest ∧ Json.Row.Aligned record.fields elements row) :=
  Json.Record.read_eq_ok_iff nodup_names skips_of_mem

theorem ofFrame_iff_carries : ofFrame frame = .ok e ↔ Carries frame e := by
  rw [ofFrame_eq_ok_iff, Json.readAll_eq_ok_iff]
  constructor
  · rintro ⟨rest, hread, hends⟩
    obtain ⟨row, rfl, hshape⟩ := read_iff.mp hread
    rcases hshape with ⟨opened, members, hopens, hshape, hrow⟩ |
      ⟨opened, elements, hopens, hshape, hrow⟩
    · exact .object hopens hshape (gathered_iff.mp hrow) hends
    · exact .list hopens hshape (aligned_iff.mp hrow) hends
  · intro h
    let row : Json.Row record.fields :=
      show String × Json × Unit from (e.eventType, e.payload, ())
    cases h with
    | object hopens hshape hholds hends =>
        refine ⟨_, read_iff.mpr ⟨row, rfl, .inl ?_⟩, hends⟩
        exact ⟨_, _, hopens, hshape, gathered_iff.mpr hholds⟩
    | list hopens hshape hholds hends =>
        refine ⟨_, read_iff.mpr ⟨row, rfl, .inr ?_⟩, hends⟩
        exact ⟨_, _, hopens, hshape, aligned_iff.mpr hholds⟩

/-- The value of a frame that carries an envelope shows it. -/
theorem Carries.shows {value : Json} (h : Carries frame e)
    (hvalue : Json.ofBytes frame = .ok value) : Shows value e := by
  obtain ⟨behind, hread, -⟩ := Json.readAll_eq_ok_iff.mp hvalue
  rw [← Nat.sub_add_cancel (show 1 ≤ depthLimit by decide), Json.readValue] at hread
  cases h with
  | object hopens hshape hholds hends =>
      rw [hopens] at hread
      obtain ⟨⟨members, after⟩, hmembers, heq⟩ := map_eq_ok.mp hread
      cases heq
      have hstand := Json.stands_of_readMembers hshape hmembers
      obtain ⟨place, hplace, hfinds⟩ := hholds.eventType
      obtain ⟨text, hlookup, htext⟩ := Json.stands_of_named hstand hplace []
      obtain rfl := htext.unique hfinds
      refine .object hlookup ?_
      rcases hholds.payload with ⟨hnil, hnull⟩ | ⟨place, hplace, hfinds⟩
      · rw [hnull]
        exact congrArg (Option.getD · Json.null) (Json.lookup_of_named_nil hstand hnil [])
      · obtain ⟨payload, hlookup, hpayload⟩ := Json.stands_of_named hstand hplace []
        rw [← hpayload.unique hfinds]
        exact congrArg (Option.getD · Json.null) hlookup
  | list hopens hshape hholds hends =>
      rw [hopens] at hread
      obtain ⟨⟨elements, after⟩, helements, heq⟩ := map_eq_ok.mp hread
      cases heq
      have hstand := Json.stands_of_readElements hshape helements
      cases hholds with
      | short hfinds hnull =>
          obtain ⟨text, _, htext, hothers, rfl⟩ := List.forall₂_cons_left_iff.mp hstand
          obtain rfl := List.forall₂_nil_left_iff.mp hothers
          obtain rfl := htext.unique hfinds
          exact .short hnull
      | long hfinds hpayload =>
          obtain ⟨text, _, htext, hothers, rfl⟩ := List.forall₂_cons_left_iff.mp hstand
          obtain ⟨payload, _, hnext, hnil, rfl⟩ := List.forall₂_cons_left_iff.mp hothers
          obtain rfl := List.forall₂_nil_left_iff.mp hnil
          obtain rfl := htext.unique hfinds
          obtain rfl := hnext.unique hpayload
          exact .long

/-- A frame is read as the envelope it carries, which its JSON value shows; a frame that carries
none is malformed. -/
theorem ofFrame_carries (frame : List UInt8) :
    (∀ e, ofFrame frame = .ok e ↔ Carries frame e) ∧
    ((∀ e, ¬Carries frame e) ↔ ∃ reason, ofFrame frame = .error (.malformedEnvelope reason)) ∧
    ∀ e value, ofFrame frame = .ok e → Json.ofBytes frame = .ok value → Shows value e := by
  refine ⟨fun e => ofFrame_iff_carries, ?_, fun e value h => (ofFrame_iff_carries.mp h).shows⟩
  constructor
  · intro hnone
    cases hframe : ofFrame frame with
    | ok e => exact absurd (ofFrame_iff_carries.mp hframe) (hnone e)
    | error failure =>
        unfold ofFrame at hframe
        split at hframe <;> cases hframe
        exact ⟨_, rfl⟩
  · rintro ⟨reason, hframe⟩ e hcarries
    rw [ofFrame_iff_carries.mpr hcarries] at hframe
    cases hframe

/-- An object with its payload first and a member that nobody asks for. -/
def asked : List UInt8 :=
  Utf8.ofText " \x7b\"payload\": [1], \"p\": [1e999], \"type\": \"t\"\x7d "

theorem ofFrame_carries_asked :
    ofFrame asked = .ok ⟨"t", .arr [.int 1]⟩ ∧ Carries asked ⟨"t", .arr [.int 1]⟩ ∧
    ∃ reason, ofFrame (Utf8.ofText "\x7b\x7d") = .error (.malformedEnvelope reason) := by
  have hread : ofFrame asked = .ok ⟨"t", .arr [.int 1]⟩ := by with_unfolding_all rfl
  refine ⟨hread, ((ofFrame_carries asked).1 _).mp hread, ?_⟩
  refine (ofFrame_carries _).2.1.mp fun e hcarries => ?_
  have hread := ((ofFrame_carries _).1 e).mpr hcarries
  cases hread

/-- A list of a type and a payload. -/
def listed : List UInt8 :=
  Utf8.ofText "[\"x\",\x7b\"a\":1\x7d]"

/-- A list is read as an envelope, though it is no object. -/
theorem list_is_read_as_envelope :
    Json.ofBytes listed = .ok (.arr [.str "x", .obj [("a", .int 1)]]) ∧
    ofFrame listed = .ok ⟨"x", .obj [("a", .int 1)]⟩ := by
  constructor <;> with_unfolding_all rfl

end Envelope

end ListingHub
