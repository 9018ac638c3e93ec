import ListingHub.Http.App
import Mathlib.Data.List.DropRight

/-!
# The token that a request presents

A session cookie is taken as it is, even an empty one. Only without one is the session header looked
at: its first value counts if it is text, without the blanks around it, and not if nothing is left.
-/

namespace ListingHub.Http

/-- A space or a tab. -/
def blank (c : Char) : Bool :=
  c == ' ' || c == '\t'

/-- A text is a token with blanks around it, and the token has none at its ends. -/
structure Pads (token text : List Char) : Prop where
  around : ∃ before after, text = before ++ token ++ after ∧ (∀ c ∈ before, blank c = true) ∧
    ∀ c ∈ after, blank c = true
  first : ∀ c ∈ token.head?, blank c = false
  last : ∀ c ∈ token.getLast?, blank c = false

theorem trim_eq (text : List Char) : trim text = (text.dropWhile blank).rdropWhile blank := rfl

theorem pads_trim (text : List Char) : Pads (trim text) text where
  around := by
    refine ⟨text.takeWhile blank, (text.dropWhile blank).rtakeWhile blank, ?_, ?_, ?_⟩
    · rw [trim_eq, List.append_assoc, List.rdropWhile_append_rtakeWhile,
        List.takeWhile_append_dropWhile]
    · exact fun c hc => List.mem_takeWhile_imp hc
    · exact fun c hc => List.mem_rtakeWhile_imp hc
  first := by
    intro c hc
    obtain ⟨after, hafter⟩ := List.rdropWhile_prefix blank (l := text.dropWhile blank)
    have hhead : (text.dropWhile blank).head? = some c := by
      rw [← hafter, ← trim_eq, List.head?_append, hc]
      rfl
    have hnot := List.head?_dropWhile_not blank text
    rw [hhead] at hnot
    exact hnot
  last := by
    intro c hc
    obtain ⟨hne, rfl⟩ := List.mem_getLast?_eq_getLast hc
    exact Bool.eq_false_iff.mpr (List.rdropWhile_last_not blank _ hne)

/-- There is one way to take the blanks off. -/
theorem trim_eq_iff {text token : List Char} : trim text = token ↔ Pads token text := by
  constructor
  · rintro rfl
    exact pads_trim text
  · rintro ⟨⟨before, after, rfl, hbefore, hafter⟩, hfirst, hlast⟩
    rw [trim_eq, List.append_assoc, List.dropWhile_append_of_pos hbefore]
    cases token with
    | nil =>
        rw [List.nil_append, List.dropWhile_eq_nil_iff.mpr hafter, List.rdropWhile_nil]
    | cons c token =>
        have hstop : (c :: token ++ after).dropWhile blank = c :: token ++ after :=
          List.dropWhile_cons_of_neg (by simp [hfirst c rfl])
        have hback : ∀ c ∈ after.reverse, blank c = true :=
          fun c hc => hafter c (List.mem_reverse.mp hc)
        rw [hstop, List.rdropWhile, List.reverse_append, List.dropWhile_append_of_pos hback,
          ← List.rdropWhile]
        refine List.rdropWhile_eq_self_iff.mpr fun hne => ?_
        exact Bool.eq_false_iff.mp (hlast _ (List.getLast_mem_getLast? hne))

/-- The first value of the session header, if it is text. -/
def Request.headerLine? (request : Request) : Option String :=
  (request.header? "x-session-token").bind headerText?

/-- The token that a request presents, if it presents one. -/
inductive Request.Presents (request : Request) : Option String → Prop
  | cookie {token} (hcookie : request.cookie? "session" = some token) :
    Presents request (some token)
  | header {text token} (hcookie : request.cookie? "session" = none)
    (htext : request.headerLine? = some text) (hpads : Pads token text.toList) (hne : token ≠ []) :
    Presents request (some (String.ofList token))
  | nothing (hcookie : request.cookie? "session" = none)
    (hblank : ∀ text, request.headerLine? = some text → ∀ c ∈ text.toList, blank c = true) :
    Presents request none

variable {request other : Request}

/-- A text is blank when nothing is left of it. -/
theorem trim_eq_nil_iff {text : List Char} : trim text = [] ↔ ∀ c ∈ text, blank c = true := by
  rw [trim_eq_iff]
  constructor
  · rintro ⟨⟨before, after, rfl, hbefore, hafter⟩, -, -⟩ c hc
    rw [List.append_nil, List.mem_append] at hc
    exact hc.elim (hbefore c) (hafter c)
  · intro h
    exact ⟨⟨text, [], by simp, h, nofun⟩, nofun, nofun⟩

/-- Without a session cookie the session header counts. -/
theorem sessionToken?_of_no_cookie (h : request.cookie? "session" = none) :
    request.sessionToken? = request.headerLine?.bind fun text =>
      if trim text.toList = [] then none else some (String.ofList (trim text.toList)) := by
  rw [Request.sessionToken?, h]
  rfl

/-- Every request presents one token or none. -/
theorem presents_iff {presented : Option String} :
    request.Presents presented ↔ request.sessionToken? = presented := by
  constructor
  · intro h
    cases h with
    | cookie hcookie =>
        rw [Request.sessionToken?, hcookie]
        rfl
    | header hcookie htext hpads hne =>
        rw [sessionToken?_of_no_cookie hcookie, htext, Option.bind_some, trim_eq_iff.mpr hpads,
          if_neg hne]
    | nothing hcookie hblank =>
        rw [sessionToken?_of_no_cookie hcookie]
        cases htext : request.headerLine? with
        | none => rfl
        | some text => rw [Option.bind_some, if_pos (trim_eq_nil_iff.mpr (hblank text htext))]
  · rintro rfl
    cases hcookie : request.cookie? "session" with
    | some token =>
        rw [Request.sessionToken?, hcookie]
        exact .cookie hcookie
    | none =>
        rw [sessionToken?_of_no_cookie hcookie]
        cases htext : request.headerLine? with
        | none =>
            refine .nothing hcookie fun text hsome => ?_
            rw [htext] at hsome
            cases hsome
        | some text =>
            rw [Option.bind_some]
            split
            · next hnil =>
                refine .nothing hcookie fun text' hsome => ?_
                rw [htext] at hsome
                cases hsome
                exact trim_eq_nil_iff.mp hnil
            · next hne => exact .header hcookie htext (pads_trim text.toList) hne

/-- Two requests that differ in nothing but the session header. -/
structure Request.SameBut (request other : Request) : Prop where
  method : request.method = other.method
  target : request.target = other.target
  headers : request.headers.filter (·.1 != "x-session-token") =
    other.headers.filter (·.1 != "x-session-token")

namespace Request.SameBut

theorem values (h : request.SameBut other) {name : String} (hname : name ≠ "x-session-token") :
    request.values name = other.values name := by
  have hkept (headers : List (String × List UInt8)) : headers.filter (·.1 == name) =
      (headers.filter (·.1 != "x-session-token")).filter (·.1 == name) := by
    rw [List.filter_filter]
    refine List.filter_congr fun header _ => ?_
    cases hsame : header.1 == name with
    | false => rfl
    | true => simp [beq_iff_eq.mp hsame, hname]
  rw [Request.values, Request.values, hkept, h.headers, ← hkept]

theorem header? (h : request.SameBut other) (name : String) (hname : name ≠ "x-session-token") :
    request.header? name = other.header? name := by
  rw [Request.header?, Request.header?, h.values hname]

theorem cookie? (h : request.SameBut other) (name : String) :
    request.cookie? name = other.cookie? name := by
  rw [Request.cookie?, Request.cookie?, Request.cookies, Request.cookies, h.values (by decide)]

/-- With a session cookie the session header does not count. -/
theorem sessionToken? (h : request.SameBut other) {token : String}
    (hcookie : request.cookie? "session" = some token) :
    request.sessionToken? = other.sessionToken? := by
  rw [Request.sessionToken?, Request.sessionToken?, ← h.cookie? "session", hcookie]
  rfl

theorem path (h : request.SameBut other) : request.path = other.path := by
  rw [Request.path, Request.path, h.target]

theorem handshakeFault? (h : request.SameBut other) :
    handshakeFault? request = handshakeFault? other := by
  have hconnection := h.header? "connection" (by decide)
  have hupgrade := h.header? "upgrade" (by decide)
  have hkey := h.header? "sec-websocket-key" (by decide)
  have hversion := h.header? "sec-websocket-version" (by decide)
  rw [Http.handshakeFault?, Http.handshakeFault?, h.method, headerContains, headerContains,
    headerIs, headerIs, headerIs, headerIs, hconnection, hupgrade, hkey, hversion]

/-- Beside a session cookie the session header does not tell who is calling. -/
theorem authenticate (h : request.SameBut other) {token : String}
    (hcookie : request.cookie? "session" = some token) (faults : Faults) (store : Store) :
    authenticate faults store request = authenticate faults store other := by
  rw [Http.authenticate, Http.authenticate, h.sessionToken? hcookie]

/-- Beside a session cookie the session header makes no difference to an answer. -/
theorem respond (h : request.SameBut other) {token : String}
    (hcookie : request.cookie? "session" = some token) (hub : Hub) :
    respond request hub = respond other hub := by
  have hserve (route : Route) : serve route request hub = serve route other hub := by
    cases route with
    | health => rfl
    | notifications => simp only [serve, listNotifications, h.authenticate hcookie]
    | readFlag segment => simp only [serve, toggleRead, h.authenticate hcookie]
    | upgrade => simp only [serve, h.handshakeFault?]
  simp only [Http.respond, h.path, h.method, hserve]

theorem upgrade (h : request.SameBut other) {token : String}
    (hcookie : request.cookie? "session" = some token) (hub : Hub) :
    upgrade request hub = upgrade other hub := by
  simp only [Http.upgrade, h.handshakeFault?, h.authenticate hcookie]

end Request.SameBut

end ListingHub.Http
