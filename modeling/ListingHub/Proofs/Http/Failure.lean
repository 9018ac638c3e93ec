import ListingHub.Proofs.Http.Basic
import ListingHub.Proofs.Json.Reader
import Mathlib.Data.List.Basic

/-!
# The answer to a failure

The status of the answer and the code in its body are of one class: bad input, what is missing or
not allowed, and what the service is to blame for. The body is read back as the code and the message
whatever text the message has, and the log shows the failures of the last class alone, each once.
-/

namespace ListingHub

namespace Failure

/-- The three classes of failures by their codes, and by the statuses of their answers. -/
theorem status_iff_code (failure : Failure) :
    (failure.status = 400 ↔ 1000 ≤ failure.code ∧ failure.code ≤ 1999) ∧
    (failure.status ∈ [401, 403, 404] ↔ 2000 ≤ failure.code ∧ failure.code ≤ 2999) ∧
    (failure.status ∈ [500, 502, 504] ↔ 3000 ≤ failure.code ∧ failure.code ≤ 3999) := by
  cases failure <;> simp [status, code]

theorem code_lt (failure : Failure) : failure.code < 10000 := by
  cases failure <;> simp [code]

/-- The body of an answer is read back, whatever characters the message has. -/
theorem ofBytes_body (failure : Failure) :
    Json.ofBytes (Utf8.ofText failure.body.text) = .ok failure.body := by
  have hcode : Json.IsNumber (.int failure.code) := by
    have hlt := failure.code_lt
    constructor <;> omega
  have hmembers : Json.Ordered
      [("code", .int failure.code), ("message", .str failure.message)] :=
    List.pairwise_pair.mpr (show "code" < "message" by decide +kernel)
  rw [body, Json.ofBytes_text_obj]
  · rfl
  · refine List.forall_mem_singleton.mpr ⟨hmembers, ?_⟩
    simp only [List.forall_mem_cons]
    exact ⟨hcode.fits _, trivial, List.forall_mem_nil _⟩
  · simp

end Failure

namespace Http

/-- How many lines of a log say that a request failed. -/
def requestFailures (journal : List Entry) : Nat :=
  journal.countP fun entry => entry.2.message == "request failed"

/-- The log has one line more that says a request failed when the answer is a server error, and no
such line more otherwise. -/
def Reported (hub : Hub) (answered : Response × Hub) : Prop :=
  requestFailures answered.2.journal = requestFailures hub.journal +
    if 500 ≤ answered.1.status ∧ answered.1.status ≤ 599 then 1 else 0

variable {hub : Hub} {failure : Failure}

/-- An answer below the server errors is reported by a log that stays as it was. -/
theorem reported_of_journal {response : Response} {after : Hub} (hstatus : response.status < 500)
    (hjournal : after.journal = hub.journal) : Reported hub (response, after) := by
  rw [Reported, hjournal, if_neg fun h => Nat.not_lt_of_le h.1 hstatus, Nat.add_zero]

/-- A failure is answered with a line in the log when the service is to blame. -/
theorem fail_eq (failure : Failure) (hub : Hub) :
    fail failure hub = (.ofFailure failure, hub.log
      (if 500 ≤ failure.status ∧ failure.status ≤ 599 then [(none, .requestFailed failure)]
        else [])) := by
  have hblame : failure.isServerError = true ↔ 500 ≤ failure.status ∧ failure.status ≤ 599 := by
    simp [Failure.isServerError]
  simp only [fail, failureLog, hblame, apply_ite (List.map _), List.map_singleton, List.map_nil]

theorem reported_fail (failure : Failure) (hub : Hub) : Reported hub (fail failure hub) := by
  have hstatus : (Response.ofFailure failure).status = failure.status := rfl
  rw [Reported, fail_eq, hstatus, Hub.log, requestFailures, List.countP_append]
  rcases Decidable.em (500 ≤ failure.status ∧ failure.status ≤ 599) with h | h
  · rw [if_pos h, if_pos h]
    rfl
  · rw [if_neg h, if_neg h]
    rfl

theorem reported_note (outcome : Except Failure Json) (hub : Hub) :
    Reported hub (answer outcome, note hub outcome) := by
  cases outcome with
  | error failure => exact reported_fail failure hub
  | ok body => exact reported_of_journal (show 200 < 500 by decide) rfl

variable {request : Request} {segment : String}

theorem reported_listNotifications (request : Request) (hub : Hub) :
    Reported hub (listNotifications request hub) := by
  cases hcaller : authenticate hub.service.faults hub.service.store request with
  | error failure =>
      rw [listNotifications_of_error hcaller]
      exact reported_note _ hub
  | ok identity =>
      rw [listNotifications_of_ok hcaller]
      exact reported_note _ hub

theorem status_of_notificationId {response : Response}
    (h : notificationId segment = .error response) : response.status = 400 := by
  unfold notificationId at h
  split at h
  · cases h
    rfl
  · split at h <;> cases h
    rfl

theorem reported_toggleRead (segment : String) (request : Request) (hub : Hub) :
    Reported hub (toggleRead segment request hub) := by
  cases hcaller : authenticate hub.service.faults hub.service.store request with
  | error failure =>
      rw [toggleRead_of_error hcaller]
      exact reported_note _ hub
  | ok identity =>
      cases hid : notificationId segment with
      | error response =>
          rw [toggleRead_of_malformed hcaller hid]
          have hstatus := status_of_notificationId hid
          exact reported_of_journal (by omega) rfl
      | ok id =>
          rw [toggleRead_of_ok hcaller hid]
          exact reported_note _ (hub.mapStore _)

theorem status_of_handshakeFault? {response : Response}
    (h : handshakeFault? request = some response) : response.status < 500 := by
  unfold handshakeFault? at h
  split_ifs at h <;> cases h <;> decide

theorem reported_serve (route : Route) (request : Request) (hub : Hub) :
    Reported hub (serve route request hub) := by
  cases route with
  | health => exact reported_of_journal (show 200 < 500 by decide) rfl
  | notifications => exact reported_listNotifications request hub
  | readFlag segment => exact reported_toggleRead segment request hub
  | upgrade =>
      refine reported_of_journal ?_ rfl
      cases hfault : handshakeFault? request with
      | none => exact show 426 < 500 by decide
      | some response => exact status_of_handshakeFault? hfault

/-- Neither the headers for other origins nor the missing body of `HEAD` change a status. -/
theorem reported_respond (request : Request) (hub : Hub) :
    Reported hub (respond request hub) := by
  unfold respond
  simp only []
  split
  · exact reported_of_journal (show 200 < 500 by decide) rfl
  split
  · exact reported_of_journal (show 404 < 500 by decide) rfl
  · next route _ =>
      split
      · split <;> exact reported_serve route request hub
      · exact reported_of_journal (show 405 < 500 by decide) rfl

/-- A failure is answered with a status of the class of its code, and its body is read back as its
code and its message. A server error is one line in the log, and nothing else is; over the answers
to all requests that line is there for every server error and for no other answer. -/
theorem fail_agrees (failure : Failure) (hub : Hub) :
    let response := (fail failure hub).1
    let after := (fail failure hub).2
    (response.status = 400 ↔ 1000 ≤ failure.code ∧ failure.code ≤ 1999) ∧
    (response.status ∈ [401, 403, 404] ↔ 2000 ≤ failure.code ∧ failure.code ≤ 2999) ∧
    (response.status ∈ [500, 502, 504] ↔ 3000 ≤ failure.code ∧ failure.code ≤ 3999) ∧
    Json.ofBytes (Utf8.ofText response.body) = .ok (.obj [("error", .obj
      [("code", .int failure.code), ("message", .str failure.message)])]) ∧
    after = hub.log (if 500 ≤ response.status ∧ response.status ≤ 599 then
      [(none, .requestFailed failure)] else []) ∧
    requestFailures after.journal = requestFailures hub.journal +
      (if 500 ≤ response.status ∧ response.status ≤ 599 then 1 else 0) ∧
    ∀ request : Request, Reported hub (respond request hub) := by
  intro response after
  obtain ⟨hinput, hmissing, hservice⟩ := failure.status_iff_code
  refine ⟨hinput, hmissing, hservice, failure.ofBytes_body, ?_, reported_fail failure hub, ?_⟩
  · exact congrArg Prod.snd (fail_eq failure hub)
  · exact fun request => reported_respond request hub

end Http

end ListingHub
