import ListingHub.Hub.Run
import ListingHub.Proofs.Outcome

/-!
# Requests for notifications

What a caller is answered who lists the notifications or flips the read flag of one, whatever comes
of looking up the session. A failure is answered alike on both routes, and only the log shows it.
-/

namespace ListingHub.Http

/-- A request takes a route with a method. -/
structure Request.Asks (request : Request) (method : String) (route : Route) : Prop where
  method : request.method = method
  route : Route.ofPath? request.path = some route

/-- The answer to an outcome. -/
def answer : Except Failure Json → Response
  | .ok body => .json 200 body
  | .error failure => .ofFailure failure

/-- What an outcome leaves in the log. -/
def note (hub : Hub) : Except Failure Json → Hub
  | .ok _ => hub
  | .error failure => hub.log ((failureLog failure).map fun event => (none, event))

/-- A notification as a body. -/
def shown (row : Notification) : Json :=
  (NotificationBody.ofNotification row).toJson

/-- A list of notifications as a body. -/
def listing (rows : List Notification) : Json :=
  .arr (rows.map shown)

variable {request : Request} {segment : String} {hub : Hub} {failure : Failure}
  {identity : Identity}

/-- The route alone answers, and any origin may read its answer. -/
theorem respond_of_asks {method : String} {route : Route} (h : request.Asks method route)
    (htaken : route.methods.contains method = true) (hoptions : method ≠ "OPTIONS")
    (hhead : method ≠ "HEAD") (hub : Hub) :
    respond request hub = (shared (serve route request hub).1, (serve route request hub).2) := by
  have hmethod : request.method ≠ "OPTIONS" := h.method ▸ hoptions
  have hbody : request.method ≠ "HEAD" := h.method ▸ hhead
  rw [respond, if_neg hmethod, h.route]
  simp only []
  rw [h.method, if_pos htaken, ← h.method, if_neg hbody]

theorem respond_list (h : request.Asks "GET" .notifications) (hub : Hub) :
    respond request hub =
      (shared (listNotifications request hub).1, (listNotifications request hub).2) :=
  respond_of_asks h rfl (by decide) (by decide) hub

theorem respond_toggle (h : request.Asks "PATCH" (.readFlag segment)) (hub : Hub) :
    respond request hub =
      (shared (toggleRead segment request hub).1, (toggleRead segment request hub).2) :=
  respond_of_asks h rfl (by decide) (by decide) hub

/-- What the caller is to blame for is not logged. -/
theorem note_of_caller (h : failure.isServerError = false) (hub : Hub) :
    note hub (.error failure) = hub := by
  rw [note, failureLog, h]
  exact congrArg (fun journal => { hub with journal }) (List.append_nil hub.journal)

theorem service_note (hub : Hub) (outcome : Except Failure Json) :
    (note hub outcome).service = hub.service := by
  cases outcome <;> rfl

/-- A caller is known by a token that a session was issued for. -/
theorem authenticate_eq_ok_iff {faults : Faults} {store : Store} :
    authenticate faults store request = .ok identity ↔
      ∃ token, request.sessionToken? = some token ∧
        faults.resolve store token = .ok (some identity) := by
  unfold authenticate
  constructor
  · intro h
    split at h
    · cases h
    · next token htoken =>
        split at h
        · cases h
        · cases h
        · next hresolve =>
            cases h
            exact ⟨token, htoken, hresolve⟩
  · rintro ⟨token, htoken, hresolve⟩
    simp only [htoken, hresolve]

theorem listNotifications_of_error
    (h : authenticate hub.service.faults hub.service.store request = .error failure) :
    listNotifications request hub = (answer (.error failure), note hub (.error failure)) := by
  rw [listNotifications, h]
  rfl

/-- The rows that the store has for the caller are shown. -/
theorem listNotifications_of_ok
    (h : authenticate hub.service.faults hub.service.store request = .ok identity) :
    listNotifications request hub =
      (answer ((hub.service.faults.listFor hub.service.store identity.userId).map listing),
        note hub ((hub.service.faults.listFor hub.service.store identity.userId).map listing)) := by
  simp only [listNotifications, h, bind_ok]
  cases hub.service.faults.listFor hub.service.store identity.userId <;> rfl

theorem toggleRead_of_error
    (h : authenticate hub.service.faults hub.service.store request = .error failure) :
    toggleRead segment request hub = (answer (.error failure), note hub (.error failure)) := by
  simp only [toggleRead, h]
  rfl

/-- The number is looked at once the caller is known. -/
theorem toggleRead_of_malformed {response : Response}
    (h : authenticate hub.service.faults hub.service.store request = .ok identity)
    (hid : notificationId segment = .error response) :
    toggleRead segment request hub = (response, hub) := by
  simp only [toggleRead, h, hid]

/-- The store flips the row for the caller. -/
theorem toggleRead_of_ok {id : NotificationId}
    (h : authenticate hub.service.faults hub.service.store request = .ok identity)
    (hid : notificationId segment = .ok id) :
    toggleRead segment request hub =
      (answer ((hub.service.faults.toggleRead hub.service.store id identity.userId).1.map shown),
        note (hub.mapStore fun store =>
            (hub.service.faults.toggleRead store id identity.userId).2)
          ((hub.service.faults.toggleRead hub.service.store id identity.userId).1.map shown)) := by
  simp only [toggleRead, h, hid, Hub.mapStore]
  split
  · next htoggle =>
      rw [htoggle]
      rfl
  · next htoggle =>
      rw [htoggle]
      rfl

end ListingHub.Http
