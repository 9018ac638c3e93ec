import ListingHub.Proofs.Dispatch
import ListingHub.Proofs.Handling
import ListingHub.Proofs.Hub.Outline
import ListingHub.Proofs.Notification

/-!
# What the dispatcher fails with

The dispatcher refuses an event for its type before it does anything else: an event that cannot be
decoded for its type is of none of the kinds. Once it was decoded, all that a job can fail with are
failures of the lookup, of the store and of the clock, at every step of its handling.
-/

namespace ListingHub

/-- A failure of the work on an event that was decoded: of the lookup, the store or the clock. -/
inductive Failure.OfWork : Failure → Prop
  | lookupFailed (listing : ListingId) (reason : String) : OfWork (.lookupFailed listing reason)
  | listingNotFound (listing : ListingId) : OfWork (.listingNotFound listing)
  | persistence (reason : String) : OfWork (.persistence reason)
  | handlerTimeout (limit : Duration) : OfWork (.handlerTimeout limit)

/-- What a recording has failed with. -/
def Recording.failure? : Recording → Option Failure
  | finished (.error failure) => some failure
  | _ => none

/-- What a handling has failed with, even if that is yet to be concluded. -/
def Handling.failure? : Handling → Option Failure
  | recording work _ => work.failure?
  | finished (.error failure) => some failure
  | _ => none

/-- A job with a decoded event: what it has failed with and what it may yet expire with are failures
of the work. -/
structure Job.Decoded (job : Job) (work : Handling) : Prop where
  limit : job.limit.failure.OfWork
  failure : ∀ failure, work.failure? = some failure → failure.OfWork

theorem Failure.OfWork.ne_refusal {failure : Failure} (h : failure.OfWork) (refused : String) :
    failure ≠ .unknownEventType refused := by
  cases h <;> exact nofun

namespace Faults

variable {faults : Faults} {store : Store} {failure : Failure}

theorem ofWork_of_recipients {event : Event}
    (h : faults.recipients store event = .error failure) : failure.OfWork := by
  cases event with
  | favorited listing address =>
      simp only [recipients, Faults.agentOf, Store.agentOf] at h
      split at h
      · cases h
        exact .lookupFailed _ _
      · split at h
        · cases h
        · cases h
          exact .listingNotFound _
  | priceDrop listing address text | statusChange listing address text =>
      simp only [recipients, Faults.interested] at h
      split at h
      · cases h
        exact .lookupFailed _ _
      · cases h

theorem ofWork_of_create {draft : Draft} {now : Timestamp} {after : Store}
    (h : faults.create store draft now = (.error failure, after)) : failure.OfWork := by
  unfold create at h
  split at h
  · cases h
    exact .persistence _
  · cases h

end Faults

namespace Recording

theorem failure?_ofTodo (recipients todo : List UserId) :
    (ofTodo recipients todo).failure? = none := by
  cases todo <;> rfl

/-- A recording fails newly only by the lookup or the store. -/
theorem ofWork_of_step {faults : Faults} {event : Event} {now : Timestamp} {store : Store}
    {work : Recording} (h : ∀ failure, work.failure? = some failure → failure.OfWork)
    {failure : Failure} (hfailure : (work.step faults event now store).1.failure? = some failure) :
    failure.OfWork := by
  unfold step at hfailure
  split at hfailure
  · split at hfailure
    · rw [failure?_ofTodo] at hfailure
      cases hfailure
    · next heq =>
        cases hfailure
        exact Faults.ofWork_of_recipients heq
  · cases hfailure
  · split at hfailure
    · rw [failure?_ofTodo] at hfailure
      cases hfailure
    · next heq =>
        cases hfailure
        exact Faults.ofWork_of_create heq
  · exact h failure hfailure

end Recording

namespace Job

variable {job : Job} {service after : Service} {now : Instant} {work next : Handling}
  {log : List Entry} {failure : Failure} {source : Handle} {user : UserId} {envelope : Envelope}

theorem failure?_afterRecording (work : Recording) :
    (afterRecording work).failure? = work.failure? := by
  unfold afterRecording
  split
  · rfl
  · rfl
  · rfl
  · rfl

/-- A job of a decoded event goes on as one. -/
theorem Decoded.step (h : job.Decoded work)
    (hstep : job.step service now work = some (next, after, log)) : job.Decoded next := by
  rcases job.step_cases now hstep with
    ⟨hturns, -⟩ | ⟨recording, wake, time, rfl, rfl, -⟩ | ⟨recipients, broadcast, rfl, rfl, -⟩
  · refine ⟨h.limit, fun failure hfailure => ?_⟩
    cases hturns with
    | pause => exact h.failure failure hfailure
    | expire =>
        cases hfailure
        exact h.limit
    | pushed => cases hfailure
  · refine ⟨h.limit, fun failure hfailure => ?_⟩
    rw [failure?_afterRecording] at hfailure
    exact Recording.ofWork_of_step h.failure hfailure
  · exact ⟨h.limit, fun _ => nofun⟩

theorem Decoded.steps {stage last : Stage} (hsteps : Steps job stage last log)
    (h : job.Decoded stage.work) : job.Decoded last.work := by
  induction hsteps with
  | refl stage => exact h
  | step hstep hrest ih => exact ih (h.step hstep)
  | wait hwaits hrest ih => exact ih h

theorem decoded_jobOf (service : Service) (now : Instant) (source : Handle) (user : UserId)
    (envelope : Envelope) (event : Event) :
    (service.jobOf now source user envelope event).Decoded (.recording .lookingUp none) :=
  ⟨.handlerTimeout _, fun _ => nofun⟩

/-- A job is begun with a decoded event. -/
theorem decoded_ofEnvelope (h : ofEnvelope service now source user envelope = .ok job) :
    job.Decoded (.recording .lookingUp none) := by
  obtain ⟨event, -, rfl⟩ := map_eq_ok.mp h
  exact decoded_jobOf service now source user envelope event

/-- An envelope of which no job is made was not decoded. -/
theorem ofEnvelope_eq_error_iff :
    ofEnvelope service now source user envelope = .error failure ↔
      Event.ofEnvelope envelope = .error failure := by
  unfold ofEnvelope
  cases Event.ofEnvelope envelope <;> simp [Except.map]

end Job

/-- The dispatcher refuses an event for its type when it cannot be decoded for that type, and at no
later step. -/
theorem Service.dispatch_eq_refusal_iff {service : Service} {now : Instant} {source : Handle}
    {user : UserId} {envelope : Envelope} {refused : String} :
    (service.dispatch now source user envelope).1 = .error (.unknownEventType refused) ↔
      Event.ofEnvelope envelope = .error (.unknownEventType refused) := by
  cases hevent : Event.ofEnvelope envelope with
  | error failure => simp [dispatch_of_error hevent]
  | ok event =>
      rw [dispatch_of_ok hevent]
      refine iff_of_false (fun hrefused => ?_) nofun
      have hbegun := Job.decoded_jobOf service now source user envelope event
      obtain ⟨later, hsteps⟩ := Job.steps_handle (service.jobOf now source user envelope event)
        service now
      have hend := hbegun.steps hsteps
      rw [hrefused] at hend
      exact (hend.failure _ rfl).ne_refusal refused rfl

/-! ## What the log tells of it -/

/-- A line that tells of a refusal for a type tells of the type that was sent, which is no kind's
name. -/
def LogEvent.Warranted : LogEvent → Prop
  | notProcessed _ eventType (.unknownEventType refused) =>
      refused = eventType ∧ ∀ kind : NotificationKind, kind.name ≠ eventType
  | _ => True

/-- An envelope that is not decoded is refused for its type with a warrant, if at all. -/
theorem Event.warranted_of_error {envelope : Envelope} {failure : Failure}
    (h : ofEnvelope envelope = .error failure) (user : UserId) :
    (LogEvent.notProcessed user envelope.eventType failure).Warranted := by
  cases failure with
  | unknownEventType refused => exact ofEnvelope_eq_refusal_iff.mp h
  | _ => trivial

theorem Failure.OfWork.warranted {failure : Failure} (h : failure.OfWork) (user : UserId)
    (eventType : String) : (LogEvent.notProcessed user eventType failure).Warranted := by
  cases h <;> trivial

/-- An offer tells of a full queue at most. -/
theorem Switchboard.warranted_offer (board : Switchboard) (envelope : Envelope) (tally : Tally)
    (h : Handle) : ∀ entry ∈ (board.offer envelope tally h).2.2, entry.2.Warranted := by
  have hfull : ∀ after : Switchboard, ∀ entry ∈ after.fullEntry h, entry.2.Warranted := by
    intro after
    unfold fullEntry
    cases after.get? h with
    | none => exact List.forall_mem_nil _
    | some c => exact List.forall_mem_singleton.mpr trivial
  unfold offer
  split
  · exact List.forall_mem_nil _
  · exact List.forall_mem_nil _
  · split
    · exact hfull _
    · exact hfull _

theorem Broadcast.warranted_step (message : Message) (board : Switchboard)
    (broadcast : Broadcast) : ∀ entry ∈ (broadcast.step message board).2.2, entry.2.Warranted := by
  cases broadcast with
  | choosing | finished delivered => exact List.forall_mem_nil _
  | delivering todo tally =>
      cases todo with
      | nil => exact List.forall_mem_nil _
      | cons h todo => exact board.warranted_offer _ _ h
  | evicting todo delivered => cases todo <;> exact List.forall_mem_nil _

namespace Job

variable {job : Job} {service after : Service} {now : Instant} {work next : Handling}
  {log : List Entry}

/-- The lines of a job's step tell of pushes and of full queues, not of refusals. -/
theorem warranted_step (hstep : job.step service now work = some (next, after, log)) :
    ∀ entry ∈ log, entry.2.Warranted := by
  unfold step at hstep
  split at hstep
  · simp only at hstep
    split at hstep
    · obtain ⟨-, -, rfl⟩ := by simpa [record] using hstep
      exact List.forall_mem_nil _
    · obtain ⟨-, -, rfl⟩ := by simpa using hstep
      exact List.forall_mem_nil _
  · split at hstep
    · obtain ⟨-, -, rfl⟩ := by simpa [record] using hstep
      exact List.forall_mem_nil _
    · split at hstep
      · obtain ⟨-, -, rfl⟩ := by simpa using hstep
        exact List.forall_mem_nil _
      · cases hstep
  · obtain ⟨-, -, rfl⟩ := by simpa using hstep
    exact List.forall_mem_singleton.mpr trivial
  · next recipients broadcast _ =>
      obtain ⟨-, -, rfl⟩ := by simpa using hstep
      exact broadcast.warranted_step _ _
  · cases hstep

end Job

end ListingHub
