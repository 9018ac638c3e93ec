import ListingHub.Hub.Run
import ListingHub.Proofs.Hub.Outline

/-!
# What a run does to the outline of a hub

Whatever happens to a hub is a step of its outline, so that an invariant of the outline's steps
holds after every run.
-/

namespace ListingHub

namespace Hub

open Outline (Step)

@[simp]
theorem run_nil (hub : Hub) : hub.run [] = hub := rfl

@[simp]
theorem run_cons (hub : Hub) (happening : Happening) (happenings : List Happening) :
    hub.run (happening :: happenings) = (hub.after happening).run happenings := rfl

theorem run_append (hub : Hub) (happenings more : List Happening) :
    hub.run (happenings ++ more) = (hub.run happenings).run more :=
  List.foldl_append

@[simp]
theorem outline_modifySink (hub : Hub) (h : Handle) (f : Sink → Sink) :
    (hub.modifySink h f).outline = hub.outline :=
  outline_modifyPeer (by simp) (by simp) hub h

theorem step_accept (hub : Hub) (identity : Identity) (transport : Transport) :
    Step hub.outline (hub.accept identity transport).2.outline := by
  have hentered := Step.enter hub.outline identity hub.settings.outboundCapacity
  simpa [outline, accept, Peer.new, Switchboard.connect] using hentered

theorem outline_arrive (hub : Hub) (h : Handle) (arrival : Arrival) :
    (hub.arrive h arrival).2.outline = hub.outline := by
  unfold arrive
  split
  · rfl
  · split
    · rfl
    · exact outline_modifyPeer (by simp) (by simp) hub h

theorem step_upgrade (hub : Hub) (request : Http.Request) :
    Step hub.outline (Http.upgrade request hub).2.outline := by
  unfold Http.upgrade
  split
  · exact .rest _
  · split
    · exact .rest _
    · exact step_accept hub _ .webSocket

theorem step_toggleRead (hub : Hub) (segment : String) (request : Http.Request) :
    Step hub.outline (Http.toggleRead segment request hub).2.outline := by
  unfold Http.toggleRead
  simp only
  split
  · exact .rest _
  · next identity _ =>
      split
      · exact .rest _
      · next id _ =>
          have hgrows := hub.service.faults.grows_toggleRead hub.service.store id identity.userId
          split
          · next htoggle =>
              rw [htoggle] at hgrows
              exact .tend hub.outline hgrows
          · next htoggle =>
              rw [htoggle] at hgrows
              exact .tend hub.outline hgrows

theorem step_respond (hub : Hub) (request : Http.Request) :
    Step hub.outline (Http.respond request hub).2.outline := by
  unfold Http.respond
  simp only
  split
  · exact .rest _
  · split
    · exact .rest _
    · next route _ =>
        split
        · cases route with
          | health | upgrade => exact .rest _
          | notifications =>
              simp only [Http.serve, Http.listNotifications]
              split <;> exact .rest _
          | readFlag segment => exact step_toggleRead hub segment request
        · exact .rest _

/-- A task that has to wait leaves the hub as it is. -/
theorem step_getD {hub : Hub} {next : Option Hub}
    (hstep : ∀ after, next = some after → Step hub.outline after.outline) :
    Step hub.outline (next.getD hub).outline := by
  cases next with
  | none => exact .rest _
  | some after => exact hstep after rfl

/-- Whatever happens to a hub is a step of its outline. -/
theorem step_after (hub : Hub) (happening : Happening) :
    Step hub.outline (hub.after happening).outline := by
  cases happening with
  | accept identity transport => exact step_accept hub identity transport
  | upgrade request => exact step_upgrade hub request
  | request request => exact step_respond hub request
  | arrive h arrival =>
      rw [after, outline_arrive]
      exact .rest _
  | block h _ | breakSink h _ =>
      rw [after, outline_modifySink]
      exact .rest _
  | read h cancelFirst => exact step_getD fun _ => step_readStep
  | lapse h => exact step_getD fun _ => step_lapse
  | write h => exact step_getD fun _ => step_writeStep
  | answer h =>
      apply step_getD
      intro next hnext
      rw [outline_answerStep hnext]
      exact .rest _
  | closeAll => exact .closeAll _
  | remove h => exact .remove _ h
  | pass nanos => exact .rest _
  | faults faults => exact .rest _
  | setAgent listing agent => exact .tend _ (.refl _)
  | addFavorite user listing => exact .tend _ (hub.service.store.grows_addFavorite user listing)
  | addSession token identity => exact .tend _ (.refl _)
  | create draft now => exact .tend _ (hub.service.store.grows_create draft now)

/-- What holds of an outline and is kept by its steps holds after every run. -/
theorem outline_run {invariant : Outline → Prop}
    (hkept : ∀ o next, invariant o → Step o next → invariant next) {hub : Hub}
    (hstart : invariant hub.outline) (happenings : List Happening) :
    invariant (hub.run happenings).outline := by
  induction happenings generalizing hub with
  | nil => exact hstart
  | cons happening happenings ih => exact ih (hkept _ _ hstart (hub.step_after happening))

/-- All that a run does to the switchboard are acts. -/
theorem acted_run (hub : Hub) (happenings : List Happening) :
    hub.service.board.Acted (hub.run happenings).service.board := by
  have hkept : ∀ o next : Outline, hub.service.board.Acted o.board → Step o next →
      hub.service.board.Acted next.board := by
    intro o next hacted hstep
    exact hacted.trans hstep.acted
  exact outline_run hkept .refl happenings

end Hub

end ListingHub
