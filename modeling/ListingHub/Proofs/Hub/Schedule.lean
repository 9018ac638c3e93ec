import ListingHub.Proofs.Hub.Run

/-!
# The scheduler runs the hub

The scheduler lets the tasks take their steps and the time pass, nothing else, so it arrives at a
hub that a run arrives at too. The steps of tasks take no time.
-/

namespace ListingHub

namespace Hub

variable {hub next : Hub} {h : Handle}

theorem now_conclude (hub : Hub) (h : Handle) (user : UserId) (eventType : String)
    (outcome : Except Failure Unit) : (hub.conclude h user eventType outcome).now = hub.now := by
  cases outcome <;> rfl

theorem now_route (hub : Hub) (h : Handle) (user : UserId) (deadline : Instant)
    (envelope : Envelope) : (hub.route h user deadline envelope).now = hub.now := by
  unfold route
  split
  · rfl
  · exact now_conclude _ _ _ _ _
  · split <;> rfl

theorem now_takeData (hub : Hub) (h : Handle) (user : UserId) (deadline : Instant)
    (data : List UInt8) : (hub.takeData h user deadline data).now = hub.now := by
  unfold takeData
  split
  · rfl
  · split
    · rfl
    · exact now_route hub h user deadline _

theorem now_take (hub : Hub) (h : Handle) (user : UserId) (deadline : Instant)
    (arrival : Arrival) : (hub.take h user deadline arrival).now = hub.now := by
  cases arrival with
  | text data => exact now_takeData hub h user deadline _
  | binary data => exact now_takeData hub h user deadline data
  | ping size | pong size | close | failure reason | ended => rfl

theorem now_takeNext {peer : Peer} {user : UserId} {deadline : Instant}
    (htake : hub.takeNext h peer user deadline = some next) : next.now = hub.now := by
  unfold takeNext at htake
  split at htake
  · obtain rfl := Option.some.inj htake
    exact now_take _ h user deadline _
  · split at htake
    · obtain rfl := Option.some.inj htake
      rfl
    · cases htake

theorem now_handleNext {deadline : Instant} {job : Job} {work : Handling}
    (hnext : hub.handleNext h deadline job work = some next) : next.now = hub.now := by
  unfold handleNext at hnext
  split at hnext
  · obtain rfl := Option.some.inj hnext
    exact now_conclude _ _ _ _ _
  · obtain ⟨_, -, rfl⟩ := Option.map_eq_some_iff.mp hnext
    rfl

theorem now_readStep {cancelFirst : Bool} (hstep : readStep cancelFirst h hub = some next) :
    next.now = hub.now := by
  unfold readStep at hstep
  split at hstep
  · split at hstep
    · obtain rfl := Option.some.inj hstep
      rfl
    · simp only at hstep
      split at hstep
      · obtain rfl := Option.some.inj hstep
        rfl
      · exact now_takeNext hstep
    · exact now_handleNext hstep
    · obtain rfl := Option.some.inj hstep
      rfl
    · obtain ⟨_, -, rfl⟩ := Option.map_eq_some_iff.mp hstep
      rfl
    · cases hstep
    · cases hstep
  · cases hstep

theorem now_startWriter (hub : Hub) (h : Handle) : (hub.startWriter h).now = hub.now := by
  unfold startWriter
  split <;> rfl

theorem now_idleStep {c : Connection} {due : Instant}
    (hstep : hub.idleStep h c due = some next) : next.now = hub.now := by
  unfold idleStep at hstep
  split at hstep
  · obtain rfl := Option.some.inj hstep
    rfl
  · split at hstep
    · obtain rfl := Option.some.inj hstep
      rfl
    · obtain rfl := Option.some.inj hstep
      rfl
    · obtain rfl := Option.some.inj hstep
      rfl
    · split at hstep
      · obtain rfl := Option.some.inj hstep
        rfl
      · cases hstep

theorem now_writeStep (hstep : writeStep h hub = some next) : next.now = hub.now := by
  unfold writeStep at hstep
  split at hstep
  · split at hstep
    · split at hstep
      · cases hstep
      · obtain rfl := Option.some.inj hstep
        exact now_startWriter hub h
    · exact now_idleStep hstep
    · obtain ⟨outcome, -, rfl⟩ := Option.map_eq_some_iff.mp hstep
      cases outcome <;> rfl
    · obtain ⟨outcome, -, rfl⟩ := Option.map_eq_some_iff.mp hstep
      cases outcome <;> rfl
    · obtain rfl := Option.some.inj hstep
      rfl
    · cases hstep
    · cases hstep
  · cases hstep

theorem now_answerStep (hstep : answerStep h hub = some next) : next.now = hub.now := by
  unfold answerStep at hstep
  split at hstep
  · cases hstep
  · split at hstep
    · cases hstep
    · obtain rfl := Option.some.inj hstep
      rfl

theorem now_step {task : Task} (hstep : hub.step task = some next) : next.now = hub.now := by
  cases task with
  | reading h => exact now_readStep hstep
  | writing h => exact now_writeStep hstep
  | answering h => exact now_answerStep hstep

theorem now_insteadOfWaiting {task : Task} (hstep : hub.insteadOfWaiting task = some next) :
    next.now = hub.now := by
  cases task with
  | reading h =>
      simp only [Hub.insteadOfWaiting, lapse] at hstep
      split at hstep
      · split at hstep
        · obtain rfl := Option.some.inj hstep
          rfl
        · cases hstep
      · cases hstep
  | writing h | answering h => cases hstep

/-- One hub comes from another by a run. -/
def Runs (hub next : Hub) : Prop :=
  ∃ happenings, next = hub.run happenings

namespace Runs

variable {hub between next : Hub}

theorem refl (hub : Hub) : Runs hub hub :=
  ⟨[], rfl⟩

theorem trans (hfirst : Runs hub between) (hlast : Runs between next) : Runs hub next := by
  obtain ⟨happenings, rfl⟩ := hfirst
  obtain ⟨more, rfl⟩ := hlast
  exact ⟨happenings ++ more, (run_append hub happenings more).symm⟩

/-- One happening. -/
theorem after (hub : Hub) (happening : Happening) : Runs hub (hub.after happening) :=
  ⟨[happening], rfl⟩

/-- A happening that is a step of a task, when the task can take one. -/
theorem of_getD {attempt : Option Hub} (happening : Happening)
    (hafter : hub.after happening = attempt.getD hub) (hnext : attempt = some next) :
    Runs hub next := by
  rw [hnext] at hafter
  exact ⟨[happening], hafter.symm⟩

theorem step {task : Task} (hstep : hub.step task = some next) : Runs hub next := by
  cases task with
  | reading h => exact of_getD (.read h true) rfl hstep
  | writing h => exact of_getD (.write h) rfl hstep
  | answering h => exact of_getD (.answer h) rfl hstep

theorem insteadOfWaiting {task : Task} (hstep : hub.insteadOfWaiting task = some next) :
    Runs hub next := by
  cases task with
  | reading h => exact of_getD (.lapse h) rfl hstep
  | writing h | answering h => cases hstep

end Runs

/-- No step of a task, nor what it does instead of giving way, ends a property of hubs. -/
structure KeptBySteps (P : Hub → Prop) : Prop where
  step : ∀ {task hub next}, P hub → hub.step task = some next → P next
  insteadOfWaiting : ∀ {task hub next}, P hub → hub.insteadOfWaiting task = some next → P next

theorem keptBySteps_runs (start : Hub) : KeptBySteps (Runs start) where
  step := fun hruns hstep => hruns.trans (.step hstep)
  insteadOfWaiting := fun hruns hstep => hruns.trans (.insteadOfWaiting hstep)

theorem keptBySteps_now (instant : Instant) : KeptBySteps fun hub => hub.now = instant where
  step := fun hnow hstep => (now_step hstep).trans hnow
  insteadOfWaiting := fun hnow hstep => (now_insteadOfWaiting hstep).trans hnow

theorem runTask_keeps {P : Hub → Prop} (hkeeps : KeptBySteps P) (task : Task) (fuel left : Nat)
    {hub : Hub} (hstart : P hub) : P (hub.runTask task fuel left).2 := by
  induction fuel generalizing left hub with
  | zero => exact hstart
  | succ fuel ih =>
      simp only [Hub.runTask]
      split
      · split
        · next hnext => exact ih _ (hkeeps.insteadOfWaiting hstart hnext)
        · exact hstart
      · split
        · next hnext => exact ih _ (hkeeps.step hstart hnext)
        · exact hstart

end Hub

namespace Schedule

open Hub (Runs)

/-- What the steps of the tasks keep is kept while tasks run in turn. -/
theorem settleFrom_keeps {P : Hub → Prop} (hkeeps : Hub.KeptBySteps P) (fuel : Nat)
    (ready gaveWay : List Task) (schedule : Schedule) (hstart : P schedule.hub) :
    P (settleFrom fuel ready gaveWay schedule).hub := by
  induction fuel generalizing ready gaveWay schedule with
  | zero =>
      rw [settleFrom]
      exact hstart
  | succ fuel ih =>
      cases ready with
      | nil =>
          cases gaveWay with
          | nil =>
              rw [settleFrom]
              exact hstart
          | cons task gaveWay =>
              rw [settleFrom]
              exact ih (task :: gaveWay) [] schedule hstart
      | cons task ready =>
          have hrun : P (schedule.run task).2.hub :=
            Hub.runTask_keeps hkeeps task schedule.hub.effort allowance hstart
          rw [settleFrom]
          -- Left as it is, the run would be unfolded as far as it goes.
          generalize schedule.run task = outcome at hrun ⊢
          exact ih _ _ _ hrun

/-- Running everything that can run is a run. -/
theorem runs_settle (schedule : Schedule) (ready : List Task) :
    Runs schedule.hub (schedule.settle ready).hub :=
  settleFrom_keeps (Hub.keptBySteps_runs schedule.hub) _ _ _ schedule (.refl _)

theorem now_settle (schedule : Schedule) (ready : List Task) :
    (schedule.settle ready).hub.now = schedule.hub.now :=
  settleFrom_keeps (Hub.keptBySteps_now schedule.hub.now) _ _ _ schedule rfl

/-- So is letting something happen and running what follows from it. -/
theorem runs_perform (schedule : Schedule) (happening : Happening) :
    Runs schedule.hub (schedule.perform fun hub => hub.after happening).hub :=
  (Runs.after schedule.hub happening).trans (runs_settle _ [])

theorem runs_jump (schedule : Schedule) {instant : Instant} (hlater : schedule.hub.now ≤ instant) :
    Runs schedule.hub (schedule.jump instant).hub := by
  have hpass := Runs.after schedule.hub (.pass (instant - schedule.hub.now))
  rw [Hub.after, Nat.add_sub_cancel' hlater] at hpass
  exact hpass.trans (runs_settle _ _)

theorem now_jump (schedule : Schedule) (instant : Instant) :
    (schedule.jump instant).hub.now = instant :=
  now_settle _ _

theorem runs_advanceTo (target : Instant) (fuel : Nat) (schedule : Schedule)
    (hlater : schedule.hub.now ≤ target) :
    Runs schedule.hub (advanceTo target fuel schedule).hub := by
  induction fuel generalizing schedule with
  | zero => exact .refl _
  | succ fuel ih =>
      simp only [advanceTo]
      split
      · next instant hcoming =>
          have hin := List.min?_mem hcoming
          simp only [List.mem_filter, Bool.and_eq_true, decide_eq_true_eq] at hin
          apply (schedule.runs_jump (Nat.le_of_lt hin.2.1)).trans
          apply ih
          rw [now_jump]
          exact hin.2.2
      · exact schedule.runs_jump hlater

/-- Moving the clock on from timer to timer is a run. -/
theorem runs_advance (schedule : Schedule) (millis : Nat) :
    Runs schedule.hub (schedule.advance millis).hub :=
  runs_advanceTo _ _ schedule (Nat.le_add_right _ _)

end Schedule

end ListingHub
