import ListingHub.Handling

/-!
# The steps of a job come to its handling

`Service.handle` does at once what the steps of a job do one after another. With nothing in between
they end with the same outcome, the same service and the same log, at every delay of the store and
for every limit, and they cannot end otherwise.
-/

namespace ListingHub

/-- Where a job is: the service, the time and how far the handling has come. -/
structure Job.Stage where
  service : Service
  now : Instant
  work : Handling

namespace Job

variable {job : Job} {service : Service} {now later : Instant} {failure : Failure}
variable {stage between after other : Stage} {log more : List Entry}

/-- What a job does with nothing in between. While it waits the time passes, until the pause ends or
the limit expires. -/
inductive Steps (job : Job) : Stage → Stage → List Entry → Prop
  | refl (stage : Stage) : Steps job stage stage []
  | step {service after : Service} {now : Instant} {work next : Handling} {last : Stage}
      {log more : List Entry} (hstep : job.step service now work = some (next, after, log))
      (hrest : Steps job ⟨after, now, next⟩ last more) :
      Steps job ⟨service, now, work⟩ last (log ++ more)
  | wait {service : Service} {now wake : Instant} {work : Recording} {last : Stage}
      {log : List Entry} (hwaits : job.step service now (.recording work (some wake)) = none)
      (hrest : Steps job
        ⟨service, min wake job.limit.expires, .recording work (some wake)⟩ last log) :
      Steps job ⟨service, now, .recording work (some wake)⟩ last log

/-- A step that logs nothing. -/
theorem Steps.silent {work next : Handling} {last : Service}
    (hstep : job.step service now work = some (next, last, []))
    (hrest : Steps job ⟨last, now, next⟩ after log) : Steps job ⟨service, now, work⟩ after log :=
  .step hstep hrest

theorem Steps.trans (hfirst : Steps job stage between log) (hlast : Steps job between after more) :
    Steps job stage after (log ++ more) := by
  induction hfirst with
  | refl stage => exact hlast
  | step hstep hrest ih =>
      rw [List.append_assoc]
      exact .step hstep (ih hlast)
  | wait hwaits hrest ih => exact .wait hwaits (ih hlast)

/-- A handling that has ended takes no step. -/
theorem Steps.eq_of_finished {outcome : Except Failure Unit}
    (hsteps : Steps job stage after log) (hended : stage.work = .finished outcome) :
    after = stage ∧ log = [] := by
  cases hsteps with
  | refl stage => exact ⟨rfl, rfl⟩
  | step hstep hrest =>
      obtain rfl := hended
      cases hstep
  | wait hwaits hrest => cases hended

/-- The steps of a job lead to one end. -/
theorem Steps.unique {outcome outcome' : Except Failure Unit}
    (hsteps : Steps job stage after log) (hended : after.work = .finished outcome)
    (hothers : Steps job stage other more) (hended' : other.work = .finished outcome') :
    after = other ∧ log = more := by
  induction hsteps generalizing more with
  | refl stage =>
      obtain ⟨rfl, rfl⟩ := hothers.eq_of_finished hended
      exact ⟨rfl, rfl⟩
  | step hstep hrest ih =>
      cases hothers with
      | refl _ =>
          obtain rfl := hended'
          cases hstep
      | step hstep' hrest' =>
          obtain ⟨rfl, rfl, rfl⟩ := by simpa using hstep.symm.trans hstep'
          obtain ⟨rfl, rfl⟩ := ih hended hrest'
          exact ⟨rfl, rfl⟩
      | wait hwaits _ =>
          rw [hwaits] at hstep
          cases hstep
  | wait hwaits hrest ih =>
      cases hothers with
      | refl _ => cases hended'
      | step hstep' _ =>
          rw [hwaits] at hstep'
          cases hstep'
      | wait _ hrest' => exact ih hended hrest'

theorem step_of_delay {work : Recording} (hdelay : 0 < work.delay service.faults job.event) :
    job.step service now (.recording work none) =
      some (.recording work (some (now + work.delay service.faults job.event)), service, []) := by
  simp [step, Nat.ne_of_gt hdelay]

theorem step_of_early {work : Recording} {wake : Instant} (hwake : now < wake)
    (hlimit : now < job.limit.expires) :
    job.step service now (.recording work (some wake)) = none := by
  simp only [step]
  rw [if_neg (Nat.not_le.mpr hwake), if_neg (Nat.not_le.mpr hlimit)]

theorem step_of_expired {work : Recording} {wake : Instant} (hwake : now < wake)
    (hlimit : job.limit.expires ≤ now) :
    job.step service now (.recording work (some wake)) =
      some (.finished (.error job.limit.failure), service, []) := by
  simp only [step]
  rw [if_neg (Nat.not_le.mpr hwake), if_pos hlimit]

/-- A pause within the limit ends with the step of recording that it came before. -/
theorem steps_of_pause (job : Job) (service : Service) (work : Recording)
    (hpause : pause (some job.limit) now (work.delay service.faults job.event) = .ok later) :
    Steps job ⟨service, now, .recording work none⟩
      ⟨(job.record service later work).2.1, later, (job.record service later work).1⟩ [] := by
  simp only [pause] at hpause
  split at hpause
  · cases hpause
  · next hin =>
      obtain rfl := Except.ok.inj hpause
      rcases Nat.eq_zero_or_pos (work.delay service.faults job.event) with hnone | hdelay
      · have hstep : job.step service now (.recording work none) =
            some (job.record service now work) := by
          simp [step, hnone]
        rw [hnone, Nat.add_zero]
        exact .silent hstep (.refl _)
      · have hlater := Nat.lt_add_of_pos_right (n := now) hdelay
        have hwake : now + work.delay service.faults job.event ≤ job.limit.expires := by
          apply Nat.le_of_not_lt
          intro hlate
          exact hin ⟨hdelay, hlate⟩
        have hstep : job.step service (now + work.delay service.faults job.event)
            (.recording work (some (now + work.delay service.faults job.event))) =
            some (job.record service (now + work.delay service.faults job.event) work) := by
          simp [step]
        apply Steps.silent (step_of_delay hdelay)
        apply Steps.wait (step_of_early hlater (Nat.lt_of_lt_of_le hlater hwake))
        rw [Nat.min_eq_left hwake]
        exact .silent hstep (.refl _)

/-- A limit that expires before the pause ends makes the job fail. -/
theorem steps_of_expiry (job : Job) (service : Service) (work : Recording)
    (hpause : pause (some job.limit) now (work.delay service.faults job.event) = .error failure) :
    ∃ later, Steps job ⟨service, now, .recording work none⟩
      ⟨service, later, .finished (.error failure)⟩ [] := by
  simp only [pause] at hpause
  split at hpause
  · next hout =>
      obtain rfl := Except.error.inj hpause
      have hlater := Nat.lt_add_of_pos_right (n := now) hout.1
      rcases Nat.lt_or_ge now job.limit.expires with hearly | hlate
      · refine ⟨job.limit.expires, .silent (step_of_delay hout.1)
          (.wait (step_of_early hlater hearly) ?_)⟩
        rw [Nat.min_eq_right (Nat.le_of_lt hout.2)]
        exact .silent (step_of_expired hout.2 (Nat.le_refl _)) (.refl _)
      · exact ⟨now, .silent (step_of_delay hout.1)
          (.silent (step_of_expired hlater hlate) (.refl _))⟩
  · cases hpause

/-- The rows are stored one after another. -/
theorem steps_storeAll (job : Job) (recipients todo : List UserId) (service : Service)
    (now : Instant) :
    ∃ later, Steps job ⟨service, now, afterRecording (.ofTodo recipients todo)⟩
      ⟨{ service with store := (service.faults.storeAll job.event service.start (some job.limit)
          todo now service.store).2 }, later,
        afterRecording (.finished ((service.faults.storeAll job.event service.start
          (some job.limit) todo now service.store).1.map fun _ => recipients))⟩ [] := by
  induction todo generalizing service now with
  | nil => exact ⟨now, .refl _⟩
  | cons user todo ih =>
      cases hpause : pause (some job.limit) now (service.faults.createDelay user) with
      | error failure =>
          simp only [Faults.storeAll, hpause]
          exact steps_of_expiry job service (.storing recipients (user :: todo)) hpause
      | ok instant =>
          have hbegun :=
            steps_of_pause job service (.storing recipients (user :: todo)) hpause
          cases hcreate : service.faults.create service.store (job.event.draft user)
              (service.start.later instant) with
          | mk created store =>
              simp only [record, Recording.step, hcreate] at hbegun
              simp only [Faults.storeAll, hpause, hcreate]
              cases created with
              | error failure => exact ⟨instant, hbegun⟩
              | ok row =>
                  obtain ⟨later, hrest⟩ := ih { service with store } instant
                  exact ⟨later, hbegun.trans hrest⟩

/-- The lookup and the rows after it. -/
theorem steps_record (job : Job) (service : Service) (now : Instant) :
    ∃ later, Steps job ⟨service, now, .recording .lookingUp none⟩
      ⟨{ service with store := (service.faults.record job.event service.start (some job.limit)
          now service.store).2 }, later,
        afterRecording (.finished (service.faults.record job.event service.start
          (some job.limit) now service.store).1)⟩ [] := by
  cases hpause : pause (some job.limit) now (service.faults.lookupDelay job.event.listing) with
  | error failure =>
      simp only [Faults.record, hpause]
      exact steps_of_expiry job service .lookingUp hpause
  | ok instant =>
      have hbegun := steps_of_pause job service .lookingUp hpause
      cases hlookup : service.faults.recipients service.store job.event with
      | error failure =>
          simp only [record, Recording.step, hlookup] at hbegun
          simp only [Faults.record, hpause, hlookup]
          exact ⟨instant, hbegun⟩
      | ok users =>
          simp only [record, Recording.step, hlookup] at hbegun
          simp only [Faults.record, hpause, hlookup]
          obtain ⟨later, hrest⟩ := steps_storeAll job users users service instant
          exact ⟨later, hbegun.trans hrest⟩

/-- The offers of a broadcast, one after another. -/
theorem steps_offerAll (job : Job) (recipients : List UserId) (todo : List Handle) (tally : Tally)
    (service : Service) (now : Instant) :
    Steps job ⟨service, now, .fanningOut recipients (.delivering todo tally)⟩
      ⟨{ service with board := (Switchboard.offerAll (job.message recipients).envelope tally
          service.board todo).2.1 }, now,
        .fanningOut recipients (.delivering [] (Switchboard.offerAll
          (job.message recipients).envelope tally service.board todo).1)⟩
      (Switchboard.offerAll (job.message recipients).envelope tally service.board todo).2.2 := by
  induction todo generalizing tally service with
  | nil => exact .refl _
  | cons h todo ih => exact .step rfl (ih _ _)

/-- The removals of a broadcast, one after another. -/
theorem steps_evict (job : Job) (recipients : List UserId) (todo : List Handle) (delivered : Nat)
    (service : Service) (now : Instant) :
    Steps job ⟨service, now, .fanningOut recipients (.evicting todo delivered)⟩
      ⟨{ service with board := service.board.evict todo }, now,
        .fanningOut recipients (.evicting [] delivered)⟩ [] := by
  induction todo generalizing service with
  | nil => exact .refl _
  | cons h todo ih => exact .silent rfl (ih _)

/-- The push to the recipients. -/
theorem steps_broadcast (job : Job) (recipients : List UserId) (service : Service) (now : Instant) :
    Steps job ⟨service, now, .fanningOut recipients .choosing⟩
      ⟨{ service with board := (service.board.broadcast (job.message recipients)).2.1 }, now,
        .finished (.ok ())⟩
      ((service.board.broadcast (job.message recipients)).2.2 ++
        [job.dispatched recipients (service.board.broadcast (job.message recipients)).1]) := by
  have hends : ∀ delivered service, job.step service now
      (.fanningOut recipients (.finished delivered)) =
        some (.finished (.ok ()), service, [job.dispatched recipients delivered]) :=
    fun _ _ => rfl
  apply Steps.silent rfl
  apply (steps_offerAll job recipients _ .zero service now).trans
  apply Steps.silent rfl
  apply (steps_evict job recipients _ _ _ now).trans
  apply Steps.silent rfl
  exact .step (hends _ _) (.refl _)

/-- With nothing in between the steps of a job end as its handling says. -/
theorem steps_handle (job : Job) (service : Service) (now : Instant) :
    ∃ later, Steps job ⟨service, now, .recording .lookingUp none⟩
      ⟨(service.handle job now).2.1, later, .finished (service.handle job now).1⟩
      (service.handle job now).2.2 := by
  obtain ⟨later, hrecord⟩ := steps_record job service now
  refine ⟨later, ?_⟩
  cases houtcome : service.faults.record job.event service.start (some job.limit) now
      service.store with
  | mk outcome store =>
      rw [houtcome] at hrecord
      simp only [Service.handle, houtcome]
      match outcome with
      | .error failure => exact hrecord
      | .ok [] => exact hrecord
      | .ok (user :: users) =>
          exact hrecord.trans (steps_broadcast job (user :: users) { service with store } later)

/-- They do not end otherwise. -/
theorem steps_iff_handle (job : Job) (service last : Service) (now : Instant)
    (outcome : Except Failure Unit) (log : List Entry) :
    (∃ later, Steps job ⟨service, now, .recording .lookingUp none⟩
        ⟨last, later, .finished outcome⟩ log) ↔
      service.handle job now = (outcome, last, log) := by
  obtain ⟨later, hhandle⟩ := steps_handle job service now
  constructor
  · rintro ⟨other, hsteps⟩
    obtain ⟨hstage, hlog⟩ := hhandle.unique rfl hsteps rfl
    simp only [Stage.mk.injEq, Handling.finished.injEq] at hstage
    rw [← hstage.2.2, ← hstage.1, ← hlog]
  · intro heq
    rw [heq] at hhandle
    exact ⟨later, hhandle⟩

end Job

end ListingHub
