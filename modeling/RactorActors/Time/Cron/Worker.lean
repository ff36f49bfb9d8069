import RactorActors.Ractor
import RactorActors.Foundations.LabelledRun
import RactorActors.Foundations.TimedMailbox

/-!
# The cron worker actor

The state, the messages and the handlers of `time/cron/worker.rs`, and the runs of one worker.

A schedule is known by one operation, `upcoming` (`cron::Schedule::upcoming(Utc).next()`). The
two readings of the wall clock that one call of `schedule_next` or `pre_start` makes are inputs
of the model (`Readings`), and so are the results of `job.work()`: the environment chooses them.

`execute` waits for `job.work()`. It is one step that begins the work and one that ends it
(`Phase.working` in between), so that timers expire, messages arrive and the actor is killed
while the job works. No other message is handled meanwhile.
-/

namespace RactorActors.Time.Cron

/-- A type of schedules. -/
class Schedule (S : Type) where
  /-- `upcoming(Utc).next()`: the next occurrence of the schedule when the clock reads `t`. -/
  upcoming (schedule : S) (t : ℤ) : Option ℤ

/-- A `Job`, by the name it reports. What its `work` does is chosen by the environment. -/
structure Job where
  /-- `Job::id` -/
  id : String
deriving DecidableEq, Repr

/-- `CronSettings` -/
structure CronSettings (S : Type) where
  schedule : S
  job : Job
deriving DecidableEq, Repr

/-- `CronState` -/
structure CronState (S : Type) where
  schedule : S
  job : Job
  nextScheduleHandle : Option ℕ
deriving DecidableEq, Repr

/-- `CronMessage` -/
inductive CronMessage (S : Type)
  | execute
  | updateSchedule (newSchedule : S)
deriving DecidableEq, Repr

/-- The two readings of `Utc` that arm a timer: one in `upcoming(Utc)`, one in `Utc::now()`. -/
structure Readings where
  upcoming : ℤ
  now : ℤ
deriving DecidableEq, Repr

/-- What one handler leaves behind. -/
structure Outcome (S : Type) where
  myself : TimedMailbox (CronMessage S)
  state : CronState S
  result : Except ActorProcessingErr Unit

/-- `chrono::Duration::to_std`: an error exactly on a negative duration. -/
def toStd (period : ℤ) : Except ActorProcessingErr ℕ :=
  if period < 0 then
    .error (.message "Source duration value is out of range for the target type")
  else .ok period.toNat

section Handlers

variable {S : Type} [Schedule S]

/-- The lines that `schedule_next` and `pre_start` share: arm a timer for the schedule's next
occurrence, if it has one, and give its handle. -/
def armNext (myself : TimedMailbox (CronMessage S)) (schedule : S) (r : Readings) :
    TimedMailbox (CronMessage S) × Except ActorProcessingErr (Option ℕ) :=
  match Schedule.upcoming schedule r.upcoming with
  | some next =>
    match toStd (next - r.now) with
    | .ok period => (myself.sendAfter period .execute, .ok (some myself.nextHandle))
    | .error err => (myself, .error err)
  | none => (myself, .ok none)

/-- `CronState::schedule_next`. The handle stored before is overwritten, not aborted. -/
def CronState.scheduleNext (state : CronState S) (myself : TimedMailbox (CronMessage S))
    (r : Readings) : Outcome S :=
  match armNext myself state.schedule r with
  | (myself, .ok handle) =>
    { myself, state := { state with nextScheduleHandle := handle }, result := .ok () }
  | (myself, .error err) => { myself, state, result := .error err }

/-- `Cron::pre_start` -/
def preStart (myself : TimedMailbox (CronMessage S)) (settings : CronSettings S)
    (r : Readings) : TimedMailbox (CronMessage S) × Except ActorProcessingErr (CronState S) :=
  match armNext myself settings.schedule r with
  | (myself, .ok handle) =>
    (myself, .ok
      { schedule := settings.schedule, job := settings.job, nextScheduleHandle := handle })
  | (myself, .error err) => (myself, .error err)

/-- `state.next_schedule_handle.take()`, with the handle aborted. -/
def CronState.takeHandle (state : CronState S) (myself : TimedMailbox (CronMessage S)) :
    TimedMailbox (CronMessage S) × CronState S :=
  match state.nextScheduleHandle with
  | some handle => (myself.abort handle, { state with nextScheduleHandle := none })
  | none => (myself, state)

/-- `Cron::post_stop` -/
def postStop (myself : TimedMailbox (CronMessage S)) (state : CronState S) :
    TimedMailbox (CronMessage S) × CronState S :=
  state.takeHandle myself

/-- `Cron::execute`, once `job.work()` has returned `worked`. -/
def execute (myself : TimedMailbox (CronMessage S)) (state : CronState S)
    (worked : Except ActorProcessingErr Unit) (r : Readings) : Outcome S :=
  match worked with
  | .ok () => state.scheduleNext myself r
  -- the job's error is only logged
  | .error _ => state.scheduleNext myself r

/-- `Cron::update_schedule` -/
def updateSchedule (myself : TimedMailbox (CronMessage S)) (newSchedule : S)
    (state : CronState S) (r : Readings) : Outcome S :=
  let left := state.takeHandle myself
  { left.2 with schedule := newSchedule }.scheduleNext left.1 r

end Handlers

/-! ## Runs of one worker -/

/-- What the worker is doing. -/
inductive Phase
  /-- Between two handlers. -/
  | idle
  /-- Inside `execute`, waiting for `job.work()`. -/
  | working
  | ended (exit : Exit)
deriving DecidableEq, Repr

/-- What a worker has done. -/
inductive Deed (S : Type)
  /-- `pre_start` -/
  | started (r : Readings)
  /-- An `Execute` was taken from the mailbox and the job's work began. -/
  | executing (origin : Option ℕ)
  /-- The job's work ended and `schedule_next` ran. -/
  | worked (result : Except ActorProcessingErr Unit) (r : Readings)
  /-- `UpdateSchedule` was handled. -/
  | updated (newSchedule : S) (r : Readings)

/-- A record of one deed. -/
structure Entry (S : Type) where
  /-- The time of the worker's clock. -/
  time : ℕ
  deed : Deed S
  /-- The handle the next timer would have got before the deed. -/
  nextHandle : ℕ
  /-- The schedule in force after it. -/
  schedule : S

/-- A worker with its mailbox and its timers. -/
structure Worker (S : Type) where
  myself : TimedMailbox (CronMessage S)
  /-- The actor's state, the last one if the actor has ended. -/
  state : CronState S
  phase : Phase
  /-- A stop, with its reason, that was sent to the worker and not taken yet. -/
  stopping : Option (Option String)
  /-- What the worker has done, newest first. No handler reads it. -/
  history : List (Entry S)

/-- The events of a worker's life. -/
inductive WorkerEvent (S : Type)
  /-- `UpdateSchedule` is sent to the worker. -/
  | update (newSchedule : S)
  /-- The worker handles the next message. For an `Execute` the readings are not used. -/
  | handle (r : Readings)
  /-- `job.work()` returns. -/
  | worked (result : Except ActorProcessingErr Unit) (r : Readings)
  /-- `job.work()` panics. -/
  | panic (what : ActorProcessingErr)
  /-- The timer armed under `handle` posts its message. -/
  | expire (handle : ℕ)
  /-- Time passes. -/
  | elapse (duration : ℕ)
  /-- `stop` is called on the worker. -/
  | stop (reason : Option String)
  /-- The worker takes a pending stop. -/
  | takeStop
  /-- `kill` is called on the worker, or its supervisor ends. -/
  | kill

namespace Worker

variable {S : Type} [Schedule S]

/-- The actor has ended: its mailbox is closed. -/
def isEnded (w : Worker S) : Bool :=
  match w.phase with
  | .ended _ => true
  | _ => false

/-- `Actor::spawn`: run `pre_start`. On an error no worker comes into being. -/
def spawn (now : ℕ) (settings : CronSettings S) (r : Readings) :
    Except ActorProcessingErr (Worker S) :=
  match preStart (TimedMailbox.empty now) settings r with
  | (myself, .ok state) =>
    .ok { myself, state, phase := .idle, stopping := none,
          history := [⟨now, .started r, 0, settings.schedule⟩] }
  | (_, .error err) => .error err

/-- The actor ends: its queue is gone. -/
def finish (w : Worker S) (exit : Exit) : Worker S :=
  { w with myself := w.myself.close, phase := .ended exit }

/-- A handler has returned. Its error fails the actor. -/
def after (w : Worker S) (deed : Deed S) (out : Outcome S) : Worker S :=
  let w' : Worker S := { w with
    myself := out.myself
    state := out.state
    phase := .idle
    history := ⟨w.myself.now, deed, w.myself.nextHandle, out.state.schedule⟩ :: w.history }
  match out.result with
  | .ok () => w'
  | .error err => w'.finish (.failed err)

/-- `ActorRef::cast`: an error if the mailbox is closed. -/
def cast (w : Worker S) (msg : CronMessage S) : Except MessagingErr (Worker S) :=
  if w.isEnded then .error .sendErr else .ok { w with myself := w.myself.post msg }

/-- `ActorRef::stop`. Only the first stop of an actor counts. -/
def stop (w : Worker S) (reason : Option String) : Worker S :=
  match w.stopping with
  | none => { w with stopping := some reason }
  | some _ => w

/-- `ActorRef::kill` -/
def kill (w : Worker S) : Worker S :=
  if w.isEnded then w else w.finish (.terminated (some "killed"))

/-- One step of a worker. -/
def step (w : Worker S) : WorkerEvent S → Option (Worker S)
  | .update newSchedule =>
    match w.cast (.updateSchedule newSchedule) with
    | .ok w' => some w'
    | .error _ => some w
  | .handle r =>
    -- a pending stop comes before the messages
    match w.phase, w.stopping, w.myself.next with
    | .idle, none, some ⟨.execute, origin⟩ =>
      -- the job begins its work
      some { w with
        myself := w.myself.receive
        phase := .working
        history :=
          ⟨w.myself.now, .executing origin, w.myself.nextHandle, w.state.schedule⟩ ::
            w.history }
    | .idle, none, some ⟨.updateSchedule newSchedule, _⟩ =>
      some (w.after (.updated newSchedule r)
        (updateSchedule w.myself.receive newSchedule w.state r))
    | _, _, _ => none
  | .worked result r =>
    match w.phase with
    | .working => some (w.after (.worked result r) (execute w.myself w.state result r))
    | _ => none
  | .panic what =>
    match w.phase with
    | .working => some (w.finish (.failed what))
    | _ => none
  | .expire handle =>
    -- the message of a timer that outlives the actor is lost
    if w.isEnded then some { w with myself := w.myself.abort handle }
    else (w.myself.expire handle).map fun myself => { w with myself }
  | .elapse duration => some { w with myself := w.myself.elapse duration }
  | .stop reason => some (w.stop reason)
  | .takeStop =>
    match w.phase, w.stopping with
    | .idle, some reason =>
      -- `post_stop` runs on a stop, but not on a failure or a kill
      let left := postStop w.myself w.state
      some ({ w with myself := left.1, state := left.2 }.finish (.terminated reason))
    | _, _ => none
  | .kill => some w.kill

/-- The message that the worker handles next, if it is free to handle one. -/
def nextMsg (w : Worker S) : Option (CronMessage S) :=
  match w.phase, w.stopping, w.myself.next with
  | .idle, none, some m => some m.msg
  | _, _, _ => none

end Worker

/-! ## What a call of `schedule_next` and a step can do -/

section Cases

variable {S : Type} [Schedule S]

/-- The readings find a later occurrence of the schedule that has not passed yet, so that
`schedule_next` arms a timer. -/
def arms (schedule : S) (r : Readings) : Bool :=
  match Schedule.upcoming schedule r.upcoming with
  | some next => r.now ≤ next
  | none => false

/-- **What `armNext` can do**: arm a timer, fail, or find the schedule exhausted. -/
theorem armNext_cases (myself : TimedMailbox (CronMessage S)) (schedule : S) (r : Readings) :
    (arms schedule r = true ∧ ∃ next, Schedule.upcoming schedule r.upcoming = some next ∧
      r.now ≤ next ∧ armNext myself schedule r =
        (myself.sendAfter (next - r.now).toNat .execute, .ok (some myself.nextHandle))) ∨
    (arms schedule r = false ∧ ∃ err, armNext myself schedule r = (myself, .error err)) ∨
    (arms schedule r = false ∧ armNext myself schedule r = (myself, .ok none)) := by
  unfold arms armNext
  cases hup : Schedule.upcoming schedule r.upcoming with
  | none => exact Or.inr (Or.inr ⟨rfl, rfl⟩)
  | some next =>
    -- the occurrence may have passed between the two readings of the clock
    by_cases hpast : next - r.now < 0
    · have hlt : ¬ r.now ≤ next := by omega
      obtain ⟨err, herr⟩ : ∃ err, toStd (next - r.now) = .error err := ⟨_, if_pos hpast⟩
      exact Or.inr (Or.inl ⟨by simpa using hlt, err, by simp only [herr]⟩)
    · have hle : r.now ≤ next := by omega
      have hperiod : toStd (next - r.now) = .ok (next - r.now).toNat := if_neg hpast
      exact Or.inl ⟨by simpa using hle, next, rfl, hle, by simp only [hperiod]⟩

/-- What `schedule_next` leaves behind in the three cases of `armNext`. -/
theorem scheduleNext_cases (state : CronState S) (myself : TimedMailbox (CronMessage S))
    (r : Readings) :
    (arms state.schedule r = true ∧ ∃ next,
      Schedule.upcoming state.schedule r.upcoming = some next ∧ r.now ≤ next ∧
      state.scheduleNext myself r =
        ⟨myself.sendAfter (next - r.now).toNat .execute,
          { state with nextScheduleHandle := some myself.nextHandle }, .ok ()⟩) ∨
    (arms state.schedule r = false ∧ ∃ err, state.scheduleNext myself r =
      ⟨myself, state, .error err⟩) ∨
    (arms state.schedule r = false ∧ state.scheduleNext myself r =
      ⟨myself, { state with nextScheduleHandle := none }, .ok ()⟩) := by
  unfold CronState.scheduleNext
  rcases armNext_cases myself state.schedule r with
    ⟨ha, next, hup, hle, he⟩ | ⟨ha, err, he⟩ | ⟨ha, he⟩
  · exact Or.inl ⟨ha, next, hup, hle, by rw [he]⟩
  · exact Or.inr (Or.inl ⟨ha, err, by rw [he]⟩)
  · exact Or.inr (Or.inr ⟨ha, by rw [he]⟩)

/-- `execute` ends in `schedule_next`, whatever the job's work returned. -/
theorem execute_eq (myself : TimedMailbox (CronMessage S)) (state : CronState S)
    (worked : Except ActorProcessingErr Unit) (r : Readings) :
    execute myself state worked r = state.scheduleNext myself r := by
  unfold execute
  split <;> rfl

/-- Everything that one step of a worker can do. -/
inductive StepCase (w : Worker S) : WorkerEvent S → Worker S → Prop
  /-- A message meets a closed mailbox. -/
  | lost (newSchedule : S) (hended : w.isEnded = true) : StepCase w (.update newSchedule) w
  | update (newSchedule : S) (halive : w.isEnded = false) :
      StepCase w (.update newSchedule)
        { w with myself := w.myself.post (.updateSchedule newSchedule) }
  | execute (r : Readings) (origin : Option ℕ) (hidle : w.phase = .idle)
      (hstop : w.stopping = none) (hnext : w.myself.next = some ⟨.execute, origin⟩) :
      StepCase w (.handle r) { w with
        myself := w.myself.receive
        phase := .working
        history :=
          ⟨w.myself.now, .executing origin, w.myself.nextHandle, w.state.schedule⟩ ::
            w.history }
  | updated (r : Readings) (newSchedule : S) (origin : Option ℕ) (hidle : w.phase = .idle)
      (hstop : w.stopping = none)
      (hnext : w.myself.next = some ⟨.updateSchedule newSchedule, origin⟩) :
      StepCase w (.handle r) (w.after (.updated newSchedule r)
        (updateSchedule w.myself.receive newSchedule w.state r))
  | worked (result : Except ActorProcessingErr Unit) (r : Readings)
      (hworking : w.phase = .working) :
      StepCase w (.worked result r)
        (w.after (.worked result r) (w.state.scheduleNext w.myself r))
  | fire (t : Timer (CronMessage S)) (ht : t ∈ w.myself.timers) (halive : w.isEnded = false)
      (hdue : t.deadline ≤ w.myself.now) :
      StepCase w (.expire t.handle) { w with myself := w.myself.fire t ht }
  | lapse (handle : ℕ) (hended : w.isEnded = true) :
      StepCase w (.expire handle) { w with myself := w.myself.abort handle }
  | elapse (duration : ℕ) :
      StepCase w (.elapse duration) { w with myself := w.myself.elapse duration }
  | stop (reason : Option String) : StepCase w (.stop reason) (w.stop reason)
  | takeStop (reason : Option String) (hidle : w.phase = .idle)
      (hstop : w.stopping = some reason) :
      StepCase w .takeStop
        ({ w with
          myself := (postStop w.myself w.state).1
          state := (postStop w.myself w.state).2 }.finish (.terminated reason))
  | panic (what : ActorProcessingErr) (hworking : w.phase = .working) :
      StepCase w (.panic what) (w.finish (.failed what))
  | kill (halive : w.isEnded = false) :
      StepCase w .kill (w.finish (.terminated (some "killed")))
  /-- A kill meets an actor that has ended. -/
  | late (hended : w.isEnded = true) : StepCase w .kill w

/-- **Step inversion.** -/
theorem step_cases {w w' : Worker S} {e : WorkerEvent S} (h : w.step e = some w') :
    StepCase w e w' := by
  cases e with
  | update newSchedule =>
    cases hended : w.isEnded with
    | true =>
      simp only [Worker.step, Worker.cast, hended, if_true, Option.some.injEq] at h
      exact h ▸ StepCase.lost _ hended
    | false =>
      simp only [Worker.step, Worker.cast, hended, Bool.false_eq_true, if_false,
        Option.some.injEq] at h
      exact h ▸ StepCase.update newSchedule hended
  | handle r =>
    simp only [Worker.step] at h
    split at h
    · rename_i origin hidle hstop hnext
      rw [Option.some.injEq] at h
      exact h ▸ StepCase.execute r origin hidle hstop hnext
    · rename_i newSchedule origin hidle hstop hnext
      rw [Option.some.injEq] at h
      exact h ▸ StepCase.updated r newSchedule origin hidle hstop hnext
    · cases h
  | worked result r =>
    simp only [Worker.step] at h
    split at h
    · rename_i hworking
      rw [Option.some.injEq, execute_eq] at h
      exact h ▸ StepCase.worked result r hworking
    · cases h
  | panic what =>
    simp only [Worker.step] at h
    split at h
    · rename_i hworking
      rw [Option.some.injEq] at h
      exact h ▸ StepCase.panic what hworking
    · cases h
  | expire handle =>
    cases hended : w.isEnded with
    | true =>
      simp only [Worker.step, hended, if_true, Option.some.injEq] at h
      exact h ▸ StepCase.lapse handle hended
    | false =>
      simp only [Worker.step, hended, Bool.false_eq_true, if_false, Option.map_eq_some_iff] at h
      obtain ⟨box, hbox, rfl⟩ := h
      obtain ⟨t, ht, rfl, hdue, rfl⟩ := TimedMailbox.expire_eq_some hbox
      exact StepCase.fire t ht hended hdue
  | elapse duration =>
    simp only [Worker.step, Option.some.injEq] at h
    exact h ▸ StepCase.elapse duration
  | stop reason =>
    simp only [Worker.step, Option.some.injEq] at h
    exact h ▸ StepCase.stop reason
  | takeStop =>
    simp only [Worker.step] at h
    split at h
    · rename_i reason hidle hstop
      rw [Option.some.injEq] at h
      exact h ▸ StepCase.takeStop reason hidle hstop
    · cases h
  | kill =>
    simp only [Worker.step, Worker.kill, Option.some.injEq] at h
    cases hended : w.isEnded with
    | true =>
      rw [hended, if_pos rfl] at h
      exact h ▸ StepCase.late hended
    | false =>
      rw [hended, if_neg Bool.false_ne_true] at h
      exact h ▸ StepCase.kill hended

end Cases

end RactorActors.Time.Cron
