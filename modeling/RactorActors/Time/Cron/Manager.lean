import Mathlib.Logic.Function.Basic
import RactorActors.Time.Cron.Worker

/-!
# The cron manager actor

The state, the messages and the handlers of `time/cron/mod.rs`. A handler takes the manager's
state and the workers there are, and gives both back with the notices it sent to subscribers,
the replies it sent to callers and the result it returned.

A worker is addressed by its `ActorCell`. Sending it a message, stopping it and spawning it act
on its entry in `Workers`. The manager's `jobs` say nothing about whether a worker still lives:
an entry stays until the worker's exit event has been handled.
-/

namespace RactorActors.Time.Cron

/-- A `CronEventSubscriber`, by its identity. -/
structure Subscriber where
  name : ℕ
deriving DecidableEq, Repr

/-- What a subscriber is told. A failure's reason is the text of the error. -/
inductive Notice
  | started (job : String)
  | stopped (job : String) (reason : Option String)
  | failed (job : String) (reason : ActorProcessingErr)
deriving DecidableEq, Repr

/-- `CronManagerState` -/
structure CronManagerState (S : Type) where
  jobs : HashMap String (S × ActorCell)
  subs : HashMap ActorId Subscriber

/-- `CronManagerMessage` -/
inductive CronManagerMessage (S : Type)
  | listJobs (reply : RpcReplyPort)
  | getSchedule (who : String) (reply : RpcReplyPort)
  | setSchedule (who : String) (schedule : S)
  | start (settings : CronSettings S) (reply : RpcReplyPort)
  | stop (who : String)
  | subscribe (who : ActorId) (processor : Subscriber)
  | unsubscribe (who : ActorId)
deriving DecidableEq, Repr

/-- The answer to a call. -/
inductive Reply (S : Type)
  | jobs (jobs : HashMap String S)
  | schedule (schedule : Option S)
  | started (result : Except ActorProcessingErr Unit)

/-- The workers that were ever spawned. -/
abbrev Workers (S : Type) := ActorId → Option (Worker S)

/-- What the runtime brings to the handler of a message: the time, the identity that an actor
spawned now gets, and the wall clock its `pre_start` reads. -/
structure Spawning where
  now : ℕ
  actor : ActorCell
  readings : Readings
deriving DecidableEq, Repr

/-- What one handler of the manager leaves behind. -/
structure ManagerOutcome (S : Type) where
  state : CronManagerState S
  workers : Workers S
  notices : List (Subscriber × Notice)
  replies : List (RpcReplyPort × Reply S)
  result : Except ActorProcessingErr Unit

variable {S : Type}

/-- `ActorRef::stop` on one worker. -/
def Workers.stop (workers : Workers S) (actor : ActorCell) (reason : Option String) :
    Workers S :=
  Function.update workers actor.getId ((workers actor.getId).map (·.stop reason))

/-- `ActorRef::cast` to one worker. -/
def Workers.cast (workers : Workers S) (actor : ActorCell) (msg : CronMessage S) :
    Except MessagingErr (Workers S) :=
  match workers actor.getId with
  | some w =>
    match w.cast msg with
    | .ok w' => .ok (Function.update workers actor.getId (some w'))
    | .error err => .error err
  | none => .error .channelClosed

namespace CronManagerState

/-- Tell every subscriber. -/
def tell (state : CronManagerState S) (notice : Notice) : List (Subscriber × Notice) :=
  state.subs.entries.map fun sub => (sub.2, notice)

/-- The name of a job that is run by the worker `who`. -/
def findJob (state : CronManagerState S) (who : ActorCell) : Option String :=
  (state.jobs.entries.find? fun v => v.2.2.getId == who.getId).map (·.1)

end CronManagerState

namespace CronManager

/-- `CronManager::pre_start` -/
def preStart : CronManagerState S := { jobs := ∅, subs := ∅ }

/-- `CronManager::post_stop` -/
def postStop (workers : Workers S) (state : CronManagerState S) :
    Workers S × CronManagerState S :=
  (state.jobs.entries.foldl (fun workers actor => workers.stop actor.2.2 none) workers,
    { state with jobs := ∅ })

/-- `CronManager::start`. A failed reply is ignored. -/
def start [Schedule S] (workers : Workers S) (spawning : Spawning) (settings : CronSettings S)
    (reply : RpcReplyPort) (state : CronManagerState S) : ManagerOutcome S :=
  let id := settings.job.id
  let schedule := settings.schedule
  match state.jobs.lookup id with
  | none =>
    match Worker.spawn spawning.now settings spawning.readings with
    | .error err =>
      { state, workers, notices := []
        replies := [(reply, .started (.error (.startupFailed err)))]
        result := .ok () }
    | .ok worker =>
      { state := { state with jobs := state.jobs.insert id (schedule, spawning.actor) }
        workers := Function.update workers spawning.actor.getId (some worker)
        notices := []
        replies := [(reply, .started (.ok ()))]
        result := .ok () }
  | some _ =>
    { state, workers, notices := []
      replies := [(reply, .started
        (.error (.message "A job with the name \x7b\x7d already is scheduled")))]
      result := .ok () }

/-- `CronManager::stop` -/
def stop (workers : Workers S) (who : String) (state : CronManagerState S) : ManagerOutcome S :=
  match state.jobs.lookup who with
  | some actor =>
    { state := { state with jobs := state.jobs.erase who }
      workers := workers.stop actor.2 none
      notices := state.tell (.stopped who none)
      replies := []
      result := .ok () }
  | none => { state, workers, notices := [], replies := [], result := .ok () }

/-- `CronManager::set_schedule`. A failed cast is the handler's own error. -/
def setSchedule (workers : Workers S) (who : String) (schedule : S)
    (state : CronManagerState S) : ManagerOutcome S :=
  match state.jobs.lookup who with
  | some actor =>
    let state := { state with jobs := state.jobs.insert who (schedule, actor.2) }
    match workers.cast actor.2 (.updateSchedule schedule) with
    | .ok workers => { state, workers, notices := [], replies := [], result := .ok () }
    | .error err =>
      { state, workers, notices := [], replies := [], result := .error (.messaging err) }
  | none => { state, workers, notices := [], replies := [], result := .ok () }

/-- `CronManager::list_jobs` -/
def listJobs (workers : Workers S) (reply : RpcReplyPort) (state : CronManagerState S) :
    ManagerOutcome S :=
  let jobs := (state.jobs.entries.map fun job => ⟨job.1, job.2.1⟩).toAList
  { state, workers, notices := [], replies := [(reply, .jobs jobs)], result := .ok () }

/-- `CronManager::get_schedule` -/
def getSchedule (workers : Workers S) (who : String) (reply : RpcReplyPort)
    (state : CronManagerState S) : ManagerOutcome S :=
  let schedule := (state.jobs.lookup who).map (·.1)
  { state, workers, notices := [], replies := [(reply, .schedule schedule)], result := .ok () }

/-- `CronManager::subscribe` -/
def subscribe (workers : Workers S) (who : ActorId) (processor : Subscriber)
    (state : CronManagerState S) : ManagerOutcome S :=
  { state := { state with subs := state.subs.insert who processor }
    workers, notices := [], replies := [], result := .ok () }

/-- `CronManager::unsubscribe` -/
def unsubscribe (workers : Workers S) (who : ActorId) (state : CronManagerState S) :
    ManagerOutcome S :=
  { state := { state with subs := state.subs.erase who }
    workers, notices := [], replies := [], result := .ok () }

/-- The handler of each message. -/
def handle [Schedule S] (workers : Workers S) (spawning : Spawning)
    (state : CronManagerState S) : CronManagerMessage S → ManagerOutcome S
  | .listJobs reply => listJobs workers reply state
  | .getSchedule who reply => getSchedule workers who reply state
  | .setSchedule who schedule => setSchedule workers who schedule state
  | .start settings reply => start workers spawning settings reply state
  | .stop who => stop workers who state
  | .subscribe who processor => subscribe workers who processor state
  | .unsubscribe who => unsubscribe workers who state

/-- `CronManager::handle_supervisor_evt` -/
def handleSupervisorEvt (workers : Workers S) (evt : SupervisionEvent)
    (state : CronManagerState S) : ManagerOutcome S :=
  match evt with
  | .actorFailed who what =>
    match state.findJob who with
    | some name =>
      { state := { state with jobs := state.jobs.erase name }
        workers
        notices := state.tell (.failed name what)
        replies := []
        result := .ok () }
    | none => { state, workers, notices := [], replies := [], result := .ok () }
  | .actorTerminated who what =>
    -- just cleanup if it's still hanging around
    match state.findJob who with
    | some name =>
      { state := { state with jobs := state.jobs.erase name }
        workers
        notices := state.tell (.stopped name what)
        replies := []
        result := .ok () }
    | none => { state, workers, notices := [], replies := [], result := .ok () }
  | .actorStarted who =>
    match state.findJob who with
    | some name =>
      { state, workers, notices := state.tell (.started name), replies := [], result := .ok () }
    | none => { state, workers, notices := [], replies := [], result := .ok () }
  | _ => { state, workers, notices := [], replies := [], result := .ok () }

end CronManager

/-! ## Runs of the manager and its workers -/

/-- What the manager handles: a message or a supervision event. -/
inductive ManagerInput (S : Type)
  | msg (msg : CronManagerMessage S)
  | evt (evt : SupervisionEvent)

/-- A record of one handled input. -/
structure ManagerEntry (S : Type) where
  input : ManagerInput S
  /-- The identity a worker spawned by the handler got. -/
  spawning : Option Spawning
  /-- The manager's state before the input was handled. -/
  before : CronManagerState S
  notices : List (Subscriber × Notice)
  replies : List (RpcReplyPort × Reply S)

/-- The life of the manager. -/
inductive ManagerPhase (S : Type)
  | running (state : CronManagerState S)
  | stopped
  | failed (err : ActorProcessingErr)

/-- The manager, its workers and what is under way between them. -/
structure Manager (S : Type) where
  now : ℕ
  /-- The messages that wait for the manager. -/
  queue : List (CronManagerMessage S)
  /-- The supervision events that wait for it. -/
  supervision : List SupervisionEvent
  phase : ManagerPhase S
  /-- A stop was sent to the manager and not taken yet. -/
  stopping : Bool
  workers : Workers S
  /-- The workers whose task has begun and has posted `ActorStarted`. -/
  announced : List ActorId
  /-- The workers that have posted their exit event. -/
  reported : List ActorId
  /-- What the manager handled, newest first. No handler reads it. -/
  history : List (ManagerEntry S)

/-- The events of a run. -/
inductive ManagerEvent (S : Type)
  /-- A client sends a message. -/
  | post (msg : CronManagerMessage S)
  /-- The manager handles the next message. -/
  | handle (actor : ActorCell) (readings : Readings)
  /-- The manager handles the next supervision event. -/
  | supervise
  /-- A worker takes a step of its own, or is stopped or killed by a third party. -/
  | worker (id : ActorId) (e : WorkerEvent S)
  /-- The task of a worker begins and posts `ActorStarted`. -/
  | announce (id : ActorId)
  /-- A worker that has ended posts its exit event. -/
  | report (id : ActorId)
  /-- Time passes. -/
  | elapse (duration : ℕ)
  /-- `stop` is called on the manager. -/
  | stop
  /-- The manager takes a pending stop. -/
  | takeStop
  /-- `kill` is called on the manager. -/
  | kill

/-- A worker event that is a step of the worker, its timers or a third party. What the worker's
task does comes after the task has begun. -/
def WorkerEvent.enabled (announced : Bool) : WorkerEvent S → Bool
  -- only the manager sends the worker messages, and one clock serves all
  | .update _ => false
  | .elapse _ => false
  | .expire _ => true
  | .stop _ => true
  | _ => announced

namespace Manager

/-- A manager as it is spawned. -/
def spawn (now : ℕ) : Manager S where
  now := now
  queue := []
  supervision := []
  phase := .running CronManager.preStart
  stopping := false
  workers := fun _ => none
  announced := []
  reported := []
  history := []

/-- The end of the manager: its linked children are terminated. -/
def finish (s : Manager S) (phase : ManagerPhase S) : Manager S :=
  { s with
    queue := [], supervision := [], phase, workers := fun id => (s.workers id).map (·.kill) }

/-- Record what handling an input left behind. A handler's error fails the manager. -/
def after (s : Manager S) (input : ManagerInput S) (spawning : Option Spawning)
    (before : CronManagerState S) (out : ManagerOutcome S) : Manager S :=
  let s' : Manager S := { s with
    phase := .running out.state
    workers := out.workers
    history := ⟨input, spawning, before, out.notices, out.replies⟩ :: s.history }
  match out.result with
  | .ok () => s'
  | .error err => s'.finish (.failed err)

/-- Deliver a supervision event. -/
def deliver (s : Manager S) (evt : SupervisionEvent) : Manager S :=
  match s.phase with
  | .running _ => { s with supervision := s.supervision ++ [evt] }
  | _ => s

/-- The message that the manager handles next, with its state, if it is free to handle one. -/
def nextMsg (s : Manager S) : Option (CronManagerState S × CronManagerMessage S) :=
  match s.phase, s.stopping, s.supervision, s.queue with
  | .running state, false, [], msg :: _ => some (state, msg)
  | _, _, _, _ => none

variable [Schedule S]

/-- One step of the run. -/
def step (s : Manager S) : ManagerEvent S → Option (Manager S)
  | .post msg =>
    match s.phase with
    | .running _ => some { s with queue := s.queue ++ [msg] }
    | _ => some s
  | .handle actor readings =>
    match s.nextMsg, s.workers actor.getId with
    -- the identity that a spawned actor would get is fresh
    | some (state, msg), none =>
      let spawning : Spawning := ⟨s.now, actor, readings⟩
      some ({ s with queue := s.queue.tail }.after (.msg msg) (some spawning) state
        (CronManager.handle s.workers spawning state msg))
    | _, _ => none
  | .supervise =>
    match s.phase, s.stopping, s.supervision with
    | .running state, false, evt :: rest =>
      some ({ s with supervision := rest }.after (.evt evt) none state
        (CronManager.handleSupervisorEvt s.workers evt state))
    | _, _, _ => none
  | .worker id e =>
    if e.enabled (s.announced.contains id) then
      match s.workers id with
      | some w =>
        (w.step e).map fun w' => { s with workers := Function.update s.workers id (some w') }
      | none => none
    else none
  | .announce id =>
    match s.workers id with
    | some _ =>
      if s.announced.contains id then none
      else some ({ s with announced := id :: s.announced }.deliver (.actorStarted ⟨id⟩))
    | none => none
  | .report id =>
    match s.workers id with
    | some w =>
      match w.phase with
      | .ended exit =>
        if s.reported.contains id then none
        else some ({ s with reported := id :: s.reported }.deliver (exit.event ⟨id⟩))
      | _ => none
    | none => none
  | .elapse duration =>
    some { s with
      now := s.now + duration
      workers := fun id => (s.workers id).map fun w =>
        { w with myself := w.myself.elapse duration } }
  | .stop => some { s with stopping := true }
  | .takeStop =>
    match s.phase, s.stopping with
    | .running state, true =>
      some ({ s with workers := (CronManager.postStop s.workers state).1 }.finish .stopped)
    | _, _ => none
  | .kill =>
    match s.phase with
    | .running _ => some (s.finish .stopped)
    | _ => some s

end Manager

/-- The state after a list of events, from the moment a manager is spawned at 0. -/
def runManager [Schedule S] (es : List (ManagerEvent S)) : Option (Manager S) :=
  LabelledRun.exec Manager.step (Manager.spawn 0) es

/-- Everything that one step can do. -/
inductive Manager.StepCase [Schedule S] (s : Manager S) : ManagerEvent S → Manager S → Prop
  | post (msg : CronManagerMessage S) (state : CronManagerState S)
      (hphase : s.phase = .running state) :
      StepCase s (.post msg) { s with queue := s.queue ++ [msg] }
  | handle (actor : ActorCell) (readings : Readings) (state : CronManagerState S)
      (msg : CronManagerMessage S) (hnext : s.nextMsg = some (state, msg))
      (hfresh : s.workers actor.getId = none) :
      StepCase s (.handle actor readings)
        ({ s with queue := s.queue.tail }.after (.msg msg) (some ⟨s.now, actor, readings⟩) state
          (CronManager.handle s.workers ⟨s.now, actor, readings⟩ state msg))
  | supervise (state : CronManagerState S) (evt : SupervisionEvent)
      (rest : List SupervisionEvent) (hphase : s.phase = .running state)
      (hstop : s.stopping = false) (hsup : s.supervision = evt :: rest) :
      StepCase s .supervise
        ({ s with supervision := rest }.after (.evt evt) none state
          (CronManager.handleSupervisorEvt s.workers evt state))
  | worker (id : ActorId) (e : WorkerEvent S) (w w' : Worker S)
      (henabled : e.enabled (s.announced.contains id) = true) (hw : s.workers id = some w)
      (hstep : w.step e = some w') :
      StepCase s (.worker id e)
        { s with workers := Function.update s.workers id (some w') }
  | announce (id : ActorId) (w : Worker S) (hw : s.workers id = some w)
      (hnew : id ∉ s.announced) :
      StepCase s (.announce id)
        ({ s with announced := id :: s.announced }.deliver (.actorStarted ⟨id⟩))
  | report (id : ActorId) (w : Worker S) (exit : Exit) (hw : s.workers id = some w)
      (hended : w.phase = .ended exit) (hnew : id ∉ s.reported) :
      StepCase s (.report id)
        ({ s with reported := id :: s.reported }.deliver (exit.event ⟨id⟩))
  | elapse (duration : ℕ) :
      StepCase s (.elapse duration) { s with
        now := s.now + duration
        workers := fun id => (s.workers id).map fun w =>
          { w with myself := w.myself.elapse duration } }
  | stop : StepCase s .stop { s with stopping := true }
  | takeStop (state : CronManagerState S) (hphase : s.phase = .running state)
      (hstop : s.stopping = true) :
      StepCase s .takeStop
        ({ s with workers := (CronManager.postStop s.workers state).1 }.finish .stopped)
  | kill (state : CronManagerState S) (hphase : s.phase = .running state) :
      StepCase s .kill (s.finish .stopped)
  /-- A message or a kill meets a manager that has ended. -/
  | lost (e : ManagerEvent S) (hpost : e = .kill ∨ ∃ msg, e = .post msg)
      (hphase : ∀ state, s.phase ≠ .running state) : StepCase s e s

/-- **Step inversion.** -/
theorem Manager.step_cases [Schedule S] {s s' : Manager S} {e : ManagerEvent S}
    (h : s.step e = some s') : StepCase s e s' := by
  cases e with
  | post msg =>
    simp only [Manager.step] at h
    split at h <;> rw [Option.some.injEq] at h
    · rename_i state hphase
      exact h ▸ StepCase.post msg state hphase
    · rename_i hphase
      exact h ▸ StepCase.lost _ (Or.inr ⟨msg, rfl⟩) hphase
  | handle actor readings =>
    simp only [Manager.step] at h
    split at h
    · rename_i state msg hnext hfresh
      rw [Option.some.injEq] at h
      exact h ▸ StepCase.handle actor readings state msg hnext hfresh
    · cases h
  | supervise =>
    simp only [Manager.step] at h
    split at h
    · rename_i state evt rest hphase hstop hsup
      rw [Option.some.injEq] at h
      exact h ▸ StepCase.supervise state evt rest hphase hstop hsup
    · cases h
  | worker id e =>
    simp only [Manager.step] at h
    split at h
    · rename_i henabled
      split at h
      · rename_i w hw
        rw [Option.map_eq_some_iff] at h
        obtain ⟨w', hstep, rfl⟩ := h
        exact StepCase.worker id e w w' henabled hw hstep
      · cases h
    · cases h
  | announce id =>
    simp only [Manager.step, List.contains_eq_mem, decide_eq_true_eq] at h
    split at h
    · rename_i w hw
      split at h
      · cases h
      · rename_i hnew
        rw [Option.some.injEq] at h
        exact h ▸ StepCase.announce id w hw hnew
    · cases h
  | report id =>
    simp only [Manager.step, List.contains_eq_mem, decide_eq_true_eq] at h
    split at h
    · rename_i w hw
      split at h
      · rename_i exit hended
        split at h
        · cases h
        · rename_i hnew
          rw [Option.some.injEq] at h
          exact h ▸ StepCase.report id w exit hw hended hnew
      · cases h
    · cases h
  | elapse duration =>
    simp only [Manager.step, Option.some.injEq] at h
    exact h ▸ StepCase.elapse duration
  | stop =>
    simp only [Manager.step, Option.some.injEq] at h
    exact h ▸ StepCase.stop
  | takeStop =>
    simp only [Manager.step] at h
    split at h
    · rename_i state hphase hstop
      rw [Option.some.injEq] at h
      exact h ▸ StepCase.takeStop state hphase hstop
    · cases h
  | kill =>
    simp only [Manager.step] at h
    split at h <;> rw [Option.some.injEq] at h
    · rename_i state hphase
      exact h ▸ StepCase.kill state hphase
    · rename_i hphase
      exact h ▸ StepCase.lost _ (Or.inl rfl) hphase

end RactorActors.Time.Cron
