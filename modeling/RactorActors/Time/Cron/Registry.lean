import RactorActors.Foundations.AssociationList
import RactorActors.Time.Cron.Manager

/-!
# The manager's map of jobs

What the manager's `jobs` say about the workers, in every reachable state.

* `HandleCase` and `EventCase`: what handling a message or a supervision event does to the map
  and to the workers;
* `Registry`: every entry points to a worker that was spawned, distinct names point to distinct
  workers, and the exit events under way are those of workers that have ended;
* `registry_of_run`: the invariant holds at the end of every run.
-/

namespace RactorActors.Time.Cron

open AssociationList LabelledRun

variable {S : Type}

/-- The entry of a job in the manager's map, while the manager runs. -/
def Manager.job (s : Manager S) (name : String) : Option (S × ActorCell) :=
  match s.phase with
  | .running state => state.jobs.lookup name
  | _ => none

theorem Manager.job_of_running {s : Manager S} {state : CronManagerState S}
    (h : s.phase = .running state) (name : String) : s.job name = state.jobs.lookup name := by
  rw [Manager.job, h]

/-! ## What the handlers do -/

/-- What handling a message can do to the map of jobs and to the workers. -/
inductive HandleCase (workers : Workers S) (spawning : Spawning) (state : CronManagerState S) :
    CronManagerMessage S → ManagerOutcome S → Prop
  /-- The map and the workers stay as they are. -/
  | quiet (msg : CronManagerMessage S) (out : ManagerOutcome S)
      (hjobs : out.state.jobs = state.jobs) (hworkers : out.workers = workers)
      (hok : out.result = .ok ()) (habsent : ∀ who schedule, msg = .setSchedule who schedule →
        state.jobs.lookup who = none) : HandleCase workers spawning state msg out
  /-- A worker is spawned and entered under its job's name. -/
  | started (settings : CronSettings S) (reply : RpcReplyPort) (worker : Worker S)
      (out : ManagerOutcome S) (hidle : worker.isEnded = false)
      (hvacant : state.jobs.lookup settings.job.id = none)
      (hjobs : out.state.jobs =
        state.jobs.insert settings.job.id (settings.schedule, spawning.actor))
      (hworkers : out.workers =
        Function.update workers spawning.actor.getId (some worker))
      (hok : out.result = .ok ()) :
      HandleCase workers spawning state (.start settings reply) out
  /-- A worker is told to stop and its entry is removed. -/
  | stopped (who : String) (job : S × ActorCell) (out : ManagerOutcome S)
      (hlookup : state.jobs.lookup who = some job)
      (hjobs : out.state.jobs = state.jobs.erase who)
      (hworkers : out.workers = workers.stop job.2 none) (hok : out.result = .ok ()) :
      HandleCase workers spawning state (.stop who) out
  /-- A new schedule is entered and sent to the worker. -/
  | updated (who : String) (schedule : S) (job : S × ActorCell) (w : Worker S)
      (out : ManagerOutcome S) (hlookup : state.jobs.lookup who = some job)
      (hw : workers job.2.getId = some w) (halive : w.isEnded = false)
      (hjobs : out.state.jobs = state.jobs.insert who (schedule, job.2))
      (hworkers : out.workers = Function.update workers job.2.getId
        (some { w with myself := w.myself.post (.updateSchedule schedule) }))
      (hok : out.result = .ok ()) :
      HandleCase workers spawning state (.setSchedule who schedule) out
  /-- A new schedule cannot be sent to the worker. -/
  | failed (who : String) (schedule : S) (job : S × ActorCell) (err : MessagingErr)
      (out : ManagerOutcome S) (hlookup : state.jobs.lookup who = some job)
      (hclosed : ∀ w, workers job.2.getId = some w → w.isEnded = true)
      (hworkers : out.workers = workers) (herr : out.result = .error (.messaging err)) :
      HandleCase workers spawning state (.setSchedule who schedule) out

/-- A worker that was spawned has not ended. -/
theorem isEnded_of_spawn [Schedule S] {now : ℕ} {settings : CronSettings S} {r : Readings}
    {w : Worker S} (h : Worker.spawn now settings r = .ok w) : w.isEnded = false := by
  unfold Worker.spawn at h
  split at h
  · rw [Except.ok.injEq] at h
    rw [← h, Worker.isEnded]
  · cases h

/-- **What the handlers do.** -/
theorem handle_cases [Schedule S] (workers : Workers S) (spawning : Spawning)
    (state : CronManagerState S) (msg : CronManagerMessage S) :
    HandleCase workers spawning state msg (CronManager.handle workers spawning state msg) := by
  cases msg with
  | listJobs reply => exact HandleCase.quiet _ _ rfl rfl rfl (by simp)
  | getSchedule who reply => exact HandleCase.quiet _ _ rfl rfl rfl (by simp)
  | subscribe who processor => exact HandleCase.quiet _ _ rfl rfl rfl (by simp)
  | unsubscribe who => exact HandleCase.quiet _ _ rfl rfl rfl (by simp)
  | setSchedule who schedule =>
    simp only [CronManager.handle, CronManager.setSchedule]
    -- what becomes of the cast decides
    split
    · rename_i job hlookup
      cases hw : workers job.2.getId with
      | none =>
        simp only [Workers.cast, hw]
        exact HandleCase.failed who schedule job _ _ hlookup (by simp [hw]) rfl rfl
      | some w =>
        cases hended : w.isEnded with
        | true =>
          simp only [Workers.cast, Worker.cast, hw, hended, if_true]
          refine HandleCase.failed who schedule job _ _ hlookup ?_ rfl rfl
          intro w' hw'
          rw [hw, Option.some.injEq] at hw'
          rw [← hw', hended]
        | false =>
          simp only [Workers.cast, Worker.cast, hw, hended, Bool.false_eq_true, if_false]
          exact HandleCase.updated who schedule job w _ hlookup hw hended rfl rfl rfl
    · rename_i hnone
      refine HandleCase.quiet _ _ rfl rfl rfl ?_
      intro who' schedule' heq
      cases heq
      exact hnone
  | start settings reply =>
    simp only [CronManager.handle, CronManager.start]
    split
    · rename_i hvacant
      split
      · exact HandleCase.quiet _ _ rfl rfl rfl (by simp)
      · -- `pre_start` of the worker succeeded
        rename_i worker hspawn
        exact HandleCase.started settings reply worker _ (isEnded_of_spawn hspawn) hvacant rfl
          rfl rfl
    · exact HandleCase.quiet _ _ rfl rfl rfl (by simp)
  | stop who =>
    simp only [CronManager.handle, CronManager.stop]
    split
    · rename_i job hlookup
      exact HandleCase.stopped who job _ hlookup rfl rfl rfl
    · exact HandleCase.quiet _ _ rfl rfl rfl (by simp)

/-- The job that `findJob` gives is run by the worker it was asked for. -/
theorem findJob_eq_some {state : CronManagerState S} {who : ActorCell} {name : String}
    (h : state.findJob who = some name) :
    ∃ job, state.jobs.lookup name = some job ∧ job.2.getId = who.getId := by
  unfold CronManagerState.findJob at h
  rw [Option.map_eq_some_iff] at h
  obtain ⟨v, hv, rfl⟩ := h
  -- an entry that is found is a lookup, as no name occurs twice
  refine ⟨v.2, ?_, by simpa using List.find?_some hv⟩
  exact AList.mem_lookup_iff.mpr (List.mem_of_find?_eq_some hv)

/-- **What the handler of supervision events does.** It returns `Ok`, leaves the workers alone,
and removes at most the entry of the worker whose end the event reports. -/
theorem handleSupervisorEvt_cases (workers : Workers S) (evt : SupervisionEvent)
    (state : CronManagerState S) :
    (CronManager.handleSupervisorEvt workers evt state).result = .ok () ∧
    (CronManager.handleSupervisorEvt workers evt state).workers = workers ∧
    ((CronManager.handleSupervisorEvt workers evt state).state.jobs = state.jobs ∨
      ∃ name job, evt.ended = some job.2.getId ∧ state.jobs.lookup name = some job ∧
        (CronManager.handleSupervisorEvt workers evt state).state.jobs =
          state.jobs.erase name) := by
  cases evt with
  | actorFailed who what =>
    simp only [CronManager.handleSupervisorEvt]
    split
    · rename_i name hname
      obtain ⟨job, hjob, hid⟩ := findJob_eq_some hname
      exact ⟨rfl, rfl, Or.inr ⟨name, job, by rw [SupervisionEvent.ended, hid], hjob, rfl⟩⟩
    · exact ⟨rfl, rfl, Or.inl rfl⟩
  | actorTerminated who what =>
    simp only [CronManager.handleSupervisorEvt]
    split
    · rename_i name hname
      obtain ⟨job, hjob, hid⟩ := findJob_eq_some hname
      exact ⟨rfl, rfl, Or.inr ⟨name, job, by rw [SupervisionEvent.ended, hid], hjob, rfl⟩⟩
    · exact ⟨rfl, rfl, Or.inl rfl⟩
  -- subscribers are told, and nothing else
  | actorStarted who =>
    simp only [CronManager.handleSupervisorEvt]
    split <;> exact ⟨rfl, rfl, Or.inl rfl⟩
  | processGroupChanged => exact ⟨rfl, rfl, Or.inl rfl⟩
  | pidLifecycleEvent => exact ⟨rfl, rfl, Or.inl rfl⟩

/-- A handler that returns `Ok` leaves the manager running. -/
theorem after_of_ok {s : Manager S} {input : ManagerInput S} {spawning : Option Spawning}
    {before : CronManagerState S} {out : ManagerOutcome S} (h : out.result = .ok ()) :
    s.after input spawning before out = { s with
      phase := .running out.state
      workers := out.workers
      history := ⟨input, spawning, before, out.notices, out.replies⟩ :: s.history } := by
  unfold Manager.after
  rw [h]

/-- A handler that returns an error ends the manager and its workers. -/
theorem after_of_error {s : Manager S} {input : ManagerInput S} {spawning : Option Spawning}
    {before : CronManagerState S} {out : ManagerOutcome S} {err : ActorProcessingErr}
    (h : out.result = .error err) :
    (s.after input spawning before out).phase = .failed err ∧
    (s.after input spawning before out).supervision = [] ∧
    (s.after input spawning before out).workers =
      fun id => (out.workers id).map (·.kill) := by
  unfold Manager.after
  rw [h]
  exact ⟨rfl, rfl, rfl⟩

/-! ## Workers stay known, and an ended one stays ended -/

/-- Every worker of `workers` is one of `workers'`, ended there if it was ended before. -/
def Workers.Extends (workers workers' : Workers S) : Prop :=
  ∀ id w, workers id = some w →
    ∃ w', workers' id = some w' ∧ (w.isEnded = true → w'.isEnded = true)

namespace Workers.Extends

theorem refl (workers : Workers S) : workers.Extends workers :=
  fun _ w hw => ⟨w, hw, id⟩

theorem trans {ws ws' ws'' : Workers S} (h : ws.Extends ws') (h' : ws'.Extends ws'') :
    ws.Extends ws'' := by
  intro id w hw
  obtain ⟨w', hw', hend⟩ := h id w hw
  obtain ⟨w'', hw'', hend'⟩ := h' id w' hw'
  exact ⟨w'', hw'', fun he => hend' (hend he)⟩

/-- Replacing a worker by a later state of it, or adding one. -/
theorem update {workers : Workers S} {id : ActorId} {w' : Worker S}
    (h : ∀ w, workers id = some w → w.isEnded = true → w'.isEnded = true) :
    workers.Extends (Function.update workers id (some w')) := by
  intro id' w hw
  by_cases hid : id' = id
  · subst hid
    exact ⟨w', Function.update_self .., h w hw⟩
  · exact ⟨w, by rw [Function.update_of_ne hid, hw], fun he => he⟩

/-- Doing to all workers what ends no worker's end. -/
theorem map {workers : Workers S} {f : Worker S → Worker S}
    (h : ∀ w, w.isEnded = true → (f w).isEnded = true) :
    workers.Extends fun id => (workers id).map f := by
  intro id w hw
  exact ⟨f w, by simp only [hw, Option.map_some], h w⟩

end Workers.Extends

@[simp]
theorem Worker.isEnded_stop (w : Worker S) (reason : Option String) :
    (w.stop reason).isEnded = w.isEnded := by
  unfold Worker.stop
  split <;> rfl

@[simp]
theorem Worker.isEnded_kill (w : Worker S) : w.kill.isEnded = true := by
  unfold Worker.kill
  split
  · assumption
  · rfl

/-- Stopping one worker. -/
theorem Workers.stop_extends (workers : Workers S) (actor : ActorCell)
    (reason : Option String) : workers.Extends (workers.stop actor reason) := by
  intro id w hw
  unfold Workers.stop
  by_cases hid : id = actor.getId
  · subst hid
    exact ⟨w.stop reason, by rw [Function.update_self, hw, Option.map_some], by simp⟩
  · exact ⟨w, by rw [Function.update_of_ne hid, hw], fun he => he⟩

/-- Stopping the worker of every job. -/
theorem postStop_extends (workers : Workers S) (state : CronManagerState S) :
    workers.Extends (CronManager.postStop workers state).1 := by
  unfold CronManager.postStop
  generalize state.jobs.entries = actors
  induction actors generalizing workers with
  | nil => exact Workers.Extends.refl workers
  | cons actor actors ih =>
    rw [List.foldl_cons]
    exact (workers.stop_extends actor.2.2 none).trans (ih _)

/-- A worker that has ended does not come back. -/
theorem isEnded_of_step [Schedule S] {w w' : Worker S} {e : WorkerEvent S}
    (h : w.step e = some w') (hended : w.isEnded = true) : w'.isEnded = true := by
  -- a step of the actor's own needs an actor that lives
  have hphase (phase : Phase) (hp : w.phase = phase) (hlive : ∀ exit, phase ≠ .ended exit) :
      False := by
    unfold Worker.isEnded at hended
    rw [hp] at hended
    cases phase with
    | ended exit => exact hlive exit rfl
    | idle | working => cases hended
  cases step_cases h with
  | lost | late => exact hended
  | update _ halive | fire _ _ halive _ | kill halive =>
    rw [hended] at halive
    cases halive
  | execute r origin hidle | updated r newSchedule origin hidle | takeStop reason hidle =>
    exact (hphase .idle hidle (by simp)).elim
  | worked result r hworking => exact (hphase .working hworking (by simp)).elim
  | panic what hworking => rfl
  | lapse handle _ => exact hended
  | elapse duration => exact hended
  | stop reason => rw [Worker.isEnded_stop, hended]

/-- The workers that a handled message leaves. -/
theorem HandleCase.extends {workers : Workers S} {spawning : Spawning}
    {state : CronManagerState S} {msg : CronManagerMessage S} {out : ManagerOutcome S}
    (h : HandleCase workers spawning state msg out)
    (hfresh : workers spawning.actor.getId = none) : workers.Extends out.workers := by
  cases h with
  | quiet _ _ _ hworkers =>
    rw [hworkers]
    exact Workers.Extends.refl workers
  | started settings reply worker _ hidle _ _ hworkers =>
    rw [hworkers]
    -- a new worker replaces none
    refine Workers.Extends.update fun w hw => ?_
    rw [hfresh] at hw
    cases hw
  | stopped who job _ _ _ hworkers => rw [hworkers]; exact workers.stop_extends job.2 none
  | updated who schedule job w _ _ hw _ _ hworkers =>
    rw [hworkers]
    refine Workers.Extends.update fun w' hw' hended => ?_
    rw [hw, Option.some.injEq] at hw'
    rw [← hw'] at hended
    exact hended
  | failed who schedule job err _ _ _ hworkers =>
    rw [hworkers]
    exact Workers.Extends.refl workers

/-- A handled input extends the workers as its handler did, also if the handler fails. -/
theorem after_extends {s : Manager S} {input : ManagerInput S} {spawning : Option Spawning}
    {before : CronManagerState S} {out : ManagerOutcome S} {workers : Workers S}
    (h : workers.Extends out.workers) :
    workers.Extends (s.after input spawning before out).workers := by
  rcases hres : out.result with err | _
  · rw [(after_of_error hres).2.2]
    exact h.trans (Workers.Extends.map fun w _ => w.isEnded_kill)
  · rw [after_of_ok hres]
    exact h

@[simp]
theorem deliver_workers (s : Manager S) (evt : SupervisionEvent) :
    (s.deliver evt).workers = s.workers := by
  unfold Manager.deliver
  split <;> rfl

/-- **Workers of a step.** No step loses a worker or brings one back. -/
theorem workers_extends_of_step [Schedule S] {s s' : Manager S} {e : ManagerEvent S}
    (h : s.step e = some s') : s.workers.Extends s'.workers := by
  cases Manager.step_cases h with
  | post | stop | lost => exact Workers.Extends.refl _
  | handle actor readings state msg _ hfresh =>
    exact after_extends ((handle_cases s.workers _ state msg).extends hfresh)
  | supervise state evt rest =>
    refine after_extends ?_
    rw [(handleSupervisorEvt_cases s.workers evt state).2.1]
    exact Workers.Extends.refl _
  | worker id e w w' _ hw hstep =>
    refine Workers.Extends.update fun w₁ hw₁ hended => ?_
    rw [hw, Option.some.injEq] at hw₁
    exact isEnded_of_step hstep (hw₁ ▸ hended)
  | announce id | report id =>
    rw [deliver_workers]
    exact Workers.Extends.refl _
  | elapse duration => exact Workers.Extends.map fun w hended => hended
  | takeStop state =>
    exact (postStop_extends s.workers state).trans (Workers.Extends.map fun w _ => w.isEnded_kill)
  | kill => exact Workers.Extends.map fun w _ => w.isEnded_kill

/-! ## The entries of the map -/

/-- The step handles a `Start` of the job `name` and would give its worker the identity
`actor`. -/
def Manager.Starts (s : Manager S) (e : ManagerEvent S) (name : String) (actor : ActorCell) :
    Prop :=
  ∃ readings state settings reply, e = .handle actor readings ∧
    s.nextMsg = some (state, .start settings reply) ∧ name = settings.job.id

/-- A manager that is free to handle a message is running. -/
theorem running_of_nextMsg {s : Manager S} {state : CronManagerState S}
    {msg : CronManagerMessage S} (h : s.nextMsg = some (state, msg)) :
    s.phase = .running state ∧ s.stopping = false ∧ s.supervision = [] := by
  unfold Manager.nextMsg at h
  split at h
  · rename_i state' msg' rest hphase hstop hsup hqueue
    rw [Option.some.injEq, Prod.mk.injEq] at h
    exact ⟨h.1 ▸ hphase, hstop, hsup⟩
  · cases h

@[simp]
theorem job_deliver (s : Manager S) (evt : SupervisionEvent) (name : String) :
    (s.deliver evt).job name = s.job name := by
  unfold Manager.deliver
  split <;> rfl

/-- The map after a handled input, if the handler succeeded. -/
theorem job_after_of_ok {s : Manager S} {input : ManagerInput S} {spawning : Option Spawning}
    {before : CronManagerState S} {out : ManagerOutcome S} (h : out.result = .ok ())
    (name : String) :
    (s.after input spawning before out).job name = out.state.jobs.lookup name := by
  rw [after_of_ok h]
  rfl

/-- **Entries of a step.** An entry of the map was there before with the same worker, or was
made in this step by a `Start`, under a name that was vacant and for a new worker. -/
theorem job_of_step [Schedule S] {s s' : Manager S} {e : ManagerEvent S}
    (h : s.step e = some s') {name : String} {job : S × ActorCell}
    (hjob : s'.job name = some job) :
    (∃ job', s.job name = some job' ∧ job'.2 = job.2) ∨
      (s.job name = none ∧ s.workers job.2.getId = none ∧
        (∃ w, s'.workers job.2.getId = some w) ∧ s.Starts e name job.2) := by
  cases Manager.step_cases h with
  | post | stop | lost | worker | elapse => exact Or.inl ⟨job, hjob, rfl⟩
  | announce | report =>
    rw [job_deliver] at hjob
    exact Or.inl ⟨job, hjob, rfl⟩
  -- a manager that has ended has no jobs
  | takeStop | kill => cases hjob
  | supervise state evt rest hphase =>
    obtain ⟨hok, -, hjobs⟩ := handleSupervisorEvt_cases s.workers evt state
    rw [job_after_of_ok hok] at hjob
    rw [Manager.job_of_running hphase]
    rcases hjobs with hsame | ⟨name', job', -, -, herase⟩
    · rw [hsame] at hjob
      exact Or.inl ⟨job, hjob, rfl⟩
    · rw [herase] at hjob
      exact Or.inl ⟨job, (of_lookup_erase hjob).2, rfl⟩
  | handle actor readings state msg hnext hfresh =>
    obtain ⟨hphase, -, -⟩ := running_of_nextMsg hnext
    rw [Manager.job_of_running hphase]
    have hcase := handle_cases s.workers ⟨s.now, actor, readings⟩ state msg
    generalize CronManager.handle s.workers ⟨s.now, actor, readings⟩ state msg = out
      at hcase hjob ⊢
    cases hcase with
    | quiet _ _ hjobs _ hok =>
      rw [job_after_of_ok hok, hjobs] at hjob
      exact Or.inl ⟨job, hjob, rfl⟩
    | started settings reply worker _ _ hvacant hjobs hworkers hok =>
      rw [job_after_of_ok hok, hjobs] at hjob
      rcases of_lookup_insert hjob with ⟨rfl, rfl⟩ | ⟨-, hold⟩
      · -- the entry was made in this step
        refine Or.inr ⟨hvacant, hfresh, ⟨worker, ?_⟩,
          readings, state, settings, reply, rfl, hnext, rfl⟩
        rw [after_of_ok hok]
        simp only [hworkers]
        exact Function.update_self ..
      · exact Or.inl ⟨job, hold, rfl⟩
    | stopped who job' _ _ hjobs _ hok =>
      rw [job_after_of_ok hok, hjobs] at hjob
      exact Or.inl ⟨job, (of_lookup_erase hjob).2, rfl⟩
    | updated who schedule job' w _ hlookup _ _ hjobs _ hok =>
      rw [job_after_of_ok hok, hjobs] at hjob
      rcases of_lookup_insert hjob with ⟨rfl, rfl⟩ | ⟨-, hold⟩
      · -- the schedule is new, the worker is not
        exact Or.inl ⟨job', hlookup, rfl⟩
      · exact Or.inl ⟨job, hold, rfl⟩
    | failed who schedule job' err _ _ _ _ herr =>
      rw [Manager.job, (after_of_error herr).1] at hjob
      cases hjob

/-! ## The invariant -/

/-- The map of jobs is a registry of workers. -/
structure Registry (s : Manager S) : Prop where
  /-- Every entry points to a worker that was spawned. -/
  known : ∀ name job, s.job name = some job → ∃ w, s.workers job.2.getId = some w
  /-- Distinct names point to distinct workers. -/
  distinct : ∀ name name' job job', s.job name = some job → s.job name' = some job' →
    job.2 = job'.2 → name = name'
  /-- The exit events that wait are of workers that have ended. -/
  ended : ∀ evt ∈ s.supervision, ∀ id, evt.ended = some id →
    ∃ w, s.workers id = some w ∧ w.isEnded = true

/-- A handled input leaves the supervision events it found, or none if the handler failed. -/
theorem supervision_after (s : Manager S) (input : ManagerInput S) (spawning : Option Spawning)
    (before : CronManagerState S) (out : ManagerOutcome S) :
    (s.after input spawning before out).supervision = s.supervision ∨
      (s.after input spawning before out).supervision = [] := by
  rcases hres : out.result with err | _
  · exact Or.inr (after_of_error hres).2.1
  · exact Or.inl (by rw [after_of_ok hres])

/-- The supervision events after one more was delivered. -/
theorem mem_supervision_deliver {s : Manager S} {evt evt' : SupervisionEvent}
    (h : evt' ∈ (s.deliver evt).supervision) : evt' ∈ s.supervision ∨ evt' = evt := by
  unfold Manager.deliver at h
  split at h
  · simpa using h
  · exact Or.inl h

/-- **Supervision events of a step.** An event that waits after a step waited before, or reports
the start of a worker, or was posted by a worker that has ended. -/
theorem supervision_of_step [Schedule S] {s s' : Manager S} {e : ManagerEvent S}
    (h : s.step e = some s') {evt : SupervisionEvent} (hevt : evt ∈ s'.supervision) :
    evt ∈ s.supervision ∨ (∃ id w, s.workers id = some w ∧ evt = .actorStarted ⟨id⟩) ∨
      ∃ id w exit, s.workers id = some w ∧ w.phase = .ended exit ∧ evt = exit.event ⟨id⟩ := by
  cases Manager.step_cases h with
  | post | stop | lost | worker | elapse => exact Or.inl hevt
  | takeStop | kill => cases hevt
  | handle actor readings state msg =>
    rcases supervision_after { s with queue := s.queue.tail } (.msg msg)
      (some ⟨s.now, actor, readings⟩) state
      (CronManager.handle s.workers ⟨s.now, actor, readings⟩ state msg) with heq | heq
    · exact Or.inl (heq ▸ hevt)
    · rw [heq] at hevt
      cases hevt
  | supervise state evt' rest _ _ hsup =>
    rcases supervision_after { s with supervision := rest } (.evt evt') none state
      (CronManager.handleSupervisorEvt s.workers evt' state) with heq | heq
    · rw [heq] at hevt
      exact Or.inl (hsup ▸ List.mem_cons_of_mem _ hevt)
    · rw [heq] at hevt
      cases hevt
  | announce id w hw =>
    rcases mem_supervision_deliver hevt with hold | rfl
    · exact Or.inl hold
    · exact Or.inr (Or.inl ⟨id, w, hw, rfl⟩)
  | report id w exit hw hended =>
    rcases mem_supervision_deliver hevt with hold | rfl
    · exact Or.inl hold
    · exact Or.inr (Or.inr ⟨id, w, exit, hw, hended, rfl⟩)

/-- **Step lemma.** Every step keeps the registry. -/
theorem Registry.step [Schedule S] {s s' : Manager S} {e : ManagerEvent S} (hs : Registry s)
    (h : s.step e = some s') : Registry s' := by
  have hext := workers_extends_of_step h
  refine ⟨?_, ?_, ?_⟩
  · intro name job hjob
    rcases job_of_step h hjob with ⟨job', hold, hsame⟩ | ⟨-, -, hnew, -⟩
    · obtain ⟨w, hw⟩ := hs.known name job' hold
      obtain ⟨w', hw', -⟩ := hext _ w hw
      exact ⟨w', hsame ▸ hw'⟩
    · exact hnew
  · intro name name' job job' hjob hjob' hsame
    rcases job_of_step h hjob with ⟨old, hold, hone⟩ | ⟨-, hfresh, -, hstart⟩
    · rcases job_of_step h hjob' with ⟨old', hold', hone'⟩ | ⟨-, hfresh', -, -⟩
      · exact hs.distinct name name' old old' hold hold' (by rw [hone, hone', hsame])
      · -- an entry that was there points to no new worker
        obtain ⟨w, hw⟩ := hs.known name old hold
        rw [hone, hsame, hfresh'] at hw
        cases hw
    · rcases job_of_step h hjob' with ⟨old', hold', hone'⟩ | ⟨-, -, -, hstart'⟩
      · obtain ⟨w, hw⟩ := hs.known name' old' hold'
        rw [hone', ← hsame, hfresh] at hw
        cases hw
      · -- one step handles one `Start`
        obtain ⟨_, state, settings, reply, -, hnext, rfl⟩ := hstart
        obtain ⟨_, state', settings', reply', -, hnext', rfl⟩ := hstart'
        rw [hnext, Option.some.injEq, Prod.mk.injEq, CronManagerMessage.start.injEq] at hnext'
        rw [hnext'.2.1]
  · intro evt hevt id hid
    rcases supervision_of_step h hevt with
      hold | ⟨id', w, hw, rfl⟩ | ⟨id', w, exit, hw, hended, rfl⟩
    · obtain ⟨w, hw, hended⟩ := hs.ended evt hold id hid
      obtain ⟨w', hw', hended'⟩ := hext id w hw
      exact ⟨w', hw', hended' hended⟩
    · cases hid
    · rw [ended_event, Option.some.injEq] at hid
      obtain ⟨w', hw', hended'⟩ := hext id' w hw
      have hid' : id' = id := hid
      exact ⟨w', hid' ▸ hw', hended' (by rw [Worker.isEnded, hended])⟩

/-- A manager that was just spawned has no job and no worker. -/
theorem registry_spawn (now : ℕ) : Registry (Manager.spawn now : Manager S) := by
  have hnone (name : String) : (Manager.spawn now : Manager S).job name = none := rfl
  refine ⟨?_, ?_, ?_⟩
  · intro name job hjob
    rw [hnone] at hjob
    cases hjob
  · intro name name' job job' hjob
    rw [hnone] at hjob
    cases hjob
  · intro evt hevt
    cases hevt

/-- **The registry of a run.** -/
theorem registry_of_run [Schedule S] {es : List (ManagerEvent S)} {s : Manager S}
    (h : runManager es = some s) : Registry s :=
  exec_invariant h (registry_spawn 0) fun _ _ _ hs hstep => hs.step hstep

end RactorActors.Time.Cron
