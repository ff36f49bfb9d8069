import RactorActors.Time.Cron.Correspondence

/-!
# What subscribers hear of one job

Subscribers are told from two places: the handler of `Stop`, and the handler of the supervision
events of the workers. A worker identifies one instance of a job (one successful `Start`), and
`ManagerEntry.concerns` says which handled inputs are about it.

* `Reporting`: the exit events under way say how their workers ended, and an instance that is in
  the map was reported as started only;
* `Departed`: an instance that has left the map is never reported again;
* `one_terminal_notice`: exactly one handled input ends the reports of an instance, and tells
  each subscriber once how it ended.
-/

namespace RactorActors.Time.Cron

open LabelledRun

variable {S : Type}

/-- The worker that a supervision event is about. -/
def workerOf : SupervisionEvent → Option ActorCell
  | .actorStarted who => some who
  | .actorTerminated who _ => some who
  | .actorFailed who _ => some who
  | _ => none

/-- What subscribers are told about the job `name` on an event of its worker. -/
def noticeOf (name : String) : SupervisionEvent → Option Notice
  | .actorStarted _ => some (.started name)
  | .actorTerminated _ reason => some (.stopped name reason)
  | .actorFailed _ what => some (.failed name what)
  | _ => none

/-- The handled input is about the instance of a job that the worker `id` runs: it stops that
job, or is an event of that worker. -/
def ManagerEntry.concerns (e : ManagerEntry S) (id : ActorId) : Bool :=
  match e.input with
  | .msg (.stop who) => (e.before.jobs.lookup who).any (·.2.getId = id)
  | .msg _ => false
  | .evt event => (workerOf event).any (·.getId = id)

/-! ## What the handlers tell -/

/-- A message that stops no job tells subscribers nothing. -/
theorem notices_eq_nil [Schedule S] (workers : Workers S) (spawning : Spawning)
    (state : CronManagerState S) (msg : CronManagerMessage S)
    (h : ∀ who, msg = .stop who → state.jobs.lookup who = none) :
    (CronManager.handle workers spawning state msg).notices = [] := by
  cases msg with
  | listJobs | getSchedule | subscribe | unsubscribe => rfl
  | setSchedule who schedule =>
    simp only [CronManager.handle, CronManager.setSchedule]
    split
    · split <;> rfl
    · rfl
  | start settings reply =>
    have hcase := start_cases workers spawning settings reply state
    simp only [CronManager.handle]
    generalize CronManager.start workers spawning settings reply state = out at hcase
    cases hcase <;> rfl
  | stop who => simp only [CronManager.handle, CronManager.stop, h who rfl]

/-- A stopped job is reported to every subscriber. -/
theorem notices_stop [Schedule S] (workers : Workers S) (spawning : Spawning)
    {state : CronManagerState S} {who : String} {job : S × ActorCell}
    (h : state.jobs.lookup who = some job) :
    (CronManager.handle workers spawning state (.stop who)).notices =
      state.tell (.stopped who none) ∧
    (CronManager.handle workers spawning state (.stop who)).state.jobs =
      state.jobs.erase who := by
  simp only [CronManager.handle, CronManager.stop, h, and_self]

/-- An event of a worker that no entry points to is not reported. -/
theorem notices_evt_eq_nil (workers : Workers S) (evt : SupervisionEvent)
    {state : CronManagerState S}
    (h : ∀ who, workerOf evt = some who → state.findJob who = none) :
    (CronManager.handleSupervisorEvt workers evt state).notices = [] := by
  cases evt with
  | actorStarted who | actorTerminated who reason | actorFailed who what =>
    simp only [CronManager.handleSupervisorEvt, h who rfl]
  | processGroupChanged | pidLifecycleEvent => rfl

/-- An event of a job's worker is reported to every subscriber. -/
theorem notices_evt (workers : Workers S) {evt : SupervisionEvent} {state : CronManagerState S}
    {who : ActorCell} {name : String} (hwho : workerOf evt = some who)
    (hname : state.findJob who = some name) :
    ∃ notice, noticeOf name evt = some notice ∧
      (CronManager.handleSupervisorEvt workers evt state).notices = state.tell notice := by
  cases evt with
  | actorStarted who' | actorTerminated who' reason | actorFailed who' what =>
    rw [workerOf, Option.some.injEq] at hwho
    subst hwho
    exact ⟨_, rfl, by simp only [CronManager.handleSupervisorEvt, hname]⟩
  | processGroupChanged | pidLifecycleEvent => cases hwho

/-- The job of a worker is found, as no other job has the same worker. -/
theorem findJob_of_lookup {state : CronManagerState S}
    (hdistinct : ∀ name name' job job', state.jobs.lookup name = some job →
      state.jobs.lookup name' = some job' → job.2 = job'.2 → name = name')
    {name : String} {job : S × ActorCell} (hjob : state.jobs.lookup name = some job) :
    state.findJob job.2 = some name := by
  cases hfind : state.findJob job.2 with
  | none => exact absurd rfl (findJob_eq_none hfind hjob)
  | some name' =>
    obtain ⟨job', hjob', hid⟩ := findJob_eq_some hfind
    rw [hdistinct name' name job' job hjob' hjob (ActorCell.getId_injective hid)]

/-- The distinct workers of a running manager's registry. -/
theorem Registry.distinct_lookup {s : Manager S} (hreg : Registry s)
    {state : CronManagerState S} (hphase : s.phase = .running state) :
    ∀ name name' job job', state.jobs.lookup name = some job →
      state.jobs.lookup name' = some job' → job.2 = job'.2 → name = name' := by
  intro name name' job job' hjob hjob'
  rw [← Manager.job_of_running hphase] at hjob hjob'
  exact hreg.distinct name name' job job' hjob hjob'

/-! ## A worker ends once -/

theorem phase_stop (w : Worker S) (reason : Option String) : (w.stop reason).phase = w.phase := by
  unfold Worker.stop
  split <;> rfl

theorem phase_kill {w : Worker S} {exit : Exit} (h : w.phase = .ended exit) :
    w.kill.phase = .ended exit := by
  have hended : w.isEnded = true := by rw [Worker.isEnded, h]
  rw [Worker.kill, if_pos hended, h]

/-- The exit of a worker does not change any more. -/
theorem phase_of_workerStep [Schedule S] {w w' : Worker S} {e : WorkerEvent S}
    (h : w.step e = some w') {exit : Exit} (hended : w.phase = .ended exit) :
    w'.phase = .ended exit := by
  have halive : w.isEnded = true := by rw [Worker.isEnded, hended]
  cases step_cases h with
  | lost | late | lapse | elapse => exact hended
  | update _ hno | fire _ _ hno _ | kill hno =>
    rw [halive] at hno
    cases hno
  | execute _ _ hidle | updated _ _ _ hidle | takeStop _ hidle =>
    rw [hended] at hidle
    cases hidle
  | worked _ _ hworking | panic _ hworking =>
    rw [hended] at hworking
    cases hworking
  | stop reason => rw [phase_stop, hended]

/-- The worker `id` has ended with `exit`. -/
def Workers.Exited (workers : Workers S) (id : ActorId) (exit : Exit) : Prop :=
  ∃ w, workers id = some w ∧ w.phase = .ended exit

/-- Ending all workers changes no exit. -/
theorem Workers.Exited.kill {workers : Workers S} {id : ActorId} {exit : Exit}
    (h : workers.Exited id exit) :
    Workers.Exited (fun id => (workers id).map (·.kill)) id exit := by
  obtain ⟨w, hw, hended⟩ := h
  exact ⟨w.kill, by simp only [hw, Option.map_some], phase_kill hended⟩

theorem Workers.Exited.stop {workers : Workers S} {id : ActorId} {exit : Exit}
    (h : workers.Exited id exit) (actor : ActorCell) (reason : Option String) :
    (workers.stop actor reason).Exited id exit := by
  obtain ⟨w, hw, hended⟩ := h
  unfold Workers.stop
  by_cases hid : id = actor.getId
  · subst hid
    exact ⟨w.stop reason, by rw [Function.update_self, hw, Option.map_some],
      (phase_stop w reason).trans hended⟩
  · exact ⟨w, by rw [Function.update_of_ne hid, hw], hended⟩

/-- Replacing another worker. -/
theorem Workers.Exited.update_ne {workers : Workers S} {id id' : ActorId} {exit : Exit}
    (h : workers.Exited id exit) (hne : id ≠ id') (w' : Option (Worker S)) :
    Workers.Exited (Function.update workers id' w') id exit := by
  obtain ⟨w, hw, hended⟩ := h
  exact ⟨w, by rw [Function.update_of_ne hne, hw], hended⟩

/-- Handling a message changes no exit. -/
theorem HandleCase.exited {workers : Workers S} {spawning : Spawning}
    {state : CronManagerState S} {msg : CronManagerMessage S} {out : ManagerOutcome S}
    (h : HandleCase workers spawning state msg out)
    (hfresh : workers spawning.actor.getId = none) {id : ActorId} {exit : Exit}
    (hexited : workers.Exited id exit) : out.workers.Exited id exit := by
  cases h with
  | quiet _ _ _ hworkers => exact hworkers ▸ hexited
  | failed _ _ _ _ _ _ _ hworkers => exact hworkers ▸ hexited
  | stopped _ job _ _ _ hworkers => exact hworkers ▸ hexited.stop job.2 none
  | started settings reply worker _ _ _ _ hworkers =>
    refine hworkers ▸ hexited.update_ne ?_ _
    -- the new identity is no worker's yet
    rintro rfl
    obtain ⟨w, hw, -⟩ := hexited
    rw [hfresh] at hw
    cases hw
  | updated _ _ job w _ _ hw halive _ hworkers =>
    refine hworkers ▸ hexited.update_ne ?_ _
    rintro rfl
    obtain ⟨w', hw', hended⟩ := hexited
    rw [hw, Option.some.injEq] at hw'
    rw [hw', Worker.isEnded, hended] at halive
    cases halive

/-- **Exits of a step.** No step changes how a worker has ended. -/
theorem exited_of_step [Schedule S] {s s' : Manager S} {e : ManagerEvent S}
    (h : s.step e = some s') {id : ActorId} {exit : Exit} (hexited : s.workers.Exited id exit) :
    s'.workers.Exited id exit := by
  cases Manager.step_cases h with
  | post | stop | lost => exact hexited
  | announce | report => exact (deliver_workers _ _).symm ▸ hexited
  | elapse duration =>
    obtain ⟨w, hw, hended⟩ := hexited
    exact ⟨{ w with myself := w.myself.elapse duration }, by simp only [hw, Option.map_some],
      hended⟩
  | kill => exact hexited.kill
  | takeStop state =>
    refine Workers.Exited.kill ?_
    simp only [CronManager.postStop]
    generalize state.jobs.entries = actors
    generalize s.workers = workers at hexited
    -- every worker of the map is told to stop, one after the other
    induction actors generalizing workers with
    | nil => exact hexited
    | cons actor actors ih => exact ih _ (hexited.stop actor.2.2 none)
  | worker id' e' w w' _ hw hstep =>
    by_cases hid : id = id'
    · subst hid
      obtain ⟨w₀, hw₀, hended⟩ := hexited
      rw [hw, Option.some.injEq] at hw₀
      subst hw₀
      exact ⟨w', Function.update_self .., phase_of_workerStep hstep hended⟩
    · exact hexited.update_ne hid _
  | supervise state evt rest =>
    obtain ⟨hok, hworkers, -⟩ := handleSupervisorEvt_cases s.workers evt state
    rw [after_of_ok hok]
    exact hworkers.symm ▸ hexited
  | handle actor readings state msg _ hfresh =>
    have hout := (handle_cases s.workers ⟨s.now, actor, readings⟩ state msg).exited hfresh hexited
    rcases hres : (CronManager.handle s.workers ⟨s.now, actor, readings⟩ state msg).result
      with err | _
    · rw [(after_of_error hres).2.2]
      exact hout.kill
    · rw [after_of_ok hres]
      exact hout

/-! ## The reports of an instance -/

/-- A handled message concerns an instance only if it stops its job. -/
theorem concerns_msg {e : ManagerEntry S} {msg : CronManagerMessage S} (hmsg : e.input = .msg msg)
    {id : ActorId} (h : e.concerns id = true) :
    ∃ who job, msg = .stop who ∧ e.before.jobs.lookup who = some job ∧ job.2.getId = id := by
  unfold ManagerEntry.concerns at h
  rw [hmsg] at h
  cases msg with
  | stop who =>
    simp only [Option.any_eq_true, decide_eq_true_eq] at h
    obtain ⟨job, hjob, hid⟩ := h
    exact ⟨who, job, rfl, hjob, hid⟩
  | _ => cases h

/-- A handled event concerns the instance of its worker. -/
theorem concerns_evt {e : ManagerEntry S} {evt : SupervisionEvent} (hevt : e.input = .evt evt)
    {id : ActorId} : e.concerns id = true ↔ workerOf evt = some ⟨id⟩ := by
  unfold ManagerEntry.concerns
  rw [hevt]
  simp only [Option.any_eq_true, decide_eq_true_eq]
  constructor
  · rintro ⟨who, hwho, rfl⟩
    exact hwho
  · intro hwho
    exact ⟨⟨id⟩, hwho, rfl⟩

/-- An exit event is an event of its worker. -/
theorem workerOf_of_ended {evt : SupervisionEvent} {id : ActorId} (h : evt.ended = some id) :
    workerOf evt = some ⟨id⟩ := by
  cases evt with
  | actorTerminated who reason | actorFailed who what =>
    rw [SupervisionEvent.ended, Option.some.injEq] at h
    exact congrArg some (ActorCell.getId_injective h)
  | actorStarted | processGroupChanged | pidLifecycleEvent => cases h

/-- An event of a worker reports its start or its end. -/
theorem started_or_ended {evt : SupervisionEvent} {who : ActorCell}
    (h : workerOf evt = some who) : evt = .actorStarted who ∨ evt.ended = some who.getId := by
  cases evt with
  | actorStarted who' =>
    rw [workerOf, Option.some.injEq] at h
    exact Or.inl (by rw [h])
  | actorTerminated who' reason | actorFailed who' what =>
    rw [workerOf, Option.some.injEq] at h
    exact Or.inr (by rw [SupervisionEvent.ended, h])
  | processGroupChanged | pidLifecycleEvent => cases h

/-- What the manager has heard and told of the instances. -/
structure Reporting (s : Manager S) : Prop where
  /-- The events that wait are of workers that were spawned. -/
  subjects : ∀ evt ∈ s.supervision, ∀ who, workerOf evt = some who →
    ∃ w, s.workers who.getId = some w
  /-- The exit events that wait say how their workers ended. -/
  exits : ∀ evt ∈ s.supervision, ∀ id, evt.ended = some id →
    ∃ exit, s.workers.Exited id exit ∧ evt = exit.event ⟨id⟩
  /-- What was handled is about workers that were spawned. -/
  known : ∀ e ∈ s.history, ∀ id, e.concerns id = true → ∃ w, s.workers id = some w
  /-- Of an instance in the map no more was handled than its start. -/
  started : ∀ name job, s.job name = some job → ∀ e ∈ s.history,
    e.concerns job.2.getId = true →
      e.input = .evt (.actorStarted job.2) ∧ e.notices = e.before.tell (.started name)

/-- The entry of a new input about an instance that stays in the map: its start. -/
theorem started_of_step [Schedule S] {s s' : Manager S} {e : ManagerEvent S} (hreg : Registry s)
    (h : s.step e = some s') {name : String} {job : S × ActorCell}
    (hjob : s'.job name = some job) {e₀ : ManagerEntry S} (he₀ : s'.history = e₀ :: s.history)
    (hconcerns : e₀.concerns job.2.getId = true) :
    e₀.input = .evt (.actorStarted job.2) ∧ e₀.notices = e₀.before.tell (.started name) := by
  have hjob' := job_of_step h hjob
  cases history_cases h with
  | none hsame =>
    rw [hsame] at he₀
    exact absurd he₀.symm (List.cons_ne_self _ _)
  | msg actor readings state msg he hnext hfresh hs' =>
    rw [hs', history_after, List.cons.injEq] at he₀
    obtain ⟨who, job₁, rfl, hlookup, hid⟩ := concerns_msg (by rw [← he₀.1]) hconcerns
    have hphase := (running_of_nextMsg hnext).1
    rw [← he₀.1] at hlookup
    rcases hjob' with ⟨job₂, hold, hsame⟩ | ⟨-, -, -, _, state', settings, reply, _, hstart, -⟩
    · -- a stopped job is not in the map any more
      have hwho : who = name := by
        refine hreg.distinct_lookup hphase who name job₁ job₂ hlookup ?_ ?_
        · rw [← Manager.job_of_running hphase, hold]
        · rw [hsame]
          exact ActorCell.getId_injective hid
      subst hwho
      rw [hs', job_after_of_ok (by simp only [CronManager.handle, CronManager.stop, hlookup]),
        (notices_stop s.workers _ hlookup).2, AList.lookup_erase] at hjob
      cases hjob
    · rw [hnext, Option.some.injEq, Prod.mk.injEq] at hstart
      cases hstart.2
  | evt state evt rest he hphase hsup hs' =>
    rw [hs', history_after, List.cons.injEq] at he₀
    have hwho := (concerns_evt (by rw [← he₀.1])).mp hconcerns
    have hcell : (⟨job.2.getId⟩ : ActorCell) = job.2 := rfl
    rw [hcell] at hwho
    rcases hjob' with ⟨job₂, hold, hsame⟩ | ⟨-, -, -, _, _, _, _, hhandle, -⟩
    · rcases started_or_ended hwho with rfl | hended
      · -- the event finds the entry, and the start is told
        rw [Manager.job_of_running hphase] at hold
        have hfind := findJob_of_lookup (hreg.distinct_lookup hphase) hold
        rw [hsame] at hfind
        obtain ⟨notice, hnotice, htold⟩ := notices_evt s.workers hwho hfind
        rw [noticeOf, Option.some.injEq] at hnotice
        rw [← he₀.1]
        exact ⟨rfl, by rw [htold, hnotice]⟩
      · rw [hs', job_after_of_ok (handleSupervisorEvt_cases s.workers evt state).1] at hjob
        exact absurd rfl (no_entry_after_exit s.workers hended (hreg.distinct_lookup hphase) hjob)
    · rw [he] at hhandle
      cases hhandle

/-- A step adds at most one entry to the history. -/
theorem history_of_step [Schedule S] {s s' : Manager S} {e : ManagerEvent S}
    (h : s.step e = some s') :
    s'.history = s.history ∨ ∃ e₀, s'.history = e₀ :: s.history := by
  cases history_cases h with
  | none hsame => exact Or.inl hsame
  | msg actor readings state msg _ _ _ hs' => exact Or.inr ⟨_, by rw [hs', history_after]⟩
  | evt state evt rest _ _ _ hs' => exact Or.inr ⟨_, by rw [hs', history_after]⟩

/-- **Step lemma.** Every step keeps the reports in order. -/
theorem Reporting.step [Schedule S] {s s' : Manager S} {e : ManagerEvent S} (hreg : Registry s)
    (hs : Reporting s) (h : s.step e = some s') : Reporting s' := by
  have hext := workers_extends_of_step h
  have hknown : ∀ id, (∃ w, s.workers id = some w) → ∃ w, s'.workers id = some w := by
    rintro id ⟨w, hw⟩
    obtain ⟨w', hw', -⟩ := hext id w hw
    exact ⟨w', hw'⟩
  refine ⟨?_, ?_, ?_, ?_⟩
  · intro evt hevt who hwho
    rcases supervision_of_step h hevt with
      hold | ⟨id, w, hw, rfl⟩ | ⟨id, w, exit, hw, hended, rfl⟩
    · exact hknown _ (hs.subjects evt hold who hwho)
    · rw [workerOf, Option.some.injEq] at hwho
      subst hwho
      exact hknown id ⟨w, hw⟩
    · rw [workerOf_of_ended (ended_event exit ⟨id⟩), Option.some.injEq] at hwho
      subst hwho
      exact hknown id ⟨w, hw⟩
  · intro evt hevt id hid
    rcases supervision_of_step h hevt with
      hold | ⟨id', w, hw, rfl⟩ | ⟨id', w, exit, hw, hended, rfl⟩
    · obtain ⟨exit, hexited, heq⟩ := hs.exits evt hold id hid
      exact ⟨exit, exited_of_step h hexited, heq⟩
    · cases hid
    · rw [ended_event, Option.some.injEq] at hid
      subst hid
      exact ⟨exit, exited_of_step h ⟨w, hw, hended⟩, rfl⟩
  · intro e₀ he₀ id hconcerns
    cases history_cases h with
    | none hsame => exact hknown id (hs.known e₀ (hsame ▸ he₀) id hconcerns)
    | msg actor readings state msg _ hnext _ hs' =>
      rw [hs', history_after] at he₀
      rcases List.mem_cons.mp he₀ with rfl | hold
      · -- the job that is stopped was in the map
        obtain ⟨who, job, -, hlookup, rfl⟩ := concerns_msg rfl hconcerns
        refine hknown _ (hreg.known who job ?_)
        rw [Manager.job_of_running (running_of_nextMsg hnext).1]
        exact hlookup
      · exact hknown id (hs.known e₀ hold id hconcerns)
    | evt state evt rest _ _ hsup hs' =>
      rw [hs', history_after] at he₀
      rcases List.mem_cons.mp he₀ with rfl | hold
      · exact hknown id (hs.subjects evt (by simp [hsup]) ⟨id⟩ ((concerns_evt rfl).mp hconcerns))
      · exact hknown id (hs.known e₀ hold id hconcerns)
  · intro name job hjob e₀ he₀ hconcerns
    have hnew (hfirst : s'.history = e₀ :: s.history) :=
      started_of_step hreg h hjob hfirst hconcerns
    have hold (hmem : e₀ ∈ s.history) :
        e₀.input = .evt (.actorStarted job.2) ∧
          e₀.notices = e₀.before.tell (.started name) := by
      rcases job_of_step h hjob with ⟨job', hjob', hsame⟩ | ⟨-, hfresh, -, -⟩
      · rw [← hsame] at hconcerns ⊢
        exact hs.started name job' hjob' e₀ hmem hconcerns
      · -- a new instance has no past
        obtain ⟨w, hw⟩ := hs.known e₀ hmem _ hconcerns
        rw [hfresh] at hw
        cases hw
    rcases history_of_step h with hsame | ⟨e₁, he₁⟩
    · exact hold (hsame ▸ he₀)
    · rw [he₁] at he₀
      rcases List.mem_cons.mp he₀ with rfl | hmem
      · exact hnew he₁
      · exact hold hmem

/-- The reports of a run. -/
theorem reporting_of_run [Schedule S] {es : List (ManagerEvent S)} {s : Manager S}
    (h : runManager es = some s) : Reporting s := by
  refine (run_true_iff.mpr h).invariant_of (P := Registry) (Q := Reporting) (registry_spawn 0)
    (fun _ _ _ hreg hstep => hreg.step hstep) ⟨?_, ?_, ?_, ?_⟩ ?_
  · intro evt hevt
    cases hevt
  · intro evt hevt
    cases hevt
  · intro e he
    cases he
  · intro name job _ e he
    cases he
  · intro s e s' hreg hs _ hstep
    exact hs.step hreg hstep

/-! ## The end of an instance -/

/-- How an instance leaves the map: the input that removed it, and what subscribers are told. -/
inductive LeaveCase (s : Manager S) (name : String) (actor : ActorCell) :
    ManagerInput S → Notice → Prop
  | stopped : LeaveCase s name actor (.msg (.stop name)) (.stopped name none)
  | failed (what : ActorProcessingErr)
      (hexited : s.workers.Exited actor.getId (.failed what)) :
      LeaveCase s name actor (.evt (.actorFailed actor what)) (.failed name what)
  | exited (reason : Option String)
      (hexited : s.workers.Exited actor.getId (.terminated reason)) :
      LeaveCase s name actor (.evt (.actorTerminated actor reason)) (.stopped name reason)

/-- **How an instance leaves.** The input that removes it is recorded with one notice to each
subscriber. -/
theorem leave_of_step [Schedule S] {s s' : Manager S} {e : ManagerEvent S}
    {state state' : CronManagerState S} (hreg : Registry s) (hs : Reporting s)
    (hphase : s.phase = .running state) {name : String} {job : S × ActorCell}
    (hjob : state.jobs.lookup name = some job) (h : s.step e = some s')
    (hrunning : s'.phase = .running state')
    (hleft : ∀ name' job', s'.job name' = some job' → job'.2 ≠ job.2) :
    ∃ e₀ notice, s'.history = e₀ :: s.history ∧ LeaveCase s name job.2 e₀.input notice ∧
      e₀.notices = state.tell notice := by
  -- the entry is gone, whatever its schedule
  have hgone {job' : S × ActorCell} (hjob' : s'.job name = some job')
      (hsame : job'.2 = job.2) : False := hleft name job' hjob' hsame
  have hjob₀ : s.job name = some job := by rw [Manager.job_of_running hphase, hjob]
  cases Manager.step_cases h with
  | post | worker | elapse | stop => exact (hgone hjob₀ rfl).elim
  | announce | report => exact (hgone (by rw [job_deliver]; exact hjob₀) rfl).elim
  | takeStop | kill => cases hrunning
  | lost e hpost hended => exact absurd hphase (hended state)
  | handle actor readings state₀ msg hnext hfresh =>
    have hsame := (running_of_nextMsg hnext).1
    rw [hphase, ManagerPhase.running.injEq] at hsame
    subst hsame
    have hcase := handle_cases s.workers ⟨s.now, actor, readings⟩ state msg
    have hstop : ∀ who job₁, msg = .stop who → state.jobs.lookup who = some job₁ →
        (CronManager.handle s.workers ⟨s.now, actor, readings⟩ state msg).notices =
          state.tell (.stopped who none) := by
      rintro who job₁ rfl hlookup
      exact (notices_stop s.workers _ hlookup).1
    generalize CronManager.handle s.workers ⟨s.now, actor, readings⟩ state msg = out
      at hcase hgone hstop hrunning ⊢
    cases hcase with
    | quiet _ _ hjobs _ hok =>
      exact (hgone (by rw [job_after_of_ok hok, hjobs, hjob]) rfl).elim
    | started settings reply worker _ _ hvacant hjobs _ hok =>
      have hname : name ≠ settings.job.id := by
        rintro rfl
        rw [hjob] at hvacant
        cases hvacant
      exact (hgone (by rw [job_after_of_ok hok, hjobs, AList.lookup_insert_ne hname, hjob])
        rfl).elim
    | stopped who job₁ _ hlookup hjobs _ hok =>
      by_cases hname : name = who
      · subst hname
        exact ⟨_, _, history_after _ _ _ _ _, .stopped, hstop name job₁ rfl hlookup⟩
      · exact (hgone (by rw [job_after_of_ok hok, hjobs, AList.lookup_erase_ne hname, hjob])
          rfl).elim
    | updated who schedule job₁ w _ hlookup _ _ hjobs _ hok =>
      -- the schedule is new, the worker is not
      by_cases hname : name = who
      · subst hname
        rw [hjob, Option.some.injEq] at hlookup
        exact (hgone (by rw [job_after_of_ok hok, hjobs, AList.lookup_insert])
          (by rw [hlookup])).elim
      · exact (hgone (by rw [job_after_of_ok hok, hjobs, AList.lookup_insert_ne hname, hjob])
          rfl).elim
    | failed who schedule job₁ err _ _ _ _ herr =>
      rw [(after_of_error herr).1] at hrunning
      cases hrunning
  | supervise state₀ evt rest hphase₀ _ hsup =>
    rw [hphase, ManagerPhase.running.injEq] at hphase₀
    subst hphase₀
    obtain ⟨hok, -, hjobs⟩ := handleSupervisorEvt_cases s.workers evt state
    rcases hjobs with hsame | ⟨name', job', hended, hlookup, herase⟩
    · exact (hgone (by rw [job_after_of_ok hok, hsame, hjob]) rfl).elim
    · by_cases hname : name = name'
      · subst hname
        rw [hjob, Option.some.injEq] at hlookup
        subst hlookup
        -- the event is the one its worker has posted when it ended
        obtain ⟨exit, hexited, rfl⟩ := hs.exits evt (by simp [hsup]) _ hended
        have hwho := workerOf_of_ended hended
        have hfind := findJob_of_lookup (hreg.distinct_lookup hphase) hjob
        obtain ⟨notice, hnotice, htold⟩ := notices_evt s.workers hwho hfind
        refine ⟨_, notice, history_after _ _ _ _ _, ?_, htold⟩
        cases exit with
        | terminated reason =>
          rw [Exit.event, noticeOf, Option.some.injEq] at hnotice
          exact hnotice ▸ .exited reason hexited
        | failed what =>
          rw [Exit.event, noticeOf, Option.some.injEq] at hnotice
          exact hnotice ▸ .failed what hexited
      · exact (hgone (by rw [job_after_of_ok hok, herase, AList.lookup_erase_ne hname, hjob])
          rfl).elim

/-- The instance of the worker `id` is not in the map any more. -/
structure Departed (id : ActorId) (s : Manager S) : Prop where
  known : ∃ w, s.workers id = some w
  absent : ∀ name job, s.job name = some job → job.2.getId ≠ id

/-- An instance that has left does not come back. -/
theorem Departed.step [Schedule S] {s s' : Manager S} {e : ManagerEvent S} {id : ActorId}
    (hs : Departed id s) (h : s.step e = some s') : Departed id s' := by
  obtain ⟨w, hw⟩ := hs.known
  obtain ⟨w', hw', -⟩ := workers_extends_of_step h id w hw
  refine ⟨⟨w', hw'⟩, fun name job hjob heq => ?_⟩
  rcases job_of_step h hjob with ⟨job', hold, hsame⟩ | ⟨-, hfresh, -, -⟩
  · exact hs.absent name job' hold (by rw [hsame, heq])
  · rw [heq, hw] at hfresh
    cases hfresh

/-- An instance that has left is not reported. -/
theorem Departed.silent [Schedule S] {s s' : Manager S} {e : ManagerEvent S} {id : ActorId}
    (hs : Departed id s) (h : s.step e = some s') {e₀ : ManagerEntry S}
    (he₀ : s'.history = e₀ :: s.history) (hconcerns : e₀.concerns id = true) :
    e₀.notices = [] := by
  cases history_cases h with
  | none hsame =>
    rw [hsame] at he₀
    exact absurd he₀.symm (List.cons_ne_self _ _)
  | msg actor readings state msg _ hnext _ hs' =>
    rw [hs', history_after, List.cons.injEq] at he₀
    -- only a job that is in the map can be stopped
    obtain ⟨who, job, -, hlookup, hid⟩ := concerns_msg (by rw [← he₀.1]) hconcerns
    rw [← he₀.1, ← Manager.job_of_running (running_of_nextMsg hnext).1] at hlookup
    exact absurd hid (hs.absent who job hlookup)
  | evt state evt rest _ hphase _ hs' =>
    rw [hs', history_after, List.cons.injEq] at he₀
    have hwho := (concerns_evt (by rw [← he₀.1])).mp hconcerns
    rw [← he₀.1]
    refine notices_evt_eq_nil s.workers evt fun who hwho' => ?_
    rw [hwho, Option.some.injEq] at hwho'
    subst hwho'
    cases hfind : state.findJob ⟨id⟩ with
    | none => rfl
    | some name =>
      obtain ⟨job, hjob, hid⟩ := findJob_eq_some hfind
      rw [← Manager.job_of_running hphase] at hjob
      exact absurd hid (hs.absent name job hjob)

/-- **Run lemma.** No later input makes the manager report an instance that has left. -/
theorem Departed.run [Schedule S] {s s' : Manager S} {es : List (ManagerEvent S)} {id : ActorId}
    (hs : Departed id s) (h : exec Manager.step s es = some s') :
    ∃ newer, s'.history = newer ++ s.history ∧
      ∀ e₀ ∈ newer, e₀.concerns id = true → e₀.notices = [] := by
  have hall : Departed id s' ∧ ∃ newer, s'.history = newer ++ s.history ∧
      ∀ e₀ ∈ newer, e₀.concerns id = true → e₀.notices = [] := by
    refine exec_invariant (P := fun t => Departed id t ∧ ∃ newer,
      t.history = newer ++ s.history ∧ ∀ e₀ ∈ newer, e₀.concerns id = true → e₀.notices = [])
      h ⟨hs, [], rfl, by simp⟩ ?_
    rintro t e t' ⟨ht, newer, hnewer, hsilent⟩ hstep
    refine ⟨ht.step hstep, ?_⟩
    rcases history_of_step hstep with hsame | ⟨e₁, he₁⟩
    · exact ⟨newer, hsame.trans hnewer, hsilent⟩
    · refine ⟨e₁ :: newer, by rw [he₁, hnewer, List.cons_append], fun e₀ he₀ hconcerns => ?_⟩
      rcases List.mem_cons.mp he₀ with rfl | hold
      · exact ht.silent hstep he₁ hconcerns
      · exact hsilent e₀ hold hconcerns
  exact hall.2

/-- Subscribers are told nothing that no instance caused. -/
theorem caused_of_step [Schedule S] {s s' : Manager S} {e : ManagerEvent S}
    (h : s.step e = some s') {e₀ : ManagerEntry S} (he₀ : s'.history = e₀ :: s.history)
    (htold : e₀.notices ≠ []) : ∃ id, e₀.concerns id = true := by
  cases history_cases h with
  | none hsame =>
    rw [hsame] at he₀
    exact absurd he₀.symm (List.cons_ne_self _ _)
  | msg actor readings state msg _ _ _ hs' =>
    rw [hs', history_after, List.cons.injEq] at he₀
    rw [← he₀.1] at htold ⊢
    by_cases hstop : ∀ who, msg = .stop who → state.jobs.lookup who = none
    · exact absurd (notices_eq_nil s.workers _ state msg hstop) htold
    · simp only [not_forall] at hstop
      obtain ⟨who, rfl, hlookup⟩ := hstop
      obtain ⟨job, hjob⟩ := Option.ne_none_iff_exists'.mp hlookup
      exact ⟨job.2.getId, by simp [ManagerEntry.concerns, hjob]⟩
  | evt state evt rest _ _ _ hs' =>
    rw [hs', history_after, List.cons.injEq] at he₀
    rw [← he₀.1] at htold ⊢
    cases hwho : workerOf evt with
    | none =>
      refine absurd (notices_evt_eq_nil s.workers evt fun who hwho' => ?_) htold
      rw [hwho] at hwho'
      cases hwho'
    | some who => exact ⟨who.getId, (concerns_evt rfl).mpr hwho⟩

/-- Each time subscribers were told something, one instance caused it. -/
def Manager.Caused (s : Manager S) : Prop :=
  ∀ e₀ ∈ s.history, e₀.notices ≠ [] → ∃! id, e₀.concerns id = true

/-- Every step keeps the causes in order. -/
theorem Manager.Caused.step [Schedule S] {s s' : Manager S} {e : ManagerEvent S}
    (hs : s.Caused) (hstep : s.step e = some s') : s'.Caused := by
  intro e₀ he₀ htold
  rcases history_of_step hstep with hsame | ⟨e₁, he₁⟩
  · exact hs e₀ (hsame ▸ he₀) htold
  · rw [he₁] at he₀
    rcases List.mem_cons.mp he₀ with rfl | hold
    · obtain ⟨id, hid⟩ := caused_of_step hstep he₁ htold
      refine ⟨id, hid, fun id' hid' => ?_⟩
      -- an input names one job or one worker
      cases hin : e₀.input with
      | msg msg =>
        obtain ⟨who, job, hmsg, hjob, rfl⟩ := concerns_msg hin hid
        obtain ⟨who', job', hmsg', hjob', rfl⟩ := concerns_msg hin hid'
        rw [hmsg, CronManagerMessage.stop.injEq] at hmsg'
        subst hmsg'
        rw [hjob, Option.some.injEq] at hjob'
        rw [hjob']
      | evt evt =>
        have hwho := (concerns_evt hin).mp hid
        have hwho' := (concerns_evt hin).mp hid'
        rw [hwho, Option.some.injEq, ActorCell.mk.injEq] at hwho'
        exact hwho'.symm
    · exact hs e₀ hold htold

/-- **One terminal notice.** When an instance of a job leaves the map of a running manager, the
input that removes it tells each subscriber of that moment once how it ended: `stopped` without
a reason on a `Stop`, `failed` if its worker failed, `stopped` with the worker's reason if it
exited. Before, subscribers were told no more of the instance than that it started; afterwards
nothing, whatever is handled. And all they are told is caused by one instance each time. -/
theorem one_terminal_notice [Schedule S] {es es' : List (ManagerEvent S)} {e : ManagerEvent S}
    {s s' s'' : Manager S} {state state' : CronManagerState S} {name : String}
    {job : S × ActorCell} (h : runManager es = some s) (hphase : s.phase = .running state)
    (hjob : state.jobs.lookup name = some job) (hstep : s.step e = some s')
    (hrunning : s'.phase = .running state')
    (hleft : ∀ name' job', s'.job name' = some job' → job'.2 ≠ job.2)
    (hlater : exec Manager.step s' es' = some s'') :
    ∃ e₀ notice newer, s'.history = e₀ :: s.history ∧
      LeaveCase s name job.2 e₀.input notice ∧
      e₀.notices = state.subs.entries.map (fun sub => (sub.2, notice)) ∧
      (∀ e₁ ∈ s.history, e₁.concerns job.2.getId = true →
        e₁.notices = e₁.before.subs.entries.map fun sub => (sub.2, .started name)) ∧
      s''.history = newer ++ s'.history ∧
      (∀ e₁ ∈ newer, e₁.concerns job.2.getId = true → e₁.notices = []) ∧
      ∀ e₁ ∈ s''.history, e₁.notices ≠ [] → ∃! id, e₁.concerns id = true := by
  have hreg := registry_of_run h
  have hreporting := reporting_of_run h
  have hjob₀ : s.job name = some job := by rw [Manager.job_of_running hphase, hjob]
  obtain ⟨e₀, notice, he₀, hleave, htold⟩ :=
    leave_of_step hreg hreporting hphase hjob hstep hrunning hleft
  have hdeparted : Departed job.2.getId s' := by
    obtain ⟨w, hw⟩ := hreg.known name job hjob₀
    obtain ⟨w', hw', -⟩ := workers_extends_of_step hstep _ w hw
    exact ⟨⟨w', hw'⟩, fun name' job' hjob' heq =>
      hleft name' job' hjob' (ActorCell.getId_injective heq)⟩
  obtain ⟨newer, hnewer, hsilent⟩ := hdeparted.run hlater
  have hcaused : s.Caused :=
    exec_invariant (P := Manager.Caused) h (fun _ he₁ => absurd he₁ List.not_mem_nil)
      fun _ _ _ hs hstep => hs.step hstep
  have hcaused'' : s''.Caused :=
    exec_invariant hlater (hcaused.step hstep) fun _ _ _ hs hstep => hs.step hstep
  exact ⟨e₀, notice, newer, he₀, hleave, htold,
    fun e₁ he₁ hc => (hreporting.started name job hjob₀ e₁ he₁ hc).2, hnewer, hsilent,
    hcaused''⟩

/-- The names in the map of a running manager. -/
def Manager.jobNames (s : Manager S) : Option (List String) :=
  match s.phase with
  | .running state => some state.jobs.keys
  | _ => none

theorem running_of_jobNames {s : Manager S} (h : s.jobNames = some []) :
    ∃ state, s.phase = .running state ∧ ∀ name, s.job name = none := by
  unfold Manager.jobNames at h
  split at h
  · rename_i state hphase
    rw [Option.some.injEq] at h
    refine ⟨state, hphase, fun name => ?_⟩
    rw [Manager.job_of_running hphase, AList.lookup_eq_none, AList.mem_keys, h]
    exact List.not_mem_nil
  · cases h

/-- A job with a subscriber panics while a `Stop` of it waits. -/
def panicBeforeStop : List (ManagerEvent Every) :=
  [.post (.subscribe (.loc 9) ⟨7⟩), .handle ⟨.loc 1⟩ ⟨0, 0⟩,
    .post (.start { schedule := ⟨10⟩, job := ⟨"ten"⟩ } ⟨0⟩), .handle ⟨.loc 1⟩ ⟨0, 0⟩,
    .announce (.loc 1), .supervise, .elapse 10, .worker (.loc 1) (.expire 0),
    .worker (.loc 1) (.handle ⟨10, 10⟩), .post (.stop "ten"),
    .worker (.loc 1) (.panic (.message "Boom!")), .report (.loc 1)]

/-- The failure is reported, and neither the late `Stop` nor a new job of the same name makes
the manager report the first instance again. -/
theorem one_terminal_notice_panic :
    ∃ s s' s'' e₀ newer, runManager panicBeforeStop = some s ∧ s.step .supervise = some s' ∧
      exec Manager.step s' [.handle ⟨.loc 2⟩ ⟨0, 0⟩,
        .post (.start { schedule := ⟨20⟩, job := ⟨"ten"⟩ } ⟨1⟩), .handle ⟨.loc 2⟩ ⟨0, 0⟩,
        .announce (.loc 2), .supervise] = some s'' ∧
      s'.history = e₀ :: s.history ∧
      e₀.notices = [(⟨7⟩, .failed "ten" (.message "Boom!"))] ∧
      s''.history = newer ++ s'.history ∧
      ∀ e₁ ∈ newer, e₁.concerns (.loc 1) = true → e₁.notices = [] := by
  let es : List (ManagerEvent Every) :=
    [.handle ⟨.loc 2⟩ ⟨0, 0⟩, .post (.start { schedule := ⟨20⟩, job := ⟨"ten"⟩ } ⟨1⟩),
      .handle ⟨.loc 2⟩ ⟨0, 0⟩, .announce (.loc 2), .supervise]
  obtain ⟨s, hs, hpost⟩ := (Option.any_eq_true _ _).mp
    (show (runManager panicBeforeStop).any (fun s =>
      decide (s.job "ten" = some (⟨10⟩, ⟨.loc 1⟩)) && (s.step .supervise).any fun s' =>
        decide (s'.jobNames = some []) &&
          (decide (s'.history.head?.map (·.notices) =
            some [(⟨7⟩, .failed "ten" (.message "Boom!"))]) &&
              (exec Manager.step s' es).isSome)) = true by decide)
  rw [Bool.and_eq_true, decide_eq_true_eq] at hpost
  obtain ⟨hjob, hnext⟩ := hpost
  obtain ⟨s', hs', hpost'⟩ := (Option.any_eq_true _ _).mp hnext
  rw [Bool.and_eq_true, Bool.and_eq_true, decide_eq_true_eq, decide_eq_true_eq] at hpost'
  obtain ⟨hnames, hnotices, hmore⟩ := hpost'
  obtain ⟨s'', hs''⟩ := Option.isSome_iff_exists.mp hmore
  obtain ⟨state, hphase, hlookup⟩ := running_of_job hjob
  obtain ⟨state', hphase', hempty⟩ := running_of_jobNames hnames
  obtain ⟨e₀, notice, newer, he₀, -, -, -, hnewer, hsilent, -⟩ :=
    one_terminal_notice hs hphase hlookup hs' hphase' (fun name job hjob' => by
      rw [hempty] at hjob'
      cases hjob') hs''
  rw [he₀, List.head?_cons, Option.map_some, Option.some.injEq] at hnotices
  exact ⟨s, s', s'', e₀, newer, hs, hs', hs'', he₀, hnotices, hnewer, hsilent⟩

end RactorActors.Time.Cron
