import RactorActors.Time.Cron.Survival

/-!
# The manager's map and the live workers

The map of jobs is changed by three message handlers, which find a job by its name, and by two
supervision events, which find it by its worker. In every reachable state it lists exactly the
workers it should.

* `StartCase`: what handling a `Start` does, with its one reply;
* `Worker.isLive`: neither ended nor told to stop;
* `Listed`: every live worker is in the map under its job's name, and no worker is whose exit
  event was handled;
* `registry_matches_live_workers`: the correspondence of a run.
-/

namespace RactorActors.Time.Cron

open AssociationList LabelledRun

variable {S : Type}

/-- The worker has neither ended nor been told to stop. -/
def Worker.isLive (w : Worker S) : Bool := !w.isEnded && w.stopping.isNone

theorem Worker.isLive_iff (w : Worker S) :
    w.isLive = true ↔ w.isEnded = false ∧ w.stopping = none := by
  rw [isLive, Bool.and_eq_true, Bool.not_eq_true', Option.isNone_iff_eq_none]

/-- The actor whose end the input reports, if it reports one. -/
def ManagerInput.ended : ManagerInput S → Option ActorId
  | .evt event => event.ended
  | .msg _ => none

/-- A manager whose map has a job is running. -/
theorem running_of_job {s : Manager S} {name : String} {job : S × ActorCell}
    (h : s.job name = some job) :
    ∃ state, s.phase = .running state ∧ state.jobs.lookup name = some job := by
  unfold Manager.job at h
  split at h
  · exact ⟨_, ‹_›, h⟩
  · cases h

/-! ## The worker of a job -/

/-- Giving up the stored handle keeps the job and its schedule. -/
theorem takeHandle_state (state : CronState S) (myself : TimedMailbox (CronMessage S)) :
    (state.takeHandle myself).2.job = state.job ∧
      (state.takeHandle myself).2.schedule = state.schedule := by
  unfold CronState.takeHandle
  split <;> exact ⟨rfl, rfl⟩

/-- The state after a handler returned, also if it failed the worker. -/
@[simp]
theorem after_state (w : Worker S) (deed : Deed S) (out : Outcome S) :
    (w.after deed out).state = out.state := by
  unfold Worker.after
  split <;> rfl

@[simp]
theorem after_stopping (w : Worker S) (deed : Deed S) (out : Outcome S) :
    (w.after deed out).stopping = w.stopping := by
  unfold Worker.after
  split <;> rfl

section Worker

variable [Schedule S]

/-- `schedule_next` changes no more of the state than the stored handle. -/
theorem scheduleNext_state (state : CronState S) (myself : TimedMailbox (CronMessage S))
    (r : Readings) : (state.scheduleNext myself r).state.job = state.job ∧
      (state.scheduleNext myself r).state.schedule = state.schedule := by
  rcases scheduleNext_cases state myself r with ⟨-, next, -, -, he⟩ | ⟨-, err, he⟩ | ⟨-, he⟩
  all_goals
    rw [he]
    exact ⟨rfl, rfl⟩

/-- `UpdateSchedule` keeps the job and enters the new schedule. -/
theorem updateSchedule_state (myself : TimedMailbox (CronMessage S)) (newSchedule : S)
    (state : CronState S) (r : Readings) :
    (updateSchedule myself newSchedule state r).state.job = state.job ∧
      (updateSchedule myself newSchedule state r).state.schedule = newSchedule := by
  unfold updateSchedule
  obtain ⟨hjob, hschedule⟩ := scheduleNext_state
    { (state.takeHandle myself).2 with schedule := newSchedule } (state.takeHandle myself).1 r
  exact ⟨hjob.trans (takeHandle_state state myself).1, hschedule⟩

/-- A worker keeps its job, and no stop is taken back. -/
theorem job_of_workerStep {w w' : Worker S} {e : WorkerEvent S} (h : w.step e = some w') :
    w'.state.job = w.state.job ∧ (w'.stopping = none → w.stopping = none) := by
  cases step_cases h with
  | lost | update | execute | fire | lapse | elapse | panic | kill | late =>
    exact ⟨rfl, fun hs => hs⟩
  | updated r newSchedule =>
    rw [after_state, after_stopping]
    exact ⟨(updateSchedule_state _ newSchedule w.state r).1, fun hs => hs⟩
  | worked result r =>
    rw [after_state, after_stopping]
    exact ⟨(scheduleNext_state w.state w.myself r).1, fun hs => hs⟩
  | stop reason =>
    unfold Worker.stop
    cases hs : w.stopping with
    | none => exact ⟨rfl, fun _ => rfl⟩
    | some reason' => exact ⟨rfl, fun hs' => hs ▸ hs'⟩
  | takeStop reason => exact ⟨(takeHandle_state w.state w.myself).1, fun hs => hs⟩

/-- A worker that lives after a step lived before. -/
theorem isLive_of_workerStep {w w' : Worker S} {e : WorkerEvent S} (h : w.step e = some w')
    (hlive : w'.isLive = true) : w.isLive = true := by
  rw [Worker.isLive_iff] at hlive ⊢
  refine ⟨Bool.eq_false_iff.mpr fun hended => ?_, (job_of_workerStep h).2 hlive.2⟩
  rw [isEnded_of_step h hended] at hlive
  cases hlive.1

/-- A worker is spawned with the job and the schedule of its settings, and with an empty
mailbox. -/
theorem spawn_fields {now : ℕ} {settings : CronSettings S} {r : Readings} {w : Worker S}
    (h : Worker.spawn now settings r = .ok w) :
    w.state.job = settings.job ∧ w.state.schedule = settings.schedule ∧
      w.myself.queue = [] ∧ w.phase = .idle := by
  unfold Worker.spawn preStart at h
  rcases armNext_cases (TimedMailbox.empty now) settings.schedule r with
    ⟨-, next, -, -, he⟩ | ⟨-, err, he⟩ | ⟨-, he⟩
  · simp only [he, Except.ok.injEq] at h
    subst h
    exact ⟨rfl, rfl, rfl, rfl⟩
  · simp only [he, reduceCtorEq] at h
  · simp only [he, Except.ok.injEq] at h
    subst h
    exact ⟨rfl, rfl, rfl, rfl⟩

end Worker

/-! ## What a `Start` does -/

/-- What handling a `Start` can do. -/
inductive StartCase [Schedule S] (workers : Workers S) (spawning : Spawning)
    (settings : CronSettings S) (reply : RpcReplyPort) (state : CronManagerState S) :
    ManagerOutcome S → Prop
  /-- The name is taken, or `pre_start` of the worker fails. -/
  | refused (err : ActorProcessingErr)
      (hwhy : state.jobs.lookup settings.job.id ≠ none ∨
        ∀ w, Worker.spawn spawning.now settings spawning.readings ≠ .ok w) :
      StartCase workers spawning settings reply state
        { state, workers, notices := [], replies := [(reply, .started (.error err))],
          result := .ok () }
  /-- A worker is spawned and entered under its job's name. -/
  | spawned (w : Worker S) (hvacant : state.jobs.lookup settings.job.id = none)
      (hspawn : Worker.spawn spawning.now settings spawning.readings = .ok w) :
      StartCase workers spawning settings reply state
        { state := { state with
            jobs := state.jobs.insert settings.job.id (settings.schedule, spawning.actor) }
          workers := Function.update workers spawning.actor.getId (some w)
          notices := []
          replies := [(reply, .started (.ok ()))]
          result := .ok () }

/-- **What a `Start` does.** -/
theorem start_cases [Schedule S] (workers : Workers S) (spawning : Spawning)
    (settings : CronSettings S) (reply : RpcReplyPort) (state : CronManagerState S) :
    StartCase workers spawning settings reply state
      (CronManager.start workers spawning settings reply state) := by
  unfold CronManager.start
  cases hvacant : state.jobs.lookup settings.job.id with
  | some job =>
    simp only [hvacant]
    refine StartCase.refused _ (Or.inl ?_)
    rw [hvacant]
    exact Option.some_ne_none job
  | none =>
    cases hspawn : Worker.spawn spawning.now settings spawning.readings with
    | error err =>
      simp only [hvacant]
      refine StartCase.refused _ (Or.inr fun w hw => ?_)
      rw [hspawn] at hw
      cases hw
    | ok w =>
      simp only [hvacant]
      exact StartCase.spawned w hvacant hspawn

/-! ## The live workers -/

/-- A worker that was told to stop does not live. -/
theorem not_isLive_stop (w : Worker S) (reason : Option String) :
    (w.stop reason).isLive = false := by
  unfold Worker.stop Worker.isLive
  cases hs : w.stopping <;> simp [hs]

theorem not_isLive_kill (w : Worker S) : w.kill.isLive = false := by
  rw [Worker.isLive, Worker.isEnded_kill, Bool.not_true, Bool.false_and]

/-- A worker that lives after a message was handled lived before, with the same job, and its job
was not stopped; or it was spawned by the message and is in the map. -/
theorem isLive_of_handle [Schedule S] (workers : Workers S) (spawning : Spawning)
    (state : CronManagerState S) (msg : CronManagerMessage S) {id : ActorId} {w' : Worker S}
    (hfresh : workers spawning.actor.getId = none)
    (hw' : (CronManager.handle workers spawning state msg).workers id = some w')
    (hlive : w'.isLive = true) :
    (∃ w, workers id = some w ∧ w.isLive = true ∧ w'.state.job = w.state.job ∧
      ∀ name schedule, state.jobs.lookup name = some (schedule, ⟨id⟩) → msg ≠ .stop name) ∨
    (workers id = none ∧ ∃ schedule, (CronManager.handle workers spawning state
      msg).state.jobs.lookup w'.state.job.id = some (schedule, ⟨id⟩)) := by
  cases msg with
  | listJobs | getSchedule | subscribe | unsubscribe =>
    exact Or.inl ⟨w', hw', hlive, rfl, by simp⟩
  | start settings reply =>
    simp only [CronManager.handle] at hw' ⊢
    have hcase := start_cases workers spawning settings reply state
    generalize CronManager.start workers spawning settings reply state = out at hcase hw' ⊢
    cases hcase with
    | refused => exact Or.inl ⟨w', hw', hlive, rfl, by simp⟩
    | spawned w hvacant hspawn =>
      simp only at hw' ⊢
      by_cases hid : id = spawning.actor.getId
      · subst hid
        rw [Function.update_self, Option.some.injEq] at hw'
        subst hw'
        refine Or.inr ⟨hfresh, settings.schedule, ?_⟩
        rw [(spawn_fields hspawn).1, AList.lookup_insert]
        rfl
      · rw [Function.update_of_ne hid] at hw'
        exact Or.inl ⟨w', hw', hlive, rfl, by simp⟩
  | stop who =>
    simp only [CronManager.handle, CronManager.stop] at hw'
    cases hwho : state.jobs.lookup who with
    | none =>
      simp only [hwho] at hw'
      refine Or.inl ⟨w', hw', hlive, rfl, ?_⟩
      rintro name schedule hname heq
      cases heq
      rw [hwho] at hname
      cases hname
    | some job =>
      simp only [hwho, Workers.stop] at hw'
      by_cases hid : id = job.2.getId
      · -- this worker is told to stop
        subst hid
        rw [Function.update_self, Option.map_eq_some_iff] at hw'
        obtain ⟨w, -, rfl⟩ := hw'
        rw [not_isLive_stop] at hlive
        cases hlive
      · rw [Function.update_of_ne hid] at hw'
        refine Or.inl ⟨w', hw', hlive, rfl, ?_⟩
        rintro name schedule hname heq
        cases heq
        rw [hwho, Option.some.injEq] at hname
        exact hid (by rw [hname]; rfl)
  | setSchedule who schedule =>
    have hcase := handle_cases workers spawning state (.setSchedule who schedule)
    generalize CronManager.handle workers spawning state (.setSchedule who schedule) = out
      at hcase hw'
    refine Or.inl ?_
    cases hcase with
    | quiet _ _ _ hworkers => exact ⟨w', hworkers ▸ hw', hlive, rfl, by simp⟩
    | failed who schedule job err _ _ _ hworkers =>
      exact ⟨w', hworkers ▸ hw', hlive, rfl, by simp⟩
    | updated who schedule job w _ _ hw _ _ hworkers =>
      rw [hworkers] at hw'
      by_cases hid : id = job.2.getId
      · -- its mailbox has grown
        subst hid
        rw [Function.update_self, Option.some.injEq] at hw'
        subst hw'
        exact ⟨w, hw, hlive, rfl, by simp⟩
      · rw [Function.update_of_ne hid] at hw'
        exact ⟨w', hw', hlive, rfl, by simp⟩

/-- **Live workers of a step.** A worker that lives after a step lived before, with the same
job, and the step spared its job; or it was spawned in the step and is in the map. -/
theorem isLive_of_step [Schedule S] {s s' : Manager S} {e : ManagerEvent S}
    (h : s.step e = some s') {id : ActorId} {w' : Worker S} (hw' : s'.workers id = some w')
    (hlive : w'.isLive = true) :
    castOpen s e = true ∧
    ((∃ w, s.workers id = some w ∧ w.isLive = true ∧ w'.state.job = w.state.job ∧
        ∀ name, s.Keeps name ⟨id⟩ → spares name ⟨id⟩ s e = true) ∨
      (s.workers id = none ∧ ∃ schedule, s'.job w'.state.job.id = some (schedule, ⟨id⟩))) := by
  -- no worker outlives the manager
  have hkilled {workers : Workers S}
      (hw : (workers id).map (·.kill) = some w') : False := by
    rw [Option.map_eq_some_iff] at hw
    obtain ⟨w, -, rfl⟩ := hw
    rw [not_isLive_kill] at hlive
    cases hlive
  cases Manager.step_cases h with
  | post | stop => exact ⟨rfl, Or.inl ⟨w', hw', hlive, rfl, fun _ _ => rfl⟩⟩
  | lost e hpost hphase =>
    have hopen : castOpen s e = true := by
      rcases hpost with rfl | ⟨msg, rfl⟩ <;> rfl
    refine ⟨hopen, Or.inl ⟨w', hw', hlive, rfl, ?_⟩⟩
    rintro name ⟨⟨schedule, hjob⟩, -⟩
    unfold Manager.job at hjob
    split at hjob
    · rename_i state hrunning
      exact absurd hrunning (hphase state)
    · cases hjob
  | announce id' | report id' =>
    rw [deliver_workers] at hw'
    exact ⟨rfl, Or.inl ⟨w', hw', hlive, rfl, fun _ _ => rfl⟩⟩
  | takeStop | kill => exact (hkilled hw').elim
  | elapse duration =>
    rw [Option.map_eq_some_iff] at hw'
    obtain ⟨w, hw, rfl⟩ := hw'
    exact ⟨rfl, Or.inl ⟨w, hw, hlive, rfl, fun _ _ => rfl⟩⟩
  | worker id' e' w₁ w₂ _ hw₁ hstep =>
    refine ⟨rfl, Or.inl ?_⟩
    simp only at hw'
    by_cases hid : id = id'
    · subst hid
      rw [Function.update_self, Option.some.injEq] at hw'
      subst hw'
      refine ⟨w₁, hw₁, isLive_of_workerStep hstep hlive, (job_of_workerStep hstep).1, ?_⟩
      intro name _
      rw [Worker.isLive_iff] at hlive
      simp [spares, hw₁, hstep, hlive.1, hlive.2]
    · rw [Function.update_of_ne hid] at hw'
      refine ⟨w', hw', hlive, rfl, fun name _ => ?_⟩
      have hne : (id' != ActorCell.getId ⟨id⟩) = true := bne_iff_ne.mpr (Ne.symm hid)
      rw [spares, hne, Bool.true_or]
  | supervise state evt rest =>
    obtain ⟨hok, hworkers, -⟩ := handleSupervisorEvt_cases s.workers evt state
    rw [after_of_ok hok] at hw'
    simp only [hworkers] at hw'
    exact ⟨rfl, Or.inl ⟨w', hw', hlive, rfl, fun _ _ => rfl⟩⟩
  | handle actor readings state msg hnext hfresh =>
    rcases hres : (CronManager.handle s.workers ⟨s.now, actor, readings⟩ state msg).result
      with err | _
    · rw [(after_of_error hres).2.2] at hw'
      exact (hkilled hw').elim
    · have hopen := (castOpen_handle_iff hnext actor readings).mpr
        ((handle_ok_iff s.workers ⟨s.now, actor, readings⟩ state msg).mp hres)
      refine ⟨hopen, ?_⟩
      rw [after_of_ok hres] at hw'
      rcases isLive_of_handle s.workers ⟨s.now, actor, readings⟩ state msg hfresh hw' hlive with
        ⟨w, hw, hwlive, hjob, hspared⟩ | ⟨hnew, schedule, hlisted⟩
      · refine Or.inl ⟨w, hw, hwlive, hjob, ?_⟩
        rintro name ⟨⟨schedule, hname⟩, -⟩
        rw [Manager.job_of_running (running_of_nextMsg hnext).1] at hname
        have hne := hspared name schedule hname
        cases msg with
        | stop who =>
          simp only [spares, hnext, bne_iff_ne, ne_eq]
          rintro rfl
          exact hne rfl
        | _ => simp only [spares, hnext]
      · refine Or.inr ⟨hnew, schedule, ?_⟩
        rw [job_after_of_ok hres]
        exact hlisted

/-! ## What is handled -/

/-- A handled input is recorded, also if the handler fails the manager. -/
@[simp]
theorem history_after (s : Manager S) (input : ManagerInput S) (spawning : Option Spawning)
    (before : CronManagerState S) (out : ManagerOutcome S) :
    (s.after input spawning before out).history =
      ⟨input, spawning, before, out.notices, out.replies⟩ :: s.history := by
  unfold Manager.after
  split <;> rfl

@[simp]
theorem history_deliver (s : Manager S) (evt : SupervisionEvent) :
    (s.deliver evt).history = s.history := by
  unfold Manager.deliver
  split <;> rfl

/-- What a step adds to the history. -/
inductive HistoryCase [Schedule S] (s s' : Manager S) (e : ManagerEvent S) : Prop
  | none (hsame : s'.history = s.history)
      (hquiet : ∀ actor readings, e ≠ .handle actor readings)
  | msg (actor : ActorCell) (readings : Readings) (state : CronManagerState S)
      (msg : CronManagerMessage S) (he : e = .handle actor readings)
      (hnext : s.nextMsg = some (state, msg)) (hfresh : s.workers actor.getId = Option.none)
      (hs' : s' = { s with queue := s.queue.tail }.after (.msg msg)
        (some ⟨s.now, actor, readings⟩) state
        (CronManager.handle s.workers ⟨s.now, actor, readings⟩ state msg))
  | evt (state : CronManagerState S) (evt : SupervisionEvent) (rest : List SupervisionEvent)
      (he : e = .supervise) (hphase : s.phase = .running state) (hsup : s.supervision = evt :: rest)
      (hs' : s' = { s with supervision := rest }.after (.evt evt) Option.none state
        (CronManager.handleSupervisorEvt s.workers evt state))

/-- **What a step adds to the history.** -/
theorem history_cases [Schedule S] {s s' : Manager S} {e : ManagerEvent S}
    (h : s.step e = some s') : HistoryCase s s' e := by
  cases Manager.step_cases h with
  | post | worker | elapse | stop | takeStop | kill => exact .none rfl (by simp)
  | lost e hpost =>
    refine .none rfl ?_
    rcases hpost with rfl | ⟨msg, rfl⟩ <;> simp
  | announce | report => exact .none (history_deliver _ _) (by simp)
  | handle actor readings state msg hnext hfresh =>
    exact .msg actor readings state msg rfl hnext hfresh rfl
  | supervise state evt rest hphase _ hsup => exact .evt state evt rest rfl hphase hsup rfl

/-- No job is found for a worker only if no entry points to it. -/
theorem findJob_eq_none {state : CronManagerState S} {who : ActorCell}
    (h : state.findJob who = none) {name : String} {job : S × ActorCell}
    (hjob : state.jobs.lookup name = some job) : job.2.getId ≠ who.getId := by
  unfold CronManagerState.findJob at h
  rw [Option.map_eq_none_iff, List.find?_eq_none] at h
  intro heq
  exact h ⟨name, job⟩ (AList.mem_lookup_iff.mp hjob) (by simpa using heq)

/-- An exit event removes the entry of its worker. -/
theorem jobs_handleSupervisorEvt (workers : Workers S) {evt : SupervisionEvent}
    (state : CronManagerState S) {id : ActorId} (hid : evt.ended = some id) :
    (CronManager.handleSupervisorEvt workers evt state).state.jobs =
      match state.findJob ⟨id⟩ with
      | some name => state.jobs.erase name
      | none => state.jobs := by
  cases evt with
  | actorTerminated who reason | actorFailed who reason =>
    rw [SupervisionEvent.ended, Option.some.injEq] at hid
    subst hid
    have hwho : (⟨who.getId⟩ : ActorCell) = who := rfl
    rw [hwho]
    cases hfind : state.findJob who <;> simp only [CronManager.handleSupervisorEvt, hfind]
  | actorStarted | processGroupChanged | pidLifecycleEvent => cases hid

/-- After the exit event of a worker no entry points to it. -/
theorem no_entry_after_exit (workers : Workers S) {evt : SupervisionEvent}
    {state : CronManagerState S} {id : ActorId} (hid : evt.ended = some id)
    (hdistinct : ∀ name name' job job', state.jobs.lookup name = some job →
      state.jobs.lookup name' = some job' → job.2 = job'.2 → name = name')
    {name : String} {job : S × ActorCell}
    (hjob : (CronManager.handleSupervisorEvt workers evt state).state.jobs.lookup name =
      some job) : job.2.getId ≠ id := by
  rw [jobs_handleSupervisorEvt workers state hid] at hjob
  cases hfind : state.findJob ⟨id⟩ with
  | none =>
    simp only [hfind] at hjob
    exact findJob_eq_none hfind hjob
  | some name' =>
    simp only [hfind] at hjob
    obtain ⟨job', hjob', hid'⟩ := findJob_eq_some hfind
    -- the entry of that worker was another one
    obtain ⟨hname, hold⟩ := of_lookup_erase hjob
    intro heq
    exact hname (hdistinct name name' job job' hold hjob'
      (ActorCell.getId_injective (heq.trans hid'.symm)))

/-! ## The invariant -/

/-- The map lists the live workers, and none whose exit event was handled. -/
structure Listed (s : Manager S) : Prop where
  /-- Every live worker is in the map, under the name of its job. -/
  live : ∀ id w, s.workers id = some w → w.isLive = true →
    ∃ schedule, s.job w.state.job.id = some (schedule, ⟨id⟩)
  /-- The exit events that were handled are of workers that were spawned. -/
  heard : ∀ e ∈ s.history, ∀ id, e.input.ended = some id → ∃ w, s.workers id = some w
  /-- No entry points to a worker whose exit event was handled. -/
  gone : ∀ e ∈ s.history, ∀ id, e.input.ended = some id →
    ∀ name job, s.job name = some job → job.2.getId ≠ id

/-- **Step lemma.** Every step keeps the list. -/
theorem Listed.step [Schedule S] {s s' : Manager S} {e : ManagerEvent S} (hreg : Registry s)
    (hs : Listed s) (h : s.step e = some s') : Listed s' := by
  have hext := workers_extends_of_step h
  have hknown : ∀ id, (∃ w, s.workers id = some w) → ∃ w, s'.workers id = some w := by
    rintro id ⟨w, hw⟩
    obtain ⟨w', hw', -⟩ := hext id w hw
    exact ⟨w', hw'⟩
  -- entries that were handled before say nothing about a new job
  have hold : ∀ e₀ ∈ s.history, ∀ id, e₀.input.ended = some id →
      ∀ name job, s'.job name = some job → job.2.getId ≠ id := by
    intro e₀ he₀ id hid name job hjob heq
    rcases job_of_step h hjob with ⟨job', hjob', hsame⟩ | ⟨-, hfresh, -, -⟩
    · exact hs.gone e₀ he₀ id hid name job' hjob' (by rw [hsame, heq])
    · obtain ⟨w, hw⟩ := hs.heard e₀ he₀ id hid
      rw [heq, hw] at hfresh
      cases hfresh
  refine ⟨?_, ?_, ?_⟩
  · intro id w' hw' hlive
    obtain ⟨hopen, ⟨w, hw, hwlive, hsame, hspared⟩ | ⟨-, hlisted⟩⟩ := isLive_of_step h hw' hlive
    · -- the entry stays, as nothing in the step concerns it
      obtain ⟨schedule, hjob⟩ := hs.live id w hw hwlive
      rw [Worker.isLive_iff] at hwlive
      have hkeeps : s.Keeps w.state.job.id ⟨id⟩ := ⟨⟨schedule, hjob⟩, w, hw, hwlive⟩
      rw [hsame]
      exact (keeps_of_step hreg hkeeps hopen (hspared _ hkeeps) h).1
    · exact hlisted
  · intro e₀ he₀ id hid
    cases history_cases h with
    | none hsame => exact hknown id (hs.heard e₀ (hsame ▸ he₀) id hid)
    | msg actor readings state msg _ _ _ hs' =>
      rw [hs', history_after] at he₀
      rcases List.mem_cons.mp he₀ with rfl | he₀
      · cases hid
      · exact hknown id (hs.heard e₀ he₀ id hid)
    | evt state evt rest _ _ hsup hs' =>
      rw [hs', history_after] at he₀
      rcases List.mem_cons.mp he₀ with rfl | he₀
      · obtain ⟨w, hw, -⟩ := hreg.ended evt (by simp [hsup]) id hid
        exact hknown id ⟨w, hw⟩
      · exact hknown id (hs.heard e₀ he₀ id hid)
  · intro e₀ he₀ id hid name job hjob
    cases history_cases h with
    | none hsame => exact hold e₀ (hsame ▸ he₀) id hid name job hjob
    | msg actor readings state msg _ _ _ hs' =>
      rw [hs', history_after] at he₀
      rcases List.mem_cons.mp he₀ with rfl | he₀
      · cases hid
      · exact hold e₀ he₀ id hid name job hjob
    | evt state evt rest _ hphase hsup hs' =>
      rw [hs', history_after] at he₀
      rcases List.mem_cons.mp he₀ with rfl | he₀
      · rw [hs', job_after_of_ok (handleSupervisorEvt_cases s.workers evt state).1] at hjob
        refine no_entry_after_exit s.workers hid ?_ hjob
        intro name₁ name₂ job₁ job₂ h₁ h₂
        rw [← Manager.job_of_running hphase] at h₁ h₂
        exact hreg.distinct name₁ name₂ job₁ job₂ h₁ h₂
      · exact hold e₀ he₀ id hid name job hjob

/-- The list of a run. -/
theorem listed_of_run [Schedule S] {es : List (ManagerEvent S)} {s : Manager S}
    (h : runManager es = some s) : Listed s := by
  refine (run_true_iff.mpr h).invariant_of (P := Registry) (Q := Listed) (registry_spawn 0)
    (fun _ _ _ hreg hstep => hreg.step hstep) ⟨?_, ?_, ?_⟩ ?_
  · intro id w hw
    cases hw
  · intro e he
    cases he
  · intro e he
    cases he
  · intro s e s' hreg hs _ hstep
    exact hs.step hreg hstep

/-! ## Starts and late exits -/

/-- **A `Start` is answered once.** Its handler sends one reply, which is `Ok` exactly if the name
was vacant and `pre_start` of the worker succeeded; otherwise the map stays as it was. -/
theorem start_of_step [Schedule S] {s s' : Manager S} {actor : ActorCell} {readings : Readings}
    {state : CronManagerState S} {settings : CronSettings S} {reply : RpcReplyPort}
    (hnext : s.nextMsg = some (state, .start settings reply))
    (h : s.step (.handle actor readings) = some s') :
    ∃ result, s'.queue = s.queue.tail ∧
      s'.history = ⟨.msg (.start settings reply), some ⟨s.now, actor, readings⟩, state, [],
        [(reply, .started result)]⟩ :: s.history ∧
      (result = .ok () ↔ s.job settings.job.id = none ∧
        ∃ w, Worker.spawn s.now settings readings = .ok w) ∧
      (result = .ok () → s'.job settings.job.id = some (settings.schedule, actor) ∧
        ∀ name, name ≠ settings.job.id → s'.job name = s.job name) ∧
      (result ≠ .ok () → ∀ name, s'.job name = s.job name) := by
  have hphase := (running_of_nextMsg hnext).1
  cases Manager.step_cases h with
  | lost _ hpost =>
    rcases hpost with hpost | ⟨msg, hpost⟩ <;> cases hpost
  | handle _ _ state' msg hnext' hfresh =>
    rw [hnext, Option.some.injEq, Prod.mk.injEq] at hnext'
    obtain ⟨rfl, rfl⟩ := hnext'
    have hcase := start_cases s.workers ⟨s.now, actor, readings⟩ settings reply state
    simp only [CronManager.handle, Manager.job_of_running hphase]
    generalize CronManager.start s.workers ⟨s.now, actor, readings⟩ settings reply state = out
      at hcase ⊢
    cases hcase with
    | refused err hwhy =>
      refine ⟨.error err, by rw [after_of_ok rfl], history_after _ _ _ _ _, ?_, ?_, ?_⟩
      · constructor
        · intro hok
          cases hok
        · rintro ⟨hvacant, w, hw⟩
          rcases hwhy with htaken | hfails
          · exact absurd hvacant htaken
          · exact absurd hw (hfails w)
      · intro hok
        cases hok
      · intro _ name
        rw [job_after_of_ok rfl]
    | spawned w hvacant hspawn =>
      refine ⟨.ok (), by rw [after_of_ok rfl], history_after _ _ _ _ _, ?_, ?_, fun hne => ?_⟩
      · exact ⟨fun _ => ⟨hvacant, w, hspawn⟩, fun _ => rfl⟩
      · intro _
        refine ⟨?_, fun name hname => ?_⟩
        · rw [job_after_of_ok rfl, AList.lookup_insert]
        · rw [job_after_of_ok rfl, AList.lookup_insert_ne hname]
      · exact absurd rfl hne

/-- The exit event of a worker leaves the entries of all others, also one of the same name. -/
theorem job_of_late_exit [Schedule S] {s s' : Manager S} {evt : SupervisionEvent}
    {rest : List SupervisionEvent} {id : ActorId} (hsup : s.supervision = evt :: rest)
    (hid : evt.ended = some id) {name : String} {job : S × ActorCell}
    (hjob : s.job name = some job) (hother : job.2.getId ≠ id)
    (h : s.step .supervise = some s') : s'.job name = some job := by
  cases Manager.step_cases h with
  | lost _ hpost =>
    rcases hpost with hpost | ⟨msg, hpost⟩ <;> cases hpost
  | supervise state evt' rest' hphase _ hsup' =>
    rw [hsup, List.cons.injEq] at hsup'
    obtain ⟨rfl, rfl⟩ := hsup'
    rw [Manager.job_of_running hphase] at hjob
    obtain ⟨hok, -, hjobs⟩ := handleSupervisorEvt_cases s.workers evt state
    rw [job_after_of_ok hok]
    rcases hjobs with hsame | ⟨name', job', hended, hlookup, herase⟩
    · rw [hsame, hjob]
    · have hne : name ≠ name' := by
        rintro rfl
        rw [hjob, Option.some.injEq] at hlookup
        rw [hid, Option.some.injEq, ← hlookup] at hended
        exact hother hended.symm
      rw [herase, AList.lookup_erase_ne hne, hjob]

/-- **The map of jobs matches the live workers.** In every reachable state distinct names have
distinct workers; each worker that has neither ended nor been told to stop is in the map under
its job's name; and no entry points to a worker whose exit event was handled. Each `Start` is
answered once, with `Ok` exactly if its name was vacant and its worker's `pre_start` succeeded,
and leaves the map alone otherwise; and a late exit event leaves a newer job of the same name. -/
theorem registry_matches_live_workers [Schedule S] {es : List (ManagerEvent S)} {s : Manager S}
    (h : runManager es = some s) :
    (∀ name name' job job', s.job name = some job → s.job name' = some job' →
      job.2 = job'.2 → name = name') ∧
    (∀ id w, s.workers id = some w → w.isEnded = false → w.stopping = none →
      ∃ schedule, s.job w.state.job.id = some (schedule, ⟨id⟩)) ∧
    (∀ e ∈ s.history, ∀ id, e.input.ended = some id →
      ∀ name job, s.job name = some job → job.2.getId ≠ id) ∧
    (∀ s' actor readings state settings reply,
      s.nextMsg = some (state, .start settings reply) →
      s.step (.handle actor readings) = some s' →
      ∃ result, s'.queue = s.queue.tail ∧
        s'.history = ⟨.msg (.start settings reply), some ⟨s.now, actor, readings⟩, state, [],
          [(reply, .started result)]⟩ :: s.history ∧
        (result = .ok () ↔ s.job settings.job.id = none ∧
          ∃ w, Worker.spawn s.now settings readings = .ok w) ∧
        (result = .ok () → s'.job settings.job.id = some (settings.schedule, actor) ∧
          ∀ name, name ≠ settings.job.id → s'.job name = s.job name) ∧
        (result ≠ .ok () → ∀ name, s'.job name = s.job name)) ∧
    ∀ s' evt rest id name job, s.supervision = evt :: rest → evt.ended = some id →
      s.job name = some job → job.2.getId ≠ id → s.step .supervise = some s' →
      s'.job name = some job := by
  have hlisted := listed_of_run h
  refine ⟨(registry_of_run h).distinct, ?_, hlisted.gone, ?_, ?_⟩
  · intro id w hw hended hstop
    exact hlisted.live id w hw ((w.isLive_iff).mpr ⟨hended, hstop⟩)
  · intro s' actor readings state settings reply hnext hstep
    exact start_of_step hnext hstep
  · intro s' evt rest id name job hsup hid hjob hother hstep
    exact job_of_late_exit hsup hid hjob hother hstep

/-- A job is stopped and started again, and then the exit event of its first worker arrives. -/
def restartOfTen : List (ManagerEvent Every) :=
  [.post (.start { schedule := ⟨10⟩, job := ⟨"ten"⟩ } ⟨0⟩), .handle ⟨.loc 1⟩ ⟨0, 0⟩,
    .announce (.loc 1), .supervise, .post (.stop "ten"), .handle ⟨.loc 2⟩ ⟨0, 0⟩,
    .post (.start { schedule := ⟨20⟩, job := ⟨"ten"⟩ } ⟨1⟩), .handle ⟨.loc 2⟩ ⟨0, 0⟩,
    .worker (.loc 1) .takeStop, .report (.loc 1)]

/-- The late exit event of the first worker leaves the job that the second one runs. -/
theorem registry_matches_live_workers_restart :
    ∃ s s', runManager restartOfTen = some s ∧ s.step .supervise = some s' ∧
      s'.job "ten" = some (⟨20⟩, ⟨.loc 2⟩) := by
  obtain ⟨s, hs, hpost⟩ := (Option.any_eq_true _ _).mp
    (show (runManager restartOfTen).any (fun s => decide (s.job "ten" = some (⟨20⟩, ⟨.loc 2⟩)) &&
      (decide (s.supervision = [.actorTerminated ⟨.loc 1⟩ none]) &&
        (s.step .supervise).isSome)) = true by decide)
  rw [Bool.and_eq_true, Bool.and_eq_true, decide_eq_true_eq, decide_eq_true_eq] at hpost
  obtain ⟨hjob, hsup, hstep⟩ := hpost
  obtain ⟨s', hs'⟩ := Option.isSome_iff_exists.mp hstep
  refine ⟨s, s', hs, hs', ?_⟩
  exact (registry_matches_live_workers hs).2.2.2.2 s' _ [] (.loc 1) "ten" _ hsup rfl hjob
    (by decide) hs'

end RactorActors.Time.Cron
