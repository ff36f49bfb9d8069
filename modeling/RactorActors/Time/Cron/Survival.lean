import RactorActors.Time.Cron.Registry
import RactorActors.Time.Cron.Trigger

/-!
# The cron manager survives its jobs

The manager's map lags behind the life of the workers: a worker may have ended while its entry
is still there. All handlers but one ignore what they cannot deliver to such a worker.
`set_schedule` returns the error of its `cast`, which fails the manager and with it every job.

* `handle_ok_iff` and `handleSupervisorEvt_cases`: which handlers return an error, and when;
* `keeps_of_step`: what one job's entry and worker go through while others end;
* `manager_survives_iff`: a run keeps the manager from failing exactly when every `SetSchedule`
  found its job's mailbox open, and then every job whose own worker lives stays;
* `dead_job_takes_down_manager`: a run in which one job's death ends another.
-/

namespace RactorActors.Time.Cron

open LabelledRun

variable {S : Type}

/-- A handler of the manager has returned an error. -/
def Manager.hasFailed (s : Manager S) : Bool :=
  match s.phase with
  | .failed _ => true
  | _ => false

/-- The step does not handle a `SetSchedule` for a job whose worker has closed its mailbox. -/
def castOpen (s : Manager S) : ManagerEvent S → Bool
  | .handle _ _ =>
    match s.nextMsg with
    | some (state, .setSchedule who _) =>
      match state.jobs.lookup who with
      | some job =>
        match s.workers job.2.getId with
        | some w => !w.isEnded
        | none => false
      | none => true
    | _ => true
  | _ => true

/-- The step is not `Stop(name)`, nor the end of the worker `actor` by itself or by a third
party, nor the end of the manager by a third party. -/
def spares [Schedule S] (name : String) (actor : ActorCell) (s : Manager S) :
    ManagerEvent S → Bool
  | .handle _ _ =>
    match s.nextMsg with
    | some (_, .stop who) => who != name
    | _ => true
  | .worker id e =>
    id != actor.getId ||
      match (s.workers id).bind (·.step e) with
      | some w' => !w'.isEnded && w'.stopping.isNone
      | none => true
  | .takeStop => false
  | .kill => false
  | _ => true

/-- The job `name` is in the map with the worker `actor`, which lives and was not told to
stop. -/
def Manager.Keeps (s : Manager S) (name : String) (actor : ActorCell) : Prop :=
  (∃ schedule, s.job name = some (schedule, actor)) ∧
    ∃ w, s.workers actor.getId = some w ∧ w.isEnded = false ∧ w.stopping = none

/-! ## Which handlers fail -/

/-- **Which messages a handler fails on**: a `SetSchedule` for a job whose worker has closed its
mailbox. -/
theorem handle_ok_iff [Schedule S] (workers : Workers S) (spawning : Spawning)
    (state : CronManagerState S) (msg : CronManagerMessage S) :
    (CronManager.handle workers spawning state msg).result = .ok () ↔
      ∀ who schedule job, msg = .setSchedule who schedule →
        state.jobs.lookup who = some job →
          ∃ w, workers job.2.getId = some w ∧ w.isEnded = false := by
  have hcase := handle_cases workers spawning state msg
  generalize CronManager.handle workers spawning state msg = out at hcase
  cases hcase with
  | quiet _ _ _ _ hok habsent =>
    refine ⟨fun _ who schedule job hmsg hjob => ?_, fun _ => hok⟩
    rw [habsent who schedule hmsg] at hjob
    cases hjob
  | started settings reply worker _ _ _ _ _ hok => simp [hok]
  | stopped who job _ _ _ _ hok => simp [hok]
  | updated who schedule job w _ hlookup hw halive _ _ hok =>
    refine ⟨fun _ who' schedule' job' hmsg hjob' => ?_, fun _ => hok⟩
    cases hmsg
    rw [hlookup, Option.some.injEq] at hjob'
    exact ⟨w, hjob' ▸ hw, halive⟩
  | failed who schedule job err _ hlookup hclosed _ herr =>
    constructor
    · intro hok
      rw [herr] at hok
      cases hok
    · intro hall
      obtain ⟨w, hw, halive⟩ := hall who schedule job rfl hlookup
      rw [hclosed w hw] at halive
      cases halive

/-- The check on the message that comes next is the condition of `handle_ok_iff`. -/
theorem castOpen_handle_iff {s : Manager S} {state : CronManagerState S}
    {msg : CronManagerMessage S} (h : s.nextMsg = some (state, msg)) (actor : ActorCell)
    (readings : Readings) :
    castOpen s (.handle actor readings) = true ↔
      ∀ who schedule job, msg = .setSchedule who schedule →
        state.jobs.lookup who = some job →
          ∃ w, s.workers job.2.getId = some w ∧ w.isEnded = false := by
  cases msg with
  | setSchedule who schedule =>
    simp only [castOpen, h, CronManagerMessage.setSchedule.injEq, and_imp]
    cases hjob : state.jobs.lookup who with
    | none =>
      simp only [true_iff]
      rintro _ _ job rfl - hsome
      rw [hjob] at hsome
      cases hsome
    | some job =>
      simp only
      constructor
      · intro hopen
        rintro _ _ job' rfl - hjob'
        rw [hjob, Option.some.injEq] at hjob'
        subst hjob'
        cases hw : s.workers job.2.getId with
        | none => simp [hw] at hopen
        | some w => exact ⟨w, rfl, by simpa [hw] using hopen⟩
      · intro hall
        obtain ⟨w, hw, halive⟩ := hall who schedule job rfl rfl hjob
        simp [hw, halive]
  | _ => simp [castOpen, h]

/-- A handled input fails the manager exactly if its handler returned an error. -/
theorem hasFailed_after (s : Manager S) (input : ManagerInput S) (spawning : Option Spawning)
    (before : CronManagerState S) (out : ManagerOutcome S) :
    (s.after input spawning before out).hasFailed = false ↔ out.result = .ok () := by
  rcases hres : out.result with err | _
  · simp [Manager.hasFailed, (after_of_error hres).1]
  · simp [Manager.hasFailed, after_of_ok hres]

/-- A step keeps the manager from failing exactly when it is `castOpen`. -/
theorem hasFailed_of_step_iff [Schedule S] {s s' : Manager S} {e : ManagerEvent S}
    (hs : s.hasFailed = false) (h : s.step e = some s') :
    s'.hasFailed = false ↔ castOpen s e = true := by
  -- a step that handles no message cannot fail it
  have keeps {e : ManagerEvent S} {s' : Manager S} (hopen : castOpen s e = true)
      (hs' : s'.hasFailed = false) : s'.hasFailed = false ↔ castOpen s e = true :=
    ⟨fun _ => hopen, fun _ => hs'⟩
  have hdeliver (s : Manager S) (evt : SupervisionEvent) (hs : s.hasFailed = false) :
      (s.deliver evt).hasFailed = false := by
    unfold Manager.deliver
    split
    · exact hs
    · exact hs
  cases Manager.step_cases h with
  | handle actor readings state msg hnext _ =>
    rw [hasFailed_after, handle_ok_iff, castOpen_handle_iff hnext]
  | supervise state evt rest =>
    exact keeps rfl ((hasFailed_after _ _ _ _ _).mpr
      (handleSupervisorEvt_cases s.workers evt state).1)
  | post | stop | worker | elapse => exact keeps rfl hs
  | lost e hpost =>
    rcases hpost with rfl | ⟨msg, rfl⟩
    · exact keeps rfl hs
    · exact keeps rfl hs
  | announce id w => exact keeps rfl (hdeliver _ _ hs)
  | report id w exit => exact keeps rfl (hdeliver _ _ hs)
  | takeStop | kill => exact keeps rfl rfl

/-! ## One job among others -/

theorem ActorCell.getId_injective : Function.Injective ActorCell.getId := by
  rintro ⟨id⟩ ⟨id'⟩ h
  have heq : id = id' := h
  rw [heq]

/-- What a handled message leaves of a job that it spares. -/
theorem HandleCase.keeps {workers : Workers S} {spawning : Spawning}
    {state : CronManagerState S} {msg : CronManagerMessage S} {out : ManagerOutcome S}
    (h : HandleCase workers spawning state msg out)
    (hfresh : workers spawning.actor.getId = none) (hok : out.result = .ok ())
    {name : String} {job : S × ActorCell} (hjob : state.jobs.lookup name = some job)
    (hdistinct : ∀ name' job', state.jobs.lookup name' = some job' → job'.2 = job.2 →
      name' = name)
    (hspared : msg ≠ .stop name) {w : Worker S} (hw : workers job.2.getId = some w)
    (halive : w.isEnded = false) (hstop : w.stopping = none) :
    (∃ schedule, out.state.jobs.lookup name = some (schedule, job.2)) ∧
      ∃ w', out.workers job.2.getId = some w' ∧ w'.isEnded = false ∧ w'.stopping = none := by
  cases h with
  | quiet _ _ hjobs hworkers =>
    rw [hjobs, hworkers]
    exact ⟨⟨job.1, hjob⟩, w, hw, halive, hstop⟩
  | started settings reply worker _ _ hvacant hjobs hworkers =>
    -- neither the name nor the worker of a new job is this one's
    have hname : name ≠ settings.job.id := by
      rintro rfl
      rw [hjob] at hvacant
      cases hvacant
    have hactor : job.2.getId ≠ spawning.actor.getId := by
      intro heq
      rw [heq, hfresh] at hw
      cases hw
    rw [hjobs, hworkers, AList.lookup_insert_ne hname, Function.update_of_ne hactor]
    exact ⟨⟨job.1, hjob⟩, w, hw, halive, hstop⟩
  | stopped who job' _ hlookup hjobs hworkers =>
    have hname : name ≠ who := by
      rintro rfl
      exact hspared rfl
    -- distinct jobs have distinct workers
    have hactor : job.2.getId ≠ job'.2.getId := by
      intro heq
      exact hname (hdistinct who job' hlookup (ActorCell.getId_injective heq.symm)).symm
    rw [hjobs, hworkers, AList.lookup_erase_ne hname, Workers.stop,
      Function.update_of_ne hactor]
    exact ⟨⟨job.1, hjob⟩, w, hw, halive, hstop⟩
  | updated who schedule job' w' _ hlookup hw' _ hjobs hworkers =>
    rw [hjobs, hworkers]
    constructor
    · by_cases hname : name = who
      · subst hname
        rw [hjob, Option.some.injEq] at hlookup
        subst hlookup
        exact ⟨schedule, AList.lookup_insert _⟩
      · rw [AList.lookup_insert_ne hname]
        exact ⟨job.1, hjob⟩
    · -- the worker that is sent the new schedule may be this one
      by_cases hactor : job.2.getId = job'.2.getId
      · rw [hactor, hw', Option.some.injEq] at hw
        subst hw
        rw [hactor, Function.update_self]
        exact ⟨_, rfl, halive, hstop⟩
      · rw [Function.update_of_ne hactor]
        exact ⟨w, hw, halive, hstop⟩
  | failed who schedule job' err _ _ _ _ herr =>
    rw [herr] at hok
    cases hok

/-- **Step lemma.** A job stays, with its worker, in every step that spares it and does not
fail the manager, whatever becomes of the other workers. -/
theorem keeps_of_step [Schedule S] {s s' : Manager S} {e : ManagerEvent S} {name : String}
    {actor : ActorCell} (hreg : Registry s) (hkeeps : s.Keeps name actor)
    (hopen : castOpen s e = true) (hspares : spares name actor s e = true)
    (h : s.step e = some s') : s'.Keeps name actor := by
  obtain ⟨⟨schedule, hjob⟩, w, hw, halive, hstop⟩ := hkeeps
  cases Manager.step_cases h with
  | post | stop | lost => exact ⟨⟨schedule, hjob⟩, w, hw, halive, hstop⟩
  | takeStop | kill => cases hspares
  | announce | report =>
    refine ⟨⟨schedule, ?_⟩, w, ?_, halive, hstop⟩
    · rw [job_deliver]
      exact hjob
    · rw [deliver_workers]
      exact hw
  | elapse duration =>
    refine ⟨⟨schedule, hjob⟩, { w with myself := w.myself.elapse duration }, ?_, halive, hstop⟩
    simp only [hw, Option.map_some]
  | worker id e₁ w₁ w' _ hw₁ hstep =>
    by_cases hid : actor.getId = id
    · -- the job's own worker takes the step
      rw [hid, hw₁, Option.some.injEq] at hw
      subst hw
      simp only [spares, hid, bne_self_eq_false, Bool.false_or, hw₁, Option.bind_some, hstep,
        Bool.and_eq_true, Bool.not_eq_true', Option.isNone_iff_eq_none] at hspares
      exact ⟨⟨schedule, hjob⟩, w', by rw [hid]; exact Function.update_self .., hspares.1,
        hspares.2⟩
    · refine ⟨⟨schedule, hjob⟩, w, ?_, halive, hstop⟩
      simp only [Function.update_of_ne hid, hw]
  | supervise state evt rest hphase _ hsup =>
    obtain ⟨hok, hworkers, hjobs⟩ := handleSupervisorEvt_cases s.workers evt state
    have hworkers' : ∃ w', (({ s with supervision := rest } : Manager S).after (.evt evt) none
        state (CronManager.handleSupervisorEvt s.workers evt state)).workers actor.getId =
          some w' ∧ w'.isEnded = false ∧ w'.stopping = none := by
      rw [after_of_ok hok]
      exact ⟨w, by simp only [hworkers, hw], halive, hstop⟩
    refine ⟨⟨schedule, ?_⟩, hworkers'⟩
    rw [Manager.job_of_running hphase] at hjob
    rw [job_after_of_ok hok]
    rcases hjobs with hsame | ⟨name', job', hended, hlookup, herase⟩
    · rw [hsame, hjob]
    · have hne : name ≠ name' := by
        -- the event reports the end of a worker, and this one lives
        rintro rfl
        rw [hjob, Option.some.injEq] at hlookup
        subst hlookup
        obtain ⟨w', hw', hend⟩ := hreg.ended evt (by simp [hsup]) _ hended
        rw [hw, Option.some.injEq] at hw'
        rw [← hw', halive] at hend
        cases hend
      rw [herase, AList.lookup_erase_ne hne, hjob]
  | handle actor' readings state msg hnext hfresh =>
    obtain ⟨hphase, -, -⟩ := running_of_nextMsg hnext
    have hok := (handle_ok_iff s.workers ⟨s.now, actor', readings⟩ state msg).mpr
      ((castOpen_handle_iff hnext actor' readings).mp hopen)
    -- the worker belongs to this name only
    have hdistinct : ∀ name' job', state.jobs.lookup name' = some job' → job'.2 = actor →
        name' = name := by
      intro name' job' hjob' hsame
      exact hreg.distinct name' name job' (schedule, actor)
        (by rw [Manager.job_of_running hphase, hjob']) hjob hsame
    have hspared : msg ≠ .stop name := by
      rintro rfl
      simp [spares, hnext] at hspares
    rw [Manager.job_of_running hphase] at hjob
    have hkept := (handle_cases s.workers ⟨s.now, actor', readings⟩ state msg).keeps hfresh hok
      hjob hdistinct hspared hw halive hstop
    rw [Manager.Keeps, job_after_of_ok hok, after_of_ok hok]
    exact hkept

/-- **When the manager survives its jobs.** Of all handlers only that of a `SetSchedule` whose
job's worker has closed its mailbox returns an error. So a run keeps the manager from failing
exactly when each `SetSchedule` of it found the mailbox open (or no such job); and as long as it
does, every job that is not stopped and whose own worker lives stays in the map with that
worker, which is not stopped, whenever and however other workers end. -/
theorem manager_survives_iff [Schedule S] :
    (∀ (workers : Workers S) spawning state msg,
      (CronManager.handle workers spawning state msg).result = .ok () ↔
        ∀ who schedule job, msg = .setSchedule who schedule →
          state.jobs.lookup who = some job →
            ∃ w, workers job.2.getId = some w ∧ w.isEnded = false) ∧
    (∀ (workers : Workers S) evt state,
      (CronManager.handleSupervisorEvt workers evt state).result = .ok ()) ∧
    (∀ (es : List (ManagerEvent S)) s, runManager es = some s →
      (Throughout Manager.step (fun s => s.hasFailed = false) (Manager.spawn 0) es ↔
        Run Manager.step (fun s e => castOpen s e = true) (Manager.spawn 0) es s)) ∧
    ∀ (es es' : List (ManagerEvent S)) s s' name actor, runManager es = some s →
      s.Keeps name actor →
      Run Manager.step (fun s e => castOpen s e = true ∧ spares name actor s e = true) s es' s' →
      s'.Keeps name actor := by
  refine ⟨handle_ok_iff, fun workers evt state => (handleSupervisorEvt_cases workers evt state).1,
    fun es s h => ?_, fun es es' s s' name actor h hkeeps hrun => ?_⟩
  · refine (run_iff_throughout (I := fun _ => True) (P := fun s => s.hasFailed = false) h
      trivial rfl ?_ ?_).symm
    · intro s e s' _ _ _ _
      trivial
    · intro s e s' _ hs hstep
      exact hasFailed_of_step_iff hs hstep
  · refine hrun.invariant_of (P := Registry) (Q := fun s => s.Keeps name actor)
      (registry_of_run h) ?_ hkeeps ?_
    · intro s e s' hreg hstep
      exact hreg.step hstep
    · rintro s e s' hreg hk ⟨hopen, hspares⟩ hstep
      exact keeps_of_step hreg hk hopen hspares hstep

/-! ## Two jobs, one of which panics -/

/-- Two jobs are started, and the first one panics in its first execution. -/
def panicOfTen : List (ManagerEvent Every) :=
  [.post (.start { schedule := ⟨10⟩, job := ⟨"ten"⟩ } ⟨0⟩), .handle ⟨.loc 1⟩ ⟨0, 0⟩,
    .post (.start { schedule := ⟨60⟩, job := ⟨"sixty"⟩ } ⟨1⟩), .handle ⟨.loc 2⟩ ⟨0, 0⟩,
    .announce (.loc 1), .supervise, .elapse 10, .worker (.loc 1) (.expire 0),
    .worker (.loc 1) (.handle ⟨10, 10⟩), .worker (.loc 1) (.panic (.message "Boom!"))]

/-- The job `sixty` of a state, as far as it concerns `Manager.Keeps`. -/
def sixty (s : Manager Every) : Option ActorCell × Option (Bool × Bool) :=
  ((s.job "sixty").map (·.2), (s.workers (.loc 2)).map fun w => (w.isEnded, w.stopping.isNone))

theorem keeps_sixty {s : Manager Every} (h : sixty s = (some ⟨.loc 2⟩, some (false, true))) :
    s.Keeps "sixty" ⟨.loc 2⟩ := by
  rw [sixty, Prod.mk.injEq, Option.map_eq_some_iff, Option.map_eq_some_iff] at h
  obtain ⟨⟨⟨schedule, actor⟩, hjob, hactor⟩, w, hw, hflags⟩ := h
  rw [Prod.mk.injEq, Option.isNone_iff_eq_none] at hflags
  exact ⟨⟨schedule, hactor ▸ hjob⟩, w, hw, hflags⟩

/-- The schedule of the dead job is set once its exit event was handled: the manager and the
other job go on. -/
theorem manager_survives_iff_late_update :
    ∃ s s', runManager panicOfTen = some s ∧
      exec Manager.step s [.report (.loc 1), .supervise, .post (.setSchedule "ten" ⟨20⟩),
        .handle ⟨.loc 3⟩ ⟨0, 0⟩] = some s' ∧ s'.Keeps "sixty" ⟨.loc 2⟩ := by
  obtain ⟨s, hs⟩ : ∃ s, runManager panicOfTen = some s :=
    Option.isSome_iff_exists.mp (by decide)
  have hsixty : (runManager panicOfTen).map sixty =
      some (some ⟨.loc 2⟩, some (false, true)) := by decide
  let es : List (ManagerEvent Every) :=
    [.report (.loc 1), .supervise, .post (.setSchedule "ten" ⟨20⟩), .handle ⟨.loc 3⟩ ⟨0, 0⟩]
  have hchecked : ((runManager panicOfTen).bind fun s =>
      exec (checked (fun s e => castOpen s e && spares "sixty" ⟨.loc 2⟩ s e) Manager.step) s
        es).isSome = true := by decide
  rw [hs, Option.map_some, Option.some.injEq] at hsixty
  rw [hs, Option.bind_some] at hchecked
  obtain ⟨s', hs'⟩ := Option.isSome_iff_exists.mp hchecked
  have hrun := run_iff_exec_checked.mpr hs'
  have hkeeps := manager_survives_iff.2.2.2 panicOfTen es s s' "sixty" ⟨.loc 2⟩ hs
    (keeps_sixty hsixty) (hrun.mono fun s e hg => by simpa using hg)
  exact ⟨s, s', hs, hrun.exec_eq, hkeeps⟩

/-- **A dead job takes the manager down.** Its schedule is set before its exit event was
handled: the cast fails, the handler fails the manager, and the worker of the other job, which
did nothing, is terminated with it. -/
theorem dead_job_takes_down_manager :
    ¬ (∀ (es : List (ManagerEvent Every)) s, runManager es = some s → s.hasFailed = false) ∧
    ∃ es s, runManager (panicOfTen ++ es) = some s ∧
      es = [.post (.setSchedule "ten" ⟨20⟩), .handle ⟨.loc 3⟩ ⟨0, 0⟩] ∧
      sixty s = (none, some (true, true)) := by
  let es : List (ManagerEvent Every) :=
    [.post (.setSchedule "ten" ⟨20⟩), .handle ⟨.loc 3⟩ ⟨0, 0⟩]
  have hend : (runManager (panicOfTen ++ es)).map (fun s => (s.hasFailed, sixty s)) =
      some (true, none, some (true, true)) := by decide
  rw [Option.map_eq_some_iff] at hend
  obtain ⟨s, hs, hproj⟩ := hend
  rw [Prod.mk.injEq] at hproj
  refine ⟨fun hall => ?_, es, s, hs, rfl, hproj.2⟩
  have hgood := hall _ s hs
  rw [hproj.1] at hgood
  cases hgood

end RactorActors.Time.Cron
