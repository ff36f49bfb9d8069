import RactorActors.Time.Cron.Agreement
import RactorActors.Time.Cron.Liveness
import RactorActors.Time.Cron.Notices

/-!
# The workers of a manager

A worker in the manager's care meets other events than one that is modelled alone: it is spawned
by a `Start`, sent schedules by `SetSchedule`, stopped by `Stop`, and ended with its manager. All
the same it lives a run of the worker alone, so what holds of every such run holds of every worker
there is.

* `sentSchedules` and `scheduled`: the schedules a worker is sent in its life, and those that the
  manager was told to set for its job;
* `Manager.Lived`: each worker has lived a run from the `pre_start` of the `Start` that spawned it,
  and was sent exactly the schedules set for its job;
* `pool_lives`: so it is in every reachable state;
* `jobs_are_driven`: no job of the map loses its trigger, and one that is never rescheduled has no
  second one;
* `absent_job_never_executes`: a job that is not in the map begins no work, whatever timers and
  messages its former workers still hold.
-/

namespace RactorActors.Time.Cron

open AssociationList LabelledRun

variable {S : Type}

/-- The schedules that a worker is sent in the events of its life. -/
def sentSchedules (es : List (WorkerEvent S)) : List S :=
  es.filterMap fun
    | .update newSchedule => some newSchedule
    | _ => none

theorem sentSchedules_append (es es' : List (WorkerEvent S)) :
    sentSchedules (es ++ es') = sentSchedules es ++ sentSchedules es' :=
  List.filterMap_append

/-- The schedule that the handled input sets for the job of the worker `id`, if it sets one. -/
def ManagerEntry.sets (e : ManagerEntry S) (id : ActorId) : Option S :=
  match e.input with
  | .msg (.setSchedule who schedule) =>
    if (e.before.jobs.lookup who).any (·.2.getId = id) then some schedule else none
  | _ => none

/-- The schedules set for the job of the worker `id`, oldest first. -/
def scheduled (id : ActorId) (history : List (ManagerEntry S)) : List S :=
  (history.filterMap (·.sets id)).reverse

theorem scheduled_cons (id : ActorId) (e : ManagerEntry S) (history : List (ManagerEntry S)) :
    scheduled id (e :: history) = scheduled id history ++ (e.sets id).toList := by
  unfold scheduled
  rw [List.filterMap_cons]
  cases h : e.sets id with
  | none => rw [Option.toList_none, List.append_nil]
  | some schedule => rw [List.reverse_cons, Option.toList_some]

/-- A handled message sets a schedule only for a worker that was spawned. -/
theorem sets_eq_none_of_fresh {s : Manager S} (hreg : Registry s) {state : CronManagerState S}
    (hphase : s.phase = .running state) {id : ActorId} (hfresh : s.workers id = none)
    {e : ManagerEntry S} (hbefore : e.before = state) : e.sets id = none := by
  unfold ManagerEntry.sets
  split
  · rename_i who schedule _
    rw [hbefore]
    refine if_neg fun hany => ?_
    rw [Option.any_eq_true] at hany
    obtain ⟨job, hjob, hid⟩ := hany
    rw [decide_eq_true_eq] at hid
    rw [← Manager.job_of_running hphase] at hjob
    obtain ⟨w, hw⟩ := hreg.known who job hjob
    rw [hid, hfresh] at hw
    cases hw
  · rfl

variable [Schedule S]

/-! ## From one state of a worker to a later one -/

/-- `w'` is a later state of the worker `w`, which was sent the schedules `sent` in between. -/
def Worker.Onward (w w' : Worker S) (sent : List S) : Prop :=
  ∃ es, exec Worker.step w es = some w' ∧ sentSchedules es = sent

namespace Worker.Onward

theorem refl (w : Worker S) : w.Onward w [] := ⟨[], rfl, rfl⟩

theorem trans {w w' w'' : Worker S} {sent sent' : List S} (h : w.Onward w' sent)
    (h' : w'.Onward w'' sent') : w.Onward w'' (sent ++ sent') := by
  obtain ⟨es, hes, rfl⟩ := h
  obtain ⟨es', hes', rfl⟩ := h'
  exact ⟨es ++ es', by rw [exec_append, hes, Option.bind_some, hes'], sentSchedules_append es es'⟩

theorem of_step {w w' : Worker S} {e : WorkerEvent S} (h : w.step e = some w') :
    w.Onward w' (sentSchedules [e]) :=
  ⟨[e], by rw [exec_cons, h, Option.bind_some, exec_nil], rfl⟩

/-- A worker is stopped. -/
theorem stop (w : Worker S) (reason : Option String) : w.Onward (w.stop reason) [] :=
  of_step (e := .stop reason) rfl

/-- A worker is killed. -/
theorem kill (w : Worker S) : w.Onward w.kill [] := of_step (e := .kill) rfl

/-- A worker is sent a schedule. -/
theorem update {w : Worker S} (halive : w.isEnded = false) (schedule : S) :
    w.Onward { w with myself := w.myself.post (.updateSchedule schedule) } [schedule] := by
  refine of_step (e := .update schedule) ?_
  simp only [Worker.step, Worker.cast, halive, Bool.false_eq_true, if_false]

/-- A worker that has ended is sent a schedule, which is lost. -/
theorem lost {w : Worker S} (hended : w.isEnded = true) (schedule : S) :
    w.Onward w [schedule] := by
  refine of_step (e := .update schedule) ?_
  simp only [Worker.step, Worker.cast, hended, if_true]

end Worker.Onward

/-- Each worker of `workers'` is a later state of one of `workers`, and was sent no schedule. -/
def Workers.Onward (workers workers' : Workers S) : Prop :=
  ∀ id w', workers' id = some w' → ∃ w, workers id = some w ∧ w.Onward w' []

namespace Workers.Onward

theorem refl (workers : Workers S) : workers.Onward workers :=
  fun _ w hw => ⟨w, hw, Worker.Onward.refl w⟩

theorem trans {ws ws' ws'' : Workers S} (h : ws.Onward ws') (h' : ws'.Onward ws'') :
    ws.Onward ws'' := by
  intro id w'' hw''
  obtain ⟨w', hw', hon'⟩ := h' id w'' hw''
  obtain ⟨w, hw, hon⟩ := h id w' hw'
  exact ⟨w, hw, hon.trans hon'⟩

/-- Doing to all workers what may happen to one. -/
theorem map {workers : Workers S} {f : Worker S → Worker S}
    (h : ∀ w : Worker S, w.Onward (f w) []) : workers.Onward fun id => (workers id).map f := by
  intro id w' hw'
  rw [Option.map_eq_some_iff] at hw'
  obtain ⟨w, hw, rfl⟩ := hw'
  exact ⟨w, hw, h w⟩

/-- Replacing one worker by a later state of it. -/
theorem update {workers : Workers S} {id : ActorId} {w w' : Worker S}
    (hw : workers id = some w) (h : w.Onward w' []) :
    workers.Onward (Function.update workers id (some w')) := by
  intro id' w₁ hw₁
  by_cases hid : id' = id
  · subst hid
    rw [Function.update_self, Option.some.injEq] at hw₁
    exact ⟨w, hw, hw₁ ▸ h⟩
  · rw [Function.update_of_ne hid] at hw₁
    exact ⟨w₁, hw₁, Worker.Onward.refl w₁⟩

/-- Stopping one worker. -/
theorem stop (workers : Workers S) (actor : ActorCell) (reason : Option String) :
    workers.Onward (workers.stop actor reason) := by
  unfold Workers.stop
  cases hw : workers actor.getId with
  | none =>
    rw [Option.map_none, ← hw, Function.update_eq_self]
    exact refl workers
  | some w => exact update hw (Worker.Onward.stop w reason)

/-- Stopping the worker of every job. -/
theorem postStop (workers : Workers S) (state : CronManagerState S) :
    workers.Onward (CronManager.postStop workers state).1 := by
  unfold CronManager.postStop
  generalize state.jobs.entries = actors
  induction actors generalizing workers with
  | nil => exact refl workers
  | cons actor actors ih => exact (stop workers actor.2.2 none).trans (ih _)

/-- Ending all workers. -/
theorem kill (workers : Workers S) : workers.Onward fun id => (workers id).map (·.kill) :=
  map Worker.Onward.kill

end Workers.Onward

/-! ## Each worker lives a life of its own -/

/-- The entry that a handled message leaves in the history. -/
def entryOf (workers : Workers S) (spawning : Spawning) (state : CronManagerState S)
    (msg : CronManagerMessage S) : ManagerEntry S :=
  ⟨.msg msg, some spawning, state, (CronManager.handle workers spawning state msg).notices,
    (CronManager.handle workers spawning state msg).replies⟩

/-- **What a handled message is to a worker.** The worker was there and was sent the schedule that
the message sets for its job, if it sets one; or it was spawned by a `Start`, answered `Ok`. -/
theorem onward_of_handle {workers : Workers S} {spawning : Spawning}
    {state : CronManagerState S} {msg : CronManagerMessage S} {id : ActorId} {w' : Worker S}
    (hw' : (CronManager.handle workers spawning state msg).workers id = some w') :
    (∃ w, workers id = some w ∧
      w.Onward w' ((entryOf workers spawning state msg).sets id).toList) ∨
    ∃ settings reply, msg = .start settings reply ∧
      (CronManager.handle workers spawning state msg).result = .ok () ∧
      spawning.actor.getId = id ∧
      (entryOf workers spawning state msg).replies = [(reply, .started (.ok ()))] ∧
      Worker.spawn spawning.now settings spawning.readings = .ok w' := by
  cases msg with
  | listJobs | getSchedule | subscribe | unsubscribe =>
    exact Or.inl ⟨w', hw', Worker.Onward.refl w'⟩
  | stop who =>
    refine Or.inl ?_
    simp only [CronManager.handle, CronManager.stop] at hw'
    split at hw'
    · rename_i job _
      exact Workers.Onward.stop workers job.2 none id w' hw'
    · exact ⟨w', hw', Worker.Onward.refl w'⟩
  | start settings reply =>
    simp only [entryOf, CronManager.handle] at hw' ⊢
    have hcase := start_cases workers spawning settings reply state
    generalize CronManager.start workers spawning settings reply state = out at hcase hw' ⊢
    cases hcase with
    | refused => exact Or.inl ⟨w', hw', Worker.Onward.refl w'⟩
    | spawned w _ hspawn =>
      simp only at hw' ⊢
      by_cases hid : id = spawning.actor.getId
      · rw [hid, Function.update_self, Option.some.injEq] at hw'
        exact Or.inr ⟨settings, reply, rfl, trivial, hid.symm, rfl, hw' ▸ hspawn⟩
      · rw [Function.update_of_ne hid] at hw'
        exact Or.inl ⟨w', hw', Worker.Onward.refl w'⟩
  | setSchedule who schedule =>
    have hsets : (entryOf workers spawning state (.setSchedule who schedule)).sets id =
        if (state.jobs.lookup who).any (·.2.getId = id) then some schedule else none := rfl
    rw [hsets]
    refine Or.inl ?_
    have hcase := handle_cases workers spawning state (.setSchedule who schedule)
    generalize CronManager.handle workers spawning state (.setSchedule who schedule) = out
      at hcase hw'
    cases hcase with
    | quiet _ _ _ hworkers _ habsent =>
      rw [habsent who schedule rfl]
      exact ⟨w', hworkers ▸ hw', Worker.Onward.refl w'⟩
    | failed _ _ job err _ hlookup hclosed hworkers =>
      rw [hworkers] at hw'
      rw [hlookup, Option.any_some]
      by_cases hid : job.2.getId = id
      · -- the schedule meets a closed mailbox
        rw [if_pos (decide_eq_true hid)]
        exact ⟨w', hw', Worker.Onward.lost (hclosed w' (hid ▸ hw')) schedule⟩
      · rw [if_neg (by simpa using hid)]
        exact ⟨w', hw', Worker.Onward.refl w'⟩
    | updated _ _ job w _ hlookup hw halive _ hworkers =>
      rw [hworkers] at hw'
      rw [hlookup, Option.any_some]
      by_cases hid : job.2.getId = id
      · rw [if_pos (decide_eq_true hid)]
        rw [← hid, Function.update_self, Option.some.injEq] at hw'
        exact ⟨w, hid ▸ hw, hw' ▸ Worker.Onward.update halive schedule⟩
      · rw [if_neg (by simpa using hid)]
        rw [Function.update_of_ne (Ne.symm hid)] at hw'
        exact ⟨w', hw', Worker.Onward.refl w'⟩

/-- **What a step is to a worker.** The worker was there and was sent what the step sets for its
job; or it was spawned in the step by a `Start`, answered `Ok`. -/
theorem onward_of_step {s s' : Manager S} {e : ManagerEvent S} (h : s.step e = some s')
    {id : ActorId} {w' : Worker S} (hw' : s'.workers id = some w') :
    (∃ w sent, s.workers id = some w ∧ w.Onward w' sent ∧
      scheduled id s'.history = scheduled id s.history ++ sent) ∨
    ∃ e₀ spawning settings reply, s.workers id = none ∧ s'.history = e₀ :: s.history ∧
      e₀.input = .msg (.start settings reply) ∧ e₀.spawning = some spawning ∧
      spawning.actor.getId = id ∧ e₀.replies = [(reply, .started (.ok ()))] ∧
      Worker.spawn spawning.now settings spawning.readings = .ok w' := by
  -- all that is left to show of a step that handles nothing
  have hquiet (hon : s.workers.Onward s'.workers) (hhistory : s'.history = s.history) :
      ∃ w sent, s.workers id = some w ∧ w.Onward w' sent ∧
        scheduled id s'.history = scheduled id s.history ++ sent := by
    obtain ⟨w, hw, honward⟩ := hon id w' hw'
    exact ⟨w, [], hw, honward, by rw [hhistory, List.append_nil]⟩
  cases Manager.step_cases h with
  | post | stop | lost => exact Or.inl (hquiet (Workers.Onward.refl _) rfl)
  | announce | report =>
    exact Or.inl (hquiet ((deliver_workers _ _).symm ▸ Workers.Onward.refl _) (history_deliver _ _))
  | elapse duration =>
    refine Or.inl (hquiet (Workers.Onward.map fun w => ?_) rfl)
    exact Worker.Onward.of_step (e := .elapse duration) rfl
  | kill => exact Or.inl (hquiet (Workers.Onward.kill _) rfl)
  | takeStop state =>
    refine Or.inl (hquiet ?_ rfl)
    exact (Workers.Onward.postStop _ state).trans (Workers.Onward.kill _)
  | worker id₀ e₀ w₀ w₁ henabled hw₀ hstep =>
    refine Or.inl (hquiet (Workers.Onward.update hw₀ ?_) rfl)
    -- only the manager sends a worker its schedules
    have hnone : sentSchedules [e₀] = [] := by
      cases e₀ with
      | update newSchedule => cases henabled
      | _ => rfl
    exact hnone ▸ Worker.Onward.of_step hstep
  | supervise state evt rest =>
    obtain ⟨hok, hworkers, -⟩ := handleSupervisorEvt_cases s.workers evt state
    rw [after_of_ok hok, hworkers] at hw'
    refine Or.inl ⟨w', [], hw', Worker.Onward.refl w', ?_⟩
    rw [history_after, scheduled_cons]
    rfl
  | handle actor readings state msg hnext hfresh =>
    rcases hres : (CronManager.handle s.workers ⟨s.now, actor, readings⟩ state msg).result
      with err | _
    · -- the failure ends every worker
      rw [(after_of_error hres).2.2] at hw'
      rw [Option.map_eq_some_iff] at hw'
      obtain ⟨w₁, hw₁, rfl⟩ := hw'
      rcases onward_of_handle hw₁ with ⟨w, hw, honward⟩ | ⟨settings, reply, rfl, hok, -⟩
      · refine Or.inl ⟨w, _, hw, honward.trans (Worker.Onward.kill w₁), ?_⟩
        rw [history_after, List.append_nil]
        exact scheduled_cons ..
      · rw [hok] at hres
        cases hres
    · rw [after_of_ok hres] at hw' ⊢
      rcases onward_of_handle hw' with
        ⟨w, hw, honward⟩ | ⟨settings, reply, rfl, -, hid, hok, hspawn⟩
      · exact Or.inl ⟨w, _, hw, honward, scheduled_cons ..⟩
      · exact Or.inr ⟨_, ⟨s.now, actor, readings⟩, settings, reply, hid ▸ hfresh, rfl, rfl, rfl,
          hid, hok, hspawn⟩

/-- Each worker has lived a life of its own. -/
structure Manager.Lived (s : Manager S) : Prop where
  /-- Schedules were set for workers that were spawned. -/
  known : ∀ e ∈ s.history, ∀ id, e.sets id ≠ none → ∃ w, s.workers id = some w
  /-- A worker was spawned by a `Start`, and has taken steps of its own since. -/
  lives : ∀ id w, s.workers id = some w →
    ∃ e ∈ s.history, ∃ spawning settings reply w₀,
      e.input = .msg (.start settings reply) ∧ e.spawning = some spawning ∧
      spawning.actor.getId = id ∧ e.replies = [(reply, .started (.ok ()))] ∧
      Worker.spawn spawning.now settings spawning.readings = .ok w₀ ∧
      w₀.Onward w (scheduled id s.history)

/-- What the newest entry sets a schedule for is a worker that was there. -/
theorem known_of_step {s s' : Manager S} {e : ManagerEvent S} (hreg : Registry s)
    (h : s.step e = some s') {e₀ : ManagerEntry S} (he₀ : s'.history = e₀ :: s.history)
    {id : ActorId} (hsets : e₀.sets id ≠ none) : ∃ w, s.workers id = some w := by
  cases hw : s.workers id with
  | some w => exact ⟨w, rfl⟩
  | none =>
    refine absurd ?_ hsets
    cases history_cases h with
    | none hsame =>
      rw [hsame] at he₀
      exact absurd he₀.symm (List.cons_ne_self _ _)
    | msg actor readings state msg he hnext hfresh hs' =>
      rw [hs', history_after, List.cons.injEq] at he₀
      exact sets_eq_none_of_fresh hreg (running_of_nextMsg hnext).1 hw (by rw [← he₀.1])
    | evt state evt rest he hphase hsup hs' =>
      rw [hs', history_after, List.cons.injEq] at he₀
      exact sets_eq_none_of_fresh hreg hphase hw (by rw [← he₀.1])

/-- **Step lemma.** -/
theorem Manager.Lived.step {s s' : Manager S} {e : ManagerEvent S} (hreg : Registry s)
    (hs : s.Lived) (h : s.step e = some s') : s'.Lived := by
  have hext := workers_extends_of_step h
  have hknown : ∀ id, (∃ w, s.workers id = some w) → ∃ w, s'.workers id = some w := by
    rintro id ⟨w, hw⟩
    obtain ⟨w', hw', -⟩ := hext id w hw
    exact ⟨w', hw'⟩
  constructor
  · intro e₀ he₀ id hsets
    rcases history_of_step h with hsame | ⟨e₁, hnew⟩
    · exact hknown id (hs.known e₀ (hsame ▸ he₀) id hsets)
    · rw [hnew, List.mem_cons] at he₀
      rcases he₀ with rfl | hold
      · exact hknown id (known_of_step hreg h hnew hsets)
      · exact hknown id (hs.known e₀ hold id hsets)
  · intro id w' hw'
    rcases onward_of_step h hw' with
      ⟨w, sent, hw, honward, hsent⟩ | ⟨e₀, spawning, settings, reply, hnone, hnew, hinput, hsp, hid,
        hreplies, hspawn⟩
    · obtain ⟨e₀, he₀, spawning, settings, reply, w₀, hinput, hsp, hid, hreplies, hspawn, hlived⟩ :=
        hs.lives id w hw
      refine ⟨e₀, ?_, spawning, settings, reply, w₀, hinput, hsp, hid, hreplies, hspawn, ?_⟩
      · rcases history_of_step h with hsame | ⟨e₁, hnew⟩
        · exact hsame ▸ he₀
        · exact hnew ▸ List.mem_cons_of_mem _ he₀
      · exact hsent ▸ hlived.trans honward
    · -- a worker that was just spawned was sent nothing
      refine ⟨e₀, hnew ▸ List.mem_cons_self, spawning, settings, reply, w', hinput, hsp, hid,
        hreplies, hspawn, ?_⟩
      have hunset : ∀ e ∈ e₀ :: s.history, e.sets id = none := by
        intro e he
        rcases List.mem_cons.mp he with rfl | hold
        · simp [ManagerEntry.sets, hinput]
        · by_contra hsets
          obtain ⟨w, hw⟩ := hs.known e hold id hsets
          rw [hnone] at hw
          cases hw
      have hnil : scheduled id (e₀ :: s.history) = [] := by
        rw [scheduled, List.reverse_eq_nil_iff, List.filterMap_eq_nil_iff]
        exact hunset
      rw [hnew, hnil]
      exact Worker.Onward.refl w'

/-- The lives of a run. -/
theorem lived_of_run {es : List (ManagerEvent S)} {s : Manager S} (h : runManager es = some s) :
    s.Lived := by
  refine (run_true_iff.mpr h).invariant_of (P := Registry) (Q := Manager.Lived) (registry_spawn 0)
    (fun _ _ _ hreg hstep => hreg.step hstep) ⟨?_, ?_⟩ ?_
  · intro e he
    cases he
  · intro id w hw
    cases hw
  · intro s e s' hreg hs _ hstep
    exact hs.step hreg hstep

/-- **A worker of the manager lives as a worker alone.** In every reachable state each worker was
spawned by a `Start`, which was answered `Ok`, with the settings of that message; since then it has
taken the steps of the worker alone; and the schedules it was sent are those that `SetSchedule` has
set for its job, in that order. -/
theorem pool_lives {es : List (ManagerEvent S)} {s : Manager S} {id : ActorId} {w : Worker S}
    (h : runManager es = some s) (hw : s.workers id = some w) :
    ∃ e ∈ s.history, ∃ spawning settings reply w₀ es',
      e.input = .msg (.start settings reply) ∧ e.spawning = some spawning ∧
      spawning.actor.getId = id ∧ e.replies = [(reply, .started (.ok ()))] ∧
      Worker.spawn spawning.now settings spawning.readings = .ok w₀ ∧
      exec Worker.step w₀ es' = some w ∧ sentSchedules es' = scheduled id s.history := by
  obtain ⟨e, he, spawning, settings, reply, w₀, hinput, hsp, hid, hreplies, hspawn, es', hes',
    hsent⟩ := (lived_of_run h).lives id w hw
  exact ⟨e, he, spawning, settings, reply, w₀, es', hinput, hsp, hid, hreplies, hspawn, hes',
    hsent⟩

/-- A job is started, and its schedule is set while its first timer is armed. -/
def resetOfTen : List (ManagerEvent Every) :=
  [.post (.start { schedule := ⟨10⟩, job := ⟨"ten"⟩ } ⟨0⟩), .handle ⟨.loc 1⟩ ⟨0, 0⟩,
    .announce (.loc 1), .supervise, .post (.setSchedule "ten" ⟨20⟩), .handle ⟨.loc 2⟩ ⟨0, 0⟩,
    .worker (.loc 1) (.handle ⟨0, 0⟩), .elapse 20, .worker (.loc 1) (.expire 1)]

/-- The worker of that job was sent one schedule. -/
theorem pool_lives_reset :
    ∃ s w, runManager resetOfTen = some s ∧ s.workers (.loc 1) = some w ∧
      scheduled (.loc 1) s.history = [⟨20⟩] ∧
      ∃ e ∈ s.history, ∃ spawning settings reply w₀ es',
        e.input = .msg (.start settings reply) ∧ e.spawning = some spawning ∧
        spawning.actor.getId = .loc 1 ∧ e.replies = [(reply, .started (.ok ()))] ∧
        Worker.spawn spawning.now settings spawning.readings = .ok w₀ ∧
        exec Worker.step w₀ es' = some w ∧ sentSchedules es' = scheduled (.loc 1) s.history := by
  obtain ⟨s, hs, hpost⟩ := (Option.any_eq_true _ _).mp
    (show (runManager resetOfTen).any (fun s => (s.workers (.loc 1)).isSome &&
      decide (scheduled (.loc 1) s.history = [⟨20⟩])) = true by decide)
  rw [Bool.and_eq_true, decide_eq_true_eq] at hpost
  obtain ⟨w, hw⟩ := Option.isSome_iff_exists.mp hpost.1
  exact ⟨s, w, hs, hw, hpost.2, pool_lives hs hw⟩

/-! ## Workers that begin no work -/

/-- The deed is the beginning of the job's work. -/
def Deed.begins : Deed S → Bool
  | .executing _ => true
  | _ => false

/-- How often the worker has begun the job's work. -/
def Worker.begun (w : Worker S) : ℕ := w.history.countP (·.deed.begins)

/-- Only a worker that lives begins the job's work. -/
theorem begun_of_workerStep {w w' : Worker S} {e : WorkerEvent S} (h : w.step e = some w')
    (hdead : w.isLive = false) : w'.begun = w.begun := by
  cases step_cases h with
  | lost | update | fire | lapse | elapse | takeStop | panic | kill | late => rfl
  | execute r origin hidle hstop =>
    have hlive : w.isLive = true := by simp [Worker.isLive_iff, Worker.isEnded, hidle, hstop]
    rw [hlive] at hdead
    cases hdead
  | updated | worked =>
    rw [Worker.begun, after_history]
    exact List.countP_cons_of_neg Bool.false_ne_true
  | stop reason =>
    unfold Worker.stop
    split <;> rfl

/-- A worker that does not live will not, and begins no work any more. -/
theorem begun_of_onward {w w' : Worker S} {sent : List S} (h : w.Onward w' sent)
    (hdead : w.isLive = false) : w'.isLive = false ∧ w'.begun = w.begun := by
  obtain ⟨es, hes, -⟩ := h
  refine exec_invariant (P := fun t => t.isLive = false ∧ t.begun = w.begun) hes ⟨hdead, rfl⟩ ?_
  rintro t e t' ⟨ht, hbegun⟩ hstep
  refine ⟨Bool.eq_false_iff.mpr fun hlive => ?_, (begun_of_workerStep hstep ht).trans hbegun⟩
  rw [isLive_of_workerStep hstep hlive] at ht
  cases ht

/-- **A job that has left the map begins no work.** Take any state of a run and a worker that the
map does not hold under its job's name: the job was stopped, its exit was handled, another worker
runs it by now, or the manager has ended. However the run goes on, and whatever timers and messages
the worker still has, it never begins the job's work again. -/
theorem absent_job_never_executes {es es' : List (ManagerEvent S)} {s s' : Manager S}
    {id : ActorId} {w : Worker S} (h : runManager es = some s) (hw : s.workers id = some w)
    (habsent : ∀ schedule, s.job w.state.job.id ≠ some (schedule, ⟨id⟩))
    (hlater : exec Manager.step s es' = some s') :
    ∃ w', s'.workers id = some w' ∧ w'.begun = w.begun := by
  have hdead : w.isLive = false := by
    refine Bool.eq_false_iff.mpr fun hlive => ?_
    obtain ⟨schedule, hjob⟩ := (listed_of_run h).live id w hw hlive
    exact habsent schedule hjob
  obtain ⟨w', hw', -, hbegun⟩ : ∃ w', s'.workers id = some w' ∧ w'.isLive = false ∧
      w'.begun = w.begun := by
    refine exec_invariant (P := fun t => ∃ w', t.workers id = some w' ∧ w'.isLive = false ∧
      w'.begun = w.begun) hlater ⟨w, hw, hdead, rfl⟩ ?_
    rintro t e t' ⟨w₁, hw₁, hdead₁, hbegun₁⟩ hstep
    obtain ⟨w₂, hw₂, -⟩ := workers_extends_of_step hstep id w₁ hw₁
    rcases onward_of_step hstep hw₂ with ⟨w₃, sent, hw₃, honward, -⟩ | ⟨_, _, _, _, hnone, -⟩
    · rw [hw₁, Option.some.injEq] at hw₃
      subst hw₃
      obtain ⟨hdead₂, hbegun₂⟩ := begun_of_onward honward hdead₁
      exact ⟨w₂, hw₂, hdead₂, hbegun₂.trans hbegun₁⟩
    · rw [hw₁] at hnone
      cases hnone
  exact ⟨w', hw', hbegun⟩

/-- A job is stopped with a timer armed. The timer posts its `Execute`, which is never taken. -/
theorem absent_job_never_executes_stopped :
    ∃ s w s' w', runManager [.post (.start { schedule := (⟨10⟩ : Every), job := ⟨"ten"⟩ } ⟨0⟩),
        .handle ⟨.loc 1⟩ ⟨0, 0⟩, .announce (.loc 1), .supervise, .post (.stop "ten"),
        .handle ⟨.loc 2⟩ ⟨0, 0⟩] = some s ∧
      s.workers (.loc 1) = some w ∧
      exec Manager.step s [.elapse 10, .worker (.loc 1) (.expire 0)] = some s' ∧
      s'.workers (.loc 1) = some w' ∧ w'.executes = 1 ∧ w'.begun = w.begun := by
  obtain ⟨s, hs, hpost⟩ := (Option.any_eq_true _ _).mp
    (show (runManager [.post (.start { schedule := (⟨10⟩ : Every), job := ⟨"ten"⟩ } ⟨0⟩),
        .handle ⟨.loc 1⟩ ⟨0, 0⟩, .announce (.loc 1), .supervise, .post (.stop "ten"),
        .handle ⟨.loc 2⟩ ⟨0, 0⟩]).any (fun s =>
      ((s.workers (.loc 1)).any fun w => (s.job w.state.job.id).isNone) &&
        ((exec Manager.step s [.elapse 10, .worker (.loc 1) (.expire 0)]).any fun s' =>
          (s'.workers (.loc 1)).any fun w' => decide (w'.executes = 1))) = true by decide)
  rw [Bool.and_eq_true, Option.any_eq_true, Option.any_eq_true] at hpost
  obtain ⟨⟨w, hw, hjob⟩, s', hs', hqueued⟩ := hpost
  rw [Option.any_eq_true] at hqueued
  obtain ⟨w', hw', hexecutes⟩ := hqueued
  rw [Option.isNone_iff_eq_none] at hjob
  have habsent (schedule : Every) : s.job w.state.job.id ≠ some (schedule, ⟨.loc 1⟩) := by
    rw [hjob]
    exact nofun
  obtain ⟨w₁, hw₁, hbegun⟩ := absent_job_never_executes hs hw habsent hs'
  rw [hw', Option.some.injEq] at hw₁
  exact ⟨s, w, s', w', hs, hw, hs', hw', of_decide_eq_true hexecutes, hw₁ ▸ hbegun⟩

/-! ## The jobs of the map -/

/-- A worker runs the same job for all its life. -/
theorem job_of_onward {w w' : Worker S} {sent : List S} (h : w.Onward w' sent) :
    w'.state.job = w.state.job := by
  obtain ⟨es, hes, -⟩ := h
  exact exec_invariant (P := fun t => t.state.job = w.state.job) hes rfl
    fun _ _ _ ht hstep => (job_of_workerStep hstep).1.trans ht

/-- The worker of an entry runs the job of that name. -/
def Manager.Named (s : Manager S) : Prop :=
  ∀ name job w, s.job name = some job → s.workers job.2.getId = some w → w.state.job.id = name

/-- **Step lemma.** -/
theorem Manager.Named.step {s s' : Manager S} {e : ManagerEvent S} (hreg : Registry s)
    (hs : s.Named) (h : s.step e = some s') : s'.Named := by
  intro name job w' hjob hw'
  rcases onward_of_step h hw' with
    ⟨w, sent, hw, honward, -⟩ |
      ⟨e₀, spawning, settings, reply, hnone, hnew, hinput, -, -, -, hspawn⟩
  · rcases job_of_step h hjob with ⟨job', hjob', hsame⟩ | ⟨-, hfresh, -⟩
    · rw [job_of_onward honward]
      exact hs name job' w hjob' (hsame ▸ hw)
    · rw [hw] at hfresh
      cases hfresh
  · rcases job_of_step h hjob with ⟨job', hjob', hsame⟩ | ⟨-, -, -, hstart⟩
    · obtain ⟨w, hw⟩ := hreg.known name job' hjob'
      rw [hsame, hnone] at hw
      cases hw
    · -- the `Start` that made the entry is the one that spawned the worker
      obtain ⟨readings, state, settings', reply', he, hnext, rfl⟩ := hstart
      rw [(spawn_fields hspawn).1]
      cases history_cases h with
      | none hsame hquiet => exact absurd he (hquiet _ _)
      | evt state evt rest he' =>
        rw [he'] at he
        cases he
      | msg actor readings' state' msg _ hnext' _ hs' =>
        rw [hs', history_after, List.cons.injEq] at hnew
        rw [hnext, Option.some.injEq, Prod.mk.injEq] at hnext'
        rw [← hnew.1, ← hnext'.2, ManagerInput.msg.injEq, CronManagerMessage.start.injEq] at hinput
        rw [hinput.1]

/-- The names of a run. -/
theorem named_of_run {es : List (ManagerEvent S)} {s : Manager S} (h : runManager es = some s) :
    s.Named := by
  refine (run_true_iff.mpr h).invariant_of (P := Registry) (Q := Manager.Named) (registry_spawn 0)
    (fun _ _ _ hreg hstep => hreg.step hstep) ?_ ?_
  · intro name job w hjob
    cases hjob
  · intro s e s' hreg hs _ hstep
    exact hs.step hreg hstep

/-- The worker was never sent a schedule: it has at most one trigger, and only `Execute` waits. -/
structure Unchanged (schedule : S) (w : Worker S) : Prop where
  single : Single w
  one : w.pending ≤ 1
  queue : ∀ m ∈ w.myself.queue, m.msg = .execute
  schedule : w.state.schedule = schedule

omit [Schedule S] in
/-- Where no `UpdateSchedule` waits, none is handled. -/
theorem Unchanged.nextMsg {schedule : S} {w : Worker S} (hw : Unchanged schedule w)
    {m : Envelope (CronMessage S)} (hnext : w.myself.next = some m) : m.msg = .execute :=
  hw.queue m (TimedMailbox.next_eq_some hnext ▸ List.mem_cons_self)

omit [Schedule S] in
/-- A worker that waits for no `UpdateSchedule` has promised the schedule it has. -/
theorem promised_of_execute {w : Worker S} (h : ∀ m ∈ w.myself.queue, m.msg = .execute) :
    w.promised = w.state.schedule := by
  unfold Worker.promised
  generalize w.state.schedule = schedule
  generalize w.myself.queue = queue at h
  induction queue with
  | nil => rfl
  | cons m queue ih =>
    rw [List.foldl_cons, h m List.mem_cons_self, CronMessage.applyTo]
    exact ih fun m' hm' => h m' (List.mem_cons_of_mem m hm')

/-- A handler that ends in `schedule_next` leaves no more in the queue than it found. -/
theorem mem_queue_of_after {w : Worker S} {deed : Deed S} {state : CronState S}
    {myself : TimedMailbox (CronMessage S)} {r : Readings} {m : Envelope (CronMessage S)}
    (hm : m ∈ (w.after deed (state.scheduleNext myself r)).myself.queue) : m ∈ myself.queue := by
  cases halive : (w.after deed (state.scheduleNext myself r)).isEnded with
  | false => rwa [after_queue halive, (scheduleNext_mailbox state myself r).1] at hm
  | true =>
    unfold Worker.after at halive hm
    split at hm
    · rename_i hok
      rw [hok] at halive
      cases halive
    · cases hm

/-- **Step lemma.** -/
theorem Unchanged.step {schedule : S} {w w' : Worker S} {e : WorkerEvent S}
    (hw : Unchanged schedule w) (hown : ∀ newSchedule, e ≠ .update newSchedule)
    (h : w.step e = some w') : Unchanged schedule w' := by
  have hclean : updateClean w e = true := by
    unfold updateClean
    split
    · split
      · rename_i r newSchedule hmsg
        unfold Worker.nextMsg at hmsg
        split at hmsg
        · rename_i m _ _ hnext
          rw [Option.some.injEq, hw.nextMsg hnext] at hmsg
          cases hmsg
        · cases hmsg
      · rfl
    · rfl
  obtain ⟨hsingle, hone⟩ := pending_le_one_iff hw.single hw.one h
  obtain ⟨hqueue, hschedule⟩ : (∀ m ∈ w'.myself.queue, m.msg = .execute) ∧
      w'.state.schedule = schedule := by
    cases step_cases h with
    | lost | lapse | elapse | late => exact ⟨hw.queue, hw.schedule⟩
    | update newSchedule => exact absurd rfl (hown newSchedule)
    | updated r newSchedule origin _ _ hnext => cases hw.nextMsg hnext
    | execute => exact ⟨fun m hm => hw.queue m (List.mem_of_mem_tail hm), hw.schedule⟩
    | worked result r =>
      rw [after_state, (scheduleNext_state w.state w.myself r).2]
      exact ⟨fun m hm => hw.queue m (mem_queue_of_after hm), hw.schedule⟩
    | fire t ht =>
      refine ⟨fun m hm => ?_, hw.schedule⟩
      rw [TimedMailbox.fire_queue, List.mem_append, List.mem_singleton] at hm
      rcases hm with hold | rfl
      · exact hw.queue m hold
      · exact hw.single.execute t ht
    | stop reason =>
      unfold Worker.stop
      split <;> exact ⟨hw.queue, hw.schedule⟩
    | takeStop =>
      exact ⟨nofun, (takeHandle_state w.state w.myself).2.trans hw.schedule⟩
    | panic | kill => exact ⟨nofun, hw.schedule⟩
  exact ⟨hsingle, hone.mpr hclean, hqueue, hschedule⟩

/-- A worker that was just spawned was sent nothing. -/
theorem unchanged_spawn {now : ℕ} {settings : CronSettings S} {r : Readings} {w : Worker S}
    (h : Worker.spawn now settings r = .ok w) : Unchanged settings.schedule w := by
  obtain ⟨-, hschedule, hqueue, -⟩ := spawn_fields h
  obtain ⟨hsingle, hone⟩ := single_spawn h
  exact ⟨hsingle, hone, by rw [hqueue]; exact nofun, hschedule⟩

/-- **Every job of the map is driven.** In every reachable state, the worker of an entry runs the
job of that name. Between two of its handlers, a timer is armed or an `Execute` waits if the last
of them found an occurrence to come; and as long as no `SetSchedule` was handled for it, there is
never more than one of them, and its schedule is the one that the map records. -/
theorem jobs_are_driven {es : List (ManagerEvent S)} {s : Manager S} {name : String}
    {job : S × ActorCell} {w : Worker S} (h : runManager es = some s)
    (hjob : s.job name = some job) (hw : s.workers job.2.getId = some w) :
    w.state.job.id = name ∧
    (w.phase = .idle → ∃ e old, w.history = e :: old ∧ e.deed.readings ≠ none ∧
      e.schedule = w.state.schedule ∧ (e.found ≠ none → w.HasTrigger)) ∧
    (scheduled job.2.getId s.history = [] → w.pending ≤ 1 ∧
      (w.isEnded = false → w.state.schedule = job.1)) := by
  obtain ⟨-, -, spawning, settings, -, w₀, -, -, -, -, hspawn, es', hes', hsent⟩ :=
    (lived_of_run h).lives _ w hw
  refine ⟨named_of_run h name job w hjob hw, fun hidle => ?_, fun hnone => ?_⟩
  · have hdriven : Driven w :=
      exec_invariant hes' (driven_spawn hspawn) fun _ _ _ hd hstep => hd.step hstep
    obtain ⟨e, old, he, hreadings, hschedule, htrigger⟩ := hdriven hidle
    exact ⟨e, old, he, hreadings, hschedule, fun hfound => (htrigger hfound).hasTrigger⟩
  · have hunsent : ∀ e ∈ es', ∀ (t : Worker S) newSchedule, e ≠ .update newSchedule := by
      rintro e he - newSchedule rfl
      rw [hnone, sentSchedules, List.filterMap_eq_nil_iff] at hsent
      cases hsent _ he
    have hunchanged : Unchanged settings.schedule w :=
      (run_of_forall_mem hes' hunsent).invariant (unchanged_spawn hspawn)
        fun _ _ _ hu hown hstep => hu.step hown hstep
    refine ⟨hunchanged.one, fun halive => ?_⟩
    rw [← promised_of_execute hunchanged.queue]
    exact ((agreement_of_run h).agrees name job hjob w hw halive).symm

/-- A job that was started and waits for its first occurrence has one trigger. -/
theorem jobs_are_driven_started :
    ∃ s w, runManager [.post (.start { schedule := (⟨10⟩ : Every), job := ⟨"ten"⟩ } ⟨0⟩),
        .handle ⟨.loc 1⟩ ⟨0, 0⟩] = some s ∧ s.workers (.loc 1) = some w ∧ w.pending = 1 ∧
      (w.phase = .idle → ∃ e old, w.history = e :: old ∧ e.deed.readings ≠ none ∧
        e.schedule = w.state.schedule ∧ (e.found ≠ none → w.HasTrigger)) ∧
      w.pending ≤ 1 := by
  obtain ⟨s, hs, hpost⟩ := (Option.any_eq_true _ _).mp
    (show (runManager [.post (.start { schedule := (⟨10⟩ : Every), job := ⟨"ten"⟩ } ⟨0⟩),
        .handle ⟨.loc 1⟩ ⟨0, 0⟩]).any (fun s =>
      decide (s.job "ten" = some (⟨10⟩, ⟨.loc 1⟩)) &&
        (decide (scheduled (.loc 1) s.history = []) &&
          (s.workers (.loc 1)).any fun w => decide (w.pending = 1))) = true by decide)
  rw [Bool.and_eq_true, Bool.and_eq_true, decide_eq_true_eq, decide_eq_true_eq,
    Option.any_eq_true] at hpost
  obtain ⟨hjob, hnone, w, hw, hone⟩ := hpost
  obtain ⟨-, hdriven, hle⟩ := jobs_are_driven hs hjob hw
  exact ⟨s, w, hs, hw, of_decide_eq_true hone, hdriven, (hle hnone).1⟩

end RactorActors.Time.Cron
