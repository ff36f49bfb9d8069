import RactorActors.Time.Cron.Correspondence

/-!
# Two copies of a schedule

The manager stores the schedule of every job, and so does the job's worker. `SetSchedule` enters
the new schedule in the manager's map and casts it to the worker, which takes it later. So the two
copies differ while updates wait, and agree once the worker's mailbox is applied.

* `Worker.promised`: the worker's schedule after the updates that wait in its mailbox;
* `promised_of_workerStep`: no step of the worker changes it;
* `Agreement`: it is the schedule that the manager has recorded;
* `schedules_agree`: in every reachable state, so it is what `GetSchedule` and `ListJobs` report.
-/

namespace RactorActors.Time.Cron

open AssociationList LabelledRun TimedMailbox

variable {S : Type}

/-- The schedule after a message was handled. -/
def CronMessage.applyTo (schedule : S) : CronMessage S → S
  | .execute => schedule
  | .updateSchedule newSchedule => newSchedule

/-- The schedule of a worker once it has handled all messages of its mailbox. -/
def Worker.promised (w : Worker S) : S :=
  w.myself.queue.foldl (fun schedule m => m.msg.applyTo schedule) w.state.schedule

/-- The timers of the worker post `Execute`. -/
def Worker.TimersExecute (w : Worker S) : Prop := ∀ t ∈ w.myself.timers, t.msg = .execute

/-! ## The mailbox of a worker -/

/-- Giving up the stored handle aborts a timer at most. -/
theorem mem_takeHandle_timers {state : CronState S} {myself : TimedMailbox (CronMessage S)}
    {t : Timer (CronMessage S)} (ht : t ∈ (state.takeHandle myself).1.timers) :
    t ∈ myself.timers := by
  unfold CronState.takeHandle at ht
  split at ht
  · exact List.mem_of_mem_filter ht
  · exact ht

/-- A handler that failed its worker leaves the timers, as one that did not. -/
theorem after_timers (w : Worker S) (deed : Deed S) (out : Outcome S) :
    (w.after deed out).myself.timers = out.myself.timers := by
  unfold Worker.after
  split <;> rfl

/-- A worker that lives on after a handler has kept the queue. -/
theorem after_queue {w : Worker S} {deed : Deed S} {out : Outcome S}
    (halive : (w.after deed out).isEnded = false) :
    (w.after deed out).myself.queue = out.myself.queue := by
  unfold Worker.after at halive ⊢
  split
  · rfl
  · rename_i err herr
    rw [herr] at halive
    cases halive

theorem promised_stop (w : Worker S) (reason : Option String) :
    (w.stop reason).promised = w.promised := by
  unfold Worker.stop
  split <;> rfl

section Worker

variable [Schedule S]

/-- `schedule_next` arms a timer for `Execute` at most, and leaves the queue. -/
theorem scheduleNext_mailbox (state : CronState S) (myself : TimedMailbox (CronMessage S))
    (r : Readings) : (state.scheduleNext myself r).myself.queue = myself.queue ∧
      ∀ t ∈ (state.scheduleNext myself r).myself.timers,
        t ∈ myself.timers ∨ t.msg = .execute := by
  rcases scheduleNext_cases state myself r with ⟨-, next, -, -, he⟩ | ⟨-, err, he⟩ | ⟨-, he⟩
  · rw [he]
    refine ⟨rfl, fun t ht => ?_⟩
    rw [sendAfter_timers, List.mem_append, List.mem_singleton] at ht
    exact ht.imp_right fun heq => by rw [heq]
  all_goals
    rw [he]
    exact ⟨rfl, fun t ht => Or.inl ht⟩

/-- `UpdateSchedule` leaves the queue, and its timers are for `Execute`. -/
theorem updateSchedule_mailbox (myself : TimedMailbox (CronMessage S)) (newSchedule : S)
    (state : CronState S) (r : Readings) :
    (updateSchedule myself newSchedule state r).myself.queue = myself.queue ∧
      ∀ t ∈ (updateSchedule myself newSchedule state r).myself.timers,
        t ∈ myself.timers ∨ t.msg = .execute := by
  unfold updateSchedule
  obtain ⟨hqueue, htimers⟩ := scheduleNext_mailbox
    { (state.takeHandle myself).2 with schedule := newSchedule } (state.takeHandle myself).1 r
  exact ⟨hqueue.trans (takeHandle_queue state myself), fun t ht =>
    (htimers t ht).imp_left mem_takeHandle_timers⟩

/-- The timers of a worker post `Execute` after any step. -/
theorem timers_of_workerStep {w w' : Worker S} {e : WorkerEvent S} (hw : w.TimersExecute)
    (h : w.step e = some w') : w'.TimersExecute := by
  have hmore {timers : List (Timer (CronMessage S))}
      (htimers : ∀ t ∈ timers, t ∈ w.myself.timers ∨ t.msg = .execute) :
      ∀ t ∈ timers, t.msg = .execute :=
    fun t ht => (htimers t ht).elim (hw t) fun heq => heq
  cases step_cases h with
  | lost | update | execute | elapse | panic | kill | late => exact hw
  | updated r newSchedule origin =>
    rw [Worker.TimersExecute, after_timers]
    exact hmore (updateSchedule_mailbox w.myself.receive newSchedule w.state r).2
  | worked result r =>
    rw [Worker.TimersExecute, after_timers]
    exact hmore (scheduleNext_mailbox w.state w.myself r).2
  | fire t ht | lapse handle => exact fun u hu => hw u (List.mem_of_mem_filter hu)
  | stop reason =>
    unfold Worker.stop
    split <;> exact hw
  | takeStop reason => exact fun t ht => hw t (mem_takeHandle_timers ht)

/-- **The promise of a step.** What a worker does by itself, and what its timers do, leaves its
schedule after the waiting updates. -/
theorem promised_of_workerStep {w w' : Worker S} {e : WorkerEvent S} (hw : w.TimersExecute)
    (h : w.step e = some w') (hown : ∀ newSchedule, e ≠ .update newSchedule)
    (halive : w'.isEnded = false) : w'.promised = w.promised := by
  cases step_cases h with
  | lost newSchedule | update newSchedule => exact absurd rfl (hown newSchedule)
  | lapse | late | elapse => rfl
  | takeStop | panic | kill => cases halive
  | stop reason => exact promised_stop w reason
  | execute r origin _ _ hnext =>
    -- the message that is taken changes no schedule
    simp only [Worker.promised, receive_queue]
    rw [next_eq_some hnext, List.tail_cons, List.foldl_cons, CronMessage.applyTo]
  | updated r newSchedule origin _ _ hnext =>
    -- the message that is taken gives the schedule that the rest starts from
    rw [Worker.promised, after_queue halive, after_state,
      (updateSchedule_mailbox _ newSchedule w.state r).1,
      (updateSchedule_state _ newSchedule w.state r).2, receive_queue, Worker.promised,
      next_eq_some hnext, List.tail_cons, List.foldl_cons, CronMessage.applyTo]
  | worked result r =>
    rw [Worker.promised, after_queue halive, after_state,
      (scheduleNext_mailbox w.state w.myself r).1, (scheduleNext_state w.state w.myself r).2,
      Worker.promised]
  | fire t ht =>
    simp only [Worker.promised, fire_queue, List.foldl_append, List.foldl_cons, List.foldl_nil]
    rw [hw t ht, CronMessage.applyTo]

/-- A worker that was just spawned has promised the schedule of its settings. -/
theorem promised_of_spawn {now : ℕ} {settings : CronSettings S} {r : Readings} {w : Worker S}
    (h : Worker.spawn now settings r = .ok w) :
    w.promised = settings.schedule ∧ w.TimersExecute := by
  obtain ⟨-, hschedule, hqueue, -⟩ := spawn_fields h
  refine ⟨by rw [Worker.promised, hqueue, List.foldl_nil, hschedule], ?_⟩
  exact (single_spawn h).1.execute

end Worker

/-! ## The manager's copy -/

/-- The timers of all workers post `Execute`. -/
def Workers.TimersExecute (workers : Workers S) : Prop :=
  ∀ id w, workers id = some w → w.TimersExecute

/-- The recorded schedule of a job is the one its worker has promised, while the worker lives. -/
def Workers.Agrees (workers : Workers S) (job : S × ActorCell) : Prop :=
  ∀ w, workers job.2.getId = some w → w.isEnded = false → job.1 = w.promised

/-- What another worker does is no matter. -/
theorem Workers.Agrees.update {workers : Workers S} {job : S × ActorCell}
    (h : workers.Agrees job) {id : ActorId} (hne : job.2.getId ≠ id) (w' : Option (Worker S)) :
    Workers.Agrees (Function.update workers id w') job := by
  intro w hw halive
  rw [Function.update_of_ne hne] at hw
  exact h w hw halive

namespace Workers.TimersExecute

/-- Replacing a worker. -/
theorem update {workers : Workers S} (h : workers.TimersExecute) (id : ActorId) {w' : Worker S}
    (hw' : w'.TimersExecute) :
    Workers.TimersExecute (Function.update workers id (some w')) := by
  intro id' w hw
  by_cases hid : id' = id
  · subst hid
    rw [Function.update_self, Option.some.injEq] at hw
    exact hw ▸ hw'
  · rw [Function.update_of_ne hid] at hw
    exact h id' w hw

/-- Doing to all workers what leaves their timers. -/
theorem map {workers : Workers S} (h : workers.TimersExecute) {f : Worker S → Worker S}
    (hf : ∀ w, (f w).myself.timers = w.myself.timers) :
    Workers.TimersExecute fun id => (workers id).map f := by
  intro id w' hw'
  rw [Option.map_eq_some_iff] at hw'
  obtain ⟨w, hw, rfl⟩ := hw'
  rw [Worker.TimersExecute, hf]
  exact h id w hw

/-- Stopping a worker. -/
theorem stop {workers : Workers S} (h : workers.TimersExecute) (actor : ActorCell)
    (reason : Option String) : (workers.stop actor reason).TimersExecute := by
  unfold Workers.stop
  cases hw : workers actor.getId with
  | none =>
    rw [Option.map_none, ← hw, Function.update_eq_self]
    exact h
  | some w =>
    refine h.update actor.getId ?_
    show (w.stop reason).TimersExecute
    unfold Worker.stop
    split <;> exact h _ w hw

end Workers.TimersExecute

theorem kill_timers (w : Worker S) : w.kill.myself.timers = w.myself.timers := by
  unfold Worker.kill
  split <;> rfl

/-- Handling a message arms no other timers. -/
theorem timers_of_handle [Schedule S] {workers : Workers S} (h : workers.TimersExecute)
    (spawning : Spawning) (state : CronManagerState S) (msg : CronManagerMessage S) :
    (CronManager.handle workers spawning state msg).workers.TimersExecute := by
  cases msg with
  | listJobs | getSchedule | subscribe | unsubscribe => exact h
  | start settings reply =>
    simp only [CronManager.handle]
    have hcase := start_cases workers spawning settings reply state
    generalize CronManager.start workers spawning settings reply state = out at hcase ⊢
    cases hcase with
    | refused => exact h
    | spawned w _ hspawn => exact h.update _ (promised_of_spawn hspawn).2
  | stop who =>
    simp only [CronManager.handle, CronManager.stop]
    split
    · exact h.stop _ none
    · exact h
  | setSchedule who schedule =>
    have hcase := handle_cases workers spawning state (.setSchedule who schedule)
    generalize CronManager.handle workers spawning state (.setSchedule who schedule) = out
      at hcase ⊢
    cases hcase with
    | quiet _ _ _ hworkers => exact hworkers ▸ h
    | failed _ _ _ _ _ _ _ hworkers => exact hworkers ▸ h
    | updated who schedule job w _ _ hw _ _ hworkers => exact hworkers ▸ h.update _ (h _ w hw)

/-- **Step lemma.** No step arms a timer of another kind. -/
theorem timers_of_step [Schedule S] {s s' : Manager S} {e : ManagerEvent S}
    (hs : s.workers.TimersExecute) (h : s.step e = some s') : s'.workers.TimersExecute := by
  cases Manager.step_cases h with
  | post | stop | lost => exact hs
  | announce | report => exact (deliver_workers _ _).symm ▸ hs
  | elapse duration => exact hs.map fun _ => rfl
  | kill => exact hs.map kill_timers
  | takeStop state =>
    refine Workers.TimersExecute.map ?_ kill_timers
    simp only [CronManager.postStop]
    generalize state.jobs.entries = actors
    generalize s.workers = workers at hs
    induction actors generalizing workers with
    | nil => exact hs
    | cons actor actors ih => exact ih _ (hs.stop actor.2.2 none)
  | worker id e' w w' _ hw hstep => exact hs.update id (timers_of_workerStep (hs id w hw) hstep)
  | supervise state evt rest =>
    obtain ⟨hok, hworkers, -⟩ := handleSupervisorEvt_cases s.workers evt state
    rw [after_of_ok hok]
    exact hworkers.symm ▸ hs
  | handle actor readings state msg =>
    have hout := timers_of_handle hs ⟨s.now, actor, readings⟩ state msg
    rcases hres : (CronManager.handle s.workers ⟨s.now, actor, readings⟩ state msg).result
      with err | _
    · rw [(after_of_error hres).2.2]
      exact hout.map kill_timers
    · rw [after_of_ok hres]
      exact hout

/-- **What a handled message does to the two copies.** If they agreed for every job, they do so
for every job that the message leaves. -/
theorem agrees_of_handle [Schedule S] {workers : Workers S} {spawning : Spawning}
    {state : CronManagerState S} {msg : CronManagerMessage S}
    (hfresh : workers spawning.actor.getId = none)
    (hknown : ∀ name job, state.jobs.lookup name = some job →
      ∃ w, workers job.2.getId = some w)
    (hdistinct : ∀ name name' job job', state.jobs.lookup name = some job →
      state.jobs.lookup name' = some job' → job.2 = job'.2 → name = name')
    (hagrees : ∀ name job, state.jobs.lookup name = some job → workers.Agrees job)
    (hok : (CronManager.handle workers spawning state msg).result = .ok ())
    {name : String} {job : S × ActorCell}
    (hjob : (CronManager.handle workers spawning state msg).state.jobs.lookup name = some job) :
    (CronManager.handle workers spawning state msg).workers.Agrees job := by
  cases msg with
  | listJobs | getSchedule | subscribe | unsubscribe => exact hagrees name job hjob
  | start settings reply =>
    simp only [CronManager.handle] at hjob ⊢
    have hcase := start_cases workers spawning settings reply state
    generalize CronManager.start workers spawning settings reply state = out at hcase hjob ⊢
    cases hcase with
    | refused => exact hagrees name job hjob
    | spawned w hvacant hspawn =>
      simp only at hjob ⊢
      rcases of_lookup_insert hjob with ⟨-, rfl⟩ | ⟨-, hold⟩
      · -- both copies are those of the settings
        intro w' hw' _
        rw [Function.update_self, Option.some.injEq] at hw'
        rw [← hw', (promised_of_spawn hspawn).1]
      · have hne : job.2.getId ≠ spawning.actor.getId := by
          intro heq
          obtain ⟨w', hw'⟩ := hknown name job hold
          rw [heq, hfresh] at hw'
          cases hw'
        exact (hagrees name job hold).update hne _
  | stop who =>
    simp only [CronManager.handle, CronManager.stop] at hjob ⊢
    cases hwho : state.jobs.lookup who with
    | none =>
      simp only [hwho] at hjob ⊢
      exact hagrees name job hjob
    | some stopped =>
      simp only [hwho] at hjob ⊢
      obtain ⟨hname, hold⟩ := of_lookup_erase hjob
      have hne : job.2.getId ≠ stopped.2.getId := fun heq =>
        hname (hdistinct name who job stopped hold hwho (ActorCell.getId_injective heq))
      exact (hagrees name job hold).update hne _
  | setSchedule who schedule =>
    have hcase := handle_cases workers spawning state (.setSchedule who schedule)
    generalize CronManager.handle workers spawning state (.setSchedule who schedule) = out
      at hcase hjob hok ⊢
    cases hcase with
    | quiet _ _ hjobs hworkers =>
      rw [hjobs] at hjob
      rw [hworkers]
      exact hagrees name job hjob
    | failed _ _ _ err _ _ _ _ herr =>
      rw [herr] at hok
      cases hok
    | updated _ _ updated w _ hlookup hw halive₀ hjobs hworkers =>
      rw [hjobs] at hjob
      rw [hworkers]
      rcases of_lookup_insert hjob with ⟨-, rfl⟩ | ⟨hname, hold⟩
      · -- the new schedule is recorded, and waits last in the worker's mailbox
        intro w' hw' _
        rw [Function.update_self, Option.some.injEq] at hw'
        rw [← hw', Worker.promised, post_queue, List.foldl_append, List.foldl_cons,
          List.foldl_nil, CronMessage.applyTo]
      · have hne : job.2.getId ≠ updated.2.getId := fun heq =>
          hname (hdistinct name who job updated hold hlookup (ActorCell.getId_injective heq))
        exact (hagrees name job hold).update hne _

/-- The manager and the workers agree on the schedule of every job. -/
structure Agreement (s : Manager S) : Prop where
  timers : s.workers.TimersExecute
  agrees : ∀ name job, s.job name = some job → s.workers.Agrees job

/-- **Step lemma.** Every step of the manager, of a worker or of a client keeps the two copies in
agreement. -/
theorem Agreement.step [Schedule S] {s s' : Manager S} {e : ManagerEvent S} (hreg : Registry s)
    (hs : Agreement s) (h : s.step e = some s') : Agreement s' := by
  refine ⟨timers_of_step hs.timers h, fun name job hjob => ?_⟩
  cases Manager.step_cases h with
  | post | stop | lost => exact hs.agrees name job hjob
  | takeStop | kill => cases hjob
  | announce | report =>
    rw [job_deliver] at hjob
    rw [deliver_workers]
    exact hs.agrees name job hjob
  | elapse duration =>
    intro w' hw' halive
    rw [Option.map_eq_some_iff] at hw'
    obtain ⟨w, hw, rfl⟩ := hw'
    exact hs.agrees name job hjob w hw halive
  | worker id e' w w' henabled hw hstep =>
    intro w₁ hw₁ halive
    simp only at hw₁
    by_cases hid : job.2.getId = id
    · rw [hid, Function.update_self, Option.some.injEq] at hw₁
      subst hw₁
      -- only the manager sends updates
      have hown : ∀ newSchedule, e' ≠ .update newSchedule := by
        rintro newSchedule rfl
        cases henabled
      rw [promised_of_workerStep (hs.timers id w hw) hstep hown halive]
      refine hs.agrees name job hjob w (hid ▸ hw) (Bool.eq_false_iff.mpr fun hended => ?_)
      rw [isEnded_of_step hstep hended] at halive
      cases halive
    · rw [Function.update_of_ne hid] at hw₁
      exact hs.agrees name job hjob w₁ hw₁ halive
  | supervise state evt rest hphase =>
    obtain ⟨hok, hworkers, hjobs⟩ := handleSupervisorEvt_cases s.workers evt state
    rw [job_after_of_ok hok] at hjob
    rw [after_of_ok hok]
    simp only [hworkers]
    refine hs.agrees name job ?_
    rw [Manager.job_of_running hphase]
    rcases hjobs with hsame | ⟨name', job', -, -, herase⟩
    · exact hsame ▸ hjob
    · rw [herase] at hjob
      exact (of_lookup_erase hjob).2
  | handle actor readings state msg hnext hfresh =>
    have hphase := (running_of_nextMsg hnext).1
    rcases hres : (CronManager.handle s.workers ⟨s.now, actor, readings⟩ state msg).result
      with err | _
    · rw [Manager.job, (after_of_error hres).1] at hjob
      cases hjob
    · rw [job_after_of_ok hres] at hjob
      rw [after_of_ok hres]
      refine agrees_of_handle hfresh ?_ ?_ ?_ hres hjob
      · intro name job hjob
        exact hreg.known name job (by rw [Manager.job_of_running hphase, hjob])
      · intro name name' job job' hjob hjob'
        rw [← Manager.job_of_running hphase] at hjob hjob'
        exact hreg.distinct name name' job job' hjob hjob'
      · intro name job hjob
        exact hs.agrees name job (by rw [Manager.job_of_running hphase, hjob])

/-- The agreement of a run. -/
theorem agreement_of_run [Schedule S] {es : List (ManagerEvent S)} {s : Manager S}
    (h : runManager es = some s) : Agreement s := by
  refine (run_true_iff.mpr h).invariant_of (P := Registry) (Q := Agreement) (registry_spawn 0)
    (fun _ _ _ hreg hstep => hreg.step hstep) ⟨?_, ?_⟩ ?_
  · intro id w hw
    cases hw
  · intro name job hjob
    cases hjob
  · intro s e s' hreg hs _ hstep
    exact hs.step hreg hstep

/-- `ListJobs` reports the recorded schedule of every job. -/
theorem listJobs_reply (workers : Workers S) (reply : RpcReplyPort)
    (state : CronManagerState S) :
    ∃ jobs, (CronManager.listJobs workers reply state).replies = [(reply, .jobs jobs)] ∧
      ∀ name, jobs.lookup name = (state.jobs.lookup name).map (·.1) := by
  refine ⟨_, rfl, fun name => ?_⟩
  rw [AList.lookup_to_alist]
  exact List.dlookup_map₂ (l := state.jobs.entries) (f := fun _ job => job.1) name

/-- **The two copies of a schedule agree.** In every reachable state, for each job in the map whose
worker still runs, the recorded schedule, which `GetSchedule` and `ListJobs` report, is that of
the worker after the `UpdateSchedule` messages that wait in its mailbox. -/
theorem schedules_agree [Schedule S] {es : List (ManagerEvent S)} {s : Manager S}
    {state : CronManagerState S} {name : String} {job : S × ActorCell} {w : Worker S}
    (h : runManager es = some s) (hphase : s.phase = .running state)
    (hjob : state.jobs.lookup name = some job) (hw : s.workers job.2.getId = some w)
    (halive : w.isEnded = false) :
    job.1 = w.myself.queue.foldl (fun schedule m => m.msg.applyTo schedule) w.state.schedule ∧
    (∀ reply, (CronManager.getSchedule s.workers name reply state).replies =
      [(reply, .schedule (some job.1))]) ∧
    ∀ reply, ∃ jobs, (CronManager.listJobs s.workers reply state).replies =
      [(reply, .jobs jobs)] ∧ jobs.lookup name = some job.1 := by
  refine ⟨?_, fun reply => ?_, fun reply => ?_⟩
  · have hjob₀ : s.job name = some job := by rw [Manager.job_of_running hphase, hjob]
    exact (agreement_of_run h).agrees name job hjob₀ w hw halive
  · rw [CronManager.getSchedule, hjob, Option.map_some]
  · obtain ⟨jobs, hreply, hlookup⟩ := listJobs_reply s.workers reply state
    exact ⟨jobs, hreply, by rw [hlookup, hjob, Option.map_some]⟩

/-- While the job works its schedule is set twice: the worker still has the first one, and the
manager the last one. -/
theorem schedules_agree_two_updates :
    ∃ s w, runManager [.post (.start { schedule := ⟨10⟩, job := ⟨"ten"⟩ } ⟨0⟩),
        .handle ⟨.loc 1⟩ ⟨0, 0⟩, .announce (.loc 1), .supervise, .elapse 10,
        .worker (.loc 1) (.expire 0), .worker (.loc 1) (.handle ⟨10, 10⟩),
        .post (.setSchedule "ten" (⟨20⟩ : Every)), .handle ⟨.loc 2⟩ ⟨0, 0⟩,
        .post (.setSchedule "ten" ⟨30⟩), .handle ⟨.loc 2⟩ ⟨0, 0⟩] = some s ∧
      s.workers (.loc 1) = some w ∧ w.state.schedule = ⟨10⟩ ∧
      ⟨30⟩ = w.myself.queue.foldl (fun schedule m => m.msg.applyTo schedule)
        w.state.schedule := by
  obtain ⟨s, hs, hpost⟩ := (Option.any_eq_true _ _).mp
    (show (runManager [.post (.start { schedule := ⟨10⟩, job := ⟨"ten"⟩ } ⟨0⟩),
        .handle ⟨.loc 1⟩ ⟨0, 0⟩, .announce (.loc 1), .supervise, .elapse 10,
        .worker (.loc 1) (.expire 0), .worker (.loc 1) (.handle ⟨10, 10⟩),
        .post (.setSchedule "ten" (⟨20⟩ : Every)), .handle ⟨.loc 2⟩ ⟨0, 0⟩,
        .post (.setSchedule "ten" ⟨30⟩), .handle ⟨.loc 2⟩ ⟨0, 0⟩]).any (fun s =>
      decide (s.job "ten" = some (⟨30⟩, ⟨.loc 1⟩)) && (s.workers (.loc 1)).any fun w =>
        decide (w.state.schedule = ⟨10⟩) && !w.isEnded) = true by decide)
  rw [Bool.and_eq_true, decide_eq_true_eq, Option.any_eq_true] at hpost
  obtain ⟨hjob, w, hw, hworker⟩ := hpost
  rw [Bool.and_eq_true, decide_eq_true_eq, Bool.not_eq_true'] at hworker
  obtain ⟨state, hphase, hlookup⟩ := running_of_job hjob
  exact ⟨s, w, hs, hw, hworker.1,
    (schedules_agree hs hphase hlookup hw hworker.2).1⟩

end RactorActors.Time.Cron
