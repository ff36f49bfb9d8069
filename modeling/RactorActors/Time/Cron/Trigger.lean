import RactorActors.Time.Cron.Worker

/-!
# The pending triggers of a cron job

A cron job is driven by `Execute` messages: each execution arms the timer that posts the next
one. `Worker.pending` counts the triggers that are under way, the armed timers and the queued
`Execute` messages. `execute` consumes one before it arms the next. `update_schedule` aborts the
stored timer and arms another; a timer that has already posted its `Execute` is not stopped by
that.

* `Single`: the timers of a worker are the one whose handle it stores;
* `pending_le_one_iff`: a step keeps the triggers to one exactly when it is `updateClean`;
* `one_pending_trigger_iff`: a run has at most one trigger pending in all of its states exactly
  when every `UpdateSchedule` was handled with no `Execute` queued, or armed nothing;
* `two_pending_triggers`: a run that ends with two.
-/

namespace RactorActors.Time.Cron

open LabelledRun

/-- The message triggers an execution of the job. -/
def CronMessage.isExecute {S : Type} : CronMessage S → Bool
  | .execute => true
  | .updateSchedule _ => false

section Timers

variable {S : Type}

/-- The `Execute` messages in the mailbox. -/
def Worker.executes (w : Worker S) : ℕ := w.myself.queue.countP (·.msg.isExecute)

/-- The triggers of the job that are under way: armed timers and queued `Execute` messages. -/
def Worker.pending (w : Worker S) : ℕ := w.myself.timers.length + w.executes

/-- The timers of a worker are the one whose handle it stores, and none is armed while the job
works. -/
structure Single (w : Worker S) : Prop where
  stored : ∀ t ∈ w.myself.timers, w.state.nextScheduleHandle = some t.handle
  execute : ∀ t ∈ w.myself.timers, t.msg = .execute
  working : w.phase = .working → w.pending = 0

/-- A worker that stores the handle of all its timers has at most one of them. -/
theorem Single.timers_length_le {w : Worker S} (h : Single w) : w.myself.timers.length ≤ 1 := by
  rcases hl : w.myself.timers with _ | ⟨t, _ | ⟨u, rest⟩⟩
  · simp
  · simp
  · -- two timers would be stored under one handle
    have ht := h.stored t (by simp [hl])
    have hu := h.stored u (by simp [hl])
    have heq : t.handle = u.handle := Option.some.inj (ht.symm.trans hu)
    have hnodup := w.myself.handles_nodup
    rw [hl] at hnodup
    simp [heq] at hnodup

/-- `next_schedule_handle.take()` aborts every timer of the worker. -/
theorem Single.takeHandle_timers {w : Worker S} (h : Single w) :
    (w.state.takeHandle w.myself).1.timers = [] := by
  rw [List.eq_nil_iff_forall_not_mem]
  intro t ht
  unfold CronState.takeHandle at ht
  split at ht
  · rename_i handle hsome
    have hmem := List.mem_filter.mp ht
    have heq := h.stored t hmem.1
    rw [hsome, Option.some.injEq] at heq
    exact absurd heq.symm (by simpa using hmem.2)
  · rename_i hnone
    have heq := h.stored t ht
    rw [hnone] at heq
    cases heq

/-- Taking a message and giving up the stored handle leaves no timer. -/
theorem Single.takeHandle_receive_timers {w : Worker S} (hw : Single w) :
    (w.state.takeHandle w.myself.receive).1.timers = [] := by
  have hidle : Single { w with myself := w.myself.receive, phase := .idle } :=
    ⟨hw.stored, hw.execute, fun hwork => by cases hwork⟩
  exact hidle.takeHandle_timers

@[simp]
theorem takeHandle_queue (state : CronState S) (myself : TimedMailbox (CronMessage S)) :
    (state.takeHandle myself).1.queue = myself.queue := by
  unfold CronState.takeHandle
  split <;> rfl

/-- An `Execute` taken from the mailbox was one of those counted. -/
theorem executes_of_execute {w : Worker S} {origin : Option ℕ}
    (h : w.myself.next = some ⟨.execute, origin⟩) :
    w.executes = w.myself.queue.tail.countP (·.msg.isExecute) + 1 := by
  rw [Worker.executes, TimedMailbox.next_eq_some h, List.tail_cons,
    List.countP_cons_of_pos (by rfl)]

/-- An `UpdateSchedule` taken from the mailbox leaves the count of `Execute`s. -/
theorem executes_of_update {w : Worker S} {newSchedule : S} {origin : Option ℕ}
    (h : w.myself.next = some ⟨.updateSchedule newSchedule, origin⟩) :
    w.executes = w.myself.queue.tail.countP (·.msg.isExecute) := by
  rw [Worker.executes, TimedMailbox.next_eq_some h, List.tail_cons,
    List.countP_cons_of_neg (by simp [CronMessage.isExecute])]

/-- The end of the actor leaves its timers as they are and empties its mailbox. -/
theorem Single.finish {w : Worker S} (h : Single w) (exit : Exit) :
    Single (w.finish exit) ∧ (w.finish exit).pending ≤ w.pending := by
  refine ⟨⟨h.stored, h.execute, by simp [Worker.finish]⟩, ?_⟩
  simp [Worker.finish, Worker.pending, Worker.executes]

/-- The execution of a job takes the one trigger there was. -/
theorem single_execute {w : Worker S} (hw : Single w) (hone : w.pending ≤ 1)
    {origin : Option ℕ} (hnext : w.myself.next = some ⟨.execute, origin⟩)
    (history : List (Entry S)) :
    Single { w with myself := w.myself.receive, phase := .working, history := history } ∧
      Worker.pending
        { w with myself := w.myself.receive, phase := .working, history := history } = 0 := by
  have hcount := executes_of_execute hnext
  have htimers : w.myself.timers = [] := by
    rw [← List.length_eq_zero_iff]
    unfold Worker.pending at hone
    omega
  have hzero : w.myself.queue.tail.countP (·.msg.isExecute) = 0 := by
    unfold Worker.pending at hone
    omega
  have hpending : Worker.pending
      { w with myself := w.myself.receive, phase := .working, history := history } = 0 := by
    simp [Worker.pending, Worker.executes, htimers, hzero]
  exact ⟨⟨hw.stored, hw.execute, fun _ => hpending⟩, hpending⟩

/-- An `UpdateSchedule` that is posted is no trigger. -/
theorem Single.post_update {w : Worker S} (h : Single w) (newSchedule : S) :
    Single { w with myself := w.myself.post (.updateSchedule newSchedule) } ∧
      Worker.pending { w with myself := w.myself.post (.updateSchedule newSchedule) } ≤
        w.pending := by
  have hpending : Worker.pending { w with
      myself := w.myself.post (.updateSchedule newSchedule) } = w.pending := by
    simp [Worker.pending, Worker.executes, CronMessage.isExecute]
  refine ⟨⟨h.stored, h.execute, fun hwork => ?_⟩, Nat.le_of_eq hpending⟩
  rw [hpending]
  exact h.working hwork

/-- A timer that posts moves its trigger from the timers to the queue. -/
theorem Single.fire {w : Worker S} (h : Single w) {t : Timer (CronMessage S)}
    (ht : t ∈ w.myself.timers) :
    Single { w with myself := w.myself.fire t ht } ∧
      Worker.pending { w with myself := w.myself.fire t ht } ≤ w.pending := by
  have htimers : w.myself.timers = [t] := by
    obtain ⟨u, hu⟩ := List.length_eq_one_iff.mp
      (Nat.le_antisymm h.timers_length_le (List.length_pos_of_mem ht))
    rw [hu, List.mem_singleton] at ht
    rw [hu, ht]
  have hpending : Worker.pending { w with myself := w.myself.fire t ht } = w.pending := by
    simp [Worker.pending, Worker.executes, htimers, h.execute t ht, CronMessage.isExecute]
    omega
  refine ⟨⟨?_, ?_, fun hwork => ?_⟩, Nat.le_of_eq hpending⟩
  · exact fun u hu => h.stored u (List.mem_of_mem_filter hu)
  · exact fun u hu => h.execute u (List.mem_of_mem_filter hu)
  · rw [hpending]
    exact h.working hwork

/-- A timer that is gone is no trigger any more. -/
theorem Single.abort {w : Worker S} (h : Single w) (handle : ℕ) :
    Single { w with myself := w.myself.abort handle } ∧
      Worker.pending { w with myself := w.myself.abort handle } ≤ w.pending := by
  have hle : (w.myself.abort handle).timers.length ≤ w.myself.timers.length :=
    List.length_filter_le _ _
  have hpending : Worker.pending { w with myself := w.myself.abort handle } ≤ w.pending :=
    Nat.add_le_add_right hle _
  refine ⟨⟨?_, ?_, fun hwork => ?_⟩, hpending⟩
  · exact fun u hu => h.stored u (List.mem_of_mem_filter hu)
  · exact fun u hu => h.execute u (List.mem_of_mem_filter hu)
  · have hzero := h.working hwork
    omega

/-- `post_stop` aborts the stored timer, which is all there are. -/
theorem Single.postStop {w : Worker S} (h : Single w) (exit : Exit) :
    Single ({ w with
      myself := (postStop w.myself w.state).1
      state := (postStop w.myself w.state).2 }.finish exit) ∧
      ({ w with
        myself := (postStop w.myself w.state).1
        state := (postStop w.myself w.state).2 }.finish exit).pending = 0 := by
  have hnil := h.takeHandle_timers
  refine ⟨⟨?_, ?_, ?_⟩, ?_⟩
  · simp [Worker.finish, Cron.postStop, hnil]
  · simp [Worker.finish, Cron.postStop, hnil]
  · simp [Worker.finish]
  · simp [Worker.finish, Cron.postStop, hnil, Worker.pending, Worker.executes]

end Timers

variable {S : Type} [Schedule S]

/-- A step that handles `UpdateSchedule` does so with no `Execute` queued, or finds nothing to
arm a timer for. -/
def updateClean (w : Worker S) : WorkerEvent S → Bool
  | .handle r =>
    match w.nextMsg with
    | some (.updateSchedule newSchedule) => w.executes == 0 || !arms newSchedule r
    | _ => true
  | _ => true

/-- **Scheduling with no timer armed.** If a handler calls `schedule_next` when no timer of the
worker is armed, the new timer, if there is one, is the one it stores, and it is one more
trigger. -/
theorem single_after (w : Worker S) (deed : Deed S) (myself : TimedMailbox (CronMessage S))
    (state : CronState S) (r : Readings) (hnil : myself.timers = []) :
    Single (w.after deed (state.scheduleNext myself r)) ∧
    (arms state.schedule r = true → (w.after deed (state.scheduleNext myself r)).pending =
      myself.queue.countP (·.msg.isExecute) + 1) ∧
    (arms state.schedule r = false → (w.after deed (state.scheduleNext myself r)).pending ≤
      myself.queue.countP (·.msg.isExecute)) := by
  rcases scheduleNext_cases state myself r with ⟨ha, next, -, -, he⟩ | ⟨ha, err, he⟩ | ⟨ha, he⟩
  · rw [he]
    refine ⟨⟨?_, ?_, ?_⟩, fun _ => ?_, fun hn => ?_⟩
    · simp [Worker.after, hnil]
    · simp [Worker.after, hnil]
    · simp [Worker.after]
    · simp [Worker.after, Worker.pending, Worker.executes, hnil]
      omega
    · rw [ha] at hn
      cases hn
  · -- the handler fails: the mailbox is closed
    rw [he]
    refine ⟨⟨?_, ?_, ?_⟩, fun hy => ?_, fun _ => ?_⟩
    · simp [Worker.after, Worker.finish, hnil]
    · simp [Worker.after, Worker.finish, hnil]
    · simp [Worker.after, Worker.finish]
    · rw [ha] at hy
      cases hy
    · simp [Worker.after, Worker.finish, Worker.pending, Worker.executes, hnil]
  · rw [he]
    refine ⟨⟨?_, ?_, ?_⟩, fun hy => ?_, fun _ => ?_⟩
    · simp [Worker.after, hnil]
    · simp [Worker.after, hnil]
    · simp [Worker.after]
    · rw [ha] at hy
      cases hy
    · simp [Worker.after, Worker.pending, Worker.executes, hnil]

/-- Handling an `UpdateSchedule` leaves the `Execute` messages that are queued, and one timer if
it arms one. -/
theorem single_updated {w : Worker S} (hw : Single w) {newSchedule : S} {origin : Option ℕ}
    (r : Readings) (hnext : w.myself.next = some ⟨.updateSchedule newSchedule, origin⟩)
    {w' : Worker S} (hw' : w' = w.after (.updated newSchedule r)
      (updateSchedule w.myself.receive newSchedule w.state r)) :
    Single w' ∧ (arms newSchedule r = true → w'.pending = w.executes + 1) ∧
      (arms newSchedule r = false → w'.pending ≤ w.executes) := by
  -- the stored timer is aborted; the `Execute`s in the queue are not
  have hafter := single_after w (.updated newSchedule r)
    (w.state.takeHandle w.myself.receive).1
    { (w.state.takeHandle w.myself.receive).2 with schedule := newSchedule } r
    hw.takeHandle_receive_timers
  rw [takeHandle_queue, TimedMailbox.receive_queue, ← executes_of_update hnext] at hafter
  rw [hw']
  exact hafter

/-- When the work is done there is no trigger left over, so the next one is the only one. -/
theorem single_worked {w : Worker S} (hw : Single w) (hworking : w.phase = .working)
    (result : Except ActorProcessingErr Unit) (r : Readings) :
    Single (w.after (.worked result r) (w.state.scheduleNext w.myself r)) ∧
      (w.after (.worked result r) (w.state.scheduleNext w.myself r)).pending ≤ 1 := by
  have hzero := hw.working hworking
  unfold Worker.pending Worker.executes at hzero
  have hnil : w.myself.timers = [] := List.length_eq_zero_iff.mp (by omega)
  obtain ⟨hs, hyes, hno⟩ := single_after w (.worked result r) w.myself w.state r hnil
  refine ⟨hs, ?_⟩
  cases ha : arms w.state.schedule r with
  | true =>
    have hsum := hyes ha
    omega
  | false =>
    have hsum := hno ha
    omega

/-- A new worker has its one timer armed, if its schedule has an occurrence to come. -/
theorem single_spawn {now : ℕ} {settings : CronSettings S} {r : Readings} {w : Worker S}
    (h : Worker.spawn now settings r = .ok w) : Single w ∧ w.pending ≤ 1 := by
  unfold Worker.spawn preStart at h
  rcases armNext_cases (TimedMailbox.empty now) settings.schedule r with
    ⟨-, next, -, -, he⟩ | ⟨-, err, he⟩ | ⟨-, he⟩
  · simp only [he, Except.ok.injEq] at h
    subst h
    exact ⟨⟨by simp, by simp, by simp⟩, by simp [Worker.pending, Worker.executes]⟩
  · simp [he] at h
  · simp only [he, Except.ok.injEq] at h
    subst h
    exact ⟨⟨by simp, by simp, by simp⟩, by simp [Worker.pending, Worker.executes]⟩

/-- **Step lemma.** From a state with at most one trigger, a step leads to such a state exactly
when it is clean; the worker's timers stay the stored one either way. -/
theorem pending_le_one_iff {w w' : Worker S} {e : WorkerEvent S} (hw : Single w)
    (hone : w.pending ≤ 1) (h : w.step e = some w') :
    Single w' ∧ (w'.pending ≤ 1 ↔ updateClean w e = true) := by
  -- all that is left to show of a step that handles no `UpdateSchedule`
  have keeps {e : WorkerEvent S} {w' : Worker S} (hclean : updateClean w e = true)
      (hs : Single w') (hle : w'.pending ≤ 1) :
      Single w' ∧ (w'.pending ≤ 1 ↔ updateClean w e = true) :=
    ⟨hs, fun _ => hclean, fun _ => hle⟩
  cases step_cases h with
  | lost newSchedule hended => exact keeps rfl hw hone
  | late hended => exact keeps rfl hw hone
  | update newSchedule halive =>
    obtain ⟨hs, hle⟩ := hw.post_update newSchedule
    exact keeps rfl hs (Nat.le_trans hle hone)
  | execute r origin hidle hstop hnext =>
    have hclean : updateClean w (.handle r) = true := by
      simp [updateClean, Worker.nextMsg, hidle, hstop, hnext]
    obtain ⟨hs, hzero⟩ := single_execute hw hone hnext _
    exact keeps hclean hs (Nat.le_trans (Nat.le_of_eq hzero) (Nat.zero_le 1))
  | updated r newSchedule origin hidle hstop hnext =>
    obtain ⟨hs, hyes, hno⟩ := single_updated hw r hnext rfl
    have hle : w.executes ≤ 1 := by
      unfold Worker.pending at hone
      omega
    refine ⟨hs, ?_⟩
    simp only [updateClean, Worker.nextMsg, hidle, hstop, hnext, Bool.or_eq_true, beq_iff_eq,
      Bool.not_eq_true']
    cases ha : arms newSchedule r with
    | true =>
      -- one more trigger: there was none before exactly if there is at most one now
      rw [hyes ha]
      constructor
      · intro hafter
        left
        omega
      · rintro (hzero | hfalse)
        · omega
        · cases hfalse
    | false => exact ⟨fun _ => Or.inr rfl, fun _ => Nat.le_trans (hno ha) hle⟩
  | worked result r hworking =>
    obtain ⟨hs, hle⟩ := single_worked hw hworking result r
    exact keeps rfl hs hle
  | fire t ht halive hdue =>
    obtain ⟨hs, hle⟩ := hw.fire ht
    exact keeps rfl hs (Nat.le_trans hle hone)
  | lapse handle hended =>
    obtain ⟨hs, hle⟩ := hw.abort handle
    exact keeps rfl hs (Nat.le_trans hle hone)
  | elapse duration => exact keeps rfl ⟨hw.stored, hw.execute, hw.working⟩ hone
  | stop reason =>
    unfold Worker.stop
    split
    · exact keeps rfl ⟨hw.stored, hw.execute, hw.working⟩ hone
    · exact keeps rfl hw hone
  | takeStop reason hidle hstop =>
    obtain ⟨hs, hzero⟩ := hw.postStop (.terminated reason)
    exact keeps rfl hs (Nat.le_trans (Nat.le_of_eq hzero) (Nat.zero_le 1))
  | panic what hworking =>
    obtain ⟨hs, hle⟩ := hw.finish (.failed what)
    exact keeps rfl hs (Nat.le_trans hle hone)
  | kill halive =>
    obtain ⟨hs, hle⟩ := hw.finish (.terminated (some "killed"))
    exact keeps rfl hs (Nat.le_trans hle hone)

/-- **When a cron job has at most one pending trigger.** In every run of a worker, from its
`pre_start` on, the armed timers and the queued `Execute` messages are at most one in all in
each state exactly when every `UpdateSchedule` of the run was handled while no `Execute` was
queued, or its schedule had no occurrence left to arm a timer for. -/
theorem one_pending_trigger_iff {now : ℕ} {settings : CronSettings S} {r : Readings}
    {w₀ w : Worker S} {es : List (WorkerEvent S)} (h₀ : Worker.spawn now settings r = .ok w₀)
    (h : exec Worker.step w₀ es = some w) :
    Throughout Worker.step (fun w => w.pending ≤ 1) w₀ es ↔
      Run Worker.step (fun w e => updateClean w e = true) w₀ es w := by
  obtain ⟨hsingle, hone⟩ := single_spawn h₀
  refine (run_iff_throughout (I := Single) h hsingle hone ?_ ?_).symm
  · intro w e w' hw hone _ hstep
    exact (pending_le_one_iff hw hone hstep).1
  · intro w e w' hw hone hstep
    exact (pending_le_one_iff hw hone hstep).2

/-! ## Two chains -/

/-- A schedule with an occurrence at every multiple of its period, as `cron` gives for a period
in seconds that divides a minute. -/
structure Every where
  /-- The period. -/
  period : ℕ
deriving DecidableEq, Repr

instance : Schedule Every where
  upcoming schedule t := some ((t / schedule.period + 1) * schedule.period)

/-- A job that runs every 10 ticks. -/
def everyTen : CronSettings Every := { schedule := ⟨10⟩, job := ⟨"ten"⟩ }

/-- The job's worker, spawned at 5. -/
def tenWorker : Worker Every where
  myself := (TimedMailbox.empty 5).sendAfter 5 .execute
  state := { schedule := ⟨10⟩, job := ⟨"ten"⟩, nextScheduleHandle := some 0 }
  phase := .idle
  stopping := none
  history := [⟨5, .started ⟨5, 5⟩, 0, ⟨10⟩⟩]

theorem spawn_everyTen : Worker.spawn 5 everyTen ⟨5, 5⟩ = .ok tenWorker := rfl

/-- An update handled before the timer expires leaves one trigger, also after the next work. -/
theorem one_pending_trigger_iff_early_update :
    Throughout Worker.step (fun w => w.pending ≤ 1) tenWorker
      [.update ⟨20⟩, .handle ⟨6, 6⟩, .elapse 15, .expire 1, .handle ⟨20, 20⟩,
        .worked (.ok ()) ⟨21, 21⟩] := by
  let es : List (WorkerEvent Every) :=
    [.update ⟨20⟩, .handle ⟨6, 6⟩, .elapse 15, .expire 1, .handle ⟨20, 20⟩,
      .worked (.ok ()) ⟨21, 21⟩]
  obtain ⟨w, hw⟩ : ∃ w, exec (checked updateClean Worker.step) tenWorker es = some w :=
    Option.isSome_iff_exists.mp (by decide)
  have hrun := run_iff_exec_checked.mpr hw
  exact (one_pending_trigger_iff spawn_everyTen hrun.exec_eq).mpr hrun

/-- **Two chains of triggers.** The timer posts its `Execute` behind an `UpdateSchedule` that is
not handled yet. The handler aborts the spent timer, arms a second one and leaves the `Execute`,
which arms a third when it is handled: from then on two timers drive the job. -/
theorem two_pending_triggers :
    ¬ ∀ (now : ℕ) (settings : CronSettings Every) (r : Readings) (w₀ w : Worker Every)
        (es : List (WorkerEvent Every)), Worker.spawn now settings r = .ok w₀ →
          exec Worker.step w₀ es = some w → w.pending ≤ 1 := by
  intro hall
  have hle := hall 5 everyTen ⟨5, 5⟩ tenWorker _
    [.update ⟨20⟩, .elapse 5, .expire 0, .handle ⟨10, 10⟩, .handle ⟨10, 10⟩,
      .worked (.ok ()) ⟨11, 11⟩] spawn_everyTen rfl
  exact absurd hle (by decide)

end RactorActors.Time.Cron
