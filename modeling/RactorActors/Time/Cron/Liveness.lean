import RactorActors.Time.Cron.Rescheduling

/-!
# The trigger of a cron job

A cron job is driven by one message after the other: if no timer is armed and no `Execute` waits,
the job will never run again. Handlers abort, overwrite and re-arm timers while others expire.
The timer that the last handler armed is never the one that is aborted without a replacement.

* `Deed.readings` and `Entry.found`: what a handler that scheduled found;
* `Driven`: between two handlers, the timer that the last one armed is armed still or has posted
  its `Execute`, which waits; kept by every step (`Driven.step`);
* `trigger_never_lost`: in every state of a run only an exhausted schedule leaves a worker
  without a trigger, and a new schedule with an occurrence to come restores one.
-/

namespace RactorActors.Time.Cron

open LabelledRun

variable {S : Type}

/-- The readings of the clock with which the deed called `schedule_next`, if it did. -/
def Deed.readings : Deed S → Option Readings
  | .started r => some r
  | .executing _ => none
  | .worked _ r => some r
  | .updated _ r => some r

/-- The next occurrence of the schedule in force that the deed found. -/
def Entry.found [Schedule S] (e : Entry S) : Option ℤ :=
  e.deed.readings.bind fun r => Schedule.upcoming e.schedule r.upcoming

/-- The timer `handle` is armed and will post an `Execute`, or its `Execute` waits. -/
def Worker.Triggers (w : Worker S) (handle : ℕ) : Prop :=
  (∃ t ∈ w.myself.timers, t.handle = handle ∧ t.msg = .execute) ∨
    ⟨.execute, some handle⟩ ∈ w.myself.queue

/-- The worker has a live timer or an `Execute` in its mailbox. -/
def Worker.HasTrigger (w : Worker S) : Prop :=
  (∃ t ∈ w.myself.timers, t.msg = .execute) ∨ ∃ m ∈ w.myself.queue, m.msg = .execute

theorem Worker.Triggers.hasTrigger {w : Worker S} {handle : ℕ} (h : w.Triggers handle) :
    w.HasTrigger := by
  rcases h with ⟨t, ht, -, hmsg⟩ | hm
  · exact Or.inl ⟨t, ht, hmsg⟩
  · exact Or.inr ⟨_, hm, rfl⟩

/-- What a handler that has returned adds to the history, also if it failed the worker. -/
theorem after_history (w : Worker S) (deed : Deed S) (out : Outcome S) :
    (w.after deed out).history =
      ⟨w.myself.now, deed, w.myself.nextHandle, out.state.schedule⟩ :: w.history := by
  unfold Worker.after
  split <;> rfl

variable [Schedule S]

/-- Between two handlers, the trigger of the last one is there if it found an occurrence. -/
def Driven (w : Worker S) : Prop :=
  w.phase = .idle → ∃ e old, w.history = e :: old ∧ e.deed.readings ≠ none ∧
    e.schedule = w.state.schedule ∧ (e.found ≠ none → w.Triggers e.nextHandle)

/-- A step that handles nothing keeps the trigger if it keeps the timers' triggers. -/
theorem Driven.of_same {w w' : Worker S} (hw : Driven w)
    (hphase : w'.phase = .idle → w.phase = .idle) (hhistory : w'.history = w.history)
    (hschedule : w'.state.schedule = w.state.schedule)
    (htriggers : ∀ handle, w.Triggers handle → w'.Triggers handle) : Driven w' := by
  intro hidle
  obtain ⟨e, old, he, hreadings, hsched, htrigger⟩ := hw (hphase hidle)
  exact ⟨e, old, hhistory.trans he, hreadings, hsched.trans hschedule.symm,
    fun hfound => htriggers _ (htrigger hfound)⟩

/-- **Scheduling makes a trigger.** A worker that survives a handler that ends in `schedule_next`
has a timer for the occurrence found. -/
theorem triggers_after (w : Worker S) (deed : Deed S) {myself : TimedMailbox (CronMessage S)}
    {state : CronState S} {r : Readings} (hhandle : myself.nextHandle = w.myself.nextHandle)
    (hfound : Schedule.upcoming state.schedule r.upcoming ≠ none)
    (halive : (w.after deed (state.scheduleNext myself r)).isEnded = false) :
    (w.after deed (state.scheduleNext myself r)).Triggers w.myself.nextHandle := by
  rcases scheduleNext_found state myself r with
    ⟨next, -, -, he⟩ | ⟨next, err, -, -, he⟩ | ⟨hnone, he⟩
  · rw [he]
    exact Or.inl ⟨_, List.mem_append_right _ (List.mem_singleton_self _), hhandle, rfl⟩
  · -- the handler fails
    rw [he] at halive
    cases halive
  · exact absurd hnone hfound

/-- A handler that ends in `schedule_next` leaves the trigger for the occurrence it found. -/
theorem driven_after (w : Worker S) {deed : Deed S} {myself : TimedMailbox (CronMessage S)}
    {state : CronState S} {r : Readings} (hdeed : deed.readings = some r)
    (hhandle : myself.nextHandle = w.myself.nextHandle) :
    Driven (w.after deed (state.scheduleNext myself r)) := by
  intro hidle
  refine ⟨_, _, after_history w deed _, by simp [hdeed], by rw [after_state], fun hfound => ?_⟩
  refine triggers_after w deed hhandle ?_ (by simp [Worker.isEnded, hidle])
  simpa [Entry.found, hdeed, (scheduleNext_state state myself r).2] using hfound

/-- **Step lemma.** -/
theorem Driven.step {w w' : Worker S} {e : WorkerEvent S} (hw : Driven w)
    (h : w.step e = some w') : Driven w' := by
  cases step_cases h with
  | lost | late => exact hw
  | elapse => exact hw.of_same (fun h => h) rfl rfl fun _ h => h
  | update newSchedule halive =>
    refine hw.of_same (fun h => h) rfl rfl fun handle htrigger => ?_
    rcases htrigger with htimer | hqueued
    · exact Or.inl htimer
    · exact Or.inr (List.mem_append_left _ hqueued)
  -- the worker is at work or has ended
  | execute | takeStop | panic | kill =>
    intro hidle
    cases hidle
  | updated r newSchedule =>
    -- the trigger may go with the old schedule; the new one brings its own
    exact driven_after w rfl (takeHandle_clock w.state w.myself.receive).1
  | worked result r => exact driven_after w rfl rfl
  | fire t ht halive hdue =>
    refine hw.of_same (fun h => h) rfl rfl fun handle htrigger => ?_
    rcases htrigger with ⟨u, hu, hhandle, hmsg⟩ | hqueued
    · by_cases hsame : u.handle = t.handle
      · -- the timer itself: its `Execute` waits now
        have hut : u = t := TimedMailbox.timer_eq_of_handle_eq hu ht hsame
        subst hut
        right
        rw [← hhandle, ← hmsg]
        exact List.mem_append_right _ (List.mem_singleton_self _)
      · exact Or.inl ⟨u, List.mem_filter.mpr ⟨hu, by simpa using hsame⟩, hhandle, hmsg⟩
    · exact Or.inr (List.mem_append_left _ hqueued)
  | lapse handle hended =>
    intro hidle
    simp [Worker.isEnded, show w.phase = .idle from hidle] at hended
  | stop reason =>
    unfold Worker.stop
    split
    · exact hw.of_same (fun h => h) rfl rfl fun _ h => h
    · exact hw

/-- A worker as `pre_start` leaves it. -/
theorem driven_spawn {now : ℕ} {settings : CronSettings S} {r : Readings} {w : Worker S}
    (h : Worker.spawn now settings r = .ok w) : Driven w := by
  unfold Worker.spawn preStart at h
  cases hnext : Schedule.upcoming settings.schedule r.upcoming with
  | some next =>
    by_cases hle : r.now ≤ next
    · simp only [(armNext_ok_iff _ hnext).mpr hle, Except.ok.injEq] at h
      subst h
      intro _
      -- the first timer is the first trigger
      exact ⟨_, _, rfl, Option.some_ne_none r, rfl,
        fun _ => Or.inl ⟨_, List.mem_singleton_self _, rfl, rfl⟩⟩
    · obtain ⟨err, herr⟩ := armNext_error (TimedMailbox.empty now) hnext hle
      simp only [herr, reduceCtorEq] at h
  | none =>
    simp only [armNext, hnext, Except.ok.injEq] at h
    subst h
    intro _
    refine ⟨_, _, rfl, Option.some_ne_none r, rfl, fun hfound => ?_⟩
    exact absurd hnext hfound

/-- **A cron job never loses its trigger.** In every state of a run in which the worker is between
two handlers, the last of which called `schedule_next` for the current schedule: if that call
found an occurrence, a timer is armed or an `Execute` waits. Only an exhausted schedule leaves the
worker without a trigger, and an `UpdateSchedule` that the worker survives and whose schedule has
an occurrence to come restores one. -/
theorem trigger_never_lost {now : ℕ} {settings : CronSettings S} {r : Readings}
    {w₀ w : Worker S} {es : List (WorkerEvent S)} (h₀ : Worker.spawn now settings r = .ok w₀)
    (h : exec Worker.step w₀ es = some w) (hidle : w.phase = .idle) :
    (∃ e old, w.history = e :: old ∧ e.deed.readings ≠ none ∧ e.schedule = w.state.schedule ∧
      (e.found ≠ none → w.HasTrigger) ∧ (¬ w.HasTrigger → e.found = none)) ∧
    ∀ newSchedule r' w', w.nextMsg = some (.updateSchedule newSchedule) →
      w.step (.handle r') = some w' → w'.isEnded = false →
        Schedule.upcoming newSchedule r'.upcoming ≠ none → w'.HasTrigger := by
  have hdriven : Driven w := exec_invariant h (driven_spawn h₀) fun _ _ _ hw hstep => hw.step hstep
  constructor
  · obtain ⟨e, old, he, hreadings, hschedule, htrigger⟩ := hdriven hidle
    have hhas (hfound : e.found ≠ none) : w.HasTrigger := (htrigger hfound).hasTrigger
    exact ⟨e, old, he, hreadings, hschedule, hhas, fun hno => by_contra fun hf => hno (hhas hf)⟩
  · intro newSchedule r' w' hmsg hstep halive hlive
    cases step_cases hstep with
    | execute _ origin _ hstop hfirst =>
      rw [Worker.nextMsg, hidle, hstop, hfirst] at hmsg
      cases hmsg
    | updated _ newSchedule' origin _ hstop hfirst =>
      rw [Worker.nextMsg, hidle, hstop, hfirst, Option.some.injEq,
        CronMessage.updateSchedule.injEq] at hmsg
      subst hmsg
      have hhandle := (takeHandle_clock w.state w.myself.receive).1
      -- whatever trigger there was before, the new schedule has one of its own
      exact (triggers_after w _ hhandle hlive halive).hasTrigger

/-- The job's timer expires while an `UpdateSchedule` waits before it in the mailbox. -/
theorem trigger_never_lost_late_update :
    ∃ w : Worker Every, exec Worker.step tenWorker
        [.update ⟨20⟩, .elapse 5, .expire 0, .handle ⟨10, 10⟩] = some w ∧
      ∃ e old, w.history = e :: old ∧ e.deed.readings ≠ none ∧ e.schedule = w.state.schedule ∧
        (e.found ≠ none → w.HasTrigger) ∧ (¬ w.HasTrigger → e.found = none) := by
  have hrun : (exec Worker.step tenWorker
      [.update ⟨20⟩, .elapse 5, .expire 0, .handle ⟨10, 10⟩]).map (·.phase) = some .idle := rfl
  obtain ⟨w, hw, hidle⟩ := Option.map_eq_some_iff.mp hrun
  exact ⟨w, hw, (trigger_never_lost spawn_everyTen hw hidle).1⟩

end RactorActors.Time.Cron
