import RactorActors.Time.Cron.Liveness

/-!
# When a new schedule takes effect

`update_schedule` aborts the timer of the old schedule and arms one of the new. An `Execute` that
the old timer has posted already is not recalled, and it carries no mark of its schedule: if the
`UpdateSchedule` is handled before it, it makes the job run once more on the old schedule.

* `armedFrom`: the schedule from which a timer was armed, if no update was handled since;
* `AtOnce`: every execution was triggered by a timer of the schedule in force;
* `timely_of_step_iff`: a step keeps the queued `Execute`s timely exactly if it handles no
  `UpdateSchedule` with an `Execute` queued (`noneQueued`), or one that the worker does not
  survive;
* `update_takes_effect_iff`: so does a run;
* `stale_execution`: a run that executes the job on the schedule that was replaced.
-/

namespace RactorActors.Time.Cron

open LabelledRun

variable {S : Type}

/-- The deed is the handling of an `UpdateSchedule`. -/
def Entry.isUpdate (e : Entry S) : Bool :=
  match e.deed with
  | .updated _ _ => true
  | _ => false

/-- No `Execute` is queued. -/
theorem executes_eq_zero_iff (w : Worker S) :
    w.executes = 0 ↔ ∀ m ∈ w.myself.queue, m.msg ≠ .execute := by
  rw [Worker.executes, List.countP_eq_zero]
  refine forall₂_congr fun m _ => ?_
  cases m.msg <;> simp [CronMessage.isExecute]

variable [Schedule S]

/-- The deed armed the timer `handle`. -/
def Entry.armed (e : Entry S) (handle : ℕ) : Bool :=
  e.nextHandle == handle && e.deed.readings.any (arms e.schedule)

/-- The schedule from which the timer `handle` was armed, if that was done by the last
`UpdateSchedule` or after it. -/
def armedFrom (handle : ℕ) : List (Entry S) → Option S
  | [] => none
  | e :: old =>
    if e.armed handle then some e.schedule
    else if e.isUpdate then none
    else armedFrom handle old

/-- Every `Execute` that was handled was posted by a timer armed from the schedule in force, after
the last update. -/
def AtOnce : List (Entry S) → Prop
  | [] => True
  | e :: old =>
    AtOnce old ∧ ∀ origin, e.deed = .executing origin →
      origin.bind (fun handle => armedFrom handle old) = some e.schedule

/-- Every `Execute` that waits was posted by a timer armed from the schedule in force, after the
last update. -/
def Worker.QueueTimely (w : Worker S) : Prop :=
  ∀ m ∈ w.myself.queue, m.msg = .execute →
    m.origin.bind (fun handle => armedFrom handle w.history) = some w.state.schedule

/-- Every timer was armed from the schedule in force, after the last update. -/
def Worker.TimersTimely (w : Worker S) : Prop :=
  ∀ t ∈ w.myself.timers, armedFrom t.handle w.history = some w.state.schedule

/-- The next occurrence that was found has passed when the clock is read again, so that
`schedule_next` fails. -/
def passed (schedule : S) (r : Readings) : Bool :=
  match Schedule.upcoming schedule r.upcoming with
  | some next => next < r.now
  | none => false

/-- A step that handles an `UpdateSchedule` does so with no `Execute` queued, or fails. -/
def noneQueued (w : Worker S) : WorkerEvent S → Bool
  | .handle r =>
    match w.nextMsg with
    | some (.updateSchedule newSchedule) => w.executes == 0 || passed newSchedule r
    | _ => true
  | _ => true

/-! ## The schedule of a timer -/

/-- A timer that the newest deed armed. -/
theorem armedFrom_cons_of_armed {e : Entry S} {handle : ℕ} (old : List (Entry S))
    (h : e.armed handle = true) : armedFrom handle (e :: old) = some e.schedule := by
  rw [armedFrom, if_pos h]

/-- A timer that was armed before the newest deed, which is no update. -/
theorem armedFrom_cons_of_ne {e : Entry S} {handle : ℕ} (old : List (Entry S))
    (hne : handle ≠ e.nextHandle) (hupdate : e.isUpdate = false) :
    armedFrom handle (e :: old) = armedFrom handle old := by
  have harmed : e.armed handle = false := by simp [Entry.armed, hne.symm]
  simp only [armedFrom, harmed, hupdate, Bool.false_eq_true, if_false]

/-- A timer that was armed before the newest deed, which is an update. -/
theorem armedFrom_cons_of_update {e : Entry S} {handle : ℕ} (old : List (Entry S))
    (hne : handle ≠ e.nextHandle) (hupdate : e.isUpdate = true) :
    armedFrom handle (e :: old) = none := by
  have harmed : e.armed handle = false := by simp [Entry.armed, hne.symm]
  simp only [armedFrom, harmed, hupdate, Bool.false_eq_true, if_false, if_true]

/-! ## Steps -/

/-- **Scheduling with no timer armed.** After a handler that ends in `schedule_next`, the timer it
armed, if it did, is one of the schedule in force. -/
theorem timersTimely_after (w : Worker S) {deed : Deed S}
    {myself : TimedMailbox (CronMessage S)} {state : CronState S} {r : Readings}
    (hdeed : deed.readings = some r) (hhandle : myself.nextHandle = w.myself.nextHandle)
    (htimers : myself.timers = []) :
    (w.after deed (state.scheduleNext myself r)).TimersTimely := by
  rcases scheduleNext_found state myself r with
    ⟨next, hnext, hle, he⟩ | ⟨next, err, -, -, he⟩ | ⟨-, he⟩
  · rw [he]
    intro t ht
    simp only [Worker.after, TimedMailbox.sendAfter_timers, htimers, List.nil_append,
      List.mem_singleton] at ht
    refine armedFrom_cons_of_armed w.history ?_
    simp [Entry.armed, ht, hhandle, hdeed, arms, hnext, hle]
  · rw [he]
    intro t ht
    simp [Worker.after, Worker.finish, htimers] at ht
  · rw [he]
    intro t ht
    simp [Worker.after, htimers] at ht

/-- After a handler that ends in `schedule_next` the queue is as the handler found it, or empty if
it failed. -/
theorem mem_queue_after {w : Worker S} {deed : Deed S} {myself : TimedMailbox (CronMessage S)}
    {state : CronState S} {r : Readings} (m : Envelope (CronMessage S)) :
    m ∈ (w.after deed (state.scheduleNext myself r)).myself.queue ↔
      m ∈ myself.queue ∧ passed state.schedule r = false := by
  rcases scheduleNext_found state myself r with
    ⟨next, hnext, hle, he⟩ | ⟨next, err, hnext, hlt, he⟩ | ⟨hnext, he⟩
  · simp [he, Worker.after, passed, hnext, hle]
  · simp [he, Worker.after, Worker.finish, passed, hnext, hlt]
  · simp [he, Worker.after, passed, hnext]

/-- Scheduling with no `Execute` queued leaves none. -/
theorem queueTimely_after {w : Worker S} {deed : Deed S} {myself : TimedMailbox (CronMessage S)}
    {state : CronState S} {r : Readings} (hqueue : ∀ m ∈ myself.queue, m.msg ≠ .execute) :
    (w.after deed (state.scheduleNext myself r)).QueueTimely :=
  fun m hm hmsg => absurd hmsg (hqueue m ((mem_queue_after m).mp hm).1)

/-- A handler that is not an execution keeps the executions of the past. -/
theorem atOnce_after {w : Worker S} (hw : AtOnce w.history) {deed : Deed S} (out : Outcome S)
    {r : Readings} (hdeed : deed.readings = some r) : AtOnce (w.after deed out).history := by
  rw [after_history]
  refine ⟨hw, fun origin horigin => ?_⟩
  -- an execution reads no clock
  have heq : deed = .executing origin := horigin
  rw [heq] at hdeed
  cases hdeed

/-- A mark in the history that is no update keeps the schedules of the timers armed before. -/
theorem armedFrom_of_origin {w : Worker S} {m : Envelope (CronMessage S)}
    (hm : m ∈ w.myself.queue) {e : Entry S} (he : e.nextHandle = w.myself.nextHandle)
    (hupdate : e.isUpdate = false) :
    m.origin.bind (fun handle => armedFrom handle (e :: w.history)) =
      m.origin.bind fun handle => armedFrom handle w.history := by
  cases horigin : m.origin with
  | none => rfl
  | some handle =>
    have hlt := w.myself.origin_lt m hm handle horigin
    exact armedFrom_cons_of_ne w.history (by omega) hupdate

/-- **The stale `Execute`.** One that is queued when an update is handled is none of the new
schedule's. -/
theorem not_queueTimely_of_update {w w' : Worker S} {m : Envelope (CronMessage S)}
    (hm : m ∈ w.myself.queue) (hm' : m ∈ w'.myself.queue) (hmsg : m.msg = .execute)
    {e : Entry S} (he : e.nextHandle = w.myself.nextHandle) (hupdate : e.isUpdate = true)
    (hhistory : w'.history = e :: w.history) : ¬ w'.QueueTimely := by
  intro hqueue
  have htimely := hqueue m hm' hmsg
  rw [hhistory] at htimely
  cases horigin : m.origin with
  | none => simp [horigin] at htimely
  | some handle =>
    -- its timer was armed before the update
    have hlt := w.myself.origin_lt m hm handle horigin
    rw [horigin, Option.bind_some, armedFrom_cons_of_update w.history (by omega) hupdate]
      at htimely
    cases htimely

/-- **Handling an `UpdateSchedule`.** The `Execute`s that wait are of the new schedule exactly if
there are none, or if the handler fails. -/
theorem timely_updated_iff {w : Worker S} (hw : Single w) (hatOnce : AtOnce w.history)
    {newSchedule : S} {origin : Option ℕ} (r : Readings)
    (hnext : w.myself.next = some ⟨.updateSchedule newSchedule, origin⟩) {w' : Worker S}
    (hw' : w' = w.after (.updated newSchedule r)
      (updateSchedule w.myself.receive newSchedule w.state r)) :
    w'.TimersTimely ∧ ((AtOnce w'.history ∧ w'.QueueTimely) ↔
      w.executes = 0 ∨ passed newSchedule r = true) := by
  subst hw'
  have hdeed : (Deed.updated newSchedule r).readings = some r := rfl
  -- the stored timer is aborted, and there is no other
  have htimers : (w.after (.updated newSchedule r)
      (updateSchedule w.myself.receive newSchedule w.state r)).TimersTimely :=
    timersTimely_after w hdeed (takeHandle_clock w.state w.myself.receive).1
      hw.takeHandle_receive_timers
  have hatOnce' := atOnce_after hatOnce
    (updateSchedule w.myself.receive newSchedule w.state r) hdeed
  by_cases hzero : w.executes = 0
  · have hnone : ∀ m ∈ (w.state.takeHandle w.myself.receive).1.queue, m.msg ≠ .execute := by
      intro m hm
      rw [takeHandle_queue] at hm
      exact (executes_eq_zero_iff w).mp hzero m (List.mem_of_mem_tail hm)
    exact ⟨htimers, fun _ => Or.inl hzero, fun _ => ⟨hatOnce', queueTimely_after hnone⟩⟩
  · -- the `Execute` that is queued stays there, unless the handler fails
    obtain ⟨m, hm, hmsg⟩ : ∃ m ∈ w.myself.queue.tail, m.msg = .execute := by
      by_contra hno
      refine hzero ((executes_eq_zero_iff w).mpr fun m hm hmsg => ?_)
      rw [TimedMailbox.next_eq_some hnext, List.mem_cons] at hm
      rcases hm with rfl | hm
      · cases hmsg
      · exact hno ⟨m, hm, hmsg⟩
    refine ⟨htimers, fun ⟨_, hq⟩ => Or.inr ?_, fun hor => ⟨hatOnce', fun m' hm' => ?_⟩⟩
    · by_contra hpassed
      have hm' : m ∈ (w.state.takeHandle w.myself.receive).1.queue := by
        rw [takeHandle_queue]
        exact hm
      exact not_queueTimely_of_update (List.mem_of_mem_tail hm)
        ((mem_queue_after m).mpr ⟨hm', Bool.eq_false_iff.mpr hpassed⟩) hmsg rfl rfl
        (after_history w _ _) hq
    · -- a handler that fails leaves no message behind
      have hopen := ((mem_queue_after m').mp hm').2
      rcases hor with hzero' | hpassed
      · exact absurd hzero' hzero
      · rw [hpassed] at hopen
        cases hopen

/-- **Step lemma.** From a state in which timers and queued `Execute`s are of the schedule in force,
a step keeps the `Execute`s so exactly if it is `noneQueued`; the timers stay so either way. -/
theorem timely_of_step_iff {w w' : Worker S} {e : WorkerEvent S} (hw : Single w)
    (htimers : w.TimersTimely) (hatOnce : AtOnce w.history) (hqueue : w.QueueTimely)
    (h : w.step e = some w') :
    w'.TimersTimely ∧
      ((AtOnce w'.history ∧ w'.QueueTimely) ↔ noneQueued w e = true) := by
  -- all that is left to show of a step that handles no `UpdateSchedule`
  have keeps {e : WorkerEvent S} {w' : Worker S} (hclean : noneQueued w e = true)
      (ht : w'.TimersTimely) (ha : AtOnce w'.history) (hq : w'.QueueTimely) :
      w'.TimersTimely ∧ ((AtOnce w'.history ∧ w'.QueueTimely) ↔ noneQueued w e = true) :=
    ⟨ht, fun _ => hclean, fun _ => ⟨ha, hq⟩⟩
  cases step_cases h with
  | lost | late | elapse => exact keeps rfl htimers hatOnce hqueue
  | update newSchedule halive =>
    refine keeps rfl htimers hatOnce fun m hm hmsg => ?_
    rcases List.mem_append.mp hm with hm | hm
    · exact hqueue m hm hmsg
    · rw [List.mem_singleton] at hm
      rw [hm] at hmsg
      cases hmsg
  | execute r origin hidle hstop hnext =>
    have hcons := TimedMailbox.next_eq_some hnext
    have hclean : noneQueued w (.handle r) = true := by
      simp [noneQueued, Worker.nextMsg, hidle, hstop, hnext]
    refine keeps hclean (fun t ht => ?_) ⟨hatOnce, fun origin' horigin => ?_⟩ fun m hm hmsg => ?_
    · rw [armedFrom_cons_of_ne w.history (TimedMailbox.handle_ne_nextHandle ht) rfl]
      exact htimers t ht
    · -- the message that is taken waited in the queue
      cases horigin
      exact hqueue ⟨.execute, origin⟩ (by rw [hcons]; exact List.mem_cons_self) rfl
    · have hmem : m ∈ w.myself.queue := List.mem_of_mem_tail hm
      rw [armedFrom_of_origin hmem rfl rfl]
      exact hqueue m hmem hmsg
  | updated r newSchedule origin hidle hstop hnext =>
    have hguard : noneQueued w (.handle r) = true ↔
        w.executes = 0 ∨ passed newSchedule r = true := by
      simp [noneQueued, Worker.nextMsg, hidle, hstop, hnext]
    rw [hguard]
    exact timely_updated_iff hw hatOnce r hnext rfl
  | worked result r hworking =>
    -- nothing is under way while the job works
    have hpending := hw.working hworking
    unfold Worker.pending at hpending
    have hnil : w.myself.timers = [] := List.length_eq_zero_iff.mp (by omega)
    have hnone := (executes_eq_zero_iff w).mp (by omega)
    exact keeps rfl (timersTimely_after w rfl rfl hnil)
      (atOnce_after hatOnce _ (show (Deed.worked result r).readings = some r from rfl))
      (queueTimely_after hnone)
  | fire t ht halive hdue =>
    refine keeps rfl (fun u hu => htimers u (List.mem_of_mem_filter hu)) hatOnce fun m hm hmsg => ?_
    rcases List.mem_append.mp hm with hm | hm
    · exact hqueue m hm hmsg
    · -- the message of the timer has its schedule
      rw [List.mem_singleton] at hm
      rw [hm, Option.bind_some]
      exact htimers t ht
  | lapse handle hended =>
    exact keeps rfl (fun t ht => htimers t (List.mem_of_mem_filter ht)) hatOnce hqueue
  | stop reason =>
    unfold Worker.stop
    split
    · exact keeps rfl htimers hatOnce hqueue
    · exact keeps rfl htimers hatOnce hqueue
  | takeStop reason hidle hstop =>
    -- `post_stop` aborts the stored timer, which is all there are
    have hnil := hw.takeHandle_timers
    refine keeps rfl (fun t ht => ?_) hatOnce fun m hm => ?_
    · simp [Worker.finish, postStop, hnil] at ht
    · cases hm
  -- the end of the worker empties its mailbox
  | panic what | kill =>
    refine keeps rfl htimers hatOnce fun m hm => ?_
    cases hm

/-- A worker as `pre_start` leaves it. -/
theorem timely_spawn {now : ℕ} {settings : CronSettings S} {r : Readings} {w : Worker S}
    (h : Worker.spawn now settings r = .ok w) :
    w.TimersTimely ∧ AtOnce w.history ∧ w.QueueTimely := by
  unfold Worker.spawn preStart at h
  rcases armNext_cases (TimedMailbox.empty now) settings.schedule r with
    ⟨harms, next, -, -, he⟩ | ⟨-, err, he⟩ | ⟨-, he⟩
  · simp only [he, Except.ok.injEq] at h
    subst h
    refine ⟨fun t ht => ?_, ⟨trivial, fun origin horigin => by cases horigin⟩, fun m hm => ?_⟩
    · rw [List.mem_singleton.mp ht]
      refine armedFrom_cons_of_armed [] ?_
      simp [Entry.armed, Deed.readings, harms, TimedMailbox.empty]
    · cases hm
  · simp only [he, reduceCtorEq] at h
  · simp only [he, Except.ok.injEq] at h
    subst h
    refine ⟨fun t ht => ?_, ⟨trivial, fun origin horigin => by cases horigin⟩, fun m hm => ?_⟩
    · cases ht
    · cases hm

/-- A step that is `noneQueued` keeps the triggers to one. -/
theorem updateClean_of_noneQueued {w : Worker S} {e : WorkerEvent S}
    (h : noneQueued w e = true) : updateClean w e = true := by
  cases e with
  | handle r =>
    cases hmsg : w.nextMsg with
    | none => simp [updateClean, hmsg]
    | some msg =>
      cases msg with
      | execute => simp [updateClean, hmsg]
      | updateSchedule newSchedule =>
        simp only [noneQueued, hmsg, Bool.or_eq_true, beq_iff_eq] at h
        simp only [updateClean, hmsg, Bool.or_eq_true, beq_iff_eq, Bool.not_eq_true']
        refine h.imp_right fun hpassed => ?_
        -- no timer is armed for an occurrence that has passed
        unfold passed at hpassed
        unfold arms
        cases hnext : Schedule.upcoming newSchedule r.upcoming with
        | none => rfl
        | some next =>
          have hlt : next < r.now := by simpa [hnext] using hpassed
          simpa using hlt
  | _ => rfl

/-- **When a new schedule takes effect at once.** In a run in which every `UpdateSchedule` was
handled while no `Execute` was queued (or failed the worker), every `Execute` handled was posted
by a timer armed from the schedule in force, after the last update. And these are the only runs
in which also no `Execute` of a replaced schedule is left waiting. -/
theorem update_takes_effect_iff {now : ℕ} {settings : CronSettings S} {r : Readings}
    {w₀ w : Worker S} {es : List (WorkerEvent S)} (h₀ : Worker.spawn now settings r = .ok w₀)
    (h : exec Worker.step w₀ es = some w) :
    (Run Worker.step (fun w e => noneQueued w e = true) w₀ es w →
      Throughout Worker.step (fun w => AtOnce w.history) w₀ es) ∧
    (Throughout Worker.step (fun w => AtOnce w.history ∧ w.QueueTimely) w₀ es ↔
      Run Worker.step (fun w e => noneQueued w e = true) w₀ es w) := by
  obtain ⟨hsingle, hone⟩ := single_spawn h₀
  obtain ⟨htimers, hatOnce, hqueue⟩ := timely_spawn h₀
  have hiff := run_iff_throughout
    (I := fun w => (Single w ∧ w.pending ≤ 1) ∧ w.TimersTimely)
    (P := fun w => AtOnce w.history ∧ w.QueueTimely)
    (G := fun w e => noneQueued w e = true) h ⟨⟨hsingle, hone⟩, htimers⟩ ⟨hatOnce, hqueue⟩
    (by
      rintro w e w' ⟨⟨hw, hone⟩, ht⟩ ⟨ha, hq⟩ hnone hstep
      obtain ⟨hw', hone'⟩ := pending_le_one_iff hw hone hstep
      exact ⟨⟨hw', hone'.mpr (updateClean_of_noneQueued hnone)⟩,
        (timely_of_step_iff hw ht ha hq hstep).1⟩)
    (by
      rintro w e w' ⟨⟨hw, -⟩, ht⟩ ⟨ha, hq⟩ hstep
      exact (timely_of_step_iff hw ht ha hq hstep).2)
  refine ⟨fun hrun => ?_, hiff.symm⟩
  exact throughout_iff.mpr fun es₁ t hpre ht => (throughout_iff.mp (hiff.mp hrun) es₁ t hpre ht).1

/-- The schedule is replaced before the timer expires, and the new one executes the job. -/
theorem update_takes_effect_iff_early :
    Throughout Worker.step (fun w : Worker Every => AtOnce w.history) tenWorker
      [.update ⟨20⟩, .handle ⟨6, 6⟩, .elapse 15, .expire 1, .handle ⟨20, 20⟩,
        .worked (.ok ()) ⟨21, 21⟩] := by
  let es : List (WorkerEvent Every) :=
    [.update ⟨20⟩, .handle ⟨6, 6⟩, .elapse 15, .expire 1, .handle ⟨20, 20⟩,
      .worked (.ok ()) ⟨21, 21⟩]
  obtain ⟨w, hw⟩ : ∃ w, exec (checked noneQueued Worker.step) tenWorker es = some w :=
    Option.isSome_iff_exists.mp (by decide)
  have hrun := run_iff_exec_checked.mpr hw
  exact (update_takes_effect_iff spawn_everyTen hrun.exec_eq).1 hrun

/-- **A stale execution.** The timer has posted its `Execute` behind an `UpdateSchedule` when that
is handled; the job then runs once more on the schedule that was replaced. -/
theorem stale_execution :
    ¬ ∀ (now : ℕ) (settings : CronSettings Every) (r : Readings) (w₀ w : Worker Every)
        (es : List (WorkerEvent Every)), Worker.spawn now settings r = .ok w₀ →
          exec Worker.step w₀ es = some w → AtOnce w.history := by
  intro hall
  have hatOnce := hall 5 everyTen ⟨5, 5⟩ tenWorker _
    [.update ⟨20⟩, .elapse 5, .expire 0, .handle ⟨10, 10⟩, .handle ⟨10, 10⟩] spawn_everyTen rfl
  exact absurd (hatOnce.2 (some 0) rfl) (by decide)

end RactorActors.Time.Cron
