import Mathlib.Data.List.Chain
import Mathlib.Order.Bounds.Basic
import RactorActors.Time.Cron.Agreement
import RactorActors.Time.Cron.Update

/-!
# The occurrences that a cron job is executed for

A worker that is sent no new schedule arms one timer at a time, and the next one only when the
work that the last one triggered has ended. So a job that works longer than a period does not
queue: the occurrences that pass meanwhile are skipped.

* `executions`: the executions of a history, with the occurrence each was triggered for, its
  start, and the reading of the clock at its end;
* `steady`: no new schedule is sent, and the readings of the clock are those of one clock that
  does not go back;
* `Paced`: each execution was triggered for the first occurrence after the end of the one before
  it, and so will be the next; kept by every `steady` step (`Paced.step`);
* `executions_follow_schedule`: what a run of such steps executes.
-/

namespace RactorActors.Time.Cron

open LabelledRun

/-- One execution of a job. -/
structure Execution where
  /-- The occurrence for which the timer that triggered it was armed. -/
  occurrence : Option ℤ
  /-- The time at which the work began. -/
  start : ℕ
  /-- What the clock read when the work had ended, if it has. -/
  finish : Option ℤ
deriving DecidableEq, Repr

/-- `n` is the first of the occurrences after `t`. -/
def NextAfter (occurs : Set ℤ) (t n : ℤ) : Prop := IsLeast {o | o ∈ occurs ∧ t < o} n

/-- The occurrence `o` is later than that of the execution `x`, and the first after its end. -/
def Follows (occurs : Set ℤ) (o : ℤ) (x : Execution) : Prop :=
  ∃ t o', x.finish = some t ∧ x.occurrence = some o' ∧ o' < o ∧ NextAfter occurs t o

variable {S : Type}

/-- A handler that has returned leaves no work going on. -/
theorem after_phase (w : Worker S) (deed : Deed S) (out : Outcome S) :
    (w.after deed out).phase ≠ .working := by
  unfold Worker.after
  split <;> simp [Worker.finish]

variable [Schedule S]

/-- The occurrence for which the timer `handle` was armed. -/
def occurrenceOf (handle : ℕ) : List (Entry S) → Option ℤ
  | [] => none
  | e :: old => if e.armed handle then e.found else occurrenceOf handle old

/-- The executions that a history records, newest first. -/
def executions : List (Entry S) → List Execution
  | [] => []
  | e :: old =>
    match e.deed with
    | .executing origin =>
      { occurrence := origin.bind fun handle => occurrenceOf handle old
        start := e.time
        finish := none } :: executions old
    | .worked _ r =>
      match executions old with
      | x :: rest => { x with finish := some r.upcoming } :: rest
      | [] => []
    | _ => executions old

/-- The step is not the sending of a new schedule. Where work ends, both readings of the clock are
taken between its start and now, one after the other. -/
def steady (w : Worker S) : WorkerEvent S → Bool
  | .update _ => false
  | .worked _ r =>
    w.history.head?.all (fun e => (e.time : ℤ) ≤ r.upcoming) && r.upcoming ≤ r.now &&
      r.now ≤ w.myself.now
  | _ => true

/-- The timer `handle` was armed for an occurrence that has come by `time`, and that is the first
after the end of the last execution. -/
def Due (occurs : Set ℤ) (history : List (Entry S)) (handle : ℕ) (time : ℕ) : Prop :=
  ∃ o, occurrenceOf handle history = some o ∧ o ≤ time ∧
    ∀ x ∈ (executions history).head?, Follows occurs o x

/-- Each execution was triggered for the first occurrence after the end of the one before it, and
so is what is under way. -/
structure Paced (occurs : Set ℤ) (schedule : S) (w : Worker S) : Prop where
  schedule : w.state.schedule = schedule
  queue : ∀ m ∈ w.myself.queue, m.msg = .execute ∧
    ∃ handle, m.origin = some handle ∧ Due occurs w.history handle w.myself.now
  timers : ∀ t ∈ w.myself.timers, Due occurs w.history t.handle t.deadline
  working : w.phase = .working → ∃ e origin old, w.history = e :: old ∧ e.deed = .executing origin
  started : ∀ x ∈ executions w.history, ∃ o, x.occurrence = some o ∧ o ≤ x.start
  chain : (executions w.history).IsChain fun y x =>
    ∃ o, y.occurrence = some o ∧ Follows occurs o x

variable {occurs : Set ℤ} {schedule : S}

/-! ## Steps -/

/-- A step that handles nothing. -/
theorem Paced.of_same {w w' : Worker S} (hw : Paced occurs schedule w)
    (hschedule : w'.state.schedule = w.state.schedule) (hhistory : w'.history = w.history)
    (hqueue : ∀ m ∈ w'.myself.queue, m.msg = .execute ∧
      ∃ handle, m.origin = some handle ∧ Due occurs w.history handle w'.myself.now)
    (htimers : ∀ t ∈ w'.myself.timers, t ∈ w.myself.timers)
    (hphase : w'.phase = .working → w.phase = .working) : Paced occurs schedule w' where
  schedule := hschedule.trans hw.schedule
  queue := by
    rw [hhistory]
    exact hqueue
  timers t ht := by
    rw [hhistory]
    exact hw.timers t (htimers t ht)
  working hworking := by
    rw [hhistory]
    exact hw.working (hphase hworking)
  started := by
    rw [hhistory]
    exact hw.started
  chain := by
    rw [hhistory]
    exact hw.chain

/-- Time only makes more occurrences come. -/
theorem Due.mono {history : List (Entry S)} {handle time time' : ℕ}
    (h : Due occurs history handle time) (hle : time ≤ time') :
    Due occurs history handle time' := by
  obtain ⟨o, ho, hdue, hfollows⟩ := h
  exact ⟨o, ho, by omega, hfollows⟩

/-- **An execution begins** for the occurrence of the timer that triggered it. -/
theorem paced_execute {w : Worker S} (hw : Paced occurs schedule w)
    (hone : w.pending ≤ 1) {origin : Option ℕ}
    (hnext : w.myself.next = some ⟨.execute, origin⟩) :
    Paced occurs schedule { w with
      myself := w.myself.receive
      phase := .working
      history :=
        ⟨w.myself.now, .executing origin, w.myself.nextHandle, w.state.schedule⟩ ::
          w.history } := by
  have hcons := TimedMailbox.next_eq_some hnext
  obtain ⟨-, handle, horigin, o, ho, hdue, hfollows⟩ :=
    hw.queue ⟨.execute, origin⟩ (by rw [hcons]; exact List.mem_cons_self)
  cases horigin
  -- the message that is taken was the only trigger
  have hcount := executes_of_execute hnext
  unfold Worker.pending at hone
  have htimers : w.myself.timers = [] := List.length_eq_zero_iff.mp (by omega)
  have hnone : ∀ m ∈ w.myself.queue.tail, False := by
    intro m hm
    have hzero : w.myself.queue.tail.countP (·.msg.isExecute) = 0 := by omega
    refine List.countP_eq_zero.mp hzero m hm ?_
    rw [(hw.queue m (List.mem_of_mem_tail hm)).1]
    rfl
  refine ⟨hw.schedule, fun m hm => (hnone m hm).elim, fun t ht => ?_,
    fun _ => ⟨_, _, _, rfl, rfl⟩, fun x hx => ?_, ?_⟩
  · have hmem : t ∈ w.myself.timers := ht
    rw [htimers] at hmem
    cases hmem
  · rcases List.mem_cons.mp hx with rfl | hx
    · exact ⟨o, ho, hdue⟩
    · exact hw.started x hx
  · exact List.isChain_cons.mpr ⟨fun x hx => ⟨o, ho, hfollows x hx⟩, hw.chain⟩

/-- **An execution ends.** The timer that is armed then is for the first occurrence after it. -/
theorem paced_worked (hupcoming : ∀ t n, Schedule.upcoming schedule t = some n ↔
      NextAfter occurs t n) {w : Worker S} (hw : Paced occurs schedule w) (hsingle : Single w)
    (hworking : w.phase = .working) (result : Except ActorProcessingErr Unit) {r : Readings}
    (hsteady : steady w (.worked result r) = true) :
    Paced occurs schedule
      (w.after (.worked result r) (w.state.scheduleNext w.myself r)) := by
  -- nothing is under way while the job works
  have hpending := hsingle.working hworking
  unfold Worker.pending at hpending
  have htimers : w.myself.timers = [] := List.length_eq_zero_iff.mp (by omega)
  have hnone := (executes_eq_zero_iff w).mp (by omega)
  have hqueue : ∀ m ∈ w.myself.queue, False := fun m hm => hnone m hm (hw.queue m hm).1
  -- the execution that ends
  obtain ⟨e, origin, old, hhistory, hdeed⟩ := hw.working hworking
  obtain ⟨x, hexecutions, hstart⟩ :
      ∃ x, executions w.history = x :: executions old ∧ x.start = e.time := by
    rw [hhistory, executions, hdeed]
    exact ⟨_, rfl, rfl⟩
  obtain ⟨o, ho, hle⟩ := hw.started x (by rw [hexecutions]; exact List.mem_cons_self)
  obtain ⟨⟨hlate, hreadings⟩, hnow⟩ :
      ((e.time : ℤ) ≤ r.upcoming ∧ r.upcoming ≤ r.now) ∧ r.now ≤ w.myself.now := by
    simpa [steady, hhistory] using hsteady
  have hended := after_history w (.worked result r) (w.state.scheduleNext w.myself r)
  rw [(scheduleNext_state w.state w.myself r).2] at hended
  have hexecutions' : executions
      (w.after (.worked result r) (w.state.scheduleNext w.myself r)).history =
        { x with finish := some r.upcoming } :: executions old := by
    rw [hended, executions, hexecutions]
  have hstarted := hw.started
  have hchain := hw.chain
  rw [hexecutions] at hstarted hchain
  refine ⟨by rw [after_state, (scheduleNext_state w.state w.myself r).2, hw.schedule],
    fun m hm => (hqueue m ((mem_queue_after m).mp hm).1).elim, fun t ht => ?_,
    fun hphase => absurd hphase (after_phase _ _ _), ?_, ?_⟩
  · rcases scheduleNext_found w.state w.myself r with
      ⟨next, hnext, hin, he⟩ | ⟨next, err, -, -, he⟩ | ⟨-, he⟩
    · -- the new timer
      have hfirst : NextAfter occurs r.upcoming next := by
        rw [hw.schedule] at hnext
        exact (hupcoming _ _).mp hnext
      have hmem := ht
      rw [he] at hmem
      simp only [Worker.after, TimedMailbox.sendAfter_timers, htimers, List.nil_append,
        List.mem_singleton] at hmem
      refine ⟨next, ?_, ?_, fun y hy => ?_⟩
      · rw [hended, occurrenceOf, if_pos]
        · exact hnext
        · simp [Entry.armed, hmem, Deed.readings, arms, hnext, hin]
      · rw [hmem]
        push_cast
        omega
      · -- the execution that has ended was for an occurrence that had come
        rw [hexecutions', List.head?_cons, Option.mem_some_iff] at hy
        subst hy
        have hlt : r.upcoming < next := hfirst.1.2
        exact ⟨r.upcoming, o, rfl, ho, by omega, hfirst⟩
    · rw [he] at ht
      simp [Worker.after, Worker.finish, htimers] at ht
    · rw [he] at ht
      simp [Worker.after, htimers] at ht
  · rw [hexecutions']
    intro y hy
    rcases List.mem_cons.mp hy with rfl | hy
    · exact ⟨o, ho, hle⟩
    · exact hstarted y (List.mem_cons_of_mem _ hy)
  · rw [hexecutions', List.isChain_cons]
    rw [List.isChain_cons] at hchain
    exact hchain

/-- The actor's end empties its mailbox. -/
theorem Paced.finish {w : Worker S} (hw : Paced occurs schedule w) (exit : Exit) :
    Paced occurs schedule (w.finish exit) := by
  refine hw.of_same rfl rfl (fun m hm => ?_) (fun t ht => ht) fun hphase => ?_
  · cases hm
  · cases hphase

/-- **Step lemma.** -/
theorem Paced.step (hupcoming : ∀ t n, Schedule.upcoming schedule t = some n ↔
      NextAfter occurs t n) {w w' : Worker S} {e : WorkerEvent S} (hw : Paced occurs schedule w)
    (hsingle : Single w) (hone : w.pending ≤ 1) (hsteady : steady w e = true)
    (h : w.step e = some w') : Paced occurs schedule w' := by
  cases step_cases h with
  | lost | update => cases hsteady
  | execute r origin hidle hstop hnext => exact paced_execute hw hone hnext
  | updated r newSchedule origin hidle hstop hnext =>
    -- nobody sends a new schedule
    have hmem : ⟨.updateSchedule newSchedule, origin⟩ ∈ w.myself.queue := by
      rw [TimedMailbox.next_eq_some hnext]
      exact List.mem_cons_self
    have hexecute := (hw.queue _ hmem).1
    cases hexecute
  | worked result r hworking => exact paced_worked hupcoming hw hsingle hworking result hsteady
  | fire t ht halive hdue =>
    refine hw.of_same rfl rfl (fun m hm => ?_) (fun u hu => List.mem_of_mem_filter hu) fun h => h
    rcases List.mem_append.mp hm with hm | hm
    · exact hw.queue m hm
    · -- a timer expires when its deadline has come
      rw [List.mem_singleton] at hm
      subst hm
      exact ⟨hsingle.execute t ht, t.handle, rfl, (hw.timers t ht).mono hdue⟩
  | lapse handle hended =>
    exact hw.of_same rfl rfl hw.queue (fun u hu => List.mem_of_mem_filter hu) fun h => h
  | elapse duration =>
    refine hw.of_same rfl rfl (fun m hm => ?_) (fun t ht => ht) fun h => h
    obtain ⟨hmsg, handle, horigin, hdue⟩ := hw.queue m hm
    exact ⟨hmsg, handle, horigin, hdue.mono (Nat.le_add_right _ _)⟩
  | stop reason =>
    unfold Worker.stop
    split
    · exact hw.of_same rfl rfl hw.queue (fun t ht => ht) fun h => h
    · exact hw
  | takeStop reason =>
    refine hw.of_same (takeHandle_state w.state w.myself).2 rfl (fun m hm => ?_)
      (fun t ht => mem_takeHandle_timers ht) fun hphase => ?_
    · cases hm
    · cases hphase
  | panic | kill => exact hw.finish _
  | late => exact hw

/-- A worker as `pre_start` leaves it, if the readings of the clock are in order. -/
theorem paced_spawn {now : ℕ} {settings : CronSettings S} {r : Readings} {w : Worker S}
    (hnow : r.now ≤ now) (h : Worker.spawn now settings r = .ok w) :
    Paced occurs settings.schedule w := by
  unfold Worker.spawn preStart at h
  rcases armNext_cases (TimedMailbox.empty now) settings.schedule r with
    ⟨harms, next, hnext, hle, he⟩ | ⟨-, err, he⟩ | ⟨-, he⟩
  · simp only [he, Except.ok.injEq] at h
    subst h
    refine ⟨rfl, fun m hm => ?_, fun t ht => ⟨next, ?_, ?_, fun x hx => ?_⟩, fun hwork => ?_,
      fun x hx => ?_, List.IsChain.nil⟩
    · cases hm
    · rw [List.mem_singleton.mp ht, occurrenceOf, if_pos]
      · exact hnext
      · simp [Entry.armed, Deed.readings, harms, TimedMailbox.empty]
    · rw [List.mem_singleton.mp ht]
      simp only [TimedMailbox.empty_now]
      push_cast
      omega
    · cases hx
    · cases hwork
    · cases hx
  · simp only [he, reduceCtorEq] at h
  · simp only [he, Except.ok.injEq] at h
    subst h
    refine ⟨rfl, fun m hm => ?_, fun t ht => ?_, fun hwork => ?_, fun x hx => ?_,
      List.IsChain.nil⟩
    · cases hm
    · cases ht
    · cases hwork
    · cases hx

/-- Without new schedules every step keeps the triggers to one. -/
theorem updateClean_of_paced {w : Worker S} (hw : Paced occurs schedule w) (e : WorkerEvent S) :
    updateClean w e = true := by
  cases e with
  | handle r =>
    cases hmsg : w.nextMsg with
    | none => simp [updateClean, hmsg]
    | some msg =>
      cases msg with
      | execute => simp [updateClean, hmsg]
      | updateSchedule newSchedule =>
        exfalso
        unfold Worker.nextMsg at hmsg
        split at hmsg
        · rename_i m _ _ hnext
          have hmem : m ∈ w.myself.queue := by
            rw [TimedMailbox.next_eq_some hnext]
            exact List.mem_cons_self
          rw [Option.some.injEq, (hw.queue m hmem).1] at hmsg
          cases hmsg
        · cases hmsg
  | _ => rfl

/-- **The occurrences executed.** Let `upcoming` find the first of the schedule's occurrences after
the time it is read. In every run of a worker that is sent no new schedule, on one clock that does
not go back, with work of any duration and any result: each execution starts no earlier than the
occurrence it was triggered for; the occurrences of successive executions increase; each is the
first one after the end of the execution before; and at no time is more than one trigger under
way, and none while the job works. -/
theorem executions_follow_schedule {now : ℕ} {settings : CronSettings S} {r : Readings}
    {w₀ w : Worker S} {es : List (WorkerEvent S)}
    (hupcoming : ∀ t n, Schedule.upcoming settings.schedule t = some n ↔ NextAfter occurs t n)
    (hnow : r.now ≤ now) (h₀ : Worker.spawn now settings r = .ok w₀)
    (h : Run Worker.step (fun w e => steady w e = true) w₀ es w) :
    (∀ x ∈ executions w.history, ∃ o, x.occurrence = some o ∧ o ≤ x.start) ∧
      ((executions w.history).Pairwise fun y x =>
        ∃ o' o, x.occurrence = some o' ∧ y.occurrence = some o ∧ o' < o) ∧
      ((executions w.history).IsChain fun y x =>
        ∃ t o, x.finish = some t ∧ y.occurrence = some o ∧ NextAfter occurs t o) ∧
      w.pending ≤ 1 ∧ (w.phase = .working → w.pending = 0) := by
  obtain ⟨hsingle₀, hone₀⟩ := single_spawn h₀
  obtain ⟨⟨hsingle, hone⟩, hpaced⟩ :
      (Single w ∧ w.pending ≤ 1) ∧ Paced occurs settings.schedule w := by
    refine h.invariant (P := fun w => (Single w ∧ w.pending ≤ 1) ∧
      Paced occurs settings.schedule w) ⟨⟨hsingle₀, hone₀⟩, paced_spawn hnow h₀⟩ ?_
    rintro w e w' ⟨⟨hw, hone⟩, hp⟩ hsteady hstep
    obtain ⟨hw', hone'⟩ := pending_le_one_iff hw hone hstep
    exact ⟨⟨hw', hone'.mpr (updateClean_of_paced hp e)⟩,
      hp.step hupcoming hw hone hsteady hstep⟩
  have hincreasing : (executions w.history).IsChain fun y x =>
      ∃ o' o, x.occurrence = some o' ∧ y.occurrence = some o ∧ o' < o := by
    refine hpaced.chain.imp fun y x ⟨o, ho, t, o', hfinish, ho', hlt, hfirst⟩ => ?_
    exact ⟨o', o, ho', ho, hlt⟩
  -- the increase from one execution to the next is one over all of them
  have htrans : IsTrans Execution fun y x =>
      ∃ o' o, x.occurrence = some o' ∧ y.occurrence = some o ∧ o' < o := by
    refine ⟨fun z y x ⟨o₁, o₂, hy, hz, hlt⟩ ⟨o₃, o₄, hx, hy', hlt'⟩ => ?_⟩
    rw [hy, Option.some.injEq] at hy'
    exact ⟨o₃, o₂, hx, hz, by omega⟩
  refine ⟨hpaced.started, hincreasing.pairwise, ?_, hone, hsingle.working⟩
  refine hpaced.chain.imp fun y x ⟨o, ho, t, o', hfinish, ho', hlt, hfirst⟩ => ?_
  exact ⟨t, o, hfinish, ho, hfirst⟩

/-- The occurrences of a schedule every 10 ticks are the multiples of 10. -/
theorem upcoming_everyTen (t n : ℤ) :
    Schedule.upcoming everyTen.schedule t = some n ↔ NextAfter {o | 10 ∣ o} t n := by
  have hup : Schedule.upcoming everyTen.schedule t = some ((t / 10 + 1) * 10) := rfl
  have hleast : NextAfter {o | 10 ∣ o} t ((t / 10 + 1) * 10) := by
    refine ⟨⟨Int.dvd_mul_left _ _, by omega⟩, ?_⟩
    rintro o ⟨⟨k, rfl⟩, hlt⟩
    omega
  rw [hup, Option.some.injEq]
  constructor
  · rintro rfl
    exact hleast
  · intro hn
    exact hleast.unique hn

/-- Work that begins at 10 and ends at 38: the occurrences at 20 and 30 are skipped. -/
theorem executions_follow_schedule_long_work :
    ∃ w : Worker Every, exec Worker.step tenWorker
        [.elapse 5, .expire 0, .handle ⟨0, 0⟩, .elapse 29, .worked (.ok ()) ⟨38, 39⟩, .elapse 2,
          .expire 1, .handle ⟨0, 0⟩] = some w ∧
      executions w.history = [⟨some 40, 41, none⟩, ⟨some 10, 10, some 38⟩] ∧
      (executions w.history).IsChain fun y x =>
        ∃ t o, x.finish = some t ∧ y.occurrence = some o ∧ NextAfter {o | 10 ∣ o} t o := by
  let es : List (WorkerEvent Every) :=
    [.elapse 5, .expire 0, .handle ⟨0, 0⟩, .elapse 29, .worked (.ok ()) ⟨38, 39⟩, .elapse 2,
      .expire 1, .handle ⟨0, 0⟩]
  have hexecuted : (exec (checked steady Worker.step) tenWorker es).map
      (fun w => executions w.history) = some [⟨some 40, 41, none⟩, ⟨some 10, 10, some 38⟩] := by
    decide
  obtain ⟨w, hw, hlist⟩ := Option.map_eq_some_iff.mp hexecuted
  have hrun := run_iff_exec_checked.mpr hw
  exact ⟨w, hrun.exec_eq, hlist, (executions_follow_schedule upcoming_everyTen
    (show (⟨5, 5⟩ : Readings).now ≤ (5 : ℕ) from le_refl _) spawn_everyTen hrun).2.2.1⟩

end RactorActors.Time.Cron
