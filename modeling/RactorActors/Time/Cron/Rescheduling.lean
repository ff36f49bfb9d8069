import RactorActors.Time.Cron.Correspondence
import RactorActors.Time.Cron.Trigger

/-!
# Rescheduling a cron job

A call of `schedule_next` or `pre_start` reads the clock twice: `upcoming` finds the first
occurrence after the first reading, and the delay of the timer is counted from the second. If
the occurrence is reached in between, the delay is negative, `to_std` fails, and the error is
returned: `Start` is answered with it, and a worker that was executing or taking a new schedule
dies of it.

* `armNext_ok_iff`, `rearmed_after_iff`, `spawn_ok_iff`: what each caller does in that case;
* `rescheduling_ok_iff`: every caller arms a timer for the occurrence found exactly if it has
  not passed;
* `rescheduling_fails`: a job that dies of an occurrence reached between the readings.
-/

namespace RactorActors.Time.Cron

open LabelledRun

variable {S : Type}

/-- Giving up the stored handle takes no time and arms no timer. -/
theorem takeHandle_clock (state : CronState S) (myself : TimedMailbox (CronMessage S)) :
    (state.takeHandle myself).1.nextHandle = myself.nextHandle ∧
      (state.takeHandle myself).1.now = myself.now := by
  unfold CronState.takeHandle
  split <;> exact ⟨rfl, rfl⟩

variable [Schedule S]

/-- The worker lives and has armed a timer that posts an `Execute` after `delay`. -/
def Worker.Rearmed (w w' : Worker S) (delay : ℕ) : Prop :=
  w'.isEnded = false ∧
    ⟨w.myself.nextHandle, w.myself.now + delay, .execute⟩ ∈ w'.myself.timers ∧
    w'.state.nextScheduleHandle = some w.myself.nextHandle

/-! ## The callers of `to_std` -/

/-- `to_std` takes the delay until an occurrence that has not passed. -/
theorem toStd_ok_iff (next now : ℤ) (period : ℕ) :
    toStd (next - now) = .ok period ↔ now ≤ next ∧ period = (next - now).toNat := by
  unfold toStd
  split
  · simp only [reduceCtorEq, false_iff, not_and]
    omega
  · rw [Except.ok.injEq, eq_comm]
    constructor
    · intro hperiod
      exact ⟨by omega, hperiod⟩
    · exact fun h => h.2

/-- A timer is armed for the occurrence found exactly if it has not passed. -/
theorem armNext_ok_iff (myself : TimedMailbox (CronMessage S)) {schedule : S} {r : Readings}
    {next : ℤ} (hnext : Schedule.upcoming schedule r.upcoming = some next) :
    armNext myself schedule r =
        (myself.sendAfter (next - r.now).toNat .execute, .ok (some myself.nextHandle)) ↔
      r.now ≤ next := by
  unfold armNext
  cases hstd : toStd (next - r.now) with
  | ok period =>
    obtain ⟨hle, rfl⟩ := (toStd_ok_iff next r.now period).mp hstd
    simp only [hnext, hstd, hle]
  | error err =>
    -- `to_std` fails only for an occurrence that has passed
    have hlt : ¬ r.now ≤ next := fun hle => by
      rw [(toStd_ok_iff next r.now _).mpr ⟨hle, rfl⟩] at hstd
      cases hstd
    simp only [hnext, hstd, hlt, Prod.mk.injEq, reduceCtorEq, and_false]

/-- Where `armNext` arms no timer for the occurrence found, it fails. -/
theorem armNext_error (myself : TimedMailbox (CronMessage S)) {schedule : S} {r : Readings}
    {next : ℤ} (hnext : Schedule.upcoming schedule r.upcoming = some next)
    (hlt : ¬ r.now ≤ next) : ∃ err, armNext myself schedule r = (myself, .error err) := by
  rcases armNext_cases myself schedule r with ⟨-, n, hn, hle, -⟩ | ⟨-, herr⟩ | ⟨-, he⟩
  · rw [hnext, Option.some.injEq] at hn
    exact absurd (hn ▸ hle) hlt
  · exact herr
  · -- the schedule is not exhausted
    exfalso
    unfold armNext at he
    rw [hnext] at he
    cases hstd : toStd (next - r.now) with
    | ok period => simp [hstd] at he
    | error err => simp [hstd] at he

/-- `pre_start` -/
theorem preStart_ok_iff (myself : TimedMailbox (CronMessage S)) (job : Job) {schedule : S}
    {r : Readings} {next : ℤ} (hnext : Schedule.upcoming schedule r.upcoming = some next) :
    preStart myself { schedule, job } r =
        (myself.sendAfter (next - r.now).toNat .execute,
          .ok { schedule, job, nextScheduleHandle := some myself.nextHandle }) ↔
      r.now ≤ next := by
  constructor
  · intro h
    by_contra hlt
    obtain ⟨err, herr⟩ := armNext_error myself hnext hlt
    simp [preStart, herr] at h
  · intro hle
    simp only [preStart, (armNext_ok_iff myself hnext).mpr hle]

/-- `schedule_next` -/
theorem scheduleNext_ok_iff (state : CronState S) (myself : TimedMailbox (CronMessage S))
    {r : Readings} {next : ℤ} (hnext : Schedule.upcoming state.schedule r.upcoming = some next) :
    state.scheduleNext myself r =
        ⟨myself.sendAfter (next - r.now).toNat .execute,
          { state with nextScheduleHandle := some myself.nextHandle }, .ok ()⟩ ↔
      r.now ≤ next := by
  constructor
  · intro h
    by_contra hlt
    obtain ⟨err, herr⟩ := armNext_error myself hnext hlt
    simp [CronState.scheduleNext, herr] at h
  · intro hle
    simp only [CronState.scheduleNext, (armNext_ok_iff myself hnext).mpr hle]

/-- `schedule_next` fails for an occurrence that has passed. -/
theorem scheduleNext_error {state : CronState S} (myself : TimedMailbox (CronMessage S))
    {r : Readings} {next : ℤ} (hnext : Schedule.upcoming state.schedule r.upcoming = some next)
    (hlt : ¬ r.now ≤ next) :
    ∃ err, state.scheduleNext myself r = ⟨myself, state, .error err⟩ := by
  obtain ⟨err, herr⟩ := armNext_error myself hnext hlt
  exact ⟨err, by simp only [CronState.scheduleNext, herr]⟩

/-- **What `schedule_next` finds decides what it does**: it arms a timer for an occurrence to come,
fails for one that has passed, and leaves no timer if the schedule is exhausted. -/
theorem scheduleNext_found (state : CronState S) (myself : TimedMailbox (CronMessage S))
    (r : Readings) :
    (∃ next, Schedule.upcoming state.schedule r.upcoming = some next ∧ r.now ≤ next ∧
      state.scheduleNext myself r =
        ⟨myself.sendAfter (next - r.now).toNat .execute,
          { state with nextScheduleHandle := some myself.nextHandle }, .ok ()⟩) ∨
    (∃ next err, Schedule.upcoming state.schedule r.upcoming = some next ∧ next < r.now ∧
      state.scheduleNext myself r = ⟨myself, state, .error err⟩) ∨
    (Schedule.upcoming state.schedule r.upcoming = none ∧
      state.scheduleNext myself r =
        ⟨myself, { state with nextScheduleHandle := none }, .ok ()⟩) := by
  cases hnext : Schedule.upcoming state.schedule r.upcoming with
  | some next =>
    by_cases hle : r.now ≤ next
    · exact Or.inl ⟨next, rfl, hle, (scheduleNext_ok_iff state myself hnext).mpr hle⟩
    · obtain ⟨err, herr⟩ := scheduleNext_error myself hnext hle
      exact Or.inr (Or.inl ⟨next, err, rfl, Int.not_le.mp hle, herr⟩)
  | none =>
    refine Or.inr (Or.inr ⟨rfl, ?_⟩)
    simp only [CronState.scheduleNext, armNext, hnext]

/-- **A handler that ends in `schedule_next`.** The worker lives on with a timer for the occurrence
found exactly if it has not passed. -/
theorem rearmed_after_iff (w : Worker S) (deed : Deed S) {myself : TimedMailbox (CronMessage S)}
    {state : CronState S} {r : Readings} {next : ℤ}
    (hnext : Schedule.upcoming state.schedule r.upcoming = some next)
    (hhandle : myself.nextHandle = w.myself.nextHandle) (hnow : myself.now = w.myself.now) :
    w.Rearmed (w.after deed (state.scheduleNext myself r)) (next - r.now).toNat ↔
      r.now ≤ next := by
  constructor
  · rintro ⟨halive, -, -⟩
    -- the error of `schedule_next` would fail the worker
    by_contra hlt
    obtain ⟨err, herr⟩ := scheduleNext_error myself hnext hlt
    rw [herr] at halive
    cases halive
  · intro hle
    rw [(scheduleNext_ok_iff state myself hnext).mpr hle]
    refine ⟨rfl, ?_, by simp [Worker.after, hhandle]⟩
    simp [Worker.after, hhandle, hnow]

/-- A worker is spawned exactly if the occurrence found has not passed. -/
theorem spawn_ok_iff (now : ℕ) (settings : CronSettings S) {r : Readings} {next : ℤ}
    (hnext : Schedule.upcoming settings.schedule r.upcoming = some next) :
    (∃ w, Worker.spawn now settings r = .ok w) ↔ r.now ≤ next := by
  constructor
  · rintro ⟨w, hw⟩
    by_contra hlt
    obtain ⟨err, herr⟩ := armNext_error (TimedMailbox.empty now) hnext hlt
    simp [Worker.spawn, preStart, herr] at hw
  · intro hle
    have harm := (armNext_ok_iff (TimedMailbox.empty now) hnext).mpr hle
    simp only [Worker.spawn, preStart, harm, Except.ok.injEq, exists_eq']

/-! ## Every caller -/

/-- **When rescheduling succeeds.** For every schedule and all readings of the clock that find an
occurrence `next`, each of the callers succeeds exactly if `next` has not passed at the second
reading: `pre_start` and `schedule_next` arm a timer that is due after `next - r.now` and return
`Ok`; the worker lives on after an `Execute` (whatever the job's work returned) and after an
`UpdateSchedule`; and a `Start` under a vacant name is answered with `Ok`. -/
theorem rescheduling_ok_iff (schedule : S) (r : Readings) {next : ℤ}
    (hnext : Schedule.upcoming schedule r.upcoming = some next) :
    (∀ (myself : TimedMailbox (CronMessage S)) (job : Job),
      preStart myself { schedule, job } r =
          (myself.sendAfter (next - r.now).toNat .execute,
            .ok { schedule, job, nextScheduleHandle := some myself.nextHandle }) ↔
        r.now ≤ next) ∧
    (∀ (myself : TimedMailbox (CronMessage S)) (state : CronState S), state.schedule = schedule →
      (state.scheduleNext myself r =
          ⟨myself.sendAfter (next - r.now).toNat .execute,
            { state with nextScheduleHandle := some myself.nextHandle }, .ok ()⟩ ↔
        r.now ≤ next)) ∧
    (∀ (w w' : Worker S) (worked : Except ActorProcessingErr Unit), w.state.schedule = schedule →
      w.step (.worked worked r) = some w' →
        (w.Rearmed w' (next - r.now).toNat ↔ r.now ≤ next)) ∧
    (∀ w w' : Worker S, w.nextMsg = some (.updateSchedule schedule) →
      w.step (.handle r) = some w' → (w.Rearmed w' (next - r.now).toNat ↔ r.now ≤ next)) ∧
    ∀ (s s' : Manager S) (state : CronManagerState S) (actor : ActorCell)
      (settings : CronSettings S) (reply : RpcReplyPort), settings.schedule = schedule →
      s.nextMsg = some (state, .start settings reply) → s.job settings.job.id = none →
        s.step (.handle actor r) = some s' →
          ((∃ e, s'.history = e :: s.history ∧ e.replies = [(reply, .started (.ok ()))]) ↔
            r.now ≤ next) := by
  refine ⟨fun myself job => preStart_ok_iff myself job hnext, ?_, ?_, ?_, ?_⟩
  · rintro myself state rfl
    exact scheduleNext_ok_iff state myself hnext
  · rintro w w' worked rfl h
    cases step_cases h with
    | worked _ _ _ => exact rearmed_after_iff w _ hnext rfl rfl
  · intro w w' hmsg h
    cases step_cases h with
    | execute _ origin hidle hstop hfirst =>
      rw [Worker.nextMsg, hidle, hstop, hfirst] at hmsg
      cases hmsg
    | updated _ newSchedule origin hidle hstop hfirst =>
      rw [Worker.nextMsg, hidle, hstop, hfirst, Option.some.injEq,
        CronMessage.updateSchedule.injEq] at hmsg
      subst hmsg
      -- the old timer is aborted first, which does not touch the clock
      obtain ⟨hhandle, hnow⟩ := takeHandle_clock w.state w.myself.receive
      exact rearmed_after_iff w _ hnext hhandle hnow
  · rintro s s' state actor settings reply rfl hmsg hvacant h
    obtain ⟨result, -, hhistory, hok, -, -⟩ := start_of_step hmsg h
    -- under a vacant name, `Start` is answered with the result of the spawn
    rw [← spawn_ok_iff s.now settings hnext]
    constructor
    · rintro ⟨e, he, hreplies⟩
      rw [hhistory, List.cons.injEq] at he
      rw [← he.1, List.cons.injEq, Prod.mk.injEq, Reply.started.injEq] at hreplies
      exact (hok.mp hreplies.1.2).2
    · intro hspawn
      exact ⟨_, hhistory, by rw [hok.mpr ⟨hvacant, hspawn⟩]⟩

/-- A job every 10 ticks is started at 9: its first occurrence is one tick away. -/
theorem rescheduling_ok_iff_in_time :
    preStart (TimedMailbox.empty 9) everyTen ⟨9, 9⟩ =
      ((TimedMailbox.empty 9).sendAfter 1 .execute,
        .ok { schedule := ⟨10⟩, job := ⟨"ten"⟩, nextScheduleHandle := some 0 }) :=
  ((rescheduling_ok_iff (⟨10⟩ : Every) ⟨9, 9⟩ rfl).1 (TimedMailbox.empty 9) ⟨"ten"⟩).mpr
    (by decide)

/-- **A job that dies of time.** The work of the job ends at 19, one tick before the next
occurrence. The clock is read again at 21: `to_std` fails, and with it the worker. -/
theorem rescheduling_fails :
    ¬ ∀ (w₀ w w' : Worker Every) (es : List (WorkerEvent Every)) (r : Readings) (next : ℤ),
        Worker.spawn 5 everyTen ⟨5, 5⟩ = .ok w₀ → exec Worker.step w₀ es = some w →
          r.upcoming ≤ r.now → Schedule.upcoming w.state.schedule r.upcoming = some next →
            w.step (.worked (.ok ()) r) = some w' → w'.isEnded = false := by
  intro hall
  have halive := hall tenWorker _ _ [.elapse 5, .expire 0, .handle ⟨10, 10⟩, .elapse 9] ⟨19, 21⟩
    20 spawn_everyTen rfl (by decide) rfl rfl
  exact absurd halive (by decide)

end RactorActors.Time.Cron
