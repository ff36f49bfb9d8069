import RactorActors.Time.Cron.Notices

/-!
# A start is heard before the end

A subscriber hears of a start when the manager handles the worker's `ActorStarted`. It hears of
a failure or of an exit in the same way, so after the start: the events of one worker arrive in
order (`Ordered`). A `Stop` is reported by its own handler, which waits for no event.

* `StartFirst`: the history tells nobody of an end before the start;
* `subscribedSince`: a subscriber has been there since before the start of an instance;
* `start_before_end_iff`: a run is `StartFirst` throughout exactly when no `Stop` is handled
  before its job's `ActorStarted` while somebody has waited for that since before the start;
* `end_before_start`: a job that is stopped at once.
-/

namespace RactorActors.Time.Cron

open LabelledRun

variable {S : Type}

/-- The job that a notice is about. -/
def Notice.job : Notice → String
  | .started job => job
  | .stopped job _ => job
  | .failed job _ => job

/-- The notice tells of an end. -/
def Notice.isTerminal : Notice → Bool
  | .started _ => false
  | _ => true

/-- The handled input is the `Start` that spawned the worker `id`. -/
def ManagerEntry.starts (e : ManagerEntry S) (id : ActorId) : Bool :=
  match e.input, e.spawning with
  | .msg (.start _ _), some spawning =>
    decide (spawning.actor.getId = id) && e.replies.any fun
      | (_, .started (.ok ())) => true
      | _ => false
  | _, _ => false

/-- The subscriber has been registered under `who` since before the start of the worker `id`. -/
def subscribedSince (id who : ActorId) (sub : Subscriber) : List (ManagerEntry S) → Bool
  | [] => false
  | e :: old =>
    decide (e.before.subs.lookup who = some sub) &&
      (e.starts id || subscribedSince id who sub old)

/-- The manager has handled the `ActorStarted` of the worker `id`. -/
def startHandled (id : ActorId) (history : List (ManagerEntry S)) : Bool :=
  history.any fun e =>
    match e.input with
    | .evt (.actorStarted who) => who.getId = id
    | _ => false

/-- Whoever is told by this input of the end of an instance, and was subscribed since before its
start, was told of its start by an older one. -/
def ManagerEntry.EndAfterStart (e₀ : ManagerEntry S) (old : List (ManagerEntry S)) : Prop :=
  ∀ id, e₀.concerns id = true → ∀ who sub notice, (sub, notice) ∈ e₀.notices →
    notice.isTerminal = true → e₀.before.subs.lookup who = some sub →
    subscribedSince id who sub old = true →
    ∃ e₁ ∈ old, e₁.concerns id = true ∧ (sub, .started notice.job) ∈ e₁.notices

/-- No input of the history tells of an end before the start. -/
def StartFirst (history : List (ManagerEntry S)) : Prop :=
  ∀ e₀ old, e₀ :: old <:+ history → e₀.EndAfterStart old

/-- The step handles no `Stop` of a job whose `ActorStarted` was not handled yet, while a
subscriber has been there since before the job's start. -/
def startAwaited (s : Manager S) : ManagerEvent S → Bool
  | .handle _ _ =>
    match s.nextMsg with
    | some (state, .stop who) =>
      match state.jobs.lookup who with
      | some job =>
        startHandled job.2.getId s.history || state.subs.entries.all fun sub =>
          !subscribedSince job.2.getId sub.1 sub.2 s.history
      | none => true
    | _ => true
  | _ => true

/-! ## The order of a worker's events -/

/-- Each exit event of the list comes after the start of its worker, which is in the list or was
heard before. -/
def Ordered (heard : ActorId → Prop) : List SupervisionEvent → Prop
  | [] => True
  | evt :: rest =>
    (∀ id, evt.ended = some id → heard id) ∧
      Ordered (fun id => heard id ∨ evt = .actorStarted ⟨id⟩) rest

/-- More may have been heard. -/
theorem Ordered.mono {heard heard' : ActorId → Prop} {evts : List SupervisionEvent}
    (h : Ordered heard evts) (hsub : ∀ id, heard id → heard' id) : Ordered heard' evts := by
  induction evts generalizing heard heard' with
  | nil => trivial
  | cons evt rest ih =>
    refine ⟨fun id hid => hsub id (h.1 id hid), ih h.2 fun id hid => ?_⟩
    exact hid.imp_left (hsub id)

/-- An event may be appended if its worker's start was heard or waits. -/
theorem Ordered.snoc {heard : ActorId → Prop} {evts : List SupervisionEvent}
    (h : Ordered heard evts) {evt : SupervisionEvent}
    (hevt : ∀ id, evt.ended = some id → heard id ∨ .actorStarted ⟨id⟩ ∈ evts) :
    Ordered heard (evts ++ [evt]) := by
  induction evts generalizing heard with
  | nil =>
    refine ⟨fun id hid => ?_, trivial⟩
    rcases hevt id hid with hheard | hmem
    · exact hheard
    · cases hmem
  | cons first rest ih =>
    refine ⟨h.1, ih h.2 fun id hid => ?_⟩
    rcases hevt id hid with hheard | hmem
    · exact Or.inl (Or.inl hheard)
    · rcases List.mem_cons.mp hmem with hfirst | hrest
      · exact Or.inl (Or.inr hfirst.symm)
      · exact Or.inr hrest

/-- The manager is running. -/
def Manager.isRunning (s : Manager S) : Bool :=
  match s.phase with
  | .running _ => true
  | _ => false

/-- While the manager runs, its workers' events come in order: each worker that has ended had
begun, and its start was handled or waits ahead of its exit. -/
structure InOrder (s : Manager S) : Prop where
  begun : s.isRunning = true → ∀ id exit, s.workers.Exited id exit → id ∈ s.announced
  heard : s.isRunning = true → ∀ id ∈ s.announced,
    startHandled id s.history = true ∨ .actorStarted ⟨id⟩ ∈ s.supervision
  ordered : Ordered (fun id => startHandled id s.history = true) s.supervision

/-- What has not begun does not end: a worker ends in a step of its task. -/
theorem announced_of_workerStep [Schedule S] {w w' : Worker S} {e : WorkerEvent S}
    (h : w.step e = some w') {announced : Bool} (henabled : e.enabled announced = true)
    (halive : w.isEnded = false) (hended : w'.isEnded = true) : announced = true := by
  cases e with
  | update | elapse => cases henabled
  | stop reason =>
    simp only [Worker.step, Option.some.injEq] at h
    rw [← h, Worker.isEnded_stop, halive] at hended
    cases hended
  | expire handle =>
    simp only [Worker.step, halive, Bool.false_eq_true, if_false, Option.map_eq_some_iff] at h
    obtain ⟨box, -, rfl⟩ := h
    exact absurd hended (Bool.eq_false_iff.mp halive)
  | handle | worked | panic | takeStop | kill => exact henabled

/-- Handling a message ends no worker. -/
theorem HandleCase.exited_before {workers : Workers S} {spawning : Spawning}
    {state : CronManagerState S} {msg : CronManagerMessage S} {out : ManagerOutcome S}
    (h : HandleCase workers spawning state msg out) {id : ActorId} {exit : Exit}
    (hexited : out.workers.Exited id exit) : workers.Exited id exit := by
  obtain ⟨w', hw', hended⟩ := hexited
  have halive : w'.isEnded = true := by rw [Worker.isEnded, hended]
  cases h with
  | quiet _ _ _ hworkers => exact ⟨w', hworkers ▸ hw', hended⟩
  | failed _ _ _ _ _ _ _ hworkers => exact ⟨w', hworkers ▸ hw', hended⟩
  | started settings reply worker _ hidle _ _ hworkers =>
    rw [hworkers] at hw'
    by_cases hid : id = spawning.actor.getId
    · subst hid
      rw [Function.update_self, Option.some.injEq] at hw'
      rw [hw', halive] at hidle
      cases hidle
    · rw [Function.update_of_ne hid] at hw'
      exact ⟨w', hw', hended⟩
  | stopped who job _ _ _ hworkers =>
    rw [hworkers, Workers.stop] at hw'
    by_cases hid : id = job.2.getId
    · -- a stop is sent, and not taken yet
      subst hid
      rw [Function.update_self, Option.map_eq_some_iff] at hw'
      obtain ⟨w, hw, rfl⟩ := hw'
      rw [phase_stop] at hended
      exact ⟨w, hw, hended⟩
    · rw [Function.update_of_ne hid] at hw'
      exact ⟨w', hw', hended⟩
  | updated who schedule job w _ _ hw hopen _ hworkers =>
    rw [hworkers] at hw'
    by_cases hid : id = job.2.getId
    · subst hid
      rw [Function.update_self, Option.some.injEq] at hw'
      subst hw'
      exact ⟨w, hw, hended⟩
    · rw [Function.update_of_ne hid] at hw'
      exact ⟨w', hw', hended⟩

/-- What was handled stays handled. -/
theorem startHandled_cons {id : ActorId} {history : List (ManagerEntry S)} (e : ManagerEntry S)
    (h : startHandled id history = true) : startHandled id (e :: history) = true := by
  rw [startHandled, List.any_cons, Bool.or_eq_true]
  exact Or.inr h

/-- The `ActorStarted` of a worker has been handled when an entry records it. -/
theorem startHandled_iff {id : ActorId} {history : List (ManagerEntry S)} :
    startHandled id history = true ↔
      ∃ e ∈ history, e.input = .evt (.actorStarted ⟨id⟩) := by
  rw [startHandled, List.any_eq_true]
  constructor
  · rintro ⟨e, he, hstart⟩
    refine ⟨e, he, ?_⟩
    split at hstart
    · rename_i who hin
      rw [decide_eq_true_eq] at hstart
      rw [hin, ← hstart]
      rfl
    · cases hstart
  · rintro ⟨e, he, hin⟩
    refine ⟨e, he, ?_⟩
    rw [hin]
    simp [ActorCell.getId]

/-- A worker's own step keeps the order: what it ends had begun. -/
theorem InOrder.worker [Schedule S] {s : Manager S} (hs : InOrder s) {id' : ActorId}
    {e : WorkerEvent S} {w w' : Worker S}
    (henabled : e.enabled (s.announced.contains id') = true) (hw : s.workers id' = some w)
    (hstep : w.step e = some w') :
    InOrder { s with workers := Function.update s.workers id' (some w') } := by
  refine ⟨fun hrunning id exit hexited => ?_, hs.heard, hs.ordered⟩
  obtain ⟨w₁, hw₁, hended⟩ := hexited
  simp only at hw₁
  by_cases hid : id = id'
  · subst hid
    rw [Function.update_self, Option.some.injEq] at hw₁
    subst hw₁
    cases halive : w.isEnded with
    | true =>
      -- it had ended before
      rw [Worker.isEnded] at halive
      split at halive
      · rename_i exit' hexit'
        exact hs.begun hrunning id exit' ⟨w, hw, hexit'⟩
      · cases halive
    | false =>
      have hended' : w'.isEnded = true := by rw [Worker.isEnded, hended]
      simpa using announced_of_workerStep hstep henabled halive hended'
  · rw [Function.update_of_ne hid] at hw₁
    exact hs.begun hrunning id exit ⟨w₁, hw₁, hended⟩

/-- An event that is delivered goes last. The order is kept if the event is the start that was
missing, or the exit of a worker whose start is ahead of it. -/
theorem InOrder.deliver {s : Manager S} {evt : SupervisionEvent}
    (hbegun : s.isRunning = true → ∀ id exit, s.workers.Exited id exit → id ∈ s.announced)
    (hheard : s.isRunning = true → ∀ id ∈ s.announced,
      startHandled id s.history = true ∨ .actorStarted ⟨id⟩ ∈ s.supervision ++ [evt])
    (hordered : Ordered (fun id => startHandled id s.history = true) s.supervision)
    (hevt : s.isRunning = true → ∀ id, evt.ended = some id →
      startHandled id s.history = true ∨ .actorStarted ⟨id⟩ ∈ s.supervision) :
    InOrder (s.deliver evt) := by
  unfold Manager.deliver
  cases hphase : s.phase with
  | running state =>
    have hrun : s.isRunning = true := by rw [Manager.isRunning, hphase]
    exact ⟨fun _ => hbegun hrun, fun _ => hheard hrun, hordered.snoc (hevt hrun)⟩
  | stopped | failed =>
    -- a manager that has ended hears nothing
    refine ⟨fun hrun => ?_, fun hrun => ?_, hordered⟩
    all_goals simp [Manager.isRunning, hphase] at hrun

/-- **Step lemma.** Every step keeps the events of the workers in order. -/
theorem InOrder.step [Schedule S] {s s' : Manager S} {e : ManagerEvent S} (hs : InOrder s)
    (h : s.step e = some s') : InOrder s' := by
  cases Manager.step_cases h with
  | post | stop | lost => exact ⟨hs.begun, hs.heard, hs.ordered⟩
  | takeStop | kill =>
    refine ⟨fun hrunning => ?_, fun hrunning => ?_, trivial⟩
    all_goals cases hrunning
  | elapse duration =>
    refine ⟨fun hrunning id exit hexited => ?_, hs.heard, hs.ordered⟩
    obtain ⟨w', hw', hended⟩ := hexited
    rw [Option.map_eq_some_iff] at hw'
    obtain ⟨w, hw, rfl⟩ := hw'
    exact hs.begun hrunning id exit ⟨w, hw, hended⟩
  | worker id' e' w w' henabled hw hstep => exact hs.worker henabled hw hstep
  | announce id' w hw hnew =>
    refine InOrder.deliver (fun hrun id exit hexited => ?_) (fun hrun id hid => ?_) hs.ordered
      fun _ id hid => ?_
    · exact List.mem_cons_of_mem _ (hs.begun hrun id exit hexited)
    · rcases List.mem_cons.mp hid with rfl | hid
      · exact Or.inr (List.mem_append_right _ (List.mem_singleton_self _))
      · exact (hs.heard hrun id hid).imp_right (List.mem_append_left _)
    · cases hid
  | report id' w exit' hw hended' hnew =>
    refine InOrder.deliver hs.begun (fun hrun id hid => ?_) hs.ordered fun hrun id hid => ?_
    · exact (hs.heard hrun id hid).imp_right (List.mem_append_left _)
    · rw [ended_event, Option.some.injEq] at hid
      subst hid
      exact hs.heard hrun id' (hs.begun hrun id' exit' ⟨w, hw, hended'⟩)
  | supervise state evt rest hphase _ hsup =>
    obtain ⟨hok, hworkers, -⟩ := handleSupervisorEvt_cases s.workers evt state
    have hrun : s.isRunning = true := by rw [Manager.isRunning, hphase]
    obtain ⟨hbegun, hheard, hordered⟩ := hs
    rw [hsup] at hheard hordered
    -- a start that was waiting first is handled now
    have hnow {id : ActorId} (hevt : evt = .actorStarted ⟨id⟩) (e₀ : ManagerEntry S)
        (hin : e₀.input = .evt evt) : startHandled id (e₀ :: s.history) = true :=
      startHandled_iff.mpr ⟨e₀, List.mem_cons_self, by rw [hin, hevt]⟩
    rw [after_of_ok hok]
    refine ⟨fun _ id exit hexited => ?_, fun _ id hid => ?_, ?_⟩
    · simp only [hworkers] at hexited
      exact hbegun hrun id exit hexited
    · rcases hheard hrun id hid with hold | hmem
      · exact Or.inl (startHandled_cons _ hold)
      · rcases List.mem_cons.mp hmem with hfirst | hrest
        · exact Or.inl (hnow hfirst.symm _ rfl)
        · exact Or.inr hrest
    · refine hordered.2.mono fun id hid => ?_
      rcases hid with hold | hfirst
      · exact startHandled_cons _ hold
      · exact hnow hfirst _ rfl
  | handle actor readings state msg hnext hfresh =>
    obtain ⟨hphase, -, -⟩ := running_of_nextMsg hnext
    have hrun : s.isRunning = true := by rw [Manager.isRunning, hphase]
    have hcase := handle_cases s.workers ⟨s.now, actor, readings⟩ state msg
    rcases hres : (CronManager.handle s.workers ⟨s.now, actor, readings⟩ state msg).result
      with err | _
    · refine ⟨fun hrun' => ?_, fun hrun' => ?_, ?_⟩
      · rw [Manager.isRunning, (after_of_error hres).1] at hrun'
        cases hrun'
      · rw [Manager.isRunning, (after_of_error hres).1] at hrun'
        cases hrun'
      · rw [(after_of_error hres).2.1]
        trivial
    · rw [after_of_ok hres]
      refine ⟨fun _ id exit hexited => ?_, fun _ id hid => ?_, ?_⟩
      · exact hs.begun hrun id exit (hcase.exited_before hexited)
      · exact (hs.heard hrun id hid).imp_left (startHandled_cons _)
      · exact hs.ordered.mono fun id hid => startHandled_cons _ hid

/-- The order of a run. -/
theorem inOrder_spawn (now : ℕ) : InOrder (Manager.spawn now : Manager S) := by
  refine ⟨fun _ id exit hexited => ?_, fun _ id hid => ?_, trivial⟩
  · obtain ⟨w, hw, -⟩ := hexited
    cases hw
  · cases hid

/-! ## Who has heard of a start -/

/-- A subscriber is told what is told. -/
theorem mem_tell {state : CronManagerState S} {who : ActorId} {sub : Subscriber}
    (h : state.subs.lookup who = some sub) (notice : Notice) :
    (sub, notice) ∈ state.tell notice := by
  rw [CronManagerState.tell, List.mem_map]
  exact ⟨⟨who, sub⟩, AList.mem_lookup_iff.mp h, rfl⟩

/-- A worker is started under a new identity. -/
theorem fresh_of_starts [Schedule S] {s s' : Manager S} {e : ManagerEvent S}
    (h : s.step e = some s') {e₀ : ManagerEntry S} (he₀ : s'.history = e₀ :: s.history)
    {id : ActorId} (hstarts : e₀.starts id = true) : s.workers id = none := by
  cases history_cases h with
  | none hsame =>
    rw [hsame] at he₀
    exact absurd he₀.symm (List.cons_ne_self _ _)
  | msg actor readings state msg _ _ hfresh hs' =>
    rw [hs', history_after, List.cons.injEq] at he₀
    rw [← he₀.1] at hstarts
    unfold ManagerEntry.starts at hstarts
    cases msg with
    | start settings reply =>
      simp only [Bool.and_eq_true, decide_eq_true_eq] at hstarts
      exact hstarts.1 ▸ hfresh
    | _ => cases hstarts
  | evt state evt rest _ _ _ hs' =>
    rw [hs', history_after, List.cons.injEq] at he₀
    rw [← he₀.1] at hstarts
    cases hstarts

/-- Whoever was there since before the start of an instance in the map has heard of the start,
once it was handled. -/
def StartTold (s : Manager S) : Prop :=
  ∀ name job, s.job name = some job → ∀ who sub,
    subscribedSince job.2.getId who sub s.history = true →
    startHandled job.2.getId s.history = true →
    ∃ e₁ ∈ s.history, e₁.concerns job.2.getId = true ∧ (sub, .started name) ∈ e₁.notices

/-- An entry that records a worker's `ActorStarted` is about its instance. -/
theorem concerns_of_started {e : ManagerEntry S} {id : ActorId}
    (h : e.input = .evt (.actorStarted ⟨id⟩)) : e.concerns id = true :=
  (concerns_evt h).mpr rfl

/-- **Step lemma.** -/
theorem startTold_of_step [Schedule S] {s s' : Manager S} {e : ManagerEvent S}
    (hreg : Registry s) (hrep : Reporting s) (hs : StartTold s) (h : s.step e = some s') :
    StartTold s' := by
  intro name job hjob who sub hsince hstart
  have hrep' := hrep.step hreg h
  rcases job_of_step h hjob with ⟨job', hold, hsame⟩ | ⟨-, hfresh, -, hstarts⟩
  · rcases history_of_step h with hhistory | ⟨e₀, he₀⟩
    · rw [hhistory] at hsince hstart ⊢
      rw [← hsame] at hsince hstart ⊢
      exact hs name job' hold who sub hsince hstart
    · obtain ⟨e₁, he₁, hin⟩ := startHandled_iff.mp hstart
      rw [he₀, subscribedSince, Bool.and_eq_true, decide_eq_true_eq, Bool.or_eq_true] at hsince
      obtain ⟨hlookup, hor⟩ := hsince
      rw [he₀] at he₁ ⊢
      rcases List.mem_cons.mp he₁ with rfl | hmem
      · -- the start is handled now, and told to all who are there
        obtain ⟨-, htold⟩ := hrep'.started name job hjob e₁ (by rw [he₀]; exact he₁)
          (concerns_of_started hin)
        exact ⟨e₁, he₁, concerns_of_started hin, htold ▸ mem_tell hlookup _⟩
      · -- the start was handled before, when the subscriber was there already
        have hsince' : subscribedSince job'.2.getId who sub s.history = true := by
          rw [hsame]
          refine hor.resolve_left fun hstarts => ?_
          obtain ⟨w, hw⟩ := hreg.known name job' hold
          rw [hsame, fresh_of_starts h he₀ hstarts] at hw
          cases hw
        obtain ⟨e₂, he₂, hc, htold⟩ := hs name job' hold who sub hsince'
          (startHandled_iff.mpr ⟨e₁, hmem, hsame ▸ hin⟩)
        exact ⟨e₂, List.mem_cons_of_mem _ he₂, hsame ▸ hc, htold⟩
  · -- nothing was heard of a new worker
    obtain ⟨e₁, he₁, hin⟩ := startHandled_iff.mp hstart
    have hmem : e₁ ∈ s.history := by
      obtain ⟨readings, state, settings, reply, rfl, hnext, -⟩ := hstarts
      cases history_cases h with
      | none _ hquiet => exact absurd rfl (hquiet _ _)
      | msg _ _ _ _ _ _ _ hs' =>
        rw [hs', history_after] at he₁
        rcases List.mem_cons.mp he₁ with rfl | hmem
        · cases hin
        · exact hmem
      | evt _ _ _ he => cases he
    obtain ⟨w, hw⟩ := hrep.known e₁ hmem _ (concerns_of_started hin)
    rw [hfresh] at hw
    cases hw

/-! ## Ends before starts -/

theorem startFirst_cons {e₀ : ManagerEntry S} {old : List (ManagerEntry S)} :
    StartFirst (e₀ :: old) ↔ e₀.EndAfterStart old ∧ StartFirst old := by
  constructor
  · intro h
    refine ⟨h e₀ old List.suffix_rfl, fun e₁ older hsuffix => h e₁ older ?_⟩
    exact hsuffix.trans (List.suffix_cons _ _)
  · rintro ⟨hfirst, hold⟩ e₁ older hsuffix
    rcases List.suffix_cons_iff.mp hsuffix with heq | hsuffix
    · obtain ⟨rfl, rfl⟩ := List.cons.inj heq
      exact hfirst
    · exact hold e₁ older hsuffix

/-- An input that tells nobody of an end. -/
theorem endAfterStart_of_nil {e₀ : ManagerEntry S} (h : e₀.notices = [])
    (old : List (ManagerEntry S)) : e₀.EndAfterStart old := by
  intro id _ who sub notice hmem
  rw [h] at hmem
  cases hmem

/-- The exit of a worker is told after its start. -/
theorem endAfterStart_evt {s : Manager S} {state : CronManagerState S} {evt : SupervisionEvent}
    {rest : List SupervisionEvent} (horder : InOrder s) (htold : StartTold s)
    (hphase : s.phase = .running state) (hsup : s.supervision = evt :: rest)
    {e₀ : ManagerEntry S} (hin : e₀.input = .evt evt)
    (hnotices : e₀.notices = (CronManager.handleSupervisorEvt s.workers evt state).notices) :
    e₀.EndAfterStart s.history := by
  intro id hconcerns who sub notice hmem hterminal _ hsince
  have hwho := (concerns_evt hin).mp hconcerns
  rw [hnotices] at hmem
  cases hfind : state.findJob ⟨id⟩ with
  | none =>
    rw [notices_evt_eq_nil s.workers evt fun who' hwho' => by
      rw [hwho, Option.some.injEq] at hwho'
      rw [← hwho', hfind]] at hmem
    cases hmem
  | some name =>
    obtain ⟨notice', hnotice', htold'⟩ := notices_evt s.workers hwho hfind
    rw [htold', CronManagerState.tell, List.mem_map] at hmem
    obtain ⟨sub', -, heq⟩ := hmem
    rw [Prod.mk.injEq] at heq
    obtain ⟨-, rfl⟩ := heq
    rcases started_or_ended hwho with rfl | hended
    · rw [noticeOf, Option.some.injEq] at hnotice'
      rw [← hnotice'] at hterminal
      cases hterminal
    · -- the start was handled before, as it came first in the queue
      have hstart : startHandled id s.history = true := by
        have hordered := horder.ordered
        rw [hsup] at hordered
        exact hordered.1 id hended
      obtain ⟨job, hjob, hid⟩ := findJob_eq_some hfind
      have hid' : job.2.getId = id := hid
      rw [← Manager.job_of_running hphase] at hjob
      have hname : notice'.job = name := by
        cases evt with
        | actorTerminated _ reason | actorFailed _ what =>
          rw [noticeOf, Option.some.injEq] at hnotice'
          rw [← hnotice', Notice.job]
        | actorStarted | processGroupChanged | pidLifecycleEvent => cases hended
      rw [← hid'] at hsince hstart ⊢
      rw [hname]
      exact htold name job hjob who sub hsince hstart

/-- A `Stop` is told after the start exactly if it is handled after it, or nobody has waited. -/
theorem endAfterStart_stop_iff {s : Manager S} {state : CronManagerState S} {name : String}
    {job : S × ActorCell} (hrep : Reporting s) (htold : StartTold s)
    (hphase : s.phase = .running state) (hjob : state.jobs.lookup name = some job)
    {e₀ : ManagerEntry S} (hin : e₀.input = .msg (.stop name)) (hbefore : e₀.before = state)
    (hnotices : e₀.notices = state.tell (.stopped name none)) :
    e₀.EndAfterStart s.history ↔
      (startHandled job.2.getId s.history || state.subs.entries.all fun sub =>
        !subscribedSince job.2.getId sub.1 sub.2 s.history) = true := by
  have hjob₀ : s.job name = some job := by rw [Manager.job_of_running hphase, hjob]
  rw [Bool.or_eq_true, List.all_eq_true]
  constructor
  · intro hend
    by_cases hstart : startHandled job.2.getId s.history = true
    · exact Or.inl hstart
    · refine Or.inr fun sub hsub => ?_
      rw [Bool.not_eq_true', ← Bool.not_eq_true]
      intro hsince
      -- whoever was there has heard of the start: then it was handled
      have hconcerns : e₀.concerns job.2.getId = true := by
        rw [ManagerEntry.concerns, hin, hbefore]
        simp [hjob]
      have hlookup : state.subs.lookup sub.1 = some sub.2 := AList.mem_lookup_iff.mpr hsub
      obtain ⟨e₁, he₁, hc₁, -⟩ := hend job.2.getId hconcerns sub.1 sub.2 (.stopped name none)
        (hnotices ▸ mem_tell hlookup _) rfl (hbefore ▸ hlookup) hsince
      obtain ⟨hin₁, -⟩ := hrep.started name job hjob₀ e₁ he₁ hc₁
      exact hstart (startHandled_iff.mpr ⟨e₁, he₁, hin₁⟩)
  · intro hguard id hconcerns who sub notice hmem _ hlookup hsince
    have hid : job.2.getId = id := by
      rw [ManagerEntry.concerns, hin, hbefore] at hconcerns
      simpa [hjob] using hconcerns
    subst hid
    rw [hbefore] at hlookup
    rw [hnotices, CronManagerState.tell, List.mem_map] at hmem
    obtain ⟨sub', -, heq⟩ := hmem
    rw [Prod.mk.injEq] at heq
    obtain ⟨-, rfl⟩ := heq
    rcases hguard with hstart | hnone
    · exact htold name job hjob₀ who sub hsince hstart
    · have hno := hnone ⟨who, sub⟩ (AList.mem_lookup_iff.mp hlookup)
      rw [Bool.not_eq_true'] at hno
      rw [hno] at hsince
      cases hsince

/-- What holds in the states of every run. -/
structure Orderly (s : Manager S) : Prop where
  registry : Registry s
  reporting : Reporting s
  inOrder : InOrder s
  startTold : StartTold s

/-- Every step keeps it. -/
theorem Orderly.step [Schedule S] {s s' : Manager S} {e : ManagerEvent S} (hs : Orderly s)
    (h : s.step e = some s') : Orderly s' where
  registry := hs.registry.step h
  reporting := hs.reporting.step hs.registry h
  inOrder := hs.inOrder.step h
  startTold := startTold_of_step hs.registry hs.reporting hs.startTold h

theorem orderly_spawn [Schedule S] : Orderly (Manager.spawn 0 : Manager S) where
  registry := registry_spawn 0
  reporting := reporting_of_run (show runManager [] = some (Manager.spawn 0) from rfl)
  inOrder := inOrder_spawn 0
  startTold := fun name job hjob => by cases hjob

/-- **Step lemma.** A step keeps all ends after their starts exactly when it is
`startAwaited`. -/
theorem startFirst_of_step_iff [Schedule S] {s s' : Manager S} {e : ManagerEvent S}
    (hs : Orderly s) (hfirst : StartFirst s.history) (h : s.step e = some s') :
    StartFirst s'.history ↔ startAwaited s e = true := by
  cases history_cases h with
  | none hsame hquiet =>
    have hawaited : startAwaited s e = true := by
      unfold startAwaited
      split
      · exact absurd rfl (hquiet _ _)
      · rfl
    rw [hsame]
    exact ⟨fun _ => hawaited, fun _ => hfirst⟩
  | evt state evt rest he hphase hsup hs' =>
    subst he
    rw [hs', history_after, startFirst_cons]
    -- the exits come after their starts, whatever the step
    exact ⟨fun _ => rfl, fun _ =>
      ⟨endAfterStart_evt hs.inOrder hs.startTold hphase hsup rfl rfl, hfirst⟩⟩
  | msg actor readings state msg he hnext _ hs' =>
    subst he
    have hphase := (running_of_nextMsg hnext).1
    rw [hs', history_after, startFirst_cons, and_iff_left hfirst]
    by_cases hstop : ∀ who, msg = .stop who → state.jobs.lookup who = none
    · -- nobody is told anything
      have hnil := notices_eq_nil s.workers ⟨s.now, actor, readings⟩ state msg hstop
      have hawaited : startAwaited s (.handle actor readings) = true := by
        simp only [startAwaited, hnext]
        cases msg with
        | stop who => simp only [hstop who rfl]
        | _ => rfl
      exact ⟨fun _ => hawaited, fun _ => endAfterStart_of_nil hnil s.history⟩
    · simp only [not_forall] at hstop
      obtain ⟨who, rfl, hlookup⟩ := hstop
      obtain ⟨job, hjob⟩ := Option.ne_none_iff_exists'.mp hlookup
      rw [endAfterStart_stop_iff hs.reporting hs.startTold hphase hjob rfl rfl
        (notices_stop s.workers _ hjob).1]
      simp only [startAwaited, hnext, hjob]

/-- **When a start is heard before the end.** A failure or an exit is told after the start, as
the events of a worker come in order. So a run tells nobody who has been subscribed since before
a start of the end first, in any of its states, exactly when each `Stop` of it was handled after
its job's `ActorStarted`, or for a job that nobody has been subscribed to since before its
start. -/
theorem start_before_end_iff [Schedule S] {es : List (ManagerEvent S)} {s : Manager S}
    (h : runManager es = some s) :
    Throughout Manager.step (fun s => StartFirst s.history) (Manager.spawn 0) es ↔
      Run Manager.step (fun s e => startAwaited s e = true) (Manager.spawn 0) es s := by
  refine (run_iff_throughout (I := Orderly) (P := fun s => StartFirst s.history) h orderly_spawn
    ?_ ?_ ?_).symm
  · intro e₀ old hsuffix
    cases List.suffix_nil.mp hsuffix
  · intro s e s' hs _ _ hstep
    exact hs.step hstep
  · intro s e s' hs hfirst hstep
    exact startFirst_of_step_iff hs hfirst hstep

/-- A subscribed job is started, and stopped once its start was heard. -/
theorem start_before_end_iff_late_stop :
    Throughout Manager.step (fun s : Manager Every => StartFirst s.history) (Manager.spawn 0)
      [.post (.subscribe (.loc 9) ⟨7⟩), .handle ⟨.loc 1⟩ ⟨0, 0⟩,
        .post (.start { schedule := ⟨10⟩, job := ⟨"ten"⟩ } ⟨0⟩), .handle ⟨.loc 1⟩ ⟨0, 0⟩,
        .post (.stop "ten"), .announce (.loc 1), .supervise, .handle ⟨.loc 2⟩ ⟨0, 0⟩] := by
  let es : List (ManagerEvent Every) :=
    [.post (.subscribe (.loc 9) ⟨7⟩), .handle ⟨.loc 1⟩ ⟨0, 0⟩,
      .post (.start { schedule := ⟨10⟩, job := ⟨"ten"⟩ } ⟨0⟩), .handle ⟨.loc 1⟩ ⟨0, 0⟩,
      .post (.stop "ten"), .announce (.loc 1), .supervise, .handle ⟨.loc 2⟩ ⟨0, 0⟩]
  obtain ⟨s, hs⟩ : ∃ s, exec (checked startAwaited Manager.step) (Manager.spawn 0) es = some s :=
    Option.isSome_iff_exists.mp (by decide)
  have hrun := run_iff_exec_checked.mpr hs
  exact (start_before_end_iff hrun.exec_eq).mpr hrun

/-- **An end before the start.** A subscribed job is started and stopped at once. Both messages
are handled before the worker's task has posted `ActorStarted`: the subscriber is told that the
job was stopped, and never that it had started. -/
theorem end_before_start :
    ¬ ∀ (es : List (ManagerEvent Every)) s, runManager es = some s → StartFirst s.history := by
  intro hall
  let es : List (ManagerEvent Every) :=
    [.post (.subscribe (.loc 9) ⟨7⟩), .handle ⟨.loc 1⟩ ⟨0, 0⟩,
      .post (.start { schedule := ⟨10⟩, job := ⟨"ten"⟩ } ⟨0⟩), .handle ⟨.loc 1⟩ ⟨0, 0⟩,
      .post (.stop "ten"), .handle ⟨.loc 2⟩ ⟨0, 0⟩]
  obtain ⟨s, hs, hpost⟩ := (Option.any_eq_true _ _).mp
    (show (runManager es).any (fun s =>
      s.history.head?.any (fun e₀ => e₀.concerns (.loc 1) &&
        (decide ((⟨7⟩, .stopped "ten" none) ∈ e₀.notices) &&
          decide (e₀.before.subs.lookup (.loc 9) = some ⟨7⟩))) &&
      (subscribedSince (.loc 1) (.loc 9) ⟨7⟩ s.history.tail &&
        s.history.tail.all fun e₁ => e₁.notices.isEmpty)) = true by decide)
  cases hhistory : s.history with
  | nil =>
    rw [hhistory] at hpost
    cases hpost
  | cons e₀ old =>
    simp only [hhistory, List.head?_cons, Option.any_some, List.tail_cons, Bool.and_eq_true,
      decide_eq_true_eq, List.all_eq_true, List.isEmpty_iff] at hpost
    obtain ⟨⟨hconcerns, hmem, hlookup⟩, hsince, hnone⟩ := hpost
    obtain ⟨e₁, he₁, -, htold⟩ := hall es s hs e₀ old (hhistory ▸ List.suffix_rfl) (.loc 1)
      hconcerns (.loc 9) ⟨7⟩ _ hmem rfl hlookup hsince
    rw [hnone e₁ he₁] at htold
    cases htold

end RactorActors.Time.Cron
