import RactorActors.Time.Cron.Pool

/-!
# What the clients of the manager see

To its clients the manager is a board of jobs and listeners. The board is kept from what they can
see alone: the inputs that were handled, in order, and the answers to `Start`. It finds a job by
its name only, and strikes the jobs of a worker that has ended.

* `Board.take`: what a handled input does to the board;
* `Board.Answers` and `Board.Tells`: the answers that the board gives to an input, and the notice
  that its listeners are told;
* `manager_answers`: in every run, each input was answered and reported as by the board of the
  inputs handled before it.
-/

namespace RactorActors.Time.Cron

open AssociationList LabelledRun

variable {S : Type}

/-- The jobs, each with its schedule and its worker, and the listeners. -/
structure Board (S : Type) where
  jobs : String → Option (S × ActorCell)
  subs : ActorId → Option Subscriber

namespace Board

/-- A board with nothing on it. -/
def empty : Board S := ⟨fun _ => none, fun _ => none⟩

/-- What a handled input makes of the board. -/
def take (b : Board S) (e : ManagerEntry S) : Board S :=
  match e.input with
  | .msg (.start settings _) =>
    match e.replies, e.spawning with
    | [(_, .started (.ok ()))], some spawning =>
      { b with jobs :=
          Function.update b.jobs settings.job.id (some (settings.schedule, spawning.actor)) }
    | _, _ => b
  | .msg (.setSchedule who schedule) =>
    { b with jobs := Function.update b.jobs who ((b.jobs who).map fun job => (schedule, job.2)) }
  | .msg (.stop who) => { b with jobs := Function.update b.jobs who none }
  | .msg (.subscribe who processor) =>
    { b with subs := Function.update b.subs who (some processor) }
  | .msg (.unsubscribe who) => { b with subs := Function.update b.subs who none }
  | .msg _ => b
  | .evt evt =>
    { b with jobs := fun name => (b.jobs name).filter fun job => evt.ended ≠ some job.2.getId }

/-- The board after a history, newest entry first. -/
def of (history : List (ManagerEntry S)) : Board S := history.foldr (fun e b => b.take e) empty

/-- The answer to a `Start`. -/
def startResult [Schedule S] (b : Board S) (settings : CronSettings S) (spawning : Spawning) :
    Except ActorProcessingErr Unit :=
  match b.jobs settings.job.id with
  | some _ => .error (.message "A job with the name \x7b\x7d already is scheduled")
  | none =>
    match Worker.spawn spawning.now settings spawning.readings with
    | .ok _ => .ok ()
    | .error err => .error (.startupFailed err)

/-- The input is answered as the board says: a `Start`, `ListJobs` and `GetSchedule` once, and
nothing else. -/
def Answers [Schedule S] (b : Board S) (e : ManagerEntry S) : Prop :=
  match e.input with
  | .msg (.listJobs reply) =>
    ∃ jobs, e.replies = [(reply, .jobs jobs)] ∧
      ∀ name, jobs.lookup name = (b.jobs name).map (·.1)
  | .msg (.getSchedule who reply) => e.replies = [(reply, .schedule ((b.jobs who).map (·.1)))]
  | .msg (.start settings reply) =>
    ∃ spawning, e.spawning = some spawning ∧
      e.replies = [(reply, .started (b.startResult settings spawning))]
  | _ => e.replies = []

/-- The notice that an input gives rise to. -/
inductive Tells (b : Board S) : ManagerInput S → Notice → Prop
  | stop {who : String} (hjob : b.jobs who ≠ none) :
      Tells b (.msg (.stop who)) (.stopped who none)
  | evt {evt : SupervisionEvent} {who : ActorCell} {name : String} {schedule : S}
      {notice : Notice} (hwho : workerOf evt = some who)
      (hjob : b.jobs name = some (schedule, who)) (hnotice : noticeOf name evt = some notice) :
      Tells b (.evt evt) notice

/-- Each listener of the board is told once what the input gives rise to, and nothing else. -/
def Reports (b : Board S) (e : ManagerEntry S) : Prop :=
  ∃ listeners : HashMap ActorId Subscriber, (∀ id, listeners.lookup id = b.subs id) ∧
    (∀ notice, b.Tells e.input notice →
      e.notices = listeners.entries.map fun sub => (sub.2, notice)) ∧
    ((∀ notice, ¬ b.Tells e.input notice) → e.notices = [])

/-- The board shows what the manager's state holds. -/
def Shows (b : Board S) (state : CronManagerState S) : Prop :=
  (∀ name, state.jobs.lookup name = b.jobs name) ∧ ∀ id, state.subs.lookup id = b.subs id

end Board

/-! ## One handled input -/

namespace Board.Shows

variable {b : Board S} {state : CronManagerState S}

/-- The board follows a change of one job. -/
theorem update_jobs (hb : b.Shows state) {jobs : HashMap String (S × ActorCell)} {name : String}
    {job : Option (S × ActorCell)} (hname : jobs.lookup name = job)
    (hothers : ∀ name', name' ≠ name → jobs.lookup name' = state.jobs.lookup name') :
    ({ b with jobs := Function.update b.jobs name job } : Board S).Shows { state with jobs } := by
  refine ⟨fun name' => ?_, hb.2⟩
  by_cases hsame : name' = name
  · subst hsame
    simp only [Function.update_self, hname]
  · simp only [Function.update_of_ne hsame, hothers name' hsame, hb.1]

/-- The board follows a change of one listener. -/
theorem update_subs (hb : b.Shows state) {subs : HashMap ActorId Subscriber} {who : ActorId}
    {sub : Option Subscriber} (hwho : subs.lookup who = sub)
    (hothers : ∀ id, id ≠ who → subs.lookup id = state.subs.lookup id) :
    ({ b with subs := Function.update b.subs who sub } : Board S).Shows { state with subs } := by
  refine ⟨hb.1, fun id => ?_⟩
  by_cases hsame : id = who
  · subst hsame
    simp only [Function.update_self, hwho]
  · simp only [Function.update_of_ne hsame, hothers id hsame, hb.2]

variable [Schedule S]

/-- **A handled message** does to the manager's state what it does to the board. -/
theorem handle (hb : b.Shows state) (workers : Workers S) (spawning : Spawning)
    (msg : CronManagerMessage S) :
    (b.take (entryOf workers spawning state msg)).Shows
      (CronManager.handle workers spawning state msg).state := by
  cases msg with
  | listJobs | getSchedule => exact hb
  | subscribe who processor =>
    exact hb.update_subs (AList.lookup_insert _) fun id hne => AList.lookup_insert_ne hne
  | unsubscribe who =>
    exact hb.update_subs (AList.lookup_erase _ _) fun id hne => AList.lookup_erase_ne hne
  | stop who =>
    simp only [Board.take, entryOf, CronManager.handle, CronManager.stop]
    cases hwho : state.jobs.lookup who with
    | some job => exact hb.update_jobs (AList.lookup_erase _ _) fun name hne =>
        AList.lookup_erase_ne hne
    | none => exact hb.update_jobs hwho fun _ _ => rfl
  | setSchedule who schedule =>
    simp only [Board.take, entryOf, CronManager.handle, CronManager.setSchedule, ← hb.1 who]
    cases hwho : state.jobs.lookup who with
    | none => exact hb.update_jobs hwho fun _ _ => rfl
    | some job =>
      simp only [Option.map_some]
      split <;> exact hb.update_jobs (AList.lookup_insert _) fun name hne =>
        AList.lookup_insert_ne hne
  | start settings reply =>
    simp only [Board.take, entryOf, CronManager.handle]
    have hcase := start_cases workers spawning settings reply state
    generalize CronManager.start workers spawning settings reply state = out at hcase ⊢
    cases hcase with
    | refused => exact hb
    | spawned => exact hb.update_jobs (AList.lookup_insert _) fun name hne =>
        AList.lookup_insert_ne hne

/-- The manager answers as the board does. -/
theorem answers (hb : b.Shows state) (workers : Workers S) (spawning : Spawning)
    (msg : CronManagerMessage S) : b.Answers (entryOf workers spawning state msg) := by
  cases msg with
  | subscribe | unsubscribe => rfl
  | listJobs reply =>
    obtain ⟨jobs, hreplies, hlookup⟩ := listJobs_reply workers reply state
    exact ⟨jobs, hreplies, fun name => by rw [hlookup, hb.1]⟩
  | getSchedule who reply =>
    simp only [Board.Answers, entryOf, CronManager.handle, CronManager.getSchedule, hb.1]
  | stop who =>
    simp only [Board.Answers, entryOf, CronManager.handle, CronManager.stop]
    split <;> rfl
  | setSchedule who schedule =>
    simp only [Board.Answers, entryOf, CronManager.handle, CronManager.setSchedule]
    split
    · split <;> rfl
    · rfl
  | start settings reply =>
    refine ⟨spawning, rfl, ?_⟩
    simp only [entryOf, CronManager.handle, CronManager.start, Board.startResult,
      ← hb.1 settings.job.id]
    cases state.jobs.lookup settings.job.id with
    | some job => rfl
    | none => cases Worker.spawn spawning.now settings spawning.readings <;> rfl

/-- The manager tells its subscribers of a message what the board says. -/
theorem reports (hb : b.Shows state) (workers : Workers S) (spawning : Spawning)
    (msg : CronManagerMessage S) : b.Reports (entryOf workers spawning state msg) := by
  refine ⟨state.subs, hb.2, ?_, fun hnone => ?_⟩
  · rintro notice ⟨hjob⟩
    rename_i who
    rw [← hb.1, Option.ne_none_iff_exists'] at hjob
    obtain ⟨job, hjob⟩ := hjob
    exact (notices_stop workers spawning hjob).1
  · refine notices_eq_nil workers spawning state msg fun who hmsg => ?_
    subst hmsg
    by_contra hjob
    exact hnone _ (Tells.stop (hb.1 who ▸ hjob))

end Board.Shows

/-- The entry that a handled supervision event leaves in the history. -/
def entryOfEvt (workers : Workers S) (state : CronManagerState S) (evt : SupervisionEvent) :
    ManagerEntry S :=
  ⟨.evt evt, none, state, (CronManager.handleSupervisorEvt workers evt state).notices,
    (CronManager.handleSupervisorEvt workers evt state).replies⟩

/-- A supervision event is not answered, and changes no subscriber. -/
theorem quiet_handleSupervisorEvt (workers : Workers S) (evt : SupervisionEvent)
    (state : CronManagerState S) :
    (CronManager.handleSupervisorEvt workers evt state).replies = [] ∧
      (CronManager.handleSupervisorEvt workers evt state).state.subs = state.subs ∧
      (evt.ended = none →
        (CronManager.handleSupervisorEvt workers evt state).state.jobs = state.jobs) := by
  cases evt with
  | actorFailed | actorTerminated =>
    simp only [CronManager.handleSupervisorEvt]
    split <;> exact ⟨rfl, rfl, fun hended => absurd hended (Option.some_ne_none _)⟩
  | actorStarted =>
    simp only [CronManager.handleSupervisorEvt]
    split <;> exact ⟨rfl, rfl, fun _ => rfl⟩
  | processGroupChanged | pidLifecycleEvent => exact ⟨rfl, rfl, fun _ => rfl⟩

namespace Board.Shows

variable {b : Board S} {state : CronManagerState S}

/-- **A handled supervision event** strikes from the map what it strikes from the board. -/
theorem supervise (hb : b.Shows state)
    (hdistinct : ∀ name name' job job', state.jobs.lookup name = some job →
      state.jobs.lookup name' = some job' → job.2 = job'.2 → name = name')
    (workers : Workers S) (evt : SupervisionEvent) :
    (b.take (entryOfEvt workers state evt)).Shows
      (CronManager.handleSupervisorEvt workers evt state).state := by
  obtain ⟨-, hsubs, hsame⟩ := quiet_handleSupervisorEvt workers evt state
  refine ⟨fun name => ?_, fun id => hsubs ▸ hb.2 id⟩
  have htake : (b.take (entryOfEvt workers state evt)).jobs name =
      (state.jobs.lookup name).filter fun job => evt.ended ≠ some job.2.getId := by
    rw [hb.1]
    rfl
  rw [htake]
  cases hid : evt.ended with
  | none =>
    rw [hsame hid]
    cases state.jobs.lookup name with
    | none => rfl
    | some job => rw [Option.filter_some, if_pos (by simp)]
  | some id =>
    rw [jobs_handleSupervisorEvt workers state hid]
    -- the entry of the worker that has ended is found, and it is the only one
    cases hfind : state.findJob ⟨id⟩ with
    | none =>
      cases hjob : state.jobs.lookup name with
      | none => rfl
      | some job =>
        have hne : job.2.getId ≠ id := findJob_eq_none hfind hjob
        rw [Option.filter_some, if_pos (by simpa using Ne.symm hne), ← hjob]
    | some found =>
      obtain ⟨job₀, hjob₀, hid₀⟩ := findJob_eq_some hfind
      by_cases hname : name = found
      · subst hname
        have hsame : some id = some job₀.2.getId := congrArg some hid₀.symm
        rw [hjob₀, Option.filter_some, if_neg (by simpa using hsame)]
        exact AList.lookup_erase _ _
      · simp only [AList.lookup_erase_ne hname]
        cases hjob : state.jobs.lookup name with
        | none => rfl
        | some job =>
          have hne : id ≠ job.2.getId := fun heq => hname
            (hdistinct name found job job₀ hjob hjob₀
              (ActorCell.getId_injective (heq.symm.trans hid₀.symm)))
          rw [Option.filter_some, if_pos (by simpa using hne)]

/-- The manager tells its subscribers of an event what the board says. -/
theorem reports_evt (hb : b.Shows state)
    (hdistinct : ∀ name name' job job', state.jobs.lookup name = some job →
      state.jobs.lookup name' = some job' → job.2 = job'.2 → name = name')
    (workers : Workers S) (evt : SupervisionEvent) :
    b.Reports (entryOfEvt workers state evt) := by
  refine ⟨state.subs, hb.2, ?_, fun hnone => ?_⟩
  · rintro notice (_ | ⟨hwho, hjob, hnotice⟩)
    rename_i name schedule
    rw [← hb.1] at hjob
    obtain ⟨notice', hnotice', htold⟩ :=
      notices_evt workers hwho (findJob_of_lookup hdistinct hjob)
    rw [hnotice, Option.some.injEq] at hnotice'
    exact hnotice' ▸ htold
  · refine notices_evt_eq_nil workers evt fun who hwho => ?_
    by_contra hfind
    obtain ⟨name, hname⟩ := Option.ne_none_iff_exists'.mp hfind
    obtain ⟨⟨schedule, actor⟩, hjob, hid⟩ := findJob_eq_some hname
    obtain ⟨notice, hnotice, -⟩ := notices_evt workers hwho hname
    have hactor : actor = who := ActorCell.getId_injective hid
    rw [hb.1, hactor] at hjob
    exact hnone notice (Tells.evt hwho hjob hnotice)

end Board.Shows

/-! ## Runs -/

/-- Every entry was answered and reported as by the board of the entries before it. -/
def Kept [Schedule S] (history : List (ManagerEntry S)) : Prop :=
  ∀ newer e older, history = newer ++ e :: older →
    (Board.of older).Answers e ∧ (Board.of older).Reports e

/-- One more entry. -/
theorem Kept.cons [Schedule S] {e : ManagerEntry S} {history : List (ManagerEntry S)}
    (h : Kept history) (hanswers : (Board.of history).Answers e)
    (hreports : (Board.of history).Reports e) : Kept (e :: history) := by
  rintro (_ | ⟨e', newer⟩) e₀ older heq
  · rw [List.nil_append, List.cons.injEq] at heq
    obtain ⟨rfl, rfl⟩ := heq
    exact ⟨hanswers, hreports⟩
  · rw [List.cons_append, List.cons.injEq] at heq
    exact h newer e₀ older heq.2

/-- The board of the history shows the state of the manager while it runs, and was kept. -/
structure Manager.Boarded [Schedule S] (s : Manager S) : Prop where
  shows : ∀ state, s.phase = .running state → (Board.of s.history).Shows state
  kept : Kept s.history

variable [Schedule S]

/-- A handled input, and the board after it. -/
theorem Manager.Boarded.after {s : Manager S} {input : ManagerInput S}
    {spawning : Option Spawning} {before : CronManagerState S} {out : ManagerOutcome S}
    (hs : s.Boarded)
    (hshows : ((Board.of s.history).take
      ⟨input, spawning, before, out.notices, out.replies⟩).Shows out.state)
    (hanswers : (Board.of s.history).Answers ⟨input, spawning, before, out.notices, out.replies⟩)
    (hreports : (Board.of s.history).Reports ⟨input, spawning, before, out.notices, out.replies⟩) :
    (s.after input spawning before out).Boarded := by
  refine ⟨fun state hphase => ?_, by rw [history_after]; exact hs.kept.cons hanswers hreports⟩
  rw [history_after]
  rcases hres : out.result with err | _
  · rw [(after_of_error hres).1] at hphase
    cases hphase
  · rw [after_of_ok hres] at hphase
    cases hphase
    exact hshows

/-- **Step lemma.** -/
theorem Manager.Boarded.step {s s' : Manager S} {e : ManagerEvent S} (hreg : Registry s)
    (hs : s.Boarded) (h : s.step e = some s') : s'.Boarded := by
  cases Manager.step_cases h with
  | post | stop | lost | worker | elapse => exact ⟨hs.shows, hs.kept⟩
  | takeStop | kill => exact ⟨nofun, hs.kept⟩
  | announce | report =>
    refine ⟨fun state hphase => ?_, by rw [history_deliver]; exact hs.kept⟩
    rw [history_deliver]
    refine hs.shows state ?_
    unfold Manager.deliver at hphase
    split at hphase <;> exact hphase
  | handle actor readings state msg hnext =>
    have hshown := hs.shows state (running_of_nextMsg hnext).1
    have hs₀ : ({ s with queue := s.queue.tail } : Manager S).Boarded := ⟨hs.shows, hs.kept⟩
    exact hs₀.after (hshown.handle s.workers ⟨s.now, actor, readings⟩ msg)
      (hshown.answers s.workers ⟨s.now, actor, readings⟩ msg)
      (hshown.reports s.workers ⟨s.now, actor, readings⟩ msg)
  | supervise state evt rest hphase =>
    have hshown := hs.shows state hphase
    have hdistinct := hreg.distinct_lookup hphase
    have hs₀ : ({ s with supervision := rest } : Manager S).Boarded := ⟨hs.shows, hs.kept⟩
    exact hs₀.after (hshown.supervise hdistinct s.workers evt)
      (quiet_handleSupervisorEvt s.workers evt state).1
      (hshown.reports_evt hdistinct s.workers evt)

/-- **The manager behaves as a board of jobs and listeners.** In every run, each input it has
handled was answered as by the board that the inputs before it make, and reported to the listeners
of that board, each of them once; and while the manager runs its state is what the board shows. -/
theorem manager_answers {es : List (ManagerEvent S)} {s : Manager S} (h : runManager es = some s) :
    (∀ newer e older, s.history = newer ++ e :: older →
      (Board.of older).Answers e ∧ (Board.of older).Reports e) ∧
    ∀ state, s.phase = .running state → (Board.of s.history).Shows state := by
  have hboarded : s.Boarded := by
    refine (run_true_iff.mpr h).invariant_of (P := Registry) (Q := Manager.Boarded)
      (registry_spawn 0) (fun _ _ _ hreg hstep => hreg.step hstep) ⟨?_, ?_⟩ ?_
    · intro state hphase
      cases hphase
      exact ⟨fun _ => rfl, fun _ => rfl⟩
    · intro newer e older heq
      exact absurd heq (by simp [Manager.spawn])
    · intro s e s' hreg hs _ hstep
      exact hs.step hreg hstep
  exact ⟨hboarded.kept, hboarded.shows⟩

/-- The input asks for the schedule of a job. -/
def ManagerInput.asks : ManagerInput S → Option String
  | .msg (.getSchedule who _) => some who
  | _ => none

/-- The schedule of a job is asked for after the job was rescheduled. -/
theorem manager_answers_getSchedule :
    ∃ s e older, runManager [.post (.start { schedule := (⟨10⟩ : Every), job := ⟨"ten"⟩ } ⟨0⟩),
        .handle ⟨.loc 1⟩ ⟨0, 0⟩, .post (.setSchedule "ten" ⟨20⟩), .handle ⟨.loc 2⟩ ⟨0, 0⟩,
        .post (.getSchedule "ten" ⟨1⟩), .handle ⟨.loc 2⟩ ⟨0, 0⟩] = some s ∧
      s.history = e :: older ∧ e.input.asks = some "ten" ∧
      (Board.of older).jobs "ten" = some (⟨20⟩, ⟨.loc 1⟩) ∧ (Board.of older).Answers e := by
  obtain ⟨s, hs, hpost⟩ := (Option.any_eq_true _ _).mp
    (show (runManager [.post (.start { schedule := (⟨10⟩ : Every), job := ⟨"ten"⟩ } ⟨0⟩),
        .handle ⟨.loc 1⟩ ⟨0, 0⟩, .post (.setSchedule "ten" ⟨20⟩), .handle ⟨.loc 2⟩ ⟨0, 0⟩,
        .post (.getSchedule "ten" ⟨1⟩), .handle ⟨.loc 2⟩ ⟨0, 0⟩]).any (fun s =>
      s.history.head?.any (fun e => decide (e.input.asks = some "ten")) &&
        decide ((Board.of s.history.tail).jobs "ten" = some (⟨20⟩, ⟨.loc 1⟩))) = true by decide)
  rw [Bool.and_eq_true, decide_eq_true_eq, Option.any_eq_true] at hpost
  obtain ⟨⟨e, he, hasks⟩, hjob⟩ := hpost
  obtain ⟨older, hold⟩ := List.head?_eq_some_iff.mp he
  rw [hold, List.tail_cons] at hjob
  exact ⟨s, e, older, hs, hold, of_decide_eq_true hasks, hjob,
    ((manager_answers hs).1 [] e older hold).1⟩

end RactorActors.Time.Cron
