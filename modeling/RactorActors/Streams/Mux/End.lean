import RactorActors.Streams.Mux.Impl

/-!
# The end of a multiplexed stream

The messages that the multiplexer handled, those in its mailbox and those that its pump has still
to cast are the items of the stream and the end marker (`Intact.flow`). The two handlers that
announce the end also stop the multiplexer, and a pending stop comes before the messages: nothing
is handled after the end was announced.

* `Intact`: what holds in every state of a run;
* `System.load`: decreases in every step;
* `end_reported_once`: runs are finite, the multiplexer does not fail, and at the end of a run it
  has stopped and has announced the end once, as its last call.
-/

namespace RactorActors.Streams.Mux

open LabelledRun

variable {X : Type}

/-- The end was announced once, and nothing was called after it. -/
def EndLast (calls : List (Call X)) : Prop :=
  ∃ before, calls = before ++ [.endOfStream] ∧ .endOfStream ∉ before

/-- All that a stream makes the pump cast. -/
def StreamMuxConfiguration.messages (config : StreamMuxConfiguration X) : List (Option X) :=
  config.stream.map some ++ [none]

/-- What holds in every state of a run. -/
structure Intact (config : StreamMuxConfiguration X) (s : System X) : Prop where
  looping : s.pump.Looping
  handled : s.handled <+: config.messages
  flow : s.mux.exit = none → s.handled ++ (s.mux.queue ++ s.pump.toSend) = config.messages
  pumpSound : s.mux.exit = none → ∀ what, s.pump.exit ≠ some (.failed what)
  supervisionSound : s.mux.exit = none → ∀ evt ∈ s.mux.supervision,
    ∀ who what, evt ≠ .actorFailed who what
  muxSound : ∀ what, s.mux.exit ≠ some (.failed what)
  running : s.mux.stopping = none →
    s.mux.exit = none ∧ .endOfStream ∉ s.calls ∧ none ∉ s.handled
  ending : s.mux.stopping ≠ none → EndLast s.calls

/-- A multiplexer as it is started. -/
theorem intact_preStart (config : StreamMuxConfiguration X) :
    Intact config (System.preStart config) where
  looping := Pump.looping_preStart config.stream
  handled := List.nil_prefix
  flow := fun _ => rfl
  pumpSound := fun _ what hfailed => by cases hfailed
  supervisionSound := fun _ evt hevt => by cases hevt
  muxSound := fun what hfailed => by cases hfailed
  running := fun _ => ⟨rfl, List.not_mem_nil, List.not_mem_nil⟩
  ending := fun hstop => absurd rfl hstop

/-! ## Steps -/

/-- Offering an item announces no end. -/
theorem endOfStream_not_mem_offer (item : X)
    (results : Target → Except ActorProcessingErr Unit) (targets : List Target) :
    .endOfStream ∉ (MuxActor.offer item results targets).1 := by
  induction targets with
  | nil => exact List.not_mem_nil
  | cons target rest ih =>
    rcases hres : results target with err | ⟨⟨⟩⟩
    all_goals
      simp only [MuxActor.offer, hres, List.mem_cons, reduceCtorEq, false_or]
      exact ih

/-- Either a handler announces no end and handled an item, or it announces the end in its last
call and stops the actor. -/
theorem ends_of_handle {s : MuxActor X} (hexit : s.exit = none) (hstop : s.stopping = none)
    (results : Target → Except ActorProcessingErr Unit) (msg : Option X) :
    (s.handle results msg).1.exit = none ∧ (s.handle results msg).1.queue = s.queue ∧
      (s.handle results msg).1.supervision = s.supervision ∧
      ((s.handle results msg).1.stopping = none ∧ .endOfStream ∉ (s.handle results msg).2 ∧
          msg ≠ none ∨
        (s.handle results msg).1.stopping ≠ none ∧ EndLast (s.handle results msg).2) := by
  have hoffer := fun item : X => endOfStream_not_mem_offer item results s.targets
  have hcase := MuxActor.handle_cases hexit hstop results msg
  generalize s.handle results msg = out at hcase ⊢
  cases hcase with
  | kept item | reduced item =>
    exact ⟨hexit, rfl, rfl, Or.inl ⟨hstop, hoffer item, Option.some_ne_none item⟩⟩
  | exhausted item =>
    exact ⟨hexit, rfl, rfl, Or.inr ⟨Option.some_ne_none _, _, rfl, hoffer item⟩⟩
  | ended =>
    exact ⟨hexit, rfl, rfl, Or.inr ⟨Option.some_ne_none _, [], rfl, List.not_mem_nil⟩⟩

/-- A supervision event is posted. -/
theorem tell_fields (s : MuxActor X) (evt : SupervisionEvent) :
    (s.tell evt).exit = s.exit ∧ (s.tell evt).stopping = s.stopping ∧
      (s.tell evt).queue = s.queue ∧
      (s.tell evt).supervision = if s.exit = none then s.supervision ++ [evt]
        else s.supervision := by
  unfold MuxActor.tell
  split
  · rename_i hexit
    rw [if_pos hexit]
    exact ⟨rfl, rfl, rfl, rfl⟩
  · rename_i exit hexit
    have hended : ¬ s.exit = none := by
      rw [hexit]
      exact Option.some_ne_none exit
    rw [if_neg hended]
    exact ⟨rfl, rfl, rfl, rfl⟩

namespace Intact

variable {config : StreamMuxConfiguration X} {s : System X}

/-- A supervision event that reports no failure is posted. -/
theorem tell (hs : Intact config s) {s' : System X} (evt : SupervisionEvent)
    (hmux : s'.mux = s.mux.tell evt) (hpump : s'.pump = s.pump)
    (hghost : s'.handled = s.handled ∧ s'.calls = s.calls)
    (hevt : s.mux.exit = none → ∀ who what, evt ≠ .actorFailed who what) : Intact config s' := by
  obtain ⟨hexit, hstop, hqueue, hsup⟩ := tell_fields s.mux evt
  refine ⟨?_, ?_, ?_, ?_, ?_, ?_, ?_, ?_⟩
  all_goals simp only [hmux, hpump, hghost.1, hghost.2, hexit, hstop, hqueue]
  · exact hs.looping
  · exact hs.handled
  · exact hs.flow
  · exact hs.pumpSound
  · -- the event waits behind those that waited before
    intro hlive evt' hevt'
    rw [hsup, if_pos hlive] at hevt'
    rcases List.mem_append.mp hevt' with hold | hnew
    · exact hs.supervisionSound hlive evt' hold
    · rw [List.mem_singleton] at hnew
      exact hnew ▸ hevt hlive
  · exact hs.muxSound
  · exact hs.running
  · exact hs.ending

/-- The pump takes a step. -/
theorem pumpStepped (hs : Intact config s) {e : PumpEvent} {out : Pump X × Option (Option X)}
    (hown : e.isOwn = true) (h : s.pump.step id (s.mux.exit = none) e = some out) :
    Intact config (s.pumpStepped out) := by
  have hlooping := hs.looping.step hown h
  -- what is to be sent moves to the mailbox
  have hflow : s.mux.exit = none →
      s.handled ++ (s.mux.queue ++ out.2.toList ++ out.1.toSend) = config.messages := by
    intro hlive
    rw [decide_eq_true hlive] at h
    have hsend := Pump.toSend_of_step hs.looping hown h
    rw [List.map_id, List.map_id] at hsend
    rw [List.append_assoc, hsend]
    exact hs.flow hlive
  have hsound : s.mux.exit = none → ∀ what, out.1.exit ≠ some (.failed what) := by
    intro hlive what hfailed
    rw [decide_eq_true hlive] at h
    exact hs.pumpSound hlive what (Pump.not_failed_of_step hown h hfailed)
  obtain ⟨pump, cast⟩ := out
  cases cast with
  | none =>
    simp only [Option.toList_none, List.append_nil] at hflow
    exact ⟨hlooping, hs.handled, hflow, hsound, hs.supervisionSound, hs.muxSound, hs.running,
      hs.ending⟩
  | some msg =>
    exact ⟨hlooping, hs.handled, hflow, hsound, hs.supervisionSound, hs.muxSound, hs.running,
      hs.ending⟩

/-- The multiplexer handles a message. -/
theorem muxHandled (hs : Intact config s) {msg : Option X} {rest : List (Option X)}
    (hexit : s.mux.exit = none) (hstop : s.mux.stopping = none)
    (hqueue : s.mux.queue = msg :: rest)
    (results : Target → Except ActorProcessingErr Unit) :
    Intact config (s.muxHandled msg rest results) := by
  obtain ⟨-, hnoEnd, hnoNone⟩ := hs.running hstop
  have hflow := hs.flow hexit
  rw [hqueue, List.cons_append, List.append_cons] at hflow
  obtain ⟨hexit', hqueue', hsup', hcase⟩ :=
    ends_of_handle (s := { s.mux with queue := rest }) hexit hstop results msg
  refine ⟨hs.looping, ?_, fun _ => ?_, fun _ => hs.pumpSound hexit, fun _ => ?_, ?_, ?_, ?_⟩
  · -- the message moves from the mailbox to what was handled
    exact ⟨rest ++ s.pump.toSend, hflow⟩
  · simp only [System.muxHandled, hqueue']
    exact hflow
  · simp only [System.muxHandled, hsup']
    exact hs.supervisionSound hexit
  · intro what hfailed
    simp only [System.muxHandled, hexit'] at hfailed
    cases hfailed
  · intro hnone
    rcases hcase with ⟨-, hno, hitem⟩ | ⟨hstopped, -⟩
    · -- the handler announced no end, so it handled an item
      refine ⟨hexit', ?_, ?_⟩
      · simp only [System.muxHandled, List.mem_append, not_or]
        exact ⟨hnoEnd, hno⟩
      · simp only [System.muxHandled, List.mem_append, List.mem_singleton, not_or]
        exact ⟨hnoNone, hitem.symm⟩
    · exact absurd hnone hstopped
  · intro hsome
    rcases hcase with ⟨hnone, -, -⟩ | ⟨-, before, hcalls, hno⟩
    · exact absurd hnone hsome
    · -- it announced the end for the first time
      refine ⟨s.calls ++ before, ?_, ?_⟩
      · simp only [System.muxHandled, hcalls, List.append_assoc]
      · simp only [List.mem_append, not_or]
        exact ⟨hnoEnd, hno⟩

/-- The multiplexer ends by taking its stop. -/
theorem takeStop (hs : Intact config s) {reason : Option String}
    (hstop : s.mux.stopping = some reason) :
    Intact config { s with mux := s.mux.finish (.terminated reason) } := by
  have hended : ∀ {P : Prop}, (s.mux.finish (.terminated reason)).exit = none → P :=
    fun hnone => (Option.some_ne_none _ hnone).elim
  refine ⟨hs.looping, hs.handled, hended, hended, hended, fun what hfailed => ?_, fun hnone => ?_,
    hs.ending⟩
  · simp only [MuxActor.finish, Option.some.injEq] at hfailed
    cases hfailed
  · simp only [MuxActor.finish, hstop] at hnone
    cases hnone

/-- **Step lemma.** -/
theorem step (hs : Intact config s) {s' : System X} {e : Event} (h : s.step e = some s') :
    Intact config s' := by
  cases System.step_cases h with
  | pump e out hown hstep => exact hs.pumpStepped hown hstep
  | announcePump =>
    refine hs.tell (.actorStarted pumpCell) rfl rfl ⟨rfl, rfl⟩ fun _ who what hevt => ?_
    cases hevt
  | reportPump exit hexit =>
    refine hs.tell (exit.event pumpCell) rfl rfl ⟨rfl, rfl⟩ fun hlive who what hevt => ?_
    cases exit with
    | terminated reason => cases hevt
    | failed err => exact hs.pumpSound hlive err hexit
  | handle results msg rest hexit hstop _ hqueue => exact hs.muxHandled hexit hstop hqueue results
  | supervise evt rest hexit hstop hsup =>
    have hsound := hs.supervisionSound hexit
    rw [hsup] at hsound
    -- the event reports no failure, and is ignored
    have hignored : { s.mux with supervision := rest }.handleSupervisorEvt evt =
        { s.mux with supervision := rest } := by
      cases evt with
      | actorFailed who what => exact absurd rfl (hsound _ List.mem_cons_self who what)
      | _ => rfl
    rw [hignored]
    exact ⟨hs.looping, hs.handled, hs.flow, hs.pumpSound,
      fun _ evt' hevt' => hsound evt' (List.mem_cons_of_mem evt hevt'), hs.muxSound, hs.running,
      hs.ending⟩
  | takeStop reason _ hstop => exact hs.takeStop hstop
  | killPump hexit =>
    exact ⟨hs.looping.kill, hs.handled, fun hlive => absurd hlive hexit,
      fun hlive => absurd hlive hexit, hs.supervisionSound, hs.muxSound, hs.running, hs.ending⟩

end Intact

/-- **Run lemma.** -/
theorem intact_of_run {config : StreamMuxConfiguration X} {es : List Event} {s : System X}
    (h : run config es = some s) : Intact config s :=
  exec_invariant h (intact_preStart config) fun _ _ _ hs hstep => hs.step hstep

/-! ## Every run is finite -/

/-- What the pump has still to do: three steps for each item and the end marker (of which the last
one is the multiplexer's), the rest of its round, and its end. -/
def pumpLoad (pump : Pump X) : ℕ :=
  if pump.exit = none then
    1 + if pump.stopping = none then
      3 * (pump.stream.length + 1) + if pump.working then 0 else 1
    else if pump.working then 2 else 0
  else 0

/-- The steps that are left at most. -/
def System.load (s : System X) : ℕ :=
  pumpLoad s.pump + s.mux.queue.length + s.mux.supervision.length +
    s.mux.exit.isNone.toNat + 2 * (!s.pumpAnnounced).toNat + 2 * (!s.pumpReported).toNat

/-- A pump that has ended has nothing to do. -/
theorem pumpLoad_finish (pump : Pump X) (exit : Exit) : pumpLoad (pump.finish exit) = 0 := by
  rw [pumpLoad, if_neg (show (pump.finish exit).exit ≠ none from Option.some_ne_none exit)]

/-- A pump that runs has at least its end to come. -/
theorem pumpLoad_pos {pump : Pump X} (hexit : pump.exit = none) : 0 < pumpLoad pump := by
  rw [pumpLoad, if_pos hexit]
  omega

/-- A step of the pump is counted, also with the message that it casts. -/
theorem pumpLoad_step {receiverOpen : Bool} {pump : Pump X} {e : PumpEvent}
    {out : Pump X × Option (Option X)} (hown : e.isOwn = true)
    (h : pump.step id receiverOpen e = some out) :
    pumpLoad out.1 + out.2.toList.length < pumpLoad pump := by
  cases Pump.step_cases h with
  | handle rest hexit hidle hstop =>
    simp only [pumpLoad, hexit, hidle, hstop, if_true, Option.toList_none, List.length_nil,
      Bool.false_eq_true, if_false]
    omega
  | item x stream hexit hwork _ hstream =>
    cases hstop : pump.stopping with
    | none =>
      simp only [pumpLoad, hexit, hwork, hstop, hstream, if_true, Option.toList_some,
        List.length_cons, List.length_nil, Bool.false_eq_true, if_false]
      omega
    | some reason =>
      simp only [pumpLoad, hexit, hwork, hstop, if_true, Option.toList_some, List.length_cons,
        List.length_nil, Bool.false_eq_true, if_false, reduceCtorEq]
      omega
  | last hexit hwork _ hstream =>
    cases hstop : pump.stopping with
    | none | some reason =>
      simp only [pumpLoad, Pump.stop, hexit, hwork, hstop, hstream, if_true, Option.toList_some,
        List.length_cons, List.length_nil, Bool.false_eq_true, if_false, reduceCtorEq]
      omega
  | closed hexit =>
    rw [pumpLoad_finish, Option.toList_none, List.length_nil]
    exact pumpLoad_pos hexit
  | takeStop reason hexit =>
    rw [pumpLoad_finish, Option.toList_none, List.length_nil]
    exact pumpLoad_pos hexit
  | stop | kill => cases hown

/-- Posting an event adds at most that event. -/
theorem length_supervision_tell (s : MuxActor X) (evt : SupervisionEvent) :
    (s.tell evt).supervision.length ≤ s.supervision.length + 1 := by
  rw [(tell_fields s evt).2.2.2]
  split
  · rw [List.length_append, List.length_singleton]
  · exact Nat.le_succ _

/-- **The measure.** Every step of the two actors leaves fewer steps. -/
theorem load_lt_of_step {s s' : System X} {e : Event} (h : s.step e = some s') :
    s'.load < s.load := by
  unfold System.load
  cases System.step_cases h with
  | pump e out hown hstep =>
    -- a message that is cast moves to the mailbox
    have hlt := pumpLoad_step hown hstep
    obtain ⟨pump, cast⟩ := out
    cases cast with
    | none =>
      simp only [System.pumpStepped, Option.toList_none, List.length_nil] at hlt ⊢
      omega
    | some msg =>
      simp only [System.pumpStepped, Option.toList_some, List.length_append,
        List.length_singleton] at hlt ⊢
      omega
  | announcePump hnew =>
    -- an event that was to be posted waits now, or is lost
    obtain ⟨hexit, -, hqueue, -⟩ := tell_fields s.mux (.actorStarted pumpCell)
    have hle := length_supervision_tell s.mux (.actorStarted pumpCell)
    simp only [hexit, hqueue, hnew, Bool.not_true, Bool.not_false, Bool.toNat_true,
      Bool.toNat_false]
    omega
  | reportPump exit _ hnew =>
    obtain ⟨hexit, -, hqueue, -⟩ := tell_fields s.mux (exit.event pumpCell)
    have hle := length_supervision_tell s.mux (exit.event pumpCell)
    simp only [hexit, hqueue, hnew, Bool.not_true, Bool.not_false, Bool.toNat_true,
      Bool.toNat_false]
    omega
  | handle results msg rest hexit hstop hsup hqueue =>
    obtain ⟨hexit', hqueue', hsup', -⟩ :=
      ends_of_handle (s := { s.mux with queue := rest }) hexit hstop results msg
    simp only [System.muxHandled, hexit', hqueue', hsup']
    simp only [hexit, hqueue, List.length_cons]
    omega
  | supervise evt rest hexit _ hsup =>
    cases evt with
    | actorFailed who what =>
      simp only [MuxActor.handleSupervisorEvt, MuxActor.finish, hexit, hsup, List.length_cons,
        List.length_nil, Option.isNone_none, Option.isNone_some, Bool.toNat_true,
        Bool.toNat_false]
      omega
    | _ =>
      simp only [MuxActor.handleSupervisorEvt, hexit, hsup, List.length_cons]
      omega
  | takeStop reason hexit =>
    simp only [MuxActor.finish, hexit, List.length_nil, Option.isNone_none, Option.isNone_some,
      Bool.toNat_true, Bool.toNat_false]
    omega
  | killPump _ hexit =>
    have hpos := pumpLoad_pos hexit
    simp only [Pump.kill, hexit, pumpLoad_finish]
    omega

/-! ## The end of a run -/

/-- While the multiplexer runs, one of the two actors can take a step. -/
theorem enabled_of_running {config : StreamMuxConfiguration X} {s : System X}
    (hs : Intact config s) (hexit : s.mux.exit = none) :
    ∃ e, (s.step e).isSome = true := by
  cases hstop : s.mux.stopping with
  | some reason =>
    refine ⟨.takeStop, ?_⟩
    simp only [System.step, hexit, hstop]
    rfl
  | none =>
    cases hsup : s.mux.supervision with
    | cons evt rest =>
      refine ⟨.supervise, ?_⟩
      simp only [System.step, hexit, hstop, hsup]
      rfl
    | nil =>
      cases hqueue : s.mux.queue with
      | cons msg rest =>
        refine ⟨.handle fun _ => .ok (), ?_⟩
        simp only [System.step, hexit, hstop, hsup, hqueue]
        rfl
      | nil =>
        -- the end marker is still to be cast, so the pump is in a round or before one
        have hmarker : none ∈ s.pump.toSend := by
          have hmem : none ∈ config.messages :=
            List.mem_append_right _ (List.mem_singleton_self none)
          rw [← hs.flow hexit, hqueue, List.nil_append, List.mem_append] at hmem
          exact hmem.resolve_left (hs.running hstop).2.2
        have hlive : s.pump.exit = none ∧ s.pump.stopping = none := by
          by_contra hnot
          rw [Pump.toSend, if_neg hnot] at hmarker
          cases hmarker
        rcases hs.looping.round hlive.1 hlive.2 with ⟨hwork, -⟩ | ⟨hidle, hround⟩
        · refine ⟨.pump .next, ?_⟩
          simp only [System.step, Pump.step, hlive.1, hwork]
          rfl
        · refine ⟨.pump .handle, ?_⟩
          simp only [System.step, Pump.step, hlive.1, hlive.2, hidle, hround]
          rfl

/-- **The end is reported exactly once.** Every run of the multiplexer with its pump is finite, and
in it at most one message is handled for each item and one for the end of the stream. The
multiplexer never fails, and makes no call after it has announced the end. At the end of a run,
where no step is possible any more, it has stopped and has announced the end exactly once. -/
theorem end_reported_once (config : StreamMuxConfiguration X) {es : List Event} {s : System X}
    (h : run config es = some s) :
    es.length ≤ 3 * config.stream.length + 10 ∧
      s.handled.length ≤ config.stream.length + 1 ∧
      (∀ what, s.mux.exit ≠ some (.failed what)) ∧
      (.endOfStream ∉ s.calls ∨ EndLast s.calls) ∧
      ((∀ e, s.step e = none) →
        (∃ reason, s.mux.exit = some (.terminated reason)) ∧ EndLast s.calls) := by
  have hs : Intact config s := intact_of_run h
  refine ⟨?_, ?_, hs.muxSound, ?_, fun hmaximal => ?_⟩
  · have hlength := exec_length_le (m := System.load) h (intact_preStart config)
      (fun _ _ _ hs hstep => hs.step hstep) fun _ _ _ _ hstep => load_lt_of_step hstep
    have hstart : (System.preStart config).load = 3 * config.stream.length + 10 := by
      simp only [System.load, System.preStart, pumpLoad, Pump.preStart, List.length_nil,
        if_true, Bool.false_eq_true, if_false, Option.isNone_none, Bool.not_false,
        Bool.toNat_true]
      omega
    omega
  · have hle := hs.handled.length_le
    rw [StreamMuxConfiguration.messages, List.length_append, List.length_map,
      List.length_singleton] at hle
    exact hle
  · cases hstop : s.mux.stopping with
    | none => exact Or.inl (hs.running hstop).2.1
    | some reason => exact Or.inr (hs.ending (by rw [hstop]; exact Option.some_ne_none reason))
  · -- a multiplexer that runs could go on
    have hended : s.mux.exit ≠ none := by
      intro hexit
      obtain ⟨e, henabled⟩ := enabled_of_running hs hexit
      rw [hmaximal e] at henabled
      cases henabled
    have hstop : s.mux.stopping ≠ none := fun hnone => hended (hs.running hnone).1
    refine ⟨?_, hs.ending hstop⟩
    cases hexit : s.mux.exit with
    | none => exact absurd hexit hended
    | some exit =>
      cases exit with
      | terminated reason => exact ⟨reason, rfl⟩
      | failed what => exact absurd hexit (hs.muxSound what)

/-- When both actors have ended and the pump has posted its events, nothing is left to be done. -/
theorem step_eq_none_of_done {s : System X} (hmux : s.mux.exit ≠ none) (hpump : s.pump.exit ≠ none)
    (hannounced : s.pumpAnnounced = true) (hreported : s.pumpReported = true) (e : Event) :
    s.step e = none := by
  cases hstep : s.step e with
  | none => rfl
  | some s' =>
    cases System.step_cases hstep with
    | pump e out hown hpumpStep =>
      cases Pump.step_cases hpumpStep with
      | handle _ hexit | item _ _ hexit | last hexit | closed hexit | takeStop _ hexit =>
        exact absurd hexit hpump
      | stop | kill => cases hown
    | announcePump hnew =>
      rw [hannounced] at hnew
      cases hnew
    | reportPump _ _ hnew =>
      rw [hreported] at hnew
      cases hnew
    | handle _ _ _ hexit | supervise _ _ hexit | takeStop _ hexit => exact absurd hexit hmux
    | killPump _ hexit => exact absurd hexit hpump

/-- Two items go to two targets, of which one fails at the first item. The pump has ended before the
multiplexer handles the end marker. -/
theorem end_reported_once_two_targets :
    ∃ s : System ℕ, run ⟨[1, 2], [⟨"good", 0⟩, ⟨"bad", 1⟩], true⟩
        [.announcePump, .pump .handle, .pump .next, .supervise,
          .handle (fun target => if target.object = 1 then .error (.message "boom") else .ok ()),
          .pump .handle, .pump .next, .pump .handle, .pump .next, .pump .takeStop, .reportPump,
          .supervise, .handle (fun _ => .ok ()), .handle (fun _ => .ok ()), .takeStop] = some s ∧
      (∀ e, s.step e = none) ∧ (∃ reason, s.mux.exit = some (.terminated reason)) ∧
      EndLast s.calls := by
  obtain ⟨s, hrun, hpost⟩ := (Option.any_eq_true _ _).mp (show
    (run ⟨[1, 2], [⟨"good", 0⟩, ⟨"bad", 1⟩], true⟩
      [.announcePump, .pump .handle, .pump .next, .supervise,
        .handle (fun target => if target.object = 1 then .error (.message "boom") else .ok ()),
        .pump .handle, .pump .next, .pump .handle, .pump .next, .pump .takeStop, .reportPump,
        .supervise, .handle (fun _ => .ok ()), .handle (fun _ => .ok ()), .takeStop]).any
      (fun s : System ℕ => s.mux.exit.isSome && s.pump.exit.isSome && s.pumpAnnounced &&
        s.pumpReported) = true by decide)
  simp only [Bool.and_eq_true, Option.isSome_iff_ne_none] at hpost
  obtain ⟨⟨⟨hmux, hpump⟩, hannounced⟩, hreported⟩ := hpost
  have hmaximal := step_eq_none_of_done hmux hpump hannounced hreported
  exact ⟨s, hrun, hmaximal, (end_reported_once _ hrun).2.2.2.2 hmaximal⟩

end RactorActors.Streams.Mux
