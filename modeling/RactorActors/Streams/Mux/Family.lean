import RactorActors.Streams.Mux.Delivery

/-!
# The multiplexer under faults

The multiplexer and its pump when others interfere: either actor may be stopped or killed from
outside at any moment, the stream may panic, and so may a target or the callback in the middle of
a handler. A panic fails its actor; that of the stream reaches the multiplexer as the exit event
of the pump, and fails it too.

* `Family`: the two actors with a record of what was done to them;
* `Family.Sound` and `Family.Offered`: what every step keeps, whatever happens;
* `mux_survives_faults`: nothing is handled out of order or twice, the end is announced at most
  once and last, and a failure has a panic as its cause;
* `mux_comes_to_rest`: the steps of the two actors come to an end, and then both have ended,
  unless the pump was stopped from outside: the multiplexer ignores that, and waits.
-/

namespace RactorActors.Streams

open LabelledRun

/-! ## The pump -/

namespace Pump

variable {X T : Type}

/-- The pump has rounds to go: it is in one, or has a message for the next one. -/
def OnItsWay (s : Pump X) : Prop := s.exit = none ∧ (s.working = true ∨ s.queue ≠ [])

/-- The rounds of a pump that anybody may stop: a message for the next round waits while none is
going on, until the last round stops the pump. -/
structure Rounds (s : Pump X) : Prop where
  round : s.exit = none → s.working = true → s.queue = []
  waiting : s.exit = none → s.working = false → s.queue = [()] ∨ s.queue = [] ∧ s.stopping ≠ none

/-- A pump as it is started. -/
theorem rounds_preStart (stream : List X) : (preStart stream).Rounds where
  round := fun _ hwork => by cases hwork
  waiting := fun _ _ => Or.inl rfl

/-- A pump that has ended. -/
theorem rounds_finish (s : Pump X) (exit : Exit) : (s.finish exit).Rounds where
  round := fun hnone => absurd hnone (Option.some_ne_none exit)
  waiting := fun hnone => absurd hnone (Option.some_ne_none exit)

/-- A stop leaves the rounds alone. -/
theorem Rounds.stop {s : Pump X} (hs : s.Rounds) (reason : Option String) :
    (s.stop reason).Rounds ∧ (s.stop reason).stream = s.stream ∧
      ((s.stop reason).OnItsWay ↔ s.OnItsWay) ∧ (s.stop reason).exit = s.exit := by
  unfold Pump.stop
  split
  · refine ⟨⟨hs.round, fun hexit hidle => ?_⟩, rfl, Iff.rfl, rfl⟩
    rcases hs.waiting hexit hidle with hqueue | ⟨hqueue, -⟩
    · exact Or.inl hqueue
    · exact Or.inr ⟨hqueue, Option.some_ne_none reason⟩
  · exact ⟨hs, rfl, Iff.rfl, rfl⟩

/-- A pump that has ended has no rounds to go. -/
theorem not_onItsWay_finish (s : Pump X) (exit : Exit) : ¬ (s.finish exit).OnItsWay :=
  fun h => Option.some_ne_none exit h.1

/-- Everything that a step of a pump's own can do to its rounds. -/
inductive RoundCase (fnMap : Option X → T) (receiverOpen : Bool) (s : Pump X) :
    Pump X × Option T → Prop
  /-- Nothing is cast, and the rounds go on. -/
  | quiet (pump : Pump X) (hstream : pump.stream = s.stream) (hway : s.OnItsWay)
      (hway' : pump.OnItsWay) (hexit : pump.exit = none) (hstop : pump.stopping = s.stopping) :
      RoundCase fnMap receiverOpen s (pump, none)
  | item (pump : Pump X) (x : X) (hstream : s.stream = x :: pump.stream) (hway : s.OnItsWay)
      (hway' : pump.OnItsWay) (hexit : pump.exit = none) (hstop : pump.stopping = s.stopping) :
      RoundCase fnMap receiverOpen s (pump, some (fnMap (some x)))
  | last (pump : Pump X) (hstream : s.stream = []) (hway : s.OnItsWay)
      (hway' : ¬ pump.OnItsWay) (hexit : pump.exit = none) :
      RoundCase fnMap receiverOpen s (pump, some (fnMap none))
  /-- The receiver's mailbox is closed. -/
  | closed (pump : Pump X) (hclosed : receiverOpen = false) (hexit : pump.exit ≠ none) :
      RoundCase fnMap receiverOpen s (pump, none)
  /-- The pump takes its stop. -/
  | stopped (pump : Pump X) (hstop : s.stopping ≠ none) (hexit : ∃ reason,
      pump.exit = some (.terminated reason)) :
      RoundCase fnMap receiverOpen s (pump, none)

/-- **What a step does to the rounds.** -/
theorem Rounds.step {fnMap : Option X → T} {receiverOpen : Bool} {s : Pump X} {e : PumpEvent}
    {out : Pump X × Option T} (hs : s.Rounds) (hown : e.isOwn = true)
    (h : s.step fnMap receiverOpen e = some out) :
    s.exit = none ∧ out.1.Rounds ∧ RoundCase fnMap receiverOpen s out := by
  cases step_cases h with
  | handle rest hexit hidle hstop hqueue =>
    -- the round begins with the only message that waits
    have hrest : rest = [] := by
      rcases hs.waiting hexit hidle with hqueue' | ⟨-, hstop'⟩
      · rw [hqueue', List.cons.injEq] at hqueue
        exact hqueue.2.symm
      · exact absurd hstop hstop'
    refine ⟨hexit, ⟨fun _ _ => hrest, fun _ hidle' => by cases hidle'⟩, ?_⟩
    exact .quiet _ rfl ⟨hexit, Or.inr (by simp [hqueue])⟩ ⟨hexit, Or.inl rfl⟩ hexit rfl
  | item x stream hexit hwork _ hstream =>
    have hqueue := hs.round hexit hwork
    refine ⟨hexit, ⟨fun _ hwork' => (Bool.false_ne_true hwork').elim, fun _ _ => ?_⟩, ?_⟩
    · exact Or.inl (by simp [hqueue])
    · exact .item _ x hstream ⟨hexit, Or.inl hwork⟩ ⟨hexit, Or.inr (by simp)⟩ hexit rfl
  | last hexit hwork _ hstream =>
    have hqueue := hs.round hexit hwork
    have hstopped : ({ s with stream := [], working := false } : Pump X).stop none =
        { s with stream := [], working := false, stopping := some (s.stopping.getD none) } := by
      unfold Pump.stop
      cases hstop : s.stopping <;> simp [hexit]
    rw [hstopped]
    refine ⟨hexit, ⟨fun _ hwork' => (Bool.false_ne_true hwork').elim, fun _ _ => ?_⟩, ?_⟩
    · exact Or.inr ⟨hqueue, Option.some_ne_none _⟩
    · refine .last _ hstream ⟨hexit, Or.inl hwork⟩ ?_ hexit
      rintro ⟨-, hwork' | hne⟩
      · cases hwork'
      · exact hne hqueue
  | closed hexit _ hclosed =>
    exact ⟨hexit, rounds_finish _ _, .closed _ hclosed (Option.some_ne_none _)⟩
  | takeStop reason hexit _ hstop =>
    refine ⟨hexit, rounds_finish _ _, .stopped _ ?_ ⟨reason, rfl⟩⟩
    rw [hstop]
    exact Option.some_ne_none reason
  | stop | kill => cases hown

/-- A pump that runs can take a step of its own, whatever its receiver does. -/
theorem Rounds.enabled {s : Pump X} (hs : s.Rounds) (hexit : s.exit = none)
    (fnMap : Option X → T) (receiverOpen : Bool) :
    ∃ e : PumpEvent, e.isOwn = true ∧ (s.step fnMap receiverOpen e).isSome = true := by
  cases hwork : s.working with
  | true =>
    refine ⟨.next, rfl, ?_⟩
    simp only [Pump.step, hexit, hwork]
    rfl
  | false =>
    cases hstop : s.stopping with
    | some reason =>
      refine ⟨.takeStop, rfl, ?_⟩
      simp only [Pump.step, hexit, hwork, hstop]
      rfl
    | none =>
      rcases hs.waiting hexit hwork with hqueue | ⟨-, hne⟩
      · refine ⟨.handle, rfl, ?_⟩
        simp only [Pump.step, hexit, hwork, hstop, hqueue]
        rfl
      · exact absurd hstop hne

end Pump

namespace Mux

variable {X : Type}

/-! ## The two actors and the rest of the world -/

/-- A multiplexer with its pump, and what was done to them. -/
structure Family (X : Type) where
  system : System X
  /-- Somebody else has stopped or killed the multiplexer. -/
  muxAsked : Bool
  /-- Somebody other than the multiplexer has stopped or killed the pump. -/
  pumpAsked : Bool
  /-- What the stream, a target or the callback has panicked with. -/
  panics : List ActorProcessingErr
deriving DecidableEq

/-- The events of a family. -/
inductive FamilyEvent
  /-- One of the two actors takes a step. -/
  | own (e : Event)
  /-- `stop` is called on the multiplexer. -/
  | stopMux (reason : Option String)
  /-- `kill` is called on the multiplexer, or its supervisor ends. -/
  | killMux
  /-- `stop` is called on the pump. -/
  | stopPump (reason : Option String)
  /-- `kill` is called on the pump. -/
  | killPump
  /-- The stream panics while the pump waits for its next item. -/
  | streamPanics (what : ActorProcessingErr)
  /-- The multiplexer takes the next message. The targets would return these results, but the
  call after the first `n` panics. -/
  | handlerPanics (results : Target → Except ActorProcessingErr Unit) (n : ℕ)
      (what : ActorProcessingErr)

/-- A step of the two actors. -/
def FamilyEvent.isOwn : FamilyEvent → Bool
  | .own _ => true
  | _ => false

/-- `ActorRef::kill` -/
def MuxActor.kill (s : MuxActor X) : MuxActor X :=
  match s.exit with
  | none => s.finish (.terminated (some "killed"))
  | some _ => s

namespace Family

/-- `mux_stream` -/
def preStart (config : StreamMuxConfiguration X) : Family X where
  system := System.preStart config
  muxAsked := false
  pumpAsked := false
  panics := []

/-- The multiplexer panics in the handler of a message. -/
def panicked (s : System X) (msg : Option X) (rest : List (Option X))
    (results : Target → Except ActorProcessingErr Unit) (n : ℕ) (what : ActorProcessingErr) :
    System X :=
  { s with
    mux := s.mux.finish (.failed what)
    handled := s.handled ++ [msg]
    calls := s.calls ++ ({ s.mux with queue := rest }.handle results msg).2.take n }

/-- One step of a family. -/
def step (s : Family X) : FamilyEvent → Option (Family X)
  | .own e => (s.system.step e).map fun system => { s with system }
  | .stopMux reason =>
    some { s with system := { s.system with mux := s.system.mux.stop reason }, muxAsked := true }
  | .killMux =>
    some { s with system := { s.system with mux := s.system.mux.kill }, muxAsked := true }
  | .stopPump reason =>
    some { s with
      system := { s.system with pump := s.system.pump.stop reason }, pumpAsked := true }
  | .killPump =>
    some { s with system := { s.system with pump := s.system.pump.kill }, pumpAsked := true }
  | .streamPanics what =>
    if s.system.pump.exit = none ∧ s.system.pump.working = true then
      some { s with
        system := { s.system with pump := s.system.pump.finish (.failed what) }
        panics := what :: s.panics }
    else none
  | .handlerPanics results n what =>
    match s.system.mux.exit, s.system.mux.stopping, s.system.mux.supervision,
      s.system.mux.queue with
    | none, none, [], msg :: rest =>
      if n < ({ s.system.mux with queue := rest }.handle results msg).2.length then
        some { s with
          system := panicked s.system msg rest results n what, panics := what :: s.panics }
      else none
    | _, _, _, _ => none

/-! ## What every step keeps -/

/-- Where the messages of the stream are. -/
structure Flowing (config : StreamMuxConfiguration X) (s : Family X) : Prop where
  rounds : s.system.pump.Rounds
  past : s.system.handled <+: config.messages
  flow : s.system.mux.exit = none →
    s.system.handled ++ s.system.mux.queue <+: config.messages
  ahead : s.system.mux.exit = none → s.system.pump.OnItsWay →
    s.system.handled ++ s.system.mux.queue ++ (s.system.pump.stream.map some ++ [none]) =
      config.messages
  /-- A pump that nobody else stops ends its rounds with the end marker, or with a panic. -/
  marker : s.system.mux.exit = none → s.pumpAsked = false → ¬ s.system.pump.OnItsWay →
    none ∈ s.system.handled ++ s.system.mux.queue ∨
      ∃ what, s.system.pump.exit = some (.failed what)
  ownStop : s.pumpAsked = false → s.system.pump.stopping ≠ none → ¬ s.system.pump.OnItsWay

/-- What the two actors have ended with, and the end that was announced. -/
structure Sound (s : Family X) : Prop where
  muxFailed : ∀ what, s.system.mux.exit = some (.failed what) → what ∈ s.panics
  muxEnded : ∀ reason, s.system.mux.exit = some (.terminated reason) →
    EndLast s.system.calls ∨ s.muxAsked = true
  pumpFailed : s.system.mux.exit = none → ∀ what, s.system.pump.exit = some (.failed what) →
    what ∈ s.panics
  events : s.system.mux.exit = none → ∀ evt ∈ s.system.mux.supervision,
    ∀ who what, evt = .actorFailed who what → what ∈ s.panics
  reported : s.system.pumpReported = true → s.system.pump.exit ≠ none
  /-- A failure of the pump that was reported waits for the multiplexer. -/
  heard : s.system.mux.exit = none → s.system.mux.stopping = none →
    s.system.pumpReported = true → ∀ what, s.system.pump.exit = some (.failed what) →
      ∃ who, .actorFailed who what ∈ s.system.mux.supervision
  calls : .endOfStream ∉ s.system.calls ∨ EndLast s.system.calls
  running : s.system.mux.exit = none → s.system.mux.stopping = none →
    .endOfStream ∉ s.system.calls ∧ none ∉ s.system.handled
  stopping : s.system.mux.exit = none → s.system.mux.stopping ≠ none →
    EndLast s.system.calls ∨ s.muxAsked = true

/-- What the targets were offered. -/
structure Offered (config : StreamMuxConfiguration X) (s : Family X) : Prop where
  sublist : s.system.mux.targets.Sublist config.targets
  present : s.system.mux.exit = none → ∀ target ∈ s.system.mux.targets,
    (offersTo target s.system.calls).map (·.1) = s.system.handled.reduceOption
  all : ∀ target ∈ config.targets,
    (offersTo target s.system.calls).map (·.1) <+: s.system.handled.reduceOption

/-- A family as it is started. -/
theorem flowing_preStart (config : StreamMuxConfiguration X) :
    (preStart config).Flowing config where
  rounds := Pump.rounds_preStart config.stream
  past := List.nil_prefix
  flow := fun _ => List.nil_prefix
  ahead := fun _ _ => rfl
  marker := fun _ _ hway => absurd ⟨rfl, Or.inr (List.cons_ne_nil _ _)⟩ hway
  ownStop := fun _ hstop => absurd rfl hstop

theorem sound_preStart (config : StreamMuxConfiguration X) : (preStart config).Sound where
  muxFailed := fun _ hfailed => by cases hfailed
  muxEnded := fun _ hended => by cases hended
  pumpFailed := fun _ _ hfailed => by cases hfailed
  events := fun _ _ hevt => by cases hevt
  reported := fun hreported => by cases hreported
  heard := fun _ _ hreported => by cases hreported
  calls := Or.inl List.not_mem_nil
  running := fun _ _ => ⟨List.not_mem_nil, List.not_mem_nil⟩
  stopping := fun _ hstop => absurd rfl hstop

theorem offered_preStart (config : StreamMuxConfiguration X) :
    (preStart config).Offered config where
  sublist := List.Sublist.refl _
  present := fun _ _ _ => rfl
  all := fun _ _ => List.nil_prefix

/-! ## What a step can do -/

/-- Everything that one step of a family can do. -/
inductive StepCase (s : Family X) : FamilyEvent → Family X → Prop
  | own (e : Event) (system : System X) (hstep : s.system.step e = some system) :
      StepCase s (.own e) { s with system }
  | stopMux (reason : Option String) :
      StepCase s (.stopMux reason)
        { s with system := { s.system with mux := s.system.mux.stop reason }, muxAsked := true }
  | killMux :
      StepCase s .killMux
        { s with system := { s.system with mux := s.system.mux.kill }, muxAsked := true }
  | stopPump (reason : Option String) :
      StepCase s (.stopPump reason)
        { s with
          system := { s.system with pump := s.system.pump.stop reason }, pumpAsked := true }
  | killPump :
      StepCase s .killPump
        { s with system := { s.system with pump := s.system.pump.kill }, pumpAsked := true }
  | streamPanics (what : ActorProcessingErr) (hexit : s.system.pump.exit = none)
      (hwork : s.system.pump.working = true) :
      StepCase s (.streamPanics what)
        { s with
          system := { s.system with pump := s.system.pump.finish (.failed what) }
          panics := what :: s.panics }
  | handlerPanics (results : Target → Except ActorProcessingErr Unit) (n : ℕ)
      (what : ActorProcessingErr) (msg : Option X) (rest : List (Option X))
      (hexit : s.system.mux.exit = none) (hstop : s.system.mux.stopping = none)
      (hqueue : s.system.mux.queue = msg :: rest)
      (hn : n < ({ s.system.mux with queue := rest }.handle results msg).2.length) :
      StepCase s (.handlerPanics results n what)
        { s with
          system := panicked s.system msg rest results n what, panics := what :: s.panics }

/-- **Step inversion.** -/
theorem step_cases {s s' : Family X} {e : FamilyEvent} (h : s.step e = some s') :
    StepCase s e s' := by
  cases e with
  | own e =>
    simp only [step, Option.map_eq_some_iff] at h
    obtain ⟨system, hstep, rfl⟩ := h
    exact StepCase.own e system hstep
  | stopMux reason =>
    simp only [step, Option.some.injEq] at h
    exact h ▸ StepCase.stopMux reason
  | killMux =>
    simp only [step, Option.some.injEq] at h
    exact h ▸ StepCase.killMux
  | stopPump reason =>
    simp only [step, Option.some.injEq] at h
    exact h ▸ StepCase.stopPump reason
  | killPump =>
    simp only [step, Option.some.injEq] at h
    exact h ▸ StepCase.killPump
  | streamPanics what =>
    simp only [step] at h
    split at h
    · rename_i hpump
      rw [Option.some.injEq] at h
      exact h ▸ StepCase.streamPanics what hpump.1 hpump.2
    · cases h
  | handlerPanics results n what =>
    simp only [step] at h
    split at h
    · rename_i msg rest hexit hstop _ hqueue
      split at h
      · rename_i hn
        rw [Option.some.injEq] at h
        exact h ▸ StepCase.handlerPanics results n what msg rest hexit hstop hqueue hn
      · cases h
    · cases h

/-- A kill ends a pump that runs. -/
theorem pump_kill (pump : Pump X) :
    pump.kill = pump ∧ pump.exit ≠ none ∨
      pump.exit = none ∧ pump.kill = pump.finish (.terminated (some "killed")) := by
  unfold Pump.kill
  split
  · rename_i hexit
    exact Or.inr ⟨hexit, rfl⟩
  · rename_i exit hexit
    exact Or.inl ⟨rfl, by rw [hexit]; exact Option.some_ne_none exit⟩

namespace Flowing

variable {config : StreamMuxConfiguration X} {s s' : Family X}

/-- The messages stay where they are, or the mailbox of the multiplexer is closed. -/
theorem of_mux (hs : s.Flowing config) (hpump : s'.system.pump = s.system.pump)
    (hhandled : s'.system.handled = s.system.handled) (hasked : s'.pumpAsked = s.pumpAsked)
    (hmux : s'.system.mux.exit = none →
      s.system.mux.exit = none ∧ s'.system.mux.queue = s.system.mux.queue) :
    s'.Flowing config := by
  constructor
  all_goals simp only [hpump, hhandled, hasked]
  · exact hs.rounds
  · exact hs.past
  · intro hexit
    rw [(hmux hexit).2]
    exact hs.flow (hmux hexit).1
  · intro hexit
    rw [(hmux hexit).2]
    exact hs.ahead (hmux hexit).1
  · intro hexit
    rw [(hmux hexit).2]
    exact hs.marker (hmux hexit).1
  · exact hs.ownStop

/-- The pump takes a step. -/
theorem pumpStepped (hs : s.Flowing config) {e : PumpEvent}
    {out : Pump X × Option (Option X)} (hown : e.isOwn = true)
    (h : s.system.pump.step id (s.system.mux.exit = none) e = some out) :
    ({ s with system := s.system.pumpStepped out } : Family X).Flowing config := by
  obtain ⟨hexit, hrounds, hcase⟩ := hs.rounds.step hown h
  cases hcase with
  | quiet pump hstream hway hway' _ hstop =>
    refine ⟨hrounds, hs.past, hs.flow, fun hlive _ => ?_, fun _ _ hno => absurd hway' hno,
      fun hasked hne => ?_⟩
    · simp only [System.pumpStepped, hstream]
      exact hs.ahead hlive hway
    · exact absurd hway (hs.ownStop hasked (hstop ▸ hne))
  | item pump x hstream hway hway' _ hstop =>
    -- the item moves to the mailbox
    have hahead : s.system.mux.exit = none → s.system.handled ++ (s.system.mux.queue ++ [some x]) ++
        (pump.stream.map some ++ [none]) = config.messages := by
      intro hlive
      rw [← hs.ahead hlive hway, hstream]
      simp
    refine ⟨hrounds, hs.past, fun hlive => ?_, fun hlive _ => hahead hlive,
      fun _ _ hno => absurd hway' hno, fun hasked hne => ?_⟩
    · exact hahead hlive ▸ List.prefix_append _ _
    · exact absurd hway (hs.ownStop hasked (hstop ▸ hne))
  | last pump hstream hway hway' =>
    refine ⟨hrounds, hs.past, fun hlive => ?_, fun _ hyes => absurd hyes hway',
      fun _ _ _ => Or.inl ?_, fun _ _ => hway'⟩
    · have hahead := hs.ahead hlive hway
      rw [hstream, List.map_nil, List.nil_append, List.append_assoc] at hahead
      exact hahead ▸ List.prefix_rfl
    · simp [System.pumpStepped]
  | closed pump hclosed hended =>
    have hmux : ¬ s.system.mux.exit = none := of_decide_eq_false hclosed
    exact ⟨hrounds, hs.past, fun hlive => absurd hlive hmux, fun hlive => absurd hlive hmux,
      fun hlive => absurd hlive hmux, fun _ _ hway => hended hway.1⟩
  | stopped pump hstop hended =>
    obtain ⟨reason, hended⟩ := hended
    have hno : ¬ pump.OnItsWay := by
      rintro ⟨hlive, -⟩
      rw [hended] at hlive
      cases hlive
    refine ⟨hrounds, hs.past, hs.flow, fun _ hyes => absurd hyes hno, fun hlive hasked _ => ?_,
      fun _ _ => hno⟩
    -- the pump had stopped itself after the end marker
    rcases hs.marker hlive hasked (hs.ownStop hasked hstop) with hmarker | ⟨what, hfailed⟩
    · exact Or.inl hmarker
    · rw [hexit] at hfailed
      cases hfailed

/-- **Step lemma.** -/
theorem step (hs : s.Flowing config) {e : FamilyEvent} (h : s.step e = some s') :
    s'.Flowing config := by
  cases step_cases h with
  | own e system hstep =>
    cases System.step_cases hstep with
    | pump e out hown hpump => exact hs.pumpStepped hown hpump
    | announcePump =>
      obtain ⟨hexit, -, hqueue, -⟩ := tell_fields s.system.mux (.actorStarted pumpCell)
      exact hs.of_mux rfl rfl rfl fun hlive => ⟨hexit ▸ hlive, hqueue⟩
    | reportPump exit =>
      obtain ⟨hexit, -, hqueue, -⟩ := tell_fields s.system.mux (exit.event pumpCell)
      exact hs.of_mux rfl rfl rfl fun hlive => ⟨hexit ▸ hlive, hqueue⟩
    | handle results msg rest hexit hstop _ hqueue =>
      obtain ⟨hexit', hqueue', -, -⟩ :=
        ends_of_handle (s := { s.system.mux with queue := rest }) hexit hstop results msg
      have hmoved : s.system.handled ++ [msg] ++ rest =
          s.system.handled ++ s.system.mux.queue := by
        rw [hqueue, List.append_assoc, List.singleton_append]
      refine ⟨hs.rounds, ?_, fun _ => ?_, fun _ => ?_, fun _ => ?_, hs.ownStop⟩
      all_goals simp only [System.muxHandled, hqueue', hmoved]
      · exact (List.prefix_append _ _).trans (hmoved ▸ hs.flow hexit)
      · exact hs.flow hexit
      · exact hs.ahead hexit
      · exact hs.marker hexit
    | supervise evt rest hexit =>
      refine hs.of_mux rfl rfl rfl fun hlive => ?_
      cases evt with
      | actorFailed who what => exact absurd hlive (Option.some_ne_none _)
      | _ => exact ⟨hexit, rfl⟩
    | takeStop reason =>
      exact hs.of_mux rfl rfl rfl fun hlive => absurd hlive (Option.some_ne_none _)
    | killPump hmux =>
      refine ⟨?_, hs.past, fun hlive => absurd hlive hmux, fun hlive => absurd hlive hmux,
        fun hlive => absurd hlive hmux, fun hasked hstop => ?_⟩
      · rcases pump_kill s.system.pump with ⟨hsame, -⟩ | ⟨-, hkill⟩
        · exact hsame.symm ▸ hs.rounds
        · exact hkill.symm ▸ Pump.rounds_finish _ _
      · rcases pump_kill s.system.pump with ⟨hsame, -⟩ | ⟨-, hkill⟩
        · rw [hsame] at hstop ⊢
          exact hs.ownStop hasked hstop
        · exact hkill.symm ▸ Pump.not_onItsWay_finish _ _
  | stopMux reason =>
    refine hs.of_mux rfl rfl rfl fun hlive => ?_
    unfold MuxActor.stop at hlive ⊢
    split at hlive <;> exact ⟨hlive, rfl⟩
  | killMux =>
    refine hs.of_mux rfl rfl rfl fun hlive => ?_
    unfold MuxActor.kill at hlive ⊢
    split at hlive
    · exact absurd hlive (Option.some_ne_none _)
    · exact ⟨hlive, rfl⟩
  | stopPump reason =>
    obtain ⟨hrounds, hstream, hway, -⟩ := hs.rounds.stop reason
    refine ⟨hrounds, hs.past, hs.flow, fun hlive hyes => ?_,
      fun _ hasked => Bool.noConfusion hasked, fun hasked => Bool.noConfusion hasked⟩
    simp only [hstream]
    exact hs.ahead hlive (hway.mp hyes)
  | killPump =>
    rcases pump_kill s.system.pump with ⟨hsame, hended⟩ | ⟨-, hkill⟩
    · simp only [hsame]
      exact ⟨hs.rounds, hs.past, hs.flow, hs.ahead,
        fun _ hasked => Bool.noConfusion hasked, fun hasked => Bool.noConfusion hasked⟩
    · simp only [hkill]
      exact ⟨Pump.rounds_finish _ _, hs.past, hs.flow,
        fun _ hyes => absurd hyes (Pump.not_onItsWay_finish _ _),
        fun _ hasked => Bool.noConfusion hasked, fun hasked => Bool.noConfusion hasked⟩
  | streamPanics what =>
    exact ⟨Pump.rounds_finish _ _, hs.past, hs.flow,
      fun _ hyes => absurd hyes (Pump.not_onItsWay_finish _ _),
      fun _ _ _ => Or.inr ⟨what, rfl⟩, fun _ _ => Pump.not_onItsWay_finish _ _⟩
  | handlerPanics results n what msg rest hexit hstop hqueue =>
    have hended {P : Prop} (hlive : (panicked s.system msg rest results n what).mux.exit = none) :
        P := (Option.some_ne_none _ hlive).elim
    refine ⟨hs.rounds, ?_, fun hlive => hended hlive, fun hlive => hended hlive,
      fun hlive => hended hlive, hs.ownStop⟩
    have hflow := hs.flow hexit
    rw [hqueue, List.append_cons] at hflow
    exact (List.prefix_append _ _).trans hflow

end Flowing

namespace Sound

variable {config : StreamMuxConfiguration X} {s s' : Family X}

/-- Nothing happens to the multiplexer but that messages are queued, and the pump does not fail. -/
theorem of_pump (hs : s.Sound) (queue : List (Option X)) (pump : Pump X) (pumpAsked : Bool)
    (hpump : pump.exit = s.system.pump.exit ∨
      s.system.pump.exit = none ∧ (s.system.mux.exit = none →
        ∀ what, pump.exit ≠ some (.failed what))) :
    ({ s with
      system := { s.system with mux := { s.system.mux with queue }, pump }
      pumpAsked } : Family X).Sound := by
  have hfailed {what : ActorProcessingErr} (hlive : s.system.mux.exit = none)
      (h : pump.exit = some (.failed what)) : s.system.pump.exit = some (.failed what) := by
    rcases hpump with hsame | ⟨-, hnot⟩
    · exact hsame ▸ h
    · exact absurd h (hnot hlive what)
  refine ⟨hs.muxFailed, hs.muxEnded, fun hlive what h => hs.pumpFailed hlive what (hfailed hlive h),
    hs.events, fun h => ?_, fun hlive hstop h what hf => hs.heard hlive hstop h what
    (hfailed hlive hf), hs.calls, hs.running, hs.stopping⟩
  rcases hpump with hsame | ⟨hnone, -⟩
  · exact fun hnone => hs.reported h (hsame ▸ hnone)
  · exact absurd hnone (hs.reported h)

/-- The multiplexer ends, with a panic or by a stop that it was asked for. -/
theorem of_end (hs : s.Sound) {s' : Family X} (exit : Exit)
    (hpump : s'.system.pump = s.system.pump)
    (hreported : s'.system.pumpReported = s.system.pumpReported)
    (hcalls : .endOfStream ∉ s'.system.calls ∨ EndLast s'.system.calls)
    (hexit : s'.system.mux.exit = some exit)
    (hfailed : ∀ what, exit = .failed what → what ∈ s'.panics)
    (hended : ∀ reason, exit = .terminated reason →
      EndLast s'.system.calls ∨ s'.muxAsked = true) : s'.Sound where
  muxFailed := fun what h => hfailed what (Option.some.inj (hexit.symm.trans h))
  muxEnded := fun reason h => hended reason (Option.some.inj (hexit.symm.trans h))
  pumpFailed := fun hlive => by rw [hexit] at hlive; cases hlive
  events := fun hlive => by rw [hexit] at hlive; cases hlive
  reported := by rw [hpump, hreported]; exact hs.reported
  heard := fun hlive => by rw [hexit] at hlive; cases hlive
  calls := hcalls
  running := fun hlive => by rw [hexit] at hlive; cases hlive
  stopping := fun hlive => by rw [hexit] at hlive; cases hlive

/-- The pump takes a step. -/
theorem pumpStepped (hs : s.Sound) (hrounds : s.system.pump.Rounds) {e : PumpEvent}
    {out : Pump X × Option (Option X)} (hown : e.isOwn = true)
    (h : s.system.pump.step id (s.system.mux.exit = none) e = some out) :
    ({ s with system := s.system.pumpStepped out } : Family X).Sound := by
  obtain ⟨hexit, -, hcase⟩ := hrounds.step hown h
  have hnot : s.system.mux.exit = none → ∀ what, out.1.exit ≠ some (.failed what) := by
    intro hlive what hfailed
    cases hcase with
    | quiet _ _ _ _ hnone | item _ _ _ _ _ hnone | last _ _ _ _ hnone =>
      rw [hnone] at hfailed
      cases hfailed
    | closed _ hclosed => exact of_decide_eq_false hclosed hlive
    | stopped _ _ hended =>
      obtain ⟨reason, hended⟩ := hended
      rw [hended] at hfailed
      cases hfailed
  obtain ⟨pump, cast⟩ := out
  cases cast with
  | none => exact hs.of_pump _ pump _ (Or.inr ⟨hexit, hnot⟩)
  | some msg => exact hs.of_pump _ pump _ (Or.inr ⟨hexit, hnot⟩)

/-- A supervision event that tells the truth is posted. -/
theorem tell (hs : s.Sound) {s' : Family X} (evt : SupervisionEvent)
    (hmux : s'.system.mux = s.system.mux.tell evt) (hpump : s'.system.pump = s.system.pump)
    (hghost : s'.system.calls = s.system.calls ∧ s'.system.handled = s.system.handled ∧
      s'.muxAsked = s.muxAsked ∧ s'.panics = s.panics)
    (hreported : s'.system.pumpReported = true → s.system.pumpReported = true ∨
      ∃ exit, s.system.pump.exit = some exit ∧ evt = exit.event pumpCell)
    (hevt : s.system.mux.exit = none → ∀ who what, evt = .actorFailed who what →
      what ∈ s.panics) : s'.Sound := by
  obtain ⟨hexit, hstop, -, hsup⟩ := tell_fields s.system.mux evt
  obtain ⟨hcalls, hhandled, hasked, hpanics⟩ := hghost
  constructor
  all_goals simp only [hmux, hpump, hcalls, hhandled, hasked, hpanics, hexit, hstop]
  · exact hs.muxFailed
  · exact hs.muxEnded
  · exact hs.pumpFailed
  · intro hlive evt' hevt'
    rw [hsup, if_pos hlive] at hevt'
    rcases List.mem_append.mp hevt' with hold | hnew
    · exact hs.events hlive evt' hold
    · rw [List.mem_singleton] at hnew
      exact hnew ▸ hevt hlive
  · intro hrep
    rcases hreported hrep with hold | ⟨exit, hended, -⟩
    · exact hs.reported hold
    · rw [hended]
      exact Option.some_ne_none exit
  · intro hlive hnostop hrep what hfailed
    rw [hsup, if_pos hlive]
    rcases hreported hrep with hold | ⟨exit, hended, rfl⟩
    · obtain ⟨who, hmem⟩ := hs.heard hlive hnostop hold what hfailed
      exact ⟨who, List.mem_append_left _ hmem⟩
    · -- the failure is posted now
      obtain rfl : exit = .failed what := Option.some.inj (hended.symm.trans hfailed)
      exact ⟨pumpCell, List.mem_append_right _ (List.mem_singleton_self _)⟩
  · exact hs.calls
  · exact hs.running
  · exact hs.stopping

/-- The multiplexer handles a message. -/
theorem muxHandled (hs : s.Sound) {msg : Option X} {rest : List (Option X)}
    (hexit : s.system.mux.exit = none) (hstop : s.system.mux.stopping = none)
    (results : Target → Except ActorProcessingErr Unit) :
    ({ s with system := s.system.muxHandled msg rest results } : Family X).Sound := by
  obtain ⟨hnoEnd, hnoNone⟩ := hs.running hexit hstop
  obtain ⟨hexit', -, hsup', hcase⟩ :=
    ends_of_handle (s := { s.system.mux with queue := rest }) hexit hstop results msg
  have hrunning {P : Prop} {exit : Exit}
      (h : (s.system.muxHandled msg rest results).mux.exit = some exit) : P := by
    cases hexit'.symm.trans h
  -- either an item was handled, or the end was announced for the first time
  have hends : .endOfStream ∉ (s.system.muxHandled msg rest results).calls ∧
        none ∉ (s.system.muxHandled msg rest results).handled ∨
      (s.system.muxHandled msg rest results).mux.stopping ≠ none ∧
        EndLast (s.system.muxHandled msg rest results).calls := by
    rcases hcase with ⟨-, hno, hitem⟩ | ⟨hstopped, before, hcalls, hno⟩
    · left
      simp only [System.muxHandled, List.mem_append, List.mem_singleton, not_or]
      exact ⟨⟨hnoEnd, hno⟩, hnoNone, hitem.symm⟩
    · refine Or.inr ⟨hstopped, s.system.calls ++ before, ?_, ?_⟩
      · simp only [System.muxHandled, hcalls, List.append_assoc]
      · simp only [List.mem_append, not_or]
        exact ⟨hnoEnd, hno⟩
  refine ⟨fun what h => hrunning h, fun reason h => hrunning h, fun _ => hs.pumpFailed hexit,
    fun _ => ?_, hs.reported, fun _ hnone => ?_, ?_, fun _ hnone => ?_, fun _ hne => ?_⟩
  · simp only [System.muxHandled, hsup']
    exact hs.events hexit
  · simp only [System.muxHandled, hsup']
    exact hs.heard hexit hstop
  · rcases hends with ⟨hno, -⟩ | ⟨-, hlast⟩
    · exact Or.inl hno
    · exact Or.inr hlast
  · rcases hends with hno | ⟨hne, -⟩
    · exact hno
    · exact absurd hnone hne
  · rcases hends with ⟨hno, hitem⟩ | ⟨-, hlast⟩
    · -- an item that ends nothing leaves no stop behind
      rcases hcase with ⟨hnone, -⟩ | ⟨-, before, hcalls, -⟩
      · exact absurd hnone hne
      · exact absurd (by simp [System.muxHandled, hcalls]) hno
    · exact Or.inl hlast

/-- Somebody asks the multiplexer to stop in vain. -/
theorem asked (hs : s.Sound) : ({ s with muxAsked := true } : Family X).Sound :=
  ⟨hs.muxFailed, fun _ _ => Or.inr rfl, hs.pumpFailed, hs.events, hs.reported, hs.heard, hs.calls,
    hs.running, fun _ _ => Or.inr rfl⟩

/-- **Step lemma.** -/
theorem step (hs : s.Sound) (hrounds : s.system.pump.Rounds) {e : FamilyEvent}
    (h : s.step e = some s') : s'.Sound := by
  cases step_cases h with
  | own e system hstep =>
    cases System.step_cases hstep with
    | pump e out hown hpump => exact hs.pumpStepped hrounds hown hpump
    | announcePump =>
      refine hs.tell (.actorStarted pumpCell) rfl rfl ⟨rfl, rfl, rfl, rfl⟩ Or.inl ?_
      rintro - who what hevt
      cases hevt
    | reportPump exit hexit =>
      refine hs.tell (exit.event pumpCell) rfl rfl ⟨rfl, rfl, rfl, rfl⟩
        (fun _ => Or.inr ⟨exit, hexit, rfl⟩) fun hlive who what hevt => ?_
      cases exit with
      | terminated reason => cases hevt
      | failed err =>
        obtain ⟨-, rfl⟩ := SupervisionEvent.actorFailed.inj hevt
        exact hs.pumpFailed hlive err hexit
    | handle results msg rest hexit hstop => exact hs.muxHandled hexit hstop results
    | supervise evt rest hexit hstop hsup =>
      have hevents := hs.events hexit
      have hheard := hs.heard hexit hstop
      rw [hsup] at hevents hheard
      cases evt with
      | actorFailed who what =>
        -- the panic of the stream fails the multiplexer
        refine hs.of_end (.failed what) rfl rfl hs.calls rfl (fun what' hwhat => ?_)
          fun reason hreason => by cases hreason
        cases hwhat
        exact hevents _ List.mem_cons_self who what rfl
      | _ =>
        refine ⟨hs.muxFailed, hs.muxEnded, hs.pumpFailed, fun _ evt' hevt' => ?_, hs.reported,
          fun _ _ hrep what hfailed => ?_, hs.calls, hs.running, hs.stopping⟩
        · exact hevents evt' (List.mem_cons_of_mem _ hevt')
        · -- the failure is not the event that was taken
          obtain ⟨who, hmem⟩ := hheard hrep what hfailed
          rcases List.mem_cons.mp hmem with heq | hmem
          · cases heq
          · exact ⟨who, hmem⟩
    | takeStop reason hexit hstop =>
      refine hs.of_end (.terminated reason) rfl rfl hs.calls rfl
        (fun what hwhat => by cases hwhat) fun _ _ => ?_
      refine hs.stopping hexit ?_
      rw [hstop]
      exact Option.some_ne_none reason
    | killPump hmux hpump =>
      exact hs.of_pump _ _ _ (Or.inr ⟨hpump, fun hlive => absurd hlive hmux⟩)
  | stopMux reason =>
    unfold MuxActor.stop
    split
    · rename_i hexit hstop
      exact ⟨hs.muxFailed, fun _ _ => Or.inr rfl, hs.pumpFailed, hs.events, hs.reported,
        fun _ hne => absurd hne (Option.some_ne_none reason), hs.calls,
        fun _ hne => absurd hne (Option.some_ne_none reason), fun _ _ => Or.inr rfl⟩
    · exact hs.asked
  | killMux =>
    unfold MuxActor.kill
    split
    · exact hs.of_end (.terminated (some "killed")) rfl rfl hs.calls rfl
        (fun what hwhat => by cases hwhat) fun _ _ => Or.inr rfl
    · exact hs.asked
  | stopPump reason =>
    exact hs.of_pump _ _ _ (Or.inl (hrounds.stop reason).2.2.2)
  | killPump =>
    rcases pump_kill s.system.pump with ⟨hsame, -⟩ | ⟨hexit, hkill⟩
    · exact hs.of_pump _ _ _ (Or.inl (congrArg Pump.exit hsame))
    · refine hs.of_pump _ _ _ (Or.inr ⟨hexit, fun _ what hfailed => ?_⟩)
      simp only [hkill, Pump.finish, Option.some.injEq] at hfailed
      cases hfailed
  | streamPanics what hexit =>
    have hfresh (h : s.system.pumpReported = true) {P : Prop} : P :=
      absurd hexit (hs.reported h)
    refine ⟨fun what' h => List.mem_cons_of_mem _ (hs.muxFailed what' h), hs.muxEnded,
      fun _ what' hfailed => ?_, fun hlive evt hevt who what' heq => ?_, fun h => hfresh h,
      fun _ _ h => hfresh h, hs.calls, hs.running, hs.stopping⟩
    · obtain rfl : what = what' := Exit.failed.inj (Option.some.inj hfailed)
      exact List.mem_cons_self
    · exact List.mem_cons_of_mem _ (hs.events hlive evt hevt who what' heq)
  | handlerPanics results n what msg rest hexit hstop hqueue hn =>
    obtain ⟨hnoEnd, -⟩ := hs.running hexit hstop
    obtain ⟨-, -, -, hcase⟩ :=
      ends_of_handle (s := { s.system.mux with queue := rest }) hexit hstop results msg
    refine hs.of_end (.failed what) rfl rfl (Or.inl ?_) rfl (fun what' hwhat => ?_)
      fun reason hreason => by cases hreason
    · -- the end is announced by the last call of a handler, which it did not come to
      simp only [panicked, List.mem_append, not_or]
      refine ⟨hnoEnd, fun hmem => ?_⟩
      rcases hcase with ⟨-, hno, -⟩ | ⟨-, before, hcalls, hno⟩
      · exact hno (List.mem_of_mem_take hmem)
      · rw [hcalls, List.length_append, List.length_singleton] at hn
        rw [hcalls, List.take_append_of_le_length (by omega)] at hmem
        exact hno (List.mem_of_mem_take hmem)
    · cases hwhat
      exact List.mem_cons_self

end Sound

namespace Offered

variable {config : StreamMuxConfiguration X} {s s' : Family X}

/-- Nothing is offered. -/
theorem of_same (hs : s.Offered config) (htargets : s'.system.mux.targets = s.system.mux.targets)
    (hghost : s'.system.handled = s.system.handled ∧ s'.system.calls = s.system.calls)
    (hlive : s'.system.mux.exit = none → s.system.mux.exit = none) : s'.Offered config := by
  constructor
  all_goals simp only [htargets, hghost.1, hghost.2]
  · exact hs.sublist
  · exact fun hexit => hs.present (hlive hexit)
  · exact hs.all

/-- A handler offers an item to each of the targets once, and nothing to others. -/
theorem offersTo_handle {s : MuxActor X} (hexit : s.exit = none) (hstop : s.stopping = none)
    (hnodup : s.targets.Nodup) (results : Target → Except ActorProcessingErr Unit)
    (msg : Option X) (target : Target) :
    (offersTo target (s.handle results msg).2).map (·.1) =
      if target ∈ s.targets then msg.toList else [] := by
  have hoffer (item : X) := offersTo_offer item results hnodup target
  have hcase := MuxActor.handle_cases hexit hstop results msg
  generalize s.handle results msg = out at hcase ⊢
  cases hcase with
  | kept item | reduced item =>
    rw [hoffer item]
    split <;> rfl
  | exhausted item =>
    rw [offersTo_append, hoffer item]
    split <;> rfl
  | ended => split <;> rfl

/-- The targets after a handler are some of those before it. -/
theorem targets_handle {s : MuxActor X} (hexit : s.exit = none) (hstop : s.stopping = none)
    (results : Target → Except ActorProcessingErr Unit) (msg : Option X) :
    (s.handle results msg).1.targets.Sublist s.targets := by
  have hcase := MuxActor.handle_cases hexit hstop results msg
  generalize s.handle results msg = out at hcase ⊢
  cases hcase with
  | kept | ended => exact List.Sublist.refl _
  | reduced => exact List.filter_sublist
  | exhausted => exact List.nil_sublist _

/-- Each target is offered the first of the items, also while a message is handled. -/
theorem all_of_handle (hs : s.Offered config) (hexit : s.system.mux.exit = none)
    {msg : Option X} {calls : List (Call X)} (target : Target) (htarget : target ∈ config.targets)
    (hcalls : (offersTo target calls).map (·.1) <+:
      if target ∈ s.system.mux.targets then msg.toList else []) :
    (offersTo target (s.system.calls ++ calls)).map (·.1) <+:
      (s.system.handled ++ [msg]).reduceOption := by
  have hmsg : [msg].reduceOption = msg.toList := by cases msg <;> rfl
  rw [offersTo_append, List.map_append, List.reduceOption_append, hmsg]
  by_cases hpresent : target ∈ s.system.mux.targets
  · rw [if_pos hpresent] at hcalls
    rw [hs.present hexit target hpresent]
    exact (List.prefix_append_right_inj _).mpr hcalls
  · rw [if_neg hpresent, List.prefix_nil] at hcalls
    rw [hcalls, List.append_nil]
    exact (hs.all target htarget).trans (List.prefix_append _ _)

/-- **Step lemma.** -/
theorem step (hs : s.Offered config) (hnodup : config.targets.Nodup) {e : FamilyEvent}
    (h : s.step e = some s') : s'.Offered config := by
  have hnodup' := hnodup.sublist hs.sublist
  cases step_cases h with
  | own e system hstep =>
    cases System.step_cases hstep with
    | pump e out =>
      obtain ⟨pump, cast⟩ := out
      cases cast <;> exact hs.of_same rfl ⟨rfl, rfl⟩ fun hexit => hexit
    | announcePump =>
      exact hs.of_same (tell_targets _ _).1 ⟨rfl, rfl⟩ fun hexit => (tell_fields _ _).1 ▸ hexit
    | reportPump exit =>
      exact hs.of_same (tell_targets _ _).1 ⟨rfl, rfl⟩ fun hexit => (tell_fields _ _).1 ▸ hexit
    | handle results msg rest hexit hstop =>
      have hoffers := offersTo_handle (s := { s.system.mux with queue := rest }) hexit hstop
        hnodup' results msg
      have htargets := targets_handle (s := { s.system.mux with queue := rest }) hexit hstop
        results msg
      refine ⟨htargets.trans hs.sublist, fun _ target hpresent => ?_, fun target htarget => ?_⟩
      · -- a target that is left was there before
        have hold : target ∈ s.system.mux.targets := htargets.subset hpresent
        have hmsg : [msg].reduceOption = msg.toList := by cases msg <;> rfl
        simp only [System.muxHandled, offersTo_append, List.map_append, hoffers target,
          if_pos hold, hs.present hexit target hold, List.reduceOption_append, hmsg]
      · exact hs.all_of_handle hexit target htarget (hoffers target ▸ List.prefix_rfl)
    | supervise evt =>
      refine hs.of_same ?_ ⟨rfl, rfl⟩ fun hlive => ?_
      · cases evt <;> rfl
      · cases evt with
        | actorFailed who what => exact absurd hlive (Option.some_ne_none _)
        | _ => exact hlive
    | takeStop => exact hs.of_same rfl ⟨rfl, rfl⟩ fun hlive => absurd hlive (Option.some_ne_none _)
    | killPump => exact hs.of_same rfl ⟨rfl, rfl⟩ fun hexit => hexit
  | stopMux reason =>
    unfold MuxActor.stop
    split <;> exact hs.of_same rfl ⟨rfl, rfl⟩ fun hexit => hexit
  | killMux =>
    unfold MuxActor.kill
    split
    · exact hs.of_same rfl ⟨rfl, rfl⟩ fun hlive => absurd hlive (Option.some_ne_none _)
    · exact hs.of_same rfl ⟨rfl, rfl⟩ fun hexit => hexit
  | stopPump | killPump | streamPanics => exact hs.of_same rfl ⟨rfl, rfl⟩ fun hexit => hexit
  | handlerPanics results n what msg rest hexit hstop =>
    have hoffers := offersTo_handle (s := { s.system.mux with queue := rest }) hexit hstop
      hnodup' results msg
    refine ⟨hs.sublist, fun hlive => absurd hlive (Option.some_ne_none _), fun target htarget => ?_⟩
    refine hs.all_of_handle hexit target htarget (hoffers target ▸ ?_)
    -- the first calls of a handler make the first offers
    exact ((List.take_prefix n _).filterMap _).map _

end Offered

/-! ## Every run of the two actors ends -/

/-- **The measure.** A step of the two actors leaves them fewer steps. -/
theorem load_lt_of_step {s s' : Family X} {e : FamilyEvent} (he : e.isOwn = true)
    (h : s.step e = some s') : s'.system.load < s.system.load := by
  cases step_cases h with
  | own e system hstep => exact Mux.load_lt_of_step hstep
  | stopMux | killMux | stopPump | killPump | streamPanics | handlerPanics => cases he

/-! ## Where no step is left -/

/-- What every state of a family keeps. -/
theorem kept_of_run {config : StreamMuxConfiguration X} {es : List FamilyEvent} {s : Family X}
    (h : exec step (preStart config) es = some s) : s.Flowing config ∧ s.Sound := by
  refine exec_invariant (P := fun s => s.Flowing config ∧ s.Sound) h
    ⟨flowing_preStart config, sound_preStart config⟩ ?_
  rintro s e s' ⟨hflow, hs⟩ hstep
  exact ⟨hflow.step hstep, hs.step hflow.rounds hstep⟩

/-- While the pump runs, one of the two actors can take a step. -/
theorem Flowing.enabled {config : StreamMuxConfiguration X} {s : Family X}
    (hs : s.Flowing config) (hexit : s.system.pump.exit = none) :
    ∃ e, (s.system.step e).isSome = true := by
  obtain ⟨e, hown, henabled⟩ :=
    hs.rounds.enabled hexit id (decide (s.system.mux.exit = none))
  refine ⟨.pump e, ?_⟩
  simp only [System.step, hown, if_true, Option.isSome_map]
  exact henabled

/-- A multiplexer that runs while no step is left waits for a pump that somebody else stopped. -/
theorem asked_of_stuck {config : StreamMuxConfiguration X} {s : Family X}
    (hflow : s.Flowing config) (hs : s.Sound) (hstuck : ∀ e, s.system.step e = none)
    (hexit : s.system.mux.exit = none) :
    s.pumpAsked = true ∧ none ∉ s.system.handled := by
  have hpump : ∃ exit, s.system.pump.exit = some exit := by
    refine Option.ne_none_iff_exists'.mp fun hnone => ?_
    obtain ⟨e, henabled⟩ := hflow.enabled hnone
    rw [hstuck e] at henabled
    cases henabled
  obtain ⟨exit, hpump⟩ := hpump
  have hstop : s.system.mux.stopping = none := by
    by_contra hne
    obtain ⟨reason, hsome⟩ := Option.ne_none_iff_exists'.mp hne
    have hnone := hstuck .takeStop
    simp [System.step, hexit, hsome] at hnone
  have hsup : s.system.mux.supervision = [] := by
    cases hsup : s.system.mux.supervision with
    | nil => rfl
    | cons evt rest =>
      have hnone := hstuck .supervise
      simp [System.step, hexit, hstop, hsup] at hnone
  have hqueue : s.system.mux.queue = [] := by
    cases hqueue : s.system.mux.queue with
    | nil => rfl
    | cons msg rest =>
      have hnone := hstuck (.handle fun _ => .ok ())
      simp [System.step, hexit, hstop, hsup, hqueue] at hnone
  have hreported : s.system.pumpReported = true := by
    by_contra hnot
    rw [Bool.not_eq_true] at hnot
    have hnone := hstuck .reportPump
    simp [System.step, hpump, hnot] at hnone
  obtain ⟨-, hnoNone⟩ := hs.running hexit hstop
  refine ⟨?_, hnoNone⟩
  by_contra hasked
  rw [Bool.not_eq_true] at hasked
  have hway : ¬ s.system.pump.OnItsWay := by
    rintro ⟨hlive, -⟩
    rw [hpump] at hlive
    cases hlive
  -- the end marker or the failure of the pump would have reached the multiplexer
  rcases hflow.marker hexit hasked hway with hmarker | ⟨what, hfailed⟩
  · rw [hqueue, List.append_nil] at hmarker
    exact hnoNone hmarker
  · obtain ⟨who, hmem⟩ := hs.heard hexit hstop hreported what hfailed
    rw [hsup] at hmem
    cases hmem

/-- **The multiplexer under faults.** In every run of the multiplexer with its pump, whichever of
them is stopped or killed from outside and whatever panics: the messages handled are the first of
the stream, in order; each target was offered, in order, the first items of the stream; the end
was announced at most once, as the last call; a multiplexer that has failed did so with a panic
that occurred, and one that has stopped has announced the end or was asked to stop. -/
theorem mux_survives_faults {config : StreamMuxConfiguration X} (hnodup : config.targets.Nodup)
    {es : List FamilyEvent} {s : Family X} (h : exec step (preStart config) es = some s) :
    s.system.handled <+: config.messages ∧
      (∀ target ∈ config.targets,
        (offersTo target s.system.calls).map (·.1) <+: config.stream) ∧
      (.endOfStream ∉ s.system.calls ∨ EndLast s.system.calls) ∧
      (∀ what, s.system.mux.exit = some (.failed what) → what ∈ s.panics) ∧
      (∀ reason, s.system.mux.exit = some (.terminated reason) →
        EndLast s.system.calls ∨ s.muxAsked = true) := by
  obtain ⟨hflow, hs⟩ := kept_of_run h
  have hoffered : s.Offered config :=
    exec_invariant h (offered_preStart config) fun _ _ _ hs hstep => hs.step hnodup hstep
  refine ⟨hflow.past, fun target htarget => ?_, hs.calls, hs.muxFailed, hs.muxEnded⟩
  -- the items handled are the first of the stream
  have hitems : s.system.handled.reduceOption <+: config.messages.reduceOption :=
    hflow.past.filterMap id
  have hstream : config.messages.reduceOption = config.stream := by
    rw [StreamMuxConfiguration.messages, List.reduceOption_append]
    simp [List.reduceOption]
  rw [hstream] at hitems
  exact (hoffered.all target htarget).trans hitems

/-- The second of two targets panics at the second item. -/
theorem mux_survives_faults_panic :
    ∃ s : Family ℕ, exec step (preStart ⟨[1, 2], [⟨"a", 0⟩, ⟨"b", 1⟩], false⟩)
        [.own (.pump .handle), .own (.pump .next), .own (.pump .handle), .own (.pump .next),
          .own (.handle fun _ => .ok ()), .handlerPanics (fun _ => .ok ()) 1 (.message "boom")] =
        some s ∧
      s.system.mux.exit = some (.failed (.message "boom")) ∧
      .message "boom" ∈ s.panics ∧
      (offersTo ⟨"a", 0⟩ s.system.calls).map (·.1) <+: [1, 2] := by
  have hrun : (exec step (preStart (X := ℕ) ⟨[1, 2], [⟨"a", 0⟩, ⟨"b", 1⟩], false⟩)
      [.own (.pump .handle), .own (.pump .next), .own (.pump .handle), .own (.pump .next),
        .own (.handle fun _ => .ok ()), .handlerPanics (fun _ => .ok ()) 1 (.message "boom")]).any
      (fun s => s.system.mux.exit = some (.failed (.message "boom"))) = true := by decide
  obtain ⟨s, hs, hexit⟩ := (Option.any_eq_true _ _).mp hrun
  obtain ⟨-, hoffers, -, hfailed, -⟩ := mux_survives_faults (by decide) hs
  exact ⟨s, hs, of_decide_eq_true hexit, hfailed _ (of_decide_eq_true hexit),
    hoffers _ List.mem_cons_self⟩

/-- **The multiplexer comes to rest.** From every state of a run, whatever was stopped or killed
and whatever has panicked, the two actors take a bounded number of steps by themselves. Where none
is left, the pump has ended, and so has the multiplexer, unless somebody else stopped the pump
before the end of its stream. -/
theorem mux_comes_to_rest {config : StreamMuxConfiguration X} {es : List FamilyEvent}
    {s : Family X} (h : exec step (preStart config) es = some s) :
    Attains step (fun _ e => e.isOwn = true) s fun s' =>
      s'.system.pump.exit ≠ none ∧
        (s'.system.mux.exit ≠ none ∨ s'.pumpAsked = true ∧ none ∉ s'.system.handled) := by
  refine attains_of_measure (I := fun s => s.Flowing config ∧ s.Sound)
    (fun s => s.system.load) (kept_of_run h) ?_ ?_ ?_
  · rintro s₁ e s₂ ⟨hflow, hs⟩ - hstep
    exact ⟨hflow.step hstep, hs.step hflow.rounds hstep⟩
  · rintro s₁ e s₂ - he hstep
    exact load_lt_of_step he hstep
  · rintro s₁ ⟨hflow, hs⟩ hmax
    have hstuck (e : Event) : s₁.system.step e = none := by
      have hnone := hmax (.own e) rfl
      simpa only [step, Option.map_eq_none_iff] using hnone
    refine ⟨fun hexit => ?_, ?_⟩
    · obtain ⟨e, henabled⟩ := hflow.enabled hexit
      rw [hstuck e] at henabled
      cases henabled
    · by_cases hexit : s₁.system.mux.exit = none
      · exact Or.inr (asked_of_stuck hflow hs hstuck hexit)
      · exact Or.inl hexit

/-- Nothing is left to be done once the pump has ended and its events were taken. -/
theorem step_eq_none_of_waiting {s : System X} (hpump : s.pump.exit ≠ none)
    (hposted : s.pumpAnnounced = true ∧ s.pumpReported = true)
    (hmux : s.mux.exit = none ∧ s.mux.stopping = none ∧ s.mux.supervision = [] ∧
      s.mux.queue = []) (e : Event) : s.step e = none := by
  obtain ⟨hexit, hstop, hsup, hqueue⟩ := hmux
  cases hstep : s.step e with
  | none => rfl
  | some s' =>
    cases System.step_cases hstep with
    | pump e out hown hpumpStep =>
      obtain ⟨exit, hended⟩ := Option.ne_none_iff_exists'.mp hpump
      rw [Pump.step_of_exit hended hown] at hpumpStep
      cases hpumpStep
    | announcePump hnew =>
      rw [hposted.1] at hnew
      cases hnew
    | reportPump _ _ hnew =>
      rw [hposted.2] at hnew
      cases hnew
    | handle _ _ _ _ _ _ hsome =>
      rw [hqueue] at hsome
      cases hsome
    | supervise _ _ _ _ hsome =>
      rw [hsup] at hsome
      cases hsome
    | takeStop _ _ hsome =>
      rw [hstop] at hsome
      cases hsome
    | killPump hended => exact absurd hexit hended

/-- The pump is stopped while it waits for the only item of the stream. The multiplexer handles the
item, ignores the end of its pump and waits for ever. -/
theorem mux_comes_to_rest_stopped :
    ∃ s : Family ℕ, exec step (preStart ⟨[1], [⟨"a", 0⟩], false⟩)
        [.own .announcePump, .own (.pump .handle), .stopPump none, .own (.pump .next),
          .own (.pump .takeStop), .own .reportPump, .own .supervise, .own .supervise,
          .own (.handle fun _ => .ok ())] = some s ∧
      s.system.mux.exit = none ∧ s.system.pump.exit ≠ none ∧
      (s.system.mux.exit ≠ none ∨ s.pumpAsked = true ∧ none ∉ s.system.handled) := by
  have hrun : (exec step (preStart (X := ℕ) ⟨[1], [⟨"a", 0⟩], false⟩)
      [.own .announcePump, .own (.pump .handle), .stopPump none, .own (.pump .next),
        .own (.pump .takeStop), .own .reportPump, .own .supervise, .own .supervise,
        .own (.handle fun _ => .ok ())]).any
      (fun s => decide (s.system.pump.exit ≠ none ∧
        (s.system.pumpAnnounced = true ∧ s.system.pumpReported = true) ∧
        s.system.mux.exit = none ∧ s.system.mux.stopping = none ∧
        s.system.mux.supervision = [] ∧ s.system.mux.queue = [])) = true := by decide
  obtain ⟨s, hs, hpost⟩ := (Option.any_eq_true _ _).mp hrun
  obtain ⟨hpump, hposted, hmux⟩ := of_decide_eq_true hpost
  -- no step is left
  obtain ⟨n, hn⟩ := mux_comes_to_rest hs
  refine ⟨s, hs, hmux.1, (hn [] s (Run.nil s)).2 fun e he => ?_⟩
  cases e with
  | own e => simp only [step, step_eq_none_of_waiting hpump hposted hmux e, Option.map_none]
  | _ => cases he

end Family

end Mux

end RactorActors.Streams
