import RactorActors.Foundations.LabelledRun
import RactorActors.Streams.Pump

/-!
# The loop actor

The `Loop` actor of `streams/looping/mod.rs` over any `Operation`, with states of any type `S`.
What a call of `Operation::work` makes of the state and what it returns is chosen by the
environment, and so are the panics, the stops and the kills, and the further messages that the
holder of the actor's cell may send.

* `Loop.Kept` and `work_calls_chained`: whatever happens, the calls of `work` follow one another,
  each on the state that the one before has left, and none follows the end or an error;
* `Iterates`: the loop `while let Continue = work(&mut state)? {}` as a relation, and
  `loop_iterates_iff`: an undisturbed actor stops by itself exactly if this loop ends, in the same
  state and with the same result;
* `Loop.step_of_pump`: the pump is such a loop, over a `Streamer`.
-/

namespace RactorActors.Streams

open LabelledRun

/-- A call of `Operation::work` that has returned. -/
structure Work (S : Type) where
  before : S
  after : S
  result : Except ActorProcessingErr IterationResult

/-- A loop actor. -/
structure Loop (S : Type) where
  /-- The state of the operation. -/
  state : S
  /-- The handler waits for `work`. -/
  working : Bool
  queue : List Unit
  /-- A stop, with its reason, that was sent to the actor and not taken yet. -/
  stopping : Option (Option String)
  /-- How the actor ended, if it has. -/
  exit : Option Exit
  /-- The calls of `work` that have returned, in order. No handler looks at them. -/
  calls : List (Work S)

/-- The events of a loop actor. -/
inductive LoopEvent (S : Type)
  /-- The actor takes the next message and calls `work`. -/
  | handle
  /-- `work` returns. -/
  | returns (after : S) (result : Except ActorProcessingErr IterationResult)
  /-- `work` panics. -/
  | panics (what : ActorProcessingErr)
  /-- Somebody sends the actor a message. -/
  | post
  /-- `stop` is called on the actor. -/
  | stop (reason : Option String)
  /-- The actor takes a pending stop. -/
  | takeStop
  /-- `kill` is called on the actor, or its supervisor ends. -/
  | kill

namespace Loop

variable {S : Type}

/-- `Loop::pre_start` -/
def preStart (istate : S) : Loop S where
  state := istate
  working := false
  queue := [()]
  stopping := none
  exit := none
  calls := []

/-- The actor ends. -/
def finish (s : Loop S) (exit : Exit) : Loop S :=
  { s with working := false, queue := [], exit := some exit }

/-- `ActorRef::stop`. Only the first stop of an actor counts. -/
def stop (s : Loop S) (reason : Option String) : Loop S :=
  match s.exit, s.stopping with
  | none, none => { s with stopping := some reason }
  | _, _ => s

/-- `ActorRef::kill` -/
def kill (s : Loop S) : Loop S :=
  match s.exit with
  | none => s.finish (.terminated (some "killed"))
  | some _ => s

/-- `Loop::handle`, once `work` has returned. -/
def worked (s : Loop S) (after : S) (result : Except ActorProcessingErr IterationResult) :
    Loop S :=
  let s := { s with state := after, calls := s.calls ++ [Work.mk s.state after result] }
  match result with
  | .ok .Continue => { s with working := false, queue := s.queue ++ [()] }
  | .ok .End => { s with working := false }.stop none
  | .error err => s.finish (.failed err)

/-- One step of a loop actor. -/
def step (s : Loop S) : LoopEvent S → Option (Loop S)
  | .handle =>
    -- a pending stop comes before the messages
    match s.exit, s.working, s.stopping, s.queue with
    | none, false, none, () :: rest => some { s with working := true, queue := rest }
    | _, _, _, _ => none
  | .returns after result =>
    match s.exit, s.working with
    | none, true => some (s.worked after result)
    | _, _ => none
  | .panics what =>
    match s.exit, s.working with
    | none, true => some (s.finish (.failed what))
    | _, _ => none
  | .post =>
    match s.exit with
    | none => some { s with queue := s.queue ++ [()] }
    -- the mailbox is closed
    | some _ => some s
  | .stop reason => some (s.stop reason)
  | .takeStop =>
    -- not while the handler waits for `work`
    match s.exit, s.working, s.stopping with
    | none, false, some reason => some (s.finish (.terminated reason))
    | _, _, _ => none
  | .kill => some s.kill

/-! ## What a step can do -/

/-- Everything that one step of a loop actor can do. -/
inductive StepCase (s : Loop S) : LoopEvent S → Loop S → Prop
  | handle (rest : List Unit) (hexit : s.exit = none) (hidle : s.working = false)
      (hstop : s.stopping = none) (hqueue : s.queue = () :: rest) :
      StepCase s .handle { s with working := true, queue := rest }
  | returns (after : S) (result : Except ActorProcessingErr IterationResult)
      (hexit : s.exit = none) (hwork : s.working = true) :
      StepCase s (.returns after result) (s.worked after result)
  | panics (what : ActorProcessingErr) (hexit : s.exit = none) (hwork : s.working = true) :
      StepCase s (.panics what) (s.finish (.failed what))
  | post (hexit : s.exit = none) : StepCase s .post { s with queue := s.queue ++ [()] }
  | lost (hexit : s.exit ≠ none) : StepCase s .post s
  | stop (reason : Option String) : StepCase s (.stop reason) (s.stop reason)
  | takeStop (reason : Option String) (hexit : s.exit = none) (hidle : s.working = false)
      (hstop : s.stopping = some reason) :
      StepCase s .takeStop (s.finish (.terminated reason))
  | kill (hexit : s.exit = none) :
      StepCase s .kill (s.finish (.terminated (some "killed")))
  | late (hexit : s.exit ≠ none) : StepCase s .kill s

/-- **Step inversion.** -/
theorem step_cases {s s' : Loop S} {e : LoopEvent S} (h : s.step e = some s') :
    StepCase s e s' := by
  cases e with
  | handle =>
    simp only [step] at h
    split at h
    · rename_i rest hexit hidle hstop hqueue
      rw [Option.some.injEq] at h
      exact h ▸ StepCase.handle rest hexit hidle hstop hqueue
    · cases h
  | returns after result =>
    simp only [step] at h
    split at h
    · rename_i hexit hwork
      rw [Option.some.injEq] at h
      exact h ▸ StepCase.returns after result hexit hwork
    · cases h
  | panics what =>
    simp only [step] at h
    split at h
    · rename_i hexit hwork
      rw [Option.some.injEq] at h
      exact h ▸ StepCase.panics what hexit hwork
    · cases h
  | post =>
    simp only [step] at h
    split at h <;> rw [Option.some.injEq] at h
    · rename_i hexit
      exact h ▸ StepCase.post hexit
    · rename_i exit hexit
      exact h ▸ StepCase.lost (by rw [hexit]; exact Option.some_ne_none exit)
  | stop reason =>
    simp only [step, Option.some.injEq] at h
    exact h ▸ StepCase.stop reason
  | takeStop =>
    simp only [step] at h
    split at h
    · rename_i reason hexit hidle hstop
      rw [Option.some.injEq] at h
      exact h ▸ StepCase.takeStop reason hexit hidle hstop
    · cases h
  | kill =>
    simp only [step, kill, Option.some.injEq] at h
    split at h
    · rename_i hexit
      exact h ▸ StepCase.kill hexit
    · rename_i exit hexit
      exact h ▸ StepCase.late (by rw [hexit]; exact Option.some_ne_none exit)

/-! ## The calls of the operation -/

/-- The calls follow one another: each begins in the state that the one before has left. -/
def Chained : S → List (Work S) → S → Prop
  | first, [], last => first = last
  | first, call :: calls, last => call.before = first ∧ Chained call.after calls last

theorem chained_append {first mid last : S} {calls calls' : List (Work S)}
    (h : Chained first calls mid) (h' : Chained mid calls' last) :
    Chained first (calls ++ calls') last := by
  induction calls generalizing first with
  | nil =>
    obtain rfl : first = mid := h
    exact h'
  | cons call calls ih => exact ⟨h.1, ih h.2⟩

/-- What the result of the last call has done to the actor. -/
def Settles (s : Loop S) : Except ActorProcessingErr IterationResult → Prop
  | .ok .Continue => True
  | .ok .End => s.working = false ∧ (s.exit = none → s.stopping ≠ none)
  | .error err => s.exit = some (.failed err)

/-- What every step keeps. -/
structure Kept (istate : S) (s : Loop S) : Prop where
  chained : Chained istate s.calls s.state
  /-- Every call but the last one has asked for the next. -/
  going : ∀ before call, s.calls = before ++ [call] →
    (∀ call' ∈ before, call'.result = .ok .Continue) ∧ s.Settles call.result

/-- A step in which no call returns, and which takes back neither an end nor an error. -/
theorem Kept.of_same {istate : S} {s s' : Loop S} (hs : s.Kept istate)
    (hstate : s'.state = s.state) (hcalls : s'.calls = s.calls)
    (hsettles : ∀ result, s.Settles result → s'.Settles result) : s'.Kept istate where
  chained := hstate ▸ hcalls ▸ hs.chained
  going := by
    intro before call hcall
    rw [hcalls] at hcall
    obtain ⟨hgoing, hlast⟩ := hs.going before call hcall
    exact ⟨hgoing, hsettles _ hlast⟩

/-- An actor that ends in a state in which it had no error keeps what the last call has done. -/
theorem settles_finish {s : Loop S} (hexit : s.exit = none) (exit : Exit)
    (result : Except ActorProcessingErr IterationResult) (h : s.Settles result) :
    (s.finish exit).Settles result := by
  rcases result with err | ⟨⟨⟩⟩
  · exact absurd (hexit.symm.trans h) (by simp)
  · trivial
  · exact ⟨rfl, fun hnone => absurd hnone (Option.some_ne_none exit)⟩

/-- Once `work` has returned, the actor is as the result says. -/
theorem settles_worked {s : Loop S} (hexit : s.exit = none) (after : S)
    (result : Except ActorProcessingErr IterationResult) :
    (s.worked after result).Settles result ∧ (s.worked after result).state = after ∧
      (s.worked after result).calls = s.calls ++ [⟨s.state, after, result⟩] := by
  rcases result with err | ⟨⟨⟩⟩
  · exact ⟨rfl, rfl, rfl⟩
  · exact ⟨trivial, rfl, rfl⟩
  · simp only [worked, Loop.stop, hexit]
    cases s.stopping with
    | none => exact ⟨⟨rfl, fun _ => Option.some_ne_none none⟩, rfl, rfl⟩
    | some reason => exact ⟨⟨rfl, fun _ => Option.some_ne_none reason⟩, rfl, rfl⟩

/-- While a call is under way, every call before it has asked for the next. -/
theorem Kept.continued {istate : S} {s : Loop S} (hs : s.Kept istate) (hexit : s.exit = none)
    (hwork : s.working = true) : ∀ call ∈ s.calls, call.result = .ok .Continue := by
  rcases List.eq_nil_or_concat s.calls with hnil | ⟨before, last, hcalls⟩
  · intro call hcall
    rw [hnil] at hcall
    cases hcall
  · rw [List.concat_eq_append] at hcalls
    obtain ⟨hgoing, hlast⟩ := hs.going before last hcalls
    intro call hcall
    rw [hcalls, List.mem_append, List.mem_singleton] at hcall
    rcases hcall with hcall | rfl
    · exact hgoing call hcall
    · -- neither an end nor an error lets the actor go on working
      unfold Settles at hlast
      split at hlast
      · assumption
      · rw [hwork] at hlast
        cases hlast.1
      · rw [hexit] at hlast
        cases hlast

/-- **Step lemma.** -/
theorem Kept.step {istate : S} {s s' : Loop S} {e : LoopEvent S} (hs : s.Kept istate)
    (h : s.step e = some s') : s'.Kept istate := by
  cases step_cases h with
  | handle rest hexit hidle hstop =>
    -- the handler is not called after the end
    refine hs.of_same rfl rfl fun result hsettles => ?_
    rcases result with err | ⟨⟨⟩⟩
    · exact hsettles
    · trivial
    · exact absurd hstop (hsettles.2 hexit)
  | returns after result hexit hwork =>
    obtain ⟨hsettles, hstate, hcalls⟩ := settles_worked hexit after result
    refine ⟨?_, fun before call hcall => ?_⟩
    · rw [hstate, hcalls]
      exact chained_append hs.chained ⟨rfl, rfl⟩
    · rw [hcalls] at hcall
      obtain ⟨rfl, hlast⟩ := List.append_inj' hcall rfl
      rw [List.cons.injEq] at hlast
      obtain ⟨rfl, -⟩ := hlast
      exact ⟨hs.continued hexit hwork, hsettles⟩
  | panics what hexit | takeStop reason hexit | kill hexit =>
    exact hs.of_same rfl rfl (settles_finish hexit _)
  | post hexit => exact hs.of_same rfl rfl fun result hsettles => hsettles
  | lost | late => exact hs
  | stop reason =>
    unfold Loop.stop
    split
    · refine hs.of_same rfl rfl fun result hsettles => ?_
      rcases result with err | ⟨⟨⟩⟩
      · exact hsettles
      · trivial
      · exact ⟨hsettles.1, fun _ => Option.some_ne_none reason⟩
    · exact hs

end Loop

/-! ## The loop as a program -/

section Iterates

variable {S : Type} (work : S → S × Except ActorProcessingErr IterationResult)

/-- The loop `while let Continue = work(&mut state)? {}` takes the state `s` to `t`, and gives the
result of its last call. -/
inductive Iterates : S → S → Except ActorProcessingErr Unit → Prop
  | done {s t : S} (h : work s = (t, .ok .End)) : Iterates s t (.ok ())
  | failed {s t : S} {err : ActorProcessingErr} (h : work s = (t, .error err)) :
      Iterates s t (.error err)
  | again {s t u : S} {result : Except ActorProcessingErr Unit}
      (h : work s = (t, .ok .Continue)) (hrest : Iterates t u result) : Iterates s u result

/-- How an actor ends that returns the result. -/
def exitOf : Except ActorProcessingErr Unit → Exit
  | .ok () => .terminated none
  | .error err => .failed err

theorem exitOf_injective : Function.Injective exitOf := by
  rintro (err | ⟨⟨⟩⟩) (err' | ⟨⟨⟩⟩) h
  · rw [exitOf, exitOf, Exit.failed.injEq] at h
    rw [h]
  · cases h
  · cases h
  · rfl

namespace Loop

/-- The steps of a loop actor over `work` that nobody disturbs. -/
def Undisturbed (s : Loop S) : LoopEvent S → Prop
  | .handle => True
  | .returns after result => work s.state = (after, result)
  | .takeStop => True
  | _ => False

/-- The actor has ended with the result, in the state. -/
def EndsIn (t : S) (result : Except ActorProcessingErr Unit) (s : Loop S) : Prop :=
  s.state = t ∧ s.exit = some (exitOf result)

variable {work}

/-- An actor that has ended takes no step of its own. -/
theorem attains_of_exit {s : Loop S} {t : S} {result : Except ActorProcessingErr Unit}
    (h : s.EndsIn t result) : Attains step (Undisturbed work) s (EndsIn t result) := by
  refine attains_of_stuck (fun e hown => ?_) h
  cases hstep : s.step e with
  | none => rfl
  | some s' =>
    have hended {P : Prop} (hexit : s.exit = none) : P := by
      cases hexit.symm.trans h.2
    cases step_cases hstep with
    | handle _ hexit | returns _ _ hexit | takeStop _ hexit => exact hended hexit
    | panics | post | lost | stop | kill | late => cases hown

/-- An undisturbed actor that waits to call `work` next. -/
structure Waits (state : S) (s : Loop S) : Prop where
  state_eq : s.state = state
  exit : s.exit = none
  idle : s.working = false
  stopping : s.stopping = none
  queue : s.queue = [()]

/-- **One round.** Where an undisturbed actor gets to that waits to call `work`. -/
theorem attains_of_round {s : Loop S} {state after : S}
    {result : Except ActorProcessingErr IterationResult} {P : Loop S → Prop}
    (hs : s.Waits state) (hwork : work state = (after, result))
    (h : Attains step (Undisturbed work)
      ({ s with working := true, queue := [] }.worked after result) P) :
    Attains step (Undisturbed work) s P := by
  -- the actor takes its message
  refine Attains.of_next (e := .handle) (t := { s with working := true, queue := [] }) trivial ?_
    ?_ ?_
  · simp only [step, hs.exit, hs.idle, hs.stopping, hs.queue]
  · intro e t' hown hstep
    cases step_cases hstep with
    | handle rest _ _ _ hqueue =>
      rw [hs.queue, List.cons.injEq] at hqueue
      rw [hqueue.2]
    | returns _ _ _ hworking =>
      rw [hs.idle] at hworking
      cases hworking
    | takeStop _ _ _ hstop =>
      rw [hs.stopping] at hstop
      cases hstop
    | panics | post | lost | stop | kill | late => cases hown
  · -- and the call returns
    refine Attains.of_next (e := .returns after result) ?_ ?_ ?_ h
    · exact (congrArg work hs.state_eq).trans hwork
    · simp only [step, hs.exit]
    · intro e t' hown hstep
      cases step_cases hstep with
      | handle _ _ hidle | takeStop _ _ hidle => cases hidle
      | returns after' result' =>
        have heq : (after', result') = (after, result) := by
          rw [← hwork, ← hs.state_eq]
          exact hown.symm
        rw [Prod.mk.injEq] at heq
        rw [heq.1, heq.2]
      | panics | post | lost | stop | kill | late => cases hown

/-- An actor that was told to stop ends. -/
theorem attains_of_stopping {s : Loop S} {t : S} (hstate : s.state = t) (hexit : s.exit = none)
    (hidle : s.working = false) (hstop : s.stopping = some none) :
    Attains step (Undisturbed work) s (EndsIn t (.ok ())) := by
  refine Attains.of_next (e := .takeStop) (t := s.finish (.terminated none)) trivial ?_ ?_
    (attains_of_exit ⟨hstate, rfl⟩)
  · simp only [step, hexit, hidle, hstop]
  · intro e t' hown hstep
    cases step_cases hstep with
    | handle _ _ _ hnone =>
      rw [hstop] at hnone
      cases hnone
    | returns _ _ _ hworking =>
      rw [hidle] at hworking
      cases hworking
    | takeStop reason _ _ hsome =>
      rw [hstop, Option.some.injEq] at hsome
      rw [hsome]
    | panics | post | lost | stop | kill | late => cases hown

/-- An actor whose loop ends comes to its end. -/
theorem attains_of_iterates {state t : S} {result : Except ActorProcessingErr Unit}
    (h : Iterates work state t result) {s : Loop S} (hs : s.Waits state) :
    Attains step (Undisturbed work) s (EndsIn t result) := by
  induction h generalizing s with
  | done hwork =>
    refine attains_of_round hs hwork (attains_of_stopping ?_ ?_ ?_ ?_)
    all_goals simp only [worked, Loop.stop, hs.exit, hs.stopping]
  | failed hwork => exact attains_of_round hs hwork (attains_of_exit ⟨rfl, rfl⟩)
  | again hwork _ ih =>
    exact attains_of_round hs hwork (ih ⟨rfl, hs.exit, rfl, hs.stopping, rfl⟩)

/-- What an undisturbed actor has come to of its loop, which began in `istate`. -/
structure Reached (work : S → S × Except ActorProcessingErr IterationResult) (istate : S)
    (s : Loop S) : Prop where
  running : s.exit = none → s.stopping = none →
    ∀ t result, Iterates work s.state t result → Iterates work istate t result
  ending : s.exit = none → s.stopping ≠ none →
    s.working = false ∧ s.stopping = some none ∧ Iterates work istate s.state (.ok ())
  ended : ∀ result, s.exit = some (exitOf result) → Iterates work istate s.state result

/-- **Step lemma.** -/
theorem Reached.step {istate : S} {s s' : Loop S} {e : LoopEvent S}
    (hs : s.Reached work istate) (hown : s.Undisturbed work e) (h : s.step e = some s') :
    s'.Reached work istate := by
  cases step_cases h with
  | handle rest hexit hidle hstop =>
    exact ⟨hs.running, fun _ hne => absurd hstop hne, hs.ended⟩
  | returns after result hexit hwork =>
    have hstop : s.stopping = none := by
      by_contra hne
      rw [(hs.ending hexit hne).1] at hwork
      cases hwork
    have hloop := hs.running hexit hstop
    rcases result with err | ⟨⟨⟩⟩
    · refine ⟨fun hnone => ?_, fun hnone => ?_, fun result hresult => ?_⟩
      · cases hnone
      · cases hnone
      · obtain rfl : .error err = result := exitOf_injective (Option.some.inj hresult)
        exact hloop _ _ (Iterates.failed hown)
    · refine ⟨fun _ _ t result hrest => hloop t result (Iterates.again hown hrest),
        fun _ hne => absurd hstop hne, fun result hresult => ?_⟩
      rw [show (s.worked after (.ok .Continue)).exit = s.exit from rfl, hexit] at hresult
      cases hresult
    · have hworked : s.worked after (.ok .End) =
          { s with
            state := after, calls := s.calls ++ [⟨s.state, after, .ok .End⟩], working := false
            stopping := some none } := by
        simp only [worked, Loop.stop, hexit, hstop]
      rw [hworked]
      refine ⟨fun _ hnone => ?_, fun _ _ => ⟨rfl, rfl, hloop _ _ (Iterates.done hown)⟩,
        fun result hresult => ?_⟩
      · cases hnone
      · rw [show s.exit = some (exitOf result) from hresult] at hexit
        cases hexit
  | takeStop reason hexit _ hstop =>
    obtain ⟨-, hreason, hloop⟩ := hs.ending hexit (by rw [hstop]; exact Option.some_ne_none reason)
    obtain rfl : reason = none := Option.some.inj (hstop.symm.trans hreason)
    refine ⟨fun hnone => ?_, fun hnone => ?_, fun result hresult => ?_⟩
    · cases hnone
    · cases hnone
    · obtain rfl : .ok () = result := exitOf_injective (Option.some.inj hresult)
      exact hloop
  | panics | post | lost | stop | kill | late => cases hown

theorem reached_preStart (istate : S) : (preStart istate).Reached work istate where
  running := fun _ _ _ _ h => h
  ending := fun _ hne => absurd rfl hne
  ended := fun _ hended => by cases hended

/-- **The actor is the loop.** An actor over `work` that nobody disturbs comes, in a bounded number
of steps, to an end in the state `t` with the result `result` exactly if the loop over `work`
takes the initial state to `t` with that result. -/
theorem loop_iterates_iff (work : S → S × Except ActorProcessingErr IterationResult) (istate t : S)
    (result : Except ActorProcessingErr Unit) :
    Iterates work istate t result ↔
      Attains step (Undisturbed work) (preStart istate) (EndsIn t result) := by
  constructor
  · intro h
    exact attains_of_iterates h ⟨rfl, rfl, rfl, rfl, rfl⟩
  · intro h
    obtain ⟨es, s, hrun, hstate, hexit⟩ := h.exists_run
    have hs : s.Reached work istate :=
      hrun.invariant (reached_preStart istate) fun _ _ _ hs hown hstep => hs.step hown hstep
    exact hstate ▸ hs.ended result hexit

end Loop

end Iterates

/-! ## The pump is a loop -/

/-- The loop actor that a pump is, with the calls that its `Streamer` has made. -/
def Loop.ofPump {X : Type} (s : Pump X) (calls : List (Work (List X))) : Loop (List X) where
  state := s.stream
  working := s.working
  queue := s.queue
  stopping := s.stopping
  exit := s.exit
  calls := calls

/-- What happens to the loop actor when it happens to the pump. -/
def PumpEvent.looping {X T : Type} (fnMap : Option X → T) (receiverOpen : Bool) (s : Pump X) :
    PumpEvent → LoopEvent (List X)
  | .handle => .handle
  | .next =>
    let (stream, _, result) := Streamer.work fnMap receiverOpen s.stream
    .returns stream result
  | .stop reason => .stop reason
  | .takeStop => .takeStop
  | .kill => .kill

/-- **Simulation.** A step of the pump is the step of the loop actor in which `work` returns what
`Streamer::work` does. -/
theorem Loop.step_of_pump {X T : Type} {fnMap : Option X → T} {receiverOpen : Bool} {s : Pump X}
    {e : PumpEvent} {out : Pump X × Option T} (h : s.step fnMap receiverOpen e = some out)
    (calls : List (Work (List X))) :
    ∃ calls', (Loop.ofPump s calls).step (e.looping fnMap receiverOpen s) =
      some (Loop.ofPump out.1 calls') := by
  cases Pump.step_cases h with
  | handle rest hexit hidle hstop hqueue =>
    refine ⟨calls, ?_⟩
    simp only [PumpEvent.looping, Loop.step, Loop.ofPump, hexit, hidle, hstop, hqueue]
  | item x stream hexit hwork hopen hstream =>
    refine ⟨calls ++ [⟨s.stream, stream, .ok .Continue⟩], ?_⟩
    simp only [PumpEvent.looping, Streamer.work, Loop.step, Loop.ofPump, Loop.worked, hexit, hwork,
      hopen, hstream]
    rfl
  | last hexit hwork hopen hstream =>
    refine ⟨calls ++ [⟨s.stream, [], .ok .End⟩], ?_⟩
    simp only [PumpEvent.looping, Streamer.work, Loop.step, Loop.ofPump, Loop.worked, hexit, hwork,
      hopen, hstream, Pump.stop, Loop.stop]
    cases s.stopping <;> rfl
  | closed hexit hwork hclosed =>
    refine ⟨calls ++ [⟨s.stream, s.stream.tail, .error (.messaging .sendErr)⟩], ?_⟩
    simp only [PumpEvent.looping, Streamer.work, Loop.step, Loop.ofPump, Loop.worked, hexit, hwork,
      hclosed]
    rfl
  | stop reason =>
    refine ⟨calls, ?_⟩
    obtain ⟨stream, working, queue, stopping, exit⟩ := s
    cases exit <;> cases stopping <;> rfl
  | takeStop reason hexit hidle hstop =>
    refine ⟨calls, ?_⟩
    simp only [PumpEvent.looping, Loop.step, Loop.ofPump, Loop.finish, Pump.finish, hexit, hidle,
      hstop]
  | kill =>
    refine ⟨calls, ?_⟩
    obtain ⟨stream, working, queue, stopping, exit⟩ := s
    cases exit <;> rfl

end RactorActors.Streams
