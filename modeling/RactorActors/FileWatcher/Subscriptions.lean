import RactorActors.FileWatcher.Impl
import RactorActors.Foundations.AssociationList

/-!
# Subscriptions behave as answered

A client knows of its subscription what it was answered. `receiving` reads the receivers off the
answers alone; the actor sends an event to what its map holds. The two agree as long as no
`Subscribe` puts an object in the place of another: the handler answers `Duplicate` then, and
replaces the object all the same.

* `AsAnswered`: every event went to `receiving`, and no refused request changed the map;
* `keepsObject`: the step replaces no object by another;
* `behaves_as_answered_iff`: a run is `AsAnswered` throughout exactly when every step of it keeps
  the objects;
* `duplicate_replaces`: a second `Subscribe` under one id.
-/

namespace RactorActors.FileWatcher

open LabelledRun AssociationList

variable {Ev : Type}

/-- The handler answered with this result. -/
def Entry.answered (e : Entry Ev) (result : SubscriptionResult) : Bool :=
  e.outcome.replies.any fun reply => decide (reply.2 = result)

/-- The subscriptions that were answered `Ok`, and whose id has had no `Unsubscribe` answered
`Ok` since. -/
def receiving : List (Entry Ev) → List ((_ : ActorId) × FileWatcherSubscriber)
  | [] => []
  | e :: old =>
    match e.msg with
    | .subscribe who subscriber _ =>
      if e.answered .ok then ⟨who, subscriber⟩ :: receiving old else receiving old
    | .unsubscribe who _ =>
      if e.answered .ok then (receiving old).filter (·.1 ≠ who) else receiving old
    | _ => receiving old

/-- The history is as the answers say: an event goes once to each receiver and to nobody else,
and a request answered `Duplicate` or `NotFound` leaves the map as it was. -/
structure AsAnswered (s : System Ev) : Prop where
  delivered : ∀ e old, e :: old <:+ s.history → ∀ watcherEvent, e.msg = .event watcherEvent →
    e.outcome.deliveries.Perm ((receiving old).map fun sub => (sub.2, watcherEvent))
  refused : ∀ e ∈ s.history, e.answered .duplicate = true ∨ e.answered .notFound = true →
    e.outcome.state.subscriptions.entries.Perm e.before.subscriptions.entries

/-- A `Subscribe` finds no object under its id, or the same one. -/
def keeps (state : FileWatcherState) : FileWatcherMessage Ev → Bool
  | .subscribe who subscriber _ =>
    (state.subscriptions.lookup who).all fun present => decide (present = subscriber)
  | _ => true

/-- The step replaces no object by another. -/
def keepsObject (s : System Ev) : Event Ev → Bool
  | .handle msg => s.state.all fun state => keeps state msg
  | .stop => true

/-- The map holds what the answers say. -/
def Agrees (s : System Ev) : Prop :=
  ∀ state, s.state = some state → state.subscriptions.entries.Perm (receiving s.history)

/-! ## One message -/

/-- **The exact condition.** A refused request leaves the map as it was exactly if it puts no
object in the place of another. -/
theorem refused_iff (state : FileWatcherState) (msg : FileWatcherMessage Ev) :
    ((⟨msg, state, handle state msg⟩ : Entry Ev).answered .duplicate = true ∨
        (⟨msg, state, handle state msg⟩ : Entry Ev).answered .notFound = true →
      (handle state msg).state.subscriptions.entries.Perm state.subscriptions.entries) ↔
      keeps state msg = true := by
  cases msg with
  | event watcherEvent => simp [handle, event, keeps]
  | fwError error => simp [handle, filewatcherError, keeps]
  | subscribe who subscriber reply =>
    cases hlookup : state.subscriptions.lookup who with
    | none => simp [handle, subscribe, hlookup, Entry.answered, keeps]
    | some present =>
      have hanswer : (⟨.subscribe who subscriber reply, state,
          handle state (.subscribe who subscriber reply)⟩ : Entry Ev).answered .duplicate =
          true := by
        simp [handle, subscribe, hlookup, Entry.answered]
      have hstate : (handle state (.subscribe who subscriber reply :
          FileWatcherMessage Ev)).state.subscriptions =
          state.subscriptions.insert who subscriber := by
        simp [handle, subscribe, hlookup]
      rw [keeps, hlookup, Option.all_some, decide_eq_true_eq, hstate]
      constructor
      · intro hperm
        -- equal maps have equal objects under `who`
        have hsame := AList.perm_lookup (a := who) (hperm (Or.inl hanswer))
        rw [AList.lookup_insert, hlookup, Option.some.injEq] at hsame
        exact hsame.symm
      · rintro rfl -
        exact entries_insert_perm hlookup
  | unsubscribe who reply =>
    cases hlookup : state.subscriptions.lookup who with
    | some present => simp [handle, unsubscribe, hlookup, Entry.answered, keeps]
    | none =>
      simp [handle, unsubscribe, hlookup, keeps, entries_erase_of_lookup_eq_none hlookup]

/-- If the map held what the answers said, it still does after a message that keeps the
objects. -/
theorem receiving_handle {state : FileWatcherState} {msg : FileWatcherMessage Ev}
    {old : List (Entry Ev)} (hold : state.subscriptions.entries.Perm (receiving old))
    (hkeeps : keeps state msg = true) :
    (handle state msg).state.subscriptions.entries.Perm
      (receiving (⟨msg, state, handle state msg⟩ :: old)) := by
  cases msg with
  | event watcherEvent => exact hold
  | fwError error => exact hold
  | subscribe who subscriber reply =>
    cases hlookup : state.subscriptions.lookup who with
    | none =>
      -- answered `Ok`: one more receiver
      have hnotin : who ∉ state.subscriptions := AList.lookup_eq_none.mp hlookup
      simp only [handle, subscribe, hlookup, receiving, Entry.answered, List.any_cons,
        decide_true, Bool.true_or, if_true, AList.entries_insert_of_notMem hnotin]
      exact hold.cons _
    | some present =>
      -- answered `Duplicate`, and the object is the one that is there
      rw [keeps, hlookup, Option.all_some, decide_eq_true_eq] at hkeeps
      subst hkeeps
      simp only [handle, subscribe, hlookup, receiving, Entry.answered]
      exact (entries_insert_perm hlookup).trans hold
  | unsubscribe who reply =>
    cases hlookup : state.subscriptions.lookup who with
    | none =>
      simp only [handle, unsubscribe, hlookup, receiving, Entry.answered,
        entries_erase_of_lookup_eq_none hlookup]
      exact hold
    | some present =>
      simp only [handle, unsubscribe, hlookup, receiving, Entry.answered, List.any_cons,
        decide_true, Bool.true_or, if_true, entries_erase]
      exact hold.filter _

/-- What a handled event is delivered to. -/
theorem deliveries_handle (state : FileWatcherState) (watcherEvent : Ev) :
    (handle state (.event watcherEvent)).deliveries =
      state.subscriptions.entries.map fun sub => (sub.2, watcherEvent) := rfl

/-! ## Runs -/

/-- What a step does: a message is handled and recorded, or the actor ends. -/
theorem step_cases {s s' : System Ev} {e : Event Ev} (h : s.step e = some s') :
    (e = .stop ∧ s'.state = none ∧ s'.history = s.history) ∨
      ∃ state msg, e = .handle msg ∧ s.state = some state ∧
        s'.history = ⟨msg, state, handle state msg⟩ :: s.history ∧
        ∀ state', s'.state = some state' → state' = (handle state msg).state := by
  cases hstate : s.state with
  | none => cases e <;> simp [System.step, hstate] at h
  | some state =>
    cases e with
    | stop =>
      simp only [System.step, hstate, Option.some.injEq] at h
      exact Or.inl ⟨rfl, h ▸ rfl, h ▸ rfl⟩
    | handle msg =>
      simp only [System.step, hstate, Option.some.injEq] at h
      refine Or.inr ⟨state, msg, rfl, rfl, h ▸ rfl, fun state' hstate' => ?_⟩
      rw [← h] at hstate'
      simp only at hstate'
      split at hstate'
      · exact (Option.some.inj hstate').symm
      · cases hstate'

/-- The map agrees with the answers after a step that keeps the objects. -/
theorem Agrees.step {s s' : System Ev} {e : Event Ev} (hs : Agrees s)
    (hkeeps : keepsObject s e = true) (h : s.step e = some s') : Agrees s' := by
  intro state' hstate'
  rcases step_cases h with ⟨-, hended, -⟩ | ⟨state, msg, rfl, hstate, hhistory, hafter⟩
  · rw [hended] at hstate'
    cases hstate'
  · rw [hafter state' hstate', hhistory]
    rw [keepsObject, hstate, Option.all_some] at hkeeps
    exact receiving_handle (hs state hstate) hkeeps

/-- **Step lemma.** A step stays with the answers exactly if it keeps the objects. -/
theorem asAnswered_step_iff {s s' : System Ev} {e : Event Ev} (hagrees : Agrees s)
    (hs : AsAnswered s) (h : s.step e = some s') : AsAnswered s' ↔ keepsObject s e = true := by
  rcases step_cases h with ⟨rfl, -, hhistory⟩ | ⟨state, msg, rfl, hstate, hhistory, -⟩
  · -- a stop records nothing
    refine ⟨fun _ => rfl, fun _ => ⟨?_, ?_⟩⟩
    · rw [hhistory]
      exact hs.delivered
    · rw [hhistory]
      exact hs.refused
  · rw [keepsObject, hstate, Option.all_some, ← refused_iff state msg]
    constructor
    · intro hs'
      exact hs'.refused _ (by rw [hhistory]; exact List.mem_cons_self)
    · intro hrefused
      constructor
      · intro e old hsuffix watcherEvent hmsg
        rw [hhistory] at hsuffix
        rcases List.suffix_cons_iff.mp hsuffix with hnow | hbefore
        · -- the event is handled now, and goes to what the map holds
          obtain ⟨rfl, rfl⟩ := List.cons.inj hnow
          simp only at hmsg ⊢
          rw [hmsg, deliveries_handle]
          exact (hagrees state hstate).map _
        · exact hs.delivered e old hbefore watcherEvent hmsg
      · intro e he hanswer
        rw [hhistory] at he
        rcases List.mem_cons.mp he with rfl | hmem
        · exact hrefused hanswer
        · exact hs.refused e hmem hanswer

/-- A computation that succeeds does so in its first part and in the rest. -/
theorem ok_of_bind {α β : Type} {x : Except ActorProcessingErr α}
    {f : α → Except ActorProcessingErr β} {b : β} (h : x >>= f = .ok b) :
    ∃ a, x = .ok a ∧ f a = .ok b := by
  cases x with
  | error err => cases h
  | ok a => exact ⟨a, rfl, h⟩

/-- A new actor has no subscriptions. -/
theorem subscriptions_preStart {recommendedWatcher : Except String Unit}
    {watch : String → RecursiveMode → Except String Unit} {config : FileWatcherConfig}
    {state : FileWatcherState} (h : preStart recommendedWatcher watch config = .ok state) :
    state.subscriptions = ∅ := by
  obtain ⟨-, -, h⟩ := ok_of_bind h
  obtain ⟨-, -, h⟩ := ok_of_bind h
  obtain ⟨-, -, h⟩ := ok_of_bind h
  cases h
  rfl

/-- A new actor is as answered: nothing was asked. -/
theorem asAnswered_start (state : FileWatcherState) :
    AsAnswered ({ state := some state, history := [] } : System Ev) := by
  constructor
  · intro e old hsuffix
    cases List.suffix_nil.mp hsuffix
  · intro e he
    cases he

/-- **Subscriptions behave as answered exactly if no object replaces another.** In a run of the
actor every event goes once to each object whose `Subscribe` was answered `Ok` and whose id has
had no `Unsubscribe` answered `Ok` since, and to nobody else, and the requests answered
`Duplicate` or `NotFound` change nothing, if and only if every `Subscribe` that is handled finds
no object under its id, or the same one. -/
theorem behaves_as_answered_iff {recommendedWatcher : Except String Unit}
    {watch : String → RecursiveMode → Except String Unit} {config : FileWatcherConfig}
    {state : FileWatcherState} (hstart : preStart recommendedWatcher watch config = .ok state)
    {es : List (Event Ev)} {s : System Ev} (hrun : run state es = some s) :
    Throughout System.step AsAnswered { state := some state, history := [] } es ↔
      Run System.step (fun s e => keepsObject s e = true)
        { state := some state, history := [] } es s := by
  have hagrees : Agrees ({ state := some state, history := [] } : System Ev) := by
    rintro _ ⟨⟩
    rw [subscriptions_preStart hstart]
    exact List.Perm.refl _
  exact (run_iff_throughout (I := Agrees) (P := AsAnswered) hrun hagrees (asAnswered_start state)
    (fun _ _ _ hs _ hkeeps h => hs.step hkeeps h)
    (fun _ _ _ hagrees hs h => asAnswered_step_iff hagrees hs h)).symm

/-- Two clients subscribe under ids of their own, an event comes, one leaves, and an event comes
again: a run that keeps the objects. -/
theorem behaves_as_answered_iff_two_clients :
    ∃ s, Throughout System.step AsAnswered
        { state := some { watcher := some [("log", .nonRecursive)], subscriptions := ∅ }
          history := [] }
        [.handle (.subscribe (.loc 1) ⟨1⟩ ⟨1⟩), .handle (.subscribe (.loc 2) ⟨2⟩ ⟨2⟩),
          .handle (.event 0), .handle (.unsubscribe (.loc 1) ⟨3⟩),
          .handle (.unsubscribe (.loc 3) ⟨4⟩), .handle (.event 1)] ∧
      (s : System ℕ).history.map (fun e => e.outcome.deliveries) =
        [[(⟨2⟩, 1)], [], [], [(⟨2⟩, 0), (⟨1⟩, 0)], [], []] := by
  obtain ⟨s, hs, hpost⟩ := (Option.any_eq_true _ _).mp (show
    (exec (checked keepsObject System.step)
      { state := some { watcher := some [("log", .nonRecursive)], subscriptions := ∅ }
        history := [] }
      [.handle (.subscribe (.loc 1) ⟨1⟩ ⟨1⟩), .handle (.subscribe (.loc 2) ⟨2⟩ ⟨2⟩),
        .handle (.event 0), .handle (.unsubscribe (.loc 1) ⟨3⟩),
        .handle (.unsubscribe (.loc 3) ⟨4⟩), .handle (.event 1)]).any (fun s : System ℕ =>
      decide (s.history.map (fun e => e.outcome.deliveries) =
        [[(⟨2⟩, 1)], [], [], [(⟨2⟩, 0), (⟨1⟩, 0)], [], []])) = true by decide)
  have hrun := run_iff_exec_checked.mpr hs
  refine ⟨s, ?_, of_decide_eq_true hpost⟩
  have hstart : preStart (.ok ()) (fun _ _ => .ok ()) ⟨["log"], []⟩ =
      .ok { watcher := some [("log", .nonRecursive)], subscriptions := ∅ } := rfl
  exact (behaves_as_answered_iff hstart hrun.exec_eq).mpr hrun

/-- **The answer can be wrong.** The second `Subscribe` under an id is answered `Duplicate`, and
yet the next event goes to its object and no longer to the one that was answered `Ok`. -/
theorem duplicate_replaces :
    ∃ state s,
      preStart (.ok ()) (fun _ _ => .ok ()) ⟨["log"], []⟩ = .ok state ∧
      run state [.handle (.subscribe (.loc 1) ⟨1⟩ ⟨1⟩), .handle (.subscribe (.loc 1) ⟨2⟩ ⟨2⟩),
        .handle (.event 0)] = some s ∧
      (s : System ℕ).history.map (fun e => (e.outcome.replies, e.outcome.deliveries)) =
        [([], [(⟨2⟩, 0)]), ([(⟨2⟩, .duplicate)], []), ([(⟨1⟩, .ok)], [])] ∧
      receiving s.history.tail = [⟨.loc 1, ⟨1⟩⟩] ∧ ¬ AsAnswered s := by
  refine ⟨_, _, rfl, rfl, by decide, by decide, fun hs => ?_⟩
  -- the event went to the second object, the answers promise it to the first
  have hperm := hs.delivered _ _ List.suffix_rfl 0 rfl
  exact absurd hperm (by decide)

end RactorActors.FileWatcher
