import Mathlib.Data.List.DropRight
import RactorActors.FileWatcher.Subscriptions

/-!
# A file watcher between `notify` and its subscribers

The file watcher with its mailbox from its `pre_start` to its end, in whatever way it ends. The
watcher of `notify` casts what it sees from the moment it is made; clients cast at any time. The
state of an actor that was stopped or killed goes to its supervisor, which holds it as long as it
likes, and with it the watcher if it is still in there.

* `Watching`: the actor, its mailbox, and what is left of it;
* `Keeps`: the calls of the subscribers are those due from the messages handled, and the watcher
  lives as long as the actor;
* `start_eq_error_iff`: the actor starts unless a path cannot be watched;
* `watches_and_delivers`: so it is in every run; only a kill leaves a watcher behind, and an error
  of `notify` ends the actor;
* `reports_arrive`: once nobody interferes, every event that was posted before the first error is
  delivered, and the error then ends the actor.
-/

namespace RactorActors.FileWatcher

open LabelledRun AssociationList

variable {Ev : Type}

/-- What the closure that `notify` calls casts to the actor. -/
def reported : Except String Ev → FileWatcherMessage Ev
  | .ok event => .event event
  | .error e => .fwError e

/-- The paths of a configuration, in the order in which they are watched. -/
def FileWatcherConfig.paths (config : FileWatcherConfig) : List (String × RecursiveMode) :=
  config.files.map (·, .nonRecursive) ++ config.directories.map (·, .recursive)

/-- How the actor ended. -/
inductive Ending
  | stopped
  | killed
  | failed (what : ActorProcessingErr)
deriving DecidableEq

/-- How a handled message ended the actor. -/
def Entry.ending (e : Entry Ev) : Option Ending :=
  match e.outcome.result with
  | .ok () => none
  | .error what => some (.failed what)

/-- A file watcher with its mailbox. -/
structure Watching (Ev : Type) where
  actor : System Ev
  /-- The mailbox, next message first. -/
  queue : List (FileWatcherMessage Ev)
  /-- The messages that the mailbox took, newest first. -/
  posted : List (FileWatcherMessage Ev)
  ending : Option Ending
  /-- The final state, as long as the supervisor holds it. -/
  boxed : Option FileWatcherState

/-- The events of a run. -/
inductive WatchingEvent (Ev : Type)
  /-- `notify` calls the closure. -/
  | report (res : Except String Ev)
  /-- A client casts a message. -/
  | post (msg : FileWatcherMessage Ev)
  /-- The actor handles the next message. -/
  | handle
  /-- The actor takes a stop. -/
  | stop
  /-- The actor is killed. -/
  | kill
  /-- The supervisor drops the final state. -/
  | release

/-- The actor handles a message. -/
def WatchingEvent.handles : WatchingEvent Ev → Bool
  | .handle => true
  | _ => false

namespace Watching

/-- The actor once `pre_start` has returned. `early` is what `notify` reported in the meantime. -/
def start (recommendedWatcher : Except String Unit)
    (watch : String → RecursiveMode → Except String Unit) (config : FileWatcherConfig)
    (early : List (Except String Ev)) : Except ActorProcessingErr (Watching Ev) :=
  (preStart recommendedWatcher watch config).map fun state =>
    { actor := { state := some state, history := [] }
      queue := early.map reported
      posted := (early.map reported).reverse
      ending := none
      boxed := none }

/-- `ActorRef::cast`. It fails once the actor has ended. -/
def cast (s : Watching Ev) (msg : FileWatcherMessage Ev) : Watching Ev :=
  if s.actor.state.isSome then
    { s with queue := s.queue ++ [msg], posted := msg :: s.posted }
  else
    s

/-- One step of the run. `post_stop` is called on a stop only. -/
def step (s : Watching Ev) : WatchingEvent Ev → Option (Watching Ev)
  | .report res => some (s.cast (reported res))
  | .post msg => some (s.cast msg)
  | .handle =>
    match s.queue with
    | msg :: rest =>
      (s.actor.step (.handle msg)).map fun actor =>
        { s with actor, queue := rest, ending := actor.history.head?.bind Entry.ending }
    | [] => none
  | .stop =>
    match s.actor.state with
    | some state =>
      (s.actor.step .stop).map fun actor =>
        { s with actor, ending := some .stopped, boxed := some (postStop state) }
    | none => none
  | .kill =>
    match s.actor.state with
    | some state =>
      some { s with
        actor := { s.actor with state := none }, ending := some .killed, boxed := some state }
    | none => none
  | .release => some { s with boxed := none }

/-- What the watcher of `notify` watches, while there is one: it lives where the state is. -/
def watches (s : Watching Ev) : Option (List (String × RecursiveMode)) :=
  match s.actor.state with
  | some state => state.watcher
  | none => s.boxed.bind (·.watcher)

/-- The messages handled, newest first. -/
def handled (s : Watching Ev) : List (FileWatcherMessage Ev) :=
  s.actor.history.map (·.msg)

/-- The events that a subscriber's `event_received` was called with, oldest first. -/
def given (s : Watching Ev) (sub : FileWatcherSubscriber) : List Ev :=
  s.actor.history.reverse.flatMap fun e =>
    (e.outcome.deliveries.filter (·.1 = sub)).map (·.2)

end Watching

/-! ## What is due -/

/-- Who receives events, given the messages handled, newest first: under each id the latest object,
unless the id was removed since. -/
def receivers : List (FileWatcherMessage Ev) → List ((_ : ActorId) × FileWatcherSubscriber)
  | [] => []
  | .subscribe who subscriber _ :: old => ⟨who, subscriber⟩ :: (receivers old).filter (·.1 ≠ who)
  | .unsubscribe who _ :: old => (receivers old).filter (·.1 ≠ who)
  | _ :: old => receivers old

/-- What a message makes the actor tell a subscriber, given the messages before it. -/
def owed (sub : FileWatcherSubscriber) (old : List (FileWatcherMessage Ev)) :
    FileWatcherMessage Ev → List Ev
  | .event event => ((receivers old).filter (·.2 = sub)).map fun _ => event
  | _ => []

/-- The events that came while the subscriber was subscribed, oldest first, each once for each id
that it was subscribed under. -/
def due (sub : FileWatcherSubscriber) : List (FileWatcherMessage Ev) → List Ev
  | [] => []
  | msg :: old => due sub old ++ owed sub old msg

/-- The error that a message reports. -/
def FileWatcherMessage.error : FileWatcherMessage Ev → Option String
  | .fwError error => some error
  | _ => none

/-- Only an error of `notify` is one. -/
theorem eq_of_error_eq {msg : FileWatcherMessage Ev} {error : String}
    (h : msg.error = some error) : msg = .fwError error := by
  cases msg with
  | fwError => exact congrArg _ (Option.some.inj h)
  | event | subscribe | unsubscribe => cases h

/-- The first error among the messages, newest first. -/
def firstError (msgs : List (FileWatcherMessage Ev)) : Option String :=
  msgs.reverse.findSome? (·.error)

/-- The messages before the first error, newest first. -/
def beforeError (msgs : List (FileWatcherMessage Ev)) : List (FileWatcherMessage Ev) :=
  msgs.rtakeWhile fun msg => msg.error.isNone

/-- What is due for some messages is due for more of them. -/
theorem due_le (sub : FileWatcherSubscriber) (new old : List (FileWatcherMessage Ev)) :
    due sub old <+: due sub (new ++ old) := by
  induction new with
  | nil => exact List.prefix_rfl
  | cons msg new ih => exact ih.trans (List.prefix_append _ _)

/-- An error adds nothing to what is due. -/
theorem due_cons_fwError (sub : FileWatcherSubscriber) (error : String)
    (old : List (FileWatcherMessage Ev)) : due sub (.fwError error :: old) = due sub old :=
  List.append_nil _

/-- Messages without an error are all before the first error, and the error that comes next is the
first one. -/
theorem beforeError_append {old : List (FileWatcherMessage Ev)}
    (hold : ∀ msg ∈ old, msg.error = none) (new : List (FileWatcherMessage Ev)) :
    ∃ more, beforeError (new ++ old) = more ++ old := by
  refine ⟨beforeError new, ?_⟩
  rw [beforeError, List.rtakeWhile, List.reverse_append, List.takeWhile_append_of_pos,
    List.reverse_append, List.reverse_reverse]
  · rfl
  · intro msg hmsg
    rw [hold msg (List.mem_reverse.mp hmsg)]
    rfl

/-- With an error right after them, the messages before it are all. -/
theorem beforeError_of_fwError {old : List (FileWatcherMessage Ev)}
    (hold : ∀ msg ∈ old, msg.error = none) (error : String)
    (new : List (FileWatcherMessage Ev)) :
    beforeError (new ++ .fwError error :: old) = old ∧
      firstError (new ++ .fwError error :: old) = some error := by
  have hnone : ∀ msg ∈ old.reverse, msg.error = none := fun msg hmsg =>
    hold msg (List.mem_reverse.mp hmsg)
  have hreverse : (new ++ .fwError error :: old).reverse =
      old.reverse ++ .fwError error :: new.reverse := by
    rw [List.reverse_append, List.reverse_cons, List.append_assoc, List.singleton_append]
  constructor
  · rw [beforeError, List.rtakeWhile, hreverse, List.takeWhile_append_of_pos,
      List.takeWhile_cons]
    · simp only [FileWatcherMessage.error, Option.isNone_some, Bool.false_eq_true, if_false,
        List.append_nil, List.reverse_reverse]
    · intro msg hmsg
      rw [hnone msg hmsg]
      rfl
  · rw [firstError, hreverse, List.findSome?_append, List.findSome?_eq_none_iff.mpr hnone,
      Option.none_or]
    rfl

/-- Messages without an error. -/
theorem beforeError_eq_self {msgs : List (FileWatcherMessage Ev)}
    (h : ∀ msg ∈ msgs, msg.error = none) : beforeError msgs = msgs ∧ firstError msgs = none := by
  constructor
  · rw [beforeError, List.rtakeWhile_eq_self_iff]
    intro msg hmsg
    rw [h msg hmsg]
    rfl
  · exact List.findSome?_eq_none_iff.mpr fun msg hmsg => h msg (List.mem_reverse.mp hmsg)

/-! ## One message -/

/-- `subscribe` puts the object into the map, whatever it answers. -/
theorem subscribe_fields (who : ActorId) (subscriber : FileWatcherSubscriber)
    (reply : RpcReplyPort) (state : FileWatcherState) :
    let out : Outcome Ev := subscribe who subscriber reply state
    out.state = { state with subscriptions := state.subscriptions.insert who subscriber } ∧
      out.deliveries = [] ∧ out.result = .ok () := by
  cases hlookup : state.subscriptions.lookup who <;>
    simp only [subscribe, hlookup, and_self]

/-- `unsubscribe` takes what is there out of the map, whatever it answers. -/
theorem unsubscribe_fields (who : ActorId) (reply : RpcReplyPort) (state : FileWatcherState) :
    let out : Outcome Ev := unsubscribe who reply state
    out.state = { state with subscriptions := state.subscriptions.erase who } ∧
      out.deliveries = [] ∧ out.result = .ok () := by
  cases hlookup : state.subscriptions.lookup who <;>
    simp only [unsubscribe, hlookup, and_self]

/-- A handler fails exactly over an error of `notify`. -/
theorem result_handle (state : FileWatcherState) (msg : FileWatcherMessage Ev) :
    (handle state msg).result =
      match msg.error with
      | some error => .error (.message error)
      | none => .ok () := by
  cases msg with
  | event | fwError => rfl
  | subscribe who subscriber reply => exact (subscribe_fields who subscriber reply state).2.2
  | unsubscribe who reply => exact (unsubscribe_fields who reply state).2.2

/-- No handler touches the watcher. -/
theorem watcher_handle (state : FileWatcherState) (msg : FileWatcherMessage Ev) :
    (handle state msg).state.watcher = state.watcher := by
  cases msg with
  | event | fwError => rfl
  | subscribe who subscriber reply =>
    rw [handle, (subscribe_fields who subscriber reply state).1]
  | unsubscribe who reply => rw [handle, (unsubscribe_fields who reply state).1]

/-- A message changes the map as it changes the receivers. -/
theorem receivers_handle {state : FileWatcherState} {old : List (FileWatcherMessage Ev)}
    (h : state.subscriptions.entries.Perm (receivers old)) (msg : FileWatcherMessage Ev) :
    (handle state msg).state.subscriptions.entries.Perm (receivers (msg :: old)) := by
  cases msg with
  | event | fwError => exact h
  | subscribe who subscriber reply =>
    rw [handle, (subscribe_fields who subscriber reply state).1, receivers, AList.entries_insert,
      kerase_eq_filter state.subscriptions.nodupKeys]
    exact (h.filter _).cons _
  | unsubscribe who reply =>
    rw [handle, (unsubscribe_fields who reply state).1, receivers, entries_erase]
    exact h.filter _

/-- A subscriber is told what it is owed. -/
theorem told_handle {state : FileWatcherState} {old : List (FileWatcherMessage Ev)}
    (h : state.subscriptions.entries.Perm (receivers old)) (msg : FileWatcherMessage Ev)
    (sub : FileWatcherSubscriber) :
    ((handle state msg).deliveries.filter (·.1 = sub)).map (·.2) = owed sub old msg := by
  cases msg with
  | fwError => rfl
  | subscribe who subscriber reply =>
    rw [handle, (subscribe_fields who subscriber reply state).2.1]
    rfl
  | unsubscribe who reply =>
    rw [handle, (unsubscribe_fields who reply state).2.1]
    rfl
  | event watcherEvent =>
    -- the same event as often as the subscriber is in the map
    have hcount := (h.filter fun entry => decide (entry.2 = sub)).length_eq
    rw [deliveries_handle, List.filter_map, List.map_map, owed, List.map_const', ← hcount,
      ← List.map_const']
    rfl

/-- The actor handles its next message: it goes on, or an error of `notify` has ended it. -/
theorem handle_cases {s s' : Watching Ev} (h : s.step .handle = some s') :
    ∃ state msg rest, s.actor.state = some state ∧ s.queue = msg :: rest ∧ s'.queue = rest ∧
      s'.posted = s.posted ∧ s'.boxed = s.boxed ∧
      s'.actor.history = ⟨msg, state, handle state msg⟩ :: s.actor.history ∧
      ((msg.error = none ∧ s'.actor.state = some (handle state msg).state ∧ s'.ending = none) ∨
        ∃ error, msg.error = some error ∧ s'.actor.state = none ∧
          s'.ending = some (.failed (.message error))) := by
  simp only [Watching.step] at h
  split at h
  · rename_i msg rest hqueue
    rw [Option.map_eq_some_iff] at h
    obtain ⟨actor, hstep, rfl⟩ := h
    cases hstate : s.actor.state with
    | none => simp [System.step, hstate] at hstep
    | some state =>
      simp only [System.step, hstate, Option.some.injEq] at hstep
      subst hstep
      have hresult := result_handle state msg
      refine ⟨state, msg, rest, rfl, hqueue, rfl, rfl, rfl, rfl, ?_⟩
      cases herror : msg.error with
      | none =>
        rw [herror] at hresult
        exact Or.inl ⟨rfl, by simp only [hresult], by simp [Entry.ending, hresult]⟩
      | some error =>
        rw [herror] at hresult
        exact Or.inr ⟨error, rfl, by simp only [hresult], by simp [Entry.ending, hresult]⟩
  · cases h

/-! ## Runs -/

/-- How the run stands, given how the actor ended. -/
def Watching.Left (config : FileWatcherConfig) (s : Watching Ev) : Prop :=
  match s.ending with
  | none => ∃ state, s.actor.state = some state ∧ state.watcher = some config.paths ∧
      state.subscriptions.entries.Perm (receivers s.handled) ∧ s.boxed = none ∧
      ∀ msg ∈ s.handled, msg.error = none
  | some .stopped => s.actor.state = none ∧ (∀ state ∈ s.boxed, state.watcher = none) ∧
      ∀ msg ∈ s.handled, msg.error = none
  | some .killed => s.actor.state = none ∧
      (∀ state ∈ s.boxed, state.watcher = some config.paths) ∧
      ∀ msg ∈ s.handled, msg.error = none
  | some (.failed what) => s.actor.state = none ∧ s.boxed = none ∧
      ∃ error old, what = .message error ∧ s.handled = .fwError error :: old ∧
        ∀ msg ∈ old, msg.error = none

/-- **The invariant.** Subscribers were told what was due to them, and the watcher lives as long as
the actor, but for a final state that somebody holds. -/
structure Keeps (config : FileWatcherConfig) (s : Watching Ev) : Prop where
  /-- What was posted was handled or waits, in order. -/
  posted : s.posted = s.queue.reverse ++ s.handled
  given : ∀ sub, s.given sub = due sub s.handled
  left : s.Left config

/-- A cast leaves the actor as it is. -/
theorem Keeps.cast {config : FileWatcherConfig} {s : Watching Ev} (hs : Keeps config s)
    (msg : FileWatcherMessage Ev) : Keeps config (s.cast msg) := by
  rw [Watching.cast]
  split
  · refine ⟨?_, hs.given, hs.left⟩
    rw [List.reverse_append]
    exact congrArg (msg :: ·) hs.posted
  · exact hs

/-- The state of a running actor. -/
theorem Keeps.of_running {config : FileWatcherConfig} {s : Watching Ev} (hs : Keeps config s)
    {state : FileWatcherState} (hstate : s.actor.state = some state) :
    state.watcher = some config.paths ∧
      state.subscriptions.entries.Perm (receivers s.handled) ∧ s.boxed = none ∧
      ∀ msg ∈ s.handled, msg.error = none := by
  have hleft := hs.left
  unfold Watching.Left at hleft
  split at hleft
  · obtain ⟨state', hstate', hrest⟩ := hleft
    rw [hstate, Option.some.injEq] at hstate'
    exact hstate' ▸ hrest
  all_goals
    rw [hstate] at hleft
    cases hleft.1

/-- The actor handles its next message. -/
theorem Keeps.handle {config : FileWatcherConfig} {s s' : Watching Ev} (hs : Keeps config s)
    (h : s.step .handle = some s') : Keeps config s' := by
  obtain ⟨state, msg, rest, hstate, hqueue, hqueue', hposted, hboxed, hhistory, hcase⟩ :=
    handle_cases h
  have hhandled : s'.handled = msg :: s.handled := by
    rw [Watching.handled, hhistory]
    rfl
  obtain ⟨hwatcher, hreceivers, hnone, hsound⟩ := hs.of_running hstate
  refine ⟨?_, fun sub => ?_, ?_⟩
  · rw [hposted, hs.posted, hqueue, hqueue', hhandled, List.reverse_cons, List.append_assoc,
      List.singleton_append]
  · rw [hhandled, due, ← hs.given sub, ← told_handle hreceivers msg sub, Watching.given, hhistory,
      List.reverse_cons, List.flatMap_append, List.flatMap_singleton]
    rfl
  · rcases hcase with ⟨herror, hstate', hending⟩ | ⟨error, herror, hstate', hending⟩
    · simp only [Watching.Left, hending]
      refine ⟨_, hstate', (watcher_handle state msg).trans hwatcher, ?_, hboxed.trans hnone, ?_⟩
      · rw [hhandled]
        exact receivers_handle hreceivers msg
      · rw [hhandled]
        exact List.forall_mem_cons.mpr ⟨herror, hsound⟩
    · simp only [Watching.Left, hending]
      exact ⟨hstate', hboxed.trans hnone, error, s.handled, rfl, eq_of_error_eq herror ▸ hhandled,
        hsound⟩

/-- **Step lemma.** -/
theorem Keeps.step {config : FileWatcherConfig} {s s' : Watching Ev} {ev : WatchingEvent Ev}
    (hs : Keeps config s) (h : s.step ev = some s') : Keeps config s' := by
  cases ev with
  | report res =>
    rw [Watching.step, Option.some.injEq] at h
    exact h ▸ hs.cast (reported res)
  | post msg =>
    rw [Watching.step, Option.some.injEq] at h
    exact h ▸ hs.cast msg
  | handle => exact hs.handle h
  | stop =>
    simp only [Watching.step] at h
    split at h
    · rename_i state hstate
      rw [Option.map_eq_some_iff] at h
      obtain ⟨actor, hstep, rfl⟩ := h
      simp only [System.step, hstate, Option.some.injEq] at hstep
      subst hstep
      obtain ⟨-, -, -, hsound⟩ := hs.of_running hstate
      -- `post_stop` has taken the watcher
      refine ⟨hs.posted, hs.given, rfl, fun state' hstate' => ?_, hsound⟩
      cases hstate'
      rfl
    · cases h
  | kill =>
    simp only [Watching.step] at h
    split at h
    · rename_i state hstate
      rw [Option.some.injEq] at h
      subst h
      obtain ⟨hwatcher, -, -, hsound⟩ := hs.of_running hstate
      refine ⟨hs.posted, hs.given, rfl, fun state' hstate' => ?_, hsound⟩
      cases hstate'
      exact hwatcher
    · cases h
  | release =>
    rw [Watching.step, Option.some.injEq] at h
    subst h
    refine ⟨hs.posted, hs.given, ?_⟩
    have hleft := hs.left
    have hnone {P : FileWatcherState → Prop} :
        ∀ state ∈ (none : Option FileWatcherState), P state :=
      fun _ hin => absurd hin (Option.not_mem_none _)
    unfold Watching.Left at hleft ⊢
    cases hending : s.ending with
    | none =>
      simp only [hending] at hleft ⊢
      obtain ⟨state, hstate, hwatcher, hreceivers, -, hsound⟩ := hleft
      exact ⟨state, hstate, hwatcher, hreceivers, trivial, hsound⟩
    | some ending =>
      simp only [hending] at hleft ⊢
      cases ending with
      | stopped | killed => exact ⟨hleft.1, hnone, hleft.2.2⟩
      | failed what => exact ⟨hleft.1, trivial, hleft.2.2⟩

/-! ## The start -/

/-- A loop over a list fails at the first element that fails. -/
theorem forM_eq_error_iff {α ε : Type} (f : α → Except ε PUnit) (l : List α) (err : ε) :
    forM l f = .error err ↔ ∃ tried a rest, l = tried ++ a :: rest ∧
      (∀ b ∈ tried, f b = .ok ⟨⟩) ∧ f a = .error err := by
  induction l with
  | nil =>
    constructor
    · intro h
      cases h
    · rintro ⟨tried, a, rest, hl, -⟩
      cases tried <;> cases hl
  | cons b l ih =>
    rw [List.forM_cons]
    rcases hb : f b with err' | ⟨⟨⟩⟩
    · constructor
      · intro h
        cases h
        exact ⟨[], b, l, rfl, fun _ hin => absurd hin List.not_mem_nil, hb⟩
      · rintro ⟨tried, a, rest, hl, htried, ha⟩
        cases tried with
        | nil =>
          cases hl
          rw [hb] at ha
          exact ha
        | cons c tried =>
          obtain ⟨rfl, -⟩ := List.cons.inj hl
          rw [htried b List.mem_cons_self] at hb
          cases hb
    · refine Iff.trans ih ⟨?_, ?_⟩
      · rintro ⟨tried, a, rest, rfl, htried, ha⟩
        exact ⟨b :: tried, a, rest, rfl, List.forall_mem_cons.mpr ⟨hb, htried⟩, ha⟩
      · rintro ⟨tried, a, rest, hl, htried, ha⟩
        cases tried with
        | nil =>
          cases hl
          rw [hb] at ha
          cases ha
        | cons c tried =>
          obtain ⟨rfl, rfl⟩ := List.cons.inj hl
          exact ⟨tried, a, rest, rfl, (List.forall_mem_cons.mp htried).2, ha⟩

/-- What comes after a loop, and does not fail, adds no error. -/
theorem map_bind_eq_error_iff {α β γ ε : Type} (x : Except ε α) (f : α → β) (g : β → γ) {err : ε} :
    (x >>= fun a => .ok (f a)).map g = .error err ↔ x = .error err := by
  cases x <;> simp [bind, Except.bind, Except.map]

/-- `pre_start` goes through the paths in order, the files first. -/
theorem preStart_eq (recommendedWatcher : Except String Unit)
    (watch : String → RecursiveMode → Except String Unit) (config : FileWatcherConfig) :
    preStart recommendedWatcher watch config = (do
      recommendedWatcher.mapError .message
      forM config.paths fun path => (watch path.1 path.2).mapError .message
      return { watcher := some config.paths, subscriptions := ∅ }) := by
  rw [FileWatcherConfig.paths, List.forM_append, List.forM_map, List.forM_map, bind_assoc]
  rfl

/-- **The exact condition to start.** The actor starts unless `notify` cannot make a watcher or
cannot watch a path; the first failure is the error of the start, and no path after it is tried. -/
theorem start_eq_error_iff {recommendedWatcher : Except String Unit}
    {watch : String → RecursiveMode → Except String Unit} {config : FileWatcherConfig}
    {early : List (Except String Ev)} {err : ActorProcessingErr} :
    Watching.start recommendedWatcher watch config early = .error err ↔
      (∃ e, recommendedWatcher = .error e ∧ err = .message e) ∨
      recommendedWatcher = .ok () ∧ ∃ tried path rest e, config.paths = tried ++ path :: rest ∧
        (∀ p ∈ tried, watch p.1 p.2 = .ok ()) ∧ watch path.1 path.2 = .error e ∧
          err = .message e := by
  have herror {x : Except String Unit} {err : ActorProcessingErr} :
      x.mapError .message = .error err ↔ ∃ e, x = .error e ∧ err = .message e := by
    rcases x with e | ⟨⟨⟩⟩ <;> simp [Except.mapError, eq_comm]
  have hok {x : Except String Unit} :
      x.mapError ActorProcessingErr.message = .ok () ↔ x = .ok () := by
    rcases x with e | ⟨⟨⟩⟩ <;> simp [Except.mapError]
  rw [Watching.start, preStart_eq]
  rcases recommendedWatcher with e | ⟨⟨⟩⟩
  · constructor
    · intro h
      cases h
      exact Or.inl ⟨e, rfl, rfl⟩
    · rintro (⟨_, ⟨⟩, rfl⟩ | ⟨⟨⟩, -⟩)
      rfl
  · have hloop := forM_eq_error_iff
      (fun path => (watch path.1 path.2).mapError ActorProcessingErr.message) config.paths err
    simp only [herror, hok] at hloop
    refine Iff.trans (map_bind_eq_error_iff (forM config.paths fun path =>
      (watch path.1 path.2).mapError ActorProcessingErr.message) _ _) (Iff.trans hloop ?_)
    constructor
    · rintro ⟨tried, path, rest, hpaths, htried, e, hpath, rfl⟩
      exact Or.inr ⟨rfl, tried, path, rest, e, hpaths, htried, hpath, rfl⟩
    · rintro (⟨_, ⟨⟩, -⟩ | ⟨-, tried, path, rest, e, hpaths, htried, hpath, rfl⟩)
      exact ⟨tried, path, rest, hpaths, htried, e, hpath, rfl⟩

/-! ## From the start on -/

/-- A new actor keeps what it should: it watches its paths, and nobody was told anything. -/
theorem keeps_start {recommendedWatcher : Except String Unit}
    {watch : String → RecursiveMode → Except String Unit} {config : FileWatcherConfig}
    {early : List (Except String Ev)} {s : Watching Ev}
    (h : Watching.start recommendedWatcher watch config early = .ok s) : Keeps config s := by
  rw [Watching.start, preStart_eq] at h
  cases hstate : (do
      recommendedWatcher.mapError ActorProcessingErr.message
      forM config.paths fun path => (watch path.1 path.2).mapError .message
      return { watcher := some config.paths, subscriptions := ∅ } :
        Except ActorProcessingErr FileWatcherState) with
  | error err =>
    rw [hstate] at h
    cases h
  | ok state =>
    rw [hstate] at h
    cases h
    obtain ⟨-, -, hstate⟩ := ok_of_bind hstate
    obtain ⟨-, -, hstate⟩ := ok_of_bind hstate
    cases hstate
    refine ⟨(List.append_nil _).symm, fun _ => rfl, _, rfl, rfl, List.Perm.refl _, rfl, ?_⟩
    exact fun _ hin => absurd hin List.not_mem_nil

/-- **Run lemma.** -/
theorem keeps_of_exec {recommendedWatcher : Except String Unit}
    {watch : String → RecursiveMode → Except String Unit} {config : FileWatcherConfig}
    {early : List (Except String Ev)} {s₀ s : Watching Ev} {es : List (WatchingEvent Ev)}
    (hstart : Watching.start recommendedWatcher watch config early = .ok s₀)
    (h : exec Watching.step s₀ es = some s) : Keeps config s :=
  exec_invariant h (keeps_start hstart) fun _ _ _ hs hstep => hs.step hstep

/-- An actor that failed did so over the first error that was posted, and was told of nothing
after it. -/
theorem Keeps.of_failed {config : FileWatcherConfig} {s : Watching Ev} (hs : Keeps config s)
    {what : ActorProcessingErr} (hending : s.ending = some (.failed what)) :
    s.watches = none ∧ ∃ error, what = .message error ∧ firstError s.posted = some error ∧
      s.handled = .fwError error :: beforeError s.posted := by
  have hleft := hs.left
  simp only [Watching.Left, hending] at hleft
  obtain ⟨hstate, hboxed, error, old, hwhat, hhandled, hsound⟩ := hleft
  have hposted := hs.posted
  rw [hhandled] at hposted
  obtain ⟨hbefore, hfirst⟩ := beforeError_of_fwError hsound error s.queue.reverse
  rw [← hposted] at hbefore hfirst
  refine ⟨?_, error, hwhat, hfirst, by rw [hbefore, hhandled]⟩
  simp only [Watching.watches, hstate, hboxed, Option.bind_none]

/-- Unless the actor has failed, it was told of no error. -/
theorem Keeps.sound_or_failed {config : FileWatcherConfig} {s : Watching Ev}
    (hs : Keeps config s) :
    (∀ msg ∈ s.handled, msg.error = none) ∨ ∃ what, s.ending = some (.failed what) := by
  have hleft := hs.left
  unfold Watching.Left at hleft
  split at hleft
  · obtain ⟨-, -, -, -, -, hsound⟩ := hleft
    exact Or.inl hsound
  · exact Or.inl hleft.2.2
  · exact Or.inl hleft.2.2
  · rename_i what hending
    exact Or.inr ⟨what, hending⟩

/-- Nobody is told of what comes behind the first error. -/
theorem Keeps.given_le {config : FileWatcherConfig} {s : Watching Ev} (hs : Keeps config s)
    (sub : FileWatcherSubscriber) : s.given sub <+: due sub (beforeError s.posted) := by
  rcases hs.sound_or_failed with hsound | ⟨what, hending⟩
  · obtain ⟨more, hmore⟩ := beforeError_append hsound s.queue.reverse
    rw [hs.given, hs.posted, hmore]
    exact due_le sub more s.handled
  · obtain ⟨-, error, -, -, hhandled⟩ := hs.of_failed hending
    have hgiven : s.given sub = due sub (beforeError s.posted) := by
      rw [hs.given, hhandled, due_cons_fwError]
    simp only [hgiven, List.prefix_rfl]

/-- **The file watcher between `notify` and its subscribers.** In every run, whoever interferes:
the actor handles what is posted in order, and each subscriber was told the events that came while
it was subscribed, in order, up to some moment before the first error. While the actor runs,
`notify` watches the configured paths. A stop and an error leave no watcher behind; a kill leaves it
with the final state, for as long as somebody holds that. The actor fails over the first error of
`notify` only, after everything before it. -/
theorem watches_and_delivers {recommendedWatcher : Except String Unit}
    {watch : String → RecursiveMode → Except String Unit} {config : FileWatcherConfig}
    {early : List (Except String Ev)} {s₀ s : Watching Ev} {es : List (WatchingEvent Ev)}
    (hstart : Watching.start recommendedWatcher watch config early = .ok s₀)
    (h : exec Watching.step s₀ es = some s) :
    s.posted = s.queue.reverse ++ s.handled ∧
    (∀ sub, s.given sub = due sub s.handled ∧ s.given sub <+: due sub (beforeError s.posted)) ∧
    match s.ending with
    | none => s.watches = some config.paths ∧ firstError s.handled = none
    | some .stopped => s.watches = none
    | some .killed => s.watches = s.boxed.map fun _ => config.paths
    | some (.failed what) => s.watches = none ∧ ∃ error, what = .message error ∧
        firstError s.posted = some error ∧
        s.handled = .fwError error :: beforeError s.posted := by
  have hs := keeps_of_exec hstart h
  refine ⟨hs.posted, fun sub => ⟨hs.given sub, hs.given_le sub⟩, ?_⟩
  have hleft := hs.left
  cases hending : s.ending with
  | none =>
    simp only [Watching.Left, hending] at hleft
    obtain ⟨state, hstate, hwatcher, -, -, hsound⟩ := hleft
    refine ⟨?_, (beforeError_eq_self hsound).2⟩
    simp only [Watching.watches, hstate, hwatcher]
  | some ending =>
    cases ending with
    | stopped =>
      simp only [Watching.Left, hending] at hleft
      obtain ⟨hstate, hwatcher, -⟩ := hleft
      simp only [Watching.watches, hstate]
      exact Option.bind_eq_none_iff.mpr hwatcher
    | killed =>
      simp only [Watching.Left, hending] at hleft
      obtain ⟨hstate, hwatcher, -⟩ := hleft
      simp only [Watching.watches, hstate]
      cases hboxed : s.boxed with
      | none => rfl
      | some state => exact hwatcher state hboxed
    | failed what => exact hs.of_failed hending

/-- An event comes before anybody has subscribed, one after it, and one behind an error; and a kill
between the two errors of another run leaves the watcher with the final state. -/
theorem watches_and_delivers_error :
    ∃ s₀ s t : Watching ℕ, ∃ es es',
      Watching.start (.ok ()) (fun _ _ => .ok ()) ⟨["log"], ["src"]⟩ [.ok 0] = .ok s₀ ∧
      exec Watching.step s₀ es = some s ∧ exec Watching.step s₀ es' = some t ∧
      (s.given ⟨1⟩, s.queue.length, s.ending) =
        ([1], 1, some (.failed (.message "overflow"))) ∧
      s.given ⟨1⟩ <+: due ⟨1⟩ (beforeError s.posted) ∧
      t.ending = some .killed ∧ t.watches = some [("log", .nonRecursive), ("src", .recursive)] := by
  let config : FileWatcherConfig := ⟨["log"], ["src"]⟩
  let s₀ : Watching ℕ :=
    { actor := { state := some ⟨some config.paths, ∅⟩, history := [] }
      queue := [.event 0], posted := [.event 0], ending := none, boxed := none }
  have hstart : Watching.start (.ok ()) (fun _ _ => .ok ()) config [.ok 0] = .ok s₀ := rfl
  let es : List (WatchingEvent ℕ) := [.post (.subscribe (.loc 1) ⟨1⟩ ⟨1⟩), .report (.ok 1), .handle,
    .handle, .report (.error "overflow"), .report (.ok 2), .handle, .handle]
  let es' : List (WatchingEvent ℕ) := [.handle, .kill]
  obtain ⟨s, hs, hpost⟩ := (Option.any_eq_true _ _).mp (show
    (exec Watching.step s₀ es).any (fun s => decide ((s.given ⟨1⟩, s.queue.length, s.ending) =
      ([1], 1, some (.failed (.message "overflow"))))) = true by decide)
  obtain ⟨t, ht, hkilled⟩ := (Option.any_eq_true _ _).mp (show
    (exec Watching.step s₀ es').any (fun t => decide (t.ending = some .killed) &&
      t.boxed.isSome) = true by decide)
  rw [Bool.and_eq_true, decide_eq_true_eq] at hkilled
  obtain ⟨hending, hboxed⟩ := hkilled
  obtain ⟨-, -, hwatches⟩ := watches_and_delivers hstart ht
  obtain ⟨state, hstate⟩ := Option.isSome_iff_exists.mp hboxed
  simp only [hending, hstate, Option.map_some] at hwatches
  exact ⟨s₀, s, t, es, es', hstart, hs, ht, of_decide_eq_true hpost,
    ((watches_and_delivers hstart hs).2.1 ⟨1⟩).2, hending, hwatches⟩

/-! ## Every report arrives -/

/-- **Reports arrive.** From any state of a running actor, whatever was posted: once nobody
interferes, the actor handles its messages in a bounded number of steps. Then each subscriber was
told every event that was posted before the first error while it was subscribed. Without an error
the actor runs on with an empty mailbox; otherwise the first error has ended it, and its watcher is
gone. -/
theorem reports_arrive {recommendedWatcher : Except String Unit}
    {watch : String → RecursiveMode → Except String Unit} {config : FileWatcherConfig}
    {early : List (Except String Ev)} {s₀ s : Watching Ev} {es : List (WatchingEvent Ev)}
    (hstart : Watching.start recommendedWatcher watch config early = .ok s₀)
    (h : exec Watching.step s₀ es = some s) (hrunning : s.ending = none) :
    Attains Watching.step (fun _ ev => ev.handles = true) s fun s' =>
      (∀ sub, s'.given sub = due sub (beforeError s.posted)) ∧
      match firstError s.posted with
      | none => s'.ending = none ∧ s'.queue = []
      | some error => s'.ending = some (.failed (.message error)) ∧ s'.watches = none := by
  refine attains_of_measure (I := fun s' => Keeps config s' ∧ s'.posted = s.posted ∧
    (s'.ending = none ∨ ∃ what, s'.ending = some (.failed what))) (fun s' => s'.queue.length)
    ⟨keeps_of_exec hstart h, rfl, Or.inl hrunning⟩ ?_ ?_ ?_
  · rintro s₁ ev s₂ ⟨hs, hposted, -⟩ hhandles hstep
    cases ev with
    | report | post | stop | kill | release => cases hhandles
    | handle =>
      obtain ⟨state, msg, rest, -, -, -, hposted', -, -, hcase⟩ := handle_cases hstep
      refine ⟨hs.step hstep, hposted'.trans hposted, ?_⟩
      rcases hcase with ⟨-, -, hending⟩ | ⟨error, -, -, hending⟩
      · exact Or.inl hending
      · exact Or.inr ⟨_, hending⟩
  · rintro s₁ ev s₂ - hhandles hstep
    cases ev with
    | report | post | stop | kill | release => cases hhandles
    | handle =>
      obtain ⟨state, msg, rest, -, hqueue, hqueue', -⟩ := handle_cases hstep
      rw [hqueue, hqueue']
      exact Nat.lt_succ_self rest.length
  · rintro s' ⟨hs, hposted, hending | ⟨what, hending⟩⟩ hstuck
    · have hleft := hs.left
      simp only [Watching.Left, hending] at hleft
      obtain ⟨state, hstate, -, -, -, hsound⟩ := hleft
      have hqueue : s'.queue = [] := by
        cases hqueue : s'.queue with
        | nil => rfl
        | cons msg rest =>
          -- the actor could handle the next message
          have hnone := hstuck .handle rfl
          simp [Watching.step, hqueue, System.step, hstate] at hnone
      have hall : s.posted = s'.handled := by
        rw [← hposted, hs.posted, hqueue]
        rfl
      obtain ⟨hbefore, hfirst⟩ := beforeError_eq_self hsound
      rw [hall, hbefore, hfirst]
      exact ⟨hs.given, hending, hqueue⟩
    · obtain ⟨hwatches, error, rfl, hfirst, hhandled⟩ := hs.of_failed hending
      rw [hposted] at hfirst hhandled
      rw [hfirst]
      refine ⟨fun sub => ?_, hending, hwatches⟩
      rw [hs.given, hhandled, due_cons_fwError]

/-- A subscription, an event, an error and an event behind it wait. -/
theorem reports_arrive_error :
    ∃ s₀ s : Watching ℕ, ∃ es,
      Watching.start (.ok ()) (fun _ _ => .ok ()) ⟨["log"], []⟩ [] = .ok s₀ ∧
      exec Watching.step s₀ es = some s ∧
      (s.queue.length, firstError s.posted, due ⟨1⟩ (beforeError s.posted)) =
        (4, some "overflow", [1]) ∧
      Attains Watching.step (fun _ ev => ev.handles = true) s fun s' =>
        (∀ sub, s'.given sub = due sub (beforeError s.posted)) ∧
        match firstError s.posted with
        | none => s'.ending = none ∧ s'.queue = []
        | some error => s'.ending = some (.failed (.message error)) ∧ s'.watches = none := by
  let config : FileWatcherConfig := ⟨["log"], []⟩
  let s₀ : Watching ℕ :=
    { actor := { state := some ⟨some config.paths, ∅⟩, history := [] }
      queue := [], posted := [], ending := none, boxed := none }
  have hstart : Watching.start (.ok ()) (fun _ _ => .ok ()) config [] = .ok s₀ := rfl
  let es : List (WatchingEvent ℕ) := [.post (.subscribe (.loc 1) ⟨1⟩ ⟨1⟩), .report (.ok 1),
    .report (.error "overflow"), .report (.ok 2)]
  obtain ⟨s, hs, hpost⟩ := (Option.any_eq_true _ _).mp (show
    (exec Watching.step s₀ es).any (fun s => decide ((s.queue.length, firstError s.posted,
      due ⟨1⟩ (beforeError s.posted)) = (4, some "overflow", [1])) &&
      decide (s.ending = none)) = true by decide)
  rw [Bool.and_eq_true, decide_eq_true_eq, decide_eq_true_eq] at hpost
  exact ⟨s₀, s, es, hstart, hs, hpost.1, reports_arrive hstart hs hpost.2⟩

end RactorActors.FileWatcher
