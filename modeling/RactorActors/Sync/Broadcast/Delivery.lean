import RactorActors.Foundations.AssociationList
import RactorActors.Sync.Broadcast.Impl

/-!
# What a broadcaster sends

What an id is owed depends on the messages alone: `registered` reads the latest target object
under the id off the messages, the initial targets counting as `AddTarget`s handled first, and
`due` lists the broadcasts made while there was one. Neither the order in which the map is gone
through nor the other targets appear in it.

* `Complete`: every broadcast was sent to every id as it was owed;
* `CutShort`: the newest broadcast failed the actor at its only failing `send`, and everything
  before it is complete;
* `broadcasts_delivered`: with `continue_with_dead_targets` every run is complete; without it,
  every run is complete or was cut short by its newest broadcast.
-/

namespace RactorActors.Sync.Broadcast

open LabelledRun

variable {T : Type}

/-- The latest target object registered under `who`, given the messages, newest first. -/
def registered (who : ActorId) : List (BroadcasterMessage T) → Option BroadcastTarget
  | [] => none
  | .addTarget target :: old => if target.id = who then some target else registered who old
  | .removeTarget target :: old => if target = who then none else registered who old
  | _ :: old => registered who old

/-- What a message makes the broadcaster send to `who`, given the messages before it. -/
def owed (who : ActorId) (old : List (BroadcasterMessage T)) :
    BroadcasterMessage T → List (BroadcastTarget × T)
  | .broadcast message => (registered who old).toList.map fun target => (target, message)
  | _ => []

/-- The broadcasts made while `who` was registered, oldest first, with the target object of each
time. -/
def due (who : ActorId) : List (BroadcasterMessage T) → List (BroadcastTarget × T)
  | [] => []
  | msg :: old => due who old ++ owed who old msg

/-- The messages of a history, newest first, the initial targets being added first of all. -/
def BroadcasterConfig.messages (config : BroadcasterConfig) (history : List (Entry T)) :
    List (BroadcasterMessage T) :=
  history.map (·.msg) ++ (config.initialTargets.map .addTarget).reverse

/-- The call returned an error. -/
def Sent.failed (sent : Sent T) : Bool :=
  match sent.result with
  | .ok () => false
  | .error _ => true

/-- What a message sent to the object registered under `who`. -/
def Entry.sentTo (e : Entry T) (who : ActorId) : List (BroadcastTarget × T) :=
  (e.sent.filter (·.who = who)).map fun sent => (sent.target, sent.message)

/-- Every message sent to each id what it was owed, so that each id saw what was due to it. -/
structure Complete (config : BroadcasterConfig) (history : List (Entry T)) : Prop where
  each : ∀ e old, e :: old <:+ history → ∀ who, e.sentTo who = owed who (config.messages old) e.msg
  seen : ∀ who, history.reverse.flatMap (·.sentTo who) = due who (config.messages history)

/-- No `send` of the history failed. -/
def NoneFailed (history : List (Entry T)) : Prop :=
  ∀ e ∈ history, ∀ sent ∈ e.sent, sent.failed = false

/-- The actor failed at the newest broadcast. In it each id was sent at most what it was owed,
and a single `send` failed; everything before it was sent in full. -/
structure CutShort (config : BroadcasterConfig) (s : System T) (e : Entry T)
    (old : List (Entry T)) : Prop where
  newest : s.history = e :: old
  complete : Complete config old
  noneFailed : NoneFailed old
  isBroadcast : ∃ message, e.msg = .broadcast message
  atMostOnce : ∀ who, (e.sentTo who).Sublist (owed who (config.messages old) e.msg)
  oneFailed : e.sent.countP (·.failed) = 1
  failed : ∃ what, s.phase = .failed what ∧ ∃ sent ∈ e.sent, sent.result = .error what

/-! ## The map of targets -/

/-- Going through a map in some order, one comes to each key once. -/
theorem filter_key_eq {targets : HashMap ActorId BroadcastTarget}
    {order : List ((_ : ActorId) × BroadcastTarget)} (h : order.Perm targets.entries)
    (who : ActorId) :
    (order.filter (·.1 = who)).map (·.2) = (targets.lookup who).toList := by
  have hkeys : order.NodupKeys := (List.perm_nodupKeys h).mpr targets.nodupKeys
  rw [AssociationList.map_snd_filter_fst hkeys, List.perm_dlookup who hkeys h]
  rfl

/-- Adding targets one after the other, the map holds what is registered. -/
theorem lookup_foldl_insert (initialTargets : List BroadcastTarget)
    (targets : HashMap ActorId BroadcastTarget) (old : List (BroadcasterMessage T))
    (h : ∀ who, targets.lookup who = registered who old) (who : ActorId) :
    ((initialTargets.map fun target => (target.id, target)).foldl
      (fun targets target => targets.insert target.1 target.2) targets).lookup who =
      registered who ((initialTargets.map .addTarget).reverse ++ old) := by
  induction initialTargets generalizing targets old with
  | nil => exact h who
  | cons target rest ih =>
    rw [List.map_cons, List.foldl_cons, List.map_cons, List.reverse_cons, List.append_assoc]
    apply ih
    intro who'
    rw [List.singleton_append, registered]
    by_cases hwho : target.id = who'
    · rw [if_pos hwho, ← hwho, AList.lookup_insert]
    · rw [if_neg hwho, AList.lookup_insert_ne (Ne.symm hwho), h]

/-- A message changes the map as it changes what is registered. -/
theorem lookup_handle {state : BroadcasterState} {old : List (BroadcasterMessage T)}
    (h : ∀ who, state.targets.lookup who = registered who old)
    (order : List ((_ : ActorId) × BroadcastTarget))
    (sends : BroadcastTarget → Except ActorProcessingErr Unit) (msg : BroadcasterMessage T)
    (who : ActorId) :
    (handle order sends state msg).state.targets.lookup who = registered who (msg :: old) := by
  cases msg with
  | broadcast message => exact h who
  | listTargets reply => exact h who
  | addTarget target =>
    rw [registered]
    by_cases hwho : target.id = who
    · rw [if_pos hwho, ← hwho]
      exact AList.lookup_insert _
    · rw [if_neg hwho, ← h who]
      exact AList.lookup_insert_ne (Ne.symm hwho)
  | removeTarget target =>
    rw [registered]
    by_cases hwho : target = who
    · rw [if_pos hwho, ← hwho]
      exact AList.lookup_erase _ _
    · rw [if_neg hwho, ← h who]
      exact AList.lookup_erase_ne (Ne.symm hwho)

/-- The flag is fixed at the start. -/
theorem continueWithDeadTargets_handle (order : List ((_ : ActorId) × BroadcastTarget))
    (sends : BroadcastTarget → Except ActorProcessingErr Unit) (state : BroadcasterState)
    (msg : BroadcasterMessage T) :
    (handle order sends state msg).state.continueWithDeadTargets =
      state.continueWithDeadTargets := by
  cases msg <;> rfl

/-- The answer to `ListTargets` holds the registered ids, each once. -/
theorem mem_listTargets_iff {state : BroadcasterState} {old : List (BroadcasterMessage T)}
    (h : ∀ who, state.targets.lookup who = registered who old)
    {order : List ((_ : ActorId) × BroadcastTarget)}
    (horder : order.Perm state.targets.entries) (reply : RpcReplyPort) :
    ∃ ids, (listTargets order reply state : Outcome T).replies = [(reply, ids)] ∧ ids.Nodup ∧
      ∀ who, who ∈ ids ↔ (registered who old).isSome = true := by
  refine ⟨order.map (·.1), rfl, ?_, fun who => ?_⟩
  · exact (List.perm_nodupKeys horder).mpr state.targets.nodupKeys
  · rw [← h who, AList.lookup_isSome, AList.mem_keys]
    exact (horder.map Sigma.fst).mem_iff

/-! ## One broadcast -/

/-- The call for one entry of the map. -/
def sentOf (message : T) (sends : BroadcastTarget → Except ActorProcessingErr Unit)
    (entry : (_ : ActorId) × BroadcastTarget) : Sent T :=
  ⟨entry.1, entry.2, message, sends entry.2⟩

/-- A broadcast that succeeds was sent to every entry, and without `continue_with_dead_targets`
no `send` failed. -/
theorem forward_ok {flag : Bool} {message : T}
    {sends : BroadcastTarget → Except ActorProcessingErr Unit}
    {order : List ((_ : ActorId) × BroadcastTarget)}
    (h : (forward flag message sends order).2 = .ok ()) :
    (forward flag message sends order).1 = order.map (sentOf message sends) ∧
      (flag = false → ∀ entry ∈ order, sends entry.2 = .ok ()) := by
  induction order with
  | nil => exact ⟨rfl, fun _ _ hin => absurd hin List.not_mem_nil⟩
  | cons entry rest ih =>
    obtain ⟨who, target⟩ := entry
    rcases hsend : sends target with error | ⟨⟨⟩⟩
    · cases flag with
      | false => simp [forward, hsend] at h
      | true =>
        -- the error is logged, and the loop goes on
        simp only [forward, hsend, Bool.not_true, Bool.false_eq_true, if_false] at h ⊢
        obtain ⟨hsent, -⟩ := ih h
        refine ⟨?_, fun hflag => absurd hflag (by decide)⟩
        rw [hsent, List.map_cons, sentOf, hsend]
    · simp only [forward, hsend] at h ⊢
      obtain ⟨hsent, hok⟩ := ih h
      refine ⟨?_, fun hflag entry hin => ?_⟩
      · rw [hsent, List.map_cons, sentOf, hsend]
      · rcases List.mem_cons.mp hin with rfl | hrest
        · exact hsend
        · exact hok hflag entry hrest

/-- A broadcast that fails was sent to the entries up to the first whose `send` fails. -/
theorem forward_error {flag : Bool} {message : T}
    {sends : BroadcastTarget → Except ActorProcessingErr Unit}
    {order : List ((_ : ActorId) × BroadcastTarget)} {what : ActorProcessingErr}
    (h : (forward flag message sends order).2 = .error what) :
    flag = false ∧ ∃ done last rest, order = done ++ last :: rest ∧
      (forward flag message sends order).1 = (done ++ [last]).map (sentOf message sends) ∧
      (∀ entry ∈ done, sends entry.2 = .ok ()) ∧ sends last.2 = .error what := by
  induction order with
  | nil => cases h
  | cons entry rest ih =>
    obtain ⟨who, target⟩ := entry
    rcases hsend : sends target with error | ⟨⟨⟩⟩
    · cases flag with
      | true =>
        -- the loop goes on, and cannot fail later either
        simp only [forward, hsend, Bool.not_true, Bool.false_eq_true, if_false] at h
        exact absurd (ih h).1 (by decide)
      | false =>
        -- the loop ends at this entry
        simp only [forward, hsend, Bool.not_false, if_true, Except.error.injEq] at h ⊢
        refine ⟨trivial, [], ⟨who, target⟩, rest, rfl, ?_, ?_, h ▸ hsend⟩
        · rw [List.nil_append, List.map_singleton, sentOf, hsend]
        · exact fun _ hin => absurd hin List.not_mem_nil
    · simp only [forward, hsend] at h ⊢
      obtain ⟨hflag, done, last, rest', rfl, hsent, hok, hlast⟩ := ih h
      refine ⟨hflag, ⟨who, target⟩ :: done, last, rest', rfl, ?_, fun entry hin => ?_, hlast⟩
      · rw [hsent, List.cons_append, List.map_cons, sentOf, hsend]
      · rcases List.mem_cons.mp hin with rfl | hdone
        · exact hsend
        · exact hok entry hdone

/-- Of the calls for a list of entries, those for one id. -/
theorem sentTo_eq {e : Entry T} {message : T}
    {sends : BroadcastTarget → Except ActorProcessingErr Unit}
    {entries : List ((_ : ActorId) × BroadcastTarget)}
    (h : e.sent = entries.map (sentOf message sends)) (who : ActorId) :
    e.sentTo who =
      ((entries.filter (·.1 = who)).map (·.2)).map fun target => (target, message) := by
  simp only [Entry.sentTo, h, List.filter_map, List.map_map]
  rfl

/-- What the handler of a message sends, if it succeeds: to each id what it is owed. -/
theorem handle_ok {state : BroadcasterState} {old : List (BroadcasterMessage T)}
    (hregistered : ∀ who, state.targets.lookup who = registered who old)
    {order : List ((_ : ActorId) × BroadcastTarget)}
    (horder : order.Perm state.targets.entries)
    {sends : BroadcastTarget → Except ActorProcessingErr Unit} {e : Entry T}
    (hsent : e.sent = (handle order sends state e.msg).sent)
    (hok : (handle order sends state e.msg).result = .ok ()) :
    (∀ who, e.sentTo who = owed who old e.msg) ∧
      (state.continueWithDeadTargets = false → ∀ sent ∈ e.sent, sent.failed = false) := by
  cases hmsg : e.msg with
  | addTarget target | removeTarget target | listTargets reply =>
    -- nothing is owed, and nothing sent
    rw [hmsg] at hsent
    have hnone : e.sent = [] := hsent
    refine ⟨fun who => ?_, fun _ sent hin => ?_⟩
    · rw [Entry.sentTo, hnone]
      rfl
    · rw [hnone] at hin
      cases hin
  | broadcast message =>
    rw [hmsg] at hsent hok
    obtain ⟨hall, hnofail⟩ := forward_ok hok
    have hsent' : e.sent = order.map (sentOf message sends) := hsent.trans hall
    refine ⟨fun who => ?_, fun hflag sent hin => ?_⟩
    · rw [sentTo_eq hsent', filter_key_eq horder, owed, hregistered]
    · rw [hsent', List.mem_map] at hin
      obtain ⟨entry, hentry, rfl⟩ := hin
      rw [Sent.failed, sentOf, hnofail hflag entry hentry]

/-- What the handler of a message sends, if it fails: only a broadcast without
`continue_with_dead_targets` fails, at its only failing `send`. -/
theorem handle_error {state : BroadcasterState} {old : List (BroadcasterMessage T)}
    (hregistered : ∀ who, state.targets.lookup who = registered who old)
    {order : List ((_ : ActorId) × BroadcastTarget)}
    (horder : order.Perm state.targets.entries)
    {sends : BroadcastTarget → Except ActorProcessingErr Unit} {e : Entry T}
    (hsent : e.sent = (handle order sends state e.msg).sent) {what : ActorProcessingErr}
    (herror : (handle order sends state e.msg).result = .error what) :
    state.continueWithDeadTargets = false ∧ (∃ message, e.msg = .broadcast message) ∧
      (∀ who, (e.sentTo who).Sublist (owed who old e.msg)) ∧
      e.sent.countP (·.failed) = 1 ∧ ∃ sent ∈ e.sent, sent.result = .error what := by
  cases hmsg : e.msg with
  | addTarget target | removeTarget target | listTargets reply =>
    rw [hmsg] at herror
    cases herror
  | broadcast message =>
    rw [hmsg] at hsent herror
    obtain ⟨hflag, done, last, rest, rfl, hupto, hok, hlast⟩ := forward_error herror
    have hsent' : e.sent = (done ++ [last]).map (sentOf message sends) := hsent.trans hupto
    refine ⟨hflag, ⟨message, rfl⟩, fun who => ?_, ?_, sentOf message sends last, ?_, hlast⟩
    · -- the entries gone through are among those of the map
      rw [sentTo_eq hsent', owed, ← hregistered, ← filter_key_eq horder]
      apply List.Sublist.map
      apply List.Sublist.map
      apply List.Sublist.filter
      rw [List.append_cons done last rest]
      exact List.sublist_append_left _ _
    · -- the calls before the last one succeeded
      have hdone : (done.map (sentOf message sends)).countP (·.failed) = 0 := by
        rw [List.countP_eq_zero]
        intro sent hin
        rw [List.mem_map] at hin
        obtain ⟨entry, hentry, rfl⟩ := hin
        rw [Sent.failed, sentOf, hok entry hentry]
        exact Bool.false_ne_true
      rw [hsent', List.map_append, List.countP_append, hdone, List.map_singleton,
        List.countP_singleton, Sent.failed, sentOf, hlast]
      rfl
    · rw [hsent', List.map_append]
      exact List.mem_append_right _ (List.mem_singleton_self _)

/-! ## Runs -/

/-- What a step does: a message is handled and recorded, or the actor stops. -/
theorem step_cases {s s' : System T} {e : Event T} (h : s.step e = some s') :
    ∃ state, s.phase = .running state ∧
      ((s'.phase = .stopped ∧ s'.history = s.history) ∨
        ∃ msg order sends e₀, order.Perm state.targets.entries ∧ e₀.msg = msg ∧
          e₀.sent = (handle order sends state msg).sent ∧ s'.history = e₀ :: s.history ∧
          (((handle order sends state msg).result = .ok () ∧
              s'.phase = .running (handle order sends state msg).state) ∨
            ∃ what, (handle order sends state msg).result = .error what ∧
              s'.phase = .failed what)) := by
  cases hphase : s.phase with
  | stopped | failed what => cases e <;> simp [System.step, hphase] at h
  | running state =>
    refine ⟨state, rfl, ?_⟩
    cases e with
    | stop =>
      simp only [System.step, hphase, Option.some.injEq] at h
      exact Or.inl ⟨h ▸ rfl, h ▸ rfl⟩
    | handle msg order sends =>
      simp only [System.step, hphase] at h
      split at h
      · rename_i horder
        rw [Option.some.injEq] at h
        refine Or.inr ⟨msg, order, sends, ⟨msg, (handle order sends state msg).sent,
          (handle order sends state msg).replies⟩, horder, rfl, rfl, h ▸ rfl, ?_⟩
        rcases hres : (handle order sends state msg).result with what | ⟨⟨⟩⟩
        · exact Or.inr ⟨what, rfl, by rw [← h]; simp only [hres]⟩
        · exact Or.inl ⟨rfl, by rw [← h]; simp only [hres]⟩
      · cases h

/-- An entry that sends what is owed keeps the history complete. -/
theorem Complete.cons {config : BroadcasterConfig} {e : Entry T} {old : List (Entry T)}
    (hold : Complete config old)
    (he : ∀ who, e.sentTo who = owed who (config.messages old) e.msg) :
    Complete config (e :: old) := by
  constructor
  · intro e' old' hsuffix
    rcases List.suffix_cons_iff.mp hsuffix with hnow | hbefore
    · obtain ⟨rfl, rfl⟩ := List.cons.inj hnow
      exact he
    · exact hold.each e' old' hbefore
  · intro who
    have hmessages : config.messages (e :: old) = e.msg :: config.messages old := rfl
    rw [List.reverse_cons, List.flatMap_append, hold.seen who, List.flatMap_singleton, he who,
      hmessages, due]

/-- Nothing is due before the first message. -/
theorem complete_nil (config : BroadcasterConfig) :
    Complete config ([] : List (Entry T)) := by
  constructor
  · intro e old hsuffix
    cases List.suffix_nil.mp hsuffix
  · intro who
    rw [BroadcasterConfig.messages, List.map_nil, List.nil_append, List.reverse_nil,
      List.flatMap_nil, ← List.map_reverse]
    induction config.initialTargets.reverse with
    | nil => rfl
    | cons target rest ih =>
      rw [List.map_cons, due, ← ih]
      rfl

/-- While the actor has not failed, it sent everything; if it failed, its newest broadcast was
cut short. The map holds what is registered. -/
structure Sending (config : BroadcasterConfig) (s : System T) : Prop where
  tracked : ∀ state, s.phase = .running state →
    state.continueWithDeadTargets = config.continueWithDeadTargets ∧
      ∀ who, state.targets.lookup who = registered who (config.messages s.history)
  sound : (∀ what, s.phase ≠ .failed what) → Complete config s.history ∧
    (config.continueWithDeadTargets = false → NoneFailed s.history)
  cut : ∀ what, s.phase = .failed what → config.continueWithDeadTargets = false ∧
    ∃ e old, CutShort config s e old

/-- **Step lemma.** -/
theorem Sending.step {config : BroadcasterConfig} {s s' : System T} {e : Event T}
    (hs : Sending config s) (h : s.step e = some s') : Sending config s' := by
  obtain ⟨state, hphase, hcase⟩ := step_cases h
  obtain ⟨hflag, hregistered⟩ := hs.tracked state hphase
  obtain ⟨hcomplete, hnone⟩ := hs.sound fun what => by rw [hphase]; exact Phase.noConfusion
  rcases hcase with ⟨hphase', hhistory⟩ |
    ⟨msg, order, sends, e₀, horder, rfl, hsent, hhistory, ⟨hok, hphase'⟩ | ⟨what, herr, hphase'⟩⟩
  · -- the actor stops
    refine ⟨fun state' hrun => ?_, fun _ => ?_, fun what hfail => ?_⟩
    · rw [hphase'] at hrun
      cases hrun
    · rw [hhistory]
      exact ⟨hcomplete, hnone⟩
    · rw [hphase'] at hfail
      cases hfail
  · -- a message is handled, and the actor runs on
    obtain ⟨howed, hnofail⟩ := handle_ok hregistered horder hsent hok
    refine ⟨fun state' hrun => ?_, fun _ => ⟨?_, fun hfalse => ?_⟩, fun what hfail => ?_⟩
    · rw [hphase', Phase.running.injEq] at hrun
      subst hrun
      refine ⟨(continueWithDeadTargets_handle order sends state _).trans hflag, ?_⟩
      rw [hhistory]
      exact lookup_handle hregistered order sends _
    · rw [hhistory]
      exact hcomplete.cons howed
    · rw [hhistory]
      intro e₁ hin
      rcases List.mem_cons.mp hin with rfl | hold
      · exact hnofail (hflag.trans hfalse)
      · exact hnone hfalse e₁ hold
    · rw [hphase'] at hfail
      cases hfail
  · -- a broadcast fails the actor
    obtain ⟨hfalse, hbroadcast, hatMost, hcount, hwhat⟩ :=
      handle_error hregistered horder hsent herr
    have hfalse' : config.continueWithDeadTargets = false := hflag ▸ hfalse
    refine ⟨fun state' hrun => ?_, fun hnot => absurd hphase' (hnot what), fun _ _ => ?_⟩
    · rw [hphase'] at hrun
      cases hrun
    · exact ⟨hfalse', e₀, s.history, hhistory, hcomplete, hnone hfalse', hbroadcast, hatMost,
        hcount, what, hphase', hwhat⟩

/-- **Run lemma.** -/
theorem sending_of_run {config : BroadcasterConfig} {es : List (Event T)} {s : System T}
    (hrun : run config es = some s) : Sending config s := by
  refine exec_invariant (P := Sending config) hrun ?_ fun _ _ _ hs h => hs.step h
  refine ⟨?_, fun _ => ⟨complete_nil config, fun _ _ hin => ?_⟩, ?_⟩
  · rintro _ ⟨⟩
    refine ⟨rfl, fun who => ?_⟩
    have hstart := lookup_foldl_insert config.initialTargets ∅ ([] : List (BroadcasterMessage T))
      (fun _ => AList.lookup_empty _) who
    rw [List.append_nil] at hstart
    exact hstart
  · cases hin
  · intro what hfail
    cases hfail

/-- **Broadcaster delivery.** With `continue_with_dead_targets` the actor does not fail, and
every broadcast is sent once to the latest target object registered under each id and to no
other, so that each id sees the broadcasts made while it was registered, in order. Without it the
same holds, and no `send` fails, unless the newest broadcast failed the actor: in that one each id
is sent the message at most once, a single `send` fails, and everything before it is complete. -/
theorem broadcasts_delivered (config : BroadcasterConfig) {es : List (Event T)} {s : System T}
    (hrun : run config es = some s) :
    (config.continueWithDeadTargets = true →
      Complete config s.history ∧ ∀ what, s.phase ≠ .failed what) ∧
    (config.continueWithDeadTargets = false →
      (Complete config s.history ∧ NoneFailed s.history ∧ ∀ what, s.phase ≠ .failed what) ∨
        ∃ e old, CutShort config s e old) := by
  have hs := sending_of_run hrun
  constructor
  · intro htrue
    have hnot : ∀ what, s.phase ≠ .failed what := by
      intro what hfail
      rw [(hs.cut what hfail).1] at htrue
      cases htrue
    exact ⟨(hs.sound hnot).1, hnot⟩
  · intro hfalse
    by_cases hfailed : ∃ what, s.phase = .failed what
    · obtain ⟨what, hfail⟩ := hfailed
      exact Or.inr (hs.cut what hfail).2
    · have hnot : ∀ what, s.phase ≠ .failed what := fun what hfail => hfailed ⟨what, hfail⟩
      exact Or.inl ⟨(hs.sound hnot).1, (hs.sound hnot).2 hfalse, hnot⟩

/-- Two targets under one id, of which the second counts, and a third one whose `send` fails: the
first broadcast is complete, the second is cut short. -/
theorem broadcasts_delivered_dead_target :
    ∃ s : System ℕ, s.history.map (fun e => e.sent.map fun sent =>
        (sent.target.name, sent.message)) = [[(3, 8)], [], [(2, 7)]] ∧
      ((Complete ⟨[⟨.loc 1, 1⟩, ⟨.loc 1, 2⟩], false⟩ s.history ∧ NoneFailed s.history ∧
          ∀ what, s.phase ≠ .failed what) ∨
        ∃ e old, CutShort ⟨[⟨.loc 1, 1⟩, ⟨.loc 1, 2⟩], false⟩ s e old) := by
  obtain ⟨s, hrun, hpost⟩ := (Option.any_eq_true _ _).mp (show
    (run ⟨[⟨.loc 1, 1⟩, ⟨.loc 1, 2⟩], false⟩
      [.handle (.broadcast 7) [⟨.loc 1, ⟨.loc 1, 2⟩⟩] (fun _ => .ok ()),
        .handle (.addTarget ⟨.loc 3, 3⟩) [⟨.loc 1, ⟨.loc 1, 2⟩⟩] (fun _ => .ok ()),
        .handle (.broadcast 8) [⟨.loc 3, ⟨.loc 3, 3⟩⟩, ⟨.loc 1, ⟨.loc 1, 2⟩⟩] (fun target =>
          if target.name = 3 then .error (.messaging .channelClosed) else .ok ())]).any
      (fun s : System ℕ => decide (s.history.map (fun e => e.sent.map fun sent =>
        (sent.target.name, sent.message)) = [[(3, 8)], [], [(2, 7)]])) = true by decide)
  exact ⟨s, of_decide_eq_true hpost, (broadcasts_delivered _ hrun).2 rfl⟩

end RactorActors.Sync.Broadcast
