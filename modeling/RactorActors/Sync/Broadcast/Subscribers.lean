import RactorActors.Sync.Broadcast.Delivery

/-!
# A broadcaster and the actors it broadcasts to

The broadcaster with its mailbox, and targets that are actors which handle the message type of the
broadcaster themselves (`get_unit_mapped_target`). Such an actor may end at any moment, also while
the broadcaster goes through its targets, and what is cast to it from then on fails.

* `Cluster`: the broadcaster, its mailbox, and what each actor's mailbox was given;
* `Arrives`: each actor was given the broadcasts that were made while it was registered, in order,
  up to its end;
* `broadcasts_arrive`: so it is in every run, whatever the other actors do; two actors that were
  registered for the same broadcasts were given the same messages in the same order;
* `posted_broadcasts_arrive`: a broadcaster that goes on with dead targets, and that nobody stops,
  gets all that was posted to the actors that have not ended.
-/

namespace RactorActors.Sync.Broadcast

open LabelledRun

/-- A broadcaster among the actors that it broadcasts to. -/
structure Cluster (T : Type) where
  broadcaster : System T
  /-- The broadcaster's mailbox, next message first. -/
  queue : List (BroadcasterMessage T)
  /-- The messages that were posted while the broadcaster ran, newest first. -/
  posted : List (BroadcasterMessage T)
  /-- The actors that have ended. -/
  ended : List ActorId
  /-- What the broadcaster has put into the mailbox of each actor, oldest first. -/
  inbox : ActorId → List T

/-- The events of a cluster. -/
inductive ClusterEvent (T : Type)
  /-- A client casts a message to the broadcaster. -/
  | post (msg : BroadcasterMessage T)
  /-- The broadcaster handles the next message, going through its map in this order. The actors
  `dying` end in the meantime, before it comes to them. -/
  | handle (order : List ((_ : ActorId) × BroadcastTarget)) (dying : List ActorId)
  /-- The broadcaster takes a stop. -/
  | stop
  /-- An actor ends. -/
  | ends (who : ActorId)

/-- `IdTarget::send`, where the actors `down` have ended. -/
def idTargetSend (down : List ActorId) (target : BroadcastTarget) :
    Except ActorProcessingErr Unit :=
  if target.id ∈ down then .error (.messaging .sendErr) else .ok ()

section Inbox

variable {T : Type}

/-- What one handled message has put into the mailbox of an actor. -/
def Entry.given (e : Entry T) (who : ActorId) : List T :=
  (e.sent.filter fun sent => sent.target.id = who && !sent.failed).map (·.message)

/-- The actor is running. -/
def System.isRunning (s : System T) : Bool :=
  match s.phase with
  | .running _ => true
  | _ => false

namespace Cluster

/-- The broadcaster as it is started. -/
def start (config : BroadcasterConfig) : Option (Cluster T) :=
  (run config []).map fun broadcaster =>
    { broadcaster, queue := [], posted := [], ended := [], inbox := fun _ => [] }

/-- What the newest entry of the history has put into the mailboxes. -/
def newest (s : System T) (who : ActorId) : List T :=
  (s.history.head?.map fun e => e.given who).getD []

/-- One step of the cluster. -/
def step (c : Cluster T) : ClusterEvent T → Option (Cluster T)
  | .post msg =>
    if c.broadcaster.isRunning then
      some { c with queue := c.queue ++ [msg], posted := msg :: c.posted }
    else some c
  | .handle order dying =>
    match c.queue with
    | msg :: rest =>
      (c.broadcaster.step (.handle msg order (idTargetSend (dying ++ c.ended)))).map
        fun broadcaster =>
          { c with
            broadcaster
            queue := rest
            ended := dying ++ c.ended
            inbox := fun who => c.inbox who ++ newest broadcaster who }
    | [] => none
  | .stop => (c.broadcaster.step .stop).map fun broadcaster => { c with broadcaster }
  | .ends who => some { c with ended := who :: c.ended }

end Cluster

/-! ## What one message gives to an actor -/

/-- What is registered under an id is a target with this id. -/
theorem id_of_registered {who : ActorId} {target : BroadcastTarget}
    {msgs : List (BroadcasterMessage T)} (h : registered who msgs = some target) :
    target.id = who := by
  induction msgs with
  | nil => cases h
  | cons msg old ih =>
    cases msg with
    | broadcast | listTargets => exact ih h
    | addTarget target' =>
      rw [registered] at h
      split at h
      · rename_i hid
        rw [Option.some.injEq] at h
        exact h ▸ hid
      · exact ih h
    | removeTarget id =>
      rw [registered] at h
      split at h
      · cases h
      · exact ih h

/-- Every call that a handler makes is for an entry of the map. -/
theorem sent_of_handle {order : List ((_ : ActorId) × BroadcastTarget)}
    {sends : BroadcastTarget → Except ActorProcessingErr Unit} {state : BroadcasterState}
    {msg : BroadcasterMessage T} {sent : Sent T}
    (h : sent ∈ (handle order sends state msg).sent) :
    ∃ entry ∈ order, ∃ message, sent = sentOf message sends entry := by
  cases msg with
  | addTarget | removeTarget | listTargets => cases h
  | broadcast message =>
    have hsome {entries : List ((_ : ActorId) × BroadcastTarget)}
        (hsub : ∀ entry ∈ entries, entry ∈ order)
        (hsent : (handle order sends state (.broadcast message)).sent =
          entries.map (sentOf message sends)) :
        ∃ entry ∈ order, ∃ message, sent = sentOf message sends entry := by
      rw [hsent] at h
      obtain ⟨entry, hentry, heq⟩ := List.mem_map.mp h
      exact ⟨entry, hsub entry hentry, message, heq.symm⟩
    rcases hresult : (forward state.continueWithDeadTargets message sends order).2 with
      what | ⟨⟨⟩⟩
    · obtain ⟨-, done, last, rest, rfl, hsent, -⟩ := forward_error hresult
      refine hsome (fun entry hentry => ?_) hsent
      rw [List.append_cons]
      exact List.mem_append_left rest hentry
    · exact hsome (fun _ hentry => hentry) (forward_ok hresult).1

/-- An actor is given what is sent to it, unless it has ended. -/
theorem given_eq {state : BroadcasterState} {old : List (BroadcasterMessage T)}
    (hregistered : ∀ who, state.targets.lookup who = registered who old)
    {order : List ((_ : ActorId) × BroadcastTarget)}
    (horder : order.Perm state.targets.entries) {down : List ActorId} {e : Entry T}
    (hsent : e.sent = (handle order (idTargetSend down) state e.msg).sent) (who : ActorId) :
    e.given who = if who ∈ down then [] else (e.sentTo who).map (·.2) := by
  have hcall : ∀ sent ∈ e.sent, sent.target.id = sent.who ∧
      (sent.failed = decide (sent.who ∈ down)) := by
    intro sent hin
    rw [hsent] at hin
    obtain ⟨⟨key, target⟩, hentry, message, rfl⟩ := sent_of_handle hin
    -- the entry is the one that is registered under its key
    have hlookup : state.targets.lookup key = some target :=
      AList.mem_lookup_iff.mpr (horder.mem_iff.mp hentry)
    have hid : target.id = key := id_of_registered ((hregistered key).symm.trans hlookup)
    refine ⟨hid, ?_⟩
    simp only [Sent.failed, sentOf, idTargetSend, hid]
    by_cases hdown : key ∈ down <;> simp [hdown]
  have hfilter : e.sent.filter (fun sent => sent.target.id = who && !sent.failed) =
      if who ∈ down then [] else e.sent.filter (·.who = who) := by
    split
    · rename_i hdown
      rw [List.filter_eq_nil_iff]
      intro sent hin
      obtain ⟨hid, hfailed⟩ := hcall sent hin
      rw [hid, hfailed]
      by_cases hwho : sent.who = who <;> simp [hwho, hdown]
    · rename_i hup
      refine List.filter_congr fun sent hin => ?_
      obtain ⟨hid, hfailed⟩ := hcall sent hin
      rw [hid, hfailed]
      by_cases hwho : sent.who = who <;> simp [hwho, hup]
  rw [Entry.given, hfilter]
  split
  · rfl
  · rw [Entry.sentTo, List.map_map]
    rfl

/-- A message is handled. -/
theorem step_handle {s s' : System T} {msg : BroadcasterMessage T}
    {order : List ((_ : ActorId) × BroadcastTarget)}
    {sends : BroadcastTarget → Except ActorProcessingErr Unit}
    (h : s.step (.handle msg order sends) = some s') :
    ∃ state e, s.phase = .running state ∧ order.Perm state.targets.entries ∧ e.msg = msg ∧
      e.sent = (handle order sends state msg).sent ∧ s'.history = e :: s.history ∧
      (((handle order sends state msg).result = .ok () ∧ ∃ state', s'.phase = .running state') ∨
        ∃ what, (handle order sends state msg).result = .error what ∧ s'.phase = .failed what) := by
  cases hphase : s.phase with
  | stopped | failed what => simp [System.step, hphase] at h
  | running state =>
    simp only [System.step, hphase] at h
    split at h
    · rename_i horder
      rw [Option.some.injEq] at h
      refine ⟨state, ⟨msg, (handle order sends state msg).sent,
        (handle order sends state msg).replies⟩, rfl, horder, rfl, rfl, h ▸ rfl, ?_⟩
      rcases hresult : (handle order sends state msg).result with what | ⟨⟨⟩⟩
      · exact Or.inr ⟨what, rfl, by rw [← h]; simp only [hresult]⟩
      · exact Or.inl ⟨rfl, (handle order sends state msg).state, by rw [← h]; simp only [hresult]⟩
    · cases h

/-! ## The cluster -/

/-- What was due to an actor, given the messages handled. -/
def Cluster.due (config : BroadcasterConfig) (c : Cluster T) (who : ActorId) : List T :=
  (Broadcast.due who (config.messages c.broadcaster.history)).map (·.2)

/-- **The invariant.** What the actors were given is what was due to them. -/
structure Arrives (config : BroadcasterConfig) (c : Cluster T) : Prop where
  sending : Sending config c.broadcaster
  /-- What was posted was handled or waits, in order. -/
  posted : c.posted = c.queue.reverse ++ c.broadcaster.history.map (·.msg)
  /-- An actor was given what was due to it up to some moment. -/
  inbox_le : ∀ who, c.inbox who <+: c.due config who
  /-- It was given all of it if it has not ended. -/
  inbox_eq : (∀ what, c.broadcaster.phase ≠ .failed what) →
    ∀ who, who ∉ c.ended → c.inbox who = c.due config who
  /-- The broadcaster fails over a registered actor that has ended. -/
  failed : ∀ what, c.broadcaster.phase = .failed what →
    ∃ who ∈ c.ended, ∃ e old, c.broadcaster.history = e :: old ∧
      (∃ message, e.msg = .broadcast message) ∧ (registered who (config.messages old)).isSome

/-- What a message adds to what is due. -/
theorem due_cons (config : BroadcasterConfig) (who : ActorId) (e : Entry T) (old : List (Entry T)) :
    (due who (config.messages (e :: old))).map (·.2) =
      (due who (config.messages old)).map (·.2) ++
        (owed who (config.messages old) e.msg).map (·.2) := by
  rw [← List.map_append]
  rfl

/-- At most one message is owed at a time. -/
theorem length_owed_le (who : ActorId) (old : List (BroadcasterMessage T))
    (msg : BroadcasterMessage T) : (owed who old msg).length ≤ 1 := by
  cases msg with
  | broadcast message => cases hreg : registered who old <;> simp [owed, hreg]
  | _ => exact Nat.zero_le 1

/-- A short list of which another one is a part is this one or there is none of it. -/
theorem eq_nil_or_eq_of_sublist {α : Type} {l l' : List α} (h : l.Sublist l')
    (hlen : l'.length ≤ 1) : l = [] ∨ l = l' := by
  cases l with
  | nil => exact Or.inl rfl
  | cons a l =>
    exact Or.inr (h.eq_of_length_le (Nat.le_trans hlen (Nat.succ_le_succ (Nat.zero_le _))))

/-- Of the calls that a handler makes, those that fail are for actors that have ended. -/
theorem ended_of_error {state : BroadcasterState} {old : List (BroadcasterMessage T)}
    (hregistered : ∀ who, state.targets.lookup who = registered who old)
    {order : List ((_ : ActorId) × BroadcastTarget)}
    (horder : order.Perm state.targets.entries) {down : List ActorId} {msg : BroadcasterMessage T}
    {sent : Sent T} (hin : sent ∈ (handle order (idTargetSend down) state msg).sent)
    {what : ActorProcessingErr} (herror : sent.result = .error what) :
    ∃ who ∈ down, (registered who old).isSome := by
  obtain ⟨⟨key, target⟩, hentry, message, rfl⟩ := sent_of_handle hin
  have hlookup : state.targets.lookup key = some target :=
    AList.mem_lookup_iff.mpr (horder.mem_iff.mp hentry)
  rw [hregistered] at hlookup
  refine ⟨key, ?_, by rw [hlookup]; rfl⟩
  rw [sentOf, idTargetSend] at herror
  split at herror
  · rename_i hdown
    rwa [id_of_registered hlookup] at hdown
  · cases herror

/-- **A message is handled.** -/
theorem Arrives.handle {config : BroadcasterConfig} {c : Cluster T} (hc : Arrives config c)
    {msg : BroadcasterMessage T} {rest : List (BroadcasterMessage T)}
    (hqueue : c.queue = msg :: rest) {order : List ((_ : ActorId) × BroadcastTarget)}
    {dying : List ActorId} {broadcaster : System T}
    (h : c.broadcaster.step (.handle msg order (idTargetSend (dying ++ c.ended))) =
      some broadcaster) :
    Arrives config { c with
      broadcaster
      queue := rest
      ended := dying ++ c.ended
      inbox := fun who => c.inbox who ++ Cluster.newest broadcaster who } := by
  have hsending := hc.sending.step h
  obtain ⟨state, e, hphase, horder, rfl, hsent, hhistory, hresult⟩ := step_handle h
  obtain ⟨-, hregistered⟩ := hc.sending.tracked state hphase
  have hgiven := given_eq hregistered horder hsent
  have hnewest (who : ActorId) : Cluster.newest broadcaster who = e.given who := by
    simp only [Cluster.newest, hhistory, List.head?_cons, Option.map_some, Option.getD_some]
  have hup (who : ActorId) (hwho : who ∉ dying ++ c.ended) :
      c.inbox who = c.due config who := by
    refine hc.inbox_eq (fun what => ?_) who fun hended => hwho (List.mem_append_right _ hended)
    rw [hphase]
    exact Phase.noConfusion
  have hdue (who : ActorId) : (due who (config.messages broadcaster.history)).map (·.2) =
      c.due config who ++ (owed who (config.messages c.broadcaster.history) e.msg).map (·.2) := by
    rw [hhistory, due_cons]
    rfl
  refine ⟨hsending, ?_, fun who => ?_, fun hrunning who hwho => ?_, fun what hfailed => ?_⟩
  · simp only [hc.posted, hqueue, hhistory, List.reverse_cons, List.map_cons, List.append_assoc,
      List.singleton_append]
  · show c.inbox who ++ Cluster.newest broadcaster who <+: (due who _).map (·.2)
    rw [hnewest, hgiven, hdue]
    by_cases hwho : who ∈ dying ++ c.ended
    · rw [if_pos hwho, List.append_nil]
      exact (hc.inbox_le who).trans (List.prefix_append _ _)
    · rw [if_neg hwho, hup who hwho, List.prefix_append_right_inj]
      -- it was sent what it is owed, or the broadcast has failed before
      have hsub : (e.sentTo who).Sublist
          (owed who (config.messages c.broadcaster.history) e.msg) := by
        rcases hresult with ⟨hok, -⟩ | ⟨what, herror, -⟩
        · rw [(handle_ok hregistered horder hsent hok).1 who]
        · exact (handle_error hregistered horder hsent herror).2.2.1 who
      rcases eq_nil_or_eq_of_sublist hsub (length_owed_le _ _ _) with hnone | hall
      · rw [hnone]
        exact List.nil_prefix
      · simp only [hall, List.prefix_rfl]
  · show c.inbox who ++ Cluster.newest broadcaster who = (due who _).map (·.2)
    rw [hnewest, hgiven, hdue, if_neg hwho, hup who hwho]
    rcases hresult with ⟨hok, -⟩ | ⟨what, -, hfailed⟩
    · rw [(handle_ok hregistered horder hsent hok).1 who]
    · exact absurd hfailed (hrunning what)
  · rcases hresult with ⟨-, state', hphase'⟩ | ⟨what', herror, -⟩
    · rw [hphase'] at hfailed
      cases hfailed
    · obtain ⟨-, hbroadcast, -, -, sent, hin, hwhat⟩ :=
        handle_error hregistered horder hsent herror
      rw [hsent] at hin
      obtain ⟨who, hdown, hreg⟩ := ended_of_error hregistered horder hin hwhat
      exact ⟨who, hdown, e, c.broadcaster.history, hhistory, hbroadcast, hreg⟩

/-- **Step lemma.** -/
theorem Arrives.step {config : BroadcasterConfig} {c c' : Cluster T} {ev : ClusterEvent T}
    (hc : Arrives config c) (h : c.step ev = some c') : Arrives config c' := by
  cases ev with
  | post msg =>
    simp only [Cluster.step] at h
    split at h <;> rw [Option.some.injEq] at h <;> subst h
    · refine ⟨hc.sending, ?_, hc.inbox_le, hc.inbox_eq, hc.failed⟩
      simp only [hc.posted, List.reverse_append, List.reverse_cons, List.reverse_nil,
        List.nil_append, List.cons_append]
    · exact hc
  | handle order dying =>
    simp only [Cluster.step] at h
    split at h
    · rename_i msg rest hqueue
      rw [Option.map_eq_some_iff] at h
      obtain ⟨broadcaster, hstep, rfl⟩ := h
      exact hc.handle hqueue hstep
    · cases h
  | stop =>
    simp only [Cluster.step, Option.map_eq_some_iff] at h
    obtain ⟨broadcaster, hstep, rfl⟩ := h
    have hsending := hc.sending.step hstep
    simp only [System.step] at hstep
    split at hstep
    · rename_i state hphase
      rw [Option.some.injEq] at hstep
      subst hstep
      refine ⟨hsending, hc.posted, hc.inbox_le, fun _ => hc.inbox_eq fun what => ?_,
        fun what hfailed => Phase.noConfusion hfailed⟩
      rw [hphase]
      exact Phase.noConfusion
    · cases hstep
  | ends who =>
    simp only [Cluster.step, Option.some.injEq] at h
    subst h
    refine ⟨hc.sending, hc.posted, hc.inbox_le, fun hrunning who' hwho => ?_,
      fun what hfailed => ?_⟩
    · exact hc.inbox_eq hrunning who' fun hended => hwho (List.mem_cons_of_mem _ hended)
    · obtain ⟨who', hended, hcause⟩ := hc.failed what hfailed
      exact ⟨who', List.mem_cons_of_mem _ hended, hcause⟩

/-- A broadcaster begins with nothing due. -/
theorem arrives_start {config : BroadcasterConfig} {c : Cluster T}
    (h : Cluster.start config = some c) : Arrives config c := by
  rw [Cluster.start, Option.map_eq_some_iff] at h
  obtain ⟨broadcaster, hrun, rfl⟩ := h
  have hsending := sending_of_run hrun
  have hhistory : broadcaster.history = [] := by
    cases hrun
    rfl
  have hdue (who : ActorId) : (due who (config.messages broadcaster.history)).map (·.2) = [] := by
    rw [hhistory, ← (complete_nil config).seen who]
    rfl
  refine ⟨hsending, by rw [hhistory]; rfl, fun _ => List.nil_prefix, fun _ who _ => (hdue who).symm,
    fun what hfailed => ?_⟩
  cases hrun
  cases hfailed

/-- **Run lemma.** -/
theorem arrives_of_exec {config : BroadcasterConfig} {c₀ c : Cluster T}
    {es : List (ClusterEvent T)} (hstart : Cluster.start config = some c₀)
    (h : exec Cluster.step c₀ es = some c) : Arrives config c :=
  exec_invariant h (arrives_start hstart) fun _ _ _ hc hs => hc.step hs

/-- **Broadcasts arrive.** Whatever the actors do, and in whatever order the targets are gone
through: the broadcaster handles what is posted to it, in order. Each actor is given the broadcasts
that were made while it was registered, in order and without a gap, up to some moment, and all of
them if it has not ended and the broadcaster has not failed; so of two actors that were registered
for the same broadcasts, one was given what the other was given, or a part of it that came first.
The broadcaster fails only without `continue_with_dead_targets`, at a broadcast to a registered
actor that has ended. -/
theorem broadcasts_arrive {config : BroadcasterConfig} {c₀ c : Cluster T}
    {es : List (ClusterEvent T)} (hstart : Cluster.start config = some c₀)
    (h : exec Cluster.step c₀ es = some c) :
    c.posted = c.queue.reverse ++ c.broadcaster.history.map (·.msg) ∧
    (∀ who, c.inbox who <+: c.due config who) ∧
    ((∀ what, c.broadcaster.phase ≠ .failed what) →
      ∀ who, who ∉ c.ended → c.inbox who = c.due config who) ∧
    (∀ who who', c.due config who = c.due config who' →
      c.inbox who <+: c.inbox who' ∨ c.inbox who' <+: c.inbox who) ∧
    ∀ what, c.broadcaster.phase = .failed what →
      config.continueWithDeadTargets = false ∧
        ∃ who ∈ c.ended, ∃ e old, c.broadcaster.history = e :: old ∧
          (∃ message, e.msg = .broadcast message) ∧
          (registered who (config.messages old)).isSome := by
  have hc := arrives_of_exec hstart h
  refine ⟨hc.posted, hc.inbox_le, hc.inbox_eq, fun who who' hsame => ?_, fun what hfailed => ?_⟩
  · have hle := hc.inbox_le who
    rw [hsame] at hle
    exact List.prefix_or_prefix_of_prefix hle (hc.inbox_le who')
  · exact ⟨(hc.sending.cut what hfailed).1, hc.failed what hfailed⟩

/-- Two actors are registered; the second ends while the second of three broadcasts is made, after
which the broadcaster fails with the third one still waiting. -/
theorem broadcasts_arrive_dead_target :
    ∃ c₀ c : Cluster ℕ, ∃ es,
      Cluster.start ⟨[⟨.loc 1, 1⟩, ⟨.loc 2, 2⟩], false⟩ = some c₀ ∧
      exec Cluster.step c₀ es = some c ∧
      (c.inbox (.loc 1), c.inbox (.loc 2), c.queue.length) = ([7, 8], [7], 1) ∧
      c.inbox (.loc 2) <+: c.due ⟨[⟨.loc 1, 1⟩, ⟨.loc 2, 2⟩], false⟩ (.loc 2) := by
  let config : BroadcasterConfig := ⟨[⟨.loc 1, 1⟩, ⟨.loc 2, 2⟩], false⟩
  let order : List ((_ : ActorId) × BroadcastTarget) :=
    [⟨.loc 1, ⟨.loc 1, 1⟩⟩, ⟨.loc 2, ⟨.loc 2, 2⟩⟩]
  let es : List (ClusterEvent ℕ) := [.post (.broadcast 7), .post (.broadcast 8),
    .handle order.reverse [], .post (.broadcast 9), .handle order [.loc 2]]
  obtain ⟨c₀, hstart, hpost⟩ := (Option.any_eq_true _ _).mp (show
    (Cluster.start config).any (fun c₀ : Cluster ℕ => (exec Cluster.step c₀ es).any fun c =>
      decide ((c.inbox (.loc 1), c.inbox (.loc 2), c.queue.length) = ([7, 8], [7], 1))) = true by
    decide)
  obtain ⟨c, hc, hinbox⟩ := (Option.any_eq_true _ _).mp hpost
  exact ⟨c₀, c, es, hstart, hc, of_decide_eq_true hinbox,
    (broadcasts_arrive hstart hc).2.1 (.loc 2)⟩

/-! ## All that is posted arrives -/

/-- The broadcaster handles a message. -/
def ClusterEvent.handles : ClusterEvent T → Bool
  | .handle .. => true
  | _ => false

/-- A broadcaster that goes on with dead targets handles its next message and runs on. -/
theorem handled_of_handles {config : BroadcasterConfig}
    (hflag : config.continueWithDeadTargets = true) {c c' : Cluster T} (hc : Arrives config c)
    {ev : ClusterEvent T} (hhandles : ev.handles = true) (h : c.step ev = some c') :
    c'.queue.length < c.queue.length ∧ c'.posted = c.posted ∧
      c'.broadcaster.isRunning = true := by
  have hc' := hc.step h
  cases ev with
  | post | stop | ends => cases hhandles
  | handle order dying =>
    simp only [Cluster.step] at h
    split at h
    · rename_i msg rest hqueue
      rw [Option.map_eq_some_iff] at h
      obtain ⟨broadcaster, hstep, rfl⟩ := h
      refine ⟨?_, rfl, ?_⟩
      · rw [hqueue]
        exact Nat.lt_succ_self rest.length
      · obtain ⟨-, -, -, -, -, -, -, ⟨-, state', hphase'⟩ | ⟨what, -, hfailed⟩⟩ := step_handle hstep
        · simp only [System.isRunning, hphase']
        · exact absurd ((hc'.sending.cut what hfailed).1.symm.trans hflag) (by decide)
    · cases h

/-- A running broadcaster can handle what waits. -/
theorem exists_handle {c : Cluster T} (hrunning : c.broadcaster.isRunning = true)
    {msg : BroadcasterMessage T} {rest : List (BroadcasterMessage T)}
    (hqueue : c.queue = msg :: rest) :
    ∃ ev : ClusterEvent T, ev.handles = true ∧ c.step ev ≠ none := by
  cases hphase : c.broadcaster.phase with
  | stopped | failed what =>
    simp only [System.isRunning, hphase] at hrunning
    cases hrunning
  | running state =>
    refine ⟨.handle state.targets.entries [], rfl, ?_⟩
    simp only [Cluster.step, hqueue, System.step, hphase, if_pos (List.Perm.refl _),
      Option.map_some]
    exact Option.some_ne_none _

/-- **Posted broadcasts arrive.** Whatever was posted and whoever has ended: a broadcaster that
goes on with dead targets handles what waits for it in as many steps, in whatever order it goes
through the targets and whoever ends in the meantime. Then each actor that has not ended was given
every broadcast that was posted while it was registered. -/
theorem posted_broadcasts_arrive {config : BroadcasterConfig} {c₀ c : Cluster T}
    {es : List (ClusterEvent T)} (hflag : config.continueWithDeadTargets = true)
    (hstart : Cluster.start config = some c₀) (h : exec Cluster.step c₀ es = some c)
    (hrunning : c.broadcaster.isRunning = true) :
    Attains Cluster.step (fun _ ev => ev.handles = true) c fun c' =>
      c'.queue = [] ∧ ∀ who, who ∉ c'.ended → c'.inbox who =
        (due who (c.posted ++ (config.initialTargets.map .addTarget).reverse)).map (·.2) := by
  refine attains_of_measure (I := fun c' => Arrives config c' ∧ c'.posted = c.posted ∧
    c'.broadcaster.isRunning = true) (fun c' => c'.queue.length)
    ⟨arrives_of_exec hstart h, rfl, hrunning⟩ ?_ ?_ ?_
  · rintro c₁ ev c₂ ⟨hc, hposted, -⟩ hhandles hs
    obtain ⟨-, hposted', hrunning'⟩ := handled_of_handles hflag hc hhandles hs
    exact ⟨hc.step hs, hposted'.trans hposted, hrunning'⟩
  · rintro c₁ ev c₂ ⟨hc, -, -⟩ hhandles hs
    exact (handled_of_handles hflag hc hhandles hs).1
  · rintro c' ⟨hc, hposted, hrunning'⟩ hstuck
    have hqueue : c'.queue = [] := by
      cases hqueue : c'.queue with
      | nil => rfl
      | cons msg rest =>
        obtain ⟨ev, hhandles, hsome⟩ := exists_handle hrunning' hqueue
        exact absurd (hstuck ev hhandles) hsome
    refine ⟨hqueue, fun who hwho => ?_⟩
    have hnot : ∀ what, c'.broadcaster.phase ≠ .failed what := by
      intro what hfailed
      exact absurd ((hc.sending.cut what hfailed).1.symm.trans hflag) (by decide)
    -- nothing waits, so what was handled is what was posted
    have hhandled := hc.posted
    rw [hposted, hqueue, List.reverse_nil, List.nil_append] at hhandled
    rw [hc.inbox_eq hnot who hwho, hhandled]
    rfl

/-- An actor is added and the first one ends; two broadcasts wait. -/
theorem posted_broadcasts_arrive_dead_target :
    ∃ c₀ c : Cluster ℕ, ∃ es,
      Cluster.start ⟨[⟨.loc 1, 1⟩], true⟩ = some c₀ ∧ exec Cluster.step c₀ es = some c ∧
      (c.queue.length, c.ended) = (2, [.loc 1]) ∧
      Attains Cluster.step (fun _ ev => ev.handles = true) c fun c' =>
        c'.queue = [] ∧ ∀ who, who ∉ c'.ended → c'.inbox who =
          (due who (c.posted ++ [.addTarget ⟨.loc 1, 1⟩])).map (·.2) := by
  let config : BroadcasterConfig := ⟨[⟨.loc 1, 1⟩], true⟩
  let es : List (ClusterEvent ℕ) := [.post (.addTarget ⟨.loc 2, 2⟩), .post (.broadcast 7),
    .handle [⟨.loc 1, ⟨.loc 1, 1⟩⟩] [], .ends (.loc 1), .post (.broadcast 8)]
  obtain ⟨c₀, hstart, hpost⟩ := (Option.any_eq_true _ _).mp (show
    (Cluster.start config).any (fun c₀ : Cluster ℕ => (exec Cluster.step c₀ es).any fun c =>
      decide ((c.queue.length, c.ended) = (2, [.loc 1])) && c.broadcaster.isRunning) = true by
    decide)
  obtain ⟨c, hc, hstate⟩ := (Option.any_eq_true _ _).mp hpost
  rw [Bool.and_eq_true, decide_eq_true_eq] at hstate
  exact ⟨c₀, c, es, hstart, hc, hstate.1, posted_broadcasts_arrive rfl hstart hc hstate.2⟩

end Inbox

end RactorActors.Sync.Broadcast
