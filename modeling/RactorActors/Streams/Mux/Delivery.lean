import Mathlib.Data.List.ReduceOption
import RactorActors.Streams.Mux.End

/-!
# Each target gets its share

What a target is offered is read off the calls (`offersTo`), and so is what is reported of it
(`failuresOf`). With `stop_processing_target_on_failure` a target is offered the items up to its own
first failure (`UntilFailure`), without it all of them. The other targets do not appear in that.

* `Shares`: what each target was offered of the items handled so far;
* `shares_delivered`: at the end of a run each target has had its share, and its failures were
  reported, once each.
-/

namespace RactorActors.Streams.Mux

open LabelledRun

variable {X : Type}

/-- The offer that a call makes to the target, with the target's answer. -/
def Call.offer (target : Target) : Call X → Option (X × Except ActorProcessingErr Unit)
  | .messageReceived target' item result => if target' = target then some (item, result) else none
  | _ => none

@[simp]
theorem Call.offer_messageReceived (target target' : Target) (item : X)
    (result : Except ActorProcessingErr Unit) :
    (Call.messageReceived target' item result).offer target =
      if target' = target then some (item, result) else none := rfl

@[simp]
theorem Call.offer_targetFailed (target : Target) (id : String) (err : ActorProcessingErr) :
    (Call.targetFailed id err : Call X).offer target = none := rfl

@[simp]
theorem Call.offer_endOfStream (target : Target) :
    (Call.endOfStream : Call X).offer target = none := rfl

/-- What the target was offered, with its answers. -/
def offersTo (target : Target) (calls : List (Call X)) :
    List (X × Except ActorProcessingErr Unit) :=
  calls.filterMap (Call.offer target)

/-- The failure under the id that a call reports. -/
def Call.failure (id : String) : Call X → Option ActorProcessingErr
  | .targetFailed target err => if target = id then some err else none
  | _ => none

@[simp]
theorem Call.failure_messageReceived (id : String) (target : Target) (item : X)
    (result : Except ActorProcessingErr Unit) :
    (Call.messageReceived target item result).failure id = none := rfl

@[simp]
theorem Call.failure_targetFailed (id id' : String) (err : ActorProcessingErr) :
    (Call.targetFailed id' err : Call X).failure id = if id' = id then some err else none := rfl

@[simp]
theorem Call.failure_endOfStream (id : String) :
    (Call.endOfStream : Call X).failure id = none := rfl

/-- The failures that were reported under the id. -/
def failuresOf (id : String) (calls : List (Call X)) : List ActorProcessingErr :=
  calls.filterMap (Call.failure id)

/-- The error that a target returned, if it did. -/
def errorOf : Except ActorProcessingErr Unit → Option ActorProcessingErr
  | .ok () => none
  | .error err => some err

@[simp]
theorem errorOf_ok : errorOf (.ok ()) = none := rfl

@[simp]
theorem errorOf_error (err : ActorProcessingErr) : errorOf (.error err) = some err := rfl

/-- The items of `xs` were offered in order, and all of them taken; or they were offered up to the
first one that was answered with an error. -/
def UntilFailure (xs : List X) (offers : List (X × Except ActorProcessingErr Unit)) : Prop :=
  offers.map (·.1) = xs ∧ (∀ offer ∈ offers, errorOf offer.2 = none) ∨
    offers.map (·.1) <+: xs ∧ ∃ before item err, offers = before ++ [(item, .error err)] ∧
      ∀ offer ∈ before, errorOf offer.2 = none

/-- What each target was offered of the items that were handled. -/
structure Shares (config : StreamMuxConfiguration X) (s : System X) : Prop where
  sublist : s.mux.targets.Sublist config.targets
  flag : s.mux.stopProcessingTargetOnFailure = config.stopProcessingTargetOnFailure
  kept : config.stopProcessingTargetOnFailure = false → s.mux.targets = config.targets
  present : ∀ target ∈ s.mux.targets,
    (offersTo target s.calls).map (·.1) = s.handled.reduceOption ∧
      (config.stopProcessingTargetOnFailure = true →
        ∀ offer ∈ offersTo target s.calls, errorOf offer.2 = none)
  removed : ∀ target ∈ config.targets, target ∉ s.mux.targets →
    (offersTo target s.calls).map (·.1) <+: s.handled.reduceOption ∧
      ∃ before item err, offersTo target s.calls = before ++ [(item, .error err)] ∧
        ∀ offer ∈ before, errorOf offer.2 = none
  reported : ∀ target ∈ config.targets, failuresOf target.id s.calls =
    (offersTo target s.calls).filterMap fun offer => errorOf offer.2
  others : ∀ id, id ∉ config.targets.map (·.id) → failuresOf id s.calls = []
  strangers : ∀ target, target ∉ config.targets → offersTo target s.calls = []
  cause : s.mux.stopping ≠ none → none ∈ s.handled ∨
    config.stopProcessingTargetOnFailure = true ∧ s.mux.targets = []

/-- A multiplexer as it is started. -/
theorem shares_preStart (config : StreamMuxConfiguration X) :
    Shares config (System.preStart config) where
  sublist := List.Sublist.refl _
  flag := rfl
  kept := fun _ => rfl
  present := fun _ _ => ⟨rfl, fun _ _ hin => absurd hin List.not_mem_nil⟩
  removed := fun _ hin hout => absurd hin hout
  reported := fun _ _ => rfl
  others := fun _ _ => rfl
  strangers := fun _ _ => rfl
  cause := fun hstop => absurd rfl hstop

/-! ## One item -/

/-- Offers are read call by call. -/
@[simp]
theorem offersTo_append (target : Target) (calls calls' : List (Call X)) :
    offersTo target (calls ++ calls') = offersTo target calls ++ offersTo target calls' :=
  List.filterMap_append

/-- Failures are read call by call. -/
@[simp]
theorem failuresOf_append (id : String) (calls calls' : List (Call X)) :
    failuresOf id (calls ++ calls') = failuresOf id calls ++ failuresOf id calls' :=
  List.filterMap_append

/-- The calls for a target: the offer, and the report of its failure. -/
theorem offer_cons (item : X) (results : Target → Except ActorProcessingErr Unit)
    (target : Target) (rest : List Target) :
    (MuxActor.offer item results (target :: rest)).1 =
        .messageReceived target item (results target) ::
          ((errorOf (results target)).toList.map (.targetFailed target.id) ++
            (MuxActor.offer item results rest).1) ∧
      (MuxActor.offer item results (target :: rest)).2 =
        (errorOf (results target)).toList.map (fun _ => target.id) ++
          (MuxActor.offer item results rest).2 := by
  rcases hres : results target with err | ⟨⟨⟩⟩
  all_goals
    simp only [MuxActor.offer, hres]
    exact ⟨rfl, rfl⟩

/-- Each target of the list is offered the item once. -/
theorem offersTo_offer (item : X) (results : Target → Except ActorProcessingErr Unit)
    {targets : List Target} (hnodup : targets.Nodup) (target : Target) :
    offersTo target (MuxActor.offer item results targets).1 =
      if target ∈ targets then [(item, results target)] else [] := by
  induction targets with
  | nil => rfl
  | cons first rest ih =>
    obtain ⟨hnotin, hrest⟩ := List.nodup_cons.mp hnodup
    have hreport : offersTo target
        ((errorOf (results first)).toList.map (.targetFailed first.id) : List (Call X)) = [] := by
      cases errorOf (results first) <;> simp [offersTo]
    rw [(offer_cons item results first rest).1, ← List.singleton_append, offersTo_append,
      offersTo_append, hreport, List.nil_append, ih hrest]
    by_cases htarget : first = target
    · subst htarget
      rw [if_neg hnotin, if_pos List.mem_cons_self]
      simp [offersTo]
    · have hmem : target ∈ first :: rest ↔ target ∈ rest := by
        rw [List.mem_cons]
        exact or_iff_right (Ne.symm htarget)
      simp only [hmem]
      simp [offersTo, htarget]

/-- The failures of an item are reported under the ids of the targets that failed. -/
theorem failuresOf_offer (item : X) (results : Target → Except ActorProcessingErr Unit)
    (targets : List Target) (id : String) :
    failuresOf id (MuxActor.offer item results targets).1 =
      (targets.filter (·.id = id)).filterMap fun target => errorOf (results target) := by
  induction targets with
  | nil => rfl
  | cons first rest ih =>
    rw [(offer_cons item results first rest).1, ← List.singleton_append, failuresOf_append,
      failuresOf_append, ih]
    by_cases hid : first.id = id
    · rw [List.filter_cons_of_pos (by simpa using hid)]
      cases herror : errorOf (results first) <;> simp [failuresOf, hid, herror]
    · rw [List.filter_cons_of_neg (by simpa using hid)]
      cases errorOf (results first) <;> simp [failuresOf, hid]

/-- The ids to be removed are those of the targets that failed. -/
theorem mem_toBeRemoved (item : X) (results : Target → Except ActorProcessingErr Unit)
    (targets : List Target) (id : String) :
    id ∈ (MuxActor.offer item results targets).2 ↔
      ∃ target ∈ targets, target.id = id ∧ errorOf (results target) ≠ none := by
  induction targets with
  | nil => simp [MuxActor.offer]
  | cons first rest ih =>
    rw [(offer_cons item results first rest).2, List.mem_append, ih]
    simp only [List.mem_cons, or_and_right, exists_or, exists_eq_left]
    refine or_congr_left ?_
    cases errorOf (results first) <;> simp [eq_comm]

/-- Distinct ids name distinct targets. -/
theorem eq_of_id_eq {targets : List Target} (hids : (targets.map (·.id)).Nodup)
    {target target' : Target} (h : target ∈ targets) (h' : target' ∈ targets)
    (hid : target.id = target'.id) : target = target' :=
  List.inj_on_of_nodup_map hids h h' hid

/-- Of targets with distinct ids, one that is left has not failed. -/
theorem mem_remaining {s : MuxActor X} (hids : (s.targets.map (·.id)).Nodup) (item : X)
    (results : Target → Except ActorProcessingErr Unit) (target : Target) :
    target ∈ s.remaining item results ↔
      target ∈ s.targets ∧ errorOf (results target) = none := by
  rw [MuxActor.remaining, List.mem_filter, decide_eq_true_eq, mem_toBeRemoved]
  refine and_congr_right fun hin => ?_
  constructor
  · intro hnot
    by_contra herror
    exact hnot ⟨target, hin, rfl, herror⟩
  · rintro hok ⟨target', hin', hid, herror⟩
    rw [eq_of_id_eq hids hin' hin hid] at herror
    exact herror hok

/-- With distinct ids, the failures reported under a target's id are its own. -/
theorem failuresOf_offer_id {targets all : List Target} (hids : (all.map (·.id)).Nodup)
    (hsub : targets.Sublist all) (item : X) (results : Target → Except ActorProcessingErr Unit)
    {target : Target} (htarget : target ∈ all) :
    failuresOf target.id (MuxActor.offer item results targets).1 =
      (offersTo target (MuxActor.offer item results targets).1).filterMap
        fun offer => errorOf offer.2 := by
  have hnodup : targets.Nodup := (hsub.nodup (hids.of_map _))
  rw [failuresOf_offer, offersTo_offer item results hnodup]
  by_cases hin : target ∈ targets
  · -- no other target has its id
    have honly : targets.filter (·.id = target.id) = [target] := by
      rw [List.filter_congr (q := fun other => decide (other = target)) fun other hother => ?_]
      · rw [List.filter_eq, List.count_eq_one_of_mem hnodup hin]
        rfl
      · exact decide_eq_decide.mpr
          ⟨fun hid => eq_of_id_eq hids (hsub.subset hother) htarget hid, fun heq => heq ▸ rfl⟩
    rw [honly, if_pos hin]
    rfl
  · have hnone : targets.filter (·.id = target.id) = [] := by
      rw [List.filter_eq_nil_iff]
      intro other hother
      rw [decide_eq_true_eq]
      intro hid
      exact hin (eq_of_id_eq hids (hsub.subset hother) htarget hid ▸ hother)
    rw [hnone, if_neg hin]
    rfl

/-! ## Steps -/

/-- The two states agree on everything that the shares are about. -/
structure SameShares (s s' : System X) : Prop where
  targets : s'.mux.targets = s.mux.targets
  flag : s'.mux.stopProcessingTargetOnFailure = s.mux.stopProcessingTargetOnFailure
  stopping : s'.mux.stopping = s.mux.stopping
  handled : s'.handled = s.handled
  calls : s'.calls = s.calls

/-- A supervision event is posted. -/
theorem tell_targets (s : MuxActor X) (evt : SupervisionEvent) :
    (s.tell evt).targets = s.targets ∧
      (s.tell evt).stopProcessingTargetOnFailure = s.stopProcessingTargetOnFailure := by
  unfold MuxActor.tell
  split <;> exact ⟨rfl, rfl⟩

/-- A step handles a message, or leaves all shares alone. -/
theorem sameShares_or_handled {s s' : System X} {e : Event} (h : s.step e = some s') :
    SameShares s s' ∨ ∃ results msg rest, s.mux.exit = none ∧ s.mux.stopping = none ∧
      s' = s.muxHandled msg rest results := by
  cases System.step_cases h with
  | pump e out =>
    obtain ⟨pump, cast⟩ := out
    cases cast with
    | none | some msg => exact Or.inl ⟨rfl, rfl, rfl, rfl, rfl⟩
  | announcePump =>
    obtain ⟨htargets, hflag⟩ := tell_targets s.mux (.actorStarted pumpCell)
    exact Or.inl ⟨htargets, hflag, (tell_fields _ _).2.1, rfl, rfl⟩
  | reportPump exit =>
    obtain ⟨htargets, hflag⟩ := tell_targets s.mux (exit.event pumpCell)
    exact Or.inl ⟨htargets, hflag, (tell_fields _ _).2.1, rfl, rfl⟩
  | handle results msg rest hexit hstop => exact Or.inr ⟨results, msg, rest, hexit, hstop, rfl⟩
  | supervise evt rest =>
    cases evt with
    | _ => exact Or.inl ⟨rfl, rfl, rfl, rfl, rfl⟩
  | takeStop | killPump => exact Or.inl ⟨rfl, rfl, rfl, rfl, rfl⟩

namespace Shares

variable {config : StreamMuxConfiguration X} {s s' : System X}

/-- Nothing is offered, and nothing is reported. -/
theorem of_reads (hs : Shares config s) (htargets : s'.mux.targets = s.mux.targets)
    (hflag : s'.mux.stopProcessingTargetOnFailure = s.mux.stopProcessingTargetOnFailure)
    (hitems : s'.handled.reduceOption = s.handled.reduceOption)
    (hoffers : ∀ target, offersTo target s'.calls = offersTo target s.calls)
    (hfailures : ∀ id, failuresOf id s'.calls = failuresOf id s.calls)
    (hcause : s'.mux.stopping ≠ none → none ∈ s'.handled ∨
      config.stopProcessingTargetOnFailure = true ∧ s'.mux.targets = []) :
    Shares config s' := by
  refine ⟨?_, ?_, ?_, ?_, ?_, ?_, ?_, ?_, hcause⟩
  · exact htargets ▸ hs.sublist
  · exact hflag.trans hs.flag
  · exact fun hfalse => htargets.trans (hs.kept hfalse)
  · simp only [htargets, hitems, hoffers]
    exact hs.present
  · simp only [htargets, hitems, hoffers]
    exact hs.removed
  · simp only [hoffers, hfailures]
    exact hs.reported
  · simp only [hfailures]
    exact hs.others
  · simp only [hoffers]
    exact hs.strangers

/-- A step that leaves all shares alone. -/
theorem of_same (hs : Shares config s) (h : SameShares s s') : Shares config s' := by
  refine hs.of_reads h.targets h.flag ?_ ?_ ?_ ?_
  · rw [h.handled]
  · exact fun target => by rw [h.calls]
  · exact fun id => by rw [h.calls]
  · rw [h.stopping, h.handled, h.targets]
    exact hs.cause

/-- An item is offered to the targets. -/
theorem of_item (hs : Shares config s) (hids : (config.targets.map (·.id)).Nodup) (item : X)
    (results : Target → Except ActorProcessingErr Unit)
    (htargets : s'.mux.targets = if config.stopProcessingTargetOnFailure
      then s.mux.remaining item results else s.mux.targets)
    (hflag : s'.mux.stopProcessingTargetOnFailure = s.mux.stopProcessingTargetOnFailure)
    (hhandled : s'.handled = s.handled ++ [some item])
    (hoffers : ∀ target, offersTo target s'.calls = offersTo target s.calls ++
      offersTo target (MuxActor.offer item results s.mux.targets).1)
    (hfailures : ∀ id, failuresOf id s'.calls = failuresOf id s.calls ++
      failuresOf id (MuxActor.offer item results s.mux.targets).1)
    (hcause : s'.mux.stopping ≠ none →
      config.stopProcessingTargetOnFailure = true ∧ s'.mux.targets = []) :
    Shares config s' := by
  have hids' : (s.mux.targets.map (·.id)).Nodup := (hs.sublist.map _).nodup hids
  have hitems : s'.handled.reduceOption = s.handled.reduceOption ++ [item] := by
    rw [hhandled, List.reduceOption_append]
    rfl
  -- what one target is offered now
  have hin {target : Target} (htarget : target ∈ s.mux.targets) :
      offersTo target s'.calls = offersTo target s.calls ++ [(item, results target)] := by
    rw [hoffers, offersTo_offer item results (hids'.of_map _), if_pos htarget]
  have hout {target : Target} (htarget : target ∉ s.mux.targets) :
      offersTo target s'.calls = offersTo target s.calls := by
    rw [hoffers, offersTo_offer item results (hids'.of_map _), if_neg htarget, List.append_nil]
  have hmem {target : Target} : target ∈ s'.mux.targets ↔ target ∈ s.mux.targets ∧
      (config.stopProcessingTargetOnFailure = true → errorOf (results target) = none) := by
    rw [htargets]
    cases config.stopProcessingTargetOnFailure with
    | false => simp
    | true => simp [mem_remaining hids']
  refine ⟨?_, hflag.trans hs.flag, fun hfalse => ?_, fun target htarget => ?_,
    fun target htarget hgone => ?_, fun target htarget => ?_, fun id hid => ?_,
    fun target htarget => ?_, fun hstop => Or.inr (hcause hstop)⟩
  · rw [htargets]
    split
    · exact List.filter_sublist.trans hs.sublist
    · exact hs.sublist
  · rw [htargets, if_neg (by rw [hfalse]; exact Bool.false_ne_true)]
    exact hs.kept hfalse
  · -- a target that is left takes the item
    obtain ⟨hbefore, hok⟩ := hmem.mp htarget
    obtain ⟨hall, hnone⟩ := hs.present target hbefore
    rw [hin hbefore, hitems, List.map_append, hall]
    refine ⟨rfl, fun htrue offer hoffer => ?_⟩
    rcases List.mem_append.mp hoffer with hold | hnew
    · exact hnone htrue offer hold
    · rw [List.mem_singleton] at hnew
      exact hnew ▸ hok htrue
  · by_cases hbefore : target ∈ s.mux.targets
    · -- a target that is removed now failed at this item
      have hfailed : config.stopProcessingTargetOnFailure = true ∧
          errorOf (results target) ≠ none := by
        by_contra hnot
        refine hgone (hmem.mpr ⟨hbefore, fun htrue => ?_⟩)
        by_contra herror
        exact hnot ⟨htrue, herror⟩
      obtain ⟨hall, hnone⟩ := hs.present target hbefore
      rw [hin hbefore, hitems, List.map_append, hall]
      refine ⟨List.prefix_rfl, ?_⟩
      rcases hres : results target with err | ⟨⟨⟩⟩
      · exact ⟨_, item, err, rfl, hnone hfailed.1⟩
      · rw [hres, errorOf_ok] at hfailed
        exact absurd rfl hfailed.2
    · obtain ⟨hbegins, hlast⟩ := hs.removed target htarget hbefore
      rw [hout hbefore, hitems]
      exact ⟨hbegins.trans (List.prefix_append _ _), hlast⟩
  · rw [hfailures, hoffers, List.filterMap_append, hs.reported target htarget,
      failuresOf_offer_id hids hs.sublist item results htarget]
  · -- no target has this id
    have hnone : s.mux.targets.filter (·.id = id) = [] := by
      rw [List.filter_eq_nil_iff]
      intro target htarget
      rw [decide_eq_true_eq]
      exact fun hsame => hid (List.mem_map.mpr ⟨target, hs.sublist.subset htarget, hsame⟩)
    rw [hfailures, hs.others id hid, failuresOf_offer, hnone]
    rfl
  · rw [hout fun hbefore => htarget (hs.sublist.subset hbefore)]
    exact hs.strangers target htarget

/-- **Step lemma.** -/
theorem step (hs : Shares config s) (hids : (config.targets.map (·.id)).Nodup) {e : Event}
    (h : s.step e = some s') : Shares config s' := by
  rcases sameShares_or_handled h with hsame | ⟨results, msg, rest, hexit, hstop, rfl⟩
  · exact hs.of_same hsame
  · have hcase := MuxActor.handle_cases (s := { s.mux with queue := rest }) hexit hstop results msg
    unfold System.muxHandled
    generalize { s.mux with queue := rest }.handle results msg = out at hcase ⊢
    have hend : ∀ target, offersTo target ([.endOfStream] : List (Call X)) = [] := fun _ => rfl
    have hend' : ∀ id, failuresOf id ([.endOfStream] : List (Call X)) = [] := fun _ => rfl
    cases hcase with
    | kept item hflag =>
      refine hs.of_item hids item results ?_ rfl rfl (fun _ => offersTo_append _ _ _)
        (fun _ => failuresOf_append _ _ _) fun hstop' => absurd hstop hstop'
      rw [← hs.flag, if_neg (by rw [hflag]; exact Bool.false_ne_true)]
    | reduced item hflag =>
      refine hs.of_item hids item results ?_ rfl rfl (fun _ => offersTo_append _ _ _)
        (fun _ => failuresOf_append _ _ _) fun hstop' => absurd hstop hstop'
      rw [← hs.flag, if_pos hflag]
      rfl
    | exhausted item hflag hleft =>
      -- the end is announced behind the offers
      refine hs.of_item hids item results ?_ rfl rfl (fun target => ?_)
        (fun id => ?_) fun _ => ⟨hs.flag ▸ hflag, rfl⟩
      · rw [← hs.flag, if_pos hflag]
        exact hleft.symm
      · rw [offersTo_append, offersTo_append, hend, List.append_nil]
      · rw [failuresOf_append, failuresOf_append, hend', List.append_nil]
    | ended =>
      refine hs.of_reads rfl rfl ?_ (fun target => ?_) (fun id => ?_) fun _ => Or.inl ?_
      · rw [List.reduceOption_append]
        exact List.append_nil _
      · rw [offersTo_append, hend, List.append_nil]
      · rw [failuresOf_append, hend', List.append_nil]
      · exact List.mem_append_right _ (List.mem_singleton_self none)

end Shares

/-- **Run lemma.** -/
theorem shares_of_run {config : StreamMuxConfiguration X}
    (hids : (config.targets.map (·.id)).Nodup) {es : List Event} {s : System X}
    (h : run config es = some s) : Shares config s :=
  exec_invariant h (shares_preStart config) fun _ _ _ hs hstep => hs.step hids hstep

/-! ## The end of a run -/

/-- A multiplexer that has met the end marker has handled the whole stream. -/
theorem items_of_none_mem {config : StreamMuxConfiguration X} {s : System X}
    (hs : Intact config s) (hmarker : none ∈ s.handled) :
    s.handled.reduceOption = config.stream := by
  rcases List.prefix_concat_iff.mp hs.handled with hall | hbefore
  · rw [hall, List.reduceOption_append, List.reduceOption, List.filterMap_map]
    simp
  · have hmem := hbefore.subset hmarker
    rw [List.mem_map] at hmem
    obtain ⟨x, -, hx⟩ := hmem
    cases hx

/-- The items that were handled begin the stream. -/
theorem items_begin {config : StreamMuxConfiguration X} {s : System X}
    (hs : Intact config s) : s.handled.reduceOption <+: config.stream := by
  have hbegins := hs.handled.filterMap id
  have hstream : config.messages.filterMap id = config.stream := by
    rw [StreamMuxConfiguration.messages, List.filterMap_append, List.filterMap_map]
    simp
  rw [hstream] at hbegins
  exact hbegins

/-- What a target is to be offered of the whole stream, given what it answered. -/
def Share (config : StreamMuxConfiguration X)
    (offers : List (X × Except ActorProcessingErr Unit)) : Prop :=
  (config.stopProcessingTargetOnFailure = true → UntilFailure config.stream offers) ∧
    (config.stopProcessingTargetOnFailure = false → offers.map (·.1) = config.stream)

/-- When the multiplexer has ended, each target has had its share. -/
theorem share_of_ended {config : StreamMuxConfiguration X}
    (hids : (config.targets.map (·.id)).Nodup) {es : List Event} {s : System X}
    (h : run config es = some s) (hend : s.mux.exit ≠ none) {target : Target}
    (htarget : target ∈ config.targets) : Share config (offersTo target s.calls) := by
  have hintact := intact_of_run h
  have hs := shares_of_run hids h
  have hcause := hs.cause fun hnone => hend (hintact.running hnone).1
  by_cases hin : target ∈ s.mux.targets
  · -- a target is left, so it was the end of the stream
    have hitems : s.handled.reduceOption = config.stream := by
      rcases hcause with hmarker | ⟨-, hempty⟩
      · exact items_of_none_mem hintact hmarker
      · rw [hempty] at hin
        cases hin
    obtain ⟨hall, hnone⟩ := hs.present target hin
    rw [hitems] at hall
    exact ⟨fun htrue => Or.inl ⟨hall, hnone htrue⟩, fun _ => hall⟩
  · -- the target was removed at its failure
    obtain ⟨hbegins, hlast⟩ := hs.removed target htarget hin
    refine ⟨fun _ => Or.inr ⟨hbegins.trans (items_begin hintact), hlast⟩, fun hfalse => ?_⟩
    rw [hs.kept hfalse] at hin
    exact absurd htarget hin

/-! ## Independence of the other targets -/

/-- The answers agree as far as both were given. -/
def AnswersAgree (offers offers' : List (X × Except ActorProcessingErr Unit)) : Prop :=
  ∀ (k : ℕ) a a', offers[k]? = some a → offers'[k]? = some a' → a.2 = a'.2

/-- The same items and the same answers are the same offers. -/
theorem offers_eq {offers offers' : List (X × Except ActorProcessingErr Unit)}
    (hitems : offers.map (·.1) = offers'.map (·.1)) (hagree : AnswersAgree offers offers') :
    offers = offers' := by
  have hlength : offers.length = offers'.length := by
    simpa using congrArg List.length hitems
  refine List.ext_getElem hlength fun k hk hk' => ?_
  refine Prod.ext ?_ (hagree k _ _ (List.getElem?_eq_getElem hk) (List.getElem?_eq_getElem hk'))
  have hitem : (offers.map (·.1))[k]? = (offers'.map (·.1))[k]? := by rw [hitems]
  simpa [List.getElem?_eq_getElem hk, List.getElem?_eq_getElem hk'] using hitem

/-- Offers up to the first failure begin the stream. -/
theorem UntilFailure.items {xs : List X} {offers : List (X × Except ActorProcessingErr Unit)}
    (h : UntilFailure xs offers) : offers.map (·.1) <+: xs := by
  rcases h with ⟨hall, -⟩ | ⟨hbegins, -⟩
  · exact hall ▸ List.prefix_rfl
  · exact hbegins

/-- Of two lists of offers with the same answers, none ends before the other. -/
theorem UntilFailure.not_lt {xs : List X}
    {offers offers' : List (X × Except ActorProcessingErr Unit)} (h : UntilFailure xs offers)
    (h' : UntilFailure xs offers') (hagree : AnswersAgree offers offers') :
    ¬ offers.length < offers'.length := by
  intro hlt
  have hle : offers'.length ≤ xs.length := by
    simpa using h'.items.length_le
  rcases h with ⟨hall, -⟩ | ⟨-, before, item, err, rfl, -⟩
  · rw [← hall, List.length_map] at hle
    omega
  · -- the shorter list ends with a failure, after which the longer one goes on
    rw [List.length_append, List.length_singleton] at hlt
    have hk : before.length < offers'.length := by omega
    have hfailed : (Except.error err : Except ActorProcessingErr Unit) =
        offers'[before.length].2 :=
      hagree before.length (item, .error err) _ (by simp) (List.getElem?_eq_getElem hk)
    have hnone : errorOf offers'[before.length].2 = none := by
      rcases h' with ⟨-, hok⟩ | ⟨-, before', item', err', rfl, hok⟩
      · exact hok _ (List.getElem_mem hk)
      · rw [List.length_append, List.length_singleton] at hlt
        have hk' : before.length < before'.length := by omega
        rw [List.getElem_append_left hk']
        exact hok _ (List.getElem_mem hk')
    rw [← hfailed] at hnone
    cases hnone

/-- The share of a target depends on its own answers only. -/
theorem Share.eq_of_agree {config config' : StreamMuxConfiguration X}
    (hstream : config'.stream = config.stream)
    (hflag : config'.stopProcessingTargetOnFailure = config.stopProcessingTargetOnFailure)
    {offers offers' : List (X × Except ActorProcessingErr Unit)} (h : Share config offers)
    (h' : Share config' offers') (hagree : AnswersAgree offers offers') : offers = offers' := by
  rw [Share, hstream, hflag] at h'
  refine offers_eq ?_ hagree
  cases hcase : config.stopProcessingTargetOnFailure with
  | false => exact (h.2 hcase).trans (h'.2 hcase).symm
  | true =>
    have hagree' : AnswersAgree offers' offers :=
      fun k a a' ha ha' => (hagree k a' a ha' ha).symm
    -- neither ends before the other, so both are the same prefix of the stream
    have hlength : offers.length = offers'.length := by
      have hnot := (h.1 hcase).not_lt (h'.1 hcase) hagree
      have hnot' := (h'.1 hcase).not_lt (h.1 hcase) hagree'
      omega
    have hsame := List.prefix_of_prefix_length_le (h.1 hcase).items (h'.1 hcase).items
      (by rw [List.length_map, List.length_map, hlength])
    exact hsame.eq_of_length (by rw [List.length_map, List.length_map, hlength])

/-- **Each target gets exactly its share.** When the multiplexer has ended, each target was offered
the items of the stream in order, each once: all of them without
`stop_processing_target_on_failure`, and with it those up to its own first failure. Each of its
failures was reported once under its id, and no other target was offered anything or reported. In
two runs over the same stream in which a target gave the same answers it was offered the same,
whatever the other targets are and do. -/
theorem shares_delivered (config : StreamMuxConfiguration X)
    (hids : (config.targets.map (·.id)).Nodup) {es : List Event} {s : System X}
    (h : run config es = some s) (hend : s.mux.exit ≠ none) :
    (∀ target ∈ config.targets,
      (config.stopProcessingTargetOnFailure = true →
        UntilFailure config.stream (offersTo target s.calls)) ∧
      (config.stopProcessingTargetOnFailure = false →
        (offersTo target s.calls).map (·.1) = config.stream) ∧
      failuresOf target.id s.calls =
        (offersTo target s.calls).filterMap fun offer => errorOf offer.2) ∧
    (∀ target, target ∉ config.targets → offersTo target s.calls = []) ∧
    (∀ id, id ∉ config.targets.map (·.id) → failuresOf id s.calls = []) ∧
    ∀ (config' : StreamMuxConfiguration X) (es' : List Event) (s' : System X),
      config'.stream = config.stream →
      config'.stopProcessingTargetOnFailure = config.stopProcessingTargetOnFailure →
      (config'.targets.map (·.id)).Nodup → run config' es' = some s' → s'.mux.exit ≠ none →
      ∀ target ∈ config.targets, target ∈ config'.targets →
        AnswersAgree (offersTo target s.calls) (offersTo target s'.calls) →
        offersTo target s.calls = offersTo target s'.calls := by
  have hs := shares_of_run hids h
  refine ⟨fun target htarget => ?_, hs.strangers, hs.others, ?_⟩
  · have hshare := share_of_ended hids h hend htarget
    exact ⟨hshare.1, hshare.2, hs.reported target htarget⟩
  · intro config' es' s' hstream hflag hids' h' hend' target htarget htarget' hagree
    exact (share_of_ended hids h hend htarget).eq_of_agree hstream hflag
      (share_of_ended hids' h' hend' htarget') hagree

/-- Two items go to two targets, of which one fails at the first item. The other one is offered
both. -/
theorem shares_delivered_two_targets :
    ∃ s : System ℕ,
      (UntilFailure [1, 2] (offersTo ⟨"bad", 1⟩ s.calls) ∧
        failuresOf "bad" s.calls =
          (offersTo ⟨"bad", 1⟩ s.calls).filterMap fun offer => errorOf offer.2) ∧
      offersTo ⟨"good", 0⟩ s.calls = [(1, .ok ()), (2, .ok ())] ∧
      offersTo ⟨"bad", 1⟩ s.calls = [(1, .error (.message "boom"))] := by
  obtain ⟨s, hrun, hpost⟩ := (Option.any_eq_true _ _).mp (show
    (run ⟨[1, 2], [⟨"good", 0⟩, ⟨"bad", 1⟩], true⟩
      [.pump .handle, .pump .next,
        .handle (fun target => if target.object = 1 then .error (.message "boom") else .ok ()),
        .pump .handle, .pump .next, .pump .handle, .pump .next, .pump .takeStop, .reportPump,
        .supervise, .handle (fun _ => .ok ()), .handle (fun _ => .ok ()), .takeStop]).any
      (fun s : System ℕ => decide (s.mux.exit ≠ none ∧
        offersTo ⟨"good", 0⟩ s.calls = [(1, .ok ()), (2, .ok ())] ∧
        offersTo ⟨"bad", 1⟩ s.calls = [(1, .error (.message "boom"))])) = true by decide)
  rw [decide_eq_true_eq] at hpost
  obtain ⟨hend, hgood, hbad⟩ := hpost
  have hshare := (shares_delivered _ (by decide) hrun hend).1 ⟨"bad", 1⟩ (by decide)
  exact ⟨s, ⟨hshare.1 rfl, hshare.2.2⟩, hgood, hbad⟩

end RactorActors.Streams.Mux
