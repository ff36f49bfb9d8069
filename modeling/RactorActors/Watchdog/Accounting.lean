import RactorActors.Foundations.AssociationList
import RactorActors.Watchdog.Availability
import RactorActors.Watchdog.Cleanup

/-!
# The watchdog's accounts

Every registration that the watchdog was ever given is accounted for: it was overwritten by a
later one, dropped by `Unregister` or an exit event, ended by a `Timeout`, or it is held still.
The accounts are kept over the history of what was handled.

* `held`: the registrations as the history tells them, the abstract model of `subjects`;
* `Ledger`: what each entry of a history has to do with the older ones, and
  `kept_of_reachable`: the watchdog's history is a ledger, and `subjects` is what it tells;
* `Ledger.balance`, `Ledger.callsFor`: the conservation law, and that a registration leads to
  at most one call, both by induction on the ledger;
* `watchdog_accounts`: the accounts of every run.
-/

namespace RactorActors.Watchdog

open LabelledRun TimedMailbox

/-- The call stops an actor. -/
def Call.isStop : Call → Bool
  | .stop _ _ => true
  | _ => false

/-- The call kills or stops an actor. -/
def Call.strikes (c : Call) : Bool := c.victim.isSome

namespace Entry

variable (e : Entry) (id : ActorId)

/-- The registration that the entry records the making of. -/
def made : Option Registration :=
  match e.input with
  | .msg (.register actor timeout timeoutStrategy) =>
    some { actor, timeout, timeoutStrategy, timer := e.nextHandle }
  | _ => none

/-- The entry records the handling of a `Timeout(id)`. -/
def timesOut : Bool := e.input = .msg (.timeout id)

/-- A registration of the actor was overwritten by a later `Register`. -/
def overwrites : Bool := e.registers id && e.found.isSome

/-- A registration of the actor was removed by `Unregister` or an exit event. -/
def removes : Bool := e.input.leaves id && e.found.isSome

/-- A registration of the actor was ended by a `Timeout`. -/
def ends : Bool := e.timesOut id && e.found.isSome

end Entry

/-- All calls of a history, newest first. -/
def callsOf (history : List Entry) : List Call := history.flatMap (·.calls)

/-- The kill and stop calls made when the registration was found. -/
def callsFor (r : Registration) (history : List Entry) : List Call :=
  (history.filter (·.found = some r)).flatMap fun e => e.calls.filter Call.strikes

/-- **The accounts of the watchdog**, for the state it holds and what it has handled. -/
structure Accounts (state : WatchdogState) (history : List Entry) : Prop where
  /-- Every registration was overwritten, removed or timed out, or is held. -/
  balance : ∀ id, history.countP (·.registers id) =
    history.countP (·.overwrites id) + history.countP (·.removes id) +
      history.countP (·.ends id) + if (state.subjects.lookup id).isSome then 1 else 0
  /-- A kill or stop call ends a registration made before, with that one's strategy. -/
  owned : ∀ new e old, history = new ++ e :: old → ∀ c ∈ e.calls, c.strikes = true →
    ∃ r, e.found = some r ∧ c = View.strike r ∧ ∃ e₀ ∈ old, e₀.made = some r
  /-- A registration leads to at most one kill or stop call. -/
  once : ∀ r, callsFor r history = [] ∨ callsFor r history = [View.strike r]
  /-- No two `Register` messages make the same registration. -/
  distinct : (history.filterMap Entry.made).Nodup
  kills : state.kills = (callsOf history).countP Call.isKill
  stops : state.stops = (callsOf history).countP Call.isStop
  /-- `stats` reports the kills made so far. -/
  reported : ∀ new e old, history = new ++ e :: old → ∀ reply st, .stats reply st ∈ e.calls →
    st.kills = (callsOf old).countP Call.isKill

/-! ## The ledger -/

/-- The registration of the actor, as the history tells it. -/
def held : List Entry → ActorId → Option Registration
  | [], _ => none
  | e :: old, id =>
    if e.registers id then e.made
    else if e.input.leaves id || e.timesOut id then none
    else held old id

theorem held_cons (e : Entry) (old : List Entry) (id : ActorId) :
    held (e :: old) id =
      if e.registers id then e.made
      else if e.input.leaves id || e.timesOut id then none
      else held old id := rfl

/-- The kill and stop calls that handling an input makes. -/
def Entry.due (e : Entry) : List Call :=
  match e.input with
  | .msg (.timeout _) => (e.found.map View.strike).toList
  | _ => []

/-- Each entry of the history fits the older ones. -/
inductive Ledger : List Entry → Prop
  | nil : Ledger []
  | cons {e : Entry} {old : List Entry} :
      Ledger old →
      e.found = e.input.subject.bind (held old) →
      e.calls.filter Call.strikes = e.due →
      (∀ e₀ ∈ old, ∀ r, e₀.made = some r → r.timer < e.nextHandle) →
      (∀ reply st, .stats reply st ∈ e.calls → st.kills = (callsOf old).countP Call.isKill) →
      Ledger (e :: old)

/-- An entry makes a registration of its subject under the next handle. -/
theorem Entry.made_eq_some {e : Entry} {r : Registration} (h : e.made = some r) :
    e.input = .msg (.register r.actor r.timeout r.timeoutStrategy) ∧ r.timer = e.nextHandle := by
  unfold Entry.made at h
  split at h
  · rename_i actor timeout strategy hin
    rw [Option.some.injEq] at h
    subst h
    exact ⟨hin, rfl⟩
  · cases h

/-- An entry that registers an actor is about it and makes a registration of it. -/
theorem Entry.made_of_registers {e : Entry} {id : ActorId} (h : e.registers id = true) :
    ∃ r, e.made = some r ∧ r.actor.getId = id ∧ e.input.subject = some id := by
  unfold Entry.registers at h
  split at h
  · rename_i actor timeout strategy hin
    have hid : actor.getId = id := by simpa using h
    exact ⟨_, by rw [Entry.made, hin], hid, by rw [hin, Input.subject, hid]⟩
  · cases h

/-- An input that takes an actor out is about it. -/
theorem subject_of_leaves {input : Input} {id : ActorId} (h : input.leaves id = true) :
    input.subject = some id := by
  cases input with
  | evt event => simpa [Input.leaves, Input.subject] using h
  | msg msg => cases msg <;> simp_all [Input.leaves, Input.subject]

/-- No registration is held for an actor but its own. -/
theorem held_getId {history : List Entry} {id : ActorId} {r : Registration}
    (h : held history id = some r) : r.actor.getId = id := by
  induction history with
  | nil => cases h
  | cons e old ih =>
    unfold held at h
    split at h
    · rename_i hreg
      obtain ⟨r', hmade, hid, -⟩ := Entry.made_of_registers hreg
      rw [hmade, Option.some.injEq] at h
      exact h ▸ hid
    · split at h
      · cases h
      · exact ih h

/-- A registration that is held was made. -/
theorem made_of_held {history : List Entry} {id : ActorId} {r : Registration}
    (h : held history id = some r) : ∃ e ∈ history, e.made = some r := by
  induction history with
  | nil => cases h
  | cons e old ih =>
    unfold held at h
    split at h
    · exact ⟨e, List.mem_cons_self, h⟩
    · split at h
      · cases h
      · obtain ⟨e₀, he₀, hmade⟩ := ih h
        exact ⟨e₀, List.mem_cons_of_mem _ he₀, hmade⟩

namespace Ledger

variable {history old new : List Entry} {e : Entry} {id : ActorId} {r : Registration}

/-- The older part of a ledger is a ledger. -/
theorem tail (h : Ledger (new ++ e :: old)) : Ledger (e :: old) := by
  induction new with
  | nil => exact h
  | cons _ _ ih =>
    cases h with
    | cons hold => exact ih hold

/-- A registration that is found was made earlier. -/
theorem found_made (h : Ledger (e :: old)) (hfound : e.found = some r) :
    ∃ e₀ ∈ old, e₀.made = some r := by
  cases h with
  | cons _ hf =>
    rw [hf, Option.bind_eq_some_iff] at hfound
    obtain ⟨id, -, hheld⟩ := hfound
    exact made_of_held hheld

/-- What one entry adds to each side of the conservation law. -/
theorem balance_entry (hfound : e.found = e.input.subject.bind (held old)) (id : ActorId) :
    (if e.registers id then 1 else 0) + (if (held old id).isSome then 1 else 0) =
      (if e.overwrites id then 1 else 0) + (if e.removes id then 1 else 0) +
        (if e.ends id then 1 else 0) + if (held (e :: old) id).isSome then 1 else 0 := by
  have hself : e.input.subject = some id → e.found = held old id := by
    intro hsub
    rw [hfound, hsub, Option.bind_some]
  rw [held_cons]
  by_cases hreg : e.registers id = true
  · -- a registration is made, and the one held before is overwritten
    obtain ⟨r, hmade, -, hsub⟩ := Entry.made_of_registers hreg
    obtain ⟨hin, -⟩ := Entry.made_eq_some hmade
    have hleave : e.input.leaves id = false := by rw [hin]; rfl
    have htime : e.timesOut id = false := by simp [Entry.timesOut, hin]
    simp [Entry.overwrites, Entry.removes, Entry.ends, hreg, hleave, htime, hmade, hself hsub,
      Nat.add_comm]
  · by_cases hleave : e.input.leaves id = true
    · -- the registration held before is removed
      have htime : e.timesOut id = false := by
        rw [Entry.timesOut, decide_eq_false_iff_not]
        intro hin
        rw [hin] at hleave
        cases hleave
      simp [Entry.overwrites, Entry.removes, Entry.ends, hreg, hleave, htime,
        hself (subject_of_leaves hleave)]
    · by_cases htime : e.timesOut id = true
      · -- the registration held before is ended by its `Timeout`
        have hin : e.input = .msg (.timeout id) := by simpa [Entry.timesOut] using htime
        have hsub : e.input.subject = some id := by rw [hin]; rfl
        simp [Entry.overwrites, Entry.removes, Entry.ends, hreg, hleave, htime, hself hsub]
      · simp [Entry.overwrites, Entry.removes, Entry.ends, hreg, hleave, htime]

/-- **The conservation law.** -/
theorem balance (h : Ledger history) (id : ActorId) : history.countP (·.registers id) =
    history.countP (·.overwrites id) + history.countP (·.removes id) +
      history.countP (·.ends id) + if (held history id).isSome then 1 else 0 := by
  induction h with
  | nil => rfl
  | @cons e old _ hfound _ _ _ ih =>
    -- each entry adds the same to both sides
    have hentry := balance_entry hfound id
    simp only [List.countP_cons]
    omega

/-- What the newest entry adds to the calls made for a registration. -/
theorem callsFor_cons (e : Entry) (old : List Entry) (r : Registration) :
    callsFor r (e :: old) =
      (if e.found = some r then e.calls.filter Call.strikes else []) ++ callsFor r old := by
  unfold callsFor
  by_cases hf : e.found = some r
  · rw [List.filter_cons_of_pos (by simpa using hf), if_pos hf, List.flatMap_cons]
  · rw [List.filter_cons_of_neg (by simpa using hf), if_neg hf, List.nil_append]

/-- Calls are made for a registration that was made. -/
theorem made_of_callsFor (h : Ledger history) (hcalls : callsFor r history ≠ []) :
    ∃ e ∈ history, e.made = some r := by
  induction h with
  | nil => exact absurd rfl hcalls
  | @cons e old hold hfound hdue hlt hstats ih =>
    rw [callsFor_cons] at hcalls
    by_cases hf : e.found = some r
    · obtain ⟨e₀, he₀, hmade⟩ := found_made (.cons hold hfound hdue hlt hstats) hf
      exact ⟨e₀, List.mem_cons_of_mem _ he₀, hmade⟩
    · rw [if_neg hf, List.nil_append] at hcalls
      obtain ⟨e₀, he₀, hmade⟩ := ih hcalls
      exact ⟨e₀, List.mem_cons_of_mem _ he₀, hmade⟩

/-- A registration that a call was made for is held no more. -/
theorem once (h : Ledger history) (r : Registration) :
    callsFor r history = [] ∨
      (callsFor r history = [View.strike r] ∧ ∀ id, held history id ≠ some r) := by
  induction h with
  | nil => exact Or.inl rfl
  | @cons e old hold hfound hdue hlt _ ih =>
    rw [callsFor_cons, hdue]
    by_cases hcall : e.found = some r ∧ e.due ≠ []
    · -- the registration was held, so this is the first call for it
      obtain ⟨hf, hne⟩ := hcall
      unfold Entry.due at hne ⊢
      split at hne
      · rename_i id hin
        have hheld : held old id = some r := by
          rw [← hf, hfound, hin, Input.subject, Option.bind_some]
        have hfirst : callsFor r old = [] := by
          rcases ih with hnil | ⟨-, hgone⟩
          · exact hnil
          · exact absurd hheld (hgone id)
        refine Or.inr ⟨by simp [hf, hfirst], fun id' hid' => ?_⟩
        -- the registration is its actor's own, and the actor is held no more
        have hsame : id' = id := (held_getId hid').symm.trans (held_getId hheld)
        subst hsame
        simp [held, Entry.registers, Entry.timesOut, hin] at hid'
      · exact absurd rfl hne
    · have hnew : (if e.found = some r then e.due else []) = [] := by
        split
        · rename_i hf
          exact not_not.mp fun hne => hcall ⟨hf, hne⟩
        · rfl
      rw [hnew, List.nil_append]
      rcases ih with hnil | ⟨hone, hgone⟩
      · exact Or.inl hnil
      · refine Or.inr ⟨hone, fun id hid => ?_⟩
        unfold held at hid
        split at hid
        · -- a registration made now has a handle of its own
          obtain ⟨e₀, he₀, hmade₀⟩ := made_of_callsFor hold (r := r) (by rw [hone]; simp)
          have hltr := hlt e₀ he₀ r hmade₀
          rw [(Entry.made_eq_some hid).2] at hltr
          exact Nat.lt_irrefl _ hltr
        · split at hid
          · cases hid
          · exact hgone id hid

/-- The registrations that a ledger records the making of are distinct. -/
theorem distinct (h : Ledger history) : (history.filterMap Entry.made).Nodup := by
  induction h with
  | nil => exact List.nodup_nil
  | @cons e old _ _ _ hlt _ ih =>
    rw [List.filterMap_cons]
    cases hmade : e.made with
    | none => exact ih
    | some r =>
      -- the handle of a new timer was handed out to no older registration
      refine List.nodup_cons.mpr ⟨fun hmem => ?_, ih⟩
      obtain ⟨e₀, he₀, hmade₀⟩ := List.mem_filterMap.mp hmem
      have hltr := hlt e₀ he₀ r hmade₀
      rw [(Entry.made_eq_some hmade).2] at hltr
      exact Nat.lt_irrefl _ hltr

/-- A kill or stop call ends the registration that was found. -/
theorem owned (h : Ledger (new ++ e :: old)) {c : Call} (hc : c ∈ e.calls)
    (hstrikes : c.strikes = true) :
    ∃ r, e.found = some r ∧ c = View.strike r ∧ ∃ e₀ ∈ old, e₀.made = some r := by
  have htail := h.tail
  have hmem : c ∈ e.due := by
    cases htail with
    | cons _ _ hdue => exact hdue ▸ List.mem_filter.mpr ⟨hc, hstrikes⟩
  unfold Entry.due at hmem
  split at hmem
  · rw [Option.mem_toList, Option.map_eq_some_iff] at hmem
    obtain ⟨r, hf, rfl⟩ := hmem
    exact ⟨r, hf, rfl, htail.found_made hf⟩
  · cases hmem

/-- `stats` was answered with the kills made before. -/
theorem reported (h : Ledger (new ++ e :: old)) {reply : RpcReplyPort} {st : WatchdogStats}
    (hst : .stats reply st ∈ e.calls) : st.kills = (callsOf old).countP Call.isKill := by
  cases h.tail with
  | cons _ _ _ _ hstats => exact hstats reply st hst

end Ledger

/-! ## The history of the watchdog is a ledger -/

/-- The history of the watchdog is a ledger, and what it holds is what the ledger tells. -/
structure System.Kept (s : System) : Prop where
  ledger : Ledger s.history
  /-- Stored handles were handed out. -/
  handles : ∀ e ∈ s.history, ∀ r, e.made = some r → r.timer < s.myself.nextHandle
  subjects : ∀ state, s.state = some state → ∀ id, state.subjects.lookup id = held s.history id
  kills : ∀ state, s.state = some state → state.kills = (callsOf s.history).countP Call.isKill
  stops : ∀ state, s.state = some state → state.stops = (callsOf s.history).countP Call.isStop

/-- **What the handlers add to the counters.** -/
theorem counts_handle (myself : TimedMailbox WatchdogMsg) (gone : List RpcReplyPort)
    (state : WatchdogState) (msg : WatchdogMsg) :
    (handle myself gone state msg).state.kills =
        (handle myself gone state msg).calls.countP Call.isKill + state.kills ∧
      (handle myself gone state msg).state.stops =
        (handle myself gone state msg).calls.countP Call.isStop + state.stops := by
  cases msg with
  | register actor duration strategy => simp [handle, register]
  | unregister actor =>
    cases hfound : state.subjects.lookup actor.getId <;>
      simp [handle, unregister, WatchdogState.unregister, hfound]
  | ping actor reply =>
    cases hfound : state.subjects.lookup actor with
    | none => simp [handle, ping, hfound]
    | some r =>
      cases hreply : reply.send gone <;>
        simp [handle, ping, hfound, hreply, Call.isKill, Call.isStop]
  | timeout actor =>
    cases hfound : state.subjects.lookup actor with
    | none => simp [handle, timeout, hfound]
    | some r =>
      cases hstrategy : r.timeoutStrategy <;>
        simp [handle, timeout, hfound, hstrategy, Call.isKill, Call.isStop, Nat.add_comm]
  | stats reply =>
    cases hreply : reply.send gone <;> simp [handle, stats, hreply, Call.isKill, Call.isStop]

/-- Only a `Timeout` makes kill or stop calls, by the registration it finds. -/
theorem strikes_handle (myself : TimedMailbox WatchdogMsg) (gone : List RpcReplyPort)
    (state : WatchdogState) (msg : WatchdogMsg) :
    (handle myself gone state msg).calls.filter Call.strikes =
      match msg with
      | .timeout actor => ((state.subjects.lookup actor).map View.strike).toList
      | _ => [] := by
  cases msg with
  | register actor duration strategy => rfl
  | unregister actor => rfl
  | ping actor reply =>
    rw [List.filter_eq_nil_iff]
    intro c hc
    rw [ping_calls myself gone actor reply state c hc]
    simp [Call.strikes, Call.victim]
  | timeout actor =>
    cases hfound : state.subjects.lookup actor with
    | none => simp [handle, timeout, hfound]
    | some r =>
      cases hstrategy : r.timeoutStrategy <;>
        simp [handle, timeout, hfound, hstrategy, View.strike, Call.strikes, Call.victim]
  | stats reply =>
    cases hreply : reply.send gone <;>
      simp [handle, stats, hreply, Call.strikes, Call.victim]

/-- `stats` answers with the kills counted. -/
theorem stats_handle {myself : TimedMailbox WatchdogMsg} {gone : List RpcReplyPort}
    {state : WatchdogState} {msg : WatchdogMsg} {reply : RpcReplyPort} {st : WatchdogStats}
    (h : .stats reply st ∈ (handle myself gone state msg).calls) : st.kills = state.kills := by
  cases msg with
  | register actor duration strategy => cases h
  | unregister actor => cases h
  | ping actor reply' =>
    have heq := ping_calls myself gone actor reply' state _ h
    cases heq
  | timeout actor =>
    simp only [handle, timeout] at h
    repeat' split at h
    all_goals simp at h
  | stats reply' =>
    simp only [handle, stats] at h
    split at h
    · simp only [List.mem_singleton, Call.stats.injEq] at h
      rw [h.2]
    · cases h

/-- What a handler that succeeds leaves of the registrations. -/
theorem lookup_handle {myself : TimedMailbox WatchdogMsg} {gone : List RpcReplyPort}
    {state : WatchdogState} {msg : WatchdogMsg} (id : ActorId) :
    (handle myself gone state msg).state.subjects.lookup id =
      match msg with
      | .register actor timeout timeoutStrategy =>
        if actor.getId = id then some ⟨actor, timeout, timeoutStrategy, myself.nextHandle⟩
        else state.subjects.lookup id
      | .unregister actor => if actor.getId = id then none else state.subjects.lookup id
      | .timeout actor => if actor = id then none else state.subjects.lookup id
      | _ => state.subjects.lookup id := by
  cases msg with
  | register actor d strategy =>
    by_cases hid : actor.getId = id
    · subst hid
      simp [handle, register]
    · simp only [if_neg hid]
      exact AList.lookup_insert_ne (Ne.symm hid)
  | unregister actor =>
    simp only [handle, unregister, lookup_unregister, eq_comm]
  | ping actor reply =>
    cases hfound : state.subjects.lookup actor with
    | some r => simp only [handle, ping, hfound]
    | none =>
      -- the handler erases an actor that is not there
      simp only [handle, ping, hfound]
      by_cases hid : id = actor
      · rw [hid, AList.lookup_erase, hfound]
      · exact AList.lookup_erase_ne hid
  | timeout actor =>
    have herase : (handle myself gone state (.timeout actor)).state.subjects =
        state.subjects.erase actor := by
      simp only [handle, timeout]
      repeat' split
      all_goals rfl
    rw [herase]
    by_cases hid : actor = id
    · simp only [hid, if_true, AList.lookup_erase]
    · simp only [if_neg hid]
      exact AList.lookup_erase_ne (Ne.symm hid)
  | stats reply =>
    simp only [handle, stats]
    split <;> rfl

/-- No handler gives a handle back. -/
theorem nextHandle_handle (myself : TimedMailbox WatchdogMsg) (gone : List RpcReplyPort)
    (state : WatchdogState) (msg : WatchdogMsg) :
    myself.nextHandle ≤ (handle myself gone state msg).myself.nextHandle ∧
      ∀ actor timeout strategy, msg = .register actor timeout strategy →
        myself.nextHandle < (handle myself gone state msg).myself.nextHandle := by
  cases msg with
  | register actor d strategy => exact ⟨Nat.le_succ _, fun _ _ _ _ => Nat.lt_succ_self _⟩
  | unregister actor =>
    refine ⟨?_, by simp⟩
    simp only [handle, unregister, unregister_myself]
    split <;> simp
  | ping actor reply =>
    refine ⟨?_, by simp⟩
    simp only [handle, ping]
    split <;> simp
  | timeout actor =>
    refine ⟨?_, by simp⟩
    simp only [handle, timeout]
    repeat' split
    all_goals exact Nat.le_refl _
  | stats reply =>
    refine ⟨?_, by simp⟩
    simp only [handle, stats]
    split <;> exact Nat.le_refl _

/-- The newest entry's calls come first. -/
theorem countP_callsOf_cons (e : Entry) (old : List Entry) (p : Call → Bool) :
    (callsOf (e :: old)).countP p = e.calls.countP p + (callsOf old).countP p := by
  rw [callsOf, List.flatMap_cons, List.countP_append, callsOf]

/-- An input that is handled is a new entry of the ledger, whose effects are those of its
handler. -/
theorem System.Kept.finish {s : System} (hs : s.Kept) {state : WatchdogState}
    (hstate : s.state = some state) {input : Input} {origin : Option ℕ} {out : Outcome}
    (hdue : out.calls.filter Call.strikes =
      match input with
      | .msg (.timeout actor) => ((state.subjects.lookup actor).map View.strike).toList
      | _ => [])
    (hstats : ∀ reply st, .stats reply st ∈ out.calls → st.kills = state.kills)
    (hlookup : ∀ e : Entry, e.input = input → e.nextHandle = s.myself.nextHandle → ∀ id,
      out.state.subjects.lookup id =
        if e.registers id then e.made
        else if e.input.leaves id || e.timesOut id then none
        else state.subjects.lookup id)
    (hle : s.myself.nextHandle ≤ out.myself.nextHandle)
    (hlt : ∀ actor timeout strategy, input = .msg (.register actor timeout strategy) →
      s.myself.nextHandle < out.myself.nextHandle)
    (hkills : out.state.kills = out.calls.countP Call.isKill + state.kills)
    (hstops : out.state.stops = out.calls.countP Call.isStop + state.stops) :
    (s.finish input origin out).Kept := by
  have hheld : ∀ id, s.registration id = held s.history id := by
    intro id
    rw [registration_of_state hstate, hs.subjects state hstate]
  -- what the state is, if the handler succeeds
  have hok : ∀ state', (s.finish input origin out).state = some state' → state' = out.state := by
    intro state' h
    unfold System.finish at h
    rcases hres : out.result with err | _
    · simp [hres] at h
    · simp only [hres, Option.some.injEq] at h
      exact h.symm
  -- the entry that is added
  obtain ⟨e, hhistory, hin, hnext, hcalls, hfound⟩ :
      ∃ e : Entry, (s.finish input origin out).history = e :: s.history ∧ e.input = input ∧
        e.nextHandle = s.myself.nextHandle ∧ e.calls = out.calls ∧
        e.found = input.subject.bind s.registration := ⟨_, rfl, rfl, rfl, rfl, rfl⟩
  refine ⟨?_, ?_, ?_, ?_, ?_⟩
  · -- the entry fits the older ones
    rw [hhistory]
    refine .cons hs.ledger ?_ ?_ (hnext ▸ hs.handles) ?_
    · rw [hfound, hin]
      exact Option.bind_congr fun id _ => hheld id
    · rw [hcalls, hdue, Entry.due, hin, hfound]
      cases input with
      | evt event => rfl
      | msg msg =>
        cases msg with
        | timeout actor =>
          simp only [Input.subject, Option.bind_some, registration_of_state hstate]
        | _ => rfl
    · intro reply st hst
      rw [hstats reply st (hcalls ▸ hst), hs.kills state hstate]
  · rw [hhistory]
    intro e' he' r hmade
    rcases List.mem_cons.mp he' with rfl | hold
    · obtain ⟨hin', htimer⟩ := Entry.made_eq_some hmade
      rw [htimer, hnext]
      exact hlt _ _ _ (hin.symm.trans hin')
    · exact Nat.lt_of_lt_of_le (hs.handles e' hold r hmade) hle
  · intro state' h id
    rw [hok state' h, hlookup e hin hnext id, hs.subjects state hstate, hhistory, held_cons, hin]
  · intro state' h
    rw [hok state' h, hkills, hs.kills state hstate, hhistory, countP_callsOf_cons, hcalls]
  · intro state' h
    rw [hok state' h, hstops, hs.stops state hstate, hhistory, countP_callsOf_cons, hcalls]

/-- A step that handles nothing keeps the accounts. -/
theorem System.Kept.of_same {s s' : System} (hs : s.Kept) (hhistory : s'.history = s.history)
    (hstate : s'.state = s.state) (hnext : s.myself.nextHandle ≤ s'.myself.nextHandle) :
    s'.Kept where
  ledger := hhistory ▸ hs.ledger
  handles := by
    rw [hhistory]
    exact fun e he r hmade => Nat.lt_of_lt_of_le (hs.handles e he r hmade) hnext
  subjects := by
    rw [hhistory, hstate]
    exact hs.subjects
  kills := by
    rw [hhistory, hstate]
    exact hs.kills
  stops := by
    rw [hhistory, hstate]
    exact hs.stops

/-- **Step lemma.** Every step keeps the accounts. -/
theorem kept_of_step {s s' : System} {ev : Event} (hs : s.Kept) (h : s.step ev = some s') :
    s'.Kept := by
  cases step_cases h with
  | quiet hstate hhistory d hmyself =>
    exact hs.of_same hhistory hstate (by rw [hmyself]; exact Nat.le_refl _)
  | post hstate hhistory msg _ hmyself =>
    exact hs.of_same hhistory hstate (by rw [hmyself]; exact Nat.le_refl _)
  | expire t ht _ hs' =>
    subst hs'
    exact hs.of_same rfl rfl (Nat.le_refl _)
  | lapse k _ hs' =>
    subst hs'
    exact hs.of_same rfl rfl (Nat.le_refl _)
  | handle state m hstate _ _ _ hs' =>
    subst hs'
    obtain ⟨hle, hlt⟩ := nextHandle_handle s.myself.receive s.gone state m.msg
    obtain ⟨hkills, hstops⟩ := counts_handle s.myself.receive s.gone state m.msg
    refine hs.finish hstate ?_ (fun _ _ hst => stats_handle hst) ?_ hle ?_ hkills hstops
    · rw [strikes_handle]
      cases m.msg <;> rfl
    · intro e hin hnext id
      rw [lookup_handle]
      cases hm : m.msg <;>
        simp [Entry.registers, Entry.made, Entry.timesOut, Input.leaves, hin, hnext, hm]
    · intro actor timeout strategy hin
      exact hlt actor timeout strategy (Input.msg.inj hin)
  | supervise state evt rest hstate hs' =>
    subst hs'
    have hfinish : (s.finish (.evt evt) none (handleSupervisorEvt s.myself evt state)).Kept := by
      refine hs.finish hstate ?_ ?_ ?_ ?_ (by simp) ?_ ?_
      · rw [handleSupervisorEvt_calls]
        rfl
      · rw [handleSupervisorEvt_calls]
        intro reply st hst
        cases hst
      · intro e hin _ id
        have hlookup := lookup_handleSupervisorEvt s hstate evt id
        rw [registration_finish, handleSupervisorEvt_ok, registration_of_state hstate] at hlookup
        simpa [Entry.registers, Entry.timesOut, Input.leaves, hin] using hlookup
      all_goals cases evt
      all_goals simp only [handleSupervisorEvt, WatchdogState.unregister, List.countP_nil,
        Nat.zero_add, Nat.le_refl]
      all_goals split
      all_goals simp
    exact hfinish.of_same rfl rfl (Nat.le_refl _)

/-- The accounts of a watchdog that was just spawned are empty. -/
theorem kept_spawn : spawn.Kept where
  ledger := .nil
  handles := by simp [spawn]
  subjects := by
    intro state hstate id
    rw [spawn, Option.some.injEq] at hstate
    rw [← hstate]
    rfl
  kills := by
    intro state hstate
    rw [spawn, Option.some.injEq] at hstate
    rw [← hstate]
    rfl
  stops := by
    intro state hstate
    rw [spawn, Option.some.injEq] at hstate
    rw [← hstate]
    rfl

/-- The accounts are kept in every reachable state. -/
theorem kept_of_reachable {s : System} (h : Reachable s) : s.Kept := by
  obtain ⟨es, hes⟩ := h
  exact exec_invariant hes kept_spawn fun _ _ _ hk hs => kept_of_step hk hs

/-! ## The accounts of a run -/

/-- A ledger that tells what the state holds and counts gives its accounts. -/
theorem accounts_of_ledger {state : WatchdogState} {history : List Entry} (h : Ledger history)
    (hsubjects : ∀ id, state.subjects.lookup id = held history id)
    (hkills : state.kills = (callsOf history).countP Call.isKill)
    (hstops : state.stops = (callsOf history).countP Call.isStop) : Accounts state history where
  balance id := by
    rw [hsubjects]
    exact h.balance id
  owned := by
    rintro new e old rfl c hc hstrikes
    exact h.owned hc hstrikes
  once r := (h.once r).imp_right And.left
  distinct := h.distinct
  kills := hkills
  stops := hstops
  reported := by
    rintro new e old rfl reply st hst
    exact h.reported hst

/-- The state is what the watchdog holds after the run, or what it held when a handler's error
failed it. -/
def LastHeld (es : List Event) (s : System) (state : WatchdogState) : Prop :=
  s.state = some state ∨
    s.state = none ∧ ∃ es₁ es₂ s₁ e, es = es₁ ++ es₂ ∧ run es₁ = some s₁ ∧
      s₁.state = some state ∧ s.history = e :: s₁.history

/-- The input that fails the watchdog is a `Stats` message, whose handler calls nobody. -/
theorem failing_entry {s s' : System} {ev : Event} (h : s.step ev = some s')
    (hbreak : ¬ statsAwaited s ev = true) :
    ∃ e reply, s'.history = e :: s.history ∧ e.input = .msg (.stats reply) ∧ e.calls = [] := by
  unfold statsAwaited at hbreak
  split at hbreak
  · split at hbreak
    · rename_i reply origin hnext
      obtain ⟨state, m, -, hnext', rfl⟩ := step_handle h
      rw [hnext, Option.some.injEq] at hnext'
      subst hnext'
      have hgone : reply ∈ s.gone := by simpa using hbreak
      refine ⟨_, reply, rfl, rfl, ?_⟩
      simp [handle, stats, RpcReplyPort.send, hgone]
    · exact absurd rfl hbreak
  · exact absurd rfl hbreak

/-- A failed watchdog handles nothing. -/
theorem history_eq_of_step_of_none {s s' : System} {e : Event} (h : s.step e = some s')
    (hnone : s.state = none) : s'.history = s.history := by
  cases step_cases h with
  | quiet _ hhistory | post _ hhistory => exact hhistory
  | expire t ht _ hs | lapse k _ hs => rw [hs]
  | handle state m hstate | supervise state evt rest hstate =>
    rw [hnone] at hstate
    cases hstate

/-- The accounts of a run, whether or not a handler has failed the watchdog. -/
theorem accounts_of_run {es : List Event} {s : System} (h : run es = some s) :
    ∃ state, LastHeld es s state ∧ Accounts state s.history := by
  have hkept := kept_of_reachable ⟨es, h⟩
  cases hstate : s.state with
  | some state =>
    exact ⟨state, Or.inl hstate, accounts_of_ledger hkept.ledger (hkept.subjects state hstate)
      (hkept.kills state hstate) (hkept.stops state hstate)⟩
  | none =>
    rcases exec_iff_run_or_breaks (G := fun s ev => statsAwaited s ev = true) h with
      hrun | ⟨es₁, ev, es₂, t, t', rfl, hrun, hbreak, hstep, hrest⟩
    · -- without an abandoned `Stats` call the watchdog lives
      have halive : s.state.isSome = true :=
        hrun.invariant (P := fun s => s.state.isSome = true) rfl
          fun s e s' hp hg hs => (state_isSome_of_step_iff hs hp).mpr hg
      rw [hstate] at halive
      cases halive
    · have ht : t.state.isSome = true :=
        hrun.invariant (P := fun s => s.state.isSome = true) rfl
          fun s e s' hp hg hs => (state_isSome_of_step_iff hs hp).mpr hg
      obtain ⟨state, hstate₁⟩ := Option.isSome_iff_exists.mp ht
      have hdead : t'.state = none := by
        rw [← Option.not_isSome_iff_eq_none, state_isSome_of_step_iff hstep ht]
        exact hbreak
      -- nothing is handled after the `Stats` call that failed the watchdog
      have hlast : s.state = none ∧ s.history = t'.history :=
        exec_invariant (P := fun s => s.state = none ∧ s.history = t'.history) hrest ⟨hdead, rfl⟩
          fun s e s' hp hs => ⟨state_eq_none_of_step hs hp.1,
            (history_eq_of_step_of_none hs hp.1).trans hp.2⟩
      obtain ⟨e, reply, hhistory, hin, hcalls⟩ := failing_entry hstep hbreak
      have hs : s.history = e :: t.history := hlast.2.trans hhistory
      have hkept₁ := kept_of_reachable ⟨es₁, hrun.exec_eq⟩
      refine ⟨state, Or.inr ⟨hlast.1, es₁, ev :: es₂, t, e, rfl, hrun.exec_eq, hstate₁, hs⟩, ?_⟩
      -- the failing entry neither registers nor drops anybody, and calls nobody
      refine accounts_of_ledger hkept.ledger (fun id => ?_) ?_ ?_
      · rw [hkept₁.subjects state hstate₁, hs, held_cons]
        simp [Entry.registers, Entry.timesOut, Input.leaves, hin]
      · rw [hkept₁.kills state hstate₁, hs, countP_callsOf_cons, hcalls, List.countP_nil,
          Nat.zero_add]
      · rw [hkept₁.stops state hstate₁, hs, countP_callsOf_cons, hcalls, List.countP_nil,
          Nat.zero_add]

/-- A `Timeout` of an actor that is not registered changes nothing. -/
theorem handle_timeout_of_none {state : WatchdogState} {id : ActorId}
    (h : state.subjects.lookup id = none) (myself : TimedMailbox WatchdogMsg)
    (gone : List RpcReplyPort) :
    handle myself gone state (.timeout id) =
      { myself := myself, state := state, calls := [], result := .ok () } := by
  have hsubjects : state.subjects.erase id = state.subjects :=
    AList.ext (AssociationList.entries_erase_of_lookup_eq_none h)
  simp only [handle, timeout, h, hsubjects]

/-- **The watchdog's accounts.** In every run, the registrations of each actor are those
overwritten, removed, timed out and held; each leads to at most one kill or stop call, by its
own strategy; and the counters, and what `stats` reports, are the numbers of calls made. A
`Timeout` that comes late changes nothing but the queue it was taken from. -/
theorem watchdog_accounts {es : List Event} {s : System} (h : run es = some s) :
    (∃ state, LastHeld es s state ∧ Accounts state s.history) ∧
    ∀ id origin s', s.nextMsg = some ⟨.timeout id, origin⟩ → s.registration id = none →
      s.step .handle = some s' →
        ∃ e, e.calls = [] ∧
          s' = { s with myself := s.myself.receive, history := e :: s.history } := by
  refine ⟨accounts_of_run h, fun id origin s' hnext hnone hstep => ?_⟩
  obtain ⟨state, m, hstate, hnext', rfl⟩ := step_handle hstep
  rw [hnext, Option.some.injEq] at hnext'
  subst hnext'
  rw [registration_of_state hstate] at hnone
  rw [handle_timeout_of_none hnone]
  refine ⟨_, ?_, by rw [System.finish, hstate]⟩
  rfl

/-- An actor is registered twice, and both timers post. The first `Timeout` ends the second
registration, and the second one comes late. -/
theorem watchdog_accounts_second_timer :
    ∃ es s state, run es = some s ∧ Accounts state s.history ∧
      s.history.countP (·.registers (.loc 1)) = 2 ∧ s.history.countP (·.timesOut (.loc 1)) = 2 := by
  let es : List Event :=
    [.post (.register ⟨.loc 1⟩ 500 .kill), .handle, .post (.register ⟨.loc 1⟩ 500 .stop), .handle,
      .elapse 500, .expire 0, .expire 1, .handle, .handle]
  obtain ⟨s, hs⟩ : ∃ s, run es = some s := Option.isSome_iff_exists.mp (by decide)
  have hcounts : (run es).map (fun s => (s.history.countP (·.registers (.loc 1)),
      s.history.countP (·.timesOut (.loc 1)))) = some (2, 2) := by decide
  rw [hs, Option.map_some, Option.some.injEq, Prod.mk.injEq] at hcounts
  obtain ⟨state, -, haccounts⟩ := (watchdog_accounts hs).1
  exact ⟨es, s, state, hs, haccounts, hcounts.1, hcounts.2⟩

end RactorActors.Watchdog
