import RactorActors.Watchdog.View

/-!
# The watchdog stays available to its clients

The watchdog is one actor for the whole process, and it is never spawned again: once a handler
returns an error, every later call fails. One handler can: `stats` returns the error of its
reply, which fails when the caller has gone. `ping` ignores the error of its reply.

* `handle_ok_iff` and `handleSupervisorEvt_ok`: which handlers return an error, and when;
* `watchdog_available_iff`: a run leaves the watchdog alive exactly when every `Stats` in it
  was handled while its caller still waited;
* `abandoned_stats_call_is_fatal`: one abandoned `Stats` call disables the watchdog for ever.
-/

namespace RactorActors.Watchdog

open LabelledRun TimedMailbox

/-- The step does not handle a `Stats` message whose caller has gone. -/
def statsAwaited (s : System) : Event → Bool
  | .handle =>
    match s.nextMsg with
    | some ⟨.stats reply, _⟩ => reply ∉ s.gone
    | _ => true
  | _ => true

/-- A reply is sent exactly while its caller waits. -/
theorem send_ok_iff (reply : RpcReplyPort) (gone : List RpcReplyPort) :
    reply.send gone = .ok () ↔ reply ∉ gone := by
  unfold RpcReplyPort.send
  split
  · rename_i h
    constructor
    · intro herr
      cases herr
    · intro hn
      exact absurd h hn
  · rename_i h
    exact ⟨fun _ => h, fun _ => rfl⟩

/-- **Which messages a handler can fail on.** Only on a `Stats` whose caller has gone. -/
theorem handle_ok_iff (myself : TimedMailbox WatchdogMsg) (gone : List RpcReplyPort)
    (state : WatchdogState) (msg : WatchdogMsg) :
    (handle myself gone state msg).result = .ok () ↔
      ∀ reply, msg = .stats reply → reply ∉ gone := by
  cases msg with
  | register actor d strategy => simp [handle, register]
  | unregister actor => simp [handle, unregister]
  | ping actor reply =>
    have hok : (ping myself gone actor reply state).result = .ok () := by
      unfold ping
      split <;> rfl
    simpa [handle] using hok
  | timeout actor =>
    have hok : (timeout myself actor state).result = .ok () := by
      unfold timeout
      repeat' split
      all_goals rfl
    simpa [handle] using hok
  | stats reply =>
    have hiff : (stats myself gone reply state).result = .ok () ↔ reply ∉ gone := by
      rw [← send_ok_iff]
      unfold stats
      cases reply.send gone <;> simp
    simpa [handle] using hiff

/-- No supervision event fails its handler. -/
theorem handleSupervisorEvt_ok (myself : TimedMailbox WatchdogMsg) (evt : SupervisionEvent)
    (state : WatchdogState) : (handleSupervisorEvt myself evt state).result = .ok () := by
  cases evt <;> rfl

/-- A failed watchdog stays failed. -/
theorem state_eq_none_of_step {s s' : System} {e : Event} (h : s.step e = some s')
    (hnone : s.state = none) : s'.state = none := by
  cases step_cases h with
  | quiet hstate | post hstate => rw [hstate, hnone]
  | expire t ht _ hs | lapse k _ hs => rw [hs]; exact hnone
  | handle state m hstate | supervise state evt rest hstate =>
    rw [hnone] at hstate
    cases hstate

/-- Handling a message leaves the watchdog alive exactly when the handler returned `Ok`. -/
theorem finish_isSome (s : System) (input : Input) (origin : Option ℕ) (out : Outcome) :
    (s.finish input origin out).state.isSome = true ↔ out.result = .ok () := by
  unfold System.finish
  cases out.result <;> simp

/-- A `handle` step handles the next message. -/
theorem step_handle {s s' : System} (h : s.step .handle = some s') :
    ∃ state m, s.state = some state ∧ s.nextMsg = some m ∧
      s' = s.finish (.msg m.msg) m.origin (handle s.myself.receive s.gone state m.msg) := by
  simp only [System.step] at h
  split at h
  · rename_i state m hst hsup hnext
    rw [Option.some.injEq] at h
    exact ⟨state, m, hst, by simp [System.nextMsg, hst, hsup, hnext], h.symm⟩
  · cases h

/-- A step keeps the watchdog alive exactly when it does not handle a `Stats` whose caller has
gone. -/
theorem state_isSome_of_step_iff {s s' : System} {e : Event} (h : s.step e = some s')
    (halive : s.state.isSome = true) :
    s'.state.isSome = true ↔ statsAwaited s e = true := by
  by_cases he : e = .handle
  · subst he
    obtain ⟨state, m, -, hnext, rfl⟩ := step_handle h
    rw [finish_isSome, handle_ok_iff]
    obtain ⟨msg, origin⟩ := m
    cases msg <;> simp [statsAwaited, hnext]
  · -- no other step can fail it
    have hawaited : statsAwaited s e = true := by
      cases e <;> first | rfl | exact absurd rfl he
    refine ⟨fun _ => hawaited, fun _ => ?_⟩
    cases step_cases h with
    | quiet hstate | post hstate =>
      rw [hstate]
      exact halive
    | expire t ht _ hs | lapse k _ hs =>
      rw [hs]
      exact halive
    | handle state m _ _ _ heq => exact absurd heq he
    | supervise state evt rest _ hs =>
      rw [hs]
      exact (finish_isSome s (.evt evt) none _).mpr (handleSupervisorEvt_ok s.myself evt state)

/-- A failed watchdog takes no message, after any further events. -/
theorem cast_error_of_none {s s' : System} {es : List Event} (hnone : s.state = none)
    (h : exec System.step s es = some s') (msg : WatchdogMsg) :
    s'.cast msg = .error .sendErr := by
  have hnone' : s'.state = none :=
    exec_invariant (P := fun s => s.state = none) h hnone fun _ _ _ hn hs =>
      state_eq_none_of_step hs hn
  rw [System.cast, hnone']

/-- A call reaches the watchdog exactly while it is alive. -/
theorem cast_ok_iff (s : System) (msg : WatchdogMsg) :
    (∃ s', s.cast msg = .ok s') ↔ s.state.isSome = true := by
  unfold System.cast
  cases s.state <;> simp

/-- **When the watchdog stays available.** A handler returns an error exactly on a `Stats` whose
caller has gone, and no supervision event makes one. So in every run, every `register`, `ping`,
`unregister` and `stats` still reaches a live watchdog exactly when each `Stats` of the run was
handled while its caller waited. -/
theorem watchdog_available_iff {es : List Event} {s : System} (h : run es = some s) :
    (∀ myself gone state msg, (handle myself gone state msg).result = .ok () ↔
      ∀ reply, msg = .stats reply → reply ∉ gone) ∧
    (∀ myself evt state, (handleSupervisorEvt myself evt state).result = .ok ()) ∧
    ((∀ msg, ∃ s', s.cast msg = .ok s') ↔
      Run System.step (fun s ev => statsAwaited s ev = true) spawn es s) := by
  refine ⟨handle_ok_iff, handleSupervisorEvt_ok, ?_⟩
  have halive : (∀ msg, ∃ s', s.cast msg = .ok s') ↔ s.state.isSome = true :=
    ⟨fun hall => (cast_ok_iff s (.stats ⟨0⟩)).mp (hall _), fun hs msg => (cast_ok_iff s msg).mpr hs⟩
  rw [halive]
  constructor
  · intro hs
    rcases exec_iff_run_or_breaks (G := fun s ev => statsAwaited s ev = true) h with
      hrun | ⟨es₁, e, es₂, t, t', -, hrun, hbreak, hstep, hrest⟩
    · exact hrun
    · -- the step that broke the guard failed the watchdog for good
      have ht : t.state.isSome = true :=
        hrun.invariant (P := fun s => s.state.isSome = true) rfl
          fun s e s' hp hg hs => (state_isSome_of_step_iff hs hp).mpr hg
      have hnone : t'.state = none := by
        rw [← Option.not_isSome_iff_eq_none, state_isSome_of_step_iff hstep ht]
        exact hbreak
      have hdead : s.state = none :=
        exec_invariant (P := fun s => s.state = none) hrest hnone fun _ _ _ hn hs =>
          state_eq_none_of_step hs hn
      rw [hdead] at hs
      cases hs
  · intro hrun
    exact hrun.invariant (P := fun s => s.state.isSome = true) rfl fun s e s' hp hg hs =>
      (state_isSome_of_step_iff hs hp).mpr hg

/-- A pinged and queried watchdog is available although the pinging actor has gone. -/
theorem watchdog_available_iff_dropped_ping :
    ∃ es s, run es = some s ∧ s.gone = [⟨0⟩] ∧ ∀ msg, ∃ s', s.cast msg = .ok s' := by
  let es : List Event :=
    [.post (.register ⟨.loc 1⟩ 500 .stop), .handle, .post (.ping (.loc 1) ⟨0⟩), .dropPort ⟨0⟩,
      .handle, .post (.stats ⟨1⟩), .handle]
  obtain ⟨s, hs⟩ : ∃ s, exec (checked statsAwaited System.step) spawn es = some s :=
    Option.isSome_iff_exists.mp (by decide)
  have hrun := run_iff_exec_checked.mpr hs
  have hgone : (run es).map (·.gone) = some [⟨0⟩] := by decide
  have hexec : run es = some s := hrun.exec_eq
  rw [hexec, Option.map_some, Option.some.injEq] at hgone
  exact ⟨es, s, hexec, hgone, (watchdog_available_iff hexec).2.2.mpr hrun⟩

/-- **An abandoned `Stats` call is fatal.** Its caller stops waiting before it is handled: the
handler's error fails the watchdog, and no later message reaches it. -/
theorem abandoned_stats_call_is_fatal :
    ¬ (∀ es s, run es = some s → ∀ msg, ∃ s', s.cast msg = .ok s') ∧
    ∃ es s, run es = some s ∧
      ∀ es' s', exec System.step s es' = some s' → ∀ msg, s'.cast msg = .error .sendErr := by
  let es : List Event := [.post (.stats ⟨0⟩), .dropPort ⟨0⟩, .handle]
  obtain ⟨s, hs⟩ : ∃ s, run es = some s := Option.isSome_iff_exists.mp (by decide)
  have hstate : (run es).map (·.state.isSome) = some false := by decide
  rw [hs, Option.map_some, Option.some.injEq, Option.isSome_eq_false_iff,
    Option.isNone_iff_eq_none] at hstate
  refine ⟨fun hall => ?_, es, s, hs, fun es' s' h msg => cast_error_of_none hstate h msg⟩
  have halive := (cast_ok_iff s (.stats ⟨1⟩)).mp (hall es s hs _)
  rw [hstate] at halive
  cases halive

end RactorActors.Watchdog
