import RactorActors.Ractor
import RactorActors.Foundations.LabelledRun

/-!
# The TCP listener

The `Listener` actor of `net/tcp/listener.rs`. Its one handler waits up to three times, for the
next connection, for the TLS handshake and for `new_session`, so each wait is a step of its own
and the environment chooses how it ends. The handler runs because of a `ListenerMessage`, and
casts the next one to itself at its end. Nobody else sends one.

* `Serving`: the listener ends only by a stop or a kill from outside, has exactly one message
  pending or in progress while it runs, and has passed exactly the established connections to
  `new_session`, in the order in which they were accepted;
* `Attempt.established`: which connections are established, read off what the operations
  returned;
* `listener_serves_iff`: a run in which `new_session` returns `Ok` keeps `Serving` throughout
  exactly if no `local_addr` of an accepted stream fails;
* `Serving.goes_on`: a listener that serves never stalls;
* `local_addr_error_stops_listener`: a lookup that fails ends the listener.

An `io::Error` is given by its text. The listener makes no `NetworkStream::TlsClient`.
-/

namespace RactorActors.Net.Tcp

open LabelledRun

/-- `IncomingEncryptionMode`. What the TLS acceptor answers is chosen by the environment. -/
inductive IncomingEncryptionMode
  | raw
  | tls
deriving DecidableEq, Repr

/-- `NetworkStream`, as the server side makes it. -/
inductive NetworkStream (Addr Stream TlsStream : Type)
  | raw (peerAddr localAddr : Addr) (stream : Stream)
  | tlsServer (peerAddr localAddr : Addr) (stream : TlsStream)
deriving DecidableEq, Repr

/-- The socket that the listener is bound to. -/
structure TcpListener where
  addr : String
deriving DecidableEq, Repr

/-- `ListenerState`. What `new_session` of the acceptor returns is chosen by the environment. -/
structure ListenerState where
  listener : Option TcpListener
  encryption : IncomingEncryptionMode
deriving DecidableEq, Repr

/-- `ListenerStartupArgs` -/
structure ListenerStartupArgs where
  port : UInt16
  encryption : IncomingEncryptionMode
deriving DecidableEq, Repr

/-- `ListenerMessage` -/
inductive ListenerMessage
  | listenerMessage
deriving DecidableEq, Repr

/-- A connection that `TcpListener::accept` returns. -/
structure Incoming (Addr Stream : Type) where
  stream : Stream
  addr : Addr
  /-- What `stream.local_addr()` returns. -/
  localAddr : Except String Addr

/-- One call of `TcpListener::accept` and what came of it. -/
structure Attempt (Addr Stream TlsStream : Type) where
  /-- What `accept` returned. -/
  accept : Except String (Incoming Addr Stream)
  /-- What the TLS handshake returned, if there was one that has returned. -/
  handshake : Option (Except String TlsStream)

/-- Where the listener stands. -/
inductive ListenerPc (Addr Stream TlsStream : Type)
  /-- Between two handlers. -/
  | idle
  /-- In `listener.accept()`. -/
  | accepting
  /-- In `acceptor.accept(stream)`. -/
  | handshaking (stream : Stream) (addr localAddr : Addr)
  /-- In `new_session(stream)`. -/
  | opening (stream : NetworkStream Addr Stream TlsStream)

/-- A listener actor. -/
structure Listener (Addr Stream TlsStream : Type) where
  state : ListenerState
  pc : ListenerPc Addr Stream TlsStream
  queue : List ListenerMessage
  /-- A stop, with its reason, that was sent to the listener and not taken yet. -/
  stopping : Option (Option String)
  /-- How the actor ended, if it has. -/
  exit : Option Exit
  /-- The reasons of the stops and kills sent to the listener. No handler looks at them. -/
  asked : List (Option String)
  /-- What became of each connection, newest first. No handler looks at it. -/
  attempts : List (Attempt Addr Stream TlsStream)
  /-- The streams passed to `new_session`, newest first. No handler looks at them. -/
  sessions : List (NetworkStream Addr Stream TlsStream)

/-- The events of a listener's life. -/
inductive ListenerEvent (Addr Stream TlsStream : Type)
  /-- The listener takes the next message and runs its handler up to the first `await`. -/
  | handle
  /-- `TcpListener::accept` returns. -/
  | accepted (result : Except String (Incoming Addr Stream))
  /-- The TLS handshake returns. -/
  | handshaken (result : Except String TlsStream)
  /-- `new_session` returns. -/
  | returned (result : Except ActorProcessingErr Unit)
  /-- `stop` is called on the listener. -/
  | stop (reason : Option String)
  /-- The listener takes a pending stop. -/
  | takeStop
  /-- `kill` is called on the listener. -/
  | kill

variable {Addr Stream TlsStream : Type}

/-- The connection that an attempt has established, if it has. -/
def Attempt.established (encryption : IncomingEncryptionMode)
    (a : Attempt Addr Stream TlsStream) : Option (NetworkStream Addr Stream TlsStream) :=
  match a.accept with
  | .error _ => none
  | .ok incoming =>
    match incoming.localAddr, encryption, a.handshake with
    | .ok localAddr, .raw, _ => some (.raw incoming.addr localAddr incoming.stream)
    | .ok localAddr, .tls, some (.ok stream) =>
      some (.tlsServer incoming.addr localAddr stream)
    | _, _, _ => none

/-- The number of messages in progress. -/
def ListenerPc.inProgress : ListenerPc Addr Stream TlsStream → ℕ
  | .idle => 0
  | _ => 1

namespace Listener

/-- The listener once its socket is bound. -/
def started (args : ListenerStartupArgs) : Listener Addr Stream TlsStream where
  state :=
    { listener := some { addr := "[::]:" ++ toString args.port.toNat }
      encryption := args.encryption }
  pc := .idle
  -- start up the event processing loop by sending an initial message
  queue := [.listenerMessage]
  stopping := none
  exit := none
  asked := []
  attempts := []
  sessions := []

/-- `Listener::pre_start`, where `bound` is what `TcpListener::bind` returned. -/
def preStart (args : ListenerStartupArgs) (bound : Except String Unit) :
    Except ActorProcessingErr (Listener Addr Stream TlsStream) :=
  match bound with
  | .ok () => .ok (started args)
  | .error err => .error (.message err)

/-- The actor ends. Its socket is dropped, by `post_stop` or with its state. -/
def finish (s : Listener Addr Stream TlsStream) (exit : Exit) : Listener Addr Stream TlsStream :=
  { s with
    state := { s.state with listener := none }
    pc := .idle
    queue := []
    exit := some exit }

/-- `ActorRef::stop`. Only the first stop of an actor counts. -/
def stop (s : Listener Addr Stream TlsStream) (reason : Option String) :
    Listener Addr Stream TlsStream :=
  match s.exit, s.stopping with
  | none, none => { s with stopping := some reason }
  | _, _ => s

/-- `ActorRef::kill` -/
def kill (s : Listener Addr Stream TlsStream) : Listener Addr Stream TlsStream :=
  match s.exit with
  | none => s.finish (.terminated (some "killed"))
  | some _ => s

/-- `myself.cast(ListenerMessage)`, at the end of the handler: continue accepting new sockets. -/
def again (s : Listener Addr Stream TlsStream) : Listener Addr Stream TlsStream :=
  { s with pc := .idle, queue := s.queue ++ [.listenerMessage] }

/-- The established stream is passed to `new_session`. -/
def newSession (s : Listener Addr Stream TlsStream)
    (stream : NetworkStream Addr Stream TlsStream) : Listener Addr Stream TlsStream :=
  { s with pc := .opening stream, sessions := stream :: s.sessions }

/-- `Listener::accept`, once `listener.accept()` has returned. -/
def accepted (s : Listener Addr Stream TlsStream) :
    Except String (Incoming Addr Stream) → Listener Addr Stream TlsStream
  | .ok { stream, addr, localAddr } =>
    match localAddr with
    | .ok localAddr =>
      match s.state.encryption with
      | .raw => s.newSession (.raw addr localAddr stream)
      | .tls => { s with pc := .handshaking stream addr localAddr }
    -- the `?` after `local_addr` returns the error from the handler
    | .error err => s.finish (.failed (.message err))
  -- a warning
  | .error _ => s.again

/-- `Listener::accept`, once `acceptor.accept(stream)` has returned. -/
def handshaken (s : Listener Addr Stream TlsStream) (addr localAddr : Addr) :
    Except String TlsStream → Listener Addr Stream TlsStream
  | .ok stream => s.newSession (.tlsServer addr localAddr stream)
  -- a warning
  | .error _ => s.again

/-- `Listener::accept`, once `new_session` has returned. -/
def returned (s : Listener Addr Stream TlsStream) :
    Except ActorProcessingErr Unit → Listener Addr Stream TlsStream
  | .ok () => s.again
  | .error err => s.finish (.failed err)

/-- One step of a listener. -/
def step (s : Listener Addr Stream TlsStream) :
    ListenerEvent Addr Stream TlsStream → Option (Listener Addr Stream TlsStream)
  | .handle =>
    match s.exit, s.pc, s.stopping, s.queue with
    | none, .idle, none, .listenerMessage :: rest =>
      match s.state.listener with
      | some _ => some { s with queue := rest, pc := .accepting }
      | none => some { s with queue := rest }.again
    | _, _, _, _ => none
  | .accepted result =>
    match s.exit, s.pc with
    | none, .accepting =>
      some ({ s with attempts := ⟨result, none⟩ :: s.attempts }.accepted result)
    | _, _ => none
  | .handshaken result =>
    match s.exit, s.pc with
    | none, .handshaking _ addr localAddr =>
      some ({ s with attempts := s.attempts.modifyHead fun a =>
        { a with handshake := some result } }.handshaken addr localAddr result)
    | _, _ => none
  | .returned result =>
    match s.exit, s.pc with
    | none, .opening _ => some (s.returned result)
    | _, _ => none
  | .stop reason => some ({ s with asked := reason :: s.asked }.stop reason)
  | .takeStop =>
    match s.exit, s.pc, s.stopping with
    | none, .idle, some reason => some (s.finish (.terminated reason))
    | _, _, _ => none
  | .kill => some { s with asked := some "killed" :: s.asked }.kill

/-! ## What a listener is for -/

/-- The listener runs until it is stopped from outside, and serves every connection. -/
structure Serving (s : Listener Addr Stream TlsStream) : Prop where
  /-- It ends only by a stop or a kill that was asked for. -/
  ends : ∀ exit, s.exit = some exit → ∃ reason ∈ s.asked, exit = .terminated reason
  /-- While it runs, exactly one message is pending or in progress. -/
  pending : s.exit = none → s.queue.length + s.pc.inProgress = 1
  /-- The established connections, and no others, were passed to `new_session`, each once and in
  the order in which they were accepted. -/
  handed : s.sessions = s.attempts.filterMap (Attempt.established s.state.encryption)

/-- The local address of an accepted stream, if the event accepts one, is known. -/
def addressKnown : ListenerEvent Addr Stream TlsStream → Bool
  | .accepted (.ok incoming) => incoming.localAddr.isOk
  | _ => true

/-- `new_session`, if the event is its return, returns `Ok`. -/
def newSessionOk : ListenerEvent Addr Stream TlsStream → Bool
  | .returned result => result.isOk
  | _ => true

/-- What the listener remembers about its stop and about the connection in its hands. -/
structure Coherent (s : Listener Addr Stream TlsStream) : Prop where
  /-- A pending stop was asked for. -/
  stopping : ∀ reason, s.stopping = some reason → reason ∈ s.asked
  /-- During a handshake, the newest attempt is that of the stream in hands. -/
  handshaking : ∀ stream addr localAddr, s.pc = .handshaking stream addr localAddr →
    s.state.encryption = .tls ∧
      ∃ old, s.attempts = ⟨.ok ⟨stream, addr, .ok localAddr⟩, none⟩ :: old

/-- A listener as it is started. -/
theorem preStart_eq_ok {args : ListenerStartupArgs} {bound : Except String Unit}
    {s : Listener Addr Stream TlsStream} (h : preStart args bound = .ok s) :
    s.Serving ∧ s.Coherent := by
  cases bound with
  | error err => cases h
  | ok _ =>
    cases h
    refine ⟨⟨?_, ?_, rfl⟩, ⟨?_, ?_⟩⟩
    · intro exit hexit
      cases hexit
    · exact fun _ => rfl
    · intro reason hreason
      cases hreason
    · intro stream addr localAddr hpc
      cases hpc

/-! ## What a step can do -/

/-- Everything that one step of a listener can do. -/
inductive StepCase (s : Listener Addr Stream TlsStream) :
    ListenerEvent Addr Stream TlsStream → Listener Addr Stream TlsStream → Prop
  | handle (rest : List ListenerMessage) (hexit : s.exit = none) (hpc : s.pc = .idle)
      (hqueue : s.queue = .listenerMessage :: rest) :
      StepCase s .handle { s with queue := rest, pc := .accepting }
  /-- There is no socket any more. -/
  | retry (rest : List ListenerMessage) (hexit : s.exit = none) (hpc : s.pc = .idle)
      (hqueue : s.queue = .listenerMessage :: rest) :
      StepCase s .handle { s with queue := rest }.again
  | accepted (result : Except String (Incoming Addr Stream)) (hexit : s.exit = none)
      (hpc : s.pc = .accepting) :
      StepCase s (.accepted result)
        ({ s with attempts := ⟨result, none⟩ :: s.attempts }.accepted result)
  | handshaken (result : Except String TlsStream) (stream : Stream) (addr localAddr : Addr)
      (hexit : s.exit = none) (hpc : s.pc = .handshaking stream addr localAddr) :
      StepCase s (.handshaken result)
        ({ s with attempts := s.attempts.modifyHead fun a =>
          { a with handshake := some result } }.handshaken addr localAddr result)
  | returned (result : Except ActorProcessingErr Unit)
      (stream : NetworkStream Addr Stream TlsStream) (hexit : s.exit = none)
      (hpc : s.pc = .opening stream) : StepCase s (.returned result) (s.returned result)
  | stop (reason : Option String) :
      StepCase s (.stop reason) ({ s with asked := reason :: s.asked }.stop reason)
  | takeStop (reason : Option String) (hexit : s.exit = none)
      (hstop : s.stopping = some reason) :
      StepCase s .takeStop (s.finish (.terminated reason))
  | kill : StepCase s .kill { s with asked := some "killed" :: s.asked }.kill

/-- **Step inversion.** -/
theorem step_cases {s s' : Listener Addr Stream TlsStream}
    {e : ListenerEvent Addr Stream TlsStream} (h : s.step e = some s') : StepCase s e s' := by
  cases e with
  | handle =>
    simp only [step] at h
    split at h
    · rename_i rest hexit hpc hstop hqueue
      split at h <;> rw [Option.some.injEq] at h
      · exact h ▸ StepCase.handle rest hexit hpc hqueue
      · exact h ▸ StepCase.retry rest hexit hpc hqueue
    · cases h
  | accepted result =>
    simp only [step] at h
    split at h
    · rename_i hexit hpc
      rw [Option.some.injEq] at h
      exact h ▸ StepCase.accepted result hexit hpc
    · cases h
  | handshaken result =>
    simp only [step] at h
    split at h
    · rename_i stream addr localAddr hexit hpc
      rw [Option.some.injEq] at h
      exact h ▸ StepCase.handshaken result stream addr localAddr hexit hpc
    · cases h
  | returned result =>
    simp only [step] at h
    split at h
    · rename_i stream hexit hpc
      rw [Option.some.injEq] at h
      exact h ▸ StepCase.returned result stream hexit hpc
    · cases h
  | stop reason =>
    simp only [step, Option.some.injEq] at h
    exact h ▸ StepCase.stop reason
  | takeStop =>
    simp only [step] at h
    split at h
    · rename_i reason hexit hpc hstop
      rw [Option.some.injEq] at h
      exact h ▸ StepCase.takeStop reason hexit hstop
    · cases h
  | kill =>
    simp only [step, Option.some.injEq] at h
    exact h ▸ StepCase.kill

/-! ## One step -/

/-- A stop leaves everything but the pending stop. -/
theorem stop_eq (s : Listener Addr Stream TlsStream) (reason : Option String) :
    s.stop reason = s ∨ s.stop reason = { s with stopping := some reason } := by
  unfold stop
  split
  · exact Or.inr rfl
  · exact Or.inl rfl

/-- A running listener that loses neither its stop nor a handshake stays coherent. -/
theorem Coherent.of_no_handshake {s s' : Listener Addr Stream TlsStream} (h : s.Coherent)
    (hstopping : s'.stopping = s.stopping) (hasked : s'.asked = s.asked)
    (hpc : ∀ stream addr localAddr, s'.pc ≠ .handshaking stream addr localAddr) :
    s'.Coherent where
  stopping reason hreason := hasked ▸ h.stopping reason (hstopping ▸ hreason)
  handshaking stream addr localAddr hin := absurd hin (hpc stream addr localAddr)

/-- Asking a coherent listener to stop leaves it coherent. -/
theorem Coherent.ask {s : Listener Addr Stream TlsStream} (h : s.Coherent)
    (reason : Option String) : Coherent { s with asked := reason :: s.asked } where
  stopping old hold := List.mem_cons_of_mem _ (h.stopping old hold)
  handshaking := h.handshaking

/-- Every step keeps a listener coherent. -/
theorem Coherent.step {s s' : Listener Addr Stream TlsStream}
    {e : ListenerEvent Addr Stream TlsStream} (hs : s.Coherent) (h : s.step e = some s') :
    s'.Coherent := by
  cases step_cases h with
  | handle | retry => exact hs.of_no_handshake rfl rfl (by rintro _ _ _ ⟨⟩)
  | accepted result hexit hpc =>
    cases result with
    | error err => exact hs.of_no_handshake rfl rfl (by rintro _ _ _ ⟨⟩)
    | ok incoming =>
      obtain ⟨stream, addr, localAddr⟩ := incoming
      cases localAddr with
      | error err => exact hs.of_no_handshake rfl rfl (by rintro _ _ _ ⟨⟩)
      | ok localAddr =>
        cases hmode : s.state.encryption with
        | raw =>
          simp only [accepted, hmode]
          exact hs.of_no_handshake rfl rfl (by rintro _ _ _ ⟨⟩)
        | tls =>
          -- the handshake begins on the stream just accepted
          simp only [accepted, hmode]
          refine ⟨hs.stopping, ?_⟩
          rintro _ _ _ ⟨⟩
          exact ⟨hmode, s.attempts, rfl⟩
  | handshaken result stream addr localAddr hexit hpc =>
    cases result <;> exact hs.of_no_handshake rfl rfl (by rintro _ _ _ ⟨⟩)
  | returned result stream hexit hpc =>
    cases result <;> exact hs.of_no_handshake rfl rfl (by rintro _ _ _ ⟨⟩)
  | takeStop reason hexit hstop => exact hs.of_no_handshake rfl rfl (by rintro _ _ _ ⟨⟩)
  | stop reason =>
    rcases stop_eq { s with asked := reason :: s.asked } reason with heq | heq
    · rw [heq]
      exact hs.ask reason
    · rw [heq]
      -- the stop that is pending now is the one just asked for
      refine ⟨fun old hold => ?_, hs.handshaking⟩
      rw [Option.some.injEq] at hold
      exact hold ▸ List.mem_cons_self
  | kill =>
    unfold kill
    split
    · exact (hs.ask (some "killed")).of_no_handshake rfl rfl (by rintro _ _ _ ⟨⟩)
    · exact hs.ask (some "killed")

/-- A listener that runs, with one message and the established connections handed over. -/
theorem Serving.of_running {s : Listener Addr Stream TlsStream} (hexit : s.exit = none)
    (hpending : s.queue.length + s.pc.inProgress = 1)
    (hhanded : s.sessions = s.attempts.filterMap (Attempt.established s.state.encryption)) :
    s.Serving where
  ends _ hsome := absurd (hexit.symm.trans hsome) (Option.some_ne_none _).symm
  pending _ := hpending
  handed := hhanded

/-- A listener that ends as it was asked to. -/
theorem Serving.finish {s : Listener Addr Stream TlsStream} (hs : s.Serving)
    {reason : Option String} (hasked : reason ∈ s.asked) :
    (s.finish (.terminated reason)).Serving where
  ends _ hsome := ⟨reason, hasked, (Option.some.inj hsome).symm⟩
  pending hnone := absurd hnone (Option.some_ne_none _)
  handed := hs.handed

/-- A listener whose handler fails does not serve. -/
theorem not_serving_failed (s : Listener Addr Stream TlsStream) (what : ActorProcessingErr) :
    ¬ (s.finish (.failed what)).Serving := by
  intro hs
  obtain ⟨reason, -, hend⟩ := hs.ends _ rfl
  cases hend

/-- Asking a listener to stop changes nothing else. -/
theorem Serving.ask {s : Listener Addr Stream TlsStream} (hs : s.Serving)
    (reason : Option String) : Serving { s with asked := reason :: s.asked } where
  ends exit hsome := by
    obtain ⟨old, hold, hend⟩ := hs.ends exit hsome
    exact ⟨old, List.mem_cons_of_mem _ hold, hend⟩
  pending := hs.pending
  handed := hs.handed

/-- While a message is in progress, none is pending. -/
theorem Serving.queue_eq_nil {s : Listener Addr Stream TlsStream} (hs : s.Serving)
    (hexit : s.exit = none) (hpc : s.pc.inProgress = 1) : s.queue = [] := by
  have hone := hs.pending hexit
  exact List.eq_nil_of_length_eq_zero (by omega)

/-- An attempt that came to nothing goes back to accepting. -/
theorem Serving.again {s : Listener Addr Stream TlsStream} (hexit : s.exit = none)
    (hqueue : s.queue = [])
    (hhanded : s.sessions = s.attempts.filterMap (Attempt.established s.state.encryption)) :
    s.again.Serving := by
  refine Serving.of_running hexit ?_ hhanded
  show (s.queue ++ [ListenerMessage.listenerMessage]).length + 0 = 1
  rw [hqueue]
  rfl

/-- An accepted connection is served exactly if its local address is known. -/
theorem serving_accepted_iff {s : Listener Addr Stream TlsStream} (hs : s.Serving)
    (hexit : s.exit = none) (hpc : s.pc = .accepting)
    (result : Except String (Incoming Addr Stream)) :
    ({ s with attempts := ⟨result, none⟩ :: s.attempts }.accepted result).Serving ↔
      addressKnown (.accepted result : ListenerEvent Addr Stream TlsStream) = true := by
  have hqueue := hs.queue_eq_nil hexit (by rw [hpc]; rfl)
  cases result with
  | error err =>
    refine iff_of_true (Serving.again hexit hqueue ?_) rfl
    exact hs.handed
  | ok incoming =>
    obtain ⟨stream, addr, localAddr⟩ := incoming
    cases localAddr with
    | error err => exact iff_of_false (not_serving_failed _ _) Bool.false_ne_true
    | ok localAddr =>
      refine iff_of_true ?_ rfl
      cases hmode : s.state.encryption with
      | raw =>
        simp only [accepted, hmode]
        refine Serving.of_running hexit (by rw [newSession, hqueue]; rfl) ?_
        show _ :: s.sessions = _
        rw [hs.handed]
        simp only [newSession, hmode, List.filterMap_cons]
        rfl
      | tls =>
        simp only [accepted, hmode]
        refine Serving.of_running hexit (by rw [hqueue]; rfl) ?_
        show s.sessions = _
        rw [hs.handed]
        simp only [hmode, List.filterMap_cons]
        rfl

/-- Whatever the handshake returns, the listener serves. -/
theorem Serving.handshaken {s : Listener Addr Stream TlsStream} (hs : s.Serving)
    (hc : s.Coherent) {stream : Stream} {addr localAddr : Addr} (hexit : s.exit = none)
    (hpc : s.pc = .handshaking stream addr localAddr) (result : Except String TlsStream) :
    ({ s with attempts := s.attempts.modifyHead fun a =>
      { a with handshake := some result } }.handshaken addr localAddr result).Serving := by
  obtain ⟨hmode, old, hattempts⟩ := hc.handshaking stream addr localAddr hpc
  have hqueue := hs.queue_eq_nil hexit (by rw [hpc]; rfl)
  -- the unfinished attempt has not been handed over
  have hold : s.sessions = old.filterMap (Attempt.established .tls) := by
    rw [hs.handed, hmode, hattempts, List.filterMap_cons]
    rfl
  cases result with
  | error err =>
    refine Serving.again hexit hqueue ?_
    show s.sessions = _
    rw [hold, hmode, hattempts, List.modifyHead_cons, List.filterMap_cons]
    rfl
  | ok enc =>
    refine Serving.of_running hexit (by rw [Listener.handshaken, newSession, hqueue]; rfl) ?_
    show _ :: s.sessions = _
    simp only [Listener.handshaken, newSession, hold, hmode, hattempts, List.modifyHead_cons,
      List.filterMap_cons]
    rfl

/-- **Step lemma.** Where `new_session` returns `Ok`, a step keeps the listener serving exactly
if it does not accept a stream whose local address cannot be looked up. -/
theorem serving_step_iff {s s' : Listener Addr Stream TlsStream}
    {e : ListenerEvent Addr Stream TlsStream} (hs : s.Serving) (hc : s.Coherent)
    (hok : newSessionOk e = true) (h : s.step e = some s') :
    s'.Serving ↔ addressKnown e = true := by
  cases step_cases h with
  | handle rest hexit hpc hqueue =>
    refine iff_of_true (Serving.of_running hexit ?_ hs.handed) rfl
    have hone := hs.pending hexit
    rw [hqueue, hpc] at hone
    exact hone
  | retry rest hexit hpc hqueue =>
    refine iff_of_true (Serving.again hexit ?_ hs.handed) rfl
    have hone := hs.pending hexit
    rw [hqueue, hpc] at hone
    exact List.eq_nil_of_length_eq_zero (Nat.succ.inj hone)
  | accepted result hexit hpc => exact serving_accepted_iff hs hexit hpc result
  | handshaken result stream addr localAddr hexit hpc =>
    exact iff_of_true (hs.handshaken hc hexit hpc result) rfl
  | returned result stream hexit hpc =>
    cases result with
    | error err => exact absurd hok Bool.false_ne_true
    | ok _ =>
      have hqueue := hs.queue_eq_nil hexit (by rw [hpc]; rfl)
      exact iff_of_true (Serving.again hexit hqueue hs.handed) rfl
  | stop reason =>
    refine iff_of_true ?_ rfl
    have hasked := hs.ask reason
    rcases stop_eq { s with asked := reason :: s.asked } reason with heq | heq
    · rw [heq]
      exact hasked
    · rw [heq]
      exact ⟨hasked.ends, hasked.pending, hasked.handed⟩
  | takeStop reason hexit hstop =>
    exact iff_of_true (hs.finish (hc.stopping reason hstop)) rfl
  | kill =>
    refine iff_of_true ?_ rfl
    unfold kill
    split
    · exact (hs.ask (some "killed")).finish List.mem_cons_self
    · exact hs.ask (some "killed")

/-- A listener that serves and was not stopped never stalls: it takes its message, or goes on
whatever the operation it waits for returns. -/
theorem Serving.goes_on {s : Listener Addr Stream TlsStream} (hs : s.Serving)
    (hexit : s.exit = none) (hstop : s.stopping = none) :
    (s.step .handle).isSome ∨ (∀ result, (s.step (.accepted result)).isSome) ∨
      (∀ result, (s.step (.handshaken result)).isSome) ∨
      ∀ result, (s.step (.returned result)).isSome := by
  cases hpc : s.pc with
  | idle =>
    left
    have hone := hs.pending hexit
    rw [hpc] at hone
    obtain ⟨⟨⟩, hqueue⟩ := List.length_eq_one_iff.mp hone
    simp only [step, hexit, hpc, hstop, hqueue]
    split <;> rfl
  | accepting => exact Or.inr (Or.inl fun result => by simp [step, hexit, hpc])
  | handshaking => exact Or.inr (Or.inr (Or.inl fun result => by simp [step, hexit, hpc]))
  | opening => exact Or.inr (Or.inr (Or.inr fun result => by simp [step, hexit, hpc]))

/-- **When one bad connection never stops the listener.** A run in which `new_session` always
returns `Ok` keeps the listener serving throughout exactly if the local address of every stream
that it accepts can be looked up. -/
theorem listener_serves_iff {args : ListenerStartupArgs} {bound : Except String Unit}
    {s₀ s : Listener Addr Stream TlsStream} {es : List (ListenerEvent Addr Stream TlsStream)}
    (hstart : preStart args bound = .ok s₀)
    (hrun : Run step (fun _ e => newSessionOk e = true) s₀ es s) :
    Run step (fun _ e => addressKnown e = true) s₀ es s ↔ Throughout step Serving s₀ es := by
  obtain ⟨hserving, hcoherent⟩ := preStart_eq_ok hstart
  exact hrun.iff_throughout hcoherent hserving (fun _ _ _ hc _ _ _ h => hc.step h)
    fun _ _ _ hc hs hok h => serving_step_iff hs hc hok h

/-- A failed `accept`, a failed handshake and an established connection: the listener serves on,
and passes the one connection to `new_session`. -/
theorem listener_serves_after_failures :
    ∃ (s₀ s : Listener ℕ ℕ ℕ) (es : List (ListenerEvent ℕ ℕ ℕ)),
      preStart ⟨9000, .tls⟩ (.ok ()) = .ok s₀ ∧ exec step s₀ es = some s ∧
        s.sessions = [.tlsServer 20 80 7] ∧ Throughout step Serving s₀ es := by
  let s₀ : Listener ℕ ℕ ℕ := started ⟨9000, .tls⟩
  have hstart : preStart ⟨9000, .tls⟩ (.ok ()) = .ok s₀ := rfl
  let es : List (ListenerEvent ℕ ℕ ℕ) :=
    [.handle, .accepted (.error "Too many open files"), .handle,
      .accepted (.ok ⟨1, 10, .ok 80⟩), .handshaken (.error "bad certificate"), .handle,
      .accepted (.ok ⟨2, 20, .ok 80⟩), .handshaken (.ok 7), .returned (.ok ())]
  obtain ⟨s, hs⟩ : ∃ s, exec (checked (fun _ e => newSessionOk e) step) s₀ es = some s :=
    Option.isSome_iff_exists.mp (by decide)
  obtain ⟨t, ht⟩ : ∃ t, exec (checked (fun _ e => addressKnown e) step) s₀ es = some t :=
    Option.isSome_iff_exists.mp (by decide)
  have hsessions : (exec step s₀ es).map (·.sessions) = some [.tlsServer 20 80 7] := by decide
  have hrun := run_iff_exec_checked.mpr hs
  have hknown := run_iff_exec_checked.mpr ht
  rw [hrun.exec_eq, Option.map_some, Option.some.injEq] at hsessions
  obtain rfl := Option.some.inj (hrun.exec_eq.symm.trans hknown.exec_eq)
  exact ⟨s₀, s, es, hstart, hrun.exec_eq, hsessions,
    (listener_serves_iff hstart hrun).mp hknown⟩

/-- **One failed lookup ends the listener.** The peer of a raw connection is gone before its
local address is looked up. The handler returns the error, and no message is pending any more. -/
theorem local_addr_error_stops_listener :
    ¬ ∀ (args : ListenerStartupArgs) (bound : Except String Unit) (s₀ s : Listener ℕ ℕ ℕ)
      (es : List (ListenerEvent ℕ ℕ ℕ)), preStart args bound = .ok s₀ →
        Run step (fun _ e => newSessionOk e = true) s₀ es s → Throughout step Serving s₀ es := by
  intro hall
  let s₀ : Listener ℕ ℕ ℕ := started ⟨9000, .raw⟩
  let es : List (ListenerEvent ℕ ℕ ℕ) :=
    [.handle, .accepted (.ok ⟨1, 10, .error "Transport endpoint is not connected"⟩)]
  obtain ⟨s, hs⟩ : ∃ s, exec (checked (fun _ e => newSessionOk e) step) s₀ es = some s :=
    Option.isSome_iff_exists.mp (by decide)
  have hrun := run_iff_exec_checked.mpr hs
  have hexit : (exec step s₀ es).map (·.exit) =
      some (some (.failed (.message "Transport endpoint is not connected"))) := by decide
  rw [hrun.exec_eq, Option.map_some, Option.some.injEq] at hexit
  have hserving := (hall ⟨9000, .raw⟩ (.ok ()) s₀ s es rfl hrun).last hrun.exec_eq
  obtain ⟨reason, -, hend⟩ := hserving.ends _ hexit
  cases hend

end Listener

end RactorActors.Net.Tcp
