import RactorActors.Net.Tcp.Flow

/-!
# Two sessions joined by a connection

Two endpoints and the bytes between them. What the writer of one side puts on the wire arrives
at the reader of the other side in pieces of any size, in order. Any of the six actors may be
stopped or killed at any moment, the stream may end at any moment, and no other error occurs on
the sockets.

* `Linked`: the invariant of such a network; it joins, in both directions, the mailboxes of the
  sender (`Flow`), its writer (`Writer.Framed`), the wire, the reader (`Reader.Decodes`) and the
  mailbox of the receiver;
* `framed_delivery`: what one side's receiver was given is a prefix of what was sent to the
  other side, and all of it once nothing is under way any more.
-/

namespace RactorActors.Net.Tcp

open LabelledRun LengthPrefix

/-- The two sides of a connection. -/
inductive Side
  | a
  | b
deriving DecidableEq, Repr

/-- The other side. -/
def Side.other : Side → Side
  | .a => .b
  | .b => .a

@[simp]
theorem Side.other_other (side : Side) : side.other.other = side := by cases side <;> rfl

theorem Side.other_ne (side : Side) : side.other ≠ side := by cases side <;> decide

/-- Two endpoints joined by a connection. -/
structure Network where
  ends : Side → Endpoint
  /-- How many of the bytes that a side has put on the wire have arrived at the other side. -/
  delivered : Side → ℕ

/-- The events of a network. -/
inductive NetworkEvent
  /-- An event of one of the endpoints. -/
  | endpoint (side : Side) (e : EndpointEvent)
  /-- The next `n` bytes that `side` has put on the wire arrive. -/
  | deliver (side : Side) (n : ℕ)

/-- Bytes arrive on the socket of an endpoint. -/
def Endpoint.arrive (s : Endpoint) (bytes : List UInt8) : Endpoint :=
  { s with reader := { s.reader with incoming := s.reader.incoming ++ bytes } }

namespace Network

/-- Two endpoints as they are started, with nothing on the wire. -/
def start (state : Side → TcpSessionState) (read : Side → ActorReadHalf)
    (write : Side → ActorWriteHalf) : Network where
  ends := fun side => Endpoint.preStart (state side) (read side) (write side) []
  delivered := fun _ => 0

/-- One step of a network, on machines with a 64-bit `usize`. -/
def step (s : Network) : NetworkEvent → Option Network
  | .endpoint side e =>
    ((s.ends side).step 64 e).map fun s' => { s with ends := Function.update s.ends side s' }
  | .deliver side n =>
    let wire := (s.ends side).writer.wire
    if s.delivered side + n ≤ wire.length then
      let bytes := (wire.drop (s.delivered side)).take n
      some {
        ends := Function.update s.ends side.other ((s.ends side.other).arrive bytes)
        delivered := Function.update s.delivered side (s.delivered side + n) }
    else none

end Network

/-- The event is not an error of a socket other than the end of the stream. -/
def EndpointEvent.errorFree : EndpointEvent → Bool
  | .reader (.ioError .other) => false
  | .writer (.ioError _) => false
  | _ => true

/-- The step is no error of a socket other than the end of the stream, and a frame that is sent
has a length that fits `usize`. -/
def Network.calm (_ : Network) : NetworkEvent → Bool
  | .endpoint _ (.send msg) => msg.length < 2 ^ 64
  | .endpoint _ e => e.errorFree
  | .deliver _ _ => true

/-! ## One endpoint -/

/-- Only `Send` adds to the frames sent. -/
theorem Endpoint.sent_of_step {usizeBits : ℕ} {s s' : Endpoint} {e : EndpointEvent}
    (h : s.step usizeBits e = some s') :
    s'.session.sent = s.session.sent ∨
      ∃ msg, e = .send msg ∧ s'.session.sent = s.session.sent ++ [msg] := by
  -- what is posted, told or stopped changes other fields of the session
  have hpost (s : Endpoint) (msg : TcpSessionMessage) :
      (s.post msg).session.sent = s.session.sent := by
    unfold Endpoint.post
    split <;> rfl
  have htell (s : Endpoint) (evt : SupervisionEvent) :
      (s.tell evt).session.sent = s.session.sent := by
    unfold Endpoint.tell
    split <;> rfl
  have hstop (s : Endpoint) (reason : Option String) :
      (s.stop reason).session.sent = s.session.sent := by
    unfold Endpoint.stop
    split <;> rfl
  cases step_cases h with
  | send msg => exact Or.inr ⟨msg, rfl, hpost _ _⟩
  | forward msg rest =>
    left
    unfold Endpoint.send
    cases hcast : s.writer.cast (.write msg) <;> simp [hcast]
  | receive | writer | takeStop | kill | late => exact Or.inl rfl
  | returned result =>
    cases result with
    | ok _ => exact Or.inl rfl
    | error err => exact Or.inl rfl
  | supervise evt rest =>
    left
    rcases handleSupervisorEvt_cases
      { s with session := { s.session with supervision := rest } } evt with
      ⟨-, heq⟩ | ⟨_, toChildren, toSession, -, heq⟩
    · rw [heq]
    · rw [heq, hstop]
      rfl
  | notify evt => exact Or.inl (htell s evt)
  | reader e' out =>
    left
    obtain ⟨reader, buf⟩ := out
    cases buf with
    | none => rfl
    | some buf => exact hpost { s with reader } (.frameReady buf)
  | reportReader | reportWriter => exact Or.inl (htell _ _)
  | stop reason => exact Or.inl (hstop s reason)

/-- The writer of an endpoint keeps its wire framed and only adds to it. -/
theorem Endpoint.framed_of_step {usizeBits : ℕ} {s s' : Endpoint} {e : EndpointEvent}
    (hs : s.writer.Framed) (hfree : e.errorFree = true) (h : s.step usizeBits e = some s') :
    s'.writer.Framed ∧ s.writer.wire <+: s'.writer.wire := by
  rcases writer_of_step h with hsame | ⟨e', out, hstep, hout, hevent⟩
  · rw [hsame]
    exact ⟨hs, List.prefix_rfl⟩
  · have hok : e'.isIoError = false := by
      rcases hevent with rfl | hcontrol
      · cases e' <;> first | rfl | cases hfree
      · cases e' <;> first | rfl | cases hcontrol
    rw [hout, (Writer.fields_of_step hstep).1]
    exact ⟨Writer.framed_of_step hs hok hstep, List.prefix_append _ _⟩

/-- Every length fits a 64-bit `usize`. -/
theorem asUsize_64 (length : UInt64) : asUsize 64 length = length.toNat :=
  Nat.mod_eq_of_lt length.toNat_lt

/-- The reader of an endpoint decodes what it consumes, and consumes what has arrived. -/
theorem Endpoint.decodes_of_step {s s' : Endpoint} {e : EndpointEvent}
    (hs : s.reader.Decodes 64) (hfree : e.errorFree = true) (h : s.step 64 e = some s') :
    s'.reader.Decodes 64 ∧
      s'.reader.consumed ++ s'.reader.incoming = s.reader.consumed ++ s.reader.incoming := by
  rcases reader_of_step h with hsame | ⟨sessionOpen, e', out, hstep, hout, hevent⟩
  · rw [hsame]
    exact ⟨hs, rfl⟩
  · -- a stop or a kill is no error
    have hclean : s.reader.errorClean e' = true := by
      cases e' with
      | ioError err =>
        cases err with
        | unexpectedEof => rfl
        | other =>
          rcases hevent with rfl | hcontrol
          · cases hfree
          · cases hcontrol
      | _ => rfl
    rw [hout]
    exact ⟨Reader.decodes_of_step hs (fun _ length _ _ => asUsize_64 length) hclean hstep,
      (Reader.fields_of_step hstep).1⟩

/-- What holds in an endpoint by itself. -/
structure Endpoint.Sound (s : Endpoint) : Prop where
  flow : Flow s
  framed : s.writer.Framed
  decodes : s.reader.Decodes 64
  fits : ∀ f ∈ s.session.sent, Fits 8 f

/-- An endpoint as it is started. -/
theorem Endpoint.sound_preStart (state : TcpSessionState) (read : ActorReadHalf)
    (write : ActorWriteHalf) (incoming : List UInt8) :
    (preStart state read write incoming).Sound where
  flow := flow_preStart _ _ _ _
  framed := Writer.framed_preStart _
  decodes := Reader.decodes_preStart _ _ _
  fits := fun f hf => by cases hf

/-- What holds in an endpoint is kept by its steps. -/
theorem Endpoint.Sound.step {s s' : Endpoint} {e : EndpointEvent} (hs : s.Sound)
    (hfree : e.errorFree = true) (hfits : ∀ msg, e = .send msg → Fits 8 msg)
    (h : s.step 64 e = some s') : s'.Sound where
  flow := hs.flow.step h
  framed := (framed_of_step hs.framed hfree h).1
  decodes := (decodes_of_step hs.decodes hfree h).1
  fits := by
    rcases sent_of_step h with hsent | ⟨msg, rfl, hsent⟩
    · exact hsent ▸ hs.fits
    · intro f hf
      rw [hsent] at hf
      rcases List.mem_append.mp hf with hf | hf
      · exact hs.fits f hf
      · rw [List.mem_singleton] at hf
        exact hf ▸ hfits msg rfl

/-- Bytes that arrive wait to be read. -/
theorem Endpoint.Sound.arrive {s : Endpoint} (hs : s.Sound) (bytes : List UInt8) :
    (s.arrive bytes).Sound where
  flow := ⟨hs.flow.sends_eq, hs.flow.forwarded_le, hs.flow.writes_eq, hs.flow.begun_le,
    hs.flow.frames_eq, hs.flow.received_le⟩
  framed := hs.framed
  decodes := by
    refine ⟨hs.decodes.fits, hs.decodes.past, fun hlive => ?_, hs.decodes.dropped⟩
    obtain ⟨held, hholds, hcons⟩ := hs.decodes.live hlive
    exact ⟨held, hholds.arrive bytes, hcons⟩
  fits := hs.fits

/-! ## The invariant -/

/-- The invariant of a network without errors. -/
structure Network.Linked (s : Network) : Prop where
  sound : ∀ side, (s.ends side).Sound
  /-- What has arrived at a side is what the other side has put, as far as it was delivered. -/
  arrived : ∀ side, s.delivered side ≤ (s.ends side).writer.wire.length ∧
    (s.ends side.other).reader.consumed ++ (s.ends side.other).reader.incoming =
      (s.ends side).writer.wire.take (s.delivered side)

namespace Network

/-- A network as it is started. -/
theorem linked_start (state : Side → TcpSessionState) (read : Side → ActorReadHalf)
    (write : Side → ActorWriteHalf) : (start state read write).Linked where
  sound := fun _ => Endpoint.sound_preStart _ _ _ _
  arrived := fun _ => ⟨Nat.zero_le _, rfl⟩

/-- **Step lemma.** -/
theorem Linked.step {s s' : Network} {e : NetworkEvent} (hs : s.Linked)
    (hcalm : s.calm e = true) (h : s.step e = some s') : s'.Linked := by
  cases e with
  | endpoint side₀ e =>
    simp only [Network.step, Option.map_eq_some_iff] at h
    obtain ⟨endpoint, hstep, rfl⟩ := h
    have hfree : e.errorFree = true := by
      cases e with
      | send msg => rfl
      | _ => exact hcalm
    have hfits : ∀ msg, e = .send msg → Fits 8 msg := by
      rintro msg rfl
      have hlt : msg.length < 2 ^ 64 := by simpa [Network.calm] using hcalm
      exact hlt
    -- of each endpoint, the wire has grown and the bytes that have arrived are the same
    have heach (side : Side) : (Function.update s.ends side₀ endpoint side).Sound ∧
        (s.ends side).writer.wire <+:
          (Function.update s.ends side₀ endpoint side).writer.wire ∧
        (Function.update s.ends side₀ endpoint side).reader.consumed ++
          (Function.update s.ends side₀ endpoint side).reader.incoming =
          (s.ends side).reader.consumed ++ (s.ends side).reader.incoming := by
      by_cases hside : side = side₀
      · subst hside
        rw [Function.update_self]
        exact ⟨(hs.sound side).step hfree hfits hstep,
          (Endpoint.framed_of_step (hs.sound side).framed hfree hstep).2,
          (Endpoint.decodes_of_step (hs.sound side).decodes hfree hstep).2⟩
      · rw [Function.update_of_ne hside]
        exact ⟨hs.sound side, List.prefix_rfl, rfl⟩
    refine ⟨fun side => (heach side).1, fun side => ?_⟩
    obtain ⟨hle, heq⟩ := hs.arrived side
    obtain ⟨-, ⟨more, hmore⟩, -⟩ := heach side
    obtain ⟨-, -, hbytes⟩ := heach side.other
    show s.delivered side ≤ (Function.update s.ends side₀ endpoint side).writer.wire.length ∧ _
    rw [hbytes, heq, ← hmore, List.length_append, List.take_append_of_le_length hle]
    exact ⟨by omega, rfl⟩
  | deliver side₀ n =>
    simp only [Network.step] at h
    split at h
    · rename_i hn
      rw [Option.some.injEq] at h
      subst h
      refine ⟨fun side => ?_, fun side => ?_⟩
      · -- bytes that arrive at the other side wait there
        show (Function.update s.ends side₀.other _ side).Sound
        by_cases hside : side = side₀.other
        · subst hside
          rw [Function.update_self]
          exact (hs.sound _).arrive _
        · rw [Function.update_of_ne hside]
          exact hs.sound side
      · obtain ⟨hle, heq⟩ := hs.arrived side
        by_cases hside : side = side₀
        · -- the direction in which they were delivered
          subst hside
          simp only [Function.update_self, Function.update_of_ne side.other_ne.symm,
            Endpoint.arrive]
          refine ⟨hn, ?_⟩
          rw [← List.append_assoc, heq, List.take_add]
        · -- the other direction
          have hother : side.other ≠ side₀.other := by
            intro heq'
            have := congrArg Side.other heq'
            rw [Side.other_other, Side.other_other] at this
            exact hside this
          have hself : side = side₀.other := by
            cases side <;> cases side₀ <;> first | rfl | exact absurd rfl hside
          simp only [Function.update_of_ne hside, Function.update_of_ne hother]
          rw [hself, Function.update_self, ← hself]
          exact ⟨hle, heq⟩
    · cases h

/-! ## Delivery -/

/-- In the direction away from `side` nothing is under way: the session and the writer of `side`
and the session of the other side live, are idle and have empty mailboxes, no byte is in transit
or unread, and the reader of the other side waits for the first byte of a header. -/
structure Settled (s : Network) (side : Side) : Prop where
  sender : (s.ends side).session.exit = none ∧ (s.ends side).session.pc = .idle ∧
    (s.ends side).session.queue = []
  writer : (s.ends side).writer.exit = none ∧ (s.ends side).writer.pc = .idle ∧
    (s.ends side).writer.queue = []
  transit : s.delivered side = (s.ends side).writer.wire.length
  reader : (s.ends side.other).reader.exit = none ∧
    (s.ends side.other).reader.pc = .header [] ∧ (s.ends side.other).reader.incoming = []
  receiver : (s.ends side.other).session.exit = none ∧ (s.ends side.other).session.pc = .idle ∧
    (s.ends side.other).session.queue = []

instance (s : Network) (side : Side) : Decidable (s.Settled side) :=
  decidable_of_iff (_ ∧ _ ∧ _ ∧ _ ∧ _)
    ⟨fun ⟨h₁, h₂, h₃, h₄, h₅⟩ => ⟨h₁, h₂, h₃, h₄, h₅⟩,
      fun h => ⟨h.sender, h.writer, h.transit, h.reader, h.receiver⟩⟩

/-- The bytes consumed at one side are those that the other side has put first. -/
theorem Linked.consumed_le {s : Network} (hs : s.Linked) (side : Side) :
    (s.ends side.other).reader.consumed <+: (s.ends side).writer.wire := by
  have harrived : (s.ends side.other).reader.consumed <+:
      (s.ends side).writer.wire.take (s.delivered side) :=
    (hs.arrived side).2 ▸ List.prefix_append _ _
  exact harrived.trans (List.take_prefix _ _)

/-- The frames that a writer has begun are the first of those sent to its session. -/
theorem Linked.begun_le {s : Network} (hs : s.Linked) (side : Side) :
    (s.ends side).writer.begun <+: (s.ends side).session.sent :=
  (hs.sound side).flow.begun_le.trans (hs.sound side).flow.forwarded_le

/-- The frames that a writer has begun fit their headers. -/
theorem Linked.begun_fits {s : Network} (hs : s.Linked) (side : Side) :
    ∀ f ∈ (s.ends side).writer.begun, Fits 8 f :=
  fun f hf => (hs.sound side).fits f ((hs.begun_le side).subset hf)

/-- The frames that one side has decoded are the first of those that the other side has begun. -/
theorem Linked.casts_le {s : Network} (hs : s.Linked) (side : Side) :
    (s.ends side.other).reader.casts <+: (s.ends side).writer.begun := by
  -- the frames decoded, as bytes, are bytes consumed, bytes put and bytes of the frames begun
  have hbytes : encodeAll 8 (s.ends side.other).reader.casts <+:
      encodeAll 8 (s.ends side).writer.begun :=
    ((hs.sound side.other).decodes.past.trans (hs.consumed_le side)).trans
      (hs.sound side).framed.past
  exact prefix_of_encodeAll (by decide) (hs.sound side.other).decodes.fits (hs.begun_fits side)
    hbytes

/-- What the receiver of one side was given is a prefix of what was sent to the other side. -/
theorem Linked.received_le {s : Network} (hs : s.Linked) (side : Side) :
    (s.ends side.other).session.received <+: (s.ends side).session.sent :=
  (hs.sound side.other).flow.received_le.trans ((hs.casts_le side).trans (hs.begun_le side))

/-- Once nothing is under way, all that was sent has been given to the receiver. -/
theorem Linked.received_eq {s : Network} (hs : s.Linked) {side : Side} (hq : s.Settled side) :
    (s.ends side.other).session.received = (s.ends side).session.sent := by
  have hsender := hs.sound side
  have hreceiver := hs.sound side.other
  obtain ⟨hwexit, hwpc, hwqueue⟩ := hq.writer
  obtain ⟨hrexit, hrpc, hincoming⟩ := hq.reader
  -- all bytes of the frames begun are on the wire
  have hwire : (s.ends side).writer.wire = encodeAll 8 (s.ends side).writer.begun := by
    have hexact := hsender.framed.exact hwexit
    rwa [hwpc, WriterPc.owed, List.append_nil] at hexact
  -- they have been consumed
  have hconsumed : (s.ends side.other).reader.consumed = (s.ends side).writer.wire := by
    have harrived := (hs.arrived side).2
    rwa [hincoming, List.append_nil, hq.transit, List.take_length] at harrived
  -- and decoded
  have hcasts : (s.ends side.other).reader.casts = (s.ends side).writer.begun := by
    have hopen : (s.ends side.other).reader.reader ≠ none := by
      intro hnone
      rw [hreceiver.decodes.dropped hnone] at hrpc
      cases hrpc
    obtain ⟨held, hholds, hcons⟩ := hreceiver.decodes.live ⟨hrexit, hopen⟩
    obtain ⟨-, -, rfl⟩ := hholds.of_header hrpc
    rw [List.append_nil, hconsumed, hwire] at hcons
    exact (encodeAll_injective (by decide) (hs.begun_fits side) hreceiver.decodes.fits hcons).symm
  have hframes := hreceiver.flow.frames_eq hq.receiver.1
  have hwrites := hsender.flow.writes_eq hwexit
  have hsends := hsender.flow.sends_eq hq.sender.1
  rw [hq.receiver.2.2, framesReady_nil, List.append_nil] at hframes
  rw [hwqueue, writes, List.map_nil, List.append_nil] at hwrites
  rw [hq.sender.2.2, sends_nil, List.append_nil] at hsends
  rw [hframes, hcasts, hwrites, hsends]

/-- **Framed delivery.** In every run of two sessions joined by a connection, in which no error
other than the end of the stream occurs on the sockets, whatever is sent, however the bytes are
split and whichever actors are stopped or killed: the frames passed to the receiver of one side
are a prefix of the frames sent to the other side, and are all of them once nothing is under
way. -/
theorem framed_delivery {state : Side → TcpSessionState} {read : Side → ActorReadHalf}
    {write : Side → ActorWriteHalf} {es : List NetworkEvent} {s : Network}
    (h : Run step (fun s e => s.calm e = true) (start state read write) es s) (side : Side) :
    (s.ends side.other).session.received <+: (s.ends side).session.sent ∧
      (s.Settled side →
        (s.ends side.other).session.received = (s.ends side).session.sent) := by
  have hs : s.Linked := by
    refine h.invariant (linked_start state read write) ?_
    intro s e s' hs hcalm hstep
    exact hs.step hcalm hstep
  exact ⟨hs.received_le side, hs.received_eq⟩

/-- Side `a` sends a frame and an empty frame, which arrive in two pieces. -/
def exchange : List NetworkEvent :=
  [EndpointEvent.send [7], .send [], .handle, .handle, .writer .handle, .writer (.put 8),
      .writer .wrote, .writer (.put 1), .writer .wrote, .writer .flushed, .writer .handle,
      .writer (.put 8), .writer .wrote, .writer .wrote, .writer .flushed].map (.endpoint .a) ++
    [.deliver .a 3, .endpoint .b (.reader .handle), .endpoint .b (.reader (.read 3)),
      .deliver .a 14] ++
    [EndpointEvent.reader (.read 5), .reader .handle, .reader .ready, .reader (.read 1), .handle,
      .reader .handle, .returned (.ok ()), .reader (.read 8), .reader .handle, .reader .ready,
      .handle, .returned (.ok ()), .reader .handle].map (.endpoint .b)

/-- Both frames are passed to the receiver. -/
theorem framed_delivery_two_frames :
    ∃ s, exec step (start (fun _ => ⟨⟨.loc 1⟩, ⟨.loc 2⟩⟩) (fun _ => .regular)
        (fun _ => .clientTls)) exchange = some s ∧
      (s.ends .a).session.sent = [[7], []] ∧
      (s.ends .b).session.received = (s.ends .a).session.sent := by
  have hrun : (exec (checked calm step) (start (fun _ => ⟨⟨.loc 1⟩, ⟨.loc 2⟩⟩)
      (fun _ => .regular) (fun _ => .clientTls)) exchange).any
      (fun s => decide (s.Settled .a ∧ (s.ends .a).session.sent = [[7], []])) = true := by
    decide
  obtain ⟨s, hs, hfinal⟩ := (Option.any_eq_true _ _).mp hrun
  obtain ⟨hsettled, hsent⟩ := of_decide_eq_true hfinal
  have hcalm := run_iff_exec_checked.mpr hs
  exact ⟨s, hcalm.exec_eq, hsent, (framed_delivery hcalm .a).2 hsettled⟩

end Network

end RactorActors.Net.Tcp
