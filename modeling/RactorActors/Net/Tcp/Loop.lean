import RactorActors.Net.Tcp.Decoding

/-!
# The message loop of the reader

The reader drives itself: each of its two handlers ends by posting the next message, or by
stopping. At the end of the stream the handlers drop the stream and stop. After any other error
they post `WaitForFrame` again, and a socket that fails once and for all then keeps them busy for
ever.

* `Orderly`: the shape of the loop, kept by every step;
* `runsOn` and `deadSocket`: the steps that are left once the socket gives one outcome for ever;
* `Doomed`: the states from which these steps end, by the measure `rank`;
* `loop_ends_iff`: the loop ends exactly from these states;
* `loop_never_ends`: a reset connection, on which it does not.
-/

namespace RactorActors.Net.Tcp

open LabelledRun LengthPrefix

namespace Reader

/-- The next message is a `ReadFrame` whose buffer cannot be allocated. -/
def unallocatable (usizeBits : ℕ) (tooLarge : ℕ → Bool) (s : Reader) : Bool :=
  match s.queue with
  | .readFrame length :: _ => tooLarge (asUsize usizeBits length)
  | _ => false

/-- The steps of the reader itself that return no byte. A buffer is allocated unless it is too
large. -/
def runsOn (usizeBits : ℕ) (tooLarge : ℕ → Bool) (s : Reader) : ReaderEvent → Bool
  | .handle => !s.unallocatable usizeBits tooLarge
  | .allocFails => s.unallocatable usizeBits tooLarge
  -- a raw socket is `readable` at the end of its stream and after an error too
  | .ready => true
  | .takeStop => true
  | _ => false

/-- The steps of a reader whose socket gives the outcome `err` to every operation, while nobody
but the reader itself stops it. -/
def deadSocket (usizeBits : ℕ) (tooLarge : ℕ → Bool) (err : IoErr) (s : Reader)
    (e : ReaderEvent) : Bool :=
  s.runsOn usizeBits tooLarge e || e = .ioError err

/-- The loop of the reader ends on a dead socket: the number of its steps is bounded, and when
none is left the reader has stopped. -/
def LoopEnds (usizeBits : ℕ) (tooLarge : ℕ → Bool) (err : IoErr) (s : Reader) : Prop :=
  ∃ n, ∀ es s', Run (stepAlone usizeBits)
      (fun s e => s.deadSocket usizeBits tooLarge err e.2 = true) s es s' →
    es.length ≤ n ∧
      ((∀ e, s'.deadSocket usizeBits tooLarge err e.2 = true → stepAlone usizeBits s' e = none) →
        s'.exit ≠ none)

/-! ## The shape of the loop -/

/-- The reader is at one place of its loop, or it has dropped its stream. -/
structure Orderly (usizeBits : ℕ) (s : Reader) : Prop where
  live : s.Live → ∃ held, s.Holds usizeBits held
  dropped : s.reader = none → s.pc = .idle
  /-- The stream is dropped together with a stop. -/
  stops : s.exit = none → s.reader = none → s.stopping ≠ none
  ended : s.exit ≠ none → s.reader = none

/-- A reader that is reading and holds something. -/
theorem Orderly.of_holds {usizeBits : ℕ} {s : Reader} (held : List UInt8)
    (hholds : s.Holds usizeBits held) (hreader : s.reader ≠ none) (hexit : s.exit = none) :
    Orderly usizeBits s where
  live := fun _ => ⟨held, hholds⟩
  dropped := fun hnone => absurd hnone hreader
  stops := fun _ hnone => absurd hnone hreader
  ended := fun hended => absurd hexit hended

/-- A reader that has ended. -/
theorem orderly_finish (usizeBits : ℕ) (s : Reader) (exit : Exit) :
    Orderly usizeBits (s.finish exit) where
  live := fun hlive => absurd rfl hlive.2
  dropped := fun _ => rfl
  stops := fun hnone => absurd hnone (Option.some_ne_none exit)
  ended := fun _ => rfl

/-- A stop that reaches a reader is pending then. Only the first one counts. -/
theorem stop_of_running {s : Reader} (hexit : s.exit = none) (reason : Option String) :
    s.stop reason = { s with stopping := some (s.stopping.getD reason) } := by
  obtain ⟨reader, pc, queue, stopping, exit, incoming, consumed, casts⟩ := s
  obtain rfl : exit = none := hexit
  cases stopping <;> rfl

/-- At the end of the stream `wait_for_frame` drops the stream, stops and posts once more. -/
theorem waitForFrame_eof {s : Reader} (hexit : s.exit = none) :
    s.waitForFrame (.error .unexpectedEof) =
      { s with
        reader := none
        pc := .idle
        queue := s.queue ++ [.waitForFrame]
        stopping := some (s.stopping.getD (some "channel_closed")) } := by
  rw [waitForFrame, stop_of_running (s := { s with reader := none }) hexit]
  rfl

/-- At the end of the stream `read_frame` drops the stream and stops. -/
theorem readFrame_eof {s : Reader} (hexit : s.exit = none) (sessionOpen : Bool) :
    s.readFrame sessionOpen (.error .unexpectedEof) =
      ({ s with
        reader := none
        pc := .idle
        stopping := some (s.stopping.getD (some "channel_closed")) }, none) := by
  rw [readFrame, stop_of_running (s := { s with reader := none, pc := .idle }) hexit]

/-- A reader that has dropped its stream and was told to stop. -/
theorem orderly_of_stop {usizeBits : ℕ} {s : Reader} (hreader : s.reader = none)
    (hpc : s.pc = .idle) (hstop : s.stopping ≠ none) : Orderly usizeBits s where
  live := fun hlive => absurd hreader hlive.2
  dropped := fun _ => hpc
  stops := fun _ _ => hstop
  ended := fun _ => hreader

/-- The head of the reading loop keeps the shape. -/
theorem orderly_readNBytes {usizeBits : ℕ} (sessionOpen : Bool) {s : Reader} {length : UInt64}
    {buf : List UInt8} (hreader : s.reader ≠ none) (hexit : s.exit = none) (hqueue : s.queue = []) :
    Orderly usizeBits (readNBytes usizeBits sessionOpen s length buf).1 := by
  unfold readNBytes
  split
  · rename_i hshort
    exact .of_holds _ (Holds.payload length buf rfl hqueue hshort) hreader hexit
  · cases sessionOpen with
    | true =>
      refine .of_holds [] (Holds.waiting rfl ?_) hreader hexit
      show s.queue ++ [.waitForFrame] = [.waitForFrame]
      rw [hqueue, List.nil_append]
    | false => exact orderly_finish usizeBits s _

/-- The reader that takes a message has no other. -/
theorem Orderly.rest_eq_nil {usizeBits : ℕ} {s : Reader} (hs : s.Orderly usizeBits)
    {msg : SessionReaderMessage} {rest : List SessionReaderMessage} (htakes : s.Takes msg rest)
    (hreader : s.reader ≠ none) : rest = [] := by
  obtain ⟨hexit, hpc, -, hqueue⟩ := htakes
  obtain ⟨held, hholds⟩ := hs.live ⟨hexit, hreader⟩
  rcases hholds.of_idle hpc with ⟨hq, -⟩ | ⟨length, hq, -⟩
  all_goals
    rw [hqueue, List.cons.injEq] at hq
    exact hq.2

/-- While a handler waits, the stream is there. -/
theorem Orderly.live_of_pc {usizeBits : ℕ} {s : Reader} (hs : s.Orderly usizeBits)
    (hexit : s.exit = none) (hpc : s.pc ≠ .idle) : s.Live :=
  ⟨hexit, fun hnone => hpc (hs.dropped hnone)⟩

/-- No message waits while a handler waits. -/
theorem Orderly.queue_eq_nil {usizeBits : ℕ} {s : Reader} (hs : s.Orderly usizeBits)
    (hexit : s.exit = none) (hpc : s.pc ≠ .idle) : s.queue = [] := by
  obtain ⟨held, hholds⟩ := hs.live (hs.live_of_pc hexit hpc)
  cases hholds with
  | waiting hidle | announced _ hidle => exact absurd hidle hpc
  | header _ _ hqueue | readable _ _ hqueue | payload _ _ _ hqueue => exact hqueue

/-- **Step lemma.** Every step keeps the shape of the loop. -/
theorem Orderly.step {usizeBits : ℕ} {sessionOpen : Bool} {s : Reader} {e : ReaderEvent}
    {out : Reader × Option Frame} (hs : s.Orderly usizeBits)
    (h : s.step usizeBits sessionOpen e = some out) : out.1.Orderly usizeBits := by
  cases step_cases h with
  | wait half rest htakes hreader =>
    obtain rfl := hs.rest_eq_nil htakes (by simp [hreader])
    exact .of_holds _ (Holds.header [] rfl rfl (by decide)) (by simp [hreader]) htakes.1
  | retry msg rest htakes hreader =>
    -- without a stream the reader was told to stop, and takes no message
    exact absurd htakes.2.2.1 (hs.stops htakes.1 hreader)
  | readable length rest htakes hreader =>
    obtain rfl := hs.rest_eq_nil htakes (by simp [hreader])
    exact .of_holds _ (Holds.readable length rfl rfl) (by simp [hreader]) htakes.1
  | fill length rest half htakes hreader =>
    obtain rfl := hs.rest_eq_nil htakes (by simp [hreader])
    exact orderly_readNBytes sessionOpen (by simp [hreader]) htakes.1 rfl
  | allocFails | takeStop => exact orderly_finish usizeBits s _
  | ready length hexit hpc =>
    have hpc' : s.pc ≠ .idle := by simp [hpc]
    exact orderly_readNBytes sessionOpen (hs.live_of_pc hexit hpc').2 hexit
      (hs.queue_eq_nil hexit hpc')
  | headerMore got n hexit hpc hn hshort =>
    have hpc' : s.pc ≠ .idle := by simp [hpc]
    exact .of_holds _ (Holds.header _ rfl (hs.queue_eq_nil hexit hpc') hshort)
      (hs.live_of_pc hexit hpc').2 hexit
  | headerDone got n hexit hpc hn hfull =>
    have hpc' : s.pc ≠ .idle := by simp [hpc]
    refine .of_holds _ (Holds.announced
      (UInt64.ofNat (bigEndianValue (got ++ s.incoming.take n))) rfl ?_)
      (hs.live_of_pc hexit hpc').2 hexit
    show s.queue ++ [_] = [_]
    rw [hs.queue_eq_nil hexit hpc', List.nil_append]
  | payload length buf n hexit hpc =>
    have hpc' : s.pc ≠ .idle := by simp [hpc]
    have hreader := (hs.live_of_pc hexit hpc').2
    have hqueue := hs.queue_eq_nil hexit hpc'
    exact orderly_readNBytes (s := s.take n) sessionOpen hreader hexit hqueue
  | headerError got err hexit hpc =>
    have hpc' : s.pc ≠ .idle := by simp [hpc]
    cases err with
    | unexpectedEof =>
      rw [waitForFrame_eof hexit]
      exact orderly_of_stop rfl rfl (Option.some_ne_none _)
    | other =>
      refine .of_holds [] (Holds.waiting rfl ?_) (hs.live_of_pc hexit hpc').2 hexit
      show s.queue ++ [_] = [_]
      rw [hs.queue_eq_nil hexit hpc', List.nil_append]
  | frameError length err hexit hpc =>
    have hpc' : s.pc ≠ .idle := by
      rcases hpc with hpc | ⟨buf, hpc⟩ <;> simp [hpc]
    cases err with
    | unexpectedEof =>
      rw [readFrame_eof hexit]
      exact orderly_of_stop rfl rfl (Option.some_ne_none _)
    | other =>
      refine .of_holds [] (Holds.waiting rfl ?_) (hs.live_of_pc hexit hpc').2 hexit
      show s.queue ++ [_] = [_]
      rw [hs.queue_eq_nil hexit hpc', List.nil_append]
  | stop reason =>
    by_cases hexit : s.exit = none
    · rw [stop_of_running hexit]
      refine ⟨fun hlive => ?_, hs.dropped, fun _ _ => Option.some_ne_none _, hs.ended⟩
      obtain ⟨held, hholds⟩ := hs.live hlive
      exact ⟨held, hholds.stopping _⟩
    · -- a reader that has ended takes no stop
      have hstop : s.stop reason = s := by
        unfold Reader.stop
        split
        · rename_i hnone _
          exact absurd hnone hexit
        · rfl
      rw [hstop]
      exact hs
  | kill =>
    unfold Reader.kill
    split
    · exact orderly_finish usizeBits s _
    · exact hs

/-- A reader that was just started waits for its first frame. -/
theorem orderly_preStart (usizeBits : ℕ) (half : ActorReadHalf) (incoming : List UInt8) :
    Orderly usizeBits (preStart half incoming) :=
  .of_holds [] (Holds.waiting rfl rfl) (Option.some_ne_none half) rfl

/-- The loop keeps its shape in every run. -/
theorem orderly_of_run {usizeBits : ℕ} {half : ActorReadHalf} {incoming : List UInt8}
    {es : List (Bool × ReaderEvent)} {s : Reader}
    (h : exec (stepAlone usizeBits) (preStart half incoming) es = some s) :
    s.Orderly usizeBits := by
  refine exec_invariant h (orderly_preStart usizeBits half incoming) ?_
  intro s e s' hs hstep
  rw [stepAlone, Option.map_eq_some_iff] at hstep
  obtain ⟨out, hout, rfl⟩ := hstep
  exact hs.step hout

/-! ## The states from which the loop ends -/

/-- The loop of the reader ends on a socket that gives `err` for ever: it is the end of the
stream, or the reader has ended, was told to stop, or is about to fail on a buffer. -/
def Doomed (usizeBits : ℕ) (tooLarge : ℕ → Bool) (err : IoErr) (s : Reader) : Prop :=
  err = .unexpectedEof ∨ s.exit ≠ none ∨ s.stopping ≠ none ∨
    s.unallocatable usizeBits tooLarge = true

/-- How many steps a doomed reader can take at most. -/
def rank (s : Reader) : ℕ :=
  match s.exit, s.pc with
  | some _, _ => 0
  | none, .header _ => 2
  | none, .payload _ _ => 2
  | none, .readable _ => 4
  | none, .idle => if s.stopping ≠ none then 1 else if s.queue = [.waitForFrame] then 3 else 5

/-- The rank of a reader that has ended. -/
theorem rank_finish (s : Reader) (exit : Exit) : (s.finish exit).rank = 0 := rfl

/-- The head of the reading loop brings a reader nearer to its end. -/
theorem rank_readNBytes (usizeBits : ℕ) (sessionOpen : Bool) {s : Reader} (length : UInt64)
    (buf : List UInt8) (hexit : s.exit = none) (hqueue : s.queue = []) :
    (readNBytes usizeBits sessionOpen s length buf).1.rank ≤ 3 := by
  unfold readNBytes
  split
  · simp [rank, hexit]
  · cases sessionOpen with
    | false => exact Nat.zero_le _
    | true =>
      by_cases hstop : s.stopping = none <;> simp [readFrame, again, rank, hexit, hqueue, hstop]

/-- The head of the reading loop leaves a pending stop alone, or ends the reader. -/
theorem stopping_readNBytes (usizeBits : ℕ) (sessionOpen : Bool) (s : Reader) (length : UInt64)
    (buf : List UInt8) :
    (readNBytes usizeBits sessionOpen s length buf).1.stopping = s.stopping := by
  unfold readNBytes
  split
  · rfl
  · cases sessionOpen <;> rfl

/-- A pending stop stays pending. -/
theorem stopping_of_step {usizeBits : ℕ} {sessionOpen : Bool} {s : Reader} {e : ReaderEvent}
    {out : Reader × Option Frame} (h : s.step usizeBits sessionOpen e = some out)
    (hstop : s.stopping ≠ none) : out.1.stopping ≠ none := by
  cases step_cases h with
  | wait | retry | readable | allocFails | headerMore | headerDone | takeStop => exact hstop
  | fill | ready | payload =>
    rw [stopping_readNBytes]
    exact hstop
  | headerError got err hexit =>
    cases err with
    | unexpectedEof =>
      rw [waitForFrame_eof hexit]
      exact Option.some_ne_none _
    | other => exact hstop
  | frameError length err hexit =>
    cases err with
    | unexpectedEof =>
      rw [readFrame_eof hexit]
      exact Option.some_ne_none _
    | other => exact hstop
  | stop reason =>
    unfold Reader.stop
    split
    · exact Option.some_ne_none _
    · exact hstop
  | kill =>
    unfold Reader.kill
    split <;> exact hstop

/-- Only an announced frame can fail on its buffer. -/
theorem not_unallocatable_of_nil {usizeBits : ℕ} {tooLarge : ℕ → Bool} {s : Reader}
    (hqueue : s.queue = []) : s.unallocatable usizeBits tooLarge = false := by
  rw [unallocatable, hqueue]

/-- Unless the reader is about to fail on a buffer, a step keeps what dooms it. -/
theorem Doomed.of_step {usizeBits : ℕ} {tooLarge : ℕ → Bool} {err : IoErr} {sessionOpen : Bool}
    {s : Reader} {e : ReaderEvent} {out : Reader × Option Frame}
    (hs : s.Doomed usizeBits tooLarge err) (h : s.step usizeBits sessionOpen e = some out)
    (hexit : s.exit = none) (hfine : s.unallocatable usizeBits tooLarge = false) :
    out.1.Doomed usizeBits tooLarge err := by
  rcases hs with heof | hended | hstop | hlarge
  · exact Or.inl heof
  · exact absurd hexit hended
  · exact Or.inr (Or.inr (Or.inl (stopping_of_step h hstop)))
  · rw [hfine] at hlarge
    cases hlarge

/-- A doomed reader whose handler is to post `WaitForFrame` after an error was told to stop. -/
theorem Doomed.stopping_ne_none {usizeBits : ℕ} {tooLarge : ℕ → Bool} {s : Reader}
    (hs : s.Doomed usizeBits tooLarge .other) (hexit : s.exit = none) (hqueue : s.queue = []) :
    s.stopping ≠ none := by
  rcases hs with heof | hended | hstop | hlarge
  · cases heof
  · exact absurd hexit hended
  · exact hstop
  · rw [not_unallocatable_of_nil hqueue] at hlarge
    cases hlarge

/-- **Step lemma.** A doomed reader stays doomed, and every step on the dead socket brings it
nearer to its end. -/
theorem Doomed.step {usizeBits : ℕ} {tooLarge : ℕ → Bool} {err : IoErr} {sessionOpen : Bool}
    {s : Reader} {e : ReaderEvent} {out : Reader × Option Frame}
    (hs : s.Doomed usizeBits tooLarge err) (ho : s.Orderly usizeBits)
    (hdead : s.deadSocket usizeBits tooLarge err e = true)
    (h : s.step usizeBits sessionOpen e = some out) :
    out.1.Doomed usizeBits tooLarge err ∧ out.1.rank < s.rank := by
  have hkeep := hs.of_step h
  have hfine (hhandle : e = .handle) : s.unallocatable usizeBits tooLarge = false := by
    subst hhandle
    simpa [deadSocket, runsOn] using hdead
  have hbusy (hexit : s.exit = none) (hpc : s.pc ≠ .idle) :
      s.queue = [] ∧ out.1.Doomed usizeBits tooLarge err := by
    have hqueue := ho.queue_eq_nil hexit hpc
    exact ⟨hqueue, hkeep hexit (not_unallocatable_of_nil hqueue)⟩
  cases step_cases h with
  | wait half rest htakes hreader =>
    refine ⟨hkeep htakes.1 (hfine rfl), ?_⟩
    obtain rfl := ho.rest_eq_nil htakes (by simp [hreader])
    obtain ⟨hexit, hpc, hstop, hqueue⟩ := htakes
    simp [rank, hexit, hpc, hstop, hqueue]
  | retry msg rest htakes hreader => exact absurd htakes.2.2.1 (ho.stops htakes.1 hreader)
  | readable length rest htakes hreader =>
    refine ⟨hkeep htakes.1 (hfine rfl), ?_⟩
    obtain ⟨hexit, hpc, hstop, hqueue⟩ := htakes
    simp [rank, hexit, hpc, hstop, hqueue]
  | fill length rest half htakes hreader =>
    refine ⟨hkeep htakes.1 (hfine rfl), ?_⟩
    obtain rfl := ho.rest_eq_nil htakes (by simp [hreader])
    have hle := rank_readNBytes usizeBits sessionOpen (s := { s with queue := [] }) length []
      htakes.1 rfl
    obtain ⟨hexit, hpc, hstop, hqueue⟩ := htakes
    have hrank : s.rank = 5 := by simp [rank, hexit, hpc, hstop, hqueue]
    omega
  | allocFails length rest htakes =>
    refine ⟨Or.inr (Or.inl (Option.some_ne_none _)), ?_⟩
    obtain ⟨hexit, hpc, hstop, hqueue⟩ := htakes
    rw [rank_finish]
    simp [rank, hexit, hpc, hstop, hqueue]
  | ready length hexit hpc =>
    obtain ⟨hqueue, hdoomed⟩ := hbusy hexit (by simp [hpc])
    refine ⟨hdoomed, ?_⟩
    have hle := rank_readNBytes usizeBits sessionOpen length [] hexit hqueue
    have hrank : s.rank = 4 := by simp [rank, hexit, hpc]
    omega
  | headerMore | headerDone | payload => simp [deadSocket, runsOn] at hdead
  | headerError got err' hexit hpc =>
    obtain ⟨hqueue, hdoomed⟩ := hbusy hexit (by simp [hpc])
    refine ⟨hdoomed, ?_⟩
    cases err' with
    | unexpectedEof =>
      rw [waitForFrame_eof hexit]
      simp [rank, hexit, hpc]
    | other =>
      -- the socket gives this error to every operation
      obtain rfl : err = .other := by simpa [deadSocket, runsOn, eq_comm] using hdead
      have hstop := hs.stopping_ne_none hexit hqueue
      simp [waitForFrame, again, rank, hexit, hpc, hstop]
  | frameError length err' hexit hpc =>
    have hpc' : s.pc ≠ .idle ∧ 2 ≤ s.rank := by
      rcases hpc with hpc | ⟨buf, hpc⟩ <;> simp [rank, hexit, hpc]
    obtain ⟨hqueue, hdoomed⟩ := hbusy hexit hpc'.1
    refine ⟨hdoomed, Nat.lt_of_lt_of_le ?_ hpc'.2⟩
    cases err' with
    | unexpectedEof =>
      rw [readFrame_eof hexit]
      simp [rank, hexit]
    | other =>
      -- the socket gives this error to every operation
      obtain rfl : err = .other := by simpa [deadSocket, runsOn, eq_comm] using hdead
      have hstop := hs.stopping_ne_none hexit hqueue
      simp [readFrame, again, rank, hexit, hstop]
  | takeStop reason hexit hpc hstop =>
    refine ⟨Or.inr (Or.inl (Option.some_ne_none _)), ?_⟩
    rw [rank_finish]
    simp [rank, hexit, hpc, hstop]
  | stop | kill => simp [deadSocket, runsOn] at hdead

/-- Until it has ended, a reader can take a step of its own, or it waits for bytes. -/
theorem Orderly.runsOn_or_reads {usizeBits : ℕ} {tooLarge : ℕ → Bool} {s : Reader}
    (hs : s.Orderly usizeBits) (hlarge : ∀ n, 2 ^ (usizeBits - 1) ≤ n → tooLarge n = true)
    (hexit : s.exit = none) :
    (∃ e, s.runsOn usizeBits tooLarge e = true ∧ stepAlone usizeBits s (true, e) ≠ none) ∨
      (∃ got, s.pc = .header got ∧ got.length < 8) ∨
        ∃ length buf, s.pc = .payload length buf ∧ buf.length < asUsize usizeBits length := by
  by_cases hstop : s.pc = .idle ∧ s.stopping ≠ none
  · -- between two handlers a pending stop is taken
    obtain ⟨reason, hreason⟩ := Option.ne_none_iff_exists'.mp hstop.2
    exact Or.inl ⟨.takeStop, rfl, by simp [stepAlone, Reader.step, hexit, hstop.1, hreason]⟩
  have hreader : s.reader ≠ none :=
    fun hnone => hstop ⟨hs.dropped hnone, hs.stops hexit hnone⟩
  obtain ⟨half, hhalf⟩ := Option.ne_none_iff_exists'.mp hreader
  obtain ⟨held, hholds⟩ := hs.live ⟨hexit, hreader⟩
  have hidle (hpc : s.pc = .idle) : s.stopping = none := by
    by_contra hne
    exact hstop ⟨hpc, hne⟩
  cases hholds with
  | waiting hpc hqueue =>
    refine Or.inl ⟨.handle, by simp [runsOn, unallocatable, hqueue], ?_⟩
    simp [stepAlone, Reader.step, hexit, hpc, hidle hpc, hqueue, hhalf]
  | announced length hpc hqueue =>
    cases hfit : tooLarge (asUsize usizeBits length) with
    | true =>
      refine Or.inl ⟨.allocFails, by simp [runsOn, unallocatable, hqueue, hfit], ?_⟩
      simp [stepAlone, Reader.step, hexit, hpc, hidle hpc, hqueue, hhalf]
    | false =>
      have hvec : asUsize usizeBits length < 2 ^ (usizeBits - 1) := by
        apply Nat.lt_of_not_le
        intro hle
        rw [hlarge _ hle] at hfit
        cases hfit
      refine Or.inl ⟨.handle, by simp [runsOn, unallocatable, hqueue, hfit], ?_⟩
      cases half <;>
        simp [stepAlone, Reader.step, hexit, hpc, hidle hpc, hqueue, hhalf, hvec]
  | header _ hpc _ hshort => exact Or.inr (Or.inl ⟨held, hpc, hshort⟩)
  | readable length hpc =>
    exact Or.inl ⟨.ready, rfl, by simp [stepAlone, Reader.step, hexit, hpc]⟩
  | payload length buf hpc _ hshort => exact Or.inr (Or.inr ⟨length, buf, hpc, hshort⟩)

/-- A reader on a dead socket can take a step until it has ended. -/
theorem Orderly.exit_ne_none_of_stuck {usizeBits : ℕ} {tooLarge : ℕ → Bool} {err : IoErr}
    {s : Reader} (hs : s.Orderly usizeBits)
    (hlarge : ∀ n, 2 ^ (usizeBits - 1) ≤ n → tooLarge n = true)
    (hstuck : ∀ e, s.deadSocket usizeBits tooLarge err e.2 = true →
      stepAlone usizeBits s e = none) : s.exit ≠ none := by
  intro hexit
  have herror := hstuck (true, .ioError err) (by simp [deadSocket])
  rcases hs.runsOn_or_reads hlarge hexit with ⟨e, hown, hne⟩ | ⟨got, hpc, -⟩ | ⟨length, buf, hpc, -⟩
  · exact hne (hstuck (true, e) (by simp [deadSocket, hown]))
  -- the socket answers a read with its error
  · simp [stepAlone, Reader.step, hexit, hpc] at herror
  · simp [stepAlone, Reader.step, hexit, hpc] at herror

/-- The loop of a doomed reader ends. -/
theorem Doomed.loopEnds {usizeBits : ℕ} {tooLarge : ℕ → Bool} {err : IoErr} {s : Reader}
    (hs : s.Doomed usizeBits tooLarge err) (ho : s.Orderly usizeBits)
    (hlarge : ∀ n, 2 ^ (usizeBits - 1) ≤ n → tooLarge n = true) :
    s.LoopEnds usizeBits tooLarge err := by
  have hstep : ∀ (s : Reader) (e : Bool × ReaderEvent) (s' : Reader),
      (s.Doomed usizeBits tooLarge err ∧ s.Orderly usizeBits) →
      s.deadSocket usizeBits tooLarge err e.2 = true → stepAlone usizeBits s e = some s' →
      (s'.Doomed usizeBits tooLarge err ∧ s'.Orderly usizeBits) ∧ s'.rank < s.rank := by
    rintro s e s' ⟨hd, ho⟩ hdead hs
    rw [stepAlone, Option.map_eq_some_iff] at hs
    obtain ⟨out, hout, rfl⟩ := hs
    obtain ⟨hd', hlt⟩ := hd.step ho hdead hout
    exact ⟨⟨hd', ho.step hout⟩, hlt⟩
  refine ⟨s.rank, fun es s' h => ?_⟩
  constructor
  · have hle := h.length_le (m := rank) ⟨hs, ho⟩
      (fun s e s' hi hg hs => (hstep s e s' hi hg hs).1)
      (fun s e s' hi hg hs => (hstep s e s' hi hg hs).2)
    omega
  · have hinv := h.invariant (P := fun s => s.Doomed usizeBits tooLarge err ∧ s.Orderly usizeBits)
      ⟨hs, ho⟩ (fun s e s' hi hg hs => (hstep s e s' hi hg hs).1)
    exact fun hstuck => hinv.2.exit_ne_none_of_stuck hlarge hstuck

/-! ## The loop that does not end -/

/-- A reader that waits for the header of the next frame. -/
def Waits (s : Reader) : Prop := s.Takes .waitForFrame [] ∧ s.reader ≠ none

/-- **The loop.** An error sends a reader that waits for a header back to where it was. -/
theorem Waits.round {usizeBits : ℕ} {tooLarge : ℕ → Bool} {s : Reader} (hs : s.Waits) :
    Run (stepAlone usizeBits) (fun s e => s.deadSocket usizeBits tooLarge .other e.2 = true) s
      [(true, .handle), (true, .ioError .other)] s := by
  obtain ⟨⟨hexit, hpc, hstop, hqueue⟩, hreader⟩ := hs
  obtain ⟨half, hhalf⟩ := Option.ne_none_iff_exists'.mp hreader
  have hback : stepAlone usizeBits { s with queue := [], pc := .header [] }
      (true, .ioError .other) = some s := by
    obtain ⟨reader, pc, queue, stopping, exit, incoming, consumed, casts⟩ := s
    obtain rfl : pc = .idle := hpc
    obtain rfl : queue = [.waitForFrame] := hqueue
    obtain rfl : exit = none := hexit
    rfl
  refine .cons ?_ ?_ (.cons ?_ hback (.nil s))
  · simp [deadSocket, runsOn, unallocatable, hqueue]
  · simp [stepAlone, Reader.step, hexit, hpc, hstop, hqueue, hhalf]
  · simp [deadSocket]

/-- A reader on a reset connection that is not doomed comes to wait for a header. -/
theorem waits_of_not_doomed {usizeBits : ℕ} {tooLarge : ℕ → Bool} {err : IoErr} {s : Reader}
    (hlarge : ∀ n, 2 ^ (usizeBits - 1) ≤ n → tooLarge n = true)
    (ho : s.Orderly usizeBits) (hs : ¬ s.Doomed usizeBits tooLarge err) :
    ∃ es s', Run (stepAlone usizeBits)
      (fun s e => s.deadSocket usizeBits tooLarge .other e.2 = true) s es s' ∧ s'.Waits := by
  obtain ⟨-, hexit, hstop, hfine⟩ : err ≠ .unexpectedEof ∧ s.exit = none ∧ s.stopping = none ∧
      s.unallocatable usizeBits tooLarge = false := by
    simpa [Doomed] using hs
  have hreader : s.reader ≠ none := fun hnone => ho.stops hexit hnone hstop
  obtain ⟨half, hhalf⟩ := Option.ne_none_iff_exists'.mp hreader
  -- the error leaves a handler that waits for the socket
  have hbusy : ∀ t : Reader, t.exit = none → t.stopping = none → t.reader ≠ none → t.queue = [] →
      ((∃ got, t.pc = .header got) ∨ (∃ length, t.pc = .readable length) ∨
        ∃ length buf, t.pc = .payload length buf) →
      ∃ es s', Run (stepAlone usizeBits)
        (fun s e => s.deadSocket usizeBits tooLarge .other e.2 = true) t es s' ∧ s'.Waits := by
    intro t hexit hstop hreader hqueue hpc
    refine ⟨[(true, .ioError .other)], t.again, .cons (by simp [deadSocket]) ?_ (.nil _), ?_⟩
    · rcases hpc with ⟨got, hpc⟩ | ⟨length, hpc⟩ | ⟨length, buf, hpc⟩ <;>
        simp [stepAlone, Reader.step, hexit, hpc, waitForFrame, readFrame]
    · exact ⟨⟨hexit, rfl, hstop, by simp [again, hqueue]⟩, hreader⟩
  obtain ⟨held, hholds⟩ := ho.live ⟨hexit, hreader⟩
  cases hholds with
  | waiting hpc hqueue => exact ⟨[], s, .nil s, ⟨hexit, hpc, hstop, hqueue⟩, hreader⟩
  | header _ hpc hqueue =>
    exact hbusy s hexit hstop hreader hqueue (Or.inl ⟨held, hpc⟩)
  | readable length hpc hqueue =>
    exact hbusy s hexit hstop hreader hqueue (Or.inr (Or.inl ⟨length, hpc⟩))
  | payload length buf hpc hqueue =>
    exact hbusy s hexit hstop hreader hqueue (Or.inr (Or.inr ⟨length, buf, hpc⟩))
  | announced length hpc hqueue =>
    have hguard : s.deadSocket usizeBits tooLarge .other .handle = true := by
      simp [deadSocket, runsOn, hfine]
    have hvec : asUsize usizeBits length < 2 ^ (usizeBits - 1) := by
      apply Nat.lt_of_not_le
      intro hle
      simp [unallocatable, hqueue, hlarge _ hle] at hfine
    have hnext : ∀ t, stepAlone usizeBits s (true, .handle) = some t →
        (∃ es s', Run (stepAlone usizeBits)
          (fun s e => s.deadSocket usizeBits tooLarge .other e.2 = true) t es s' ∧ s'.Waits) →
        ∃ es s', Run (stepAlone usizeBits)
          (fun s e => s.deadSocket usizeBits tooLarge .other e.2 = true) s es s' ∧ s'.Waits := by
      rintro t hstep ⟨es, s', hrun, hwaits⟩
      exact ⟨_ :: es, s', .cons hguard hstep hrun, hwaits⟩
    by_cases hraw : half = .regular
    · subst hraw
      refine hnext { s with queue := [], pc := .readable length } ?_ ?_
      · simp [stepAlone, Reader.step, hexit, hpc, hstop, hqueue, hhalf, hvec]
      · exact hbusy _ hexit hstop hreader rfl (Or.inr (Or.inl ⟨length, rfl⟩))
    · by_cases hzero : 0 < asUsize usizeBits length
      · refine hnext { s with queue := [], pc := .payload length [] } ?_ ?_
        · cases half <;>
            simp_all [stepAlone, Reader.step, readNBytes]
        · exact hbusy _ hexit hstop hreader rfl (Or.inr (Or.inr ⟨length, [], rfl⟩))
      · -- an empty frame needs nothing from the socket
        refine hnext { s with queue := [.waitForFrame], pc := .idle, casts := s.casts ++ [[]] }
          ?_ ⟨[], _, .nil _, ⟨hexit, rfl, hstop, rfl⟩, hreader⟩
        cases half <;>
          simp_all [stepAlone, Reader.step, readNBytes, readFrame, again]

/-- On a reset connection the loop of a reader that is not doomed does not end. -/
theorem not_loopEnds_of_not_doomed {usizeBits : ℕ} {tooLarge : ℕ → Bool} {err : IoErr}
    {s : Reader} (hlarge : ∀ n, 2 ^ (usizeBits - 1) ≤ n → tooLarge n = true)
    (ho : s.Orderly usizeBits) (hs : ¬ s.Doomed usizeBits tooLarge err) :
    ¬ s.LoopEnds usizeBits tooLarge err := by
  have herr : err = .other := by
    cases err with
    | unexpectedEof => exact absurd (Or.inl rfl) hs
    | other => rfl
  subst herr
  rintro ⟨n, hn⟩
  obtain ⟨es, s', hrun, hwaits⟩ := waits_of_not_doomed hlarge ho hs
  -- more rounds than the bound allows steps
  have hlong := hrun.append (hwaits.round.replicate (n + 1))
  have hle := (hn _ _ hlong).1
  rw [List.length_append, List.length_flatten, List.map_replicate, List.sum_replicate_nat,
    List.length_cons, List.length_singleton] at hle
  omega

/-- **When the loop ends.** The socket gives one outcome for ever, from whatever moment of
whatever run. The reader takes finitely many further steps and then stops if that outcome is the
end of the stream, if the reader has ended or was told to stop before, or if it is about to fail on
a buffer. On any other error it goes on for ever. -/
theorem loop_ends_iff {usizeBits : ℕ} {tooLarge : ℕ → Bool}
    (hlarge : ∀ n, 2 ^ (usizeBits - 1) ≤ n → tooLarge n = true) {half : ActorReadHalf}
    {incoming : List UInt8} {es : List (Bool × ReaderEvent)} {s : Reader}
    (h : exec (stepAlone usizeBits) (preStart half incoming) es = some s) (err : IoErr) :
    s.LoopEnds usizeBits tooLarge err ↔ s.Doomed usizeBits tooLarge err := by
  have ho := orderly_of_run h
  refine ⟨fun hends => ?_, fun hs => hs.loopEnds ho hlarge⟩
  by_contra hs
  exact not_loopEnds_of_not_doomed hlarge ho hs hends

/-- The stream ends within the header of the second frame: the loop ends. -/
theorem loop_ends_iff_eof :
    ∃ s, exec (stepAlone 64) (preStart .regular (encodeAll 8 [[7]] ++ [0, 0, 0]))
        [(true, .handle), (true, .read 8), (true, .handle), (true, .ready), (true, .read 1),
          (true, .handle), (true, .read 3)] = some s ∧
      s.LoopEnds 64 (fun n => decide (2 ^ 63 ≤ n)) .unexpectedEof := by
  obtain ⟨s, hs⟩ : ∃ s, exec (stepAlone 64) (preStart .regular (encodeAll 8 [[7]] ++ [0, 0, 0]))
      [(true, .handle), (true, .read 8), (true, .handle), (true, .ready), (true, .read 1),
        (true, .handle), (true, .read 3)] = some s := Option.isSome_iff_exists.mp (by decide)
  refine ⟨s, hs, (loop_ends_iff ?_ hs .unexpectedEof).mpr (Or.inl rfl)⟩
  intro n hn
  exact decide_eq_true hn

/-- **A loop without end.** The connection is reset while a reader that was just started waits for
the first header: every round of the loop meets the error and posts `WaitForFrame` again. -/
theorem loop_never_ends :
    ¬ ∀ (half : ActorReadHalf) (incoming : List UInt8) (es : List (Bool × ReaderEvent))
        (s : Reader) (err : IoErr),
        exec (stepAlone 64) (preStart half incoming) es = some s →
          s.LoopEnds 64 (fun n => decide (2 ^ 63 ≤ n)) err := by
  intro hall
  refine not_loopEnds_of_not_doomed (fun n hn => decide_eq_true hn)
    (orderly_preStart 64 .regular []) ?_ (hall .regular [] [] _ .other rfl)
  simp [Doomed, preStart, unallocatable]

end Reader

end RactorActors.Net.Tcp
