import RactorActors.Net.Tcp.Writer

/-!
# What the writer puts on the wire

The writer puts every frame as its length and its payload, one frame after the other. An
operation that fails leaves a part of a frame behind. After a failed `writable`, `write_all` or
`flush` the writer stops or fails and puts nothing any more; after a failed `write_u64` it goes
on with the next frame.

* `Framed`: the bytes put and the bytes still owed are the frames begun;
* `framed_of_step`: kept by every step that does not fail;
* `wire_well_framed_iff`: a run keeps the wire well framed and puts nothing after a failure
  exactly when nothing is put after a failed `write_u64`;
* `frame_skipped`: a run that does put something.
-/

namespace RactorActors.Net.Tcp

open LabelledRun LengthPrefix

/-- The bytes that the handler is still to put on the wire. -/
def WriterPc.owed : WriterPc → List UInt8
  | .idle => []
  | .writable msg => encode 8 msg
  | .header msg rest => rest ++ msg
  | .payload rest => rest
  | .flush => []

/-- The event is the failure of an operation on the socket. -/
def WriterEvent.isIoError : WriterEvent → Bool
  | .ioError _ => true
  | _ => false

namespace Writer

/-- The bytes put on the wire are those of the frames begun, as far as they are not owed. -/
structure Framed (s : Writer) : Prop where
  past : s.wire <+: encodeAll 8 s.begun
  exact : s.exit = none → s.wire ++ s.pc.owed = encodeAll 8 s.begun
  halfOpen : s.exit = none → s.writer ≠ none

/-- A writer that was just started has put nothing. -/
theorem framed_preStart (half : ActorWriteHalf) : Framed (preStart half) where
  past := List.nil_prefix
  exact := fun _ => rfl
  halfOpen := fun _ => Option.some_ne_none half

/-- A writer that lives is framed if its bytes and those it owes are its frames. -/
theorem Framed.of_exact {s : Writer} (h : s.wire ++ s.pc.owed = encodeAll 8 s.begun)
    (hopen : s.exit = none → s.writer ≠ none) : Framed s where
  past := h ▸ List.prefix_append _ _
  exact := fun _ => h
  halfOpen := hopen

/-- A writer that ends leaves what it has put. -/
theorem Framed.finish {s : Writer} (hs : Framed s) (exit : Exit) : Framed (s.finish exit) where
  past := hs.past
  exact := fun hexit => by cases hexit
  halfOpen := fun hexit => by cases hexit

/-- A stop that arrives is noted or ignored. -/
theorem stop_eq (s : Writer) (reason : Option String) :
    ∃ stopping, s.stop reason = { s with stopping := stopping } := by
  unfold Writer.stop
  split
  · exact ⟨some reason, rfl⟩
  · exact ⟨s.stopping, rfl⟩

/-- What the beginning of a handler leaves of the writer. -/
theorem write_eq (s : Writer) (msg : Frame) :
    ∃ pc, s.write msg = { s with pc := pc } ∧
      (s.writer ≠ none → pc.owed = encode 8 msg) ∧ (s.writer = none → pc = s.pc) := by
  unfold Writer.write
  split
  · rename_i hhalf
    exact ⟨.writable msg, rfl, fun _ => rfl, fun hnone => by rw [hhalf] at hnone; cases hnone⟩
  · rename_i half _ hhalf
    exact ⟨.header msg (bigEndian 8 msg.length), rfl, fun _ => rfl,
      fun hnone => by rw [hhalf] at hnone; cases hnone⟩
  · rename_i hhalf
    exact ⟨s.pc, rfl, fun hne => absurd hhalf hne, fun _ => rfl⟩

/-- The end of a failed operation puts nothing. -/
theorem writeFailed_fields (s : Writer) (err : ActorProcessingErr) :
    (s.writeFailed err).wire = s.wire ∧ (s.writeFailed err).begun = s.begun := by
  unfold Writer.writeFailed
  split
  · exact ⟨rfl, rfl⟩
  · exact ⟨rfl, rfl⟩
  · exact ⟨rfl, rfl⟩
  · obtain ⟨stopping, heq⟩ := { s with pc := .idle }.stop_eq (some "channel_closed")
    rw [heq]
    exact ⟨rfl, rfl⟩
  · exact ⟨rfl, rfl⟩

/-- **Bytes and frames of a step.** A step puts the bytes it gives, and begins at most one
frame. -/
theorem fields_of_step {s : Writer} {e : WriterEvent} {out : Writer × List UInt8}
    (h : s.step e = some out) :
    out.1.wire = s.wire ++ out.2 ∧ s.begun <+: out.1.begun := by
  cases step_cases h with
  | cast | lost | ready | wroteHeader | wrotePayload | flushed | takeStop =>
    exact ⟨(List.append_nil _).symm, List.prefix_rfl⟩
  | handle msg rest =>
    obtain ⟨pc, heq, -⟩ :=
      { s with queue := rest, begun := s.begun ++ [msg] }.write_eq msg
    rw [heq]
    exact ⟨(List.append_nil _).symm, List.prefix_append _ _⟩
  | putHeader | putPayload => exact ⟨rfl, List.prefix_rfl⟩
  | ioError err =>
    obtain ⟨hwire, hbegun⟩ := s.writeFailed_fields err
    exact ⟨by rw [hwire, List.append_nil], hbegun ▸ List.prefix_rfl⟩
  | stop reason =>
    obtain ⟨stopping, heq⟩ := s.stop_eq reason
    rw [heq]
    exact ⟨(List.append_nil _).symm, List.prefix_rfl⟩
  | kill =>
    unfold Writer.kill
    split <;> exact ⟨(List.append_nil _).symm, List.prefix_rfl⟩

/-- **Step lemma.** A step that is no failure keeps the wire framed. -/
theorem framed_of_step {s : Writer} {e : WriterEvent} {out : Writer × List UInt8}
    (hs : Framed s) (hok : e.isIoError = false) (h : s.step e = some out) : Framed out.1 := by
  cases step_cases h with
  | cast msg hexit => exact Framed.of_exact (hs.exact hexit) hs.halfOpen
  | lost => exact hs
  -- the whole frame is owed when its handling begins
  | handle msg rest hexit hpc hstop hqueue =>
    obtain ⟨pc, heq, howed, -⟩ :=
      { s with queue := rest, begun := s.begun ++ [msg] }.write_eq msg
    have hexact := hs.exact hexit
    rw [hpc, WriterPc.owed, List.append_nil] at hexact
    rw [heq]
    refine Framed.of_exact ?_ hs.halfOpen
    show s.wire ++ pc.owed = encodeAll 8 (s.begun ++ [msg])
    rw [howed (hs.halfOpen hexit), hexact, encodeAll_append, encodeAll_singleton]
  | ready msg hexit hpc =>
    have hexact := hs.exact hexit
    rw [hpc] at hexact
    exact Framed.of_exact hexact hs.halfOpen
  -- the bytes put are the first of those owed
  | putHeader msg rest n hexit hpc hn =>
    have hexact := hs.exact hexit
    rw [hpc, WriterPc.owed] at hexact
    refine Framed.of_exact ?_ hs.halfOpen
    show s.wire ++ rest.take n ++ (rest.drop n ++ msg) = encodeAll 8 s.begun
    rw [← hexact, List.append_assoc, ← List.append_assoc (rest.take n), List.take_append_drop]
  | putPayload rest n hexit hpc hn =>
    have hexact := hs.exact hexit
    rw [hpc, WriterPc.owed] at hexact
    refine Framed.of_exact ?_ hs.halfOpen
    show s.wire ++ rest.take n ++ rest.drop n = encodeAll 8 s.begun
    rw [← hexact, List.append_assoc, List.take_append_drop]
  | wroteHeader msg hexit hpc =>
    have hexact := hs.exact hexit
    rw [hpc] at hexact
    exact Framed.of_exact hexact hs.halfOpen
  | wrotePayload hexit hpc =>
    have hexact := hs.exact hexit
    rw [hpc] at hexact
    exact Framed.of_exact hexact hs.halfOpen
  | flushed hexit hpc =>
    have hexact := hs.exact hexit
    rw [hpc] at hexact
    exact Framed.of_exact hexact hs.halfOpen
  | ioError err => cases hok
  | stop reason =>
    obtain ⟨stopping, heq⟩ := s.stop_eq reason
    rw [heq]
    exact ⟨hs.past, hs.exact, hs.halfOpen⟩
  | takeStop reason => exact hs.finish _
  | kill =>
    unfold Writer.kill
    split
    · exact hs.finish _
    · exact hs

end Writer

/-! ## Failures -/

/-- A writer with a record of what has failed. -/
structure Audit where
  writer : Writer
  /-- An operation has failed. -/
  failed : Bool
  /-- A `write_u64` has failed. -/
  headerFailed : Bool
  /-- Bytes were put on the wire after an operation had failed. -/
  late : Bool
deriving DecidableEq, Repr

namespace Audit

/-- A writer that was just started. -/
def start (half : ActorWriteHalf) : Audit where
  writer := Writer.preStart half
  failed := false
  headerFailed := false
  late := false

/-- The writer is inside `write_u64`. -/
def inHeader (a : Audit) : Bool :=
  match a.writer.pc with
  | .header _ _ => true
  | _ => false

/-- One step of the writer, recorded. -/
def step (a : Audit) (e : WriterEvent) : Option Audit :=
  (a.writer.step e).map fun out =>
    { writer := out.1
      failed := a.failed || e.isIoError
      headerFailed := a.headerFailed || e.isIoError && a.inHeader
      late := a.late || a.failed && !out.2.isEmpty }

/-- The step does not put bytes on the wire once a `write_u64` has failed. -/
def putClean (a : Audit) : WriterEvent → Bool
  | .put _ => !a.headerFailed
  | _ => true

/-- The wire carries the frames handled so far one after the other, the last one perhaps in
part, and nothing was put on it after a failed operation. -/
def WellFramed (a : Audit) : Prop :=
  a.writer.wire <+: encodeAll 8 a.writer.begun ∧ a.late = false

/-- Before a failure the writer is framed; after one, other than of `write_u64`, it is between
two handlers and about to stop. -/
structure Accounted (a : Audit) : Prop where
  framed : a.failed = false → a.writer.Framed
  closed : a.failed = true → a.headerFailed = false →
    a.writer.pc = .idle ∧ (a.writer.stopping ≠ none ∨ a.writer.exit ≠ none)
  failed_of_header : a.headerFailed = true → a.failed = true

/-- A writer whose pending operation fails outside `write_u64` stops. -/
theorem closed_writeFailed {s : Writer} (err : ActorProcessingErr) (hpc : s.pc ≠ .idle)
    (hheader : ∀ msg rest, s.pc ≠ .header msg rest) (hexit : s.exit = none) :
    (s.writeFailed err).pc = .idle ∧
      ((s.writeFailed err).stopping ≠ none ∨ (s.writeFailed err).exit ≠ none) := by
  unfold Writer.writeFailed
  split
  · rename_i hidle
    exact absurd hidle hpc
  · exact ⟨rfl, Or.inr (by simp [Writer.finish])⟩
  · rename_i msg rest hh
    exact absurd hh (hheader msg rest)
  · -- `write_all`: a stop is pending from now on
    refine ⟨?_, Or.inl ?_⟩
    · unfold Writer.stop
      split <;> rfl
    · unfold Writer.stop
      split
      · simp
      · rename_i hnone
        intro hstop
        exact hnone hexit hstop
  · exact ⟨rfl, Or.inr (by simp [Writer.finish])⟩

/-- A writer that is between two handlers and about to stop, or has stopped, stays so and puts
nothing. -/
theorem closed_of_step {s : Writer} {e : WriterEvent} {out : Writer × List UInt8}
    (hpc : s.pc = .idle) (hclosed : s.stopping ≠ none ∨ s.exit ≠ none)
    (h : s.step e = some out) :
    out.1.pc = .idle ∧ (out.1.stopping ≠ none ∨ out.1.exit ≠ none) ∧ out.2 = [] := by
  cases Writer.step_cases h with
  | cast | lost => exact ⟨hpc, hclosed, rfl⟩
  | handle msg rest hexit _ hstop =>
    -- the stop is taken before the next message
    rcases hclosed with hne | hne
    · exact absurd hstop hne
    · exact absurd hexit hne
  | ready msg _ hpc' | putHeader msg rest n _ hpc' | putPayload rest n _ hpc'
  | wroteHeader msg _ hpc' | wrotePayload _ hpc' | flushed _ hpc' =>
    rw [hpc] at hpc'
    cases hpc'
  | ioError err _ hpc' => exact absurd hpc hpc'
  | stop reason =>
    unfold Writer.stop
    split
    · exact ⟨hpc, Or.inl (by simp), rfl⟩
    · exact ⟨hpc, hclosed, rfl⟩
  | takeStop => exact ⟨rfl, Or.inr (by simp [Writer.finish]), rfl⟩
  | kill =>
    unfold Writer.kill
    split
    · exact ⟨rfl, Or.inr (by simp [Writer.finish]), rfl⟩
    · exact ⟨hpc, hclosed, rfl⟩

/-- Only `put` puts bytes. -/
theorem bytes_eq_nil {s : Writer} {e : WriterEvent} {out : Writer × List UInt8}
    (h : s.step e = some out) (he : ∀ n, e ≠ .put n) : out.2 = [] := by
  cases Writer.step_cases h with
  | putHeader msg rest n | putPayload rest n => exact absurd rfl (he n)
  | _ => rfl

/-- `put` puts at least one byte. -/
theorem bytes_ne_nil {s : Writer} {n : ℕ} {out : Writer × List UInt8}
    (h : s.step (.put n) = some out) : out.2 ≠ [] := by
  have htake {rest : List UInt8} (hn : 0 < n ∧ n ≤ rest.length) : rest.take n ≠ [] := by
    rw [← List.length_pos_iff, List.length_take_of_le hn.2]
    exact hn.1
  cases Writer.step_cases h with
  | putHeader msg rest _ _ _ hn => exact htake hn
  | putPayload rest _ _ _ hn => exact htake hn

/-- The record of a writer after one more step. -/
theorem Accounted.step {a a' : Audit} {e : WriterEvent} (ha : Accounted a)
    (h : a.step e = some a') : Accounted a' := by
  rw [Audit.step, Option.map_eq_some_iff] at h
  obtain ⟨out, hout, rfl⟩ := h
  refine ⟨?_, ?_, ?_⟩
  · intro hfailed
    rw [Bool.or_eq_false_iff] at hfailed
    exact Writer.framed_of_step (ha.framed hfailed.1) hfailed.2 hout
  · intro hfailed hheader
    rw [Bool.or_eq_false_iff, Bool.and_eq_false_iff] at hheader
    cases hold : a.failed with
    | true =>
      obtain ⟨hpc, hclosed⟩ := ha.closed hold hheader.1
      obtain ⟨hpc', hclosed', -⟩ := closed_of_step hpc hclosed hout
      exact ⟨hpc', hclosed'⟩
    | false =>
      -- the operation that fails now is not `write_u64`
      have herr : e.isIoError = true := by simpa [hold] using hfailed
      have hnot : a.inHeader = false := by simpa [herr] using hheader.2
      cases Writer.step_cases hout with
      | ioError err hexit hpc =>
        refine closed_writeFailed err hpc ?_ hexit
        intro msg rest hpc'
        simp [inHeader, hpc'] at hnot
      | _ => cases herr
  · intro hheader
    rw [Bool.or_eq_true, Bool.and_eq_true] at hheader
    rw [Bool.or_eq_true]
    rcases hheader with hold | ⟨herr, -⟩
    · exact Or.inl (ha.failed_of_header hold)
    · exact Or.inr herr

/-- **Step lemma.** A step keeps the wire well framed exactly when it does not put bytes after
a failed `write_u64`. -/
theorem wellFramed_of_step_iff {a a' : Audit} {e : WriterEvent} (ha : Accounted a)
    (hw : WellFramed a) (h : a.step e = some a') : WellFramed a' ↔ a.putClean e = true := by
  obtain ⟨hpre, hlate⟩ := hw
  have hacc := ha.step h
  rw [Audit.step, Option.map_eq_some_iff] at h
  obtain ⟨out, hout, rfl⟩ := h
  obtain ⟨hwire, hbegun⟩ := Writer.fields_of_step hout
  constructor
  · rintro ⟨-, hlate'⟩
    by_contra hunclean
    cases e with
    | put n =>
      have hheader : a.headerFailed = true := by simpa [putClean] using hunclean
      have hbytes := bytes_ne_nil hout
      simp [hlate, ha.failed_of_header hheader] at hlate'
      exact hbytes hlate'
    | _ => exact hunclean rfl
  · intro hclean
    cases hfailed : a.failed with
    | true =>
      -- nothing more is put
      have hnil : out.2 = [] := by
        cases hheader : a.headerFailed with
        | true =>
          -- the check says so
          refine bytes_eq_nil hout ?_
          rintro n rfl
          simp [putClean, hheader] at hclean
        | false =>
          -- the writer is about to stop
          obtain ⟨hpc, hclosed⟩ := ha.closed hfailed hheader
          exact (closed_of_step hpc hclosed hout).2.2
      refine ⟨?_, by simp [hlate, hnil]⟩
      rw [hwire, hnil, List.append_nil]
      exact hpre.trans (encodeAll_le hbegun)
    | false =>
      refine ⟨?_, by simp [hlate]⟩
      cases herr : e.isIoError with
      | true =>
        -- the first failure: what was put so far stays
        have hnil : out.2 = [] := by
          refine bytes_eq_nil hout ?_
          rintro n rfl
          cases herr
        show out.1.wire <+: _
        rw [hwire, hnil, List.append_nil]
        exact hpre.trans (encodeAll_le hbegun)
      | false => exact (hacc.framed (by simp [hfailed, herr])).past

/-- **When the wire stays well framed.** In every run of a writer, whatever its operations on the
socket put on the wire and whichever of them fail, the bytes on the wire are at every moment a
prefix of the encodings of the frames handled so far, with nothing put after a failed operation,
exactly when no byte is put after a `write_u64` has failed. -/
theorem wire_well_framed_iff {half : ActorWriteHalf} {es : List WriterEvent} {a : Audit}
    (h : exec Audit.step (start half) es = some a) :
    Throughout Audit.step WellFramed (start half) es ↔
      Run Audit.step (fun a e => a.putClean e = true) (start half) es a := by
  have h₀ : Accounted (start half) :=
    ⟨fun _ => Writer.framed_preStart half, fun hfailed => (Bool.false_ne_true hfailed).elim,
      fun hheader => (Bool.false_ne_true hheader).elim⟩
  refine (run_iff_throughout (I := Accounted) h h₀ ⟨List.nil_prefix, rfl⟩ ?_ ?_).symm
  · intro a e a' ha _ _ hstep
    exact ha.step hstep
  · intro a e a' ha hw hstep
    exact wellFramed_of_step_iff ha hw hstep

/-- A `write_all` fails in the middle of the second frame, and a third frame is never begun. -/
theorem wire_well_framed_iff_write_all :
    Throughout Audit.step WellFramed (start .regular)
      [.cast (.write []), .handle, .ready, .put 8, .wrote, .wrote, .flushed,
        .cast (.write [1, 2]), .cast (.write [3]), .handle, .ready, .put 8, .wrote, .put 1,
        .ioError (.message "reset"), .takeStop] := by
  let es : List WriterEvent :=
    [.cast (.write []), .handle, .ready, .put 8, .wrote, .wrote, .flushed,
      .cast (.write [1, 2]), .cast (.write [3]), .handle, .ready, .put 8, .wrote, .put 1,
      .ioError (.message "reset"), .takeStop]
  obtain ⟨a, ha⟩ : ∃ a, exec (checked putClean Audit.step) (start .regular) es = some a :=
    Option.isSome_iff_exists.mp (by decide)
  have hrun := run_iff_exec_checked.mpr ha
  exact (wire_well_framed_iff hrun.exec_eq).mpr hrun

/-- **A skipped frame.** The `write_u64` of the first frame fails after three bytes. The writer
logs that and goes on with the second frame: its length and payload follow the three bytes. -/
theorem frame_skipped :
    ¬ ∀ (es : List WriterEvent) (a : Audit), exec Audit.step (start .regular) es = some a →
        a.writer.wire <+: encodeAll 8 a.writer.begun := by
  intro hall
  have hrun : (exec Audit.step (start .regular)
      [.cast (.write [1, 2]), .cast (.write [3]), .handle, .ready, .put 3,
        .ioError (.message "reset"), .handle, .ready, .put 8, .wrote, .put 1]).map
      (fun a => (a.writer.wire, a.writer.begun)) =
      some ([0, 0, 0] ++ encode 8 [3], [[1, 2], [3]]) := by decide
  obtain ⟨a, ha, hproj⟩ := Option.map_eq_some_iff.mp hrun
  rw [Prod.mk.injEq] at hproj
  have hpre := hall _ a ha
  rw [hproj.1, hproj.2] at hpre
  exact absurd hpre (by decide)

end Audit

end RactorActors.Net.Tcp
