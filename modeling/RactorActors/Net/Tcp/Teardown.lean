import RactorActors.Net.Tcp.Close

/-!
# Teardown is all or nothing

A session, its reader and its writer (`Family`), each of which may fail at any moment. The kills
that the end of the session sends to its children are signals: a child takes its own in a later
step, whatever it is waiting for.

* `Watched`: what ties the end of a child to its session. A child that has ended has reported it,
  and the session takes the event or is about to stop; a child of a session that has ended has
  ended or is about to be killed;
* `Settled`: no supervision event, stop or kill is left to be handled;
* `teardown_all_or_nothing`: when all is settled, the three actors are all running or have all
  stopped; and a session that has taken the exit event of a child passes on nothing any more.
-/

namespace RactorActors.Net.Tcp

open LabelledRun

/-- A session with its children, which take the kill of its end in steps of their own. -/
structure Family where
  endpoint : Endpoint
  /-- The session's end has sent a kill to the reader that the reader has not taken yet. -/
  readerKilled : Bool
  /-- The session's end has sent a kill to the writer that the writer has not taken yet. -/
  writerKilled : Bool
deriving DecidableEq, Repr

/-- The events of a family. -/
inductive FamilyEvent
  /-- A step of the endpoint. -/
  | step (e : EndpointEvent)
  /-- The session fails. -/
  | sessionFails (what : ActorProcessingErr)
  /-- The reader fails. -/
  | readerFails (what : ActorProcessingErr)
  /-- The writer fails. -/
  | writerFails (what : ActorProcessingErr)
  /-- The reader takes the kill of its session's end. -/
  | killReader
  /-- The writer takes the kill of its session's end. -/
  | killWriter

namespace Family

/-- `TcpSession::pre_start` -/
def preStart (state : TcpSessionState) (read : ActorReadHalf) (write : ActorWriteHalf)
    (incoming : List UInt8) : Family where
  endpoint := Endpoint.preStart state read write incoming
  readerKilled := false
  writerKilled := false

/-- The endpoint takes a step to `t`. If the session ends in it, its children live on until they
take their kill. -/
def after (s : Family) (t : Endpoint) : Family :=
  if s.endpoint.session.exit = none ∧ t.session.exit ≠ none then
    { endpoint := { t with reader := s.endpoint.reader, writer := s.endpoint.writer }
      readerKilled := true
      writerKilled := true }
  else
    { s with endpoint := t }

/-- One step of a family. -/
def step (usizeBits : ℕ) (s : Family) : FamilyEvent → Option Family
  | .step e => (s.endpoint.step usizeBits e).map s.after
  | .sessionFails what =>
    match s.endpoint.session.exit with
    | none => some (s.after (s.endpoint.finish (.failed what)))
    | some _ => none
  | .readerFails what =>
    match s.endpoint.reader.exit with
    | none =>
      some { s with endpoint :=
        { s.endpoint with reader := s.endpoint.reader.finish (.failed what) } }
    | some _ => none
  | .writerFails what =>
    match s.endpoint.writer.exit with
    | none =>
      some { s with endpoint :=
        { s.endpoint with writer := s.endpoint.writer.finish (.failed what) } }
    | some _ => none
  | .killReader =>
    if s.readerKilled then
      some { s with
        endpoint := { s.endpoint with reader := s.endpoint.reader.kill }
        readerKilled := false }
    else none
  | .killWriter =>
    if s.writerKilled then
      some { s with
        endpoint := { s.endpoint with writer := s.endpoint.writer.kill }
        writerKilled := false }
    else none

/-- No supervision event, stop or kill is left to be handled: the session, if it runs, has none
waiting and each child that has ended has posted its event; a child that runs has no stop or kill
waiting. -/
structure Settled (s : Family) : Prop where
  session : s.endpoint.session.exit = none →
    s.endpoint.session.stopping = none ∧ s.endpoint.session.supervision = []
  readerPosted : s.endpoint.session.exit = none → s.endpoint.reader.exit ≠ none →
    s.endpoint.readerReported = true
  writerPosted : s.endpoint.session.exit = none → s.endpoint.writer.exit ≠ none →
    s.endpoint.writerReported = true
  reader : s.endpoint.reader.exit = none →
    s.endpoint.reader.stopping = none ∧ s.readerKilled = false
  writer : s.endpoint.writer.exit = none →
    s.endpoint.writer.stopping = none ∧ s.writerKilled = false

/-- All three actors are running. -/
def AllRunning (s : Family) : Prop :=
  s.endpoint.session.exit = none ∧ s.endpoint.reader.exit = none ∧ s.endpoint.writer.exit = none

/-- All three actors have stopped. -/
def AllStopped (s : Family) : Prop :=
  s.endpoint.session.exit ≠ none ∧ s.endpoint.reader.exit ≠ none ∧ s.endpoint.writer.exit ≠ none

end Family

/-! ## One child -/

/-- What ties a child's end to its session, given how the child ended, whether it has posted that,
and whether a kill waits for it. -/
structure Watched (session : Session) (exit : Option Exit) (reported killed : Bool) : Prop where
  unreported : exit = none → reported = false
  pending : session.exit = none → session.stopping = none → reported = true →
    ∃ evt ∈ session.supervision, evt.ended ≠ none
  killed : session.exit ≠ none → exit = none → killed = true

/-- The session hears of every end that it heard of before, or is about to stop. -/
def Hears (session session' : Session) : Prop :=
  session'.stopping ≠ none ∨
    session'.stopping = session.stopping ∧
      ∀ evt ∈ session.supervision, evt.ended ≠ none → evt ∈ session'.supervision

/-- A child that has ended in `exit` has posted its event now, or nothing was posted. -/
def Posted (session' : Session) (exit : Option Exit) (reported reported' : Bool) : Prop :=
  reported' = reported ∨
    exit ≠ none ∧ (session'.exit = none → ∃ evt ∈ session'.supervision, evt.ended ≠ none)

namespace Watched

variable {session session' : Session} {exit exit' : Option Exit} {reported reported' killed : Bool}

/-- The session does not end. -/
theorem of_goesOn (h : Watched session exit reported killed)
    (hexit : session'.exit = session.exit) (hhears : Hears session session')
    (hposted : Posted session' exit reported reported') (hchild : exit' = none → exit = none) :
    Watched session' exit' reported' killed where
  unreported := by
    -- only a child that has ended posts
    intro hlive
    rcases hposted with hsame | ⟨hended, -⟩
    · rw [hsame]
      exact h.unreported (hchild hlive)
    · exact absurd (hchild hlive) hended
  pending := by
    intro hlive hnostop hreported
    rcases hposted with hsame | ⟨-, hevent⟩
    · rcases hhears with hstop | ⟨hstop, hsup⟩
      · exact absurd hnostop hstop
      · -- the event that waited is still waiting
        obtain ⟨evt, hevt, hended⟩ :=
          h.pending (hexit ▸ hlive) (hstop ▸ hnostop) (hsame ▸ hreported)
        exact ⟨evt, hsup evt hevt hended, hended⟩
    · exact hevent hlive
  killed := by
    rw [hexit]
    exact fun hended hlive => h.killed hended (hchild hlive)

/-- The session ends, and sends its kill. -/
theorem of_end (h : Watched session exit reported killed) (hexit : session'.exit ≠ none) :
    Watched session' exit reported true where
  unreported := h.unreported
  pending := fun hlive => absurd hlive hexit
  killed := fun _ _ => rfl

/-- The child ends, and with it whatever kill waits for it. -/
theorem of_ended (h : Watched session exit reported killed) (hexit : exit' ≠ none)
    (killed' : Bool) : Watched session exit' reported killed' where
  unreported := fun hnone => absurd hnone hexit
  pending := h.pending
  killed := fun _ hnone => absurd hnone hexit

end Watched

/-- A reader that lives after a step lived before it. -/
theorem Reader.exit_none_of_step {usizeBits : ℕ} {sessionOpen : Bool} {s : Reader}
    {e : ReaderEvent} {out : Reader × Option Frame}
    (h : s.step usizeBits sessionOpen e = some out) (hlive : out.1.exit = none) :
    s.exit = none := by
  cases step_cases h with
  | wait _ _ htakes | retry _ _ htakes | readable _ _ htakes | fill _ _ _ htakes
  | allocFails _ _ htakes => exact htakes.1
  | ready _ hexit | headerMore _ _ hexit | headerDone _ _ hexit | payload _ _ _ hexit
  | headerError _ _ hexit | frameError _ _ hexit | takeStop _ hexit => exact hexit
  | stop reason =>
    obtain ⟨stopping, heq⟩ := s.stop_eq reason
    simp only [heq] at hlive
    exact hlive
  | kill => exact absurd hlive s.kill_fields.1

namespace Family

/-- Both children are watched. -/
structure Tied (s : Family) : Prop where
  reader : Watched s.endpoint.session s.endpoint.reader.exit s.endpoint.readerReported
    s.readerKilled
  writer : Watched s.endpoint.session s.endpoint.writer.exit s.endpoint.writerReported
    s.writerKilled

/-- When all is settled, watched actors are all running or have all stopped. -/
theorem Tied.all_or_nothing {s : Family} (hs : s.Tied) (hsettled : s.Settled) :
    s.AllRunning ∨ s.AllStopped := by
  by_cases hlive : s.endpoint.session.exit = none
  · left
    obtain ⟨hstopping, hsup⟩ := hsettled.session hlive
    -- the event of a child that has ended would be waiting
    have hnone : ¬ ∃ evt ∈ s.endpoint.session.supervision, evt.ended ≠ none := by
      rw [hsup]
      rintro ⟨evt, hevt, -⟩
      cases hevt
    refine ⟨hlive, ?_, ?_⟩
    · by_contra hended
      exact hnone (hs.reader.pending hlive hstopping (hsettled.readerPosted hlive hended))
    · by_contra hended
      exact hnone (hs.writer.pending hlive hstopping (hsettled.writerPosted hlive hended))
  · right
    -- a child that runs would have a kill waiting
    refine ⟨hlive, fun hreader => ?_, fun hwriter => ?_⟩
    · exact Bool.false_ne_true
        ((hsettled.reader hreader).2.symm.trans (hs.reader.killed hlive hreader))
    · exact Bool.false_ne_true
        ((hsettled.writer hwriter).2.symm.trans (hs.writer.killed hlive hwriter))

/-- A family as it is started. -/
theorem tied_preStart (state : TcpSessionState) (read : ActorReadHalf) (write : ActorWriteHalf)
    (incoming : List UInt8) : (preStart state read write incoming).Tied := by
  constructor
  all_goals
    refine ⟨fun _ => rfl, fun _ _ hreported => ?_, fun hended => absurd rfl hended⟩
    cases hreported

end Family

/-! ## A step of the endpoint -/

namespace Endpoint

/-- A step in which the session does not end. -/
structure GoesOn (s t : Endpoint) : Prop where
  exit : t.session.exit = s.session.exit
  hears : Hears s.session t.session
  reader : t.reader.exit = none → s.reader.exit = none
  writer : t.writer.exit = none → s.writer.exit = none
  readerPosted : Posted t.session s.reader.exit s.readerReported t.readerReported
  writerPosted : Posted t.session s.writer.exit s.writerReported t.writerReported

namespace GoesOn

variable {s t : Endpoint}

/-- Nothing that the teardown depends on changes, unless a child ends. -/
theorem of_eq (hexit : t.session.exit = s.session.exit)
    (hstopping : t.session.stopping = s.session.stopping)
    (hsup : t.session.supervision = s.session.supervision)
    (hreader : t.reader.exit = none → s.reader.exit = none)
    (hwriter : t.writer.exit = none → s.writer.exit = none)
    (hposted : t.readerReported = s.readerReported ∧ t.writerReported = s.writerReported) :
    GoesOn s t where
  exit := hexit
  hears := Or.inr ⟨hstopping, fun _ hevt _ => hsup ▸ hevt⟩
  reader := hreader
  writer := hwriter
  readerPosted := Or.inl hposted.1
  writerPosted := Or.inl hposted.2

/-- A message is posted. -/
theorem post (s : Endpoint) (msg : TcpSessionMessage) : GoesOn s (s.post msg) := by
  unfold Endpoint.post
  split <;> exact of_eq rfl rfl rfl id id ⟨rfl, rfl⟩

/-- A supervision event is posted. -/
theorem tell (s : Endpoint) (evt : SupervisionEvent) :
    GoesOn s (s.tell evt) ∧
      ((s.tell evt).session.exit = none → evt ∈ (s.tell evt).session.supervision) := by
  unfold Endpoint.tell
  cases hexit : s.session.exit with
  | none =>
    refine ⟨⟨rfl, Or.inr ⟨rfl, ?_⟩, id, id, Or.inl rfl, Or.inl rfl⟩, fun _ => ?_⟩
    · exact fun _ hevt' _ => List.mem_append_left _ hevt'
    · exact List.mem_append_right _ (List.mem_singleton_self evt)
  | some exit =>
    refine ⟨of_eq rfl rfl rfl id id ⟨rfl, rfl⟩, fun hnone => ?_⟩
    simp only [hexit] at hnone
    cases hnone

/-- The session is told to stop. -/
theorem stop (s : Endpoint) (reason : Option String) : GoesOn s (s.stop reason) := by
  unfold Endpoint.stop
  split
  · exact ⟨rfl, Or.inl (Option.some_ne_none reason), id, id, Or.inl rfl, Or.inl rfl⟩
  · exact of_eq rfl rfl rfl id id ⟨rfl, rfl⟩

end GoesOn

/-- A step of the reader posts no exit event. -/
theorem readerStepped_reported (s : Endpoint) (out : Reader × Option Frame) :
    (s.readerStepped out).readerReported = s.readerReported ∧
      (s.readerStepped out).writerReported = s.writerReported := by
  obtain ⟨reader, buf⟩ := out
  cases buf with
  | none => exact ⟨rfl, rfl⟩
  | some buf =>
    simp only [Endpoint.readerStepped, Endpoint.post]
    split <;> exact ⟨rfl, rfl⟩

/-- **What a step does to the lives of the three actors.** The session ends, or it goes on. -/
theorem goesOn_or_finish {usizeBits : ℕ} {s t : Endpoint} {e : EndpointEvent}
    (h : s.step usizeBits e = some t) :
    GoesOn s t ∨ s.session.exit = none ∧ ∃ exit, t = s.finish exit := by
  cases step_cases h with
  | send msg =>
    have hgoes := GoesOn.post
      { s with session := { s.session with sent := s.session.sent ++ [msg] } } (.send msg)
    exact Or.inl ⟨hgoes.exit, hgoes.hears, hgoes.reader, hgoes.writer, hgoes.readerPosted,
      hgoes.writerPosted⟩
  | forward msg rest =>
    -- the writer takes the message only if it runs
    left
    unfold Endpoint.send
    rcases hcast : s.writer.cast (.write msg) with err | writer
    · simp only [hcast]
      exact GoesOn.of_eq rfl rfl rfl id id ⟨rfl, rfl⟩
    · simp only [hcast]
      refine GoesOn.of_eq rfl rfl rfl id (fun hlive => ?_) ⟨rfl, rfl⟩
      unfold Writer.cast at hcast
      split at hcast
      · assumption
      · cases hcast
  | receive msg rest => exact Or.inl (GoesOn.of_eq rfl rfl rfl id id ⟨rfl, rfl⟩)
  | returned result hexit =>
    -- an error of the receiver fails the session
    cases result with
    | ok _ => exact Or.inl (GoesOn.of_eq rfl rfl rfl id id ⟨rfl, rfl⟩)
    | error err => exact Or.inr ⟨hexit, _, rfl⟩
  | supervise evt rest hfree hsup =>
    left
    rcases handleSupervisorEvt_cases
      { s with session := { s.session with supervision := rest } } evt with
      ⟨hnone, heq⟩ | ⟨_, toChildren, toSession, -, heq⟩
    · -- the event that is gone reported no end
      rw [heq]
      refine ⟨rfl, Or.inr ⟨rfl, fun evt' hevt' hended => ?_⟩, id, id, Or.inl rfl, Or.inl rfl⟩
      rw [hsup] at hevt'
      rcases List.mem_cons.mp hevt' with rfl | hrest
      · exact absurd hnone hended
      · exact hrest
    · -- the shutdown begins
      obtain ⟨_, hreader⟩ := s.reader.stop_eq toChildren
      obtain ⟨_, hwriter⟩ := s.writer.stop_eq toChildren
      rw [heq]
      simp only [Endpoint.stop, Endpoint.stopChildren, hfree.1, hfree.2.2, hreader, hwriter]
      exact ⟨hfree.1.symm, Or.inl (Option.some_ne_none toSession), id, id, Or.inl rfl,
        Or.inl rfl⟩
  | notify evt => exact Or.inl (GoesOn.tell s evt).1
  | reader e out hstep =>
    left
    obtain ⟨-, hexit, hstopping, hsup⟩ := s.readerStepped_session out
    obtain ⟨hreader, hwriter⟩ := s.readerStepped_reader out
    refine GoesOn.of_eq hexit hstopping hsup (fun hlive => ?_) (fun hlive => ?_) ?_
    · rw [hreader] at hlive
      exact Reader.exit_none_of_step hstep hlive
    · rw [hwriter] at hlive
      exact hlive
    · exact s.readerStepped_reported out
  | writer e writer bytes hown hstep =>
    refine Or.inl (GoesOn.of_eq rfl rfl rfl id (fun hlive => ?_) ⟨rfl, rfl⟩)
    exact ((Writer.queue_of_step hown hstep).1 hlive).1
  | reportReader exit hended =>
    left
    obtain ⟨hgoes, hin⟩ :=
      GoesOn.tell { s with readerReported := true } (exit.event s.session.state.reader)
    refine ⟨hgoes.exit, hgoes.hears, hgoes.reader, hgoes.writer, Or.inr ⟨?_, fun hlive => ?_⟩,
      hgoes.writerPosted⟩
    · rw [hended]
      exact Option.some_ne_none exit
    · refine ⟨_, hin hlive, ?_⟩
      rw [ended_event]
      exact Option.some_ne_none _
  | reportWriter exit hended =>
    left
    obtain ⟨hgoes, hin⟩ :=
      GoesOn.tell { s with writerReported := true } (exit.event s.session.state.writer)
    refine ⟨hgoes.exit, hgoes.hears, hgoes.reader, hgoes.writer, hgoes.readerPosted,
      Or.inr ⟨?_, fun hlive => ?_⟩⟩
    · rw [hended]
      exact Option.some_ne_none exit
    · refine ⟨_, hin hlive, ?_⟩
      rw [ended_event]
      exact Option.some_ne_none _
  | stop reason => exact Or.inl (GoesOn.stop s reason)
  | takeStop reason hexit => exact Or.inr ⟨hexit, _, rfl⟩
  | kill hexit => exact Or.inr ⟨hexit, _, rfl⟩
  | late => exact Or.inl (GoesOn.of_eq rfl rfl rfl id id ⟨rfl, rfl⟩)

/-- A session that is about to stop forwards nothing. -/
theorem Ending.forwarded_step {usizeBits : ℕ} {received : List Frame} {s t : Endpoint}
    {e : EndpointEvent} (hs : s.Ending received) (h : s.step usizeBits e = some t) :
    t.session.forwarded = s.session.forwarded := by
  -- a session with a pending stop takes no message
  have hbusy : ¬ s.Free := fun hfree => (hs.2 hfree.1).2 hfree.2.2
  have hpost (s : Endpoint) (msg : TcpSessionMessage) :
      (s.post msg).session.forwarded = s.session.forwarded := by
    unfold Endpoint.post
    split <;> rfl
  have htell (s : Endpoint) (evt : SupervisionEvent) :
      (s.tell evt).session.forwarded = s.session.forwarded := by
    unfold Endpoint.tell
    split <;> rfl
  cases step_cases h with
  | send msg => exact hpost _ _
  | forward _ _ hfree | receive _ _ hfree | supervise _ _ hfree => exact absurd hfree hbusy
  | returned result =>
    cases result with
    | ok _ | error err => rfl
  | notify evt => exact htell s evt
  | reader e out =>
    obtain ⟨reader, buf⟩ := out
    cases buf with
    | none => rfl
    | some buf => exact hpost { s with reader } (.frameReady buf)
  | writer | takeStop | kill | late => rfl
  | reportReader | reportWriter => exact htell _ _
  | stop reason =>
    unfold Endpoint.stop
    split <;> rfl

end Endpoint

namespace Family

/-- A step of the endpoint in which the session does not end. -/
theorem Tied.after_same {s : Family} {t : Endpoint} (hs : s.Tied) (h : s.endpoint.GoesOn t) :
    (s.after t).Tied := by
  have hsame : ¬ (s.endpoint.session.exit = none ∧ t.session.exit ≠ none) := by
    rw [h.exit]
    exact fun hboth => hboth.2 hboth.1
  rw [after, if_neg hsame]
  exact ⟨hs.reader.of_goesOn h.exit h.hears h.readerPosted h.reader,
    hs.writer.of_goesOn h.exit h.hears h.writerPosted h.writer⟩

/-- A step of the endpoint in which the session ends. -/
theorem Tied.after_end {s : Family} (hs : s.Tied) (hlive : s.endpoint.session.exit = none)
    (exit : Exit) : (s.after (s.endpoint.finish exit)).Tied := by
  have hended : (s.endpoint.finish exit).session.exit ≠ none := Option.some_ne_none exit
  rw [after, if_pos ⟨hlive, hended⟩]
  exact ⟨hs.reader.of_end hended, hs.writer.of_end hended⟩

/-- **Step lemma.** -/
theorem Tied.step {usizeBits : ℕ} {s s' : Family} {e : FamilyEvent} (hs : s.Tied)
    (h : s.step usizeBits e = some s') : s'.Tied := by
  cases e with
  | step e =>
    simp only [Family.step, Option.map_eq_some_iff] at h
    obtain ⟨t, ht, rfl⟩ := h
    rcases Endpoint.goesOn_or_finish ht with hgoes | ⟨hlive, exit, rfl⟩
    · exact hs.after_same hgoes
    · exact hs.after_end hlive exit
  | sessionFails what =>
    simp only [Family.step] at h
    split at h
    · rename_i hlive
      rw [Option.some.injEq] at h
      exact h ▸ hs.after_end hlive (.failed what)
    · cases h
  | readerFails what =>
    -- its event is not posted yet
    simp only [Family.step] at h
    split at h
    · rw [Option.some.injEq] at h
      exact h ▸ ⟨hs.reader.of_ended (Option.some_ne_none _) _, hs.writer⟩
    · cases h
  | writerFails what =>
    simp only [Family.step] at h
    split at h
    · rw [Option.some.injEq] at h
      exact h ▸ ⟨hs.reader, hs.writer.of_ended (Option.some_ne_none _) _⟩
    · cases h
  | killReader =>
    simp only [Family.step] at h
    split at h
    · rw [Option.some.injEq] at h
      exact h ▸ ⟨hs.reader.of_ended s.endpoint.reader.kill_fields.1 false, hs.writer⟩
    · cases h
  | killWriter =>
    simp only [Family.step] at h
    split at h
    · rw [Option.some.injEq] at h
      exact h ▸ ⟨hs.reader, hs.writer.of_ended s.endpoint.writer.kill_fields.1 false⟩
    · cases h

/-! ## After the first exit event -/

/-- The session is about to stop or has stopped; `received` and `forwarded` are what it has passed
to the receiver and to the writer. -/
def Quiet (received forwarded : List Frame) (s : Family) : Prop :=
  s.endpoint.Ending received ∧ s.endpoint.session.forwarded = forwarded

/-- The children's kills leave the session alone. -/
theorem after_session (s : Family) (t : Endpoint) : (s.after t).endpoint.session = t.session := by
  unfold after
  split <;> rfl

/-- What is quiet is so by the session alone. -/
theorem quiet_after {received forwarded : List Frame} {s : Family} {t : Endpoint}
    (hending : t.Ending received) (hforwarded : t.session.forwarded = forwarded) :
    (s.after t).Quiet received forwarded := by
  rw [Quiet, Endpoint.Ending, after_session]
  exact ⟨hending, hforwarded⟩

/-- **Step lemma.** Nothing is passed on any more. -/
theorem Quiet.step {usizeBits : ℕ} {received forwarded : List Frame} {s s' : Family}
    {e : FamilyEvent} (hs : s.Quiet received forwarded) (h : s.step usizeBits e = some s') :
    s'.Quiet received forwarded := by
  obtain ⟨hending, hforwarded⟩ := hs
  cases e with
  | step e =>
    simp only [Family.step, Option.map_eq_some_iff] at h
    obtain ⟨t, ht, rfl⟩ := h
    exact quiet_after (hending.step ht) ((hending.forwarded_step ht).trans hforwarded)
  | sessionFails what =>
    simp only [Family.step] at h
    split at h
    · rw [Option.some.injEq] at h
      refine h ▸ quiet_after ⟨hending.1, fun hnone => ?_⟩ hforwarded
      exact (Option.some_ne_none _ hnone).elim
    · cases h
  | readerFails | writerFails | killReader | killWriter =>
    simp only [Family.step] at h
    split at h
    · rw [Option.some.injEq] at h
      exact h ▸ ⟨hending, hforwarded⟩
    · cases h

/-- The session that takes an exit event is quiet from then on. -/
theorem quiet_of_supervise {usizeBits : ℕ} {s s' : Family} (hexit : s.endpoint.AtExit)
    (h : s.step usizeBits (.step .supervise) = some s') :
    s'.Quiet s.endpoint.session.received s.endpoint.session.forwarded := by
  simp only [Family.step, Option.map_eq_some_iff] at h
  obtain ⟨t, ht, rfl⟩ := h
  refine quiet_after (Endpoint.ending_of_supervise hexit ht) ?_
  cases Endpoint.step_cases ht with
  | supervise evt rest =>
    rcases Endpoint.handleSupervisorEvt_cases
      { s.endpoint with session := { s.endpoint.session with supervision := rest } } evt with
      ⟨-, heq⟩ | ⟨_, toChildren, toSession, -, heq⟩
    · rw [heq]
    · rw [heq, Endpoint.stop]
      split <;> rfl

/-- **Teardown is all or nothing.** In every state of every run in which no supervision event,
stop or kill is left to be handled, session, reader and writer are all running or have all
stopped. Once the session has handled the exit event of a child, it calls `receiver.frame_ready`
no more and forwards no `Send` to the writer. -/
theorem teardown_all_or_nothing {usizeBits : ℕ} {state : TcpSessionState} {read : ActorReadHalf}
    {write : ActorWriteHalf} {incoming : List UInt8} {es : List FamilyEvent} {s : Family}
    (h : exec (step usizeBits) (preStart state read write incoming) es = some s) :
    (s.Settled → s.AllRunning ∨ s.AllStopped) ∧
      ∀ es₁ es₂ t, es = es₁ ++ .step .supervise :: es₂ →
        exec (step usizeBits) (preStart state read write incoming) es₁ = some t →
        t.endpoint.AtExit →
        s.endpoint.session.received = t.endpoint.session.received ∧
          s.endpoint.session.forwarded = t.endpoint.session.forwarded := by
  constructor
  · have hs : s.Tied := exec_invariant h (tied_preStart state read write incoming)
      fun _ _ _ hs hstep => hs.step hstep
    exact hs.all_or_nothing
  · -- the run goes on from the state after the event
    rintro es₁ es₂ t rfl ht hexit
    rw [exec_append, ht, Option.bind_some, exec_cons, Option.bind_eq_some_iff] at h
    obtain ⟨t', ht', hrest⟩ := h
    have hquiet : s.Quiet t.endpoint.session.received t.endpoint.session.forwarded :=
      exec_invariant hrest (quiet_of_supervise hexit ht') fun _ _ _ hs hstep => hs.step hstep
    exact ⟨hquiet.1.1, hquiet.2⟩

/-- The peer closes the connection. The session takes the exit event of its reader before the
`Send` in its mailbox, and its end kills the writer. -/
theorem teardown_all_or_nothing_closed :
    ∃ s, exec (step 64) (preStart ⟨⟨.loc 1⟩, ⟨.loc 2⟩⟩ .regular .regular [])
        [.step (.reader .handle), .step (.reader (.ioError .unexpectedEof)),
          .step (.reader .takeStop), .step .reportReader, .step (.send [5]), .step .supervise,
          .step .takeStop, .killWriter] = some s ∧
      s.Settled ∧ (s.AllRunning ∨ s.AllStopped) ∧ s.endpoint.session.forwarded = [] := by
  obtain ⟨s, hrun, hpost⟩ := (Option.any_eq_true _ _).mp (show
    (exec (step 64) (preStart ⟨⟨.loc 1⟩, ⟨.loc 2⟩⟩ .regular .regular [])
      [.step (.reader .handle), .step (.reader (.ioError .unexpectedEof)),
        .step (.reader .takeStop), .step .reportReader, .step (.send [5]), .step .supervise,
        .step .takeStop, .killWriter]).any (fun s =>
      s.endpoint.session.exit.isSome && s.endpoint.reader.exit.isSome &&
        s.endpoint.writer.exit.isSome) = true by decide)
  simp only [Bool.and_eq_true, Option.isSome_iff_ne_none] at hpost
  obtain ⟨⟨hsession, hreader⟩, hwriter⟩ := hpost
  have hsettled : s.Settled :=
    ⟨fun hlive => absurd hlive hsession, fun hlive => absurd hlive hsession,
      fun hlive => absurd hlive hsession, fun hlive => absurd hlive hreader,
      fun hlive => absurd hlive hwriter⟩
  obtain ⟨hall, hquiet⟩ := teardown_all_or_nothing hrun
  -- the state in which the session is about to take the event
  refine ⟨s, hrun, hsettled, hall hsettled, ?_⟩
  exact (hquiet [.step (.reader .handle), .step (.reader (.ioError .unexpectedEof)),
    .step (.reader .takeStop), .step .reportReader, .step (.send [5])] _ _ rfl rfl
    ⟨_, _, _, rfl, rfl⟩).2

end Family

end RactorActors.Net.Tcp
