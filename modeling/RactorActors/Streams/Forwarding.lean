import RactorActors.Foundations.LabelledRun
import RactorActors.Streams.Pump

/-!
# What a stream pump forwards

A pump, the mailbox of its receiver, and a stream that yields finitely many items (`System`). The
receiver's mailbox closes at any moment or never, and anybody may stop or kill the pump.

* `Progress`: how far the pump has come, kept by every step whoever takes it;
* `Alone`: how a pump ends that nobody else stops;
* `pump_forwards_faithfully`: what the receiver is sent is a prefix of the mapped stream and its
  end mark; a pump left alone sends all of it or fails at its first refused forward; and the
  stream is not polled again afterwards.
-/

namespace RactorActors.Streams.Forwarding

open LabelledRun

/-- A pump and its receiver. -/
structure System (X T : Type) where
  pump : Pump X
  /-- The receiver's mailbox takes messages. -/
  receiverOpen : Bool
  /-- What the pump has enqueued at the receiver, oldest first. -/
  enqueued : List T
  /-- The answers of the stream to the pump's polls, and whether each was forwarded, oldest
  first. -/
  forwards : List (Option X × Bool)
deriving DecidableEq, Repr

/-- The events of a pump and its receiver. -/
inductive Event
  | pump (e : PumpEvent)
  /-- The receiver's mailbox closes. -/
  | close
deriving DecidableEq, Repr

/-- The event is not that somebody else stops or kills the pump. -/
def Event.isOwn : Event → Bool
  | .pump e => e.isOwn
  | .close => true

variable {X T : Type}

namespace System

/-- `spawn_stream_pump` -/
def spawnStreamPump (stream : List X) : System X T where
  pump := Pump.preStart stream
  receiverOpen := true
  enqueued := []
  forwards := []

/-- The answer that the stream gives if it is polled now. -/
def answer (s : System X T) : Option X := s.pump.stream.head?

/-- One step of a pump and its receiver. -/
def step (fnMap : Option X → T) (s : System X T) : Event → Option (System X T)
  | .pump e =>
    match s.pump.step fnMap s.receiverOpen e with
    | some (pump, cast) =>
      some { s with
        pump := pump
        enqueued := s.enqueued ++ cast.toList
        forwards := match e with
          | .next => s.forwards ++ [(s.answer, cast.isSome)]
          | _ => s.forwards }
    | none => none
  | .close => if s.receiverOpen then some { s with receiverOpen := false } else none

/-- The state after a list of events. -/
def run (fnMap : Option X → T) (stream : List X) (es : List Event) : Option (System X T) :=
  exec (step fnMap) (spawnStreamPump stream) es

/-- The stream has ended, or a forward has failed. -/
def Over (s : System X T) : Prop := ∃ p ∈ s.forwards, p.1 = none ∨ p.2 = false

/-! ## How far the pump has come -/

/-- The pump takes no further message. -/
def AtRest (s : System X T) : Prop :=
  s.pump.exit ≠ none ∨ s.pump.stopping ≠ none ∧ s.pump.working = false

/-- **How far the pump of the stream `xs` has come.** -/
inductive Progress (fnMap : Option X → T) (xs : List X) (s : System X T) : Prop
  /-- The items `ys` were forwarded. -/
  | underway (ys : List X) (hstream : xs = ys ++ s.pump.stream)
      (hforwards : s.forwards = ys.map fun y => (some y, true))
      (henqueued : s.enqueued = ys.map fun y => fnMap (some y))
  /-- All items and the end of the stream were forwarded. -/
  | ended (hrest : s.AtRest)
      (hforwards : s.forwards = (xs.map fun x => (some x, true)) ++ [(none, true)])
      (henqueued : s.enqueued = (xs.map fun x => fnMap (some x)) ++ [fnMap none])
  /-- The items `ys` were forwarded, and the next forward failed. -/
  | refused (ys zs : List X) (hstream : xs = ys ++ zs)
      (hexit : s.pump.exit = some (.failed (.messaging .sendErr)))
      (hforwards : s.forwards = (ys.map fun y => (some y, true)) ++ [(zs.head?, false)])
      (henqueued : s.enqueued = ys.map fun y => fnMap (some y))

/-- **Step inversion.** What a step of the pump does to the forwards and to the receiver. -/
inductive StepCase (fnMap : Option X → T) (s s' : System X T) : Event → Prop
  /-- Nothing is forwarded, and the stream is not polled. -/
  | quiet (e : PumpEvent) (hstream : s'.pump.stream = s.pump.stream)
      (hopen : s'.receiverOpen = s.receiverOpen) (henqueued : s'.enqueued = s.enqueued)
      (hforwards : s'.forwards = s.forwards) (hrest : s.AtRest → s'.AtRest)
      (hexit : ∀ exit, s.pump.exit = some exit → s'.pump.exit = some exit) :
      StepCase fnMap s s' (.pump e)
  | item (x : X) (hbusy : ¬ s.AtRest) (hstream : s.pump.stream = x :: s'.pump.stream)
      (hopen : s'.receiverOpen = s.receiverOpen)
      (henqueued : s'.enqueued = s.enqueued ++ [fnMap (some x)])
      (hforwards : s'.forwards = s.forwards ++ [(some x, true)]) : StepCase fnMap s s' (.pump .next)
  | last (hbusy : ¬ s.AtRest) (hstream : s.pump.stream = [])
      (hopen : s'.receiverOpen = s.receiverOpen)
      (henqueued : s'.enqueued = s.enqueued ++ [fnMap none])
      (hforwards : s'.forwards = s.forwards ++ [(none, true)]) (hrest : s'.AtRest) :
      StepCase fnMap s s' (.pump .next)
  | refused (hbusy : ¬ s.AtRest) (hclosed : s.receiverOpen = false)
      (hopen : s'.receiverOpen = false)
      (henqueued : s'.enqueued = s.enqueued)
      (hforwards : s'.forwards = s.forwards ++ [(s.answer, false)])
      (hexit : s'.pump.exit = some (.failed (.messaging .sendErr))) :
      StepCase fnMap s s' (.pump .next)
  | close (hopen : s.receiverOpen = true) (hs : s' = { s with receiverOpen := false }) :
      StepCase fnMap s s' .close

/-- A pump in a round is not at rest. -/
theorem not_atRest {s : System X T} (hexit : s.pump.exit = none) (hwork : s.pump.working = true) :
    ¬ s.AtRest := by
  rintro (hended | ⟨-, hidle⟩)
  · exact hended hexit
  · rw [hwork] at hidle
    cases hidle

theorem step_cases {fnMap : Option X → T} {s s' : System X T} {e : Event}
    (h : s.step fnMap e = some s') : StepCase fnMap s s' e := by
  cases e with
  | close =>
    simp only [step] at h
    split at h
    · rename_i hopen
      rw [Option.some.injEq] at h
      exact .close hopen h.symm
    · cases h
  | pump e =>
    simp only [step] at h
    split at h
    · rename_i pump cast hpump
      rw [Option.some.injEq] at h
      subst h
      have hcase := Pump.step_cases hpump
      generalize hout : (pump, cast) = out at hcase
      cases hcase with
      | handle rest hexit hidle hstop hqueue =>
        obtain ⟨rfl, rfl⟩ := Prod.mk.inj hout
        refine .quiet _ rfl rfl (List.append_nil _) rfl ?_ ?_
        · rintro (hended | ⟨hstopping, -⟩)
          · exact absurd hexit hended
          · exact absurd hstop hstopping
        · exact fun exit hended => hended
      | item x stream hexit hwork hopen hstream =>
        obtain ⟨rfl, rfl⟩ := Prod.mk.inj hout
        refine .item x (not_atRest hexit hwork) hstream rfl rfl ?_
        simp [answer, hstream]
      | last hexit hwork hopen hstream =>
        obtain ⟨rfl, rfl⟩ := Prod.mk.inj hout
        refine .last (not_atRest hexit hwork) hstream rfl rfl ?_ ?_
        · simp [answer, hstream]
        · unfold AtRest Pump.stop
          cases s.pump.stopping <;> simp [hexit]
      | closed hexit hwork hclosed =>
        obtain ⟨rfl, rfl⟩ := Prod.mk.inj hout
        exact .refused (not_atRest hexit hwork) hclosed hclosed (List.append_nil _) rfl rfl
      | stop reason =>
        obtain ⟨rfl, rfl⟩ := Prod.mk.inj hout
        have hstop : (s.pump.stop reason).stream = s.pump.stream ∧
            (s.pump.stop reason).exit = s.pump.exit ∧
            (s.pump.stop reason).working = s.pump.working ∧
            (s.pump.stopping ≠ none → (s.pump.stop reason).stopping ≠ none) := by
          unfold Pump.stop
          split
          · exact ⟨rfl, rfl, rfl, fun _ => Option.some_ne_none _⟩
          · exact ⟨rfl, rfl, rfl, fun hne => hne⟩
        obtain ⟨hstream, hexit, hwork, hstopping⟩ := hstop
        refine .quiet _ hstream rfl (List.append_nil _) rfl ?_ ?_
        · rintro (hended | ⟨hne, hidle⟩)
          · exact Or.inl (hexit ▸ hended)
          · exact Or.inr ⟨hstopping hne, hwork.trans hidle⟩
        · exact fun exit hended => hexit.trans hended
      | takeStop reason hexit =>
        obtain ⟨rfl, rfl⟩ := Prod.mk.inj hout
        refine .quiet _ rfl rfl (List.append_nil _) rfl ?_ ?_
        · exact fun _ => Or.inl (Option.some_ne_none _)
        · intro exit hended
          rw [hexit] at hended
          cases hended
      | kill =>
        obtain ⟨rfl, rfl⟩ := Prod.mk.inj hout
        cases hexit : s.pump.exit with
        | none =>
          have hkill : s.pump.kill = s.pump.finish (.terminated (some "killed")) := by
            rw [Pump.kill, hexit]
          refine .quiet _ (by simp only [hkill]; rfl) rfl (List.append_nil _) rfl ?_ ?_
          · refine fun _ => Or.inl ?_
            simp only [hkill]
            exact Option.some_ne_none _
          · intro exit hended
            rw [hexit] at hended
            cases hended
        | some exit₀ =>
          have hkill : s.pump.kill = s.pump := by rw [Pump.kill, hexit]
          refine .quiet _ (by simp only [hkill]) rfl (List.append_nil _) rfl ?_ ?_
          · simp only [AtRest, hkill]
            exact fun hrest => hrest
          · simp only [hkill]
            exact fun exit hended => hended
    · cases h

/-- A pump is started before it has forwarded anything. -/
theorem progress_spawn (fnMap : Option X → T) (xs : List X) :
    (spawnStreamPump xs).Progress fnMap xs :=
  .underway [] rfl rfl rfl

/-- **Step lemma.** -/
theorem Progress.step {fnMap : Option X → T} {xs : List X} {s s' : System X T} {e : Event}
    (hs : s.Progress fnMap xs) (h : s.step fnMap e = some s') : s'.Progress fnMap xs := by
  cases step_cases h with
  | quiet _ hstream _ henqueued hforwards hrest hexit =>
    cases hs with
    | underway ys hs₁ hs₂ hs₃ =>
      exact .underway ys (hstream ▸ hs₁) (hforwards.trans hs₂) (henqueued.trans hs₃)
    | ended hs₁ hs₂ hs₃ => exact .ended (hrest hs₁) (hforwards.trans hs₂) (henqueued.trans hs₃)
    | refused ys zs hs₁ hs₂ hs₃ hs₄ =>
      exact .refused ys zs hs₁ (hexit _ hs₂) (hforwards.trans hs₃) (henqueued.trans hs₄)
  | item x hbusy hstream _ henqueued hforwards =>
    cases hs with
    | underway ys hs₁ hs₂ hs₃ =>
      refine .underway (ys ++ [x]) ?_ ?_ ?_
      · rw [hs₁, hstream, List.append_assoc, List.singleton_append]
      · rw [hforwards, hs₂, List.map_append, List.map_singleton]
      · rw [henqueued, hs₃, List.map_append, List.map_singleton]
    | ended hrest => exact absurd hrest hbusy
    | refused _ _ _ hexit => exact absurd (Or.inl (hexit ▸ Option.some_ne_none _)) hbusy
  | last hbusy hstream _ henqueued hforwards hrest =>
    cases hs with
    | underway ys hs₁ hs₂ hs₃ =>
      -- no item is left, so what was forwarded is the whole stream
      rw [hstream, List.append_nil] at hs₁
      subst hs₁
      exact .ended hrest (by rw [hforwards, hs₂]) (by rw [henqueued, hs₃])
    | ended hrest => exact absurd hrest hbusy
    | refused _ _ _ hexit => exact absurd (Or.inl (hexit ▸ Option.some_ne_none _)) hbusy
  | refused hbusy _ _ henqueued hforwards hexit =>
    cases hs with
    | underway ys hs₁ hs₂ hs₃ =>
      exact .refused ys s.pump.stream hs₁ hexit (by rw [hforwards, hs₂, answer])
        (henqueued.trans hs₃)
    | ended hrest => exact absurd hrest hbusy
    | refused _ _ _ hexit => exact absurd (Or.inl (hexit ▸ Option.some_ne_none _)) hbusy
  | close _ hs' =>
    subst hs'
    cases hs with
    | underway ys hs₁ hs₂ hs₃ => exact .underway ys hs₁ hs₂ hs₃
    | ended hs₁ hs₂ hs₃ => exact .ended hs₁ hs₂ hs₃
    | refused ys zs hs₁ hs₂ hs₃ hs₄ => exact .refused ys zs hs₁ hs₂ hs₃ hs₄

/-- The pump makes progress in every run. -/
theorem progress_of_run {fnMap : Option X → T} {xs : List X} {es : List Event} {s : System X T}
    (h : run fnMap xs es = some s) : s.Progress fnMap xs :=
  exec_invariant h (progress_spawn fnMap xs) fun _ _ _ hp hs => hp.step hs

/-- What the receiver is sent is a prefix of the mapped stream and its end mark. -/
theorem Progress.enqueued_initial {fnMap : Option X → T} {xs : List X} {s : System X T}
    (hs : s.Progress fnMap xs) : s.enqueued <+: (xs.map some ++ [none]).map fnMap := by
  cases hs with
  | underway ys hstream _ henqueued =>
    rw [henqueued, hstream]
    simp [List.map_append, List.map_map, Function.comp_def]
  | ended _ _ henqueued =>
    rw [henqueued]
    simp [List.map_append, List.map_map, Function.comp_def]
  | refused ys zs hstream _ _ henqueued =>
    rw [henqueued, hstream]
    simp [List.map_append, List.map_map, Function.comp_def]

/-- Once the stream has ended or a forward has failed, the pump is at rest. -/
theorem Progress.atRest {fnMap : Option X → T} {xs : List X} {s : System X T}
    (hs : s.Progress fnMap xs) (hover : s.Over) : s.AtRest := by
  obtain ⟨p, hp, hlast⟩ := hover
  cases hs with
  | underway ys _ hforwards =>
    -- every poll so far gave an item, and it was forwarded
    rw [hforwards, List.mem_map] at hp
    obtain ⟨y, -, rfl⟩ := hp
    simp at hlast
  | ended hrest => exact hrest
  | refused _ _ _ hexit => exact Or.inl (hexit ▸ Option.some_ne_none _)

/-- A pump at rest polls the stream no more. -/
theorem rest_of_exec {fnMap : Option X → T} {es : List Event} {s s' : System X T}
    (hrest : s.AtRest) (h : exec (step fnMap) s es = some s') :
    s'.AtRest ∧ s'.forwards = s.forwards ∧ s'.enqueued = s.enqueued := by
  refine exec_invariant (P := fun t => t.AtRest ∧ t.forwards = s.forwards ∧
    t.enqueued = s.enqueued) h ⟨hrest, rfl, rfl⟩ ?_
  rintro t e t' ⟨hrest, hforwards, henqueued⟩ hs
  cases step_cases hs with
  | quiet _ _ _ henqueued' hforwards' hrest' =>
    exact ⟨hrest' hrest, hforwards'.trans hforwards, henqueued'.trans henqueued⟩
  | item _ hbusy | last hbusy | refused hbusy => exact absurd hrest hbusy
  | close _ hs' =>
    subst hs'
    exact ⟨hrest, hforwards, henqueued⟩

/-- A pump at rest takes neither a message nor an item. -/
theorem not_polling_of_atRest {s : System X T} (hrest : s.AtRest) (fnMap : Option X → T) :
    s.step fnMap (.pump .handle) = none ∧ s.step fnMap (.pump .next) = none := by
  rcases hrest with hended | ⟨hstop, hidle⟩
  · obtain ⟨exit, hexit⟩ := Option.ne_none_iff_exists'.mp hended
    simp [step, Pump.step, hexit]
  · obtain ⟨reason, hreason⟩ := Option.ne_none_iff_exists'.mp hstop
    cases hexit : s.pump.exit <;> simp [step, Pump.step, hexit, hidle, hreason]

/-- A forward to a closed mailbox fails the pump. -/
theorem refused_of_next {fnMap : Option X → T} {s s' : System X T}
    (hclosed : s.receiverOpen = false) (h : s.step fnMap (.pump .next) = some s') :
    s'.pump.exit = some (.failed (.messaging .sendErr)) ∧ s'.enqueued = s.enqueued ∧ s'.Over := by
  simp only [step, hclosed] at h
  split at h
  · rename_i pump cast hpump
    rw [Option.some.injEq] at h
    subst h
    have hcase := Pump.step_cases hpump
    generalize hout : (pump, cast) = out at hcase
    cases hcase with
    | item _ _ _ _ hopen => cases hopen
    | last _ _ hopen => cases hopen
    | closed hexit hwork =>
      obtain ⟨rfl, rfl⟩ := Prod.mk.inj hout
      exact ⟨rfl, List.append_nil _, _, List.mem_append_right _ List.mem_cons_self, Or.inr rfl⟩
  · cases h

/-! ## A pump that nobody stops -/

/-- **How far a pump has come that nobody else stops.** -/
inductive Alone (s : System X T) : Prop
  | underway (hloop : s.pump.Looping) (hexit : s.pump.exit = none) (hstop : s.pump.stopping = none)
  /-- The end of the stream was forwarded, and the pump stops itself. -/
  | ended (hlast : (none, true) ∈ s.forwards)
      (hdone : s.pump.exit = none ∧ s.pump.stopping = some none ∧ s.pump.working = false ∨
        s.pump.exit = some (.terminated none))
  /-- A forward failed, and the pump with it. -/
  | refused (hclosed : s.receiverOpen = false) (hfailed : ∃ p ∈ s.forwards, p.2 = false)
      (hexit : s.pump.exit = some (.failed (.messaging .sendErr)))

/-- What is left of the rounds of a pump that nobody else stops. -/
def remaining (s : System X T) : ℕ :=
  (if s.receiverOpen then 1 else 0) +
    match s.pump.exit, s.pump.stopping with
    | some _, _ => 0
    | none, some _ => 1
    | none, none => 2 * s.pump.stream.length + if s.pump.working then 2 else 3

/-- A pump that goes on with its stream takes a step: to the next item, or to an end. -/
theorem alone_of_looping {fnMap : Option X → T} {s s' : System X T} {e : PumpEvent}
    (hloop : s.pump.Looping) (hexit : s.pump.exit = none) (hstop : s.pump.stopping = none)
    (hown : e.isOwn = true) (h : s.step fnMap (.pump e) = some s') :
    s'.Alone ∧ s'.remaining < s.remaining := by
  simp only [System.step] at h
  split at h
  · rename_i pump cast hpump
    rw [Option.some.injEq] at h
    have hloop' := hloop.step hown hpump
    have hcase := Pump.step_cases hpump
    generalize hout : (pump, cast) = out at hcase
    cases hcase with
    | handle rest _ hidle _ hqueue =>
      obtain ⟨rfl, rfl⟩ := Prod.mk.inj hout
      subst h
      exact ⟨.underway hloop' hexit hstop, by simp [remaining, hexit, hstop, hidle]⟩
    | item x stream _ hwork _ hstream =>
      obtain ⟨rfl, rfl⟩ := Prod.mk.inj hout
      subst h
      refine ⟨.underway hloop' hexit hstop, ?_⟩
      -- one item fewer, and the next round has not begun
      simp only [remaining, hexit, hstop, hstream, hwork, List.length_cons, if_true,
        Bool.false_eq_true, if_false]
      omega
    | last _ hwork _ hstream =>
      obtain ⟨rfl, rfl⟩ := Prod.mk.inj hout
      subst h
      have hpump' : ({ s.pump with stream := [], working := false } : Pump X).stop none =
          { s.pump with stream := [], working := false, stopping := some none } := by
        simp only [Pump.stop, hexit, hstop]
      simp only [hpump']
      refine ⟨.ended ?_ (Or.inl ⟨hexit, rfl, rfl⟩), ?_⟩
      · simp [answer, hstream]
      · simp [remaining, hexit, hstop, hwork, hstream]
    | closed _ hwork hclosed =>
      obtain ⟨rfl, rfl⟩ := Prod.mk.inj hout
      subst h
      refine ⟨.refused hclosed ⟨_, List.mem_append_right _ List.mem_cons_self, rfl⟩ rfl, ?_⟩
      simp [remaining, Pump.finish, hexit, hstop, hwork]
    | takeStop reason _ _ hsome =>
      rw [hstop] at hsome
      cases hsome
    | stop | kill => cases hown
  · cases h

/-- A pump that has stopped itself takes its own stop, and nothing else. -/
theorem alone_of_stopping {fnMap : Option X → T} {s s' : System X T} {e : PumpEvent}
    (hlast : (none, true) ∈ s.forwards) (hexit : s.pump.exit = none)
    (hstop : s.pump.stopping = some none) (hidle : s.pump.working = false)
    (hown : e.isOwn = true) (h : s.step fnMap (.pump e) = some s') :
    s'.Alone ∧ s'.remaining < s.remaining := by
  simp only [System.step] at h
  split at h
  · rename_i pump cast hpump
    rw [Option.some.injEq] at h
    have hcase := Pump.step_cases hpump
    generalize hout : (pump, cast) = out at hcase
    cases hcase with
    | takeStop reason _ _ hsome =>
      obtain ⟨rfl, rfl⟩ := Prod.mk.inj hout
      subst h
      rw [hstop, Option.some.injEq] at hsome
      subst hsome
      refine ⟨.ended hlast (Or.inr rfl), ?_⟩
      simp [remaining, Pump.finish, hexit, hstop]
    | handle _ _ _ hnone =>
      rw [hstop] at hnone
      cases hnone
    | item _ _ _ hwork | last _ hwork | closed _ hwork =>
      rw [hidle] at hwork
      cases hwork
    | stop | kill => cases hown
  · cases h

/-- A pump that has ended takes no step of its own. -/
theorem step_of_exit {fnMap : Option X → T} {s : System X T} {exit : Exit}
    (hexit : s.pump.exit = some exit) {e : PumpEvent} (hown : e.isOwn = true) :
    s.step fnMap (.pump e) = none := by
  simp only [step, Pump.step_of_exit hexit hown]

/-- **Step lemma.** A pump left alone stays so, and each step brings it nearer to its end. -/
theorem Alone.step {fnMap : Option X → T} {s s' : System X T} {e : Event} (hs : s.Alone)
    (hown : e.isOwn = true) (h : s.step fnMap e = some s') :
    s'.Alone ∧ s'.remaining < s.remaining := by
  cases e with
  | close =>
    simp only [System.step] at h
    split at h
    · rename_i hopen
      rw [Option.some.injEq] at h
      subst h
      refine ⟨?_, by simp [remaining, hopen]⟩
      cases hs with
      | underway hloop hexit hstop => exact .underway hloop hexit hstop
      | ended hlast hdone => exact .ended hlast hdone
      | refused _ hfailed hexit => exact .refused rfl hfailed hexit
    · -- the mailbox closes only once
      cases h
  | pump e =>
    have hown' : e.isOwn = true := hown
    cases hs with
    | underway hloop hexit hstop => exact alone_of_looping hloop hexit hstop hown' h
    | ended hlast hdone =>
      rcases hdone with ⟨hexit, hstop, hidle⟩ | hexit
      · exact alone_of_stopping hlast hexit hstop hidle hown' h
      · rw [step_of_exit hexit hown'] at h
        cases h
    | refused _ _ hexit =>
      rw [step_of_exit hexit hown'] at h
      cases h

/-- A run in which nobody but the pump itself stops it. -/
def Undisturbed (fnMap : Option X → T) (xs : List X) (es : List Event) (s : System X T) : Prop :=
  Run (System.step fnMap) (fun _ e => e.isOwn = true) (spawnStreamPump xs) es s

/-- A pump is started alone. -/
theorem alone_spawn (xs : List X) : (spawnStreamPump xs : System X T).Alone :=
  .underway (Pump.looping_preStart xs) rfl rfl

/-- An undisturbed run is bounded, and leaves the pump alone. -/
theorem alone_of_run {fnMap : Option X → T} {xs : List X} {es : List Event} {s : System X T}
    (h : Undisturbed fnMap xs es s) : s.Alone ∧ es.length ≤ 2 * xs.length + 4 := by
  refine ⟨h.invariant (alone_spawn xs) fun s e s' hs hown hstep => (hs.step hown hstep).1, ?_⟩
  have hle := h.length_le (I := Alone) (m := remaining) (alone_spawn xs)
    (fun s e s' hs hown hstep => (hs.step hown hstep).1)
    (fun s e s' hs hown hstep => (hs.step hown hstep).2)
  have hfirst : (spawnStreamPump xs : System X T).remaining = 2 * xs.length + 4 := by
    simp only [remaining, spawnStreamPump, Pump.preStart, if_true, Bool.false_eq_true, if_false]
    omega
  omega

/-- A pump left alone can take a step until it has ended. -/
theorem ended_of_stuck {fnMap : Option X → T} {s : System X T} (hs : s.Alone)
    (hstuck : ∀ e : PumpEvent, e.isOwn = true → s.step fnMap (.pump e) = none) :
    s.pump.exit ≠ none := by
  cases hs with
  | underway hloop hexit hstop =>
    rcases hloop.round hexit hstop with ⟨hwork, -⟩ | ⟨hidle, hqueue⟩
    · have hnext := hstuck .next rfl
      simp [step, Pump.step, hexit, hwork] at hnext
    · have hhandle := hstuck .handle rfl
      simp [step, Pump.step, hexit, hstop, hidle, hqueue] at hhandle
  | ended _ hdone =>
    rcases hdone with ⟨hexit, hstop, hidle⟩ | hexit
    · have htake := hstuck .takeStop rfl
      simp [step, Pump.step, hexit, hstop, hidle] at htake
    · exact hexit ▸ Option.some_ne_none _
  | refused _ _ hexit => exact hexit ▸ Option.some_ne_none _

/-- How a pump that was left alone has ended. -/
theorem outcome_of_ended {fnMap : Option X → T} {xs : List X} {s : System X T} (hs : s.Alone)
    (hp : s.Progress fnMap xs) (hended : s.pump.exit ≠ none) :
    s.enqueued = (xs.map some ++ [none]).map fnMap ∧ s.pump.exit = some (.terminated none) ∨
      s.receiverOpen = false ∧ s.enqueued ≠ (xs.map some ++ [none]).map fnMap ∧
        s.pump.exit = some (.failed (.messaging .sendErr)) := by
  cases hs with
  | underway _ hexit => exact absurd hexit hended
  | ended hlast hdone =>
    have hexit : s.pump.exit = some (.terminated none) := by
      rcases hdone with ⟨hnone, -⟩ | hexit
      · exact absurd hnone hended
      · exact hexit
    refine Or.inl ⟨?_, hexit⟩
    cases hp with
    | underway ys _ hforwards => simp [hforwards] at hlast
    | ended _ _ henqueued => simp [henqueued, Function.comp_def]
    | refused _ _ _ hfailed =>
      rw [hexit] at hfailed
      cases hfailed
  | refused hclosed hfailed hexit =>
    refine Or.inr ⟨hclosed, fun hall => ?_, hexit⟩
    have hlength := congrArg List.length hall
    simp only [List.length_map, List.length_append, List.length_singleton] at hlength
    cases hp with
    -- what is missing shows in the number of messages
    | underway ys hstream _ henqueued =>
      rw [henqueued, hstream, List.length_map, List.length_append] at hlength
      omega
    | ended hrest hforwards =>
      -- here every forward succeeded
      obtain ⟨p, hp, hfalse⟩ := hfailed
      rw [hforwards] at hp
      rcases List.mem_append.mp hp with hmem | hmem
      · obtain ⟨x, -, rfl⟩ := List.mem_map.mp hmem
        cases hfalse
      · rw [List.mem_singleton.mp hmem] at hfalse
        cases hfalse
    | refused ys zs hstream _ _ henqueued =>
      rw [henqueued, hstream, List.length_map, List.length_append] at hlength
      omega

end System

/-- **The pump forwards the stream faithfully.** In every run, whoever closes, stops or kills:
what the receiver is sent is a prefix of the mapped stream and its end mark; a forward to a closed
mailbox fails the pump; and once the stream has ended or a forward has failed, the stream is not
polled again. A run in which nobody else stops the pump is bounded; when the pump can take no
further step, it has sent everything and stopped without failing, or the mailbox closed before
everything was sent and the pump failed. -/
theorem pump_forwards_faithfully (fnMap : Option X → T) (xs : List X) :
    (∀ es s, System.run fnMap xs es = some s →
      s.enqueued <+: (xs.map some ++ [none]).map fnMap ∧
      (∀ s', s.receiverOpen = false → s.step fnMap (.pump .next) = some s' →
        s'.pump.exit = some (.failed (.messaging .sendErr)) ∧ s'.enqueued = s.enqueued ∧ s'.Over) ∧
      (s.Over → ∀ es' s', exec (System.step fnMap) s es' = some s' →
        s'.forwards = s.forwards ∧ s'.enqueued = s.enqueued ∧
          s'.step fnMap (.pump .handle) = none ∧ s'.step fnMap (.pump .next) = none)) ∧
    (∀ es s, System.Undisturbed fnMap xs es s →
      es.length ≤ 2 * xs.length + 4 ∧
      ((∀ e : PumpEvent, e.isOwn = true → s.step fnMap (.pump e) = none) →
        s.enqueued = (xs.map some ++ [none]).map fnMap ∧ s.pump.exit = some (.terminated none) ∨
          s.receiverOpen = false ∧ s.enqueued ≠ (xs.map some ++ [none]).map fnMap ∧
            s.pump.exit = some (.failed (.messaging .sendErr)))) := by
  refine ⟨fun es s h => ?_, fun es s h => ?_⟩
  · have hp := System.progress_of_run h
    refine ⟨hp.enqueued_initial, fun s' hclosed hs => System.refused_of_next hclosed hs, ?_⟩
    intro hover es' s' hes'
    obtain ⟨hrest, hforwards, henqueued⟩ := System.rest_of_exec (hp.atRest hover) hes'
    exact ⟨hforwards, henqueued, System.not_polling_of_atRest hrest fnMap⟩
  · obtain ⟨halone, hlength⟩ := System.alone_of_run h
    refine ⟨hlength, fun hstuck => ?_⟩
    exact System.outcome_of_ended halone (System.progress_of_run h.exec_eq)
      (System.ended_of_stuck halone hstuck)

/-- Of two items the first is forwarded, then the mailbox closes, and the second one fails the
pump. -/
theorem pump_forwards_faithfully_closed :
    ∃ es s, System.Undisturbed id [7, 8] es s ∧ s.enqueued = [some 7] ∧
      s.pump.exit = some (.failed (.messaging .sendErr)) := by
  let es : List Event := [.pump .handle, .pump .next, .pump .handle, .close, .pump .next]
  obtain ⟨s, hs⟩ : ∃ s, exec (checked (fun _ e => e.isOwn) (System.step id))
      (System.spawnStreamPump [7, 8]) es = some s := Option.isSome_iff_exists.mp (by decide)
  have hrun : System.Undisturbed id [7, 8] es s := run_iff_exec_checked.mpr hs
  have hend : (System.run id [7, 8] es).map (fun s => (s.enqueued, s.receiverOpen,
      s.pump.exit.isSome)) = some ([some 7], false, true) := by decide
  have hexec : System.run id [7, 8] es = some s := hrun.exec_eq
  rw [hexec, Option.map_some, Option.some.injEq, Prod.mk.injEq, Prod.mk.injEq] at hend
  obtain ⟨henqueued, -, hended⟩ := hend
  refine ⟨es, s, hrun, henqueued, ?_⟩
  -- the pump has ended, so nothing is left that it could do
  have hstuck : ∀ e : PumpEvent, e.isOwn = true → s.step id (.pump e) = none := by
    obtain ⟨exit, hexit⟩ := Option.isSome_iff_exists.mp hended
    exact fun e he => System.step_of_exit hexit he
  rcases ((pump_forwards_faithfully id [7, 8]).2 es s hrun).2 hstuck with ⟨hall, -⟩ | ⟨-, -, hexit⟩
  · rw [henqueued] at hall
    cases hall
  · exact hexit

end RactorActors.Streams.Forwarding
