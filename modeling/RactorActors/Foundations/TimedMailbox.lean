import Mathlib.Data.List.Nodup
import Mathlib.Tactic.Common

/-!
# A FIFO mailbox with one-shot timers

The message store of one actor: a clock, the timers it has armed, and the queue of messages
that wait for it. A timer is armed under a fresh handle and posts its message once, at or after
its deadline, unless it is aborted first. Nothing else ends a timer: forgetting its handle does
not, and aborting a handle whose timer has already posted changes nothing.

Each queued message remembers which timer posted it (`Envelope.origin`), so that a message can
be traced back to the moment its timer was armed. The fields ending in a proof keep handles
unique, and keep a timer that has posted from being armed still.

* `sendAfter`, `abort`, `expire`: the life of a timer;
* `post`, `receive`: the queue;
* `elapse`: time passes;
* `close`: the party ends.
-/

/-- A timer that is armed: it will post `msg` at or after `deadline`. -/
structure Timer (μ : Type*) where
  /-- The name under which the timer can be aborted. -/
  handle : ℕ
  /-- The earliest time at which the timer may post. -/
  deadline : ℕ
  /-- The message the timer posts. -/
  msg : μ
deriving DecidableEq, Repr

/-- A queued message, with the handle of the timer that posted it if one did. -/
structure Envelope (μ : Type*) where
  /-- The message itself. -/
  msg : μ
  /-- The timer that posted the message, `none` for a message sent by another party. -/
  origin : Option ℕ
deriving DecidableEq, Repr

/-- A clock, a set of armed timers and a FIFO queue. -/
structure TimedMailbox (μ : Type*) where
  /-- The current time. -/
  now : ℕ
  /-- The handle the next timer will get. -/
  nextHandle : ℕ
  /-- The armed timers, oldest first. -/
  timers : List (Timer μ)
  /-- The queued messages, next one first. -/
  queue : List (Envelope μ)
  /-- Handles are handed out in increasing order. -/
  handle_lt : ∀ t ∈ timers, t.handle < nextHandle
  /-- No two armed timers share a handle. -/
  handles_nodup : (timers.map Timer.handle).Nodup
  /-- A queued message was posted by a timer armed earlier. -/
  origin_lt : ∀ m ∈ queue, ∀ h ∈ m.origin, h < nextHandle
  /-- A timer that has posted is no longer armed. -/
  origin_spent : ∀ m ∈ queue, ∀ h ∈ m.origin, ∀ t ∈ timers, t.handle ≠ h

namespace TimedMailbox

variable {μ : Type*}

/-- A mailbox at time `now` with no timer and no message. -/
def empty (now : ℕ) : TimedMailbox μ where
  now := now
  nextHandle := 0
  timers := []
  queue := []
  handle_lt := by simp
  handles_nodup := by simp
  origin_lt := by simp
  origin_spent := by simp

/-- Arm a timer that posts `msg` after `delay`. Its handle is `box.nextHandle`. -/
def sendAfter (box : TimedMailbox μ) (delay : ℕ) (msg : μ) : TimedMailbox μ where
  now := box.now
  nextHandle := box.nextHandle + 1
  timers := box.timers ++ [⟨box.nextHandle, box.now + delay, msg⟩]
  queue := box.queue
  handle_lt := by
    intro t ht
    rcases List.mem_append.mp ht with ht | ht
    · exact Nat.lt_succ_of_lt (box.handle_lt t ht)
    · simp only [List.mem_singleton] at ht
      simp [ht]
  handles_nodup := by
    -- the new handle is above all others
    rw [List.map_append, List.nodup_append]
    refine ⟨box.handles_nodup, by simp, ?_⟩
    intro a ha b hb
    obtain ⟨t, ht, rfl⟩ := List.mem_map.mp ha
    have hlt := box.handle_lt t ht
    simp only [List.map_cons, List.map_nil, List.mem_singleton] at hb
    omega
  origin_lt := fun m hm h hh => Nat.lt_succ_of_lt (box.origin_lt m hm h hh)
  origin_spent := by
    intro m hm h hh t ht
    rcases List.mem_append.mp ht with ht | ht
    · exact box.origin_spent m hm h hh t ht
    · -- the new timer has a handle that no queued message can carry
      have hlt := box.origin_lt m hm h hh
      simp only [List.mem_singleton] at ht
      simp only [ht]
      omega

/-- Cancel the timer armed under `h`, if it has not posted yet. -/
def abort (box : TimedMailbox μ) (h : ℕ) : TimedMailbox μ where
  now := box.now
  nextHandle := box.nextHandle
  timers := box.timers.filter (·.handle ≠ h)
  queue := box.queue
  handle_lt := fun t ht => box.handle_lt t (List.mem_of_mem_filter ht)
  handles_nodup := box.handles_nodup.sublist (List.filter_sublist.map _)
  origin_lt := box.origin_lt
  origin_spent := fun m hm h hh t ht =>
    box.origin_spent m hm h hh t (List.mem_of_mem_filter ht)

/-- Queue a message sent by another party. -/
def post (box : TimedMailbox μ) (msg : μ) : TimedMailbox μ where
  now := box.now
  nextHandle := box.nextHandle
  timers := box.timers
  queue := box.queue ++ [⟨msg, none⟩]
  handle_lt := box.handle_lt
  handles_nodup := box.handles_nodup
  origin_lt := by
    intro m hm
    rcases List.mem_append.mp hm with hm | hm
    · exact box.origin_lt m hm
    · simp only [List.mem_singleton] at hm
      simp [hm]
  origin_spent := by
    intro m hm
    rcases List.mem_append.mp hm with hm | hm
    · exact box.origin_spent m hm
    · simp only [List.mem_singleton] at hm
      simp [hm]

/-- Time passes. -/
def elapse (box : TimedMailbox μ) (d : ℕ) : TimedMailbox μ :=
  { box with now := box.now + d }

/-- The armed timer `t` posts its message and is armed no longer. -/
def fire (box : TimedMailbox μ) (t : Timer μ) (ht : t ∈ box.timers) : TimedMailbox μ where
  now := box.now
  nextHandle := box.nextHandle
  timers := box.timers.filter (·.handle ≠ t.handle)
  queue := box.queue ++ [⟨t.msg, some t.handle⟩]
  handle_lt := fun u hu => box.handle_lt u (List.mem_of_mem_filter hu)
  handles_nodup := box.handles_nodup.sublist (List.filter_sublist.map _)
  origin_lt := by
    intro m hm h hh
    rcases List.mem_append.mp hm with hm | hm
    · exact box.origin_lt m hm h hh
    · simp only [List.mem_singleton] at hm
      simp only [hm, Option.mem_def, Option.some.injEq] at hh
      exact hh ▸ box.handle_lt t ht
  origin_spent := by
    intro m hm h hh u hu
    rcases List.mem_append.mp hm with hm | hm
    · exact box.origin_spent m hm h hh u (List.mem_of_mem_filter hu)
    · -- the message just posted: its timer has been filtered out
      simp only [List.mem_singleton] at hm
      simp only [hm, Option.mem_def, Option.some.injEq] at hh
      have hne := List.of_mem_filter hu
      simpa [hh] using hne

/-- The timer armed under `h` expires: not before its deadline, and only if it is armed. -/
def expire (box : TimedMailbox μ) (h : ℕ) : Option (TimedMailbox μ) :=
  match hf : box.timers.find? (·.handle = h) with
  | none => none
  | some t =>
    if t.deadline ≤ box.now then some (box.fire t (List.mem_of_find?_eq_some hf)) else none

/-- The next message in the queue. -/
def next (box : TimedMailbox μ) : Option (Envelope μ) := box.queue.head?

/-- The mailbox once the next message has been taken from it. -/
def receive (box : TimedMailbox μ) : TimedMailbox μ where
  now := box.now
  nextHandle := box.nextHandle
  timers := box.timers
  queue := box.queue.tail
  handle_lt := box.handle_lt
  handles_nodup := box.handles_nodup
  origin_lt := fun m hm => box.origin_lt m (List.mem_of_mem_tail hm)
  origin_spent := fun m hm => box.origin_spent m (List.mem_of_mem_tail hm)

/-- The mailbox of a party that has ended: its queue is gone, its timers are still armed. -/
def close (box : TimedMailbox μ) : TimedMailbox μ where
  now := box.now
  nextHandle := box.nextHandle
  timers := box.timers
  queue := []
  handle_lt := box.handle_lt
  handles_nodup := box.handles_nodup
  origin_lt := by simp
  origin_spent := by simp

/-! ## What each operation does to the clock, the timers and the queue -/

section Projections

variable (box : TimedMailbox μ) (d h : ℕ) (msg : μ) (t : Timer μ) (ht : t ∈ box.timers)

@[simp] theorem empty_now : (empty d : TimedMailbox μ).now = d := rfl
@[simp] theorem empty_timers : (empty d : TimedMailbox μ).timers = [] := rfl
@[simp] theorem empty_queue : (empty d : TimedMailbox μ).queue = [] := rfl

@[simp] theorem sendAfter_now : (box.sendAfter d msg).now = box.now := rfl
@[simp] theorem sendAfter_nextHandle :
    (box.sendAfter d msg).nextHandle = box.nextHandle + 1 := rfl
@[simp] theorem sendAfter_timers :
    (box.sendAfter d msg).timers = box.timers ++ [⟨box.nextHandle, box.now + d, msg⟩] := rfl
@[simp] theorem sendAfter_queue : (box.sendAfter d msg).queue = box.queue := rfl

@[simp] theorem abort_now : (box.abort h).now = box.now := rfl
@[simp] theorem abort_nextHandle : (box.abort h).nextHandle = box.nextHandle := rfl
@[simp] theorem abort_timers :
    (box.abort h).timers = box.timers.filter (·.handle ≠ h) := rfl
@[simp] theorem abort_queue : (box.abort h).queue = box.queue := rfl

@[simp] theorem post_now : (box.post msg).now = box.now := rfl
@[simp] theorem post_nextHandle : (box.post msg).nextHandle = box.nextHandle := rfl
@[simp] theorem post_timers : (box.post msg).timers = box.timers := rfl
@[simp] theorem post_queue : (box.post msg).queue = box.queue ++ [⟨msg, none⟩] := rfl

@[simp] theorem elapse_now : (box.elapse d).now = box.now + d := rfl
@[simp] theorem elapse_nextHandle : (box.elapse d).nextHandle = box.nextHandle := rfl
@[simp] theorem elapse_timers : (box.elapse d).timers = box.timers := rfl
@[simp] theorem elapse_queue : (box.elapse d).queue = box.queue := rfl

@[simp] theorem fire_now : (box.fire t ht).now = box.now := rfl
@[simp] theorem fire_nextHandle : (box.fire t ht).nextHandle = box.nextHandle := rfl
@[simp] theorem fire_timers :
    (box.fire t ht).timers = box.timers.filter (·.handle ≠ t.handle) := rfl
@[simp] theorem fire_queue :
    (box.fire t ht).queue = box.queue ++ [⟨t.msg, some t.handle⟩] := rfl

@[simp] theorem receive_now : box.receive.now = box.now := rfl
@[simp] theorem receive_nextHandle : box.receive.nextHandle = box.nextHandle := rfl
@[simp] theorem receive_timers : box.receive.timers = box.timers := rfl
@[simp] theorem receive_queue : box.receive.queue = box.queue.tail := rfl

@[simp] theorem close_now : box.close.now = box.now := rfl
@[simp] theorem close_nextHandle : box.close.nextHandle = box.nextHandle := rfl
@[simp] theorem close_timers : box.close.timers = box.timers := rfl
@[simp] theorem close_queue : box.close.queue = [] := rfl

end Projections

/-- **What an expiry can do.** An armed timer whose deadline has come posts its message. -/
theorem expire_eq_some {box box' : TimedMailbox μ} {h : ℕ} (he : box.expire h = some box') :
    ∃ t, ∃ ht : t ∈ box.timers, t.handle = h ∧ t.deadline ≤ box.now ∧ box' = box.fire t ht := by
  unfold expire at he
  split at he
  · cases he
  · rename_i t hf
    split at he
    · rename_i hdue
      refine ⟨t, List.mem_of_find?_eq_some hf, ?_, hdue, ?_⟩
      · simpa using List.find?_some hf
      · simpa using he.symm
    · cases he

/-- The next message is the head of the queue. -/
theorem next_eq_some {box : TimedMailbox μ} {m : Envelope μ} (h : box.next = some m) :
    box.queue = m :: box.queue.tail := by
  cases hq : box.queue with
  | nil => simp [next, hq] at h
  | cons a rest =>
    rw [next, hq, List.head?_cons, Option.some.injEq] at h
    rw [h, List.tail_cons]

/-- Two armed timers with one handle are the same timer. -/
theorem timer_eq_of_handle_eq {box : TimedMailbox μ} {t u : Timer μ} (ht : t ∈ box.timers)
    (hu : u ∈ box.timers) (h : t.handle = u.handle) : t = u :=
  List.inj_on_of_nodup_map box.handles_nodup ht hu h

/-- Aborting a timer leaves the timers of a kind that the aborted one is not of. -/
theorem filter_abort_timers (box : TimedMailbox μ) (h : ℕ) (p : Timer μ → Bool)
    (hp : ∀ t ∈ box.timers, t.handle = h → p t = false) :
    (box.abort h).timers.filter p = box.timers.filter p := by
  rw [abort_timers, List.filter_filter]
  apply List.filter_congr
  intro t ht
  by_cases hth : t.handle = h
  · simp [hth, hp t ht hth]
  · simp [hth]

/-- Aborting a timer acts on the timers of one kind as on all timers. -/
theorem filter_filter_handle (box : TimedMailbox μ) (h : ℕ) (p : Timer μ → Bool) :
    (box.timers.filter (·.handle ≠ h)).filter p =
      (box.timers.filter p).filter (·.handle ≠ h) := by
  rw [List.filter_filter, List.filter_filter]
  exact List.filter_congr fun t _ => Bool.and_comm _ _

/-- The handle of a fresh timer belongs to no timer armed before. -/
theorem handle_ne_nextHandle {box : TimedMailbox μ} {t : Timer μ} (ht : t ∈ box.timers) :
    t.handle ≠ box.nextHandle :=
  Nat.ne_of_lt (box.handle_lt t ht)

/-- Where no two timers share a handle, taking out a handle takes out one timer. -/
theorem filter_handle_eq_eraseP {timers : List (Timer μ)} (hnodup : (timers.map Timer.handle).Nodup)
    (h : ℕ) : timers.filter (·.handle ≠ h) = timers.eraseP (·.handle = h) := by
  induction timers with
  | nil => rfl
  | cons t rest ih =>
    rw [List.map_cons, List.nodup_cons] at hnodup
    by_cases ht : t.handle = h
    · -- the handle is taken, so no timer of the rest has it
      rw [List.filter_cons_of_neg (by simp [ht]), List.eraseP_cons_of_pos (by simp [ht]),
        List.filter_eq_self]
      intro u hu
      have hne : u.handle ≠ h := fun hu' => hnodup.1 (List.mem_map.mpr ⟨u, hu, hu'.trans ht.symm⟩)
      simpa using hne
    · rw [List.filter_cons_of_pos (by simp [ht]), List.eraseP_cons_of_neg (by simp [ht]),
        ih hnodup.2]

end TimedMailbox
