/-
# Sliding windows

Events are admitted one after the other, each counted in some classes.  A class
has a limit and a window: an event is admitted while each of its classes holds
fewer than its limit of the admitted events after the window's start.  Then no
window of a class ever holds more than its limit (`length_window_le`).

An implementation keeps the instants of a class in a queue, oldest first, and
drops old ones when it looks at it.  Such a queue is as good as all instants for
every later look (`Keeps.trim_eq`).
-/

import Mathlib.Data.List.Induction
import Mathlib.Data.List.TakeWhile
import Mathlib.Order.Lattice
import Mathlib.Order.Monotone.Basic

namespace MncsCommons.Data.SlidingWindow

variable {K T : Type} [LinearOrder T]

/-! ## Queues -/

/-- Drop instants from the front as long as they are not after the start. -/
def trim (start : T) (queue : List T) : List T := queue.dropWhile fun time => time ≤ start

/-- A queue holds the last of some instants, and what it lacks lies before every window
that starts from one of the instants still to come. -/
def Keeps (start : T → T) (future : T → Prop) (queue times : List T) : Prop :=
  ∃ dropped, times = dropped ++ queue ∧ ∀ time ∈ dropped, ∀ now, future now → time ≤ start now

theorem Keeps.refl (start : T → T) (future : T → Prop) (times : List T) :
    Keeps start future times times :=
  ⟨[], rfl, fun _ hmem => absurd hmem List.not_mem_nil⟩

theorem Keeps.mono {start : T → T} {future later : T → Prop} {queue times : List T}
    (h : Keeps start future queue times) (hlater : ∀ now, later now → future now) :
    Keeps start later queue times := by
  obtain ⟨dropped, htimes, hdropped⟩ := h
  exact ⟨dropped, htimes, fun time hmem now hnow => hdropped time hmem now (hlater now hnow)⟩

theorem Keeps.append {start : T → T} {future : T → Prop} {queue times : List T}
    (h : Keeps start future queue times) (time : T) :
    Keeps start future (queue ++ [time]) (times ++ [time]) := by
  obtain ⟨dropped, rfl, hdropped⟩ := h
  exact ⟨dropped, List.append_assoc .., hdropped⟩

/-- What stays of a sorted queue is what lies after the start. -/
theorem trim_of_sorted {queue : List T} (h : queue.Pairwise (· ≤ ·)) (start : T) :
    trim start queue = queue.filter fun time => start < time := by
  induction queue with
  | nil => rfl
  | cons time queue ih =>
      obtain ⟨hfirst, hrest⟩ := List.pairwise_cons.mp h
      by_cases htime : time ≤ start
      · rw [trim, List.dropWhile_cons_of_pos (by simpa using htime),
          List.filter_cons_of_neg (by simpa using htime)]
        exact ih hrest
      · have hafter : ∀ other ∈ time :: queue, start < other := by
          intro other hmem
          rcases List.mem_cons.mp hmem with rfl | hmem
          · exact not_le.mp htime
          · exact (not_le.mp htime).trans_le (hfirst other hmem)
        rw [trim, List.dropWhile_cons_of_neg (by simpa using htime),
          List.filter_eq_self.mpr fun other hmem => by simpa using hafter other hmem]

/-- A look at the queue sees every instant of the window. -/
theorem Keeps.trim_eq {start : T → T} {future : T → Prop} {queue times : List T}
    (h : Keeps start future queue times) (hsorted : times.Pairwise (· ≤ ·)) {now : T}
    (hnow : future now) : trim (start now) queue = times.filter fun time => start now < time := by
  obtain ⟨dropped, rfl, hdropped⟩ := h
  have hgone : dropped.filter (fun time => start now < time) = [] :=
    List.filter_eq_nil_iff.mpr fun time hmem => by simpa using hdropped time hmem now hnow
  rw [List.filter_append, hgone, List.nil_append]
  exact trim_of_sorted (List.pairwise_append.mp hsorted).2.1 (start now)

/-- What a look drops stays out of every later window. -/
theorem Keeps.trim {start : T → T} (hstart : Monotone start) {future : T → Prop}
    {queue times : List T} (h : Keeps start future queue times) {now : T}
    (hfuture : ∀ later, future later → now ≤ later) :
    Keeps start future (trim (start now) queue) times := by
  obtain ⟨dropped, rfl, hdropped⟩ := h
  refine ⟨dropped ++ queue.takeWhile fun time => time ≤ start now, ?_, ?_⟩
  · rw [SlidingWindow.trim, List.append_assoc, List.takeWhile_append_dropWhile]
  · intro time hmem later hlater
    rcases List.mem_append.mp hmem with hmem | hmem
    · exact hdropped time hmem later hlater
    · have htime : time ≤ start now := by simpa using List.mem_takeWhile_imp hmem
      exact htime.trans (hstart (hfuture later hlater))

/-! ## Windows -/

/-- An event at an instant, with the classes it counts in. -/
structure Event (K T : Type) where
  classes : List K
  time : T

/-- The limit of each class, and where its window at an instant starts. -/
structure Policy (K T : Type) where
  limit : K → Int
  start : K → T → T

variable [DecidableEq K]

/-- The events of a class that lie in its window at an instant. -/
def Policy.window (policy : Policy K T) (log : List (Event K T)) (key : K) (now : T) :
    List (Event K T) :=
  log.filter fun event =>
    key ∈ event.classes ∧ policy.start key now < event.time ∧ event.time ≤ now

/-- Each class of the event has room for it. -/
def Policy.HasRoom (policy : Policy K T) (log : List (Event K T)) (event : Event K T) : Prop :=
  ∀ key ∈ event.classes,
    ((policy.window log key event.time).length : Int) < policy.limit key

instance (policy : Policy K T) (log : List (Event K T)) (event : Event K T) :
    Decidable (policy.HasRoom log event) :=
  inferInstanceAs (Decidable (∀ key ∈ event.classes, _))

/-- The admitted events after one more. -/
def Policy.push (policy : Policy K T) (log : List (Event K T)) (event : Event K T) :
    List (Event K T) :=
  if policy.HasRoom log event then log ++ [event] else log

/-- The admitted ones among some events. -/
def Policy.pushAll (policy : Policy K T) (events : List (Event K T)) : List (Event K T) :=
  events.foldl policy.push []

/-- One more event keeps every window within its limit.  The windows that hold it hold
nothing that its own window does not. -/
theorem length_window_push {policy : Policy K T} (hstart : ∀ key, Monotone (policy.start key))
    {log : List (Event K T)} {event : Event K T} (hlog : ∀ other ∈ log, other.time ≤ event.time)
    (h : ∀ key now, ((policy.window log key now).length : Int) ≤ max 0 (policy.limit key))
    (key : K) (now : T) :
    ((policy.window (policy.push log event) key now).length : Int) ≤ max 0 (policy.limit key) := by
  rw [Policy.push]
  split
  · rename_i hroom
    by_cases hin : key ∈ event.classes ∧ policy.start key now < event.time ∧ event.time ≤ now
    · have hfewer : ((policy.window log key event.time).length : Int) < policy.limit key :=
        hroom key hin.1
      have hle : (policy.window log key now).length ≤
          (policy.window log key event.time).length := by
        rw [Policy.window, Policy.window, ← List.countP_eq_length_filter,
          ← List.countP_eq_length_filter]
        apply List.countP_mono_left
        intro other hmem hother
        obtain ⟨hkey, hafter, -⟩ := of_decide_eq_true hother
        exact decide_eq_true
          ⟨hkey, (hstart key hin.2.2).trans_lt hafter, hlog other hmem⟩
      rw [Policy.window, List.filter_append, List.filter_cons_of_pos (by simpa using hin),
        List.filter_nil, List.length_append, ← Policy.window, List.length_singleton]
      have hmax := le_max_right 0 (policy.limit key)
      omega
    · rw [Policy.window, List.filter_append, List.filter_cons_of_neg (by simpa using hin),
        List.filter_nil, List.append_nil]
      exact h key now
  · exact h key now

theorem pushAll_concat (policy : Policy K T) (events : List (Event K T)) (event : Event K T) :
    policy.pushAll (events ++ [event]) = policy.push (policy.pushAll events) event :=
  List.foldl_append

theorem push_sublist (policy : Policy K T) (log : List (Event K T)) (event : Event K T) :
    (policy.push log event).Sublist (log ++ [event]) := by
  rw [Policy.push]
  split
  · exact List.Sublist.refl _
  · exact List.sublist_append_left log [event]

theorem pushAll_sublist (policy : Policy K T) (events : List (Event K T)) :
    (policy.pushAll events).Sublist events := by
  induction events using List.reverseRecOn with
  | nil => exact List.Sublist.refl _
  | append_singleton events event ih =>
      rw [pushAll_concat]
      exact (push_sublist policy _ event).trans (ih.append_right [event])

/-- No window holds more than its limit. -/
theorem length_window_le {policy : Policy K T} (hstart : ∀ key, Monotone (policy.start key))
    {events : List (Event K T)} (hsorted : events.Pairwise fun e f => e.time ≤ f.time)
    (key : K) (now : T) :
    ((policy.window (policy.pushAll events) key now).length : Int) ≤ max 0 (policy.limit key) := by
  induction events using List.reverseRecOn generalizing key now with
  | nil => exact le_max_left 0 _
  | append_singleton events event ih =>
      obtain ⟨hbefore, -, hlast⟩ := List.pairwise_append.mp hsorted
      have hlog : ∀ other ∈ policy.pushAll events, other.time ≤ event.time := fun other hmem =>
        hlast other ((pushAll_sublist policy events).subset hmem) event List.mem_cons_self
      rw [pushAll_concat]
      exact length_window_push hstart hlog (ih hbefore) key now

end MncsCommons.Data.SlidingWindow
