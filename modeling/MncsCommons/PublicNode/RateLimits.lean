/-
# Rate limits of the public node

The limiter keeps a queue of accepted instants for each source and one for all
of them, once for writes and once for reads, and looks at two of them in a call.
Against the list of all accepted calls it decides the same (`decisions_eq`), so
no window ever holds more than a limit allows (`rate_limits_hold`).

Instants are of any linear order with a subtraction that is monotone in its
first argument, as exact numbers and rounded machine numbers are.
-/

import MncsCommons.Data.SlidingWindow
import MncsCommons.Data.Json

namespace MncsCommons.PublicNode

open MncsCommons.Data MncsCommons.Data.SlidingWindow

variable {T : Type}

/-! ## The limiter -/

/-- `RateLimitConfig`, without its defaults. -/
structure RateLimitConfig (T : Type) where
  sourceWrites : Int
  globalWrites : Int
  windowSeconds : T
  sourceReads : Int
  globalReads : Int
  readWindowSeconds : T

/-- The defaults of `RateLimitConfig`. -/
def RateLimitConfig.default [NatCast T] : RateLimitConfig T where
  sourceWrites := 6
  globalWrites := 60
  windowSeconds := (3600 : Nat)
  sourceReads := 120
  globalReads := 1000
  readWindowSeconds := (60 : Nat)

/-- `_WindowLimiter`. -/
structure WindowLimiter (T : Type) where
  config : RateLimitConfig T
  sourceWrites : List (String × List T) := []
  globalWrites : List T := []
  sourceReads : List (String × List T) := []
  globalReads : List T := []

/-- The window of the writes, or of the reads. -/
def RateLimitConfig.window (config : RateLimitConfig T) (write : Bool) : T :=
  if write then config.windowSeconds else config.readWindowSeconds

def RateLimitConfig.sourceLimit (config : RateLimitConfig T) (write : Bool) : Int :=
  if write then config.sourceWrites else config.sourceReads

def RateLimitConfig.globalLimit (config : RateLimitConfig T) (write : Bool) : Int :=
  if write then config.globalWrites else config.globalReads

/-- The queues of a limiter. -/
inductive Queue where
  | source (write : Bool) (name : String)
  | all (write : Bool)
  deriving DecidableEq

def Queue.write : Queue → Bool
  | .source write _ => write
  | .all write => write

/-- The instants in a queue; `setdefault` gives a source that is not there yet none. -/
def WindowLimiter.queue (limiter : WindowLimiter T) : Queue → List T
  | .source write name =>
      (Fields.get? (if write then limiter.sourceWrites else limiter.sourceReads) name).getD []
  | .all write => if write then limiter.globalWrites else limiter.globalReads

/-- A queue without the instants that have left its window. -/
def WindowLimiter.trimmed [LinearOrder T] [Sub T] (limiter : WindowLimiter T) (queue : Queue)
    (now : T) : List T :=
  trim (now - limiter.config.window queue.write) (limiter.queue queue)

/-- One of the two limits is reached. -/
def WindowLimiter.IsFull [LinearOrder T] [Sub T] (limiter : WindowLimiter T) (source : String)
    (write : Bool) (now : T) : Prop :=
  limiter.config.sourceLimit write ≤ (limiter.trimmed (.source write source) now).length ∨
    limiter.config.globalLimit write ≤ (limiter.trimmed (.all write) now).length

instance [LinearOrder T] [Sub T] (limiter : WindowLimiter T) (source : String) (write : Bool)
    (now : T) : Decidable (limiter.IsFull source write now) :=
  inferInstanceAs (Decidable (_ ∨ _))

/-- `allow` at the clock value `now`: its answer and the limiter after it. -/
def WindowLimiter.allow [LinearOrder T] [Sub T] (limiter : WindowLimiter T) (source : String)
    (write : Bool) (now : T) : Bool × WindowLimiter T :=
  let accepted := if limiter.IsFull source write now then [] else [now]
  let sourceValues := limiter.trimmed (.source write source) now ++ accepted
  let globalValues := limiter.trimmed (.all write) now ++ accepted
  (¬ limiter.IsFull source write now,
    if write then
      { limiter with
        sourceWrites := Fields.set limiter.sourceWrites source sourceValues
        globalWrites := globalValues }
    else
      { limiter with
        sourceReads := Fields.set limiter.sourceReads source sourceValues
        globalReads := globalValues })

/-- A call of `allow`. -/
structure Asked (T : Type) where
  source : String
  write : Bool
  now : T

section Runs

variable [LinearOrder T] [Sub T]

/-- The limiter after some calls. -/
def WindowLimiter.after (limiter : WindowLimiter T) (calls : List (Asked T)) : WindowLimiter T :=
  calls.foldl (fun limiter call => (limiter.allow call.source call.write call.now).2) limiter

/-- What the limiter answers to each of some calls. -/
def WindowLimiter.decisions : WindowLimiter T → List (Asked T) → List Bool
  | _, [] => []
  | limiter, call :: calls =>
      let answer := limiter.allow call.source call.write call.now
      answer.1 :: answer.2.decisions calls

/-- The calls that the limiter accepts. -/
def WindowLimiter.accepted (limiter : WindowLimiter T) (calls : List (Asked T)) :
    List (Asked T) :=
  ((calls.zip (limiter.decisions calls)).filter Prod.snd).map Prod.fst

end Runs

/-! ## Queues as classes -/

def RateLimitConfig.limit (config : RateLimitConfig T) : Queue → Int
  | .source write _ => config.sourceLimit write
  | .all write => config.globalLimit write

/-- The limits of a configuration, and where its windows start. -/
def RateLimitConfig.policy [Sub T] (config : RateLimitConfig T) : Policy Queue T where
  limit := config.limit
  start queue now := now - config.window queue.write

/-- A call counts for its source and for all. -/
def Asked.event (call : Asked T) : Event Queue T where
  classes := [.source call.write call.source, .all call.write]
  time := call.now

section Refinement

variable [LinearOrder T] [Sub T]

/-- The instants of a class. -/
def timesOf (log : List (Event Queue T)) (queue : Queue) : List T :=
  (log.filter fun event => queue ∈ event.classes).map Event.time

/-- The queues of the limiter are as good as the list of all accepted calls. -/
structure Stands (config : RateLimitConfig T) (future : T → Prop) (limiter : WindowLimiter T)
    (log : List (Event Queue T)) : Prop where
  config_eq : limiter.config = config
  keeps : ∀ queue, Keeps (config.policy.start queue) future (limiter.queue queue)
    (timesOf log queue)
  sorted : log.Pairwise fun e f => e.time ≤ f.time
  past : ∀ event ∈ log, ∀ now, future now → event.time ≤ now

theorem Stands.mono {config : RateLimitConfig T} {future later : T → Prop}
    {limiter : WindowLimiter T} {log : List (Event Queue T)}
    (h : Stands config future limiter log) (hlater : ∀ now, later now → future now) :
    Stands config later limiter log :=
  ⟨h.config_eq, fun queue => (h.keeps queue).mono hlater, h.sorted,
    fun event hmem now hnow => h.past event hmem now (hlater now hnow)⟩

theorem Stands.new (config : RateLimitConfig T) (future : T → Prop) :
    Stands config future { config := config } [] where
  config_eq := rfl
  keeps queue := by
    cases queue with
    | source write name => cases write <;> exact Keeps.refl _ _ []
    | all write => cases write <;> exact Keeps.refl _ _ []
  sorted := List.Pairwise.nil
  past _ hmem := absurd hmem List.not_mem_nil

/-- A trimmed queue holds the window of its class. -/
theorem Stands.length_trim {config : RateLimitConfig T} {future : T → Prop}
    {limiter : WindowLimiter T} {log : List (Event Queue T)}
    (h : Stands config future limiter log) (queue : Queue) {now : T} (hnow : future now) :
    (trim (config.policy.start queue now) (limiter.queue queue)).length =
      (config.policy.window log queue now).length := by
  have hsorted : (timesOf log queue).Pairwise (· ≤ ·) :=
    List.pairwise_map.mpr (h.sorted.sublist List.filter_sublist)
  have hwindow : (log.filter fun event => queue ∈ event.classes).filter
      (fun event => config.policy.start queue now < event.time) =
        config.policy.window log queue now := by
    rw [List.filter_filter, Policy.window]
    apply List.filter_congr
    intro event hmem
    have hpast := h.past event hmem now hnow
    rw [Bool.and_comm]
    simp [hpast]
  rw [(h.keeps queue).trim_eq hsorted hnow, timesOf, List.filter_map, List.length_map, ← hwindow]
  rfl

/-- A call trims the two queues it looks at, and puts its instant on both when there is room. -/
theorem queue_allow (limiter : WindowLimiter T) (call : Asked T) (queue : Queue) :
    (limiter.allow call.source call.write call.now).2.queue queue =
      if queue ∈ call.event.classes then
        limiter.trimmed queue call.now ++
          (if limiter.IsFull call.source call.write call.now then [] else [call.now])
      else limiter.queue queue := by
  obtain ⟨source, write, now⟩ := call
  cases queue with
  | source queueWrite name =>
      by_cases hname : source = name
      · subst hname
        cases write <;> cases queueWrite <;>
          simp [WindowLimiter.allow, WindowLimiter.queue, Asked.event, Fields.get?_set]
      · cases write <;> cases queueWrite <;>
          simp [WindowLimiter.allow, WindowLimiter.queue, Asked.event, Fields.get?_set, hname,
            Ne.symm hname]
  | all queueWrite =>
      cases write <;> cases queueWrite <;>
        simp [WindowLimiter.allow, WindowLimiter.queue, Asked.event]

theorem config_allow (limiter : WindowLimiter T) (source : String) (write : Bool) (now : T) :
    (limiter.allow source write now).2.config = limiter.config := by
  cases write <;> rfl

omit [LinearOrder T] [Sub T] in
theorem timesOf_concat (log : List (Event Queue T)) (call : Asked T) (queue : Queue) :
    timesOf (log ++ [call.event]) queue =
      timesOf log queue ++ (if queue ∈ call.event.classes then [call.now] else []) := by
  rw [timesOf, List.filter_append, List.map_append, timesOf]
  by_cases hqueue : queue ∈ call.event.classes
  · rw [if_pos hqueue, List.filter_cons_of_pos (by simpa using hqueue)]
    rfl
  · rw [if_neg hqueue, List.filter_cons_of_neg (by simpa using hqueue)]
    rfl

/-- The limiter is full for a call when the list has no room for it. -/
theorem Stands.isFull_iff {config : RateLimitConfig T} {future : T → Prop}
    {limiter : WindowLimiter T} {log : List (Event Queue T)}
    (h : Stands config future limiter log) {call : Asked T} (hnow : future call.now) :
    limiter.IsFull call.source call.write call.now ↔ ¬ config.policy.HasRoom log call.event := by
  have hsource := h.length_trim (.source call.write call.source) hnow
  have hall := h.length_trim (.all call.write) hnow
  rw [WindowLimiter.IsFull, WindowLimiter.trimmed, WindowLimiter.trimmed, h.config_eq]
  change _ ≤ ((trim (config.policy.start (.source call.write call.source) call.now)
    (limiter.queue (.source call.write call.source))).length : Int) ∨
    _ ≤ ((trim (config.policy.start (.all call.write) call.now)
      (limiter.queue (.all call.write))).length : Int) ↔ _
  rw [hsource, hall, Policy.HasRoom, Asked.event, List.forall_mem_cons, List.forall_mem_singleton,
    not_and_or, not_lt, not_lt]
  rfl

/-- A call keeps the queues as good as the list. -/
theorem Stands.allow (hsub : ∀ window : T, Monotone fun now => now - window)
    {config : RateLimitConfig T} {future later : T → Prop} {limiter : WindowLimiter T}
    {log : List (Event Queue T)} (h : Stands config future limiter log) {call : Asked T}
    (hnow : future call.now) (hlater : ∀ now, later now → future now ∧ call.now ≤ now) :
    Stands config later (limiter.allow call.source call.write call.now).2
      (config.policy.push log call.event) := by
  have hstart : ∀ queue, Monotone (config.policy.start queue) := fun queue => hsub _
  have hkeeps : ∀ queue, Keeps (config.policy.start queue) later (limiter.queue queue)
      (timesOf log queue) := fun queue =>
    (h.keeps queue).mono fun now hafter => (hlater now hafter).1
  have htrimmed : ∀ queue ∈ call.event.classes, Keeps (config.policy.start queue) later
      (limiter.trimmed queue call.now) (timesOf log queue) := by
    intro queue hqueue
    rw [WindowLimiter.trimmed, h.config_eq]
    exact (hkeeps queue).trim (hstart queue) fun now hafter => (hlater now hafter).2
  by_cases hroom : config.policy.HasRoom log call.event
  · have hfull : ¬ limiter.IsFull call.source call.write call.now := fun hfull =>
      (h.isFull_iff hnow).mp hfull hroom
    rw [Policy.push, if_pos hroom]
    refine ⟨(config_allow ..).trans h.config_eq, fun queue => ?_, ?_, ?_⟩
    · rw [queue_allow, timesOf_concat, if_neg hfull]
      split
      · rename_i hqueue
        exact (htrimmed queue hqueue).append call.now
      · rw [List.append_nil]
        exact hkeeps queue
    · refine List.pairwise_append.mpr ⟨h.sorted, List.pairwise_singleton _ _, ?_⟩
      intro event hmem other hother
      rw [List.mem_singleton.mp hother]
      exact h.past event hmem call.now hnow
    · intro event hmem now hafter
      rcases List.mem_append.mp hmem with hmem | hmem
      · exact h.past event hmem now (hlater now hafter).1
      · rw [List.mem_singleton.mp hmem]
        exact (hlater now hafter).2
  · have hfull : limiter.IsFull call.source call.write call.now := (h.isFull_iff hnow).mpr hroom
    rw [Policy.push, if_neg hroom]
    refine ⟨(config_allow ..).trans h.config_eq, fun queue => ?_, h.sorted,
      fun event hmem now hafter => h.past event hmem now (hlater now hafter).1⟩
    rw [queue_allow, if_pos hfull, List.append_nil]
    split
    · rename_i hqueue
      exact htrimmed queue hqueue
    · exact hkeeps queue

/-! ## Runs -/

omit [LinearOrder T] [Sub T] in
theorem map_event_concat (calls : List (Asked T)) (call : Asked T) :
    (calls ++ [call]).map Asked.event = calls.map Asked.event ++ [call.event] :=
  List.map_append

theorem after_concat (limiter : WindowLimiter T) (calls : List (Asked T)) (call : Asked T) :
    limiter.after (calls ++ [call]) =
      ((limiter.after calls).allow call.source call.write call.now).2 :=
  List.foldl_append

theorem decisions_concat (limiter : WindowLimiter T) (calls : List (Asked T)) (call : Asked T) :
    limiter.decisions (calls ++ [call]) = limiter.decisions calls ++
      [((limiter.after calls).allow call.source call.write call.now).1] := by
  induction calls generalizing limiter with
  | nil => rfl
  | cons first calls ih =>
      rw [List.cons_append, WindowLimiter.decisions, WindowLimiter.decisions, ih]
      rfl

theorem length_decisions (limiter : WindowLimiter T) (calls : List (Asked T)) :
    (limiter.decisions calls).length = calls.length := by
  induction calls generalizing limiter with
  | nil => rfl
  | cons call calls ih => rw [WindowLimiter.decisions, List.length_cons, ih, List.length_cons]

theorem accepted_concat (limiter : WindowLimiter T) (calls : List (Asked T)) (call : Asked T) :
    limiter.accepted (calls ++ [call]) = limiter.accepted calls ++
      (if (limiter.after calls).IsFull call.source call.write call.now then [] else [call]) := by
  rw [WindowLimiter.accepted, decisions_concat,
    List.zip_append (length_decisions limiter calls).symm, List.filter_append, List.map_append,
    WindowLimiter.accepted]
  congr 1
  by_cases hfull : (limiter.after calls).IsFull call.source call.write call.now
  · simp [WindowLimiter.allow, hfull]
  · simp [WindowLimiter.allow, hfull]

/-- After some calls the queues are as good as the list of the accepted ones. -/
theorem stands_after (hsub : ∀ window : T, Monotone fun now => now - window)
    (config : RateLimitConfig T) {calls : List (Asked T)}
    (hclock : calls.Pairwise fun call later => call.now ≤ later.now) :
    Stands config (fun now => ∀ call ∈ calls, call.now ≤ now)
        (WindowLimiter.after { config := config } calls)
        (config.policy.pushAll (calls.map Asked.event)) ∧
      (WindowLimiter.accepted { config := config } calls).map Asked.event =
        config.policy.pushAll (calls.map Asked.event) := by
  induction calls using List.reverseRecOn with
  | nil => exact ⟨Stands.new config _, rfl⟩
  | append_singleton calls call ih =>
      obtain ⟨hbefore, -, hlast⟩ := List.pairwise_append.mp hclock
      obtain ⟨hstands, haccepted⟩ := ih hbefore
      have hnow : ∀ other ∈ calls, other.now ≤ call.now := fun other hmem =>
        hlast other hmem call List.mem_cons_self
      rw [map_event_concat, pushAll_concat, after_concat, accepted_concat, List.map_append,
        haccepted]
      constructor
      · apply hstands.allow hsub hnow
        intro now hafter
        exact ⟨fun other hmem => hafter other (List.mem_append_left _ hmem),
          hafter call (List.mem_append_right _ List.mem_cons_self)⟩
      · rw [Policy.push]
        by_cases hroom : config.policy.HasRoom (config.policy.pushAll (calls.map Asked.event))
            call.event
        · rw [if_pos hroom, if_neg fun hfull => (hstands.isFull_iff hnow).mp hfull hroom]
          rfl
        · rw [if_neg hroom, if_pos ((hstands.isFull_iff hnow).mpr hroom), List.map_nil,
            List.append_nil]

/-- Limiters that stand for one list decide the same from then on. -/
theorem Stands.decisions_eq (hsub : ∀ window : T, Monotone fun now => now - window)
    {config : RateLimitConfig T} {calls : List (Asked T)}
    (hclock : calls.Pairwise fun call later => call.now ≤ later.now) {future : T → Prop}
    {limiter other : WindowLimiter T} {log : List (Event Queue T)}
    (h : Stands config future limiter log) (hother : Stands config future other log)
    (hcalls : ∀ call ∈ calls, future call.now) :
    limiter.decisions calls = other.decisions calls := by
  induction calls generalizing future limiter other log with
  | nil => rfl
  | cons call calls ih =>
      obtain ⟨hfirst, hrest⟩ := List.pairwise_cons.mp hclock
      have hnow : future call.now := hcalls call List.mem_cons_self
      have hlater : ∀ now, (future now ∧ call.now ≤ now) → future now ∧ call.now ≤ now :=
        fun now hafter => hafter
      have hsame : limiter.IsFull call.source call.write call.now ↔
          other.IsFull call.source call.write call.now :=
        (h.isFull_iff hnow).trans (hother.isFull_iff hnow).symm
      rw [WindowLimiter.decisions, WindowLimiter.decisions]
      congr 1
      · simp only [WindowLimiter.allow, hsame]
      · exact ih hrest (h.allow hsub hnow hlater) (hother.allow hsub hnow hlater)
          fun later hmem => ⟨hcalls later (List.mem_cons_of_mem _ hmem), hfirst later hmem⟩

/-! ## Limits over every window -/

/-- The calls of one kind in the window that ends at an instant. -/
def RateLimitConfig.recent (config : RateLimitConfig T) (write : Bool) (calls : List (Asked T))
    (now : T) : List (Asked T) :=
  calls.filter fun call =>
    call.write = write ∧ now - config.window write < call.now ∧ call.now ≤ now

/-- Those of one source among them. -/
def RateLimitConfig.recentOf (config : RateLimitConfig T) (write : Bool) (source : String)
    (calls : List (Asked T)) (now : T) : List (Asked T) :=
  (config.recent write calls now).filter fun call => call.source = source

theorem length_window_all (config : RateLimitConfig T) (write : Bool) (calls : List (Asked T))
    (now : T) : (config.policy.window (calls.map Asked.event) (.all write) now).length =
      (config.recent write calls now).length := by
  rw [Policy.window, List.filter_map, List.length_map, RateLimitConfig.recent]
  congr 1
  apply List.filter_congr
  intro call _
  simp [Asked.event, RateLimitConfig.policy, Queue.write, eq_comm]

theorem length_window_source (config : RateLimitConfig T) (write : Bool) (source : String)
    (calls : List (Asked T)) (now : T) :
    (config.policy.window (calls.map Asked.event) (.source write source) now).length =
      (config.recentOf write source calls now).length := by
  rw [Policy.window, List.filter_map, List.length_map, RateLimitConfig.recentOf,
    RateLimitConfig.recent, List.filter_filter]
  congr 1
  apply List.filter_congr
  intro call _
  by_cases hsource : call.source = source
  · simp [Asked.event, RateLimitConfig.policy, Queue.write, eq_comm, hsource]
  · simp [Asked.event, RateLimitConfig.policy, Queue.write, Ne.symm hsource, hsource]

/-- The limits hold over every window, a refused call changes no later decision, and a call is
refused only when a limit is reached in the window that ends with it. -/
theorem rate_limits_hold (hsub : ∀ window : T, Monotone fun now => now - window)
    (config : RateLimitConfig T) (calls : List (Asked T))
    (hclock : calls.Pairwise fun call later => call.now ≤ later.now) :
    (∀ write source now,
      ((config.recentOf write source (WindowLimiter.accepted { config := config } calls)
        now).length : Int) ≤ max 0 (config.sourceLimit write)) ∧
    (∀ write now,
      ((config.recent write (WindowLimiter.accepted { config := config } calls) now).length :
        Int) ≤ max 0 (config.globalLimit write)) ∧
    ∀ before call after, calls = before ++ call :: after →
      let limiter := WindowLimiter.after { config := config } before
      let answer := limiter.allow call.source call.write call.now
      answer.1 = false →
        answer.2.decisions after = limiter.decisions after ∧
        let accepted := WindowLimiter.accepted { config := config } before
        (config.sourceLimit call.write ≤
            (config.recentOf call.write call.source accepted call.now).length ∨
          config.globalLimit call.write ≤
            (config.recent call.write accepted call.now).length) := by
  have hstart : ∀ queue, Monotone (config.policy.start queue) := fun queue => hsub _
  have hevents : (calls.map Asked.event).Pairwise fun e f => e.time ≤ f.time :=
    List.pairwise_map.mpr hclock
  have hwindows := length_window_le hstart hevents
  rw [← (stands_after hsub config hclock).2] at hwindows
  refine ⟨fun write source now => ?_, fun write now => ?_, ?_⟩
  · rw [← length_window_source]
    exact hwindows (.source write source) now
  · rw [← length_window_all]
    exact hwindows (.all write) now
  · rintro before call after rfl limiter answer hrefused
    obtain ⟨hbefore, hafter, hbetween⟩ := List.pairwise_append.mp hclock
    obtain ⟨hstands, haccepted⟩ := stands_after hsub config hbefore
    obtain ⟨hfirst, hrest⟩ := List.pairwise_cons.mp hafter
    have hnow : ∀ other ∈ before, other.now ≤ call.now := fun other hmem =>
      hbetween other hmem call List.mem_cons_self
    have hfull : limiter.IsFull call.source call.write call.now := by
      simpa [answer, WindowLimiter.allow] using hrefused
    have hroom := (hstands.isFull_iff hnow).mp hfull
    constructor
    · have hnext : Stands config (fun now => (∀ other ∈ before, other.now ≤ now) ∧ call.now ≤ now)
          answer.2 (config.policy.push (config.policy.pushAll (before.map Asked.event)) call.event) :=
        hstands.allow hsub hnow fun now hlater => hlater
      rw [Policy.push, if_neg hroom] at hnext
      exact hnext.decisions_eq hsub hrest (hstands.mono fun now hlater => hlater.1)
        fun later hmem => ⟨fun other hother => hbetween other hother later
          (List.mem_cons_of_mem _ hmem), hfirst later hmem⟩
    · intro accepted
      rw [Policy.HasRoom, Asked.event, List.forall_mem_cons, List.forall_mem_singleton,
        not_and_or, not_lt, not_lt, ← haccepted] at hroom
      rw [← length_window_source, ← length_window_all]
      exact hroom

end Refinement

/-- Seven writes of one source at one instant, of which the default limits accept six. -/
theorem burst_within_limits :
    (((RateLimitConfig.default (T := Int)).recentOf true "203.0.113.7"
      (WindowLimiter.accepted { config := .default }
        (List.replicate 7 ⟨"203.0.113.7", true, 0⟩)) 0).length : Int) ≤ 6 :=
  (rate_limits_hold (fun window _ _ h => Int.sub_le_sub_right h window) .default
    (List.replicate 7 ⟨"203.0.113.7", true, 0⟩)
    (List.pairwise_replicate.mpr (Or.inr le_rfl))).1 true "203.0.113.7" 0

/-- Under a limit below zero no call is accepted, and none is more than the limit. -/
theorem negative_limit_exceeded :
    ¬ ∀ (config : RateLimitConfig Int) (calls : List (Asked Int)),
      (calls.Pairwise fun call later => call.now ≤ later.now) → ∀ write source now,
        ((config.recentOf write source (WindowLimiter.accepted { config := config } calls)
          now).length : Int) ≤ config.sourceLimit write := by
  intro h
  have hempty := h { RateLimitConfig.default with sourceWrites := -1 } [] List.Pairwise.nil
    true "203.0.113.7" 0
  exact absurd hempty (by decide)

end MncsCommons.PublicNode
