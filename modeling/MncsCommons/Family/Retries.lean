/-
# The retry window

The native law that spaces out repeated attempts at a repair: the base delay,
doubled for every further failure, saturating at a cap.  The kernel computes it
with a fixed ladder of 64 guarded doublings over unsigned 64-bit integers whose
additions trap on overflow, and `select` evaluates both of its branches.

What is shown is that the ladder computes `min limit (base * 2 ^ (attempts - 1))`
over the unbounded naturals and that no addition on the way traps.
-/

import Mathlib.Algebra.Group.Nat.Defs
import Mathlib.Order.Lattice
import Mathlib.Tactic.Set
import Mathlib.Tactic.SplitIfs

namespace MncsCommons.Family

/-! ## Saturation -/

/-- A value that agrees with another one up to a cap, doubled only below the cap,
agrees with the double of the other one. -/
theorem min_double_of_min_eq {limit value exact : Nat} (h : min limit value = min limit exact) :
    min limit (if value < limit then value + value else value) = min limit (exact * 2) := by
  by_cases below : value < limit
  · have same : value = exact := by omega
    rw [if_pos below, same, Nat.mul_two]
  · rw [if_neg below]
    omega

/-- Under a cap a factor may be capped first. -/
theorem min_mul_min_pos (limit base : Nat) {factor : Nat} (h : 0 < factor) :
    min limit (min limit base * factor) = min limit (base * factor) := by
  rcases Nat.le_total limit base with capped | under
  · rw [min_eq_left capped]
    have first : limit ≤ limit * factor := Nat.le_mul_of_pos_right _ h
    have second : limit * factor ≤ base * factor := Nat.mul_le_mul_right _ capped
    omega
  · rw [min_eq_right under]

/-- Past 64 doublings every positive base is over a cap that fits in 64 bits. -/
theorem min_mul_two_pow_saturates {limit base count : Nat} (hlimit : limit < 2 ^ 64)
    (hcount : 64 ≤ count) : min limit (base * 2 ^ count) = min limit (base * 2 ^ 64) := by
  rcases Nat.eq_zero_or_pos base with rfl | hbase
  · rw [Nat.zero_mul, Nat.zero_mul]
  · have covers : ∀ n, 64 ≤ n → limit ≤ base * 2 ^ n := fun n hn =>
      calc
        limit ≤ 2 ^ 64 := hlimit.le
        _ ≤ 2 ^ n := Nat.pow_le_pow_right (by decide) hn
        _ ≤ base * 2 ^ n := Nat.le_mul_of_pos_left _ hbase
    rw [min_eq_left (covers count hcount), min_eq_left (covers 64 le_rfl)]

/-! ## The kernel's law -/

/-- `+` of the kernel: it traps when the sum has no 64-bit value. -/
def checkedAdd (left right : UInt64) : Option UInt64 :=
  if left.toNat + right.toNat < 2 ^ 64 then some (left + right) else none

theorem checkedAdd_of_lt (left right : UInt64) (h : left.toNat + right.toNat < 2 ^ 64) :
    checkedAdd left right = some (left + right) ∧
      (left + right).toNat = left.toNat + right.toNat := by
  refine ⟨if_pos h, ?_⟩
  rw [UInt64.toNat_add, Nat.mod_eq_of_lt h]

/-- The cap of the window: the given one, clamped to `2 ^ 32 - 1`. -/
def retryLimit (maxDelaySecs : UInt64) : UInt64 :=
  if maxDelaySecs > 4294967295 then 4294967295 else maxDelaySecs

/-- One pass of the ladder. Both branches of the `select` are evaluated. -/
def retryPass (limit attempts : UInt64) (d : UInt64) (i : Nat) : Option UInt64 := do
  let count ← checkedAdd (UInt64.ofNat i) 1
  let live := count < attempts && i < 64
  let doubled ← checkedAdd d d
  some (if live && d < limit then doubled else d)

/-- The ladder over its first `passes` slots. -/
def retryWindow (limit attempts start : UInt64) (passes : Nat) : Option UInt64 :=
  (List.range passes).foldlM (retryPass limit attempts) start

/-- `retry_delay_secs`; none where an addition traps. -/
def retryDelaySecs (baseDelaySecs maxDelaySecs attempts : UInt64) : Option UInt64 :=
  if attempts = 0 then some 0
  else do
    let limit := retryLimit maxDelaySecs
    let start := if baseDelaySecs > limit then limit else baseDelaySecs
    let d ← retryWindow limit attempts start 64
    if d > limit then some limit else some d

/-- `retry_eligible`. -/
def retryEligible (baseDelaySecs maxDelaySecs attempts elapsedSecs : UInt64) : Option Bool :=
  (retryDelaySecs baseDelaySecs maxDelaySecs attempts).map fun delay => decide (elapsedSecs ≥ delay)

inductive RetryVerdict where
  | attempt | suppress
  deriving DecidableEq, Repr

/-- `retry_verdict`. -/
def retryVerdict (baseDelaySecs maxDelaySecs attempts elapsedSecs : UInt64) : Option RetryVerdict :=
  (retryEligible baseDelaySecs maxDelaySecs attempts elapsedSecs).map fun eligible =>
    if eligible then .attempt else .suppress

/-! ## The ladder -/

theorem toNat_retryLimit (maxDelaySecs : UInt64) :
    (retryLimit maxDelaySecs).toNat = min maxDelaySecs.toNat (2 ^ 32 - 1) := by
  unfold retryLimit
  split
  · rename_i h
    have : (4294967295 : UInt64).toNat < maxDelaySecs.toNat := UInt64.lt_iff_toNat_lt.mp h
    simp only [UInt64.reduceToNat] at this ⊢
    omega
  · rename_i h
    have : maxDelaySecs.toNat ≤ (4294967295 : UInt64).toNat :=
      Nat.le_of_not_lt fun hlt => h (UInt64.lt_iff_toNat_lt.mpr hlt)
    simp only [UInt64.reduceToNat] at this
    omega

/-- What a pass does, as long as the window is at most twice the cap. -/
theorem retryPass_spec {limit d : UInt64} (attempts : UInt64) {i : Nat} (hlimit : limit.toNat < 2 ^ 32)
    (hd : d.toNat ≤ 2 * limit.toNat) (hi : i < 64) :
    ∃ after, retryPass limit attempts d i = some after ∧
      after.toNat = if i + 1 < attempts.toNat ∧ d.toNat < limit.toNat then d.toNat + d.toNat
        else d.toNat := by
  have index : (UInt64.ofNat i).toNat = i := by
    rw [UInt64.toNat_ofNat']
    omega
  obtain ⟨hcount, count⟩ := checkedAdd_of_lt (UInt64.ofNat i) 1
    (by rw [index]; simp only [UInt64.reduceToNat]; omega)
  obtain ⟨hdoubled, doubled⟩ := checkedAdd_of_lt d d (by omega)
  have live : (decide (UInt64.ofNat i + 1 < attempts) && decide (i < 64) && decide (d < limit)) =
      decide (i + 1 < attempts.toNat ∧ d.toNat < limit.toNat) := by
    rw [index] at count
    simp only [UInt64.lt_iff_toNat_lt, count, hi, UInt64.reduceToNat]
    simp
  refine ⟨_, by rw [retryPass, hcount, Option.bind_eq_bind, Option.bind_some, hdoubled]; rfl, ?_⟩
  rw [live]
  split <;> simp_all

/-- After some passes the window agrees up to the cap with the exact doubling, and it is at
most one doubling over the cap. -/
theorem retryWindow_spec {limit start : UInt64} (attempts : UInt64) (hlimit : limit.toNat < 2 ^ 32)
    (hstart : start.toNat ≤ limit.toNat) (passes : Nat) (hpasses : passes ≤ 64) :
    ∃ d, retryWindow limit attempts start passes = some d ∧ d.toNat ≤ 2 * limit.toNat ∧
      min limit.toNat d.toNat =
        min limit.toNat (start.toNat * 2 ^ min passes (attempts.toNat - 1)) := by
  induction passes with
  | zero =>
      refine ⟨start, rfl, by omega, ?_⟩
      rw [Nat.zero_min, Nat.pow_zero, Nat.mul_one]
  | succ passes ih =>
      obtain ⟨d, hd, hle, hmin⟩ := ih (by omega)
      obtain ⟨after, hafter, hvalue⟩ := retryPass_spec attempts hlimit hle hpasses
      have run : retryWindow limit attempts start (passes + 1) = some after := by
        rw [retryWindow, List.range_succ, List.foldlM_append]
        rw [retryWindow] at hd
        rw [hd]
        simpa using hafter
      refine ⟨after, run, ?_, ?_⟩
      · rw [hvalue]
        split_ifs <;> omega
      · by_cases live : passes + 1 < attempts.toNat
        · -- one more doubling on either side
          have exponent : min (passes + 1) (attempts.toNat - 1) = min passes (attempts.toNat - 1) + 1 := by
            omega
          rw [hvalue, exponent, Nat.pow_succ, ← Nat.mul_assoc]
          simpa only [live, true_and] using min_double_of_min_eq hmin
        · -- the ladder is over: neither side moves
          have exponent : min (passes + 1) (attempts.toNat - 1) = min passes (attempts.toNat - 1) := by
            omega
          rw [hvalue, exponent, if_neg (fun h => live h.1), hmin]

/-! ## The window -/

/-- The window over the unbounded naturals. -/
def exactDelay (base cap attempts : Nat) : Nat :=
  if attempts = 0 then 0 else min (min cap (2 ^ 32 - 1)) (base * 2 ^ (attempts - 1))

theorem exactDelay_mono (base cap : Nat) {fewer more : Nat} (h : fewer ≤ more) :
    exactDelay base cap fewer ≤ exactDelay base cap more := by
  unfold exactDelay
  by_cases none : fewer = 0
  · rw [if_pos none]
    exact Nat.zero_le _
  · rw [if_neg none, if_neg (by omega)]
    have grows : base * 2 ^ (fewer - 1) ≤ base * 2 ^ (more - 1) := by
      apply Nat.mul_le_mul_left
      exact Nat.pow_le_pow_right (by decide) (by omega)
    omega

/-- The ladder never traps, and what it returns is the exact window. -/
theorem exists_retryDelaySecs (baseDelaySecs maxDelaySecs attempts : UInt64) :
    ∃ delay, retryDelaySecs baseDelaySecs maxDelaySecs attempts = some delay ∧
      delay.toNat = exactDelay baseDelaySecs.toNat maxDelaySecs.toNat attempts.toNat := by
  by_cases none : attempts = 0
  · subst none
    exact ⟨0, rfl, rfl⟩
  · have some_attempt : attempts.toNat ≠ 0 := fun h => none (UInt64.toNat_inj.mp h)
    have cap := toNat_retryLimit maxDelaySecs
    set limit := retryLimit maxDelaySecs with hlimit
    set start := if baseDelaySecs > limit then limit else baseDelaySecs with hstart
    have first : start.toNat = min limit.toNat baseDelaySecs.toNat := by
      rw [hstart]
      split
      · rename_i h
        have := UInt64.lt_iff_toNat_lt.mp h
        omega
      · rename_i h
        have : ¬ limit.toNat < baseDelaySecs.toNat := fun hlt => h (UInt64.lt_iff_toNat_lt.mpr hlt)
        omega
    have hcap : limit.toNat < 2 ^ 32 := by omega
    have hfirst : start.toNat ≤ limit.toNat := by omega
    obtain ⟨d, hd, -, hmin⟩ := retryWindow_spec attempts hcap hfirst 64 le_rfl
    have saturated : min limit.toNat (start.toNat * 2 ^ min 64 (attempts.toNat - 1)) =
        min limit.toNat (start.toNat * 2 ^ (attempts.toNat - 1)) := by
      rcases Nat.le_total (attempts.toNat - 1) 64 with few | many
      · rw [Nat.min_eq_right few]
      · rw [Nat.min_eq_left many]
        exact (min_mul_two_pow_saturates (by omega) many).symm
    have clamped : min limit.toNat (start.toNat * 2 ^ (attempts.toNat - 1)) =
        min limit.toNat (baseDelaySecs.toNat * 2 ^ (attempts.toNat - 1)) := by
      rw [first]
      exact min_mul_min_pos _ _ (Nat.two_pow_pos _)
    refine ⟨if d > limit then limit else d, ?_, ?_⟩
    · rw [retryDelaySecs, if_neg none]
      show (retryWindow limit attempts start 64).bind _ = _
      rw [hd, Option.bind_some]
      split <;> rfl
    · rw [exactDelay, if_neg some_attempt, ← cap, ← clamped, ← saturated, ← hmin]
      split
      · rename_i h
        have := UInt64.lt_iff_toNat_lt.mp h
        omega
      · rename_i h
        have : ¬ limit.toNat < d.toNat := fun hlt => h (UInt64.lt_iff_toNat_lt.mpr hlt)
        omega

/-- The window is the exact one and never traps, it does not shrink with further failures, and
an attempt is eligible exactly when the elapsed time has reached it. -/
theorem retry_window_exact (baseDelaySecs maxDelaySecs attempts : UInt64) :
    ∃ delay, retryDelaySecs baseDelaySecs maxDelaySecs attempts = some delay ∧
      delay.toNat = (if attempts.toNat = 0 then 0
        else min (min maxDelaySecs.toNat (2 ^ 32 - 1))
          (baseDelaySecs.toNat * 2 ^ (attempts.toNat - 1))) ∧
      (∀ more ≥ attempts, ∃ later,
        retryDelaySecs baseDelaySecs maxDelaySecs more = some later ∧ delay ≤ later) ∧
      ∀ elapsedSecs, retryEligible baseDelaySecs maxDelaySecs attempts elapsedSecs =
        some (decide (delay ≤ elapsedSecs)) := by
  obtain ⟨delay, hdelay, exact_delay⟩ :=
    exists_retryDelaySecs baseDelaySecs maxDelaySecs attempts
  refine ⟨delay, hdelay, exact_delay, ?_, ?_⟩
  · intro more hmore
    obtain ⟨later, hlater, exact_later⟩ := exists_retryDelaySecs baseDelaySecs maxDelaySecs more
    refine ⟨later, hlater, ?_⟩
    rw [UInt64.le_iff_toNat_le, exact_delay, exact_later]
    exact exactDelay_mono _ _ (UInt64.le_iff_toNat_le.mp hmore)
  · intro elapsedSecs
    rw [retryEligible, hdelay]
    rfl

/-- A verdict is always given, and it lets an attempt through from the exact window on. -/
theorem retryVerdict_eq (baseDelaySecs maxDelaySecs attempts elapsedSecs : UInt64) :
    retryVerdict baseDelaySecs maxDelaySecs attempts elapsedSecs =
      some (if exactDelay baseDelaySecs.toNat maxDelaySecs.toNat attempts.toNat ≤
        elapsedSecs.toNat then .attempt else .suppress) := by
  obtain ⟨delay, hdelay, exact_delay⟩ :=
    exists_retryDelaySecs baseDelaySecs maxDelaySecs attempts
  rw [retryVerdict, retryEligible, hdelay, ← exact_delay]
  simp [UInt64.le_iff_toNat_le]

/-- Zero bases stay at zero however many attempts failed, and a base over the cap is cut to it. -/
example : retryDelaySecs 0 300 100 = some 0 ∧ retryDelaySecs 500 300 1 = some 300 ∧
    retryDelaySecs 5 300 4 = some 40 := by decide

end MncsCommons.Family
