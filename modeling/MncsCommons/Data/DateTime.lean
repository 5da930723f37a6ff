/-
# ISO-8601 timestamps

`fromIsoFormat` reads a date, or a date and a time with an optional offset, in
the formats `datetime.fromisoformat` documents: calendar and week dates, basic
and extended times, fractions of a second, and offsets of less than a day.

A timestamp is the number of microseconds of its local date and time since the
start of year 1, with its offset from UTC when it has one.  Converting it to
UTC can leave the range of years 1 to 9999, which is an overflow.
-/

import MncsCommons.Data.Json
import Mathlib.Tactic.IntervalCases
import Mathlib.Tactic.Positivity

namespace MncsCommons.Data

/-- A local date and time with an optional offset, both in microseconds. -/
structure DateTime where
  /-- Microseconds since 0001-01-01T00:00:00, local. -/
  micros : Int
  /-- Offset from UTC. -/
  offset : Option Int
  deriving DecidableEq

namespace DateTime

def microsPerSecond : Int := 1000000

def microsPerDay : Int := 86400 * microsPerSecond

/-- The microseconds of the years 1 to 9999. -/
def maxMicros : Int := 3652059 * microsPerDay

def isLeap (year : Nat) : Bool := year % 4 = 0 && (year % 100 ≠ 0 || year % 400 = 0)

def daysInMonth (year month : Nat) : Nat :=
  match month with
  | 1 | 3 | 5 | 7 | 8 | 10 | 12 => 31
  | 4 | 6 | 9 | 11 => 30
  | 2 => if isLeap year then 29 else 28
  | _ => 0

/-- Days before a year, counted from the start of year 1. -/
def daysBeforeYear (year : Nat) : Nat :=
  let y := year - 1
  y * 365 + y / 4 - y / 100 + y / 400

/-- Days before a month of a year. -/
def daysBeforeMonth (year month : Nat) : Nat :=
  ((List.range (month - 1)).map fun m => daysInMonth year (m + 1)).sum

/-- The day number of a date, 1 for 0001-01-01. -/
def toOrdinal (year month day : Nat) : Nat :=
  daysBeforeYear year + daysBeforeMonth year month + day

/-- The day number of the Monday that starts ISO week 1 of a year. -/
def isoWeekOneMonday (year : Nat) : Int :=
  let first : Int := toOrdinal year 1 1
  let weekday := (first + 6) % 7
  if weekday > 3 then first - weekday + 7 else first - weekday

/-- The day number of a calendar date that exists. -/
def calendarDate (year month day : Nat) : Option Int :=
  if 1 ≤ year ∧ year ≤ 9999 ∧ 1 ≤ month ∧ month ≤ 12 ∧ 1 ≤ day ∧ day ≤ daysInMonth year month then
    some (toOrdinal year month day)
  else none

/-- The day number of an ISO week date that exists. -/
def weekDate (year week day : Nat) : Option Int :=
  let monday := isoWeekOneMonday year
  let weeks := (isoWeekOneMonday (year + 1) - monday) / 7
  let ordinal := monday + 7 * ((week : Int) - 1) + ((day : Int) - 1)
  if 1 ≤ year ∧ year ≤ 9999 ∧ 1 ≤ week ∧ (week : Int) ≤ weeks ∧ 1 ≤ day ∧ day ≤ 7 ∧
      1 ≤ ordinal ∧ ordinal ≤ 3652059 then
    some ordinal
  else none

/-- The value of a text made of the given number of digits. -/
def digits (count : Nat) (text : Text) : Option Nat :=
  if text.length = count ∧ text.all Char.isDigit then some (natOfDigits text) else none

/-- Where the date ends in a timestamp of at least seven characters. -/
def separatorLocation (text : Text) : Option Nat :=
  if text.length = 7 then some 7
  else if text[4]? = some '-' then
    if text[5]? = some 'W' then
      if text[8]? = some '-' then
        if text.length = 9 then none
        else if text.length > 10 ∧ (text[10]?.any Char.isDigit) then some 8
        else some 10
      else some 8
    else some 10
  else if text[4]? = some 'W' then
    let index := 7 + ((text.drop 7).takeWhile Char.isDigit).length
    if index < 9 then some index
    else if index % 2 = 0 then some 7
    else some 8
  else some 8

/-- The day number of the date part. -/
def parseDate (text : Text) : Option Int := do
  let year ← digits 4 (text.take 4)
  let hasSeparator : Bool := text[4]? = some '-'
  let rest := text.drop (if hasSeparator then 5 else 4)
  if rest.head? = some 'W' then
    let week ← digits 2 ((rest.drop 1).take 2)
    let rest := rest.drop 3
    if rest = [] then weekDate year week 1
    else if (rest.head? = some '-') ≠ (hasSeparator = true) then none
    else
      let day ← digits 1 (if hasSeparator then rest.drop 1 else rest)
      weekDate year week day
  else
    let month ← digits 2 (rest.take 2)
    let rest := rest.drop 2
    if (rest.head? = some '-') ≠ (hasSeparator = true) then none
    else
      let day ← digits 2 (if hasSeparator then rest.drop 1 else rest)
      calendarDate year month day

/-- A fraction of a second in microseconds; digits past the sixth are dropped. -/
def parseFraction (text : Text) : Option Nat :=
  match text with
  | [] => some 0
  | mark :: fraction =>
      if (mark = '.' ∨ mark = ',') ∧ fraction ≠ [] ∧ fraction.all Char.isDigit then
        let kept := fraction.take 6
        some (natOfDigits kept * 10 ^ (6 - kept.length))
      else none

/-- Hours, minutes, seconds and microseconds of `HH[:?MM[:?SS[.fff]]]`. -/
def parseClock (text : Text) : Option (Nat × Nat × Nat × Nat) := do
  let hour ← digits 2 (text.take 2)
  let rest := text.drop 2
  if rest = [] then some (hour, 0, 0, 0)
  else
    let hasSeparator : Bool := rest.head? = some ':'
    let rest := if hasSeparator then rest.drop 1 else rest
    let minute ← digits 2 (rest.take 2)
    let rest := rest.drop 2
    if rest = [] then some (hour, minute, 0, 0)
    else if hasSeparator ∧ rest.head? ≠ some ':' then none
    else
      let rest := if hasSeparator then rest.drop 1 else rest
      let second ← digits 2 (rest.take 2)
      let micro ← parseFraction (rest.drop 2)
      some (hour, minute, second, micro)

def clockMicros : Nat × Nat × Nat × Nat → Int
  | (hour, minute, second, micro) =>
      ((hour * 3600 + minute * 60 + second : Nat) : Int) * microsPerSecond + micro

/-- Where the offset starts: the first minus sign, else the first plus sign,
else the first `Z`. -/
def offsetLocation (text : Text) : Option Nat :=
  (text.findIdx? (· = '-')).or ((text.findIdx? (· = '+')).or (text.findIdx? (· = 'Z')))

/-- The offset after its sign. -/
def parseOffset (sign : Char) (text : Text) : Option Int :=
  if sign = 'Z' then if text = [] then some 0 else none
  else if text.length = 0 ∨ text.length = 1 ∨ text.length = 3 then none
  else do
    let clock ← parseClock text
    let micros := clockMicros clock
    if microsPerDay ≤ micros then none
    else some (if sign = '-' then -micros else micros)

/-- The time of day and the offset. -/
def parseTime (text : Text) : Option (Int × Option Int) :=
  if text.length < 2 then none
  else do
    let (clockText, offset) ← match offsetLocation text with
      | none => some (text, none)
      | some index => do
          let offset ← parseOffset (text[index]?.getD 'Z') (text.drop (index + 1))
          some (text.take index, some offset)
    let (hour, minute, second, micro) ← parseClock clockText
    if 23 < hour ∨ 59 < minute ∨ 59 < second then none
    else some (clockMicros (hour, minute, second, micro), offset)

/-- `datetime.fromisoformat`; `none` where it raises a `ValueError`. -/
def fromIsoFormat (text : Text) : Option DateTime :=
  if text.length < 7 then none
  else do
    let location ← separatorLocation text
    let ordinal ← parseDate (text.take location)
    let day := (ordinal - 1) * microsPerDay
    let timeText := text.drop (location + 1)
    if timeText = [] then some ⟨day, none⟩
    else
      let (time, offset) ← parseTime timeText
      some ⟨day + time, offset⟩

/-- The instant in UTC, taking a missing offset as UTC; `none` where the
conversion overflows. -/
def toUtc (value : DateTime) : Option Int :=
  let micros := value.micros - value.offset.getD 0
  if 0 ≤ micros ∧ micros < maxMicros then some micros else none

/-- The whole days from one instant to another, towards minus infinity. -/
def daysBetween (first second : Int) : Int := (second - first) / microsPerDay

/-- The year of a day number. -/
def yearOfOrdinal (ordinal : Int) : Nat :=
  let guess := (ordinal * 400 / 146097).toNat
  if (daysBeforeYear (guess + 2) : Int) < ordinal then guess + 2
  else if (daysBeforeYear (guess + 1) : Int) < ordinal then guess + 1
  else guess

/-- The decimal digits of a number, filled with zeros to a width. -/
def padded (width n : Nat) : Text :=
  List.replicate (width - (Nat.toDigits 10 n).length) '0' ++ Nat.toDigits 10 n

/-- `isoformat` of an instant in UTC, with `Z` for its offset. -/
def isoFormat (micros : Int) : String :=
  let ordinal := micros / microsPerDay + 1
  let year := yearOfOrdinal ordinal
  let dayOfYear := (ordinal - daysBeforeYear year).toNat
  let months := (List.range 12).filter fun month => daysBeforeMonth year (month + 1) < dayOfYear
  let month := months.length
  let second := (micros % microsPerDay / microsPerSecond).toNat
  let fraction := (micros % microsPerSecond).toNat
  String.ofList (padded 4 year ++ '-' :: padded 2 month ++
    '-' :: padded 2 (dayOfYear - daysBeforeMonth year month) ++ 'T' :: padded 2 (second / 3600) ++
    ':' :: padded 2 (second / 60 % 60) ++ ':' :: padded 2 (second % 60) ++
    (if fraction = 0 then [] else '.' :: padded 6 fraction) ++ ['Z'])

/-- The ISO year and week of the local date. -/
def isoCalendar (value : DateTime) : Nat × Nat :=
  let ordinal := value.micros / microsPerDay + 1
  let year := yearOfOrdinal ordinal
  let week := (ordinal - isoWeekOneMonday year) / 7
  if week < 0 then
    (year - 1, ((ordinal - isoWeekOneMonday (year - 1)) / 7).toNat + 1)
  else if 52 ≤ week ∧ isoWeekOneMonday (year + 1) ≤ ordinal then (year + 1, 1)
  else (year, week.toNat + 1)

/-! ## The range of a parsed timestamp -/

theorem natOfDigits_lt {text : Text} (h : text.all Char.isDigit = true) :
    natOfDigits text < 10 ^ text.length := by
  unfold natOfDigits
  induction text with
  | nil => simp
  | cons c text ih =>
      rw [List.all_cons, Bool.and_eq_true] at h
      have hc : c.toNat - '0'.toNat ≤ 9 := by
        have hle := (Char.isDigit_iff_toNat.mp h.1).2
        have hzero : '0'.toNat = 48 := rfl
        have hnine : '9'.toNat = 57 := rfl
        omega
      have hrest := ih h.2
      have hmul := Nat.mul_le_mul_left (10 ^ text.length) hc
      rw [Nat.ofDigitChars_cons, Nat.ofDigitChars_eq_ofDigitChars_zero, List.length_cons, pow_succ,
        Nat.mul_zero, Nat.zero_add]
      omega

theorem parseFraction_lt {text : Text} {micro : Nat} (h : parseFraction text = some micro) :
    micro < 1000000 := by
  unfold parseFraction at h
  split at h
  · simp only [Option.some_inj] at h
    omega
  · rename_i mark fraction
    split at h
    · rename_i hshape
      obtain ⟨-, -, hdigits⟩ := hshape
      simp only [Option.some_inj] at h
      have hkept : (fraction.take 6).all Char.isDigit = true := by
        rw [List.all_eq_true] at hdigits ⊢
        exact fun c hc => hdigits c (List.mem_of_mem_take hc)
      have hlt := natOfDigits_lt hkept
      have hlength : (fraction.take 6).length ≤ 6 := by
        rw [List.length_take]
        exact Nat.min_le_left ..
      calc micro = natOfDigits (fraction.take 6) * 10 ^ (6 - (fraction.take 6).length) := h.symm
        _ < 10 ^ (fraction.take 6).length * 10 ^ (6 - (fraction.take 6).length) :=
            Nat.mul_lt_mul_of_pos_right hlt (Nat.pos_of_ne_zero (by positivity))
        _ = 1000000 := by rw [← pow_add, Nat.add_sub_cancel' hlength]; rfl
    · exact absurd h (by simp)

theorem parseClock_micro_lt {text : Text} {hour minute second micro : Nat}
    (h : parseClock text = some (hour, minute, second, micro)) : micro < 1000000 := by
  have hzero : ∀ parts, some parts = some (hour, minute, second, micro) → parts.2.2.2 = 0 →
      micro < 1000000 := by
    intro parts hparts hmicro
    rw [Option.some_inj.mp hparts] at hmicro
    rw [show micro = 0 from hmicro]
    decide
  unfold parseClock at h
  obtain ⟨_, -, h⟩ := Option.bind_eq_some_iff.mp h
  dsimp only at h
  generalize List.drop 2 text = rest at h
  by_cases hend : rest = []
  · rw [if_pos hend] at h
    exact hzero _ h rfl
  · rw [if_neg hend] at h
    generalize decide (rest.head? = some ':') = hasSeparator at h
    generalize (if hasSeparator = true then List.drop 1 rest else rest) = rest at h
    obtain ⟨_, -, h⟩ := Option.bind_eq_some_iff.mp h
    generalize List.drop 2 rest = rest at h
    by_cases hend : rest = []
    · rw [if_pos hend] at h
      exact hzero _ h rfl
    · rw [if_neg hend] at h
      by_cases hseparated : hasSeparator = true ∧ rest.head? ≠ some ':'
      · rw [if_pos hseparated] at h
        exact absurd h (by simp)
      · rw [if_neg hseparated] at h
        obtain ⟨_, -, h⟩ := Option.bind_eq_some_iff.mp h
        obtain ⟨fraction, hfraction, h⟩ := Option.bind_eq_some_iff.mp h
        simp only [Option.some_inj, Prod.mk.injEq] at h
        rw [← h.2.2.2]
        exact parseFraction_lt hfraction

/-- A parsed time is a clock with the offset that is found. -/
theorem parseTime_cases {text : Text} {time : Int} {offset : Option Int}
    (h : parseTime text = some (time, offset)) :
    (0 ≤ time ∧ time < microsPerDay) ∧
      (offsetLocation text = none ∧ offset = none ∨ ∃ index zone,
        offsetLocation text = some index ∧
          parseOffset (text[index]?.getD 'Z') (text.drop (index + 1)) = some zone ∧
          offset = some zone) := by
  have hclock : ∀ (clockText : Text) (found : Option Int),
      (do
        let (hour, minute, second, micro) ← parseClock clockText
        if 23 < hour ∨ 59 < minute ∨ 59 < second then none
        else some (clockMicros (hour, minute, second, micro), found)) = some (time, offset) →
      (0 ≤ time ∧ time < microsPerDay) ∧ offset = found := by
    intro clockText found h
    obtain ⟨⟨hour, minute, second, micro⟩, hparts, h⟩ := Option.bind_eq_some_iff.mp h
    have hmicro := parseClock_micro_lt hparts
    dsimp only at h
    split at h
    · exact absurd h (by simp)
    · simp only [Option.some_inj, Prod.mk.injEq] at h
      obtain ⟨rfl, rfl⟩ := h
      have hrange : 0 ≤ clockMicros (hour, minute, second, micro) ∧
          clockMicros (hour, minute, second, micro) < microsPerDay := by
        simp only [clockMicros, microsPerDay, microsPerSecond]
        omega
      exact ⟨hrange, rfl⟩
  unfold parseTime at h
  split at h
  · exact absurd h (by simp)
  · cases hlocation : offsetLocation text with
    | none =>
        rw [hlocation] at h
        obtain ⟨htime, rfl⟩ := hclock _ _ h
        exact ⟨htime, .inl ⟨rfl, rfl⟩⟩
    | some index =>
        rw [hlocation] at h
        obtain ⟨zone, hzone, h⟩ := Option.bind_eq_some_iff.mp h
        obtain ⟨htime, rfl⟩ := hclock _ _ h
        exact ⟨htime, .inr ⟨index, zone, rfl, hzone, rfl⟩⟩

theorem daysInYear_le {year month day : Nat} (hmonth : 1 ≤ month ∧ month ≤ 12)
    (hday : day ≤ daysInMonth year month) :
    daysBeforeMonth year month + day ≤ 365 + if isLeap year then 1 else 0 := by
  obtain ⟨hlow, hhigh⟩ := hmonth
  interval_cases month <;>
    simp [daysBeforeMonth, daysInMonth, List.range_succ] at hday ⊢ <;> split at * <;> omega

/-- A calendar date is within the years 1 to 9999. -/
theorem calendarDate_range {year month day : Nat} {ordinal : Int}
    (h : calendarDate year month day = some ordinal) : 1 ≤ ordinal ∧ ordinal ≤ 3652059 := by
  unfold calendarDate at h
  split at h
  · rename_i hdate
    obtain ⟨hyear, hyearle, hmonth, hmonthle, hday, hdayle⟩ := hdate
    rw [← Option.some_inj.mp h, toOrdinal]
    have hdays := daysInYear_le ⟨hmonth, hmonthle⟩ hdayle
    have hleap : isLeap year = true → year ≤ 9998 := by
      intro hleap
      by_contra hgt
      have hlast : year = 9999 := by omega
      rw [hlast] at hleap
      exact absurd hleap (by decide)
    have hbefore : daysBeforeYear year = (year - 1) * 365 + (year - 1) / 4 - (year - 1) / 100 +
        (year - 1) / 400 := rfl
    split at hdays
    · have hle := hleap ‹_›
      omega
    · omega
  · exact absurd h (by simp)

theorem parseDate_range {text : Text} {ordinal : Int} (h : parseDate text = some ordinal) :
    1 ≤ ordinal ∧ ordinal ≤ 3652059 := by
  have hweek : ∀ year week day, weekDate year week day = some ordinal →
      1 ≤ ordinal ∧ ordinal ≤ 3652059 := by
    intro year week day h
    simp only [weekDate] at h
    split at h
    · rename_i hdate
      rw [← Option.some_inj.mp h]
      exact ⟨hdate.2.2.2.2.2.2.1, hdate.2.2.2.2.2.2.2⟩
    · exact absurd h (by simp)
  unfold parseDate at h
  obtain ⟨year, -, h⟩ := Option.bind_eq_some_iff.mp h
  dsimp only at h
  generalize decide (text[4]? = some '-') = hasSeparator at h
  generalize List.drop (if hasSeparator = true then 5 else 4) text = rest at h
  by_cases hmark : rest.head? = some 'W'
  · rw [if_pos hmark] at h
    obtain ⟨week, -, h⟩ := Option.bind_eq_some_iff.mp h
    generalize List.drop 3 rest = rest at h
    by_cases hend : rest = []
    · rw [if_pos hend] at h
      exact hweek _ _ _ h
    · rw [if_neg hend] at h
      by_cases hseparated : (rest.head? = some '-') ≠ (hasSeparator = true)
      · rw [if_pos hseparated] at h
        exact absurd h (by simp)
      · rw [if_neg hseparated] at h
        obtain ⟨day, -, h⟩ := Option.bind_eq_some_iff.mp h
        exact hweek _ _ _ h
  · rw [if_neg hmark] at h
    obtain ⟨month, -, h⟩ := Option.bind_eq_some_iff.mp h
    generalize List.drop 2 rest = rest at h
    by_cases hseparated : (rest.head? = some '-') ≠ (hasSeparator = true)
    · rw [if_pos hseparated] at h
      exact absurd h (by simp)
    · rw [if_neg hseparated] at h
      obtain ⟨day, -, h⟩ := Option.bind_eq_some_iff.mp h
      exact calendarDate_range h

/-- A parsed timestamp is within the years 1 to 9999. -/
theorem fromIsoFormat_range {text : Text} {value : DateTime} (h : fromIsoFormat text = some value) :
    0 ≤ value.micros ∧ value.micros < maxMicros := by
  unfold fromIsoFormat at h
  split at h
  · exact absurd h (by simp)
  · obtain ⟨location, -, h⟩ := Option.bind_eq_some_iff.mp h
    obtain ⟨ordinal, hdate, h⟩ := Option.bind_eq_some_iff.mp h
    obtain ⟨hlow, hhigh⟩ := parseDate_range hdate
    dsimp only at h
    split at h
    · rw [← Option.some_inj.mp h]
      simp only [microsPerDay, maxMicros, microsPerSecond]
      omega
    · obtain ⟨⟨time, offset⟩, htime, h⟩ := Option.bind_eq_some_iff.mp h
      obtain ⟨⟨hstart, hend⟩, -⟩ := parseTime_cases htime
      rw [← Option.some_inj.mp h]
      simp only [microsPerDay, maxMicros, microsPerSecond] at *
      omega

/-- A time with the offset `+00:00` and no other sign is in UTC. -/
theorem parseTime_offset {clock : Text} {time : Int} {offset : Option Int}
    (h : parseTime (clock ++ "+00:00".toList) = some (time, offset))
    (hsigns : ∀ c ∈ clock, c ≠ '-' ∧ c ≠ '+') : offset = some 0 := by
  have hminus : (clock ++ "+00:00".toList).findIdx? (· = '-') = none := by
    rw [List.findIdx?_eq_none_iff]
    intro c hc
    rcases List.mem_append.mp hc with hc | hc
    · simpa using (hsigns c hc).1
    · have hnone : ∀ c ∈ "+00:00".toList, decide (c = '-') = false := by simp
      exact hnone c hc
  have hplus : (clock ++ "+00:00".toList).findIdx? (· = '+') = some clock.length := by
    rw [List.findIdx?_append, List.findIdx?_eq_none_iff.mpr (by simpa using fun c hc => (hsigns c hc).2),
      show "+00:00".toList.findIdx? (· = '+') = some 0 by decide]
    simp
  have hlocation : offsetLocation (clock ++ "+00:00".toList) = some clock.length := by
    rw [offsetLocation, hminus, hplus]
    rfl
  have hsign : (clock ++ "+00:00".toList)[clock.length]?.getD 'Z' = '+' := by simp
  have hdrop : (clock ++ "+00:00".toList).drop (clock.length + 1) = "00:00".toList := by
    rw [List.drop_append, List.drop_eq_nil_of_le (by omega)]
    simp
  obtain ⟨hnone, -⟩ | ⟨index, zone, hindex, hzone, rfl⟩ := (parseTime_cases h).2
  · rw [hlocation] at hnone
    exact absurd hnone (by simp)
  · rw [hlocation, Option.some_inj] at hindex
    subst hindex
    rw [hsign, hdrop, show parseOffset '+' "00:00".toList = some 0 by decide] at hzone
    rw [hzone]

end DateTime

example : (DateTime.fromIsoFormat "2026-08-13T00:00:00+00:00".toList).map DateTime.isoCalendar =
    some (2026, 33) := by
  decide +kernel

example : ((DateTime.fromIsoFormat "2024-12-31T23:30:00.5-01:00".toList).bind DateTime.toUtc).map
    DateTime.isoFormat = some "2025-01-01T00:30:00.500000Z" := by
  decide +kernel

example : (DateTime.fromIsoFormat "0001-01-01T00:00:00+14:00".toList).bind DateTime.toUtc =
    none := by
  decide +kernel

end MncsCommons.Data
