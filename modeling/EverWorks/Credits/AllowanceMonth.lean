import EverWorks.Lib.IsoDate

/-!
The months that a subscription's plan credits are granted for, counted from its anchor. Instants are milliseconds of
the proleptic Gregorian calendar in UTC.
-/

namespace EverWorks.Credits
open Lib Calendar

def msPerDay : ℤ := 24 * 60 * 60 * 1000

/-- `Date.UTC` at midnight, the months counted from 0 and beyond a year. -/
def utcDay (year month day : ℤ) : ℤ := dayOf (year + month / 12) ((month % 12).toNat + 1) day

/-- Months later, on the anchor's day of the month or the last one of a shorter month, at its time of day. -/
def addMonthsClamped (anchor months : ℤ) : ℤ :=
  let date := dateOf (anchor / msPerDay)
  let month := (date.month : ℤ) - 1 + months
  let targetYear := date.year + month / 12
  let targetMonth := month % 12
  let daysInTarget := (dateOf (utcDay targetYear (targetMonth + 1) 0)).day
  let day := min date.day daysInTarget
  utcDay targetYear targetMonth day * msPerDay + anchor % msPerDay

structure AllowancePeriod where
  start : ℤ
  «end» : ℤ
  index : ℤ
deriving DecidableEq

def utcMonths (instant : ℤ) : ℤ × ℤ :=
  let date := dateOf (instant / msPerDay)
  (date.year, (date.month : ℤ) - 1)

def allowancePeriodFor (anchor now : ℤ) : AllowancePeriod :=
  let monthsBetween := ((utcMonths now).1 - (utcMonths anchor).1) * 12 + ((utcMonths now).2 - (utcMonths anchor).2)
  let guess := max 0 monthsBetween
  let index := if now < addMonthsClamped anchor guess then max 0 (guess - 1) else guess
  { start := addMonthsClamped anchor index
    «end» := addMonthsClamped anchor (index + 1)
    index }

def maxTime : ℤ := 8640000000000000

/-- The first ten characters of an instant's ISO text; there is no text beyond the latest instant or before the
earliest. -/
def periodKey (start : ℤ) : Option (List Char) :=
  if |start| ≤ maxTime then some ((IsoDate.isoDate (dateOf (start / msPerDay))).take 10) else none

/-- The months of an anchor tile the time from it on, and their keys are told apart. -/
structure MonthsTile (anchor : ℤ) : Prop where
  within : ∀ now, anchor ≤ now → 0 ≤ (allowancePeriodFor anchor now).index ∧
    (allowancePeriodFor anchor now).start ≤ now ∧ now < (allowancePeriodFor anchor now).end
  chained : ∀ now later, anchor ≤ now → anchor ≤ later →
    (allowancePeriodFor anchor later).index = (allowancePeriodFor anchor now).index + 1 →
    (allowancePeriodFor anchor now).end = (allowancePeriodFor anchor later).start
  increasing : ∀ now later, anchor ≤ now → anchor ≤ later →
    (allowancePeriodFor anchor now).index < (allowancePeriodFor anchor later).index →
    (allowancePeriodFor anchor now).start < (allowancePeriodFor anchor later).start
  reached : ∀ index : ℕ, ∃ now, anchor ≤ now ∧ allowancePeriodFor anchor now =
    ⟨addMonthsClamped anchor index, addMonthsClamped anchor (index + 1), index⟩
  once : ∀ now, anchor ≤ now → ∃! index : ℕ,
    addMonthsClamped anchor index ≤ now ∧ now < addMonthsClamped anchor (index + 1)
  keys : ∀ first second : ℕ, first ≠ second → ∀ key ∈ periodKey (addMonthsClamped anchor first),
    key ∉ periodKey (addMonthsClamped anchor second)

section
variable (anchor months : ℤ)

def anchorMonth : ℤ := monthNumber (anchor / msPerDay)

theorem msPerDay_pos : 0 < msPerDay := by decide

theorem utcDay_eq (year month day : ℤ) : utcDay year month day = monthStart (12 * year + month) + day - 1 := by
  have whole : (12 * year + month) / 12 = year + month / 12 := by omega
  have part : (12 * year + month) % 12 = month % 12 := by omega
  rw [utcDay, monthStart, whole, part, dayOf, dayOf]
  omega

def clampedDay : ℕ := min (dateOf (anchor / msPerDay)).day (monthDays (anchorMonth anchor + months))

theorem clampedDay_spec : 1 ≤ clampedDay anchor months ∧
    clampedDay anchor months ≤ monthDays (anchorMonth anchor + months) := by
  have pos := (dateOf_valid (anchor / msPerDay)).day_pos
  have days := monthDays_ge (anchorMonth anchor + months)
  rw [clampedDay]
  omega

theorem addMonthsClamped_eq : addMonthsClamped anchor months =
    (monthStart (anchorMonth anchor + months) + clampedDay anchor months - 1) * msPerDay + anchor % msPerDay := by
  have month : 12 * ((dateOf (anchor / msPerDay)).year +
      (((dateOf (anchor / msPerDay)).month : ℤ) - 1 + months) / 12) +
      (((dateOf (anchor / msPerDay)).month : ℤ) - 1 + months) % 12 = anchorMonth anchor + months := by
    rw [anchorMonth, monthNumber]
    omega
  have days : (dateOf (utcDay ((dateOf (anchor / msPerDay)).year +
      (((dateOf (anchor / msPerDay)).month : ℤ) - 1 + months) / 12)
      ((((dateOf (anchor / msPerDay)).month : ℤ) - 1 + months) % 12 + 1) 0)).day =
      monthDays (anchorMonth anchor + months) := by
    rw [utcDay_eq, ← add_assoc, month, add_zero]
    exact dateOf_monthEnd _
  rw [addMonthsClamped]
  rw [days, utcDay_eq, month, clampedDay]

theorem day_addMonthsClamped :
    addMonthsClamped anchor months / msPerDay = monthStart (anchorMonth anchor + months) + clampedDay anchor months - 1 := by
  have low := Int.emod_nonneg anchor msPerDay_pos.ne'
  have high := Int.emod_lt_of_pos anchor msPerDay_pos
  rw [addMonthsClamped_eq, Int.add_comm, Int.add_mul_ediv_right _ _ msPerDay_pos.ne', Int.ediv_eq_zero_of_lt low high,
    zero_add]

theorem monthNumber_addMonthsClamped :
    monthNumber (addMonthsClamped anchor months / msPerDay) = anchorMonth anchor + months := by
  obtain ⟨pos, le⟩ := clampedDay_spec anchor months
  rw [day_addMonthsClamped]
  refine monthNumber_eq (by omega) ?_
  rw [monthStart_succ]
  omega

theorem addMonthsClamped_zero : addMonthsClamped anchor 0 = anchor := by
  have day : clampedDay anchor 0 = (dateOf (anchor / msPerDay)).day := by
    rw [clampedDay, add_zero]
    exact min_eq_left (day_le_monthDays _)
  rw [addMonthsClamped_eq, day, add_zero, anchorMonth, monthStart_add]
  exact Int.ediv_mul_add_emod anchor msPerDay

variable {anchor months}

theorem lt_of_monthNumber_lt {early late : ℤ}
    (before : monthNumber (early / msPerDay) < monthNumber (late / msPerDay)) : early < late := by
  by_contra within
  have days := Int.ediv_le_ediv msPerDay_pos (Int.not_lt.mp within)
  exact absurd (monthNumber_mono days) (Int.not_le.mpr before)

theorem addMonthsClamped_strictMono (anchor : ℤ) : StrictMono (addMonthsClamped anchor) := by
  intro first second before
  refine lt_of_monthNumber_lt ?_
  rw [monthNumber_addMonthsClamped, monthNumber_addMonthsClamped]
  omega

theorem monthsBetween_eq (anchor now : ℤ) :
    ((utcMonths now).1 - (utcMonths anchor).1) * 12 + ((utcMonths now).2 - (utcMonths anchor).2) =
      monthNumber (now / msPerDay) - anchorMonth anchor := by
  rw [anchorMonth, monthNumber, monthNumber, utcMonths, utcMonths]
  dsimp only
  omega

theorem allowancePeriodFor_spec {now : ℤ} (after : anchor ≤ now) : ∃ index : ℕ,
    allowancePeriodFor anchor now = ⟨addMonthsClamped anchor index, addMonthsClamped anchor (index + 1), index⟩ ∧
      addMonthsClamped anchor index ≤ now ∧ now < addMonthsClamped anchor (index + 1) := by
  have nonneg : 0 ≤ monthNumber (now / msPerDay) - anchorMonth anchor := by
    have mono := monthNumber_mono (Int.ediv_le_ediv msPerDay_pos after)
    rw [anchorMonth]
    omega
  obtain ⟨guess, same⟩ := Int.eq_ofNat_of_zero_le nonneg
  have next : now < addMonthsClamped anchor ((guess : ℤ) + 1) := by
    refine lt_of_monthNumber_lt ?_
    rw [monthNumber_addMonthsClamped]
    omega
  rw [allowancePeriodFor]
  rw [monthsBetween_eq, same, max_eq_right (Int.natCast_nonneg guess)]
  by_cases early : now < addMonthsClamped anchor (guess : ℤ)
  · -- The first period starts at the anchor, so a guess that is too late is not the first.
    obtain _ | index := guess
    · rw [Int.natCast_zero, addMonthsClamped_zero] at early
      exact absurd after (Int.not_le.mpr early)
    have back : ((index + 1 : ℕ) : ℤ) - 1 = index := by omega
    rw [if_pos early, back, max_eq_right (Int.natCast_nonneg index)]
    refine ⟨index, rfl, (lt_of_monthNumber_lt ?_).le, early⟩
    rw [monthNumber_addMonthsClamped]
    omega
  · rw [if_neg early]
    exact ⟨guess, rfl, Int.not_lt.mp early, next⟩

theorem index_unique {now : ℤ} {first second : ℕ}
    (inFirst : addMonthsClamped anchor first ≤ now ∧ now < addMonthsClamped anchor (first + 1))
    (inSecond : addMonthsClamped anchor second ≤ now ∧ now < addMonthsClamped anchor (second + 1)) : first = second := by
  have mono := addMonthsClamped_strictMono anchor
  have low := mono.lt_iff_lt.mp (inFirst.1.trans_lt inSecond.2)
  have high := mono.lt_iff_lt.mp (inSecond.1.trans_lt inFirst.2)
  omega

theorem year_inRange {instant : ℤ} (held : |instant| ≤ maxTime) : IsoDate.InRange (dateOf (instant / msPerDay)).year := by
  obtain ⟨low, high⟩ := abs_le.mp held
  obtain ⟨start, stop⟩ := yearStart_yearOf (instant / msPerDay)
  have first : -100000000 ≤ instant / msPerDay := by
    rw [Int.le_ediv_iff_mul_le msPerDay_pos]
    exact le_trans (by decide) low
  have last : instant / msPerDay ≤ 100000000 := by
    refine Int.ediv_le_of_le_mul msPerDay_pos (high.trans ?_)
    decide
  have upper : yearOf (instant / msPerDay) < 1000000 := by
    by_contra late
    have mono : yearStart 1000000 ≤ yearStart (yearOf (instant / msPerDay)) := yearStart_mono (Int.not_lt.mp late)
    have far : (100000000 : ℤ) < yearStart 1000000 := by decide
    omega
  have lower : -1000000 < yearOf (instant / msPerDay) := by
    by_contra early
    have mono : yearStart (yearOf (instant / msPerDay) + 1) ≤ yearStart (-999999) :=
      yearStart_mono (by omega)
    have far : yearStart (-999999) < -100000000 := by decide
    omega
  rw [IsoDate.InRange, dateOf]
  dsimp only
  omega

theorem length_periodKey {start : ℤ} {key : List Char} (text : periodKey start = some key) : key.length = 10 := by
  rw [periodKey, Option.ite_none_right_eq_some] at text
  obtain ⟨-, text⟩ := text
  rw [← Option.some.inj text]
  exact IsoDate.length_take_ten _

theorem monthNumber_of_periodKey {first second : ℤ} {key : List Char} (one : key ∈ periodKey first)
    (other : key ∈ periodKey second) : monthNumber (first / msPerDay) = monthNumber (second / msPerDay) := by
  rw [Option.mem_def, periodKey, Option.ite_none_right_eq_some] at one other
  obtain ⟨held, one⟩ := one
  obtain ⟨held', other⟩ := other
  have le := (dateOf_valid (first / msPerDay)).month_le
  have le' := (dateOf_valid (second / msPerDay)).month_le
  obtain ⟨years, months⟩ := IsoDate.month_of_take_ten (year_inRange held) (year_inRange held') (by omega) (by omega)
    (Option.some.inj (one.trans other.symm))
  rw [monthNumber, monthNumber, years, months]

end

end EverWorks.Credits
