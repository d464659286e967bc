import Mathlib.Data.Int.ConditionallyCompleteOrder
import Mathlib.Order.Lattice.Nat
import Mathlib.Tactic.IntervalCases

/-!
Days are counted from 1 January 1970 and dates extend to every year before and after. `dateOf` and `dayOf` are each
other's inverse on the dates that exist.
-/

namespace EverWorks.Lib.Calendar

def isLeap (year : ℤ) : Bool := year % 4 = 0 && (year % 100 ≠ 0 || year % 400 = 0)

def leapDay (year : ℤ) : ℤ := if isLeap year then 1 else 0

def yearStart (year : ℤ) : ℤ :=
  365 * (year - 1970) + (year - 1969) / 4 - (year - 1901) / 100 + (year - 1601) / 400

def yearOf (day : ℤ) : ℤ :=
  let guess := 1970 + 400 * day / 146097
  if day < yearStart guess then guess - 1
  else if yearStart (guess + 1) ≤ day then guess + 1
  else guess

theorem yearStart_succ (year : ℤ) : yearStart (year + 1) = yearStart year + 365 + leapDay year := by
  unfold yearStart leapDay isLeap
  by_cases four : year % 4 = 0 <;> by_cases hundred : year % 100 = 0 <;>
    by_cases fourHundred : year % 400 = 0 <;> simp [four, hundred, fourHundred] <;> omega

theorem yearStart_yearOf (day : ℤ) : yearStart (yearOf day) ≤ day ∧ day < yearStart (yearOf day + 1) := by
  unfold yearOf
  dsimp only
  split
  case isTrue early =>
    rw [Int.sub_add_cancel]
    refine ⟨?_, early⟩
    unfold yearStart
    omega
  case isFalse late =>
    split
    case isTrue next =>
      refine ⟨next, ?_⟩
      unfold yearStart
      omega
    case isFalse same => omega

theorem yearStart_mono {a b : ℤ} (le : a ≤ b) : yearStart a ≤ yearStart b := by
  unfold yearStart
  omega

theorem yearOf_eq {day year : ℤ} (start : yearStart year ≤ day) (stop : day < yearStart (year + 1)) :
    yearOf day = year := by
  obtain ⟨low, high⟩ := yearStart_yearOf day
  rcases lt_trichotomy (yearOf day) year with before | same | after
  · have : yearStart (yearOf day + 1) ≤ yearStart year := yearStart_mono before
    omega
  · exact same
  · have : yearStart (year + 1) ≤ yearStart (yearOf day) := yearStart_mono after
    omega

def daysBefore (leap : ℤ) (month : ℕ) : ℤ :=
  (367 * month - 362) / 12 - if month ≤ 2 then 0 else 2 - leap

def monthLength (leap : ℤ) (month : ℕ) : ℕ :=
  if month = 2 then 28 + leap.toNat else if month ∈ [4, 6, 9, 11] then 30 else 31

def monthOf (leap day : ℤ) : ℕ :=
  ((12 * (day + if day < 59 + leap then 0 else 2 - leap) + 373) / 367).toNat

structure Date where
  year : ℤ
  month : ℕ
  day : ℕ
  deriving DecidableEq

def dateOf (day : ℤ) : Date where
  year := yearOf day
  month := monthOf (leapDay (yearOf day)) (day - yearStart (yearOf day))
  day := (day - yearStart (yearOf day) -
    daysBefore (leapDay (yearOf day)) (monthOf (leapDay (yearOf day)) (day - yearStart (yearOf day))) +
      1).toNat

def dayOf (year : ℤ) (month : ℕ) (day : ℤ) : ℤ :=
  yearStart year + daysBefore (leapDay year) month + day - 1

def weekdayOf (day : ℤ) : ℕ := ((day + 4) % 7).toNat

theorem leapDay_cases (year : ℤ) : leapDay year = 0 ∨ leapDay year = 1 := by
  unfold leapDay
  split <;> simp

structure Valid (date : Date) : Prop where
  month_pos : 1 ≤ date.month
  month_le : date.month ≤ 12
  day_pos : 1 ≤ date.day
  day_le : date.day ≤ monthLength (leapDay date.year) date.month

variable {leap : ℤ}

theorem daysBefore_succ {month : ℕ} (isLeap : leap = 0 ∨ leap = 1) (pos : 1 ≤ month)
    (le : month ≤ 12) : daysBefore leap (month + 1) = daysBefore leap month + monthLength leap month := by
  rcases isLeap with rfl | rfl <;> interval_cases month <;> decide

theorem monthOf_spec {leap day : ℤ} (isLeap : leap = 0 ∨ leap = 1) (nonneg : 0 ≤ day)
    (inYear : day < 365 + leap) :
    1 ≤ monthOf leap day ∧ monthOf leap day ≤ 12 ∧ daysBefore leap (monthOf leap day) ≤ day ∧
      day < daysBefore leap (monthOf leap day + 1) := by
  unfold monthOf daysBefore
  rcases isLeap with rfl | rfl <;> (split_ifs <;> omega)

theorem dateOf_valid (day : ℤ) : Valid (dateOf day) := by
  obtain ⟨start, stop⟩ := yearStart_yearOf day
  rw [yearStart_succ] at stop
  have leap := leapDay_cases (yearOf day)
  obtain ⟨pos, le, first, last⟩ := monthOf_spec leap (Int.sub_nonneg.mpr start)
    (by omega : day - yearStart (yearOf day) < 365 + leapDay (yearOf day))
  rw [daysBefore_succ leap pos le] at last
  constructor
  · exact pos
  · exact le
  all_goals
    simp only [dateOf]
    omega

theorem dayOf_dateOf (day : ℤ) : dayOf (dateOf day).year (dateOf day).month (dateOf day).day = day := by
  obtain ⟨start, stop⟩ := yearStart_yearOf day
  rw [yearStart_succ] at stop
  obtain ⟨-, -, first, -⟩ := monthOf_spec (leapDay_cases (yearOf day)) (Int.sub_nonneg.mpr start)
    (by omega : day - yearStart (yearOf day) < 365 + leapDay (yearOf day))
  simp only [dayOf, dateOf]
  omega

theorem daysBefore_one (leap : ℤ) : daysBefore leap 1 = 0 := by
  simp [daysBefore]

theorem daysBefore_thirteen (leap : ℤ) : daysBefore leap 13 = 365 + leap := by
  simp only [daysBefore]
  omega

theorem daysBefore_mono {a b : ℕ} (isLeap : leap = 0 ∨ leap = 1) (pos : 1 ≤ a)
    (le : a ≤ b) (inYear : b ≤ 13) : daysBefore leap a ≤ daysBefore leap b := by
  induction b, le using Nat.le_induction with
  | base => rfl
  | succ b le ih =>
    rw [daysBefore_succ isLeap (pos.trans le) (by omega)]
    have := ih (by omega)
    omega

theorem month_within {month : ℕ} (isLeap : leap = 0 ∨ leap = 1) (pos : 1 ≤ month)
    (le : month ≤ 12) :
    0 ≤ daysBefore leap month ∧ daysBefore leap month + monthLength leap month ≤ 365 + leap := by
  have first : daysBefore leap 1 ≤ daysBefore leap month := daysBefore_mono isLeap le_rfl pos (by omega)
  have last : daysBefore leap (month + 1) ≤ daysBefore leap 13 :=
    daysBefore_mono isLeap (by omega) (by omega) le_rfl
  rw [daysBefore_one] at first
  rw [daysBefore_thirteen, daysBefore_succ isLeap pos le] at last
  exact ⟨first, last⟩

theorem monthOf_eq {leap day : ℤ} {month : ℕ} (isLeap : leap = 0 ∨ leap = 1) (pos : 1 ≤ month)
    (le : month ≤ 12) (first : daysBefore leap month ≤ day)
    (last : day < daysBefore leap month + monthLength leap month) : monthOf leap day = month := by
  obtain ⟨low, high⟩ := month_within isLeap pos le
  obtain ⟨pos', le', first', last'⟩ := monthOf_spec isLeap (low.trans first) (last.trans_le high)
  rw [← daysBefore_succ isLeap pos le] at last
  rcases lt_trichotomy (monthOf leap day) month with before | same | after
  · have : daysBefore leap (monthOf leap day + 1) ≤ daysBefore leap month :=
      daysBefore_mono isLeap (by omega) before (by omega)
    omega
  · exact same
  · have : daysBefore leap (month + 1) ≤ daysBefore leap (monthOf leap day) :=
      daysBefore_mono isLeap (by omega) after (by omega)
    omega

variable {month day : ℕ}

variable {year : ℤ}

theorem dateOf_dayOf (valid : Valid ⟨year, month, day⟩) :
    dateOf (dayOf year month day) = ⟨year, month, day⟩ := by
  obtain ⟨month_pos, month_le, day_pos, day_le⟩ := valid
  dsimp only at month_pos month_le day_pos day_le
  have leap := leapDay_cases year
  obtain ⟨low, high⟩ := month_within leap month_pos month_le
  have sameYear : yearOf (dayOf year month day) = year := by
    apply yearOf_eq
    · unfold dayOf
      omega
    · rw [yearStart_succ]
      unfold dayOf
      omega
  have sameMonth : monthOf (leapDay year) (dayOf year month day - yearStart year) = month := by
    apply monthOf_eq leap month_pos month_le <;>
    · unfold dayOf
      omega
  rw [dateOf, sameYear, sameMonth, Date.mk.injEq]
  refine ⟨rfl, rfl, ?_⟩
  unfold dayOf
  omega

theorem exists_leap_from (year : ℤ) : ∃ leap, year ≤ leap ∧ leap ≤ year + 7 ∧ leapDay leap = 1 := by
  have multiple : ∃ k, year ≤ 4 * k ∧ 4 * k ≤ year + 3 := ⟨(year + 3) / 4, by omega, by omega⟩
  obtain ⟨k, low, high⟩ := multiple
  by_cases century : 4 * k % 100 = 0
  · refine ⟨4 * k + 4, by omega, by omega, ?_⟩
    simp only [leapDay, isLeap, Bool.and_eq_true, Bool.or_eq_true, decide_eq_true_eq]
    exact if_pos ⟨by omega, .inl (by omega)⟩
  · refine ⟨4 * k, low, by omega, ?_⟩
    simp only [leapDay, isLeap, Bool.and_eq_true, Bool.or_eq_true, decide_eq_true_eq]
    exact if_pos ⟨by omega, .inl century⟩

theorem yearStart_eight (year : ℤ) : yearStart (year + 8) ≤ yearStart year + 2922 := by
  unfold yearStart
  omega

theorem dayOf_eight {month : ℕ} {early late day : ℤ} (within : late ≤ early + 8) :
    dayOf late month day ≤ dayOf early month day + 2923 := by
  have years : yearStart late ≤ yearStart early + 2922 :=
    (yearStart_mono within).trans (yearStart_eight early)
  have months : daysBefore (leapDay late) month ≤ daysBefore (leapDay early) month + 1 := by
    unfold daysBefore
    have := leapDay_cases late
    have := leapDay_cases early
    split_ifs <;> omega
  unfold dayOf
  omega

theorem dayOf_in_year (pos : 1 ≤ month) (le : month ≤ 12) (day_pos : 1 ≤ day)
    (day_le : day ≤ monthLength 1 month) (year : ℤ) :
    yearStart year ≤ dayOf year month day ∧ dayOf year month day < yearStart (year + 1) := by
  have leap := leapDay_cases year
  have table : 0 ≤ daysBefore (leapDay year) month ∧
      daysBefore (leapDay year) month + monthLength 1 month ≤ 365 + leapDay year := by
    rcases leap with common | leap
    · rw [common]
      interval_cases month <;> decide
    · rw [leap]
      interval_cases month <;> decide
  rw [yearStart_succ]
  unfold dayOf
  omega

theorem dayOf_mono (pos : 1 ≤ month) (le : month ≤ 12) (day_pos : 1 ≤ day)
    (day_le : day ≤ monthLength 1 month) {a b : ℤ} (years : a ≤ b) :
    dayOf a month day ≤ dayOf b month day := by
  rcases years.lt_or_eq with before | rfl
  · have upper : dayOf a month day < yearStart (a + 1) := (dayOf_in_year pos le day_pos day_le a).2
    have lower : yearStart b ≤ dayOf b month day := (dayOf_in_year pos le day_pos day_le b).1
    have between : yearStart (a + 1) ≤ yearStart b := yearStart_mono before
    omega
  · rfl

theorem dateOf_leap (pos : 1 ≤ month) (le : month ≤ 12) (day_pos : 1 ≤ day)
    (day_le : day ≤ monthLength 1 month) (leap : leapDay year = 1) :
    dateOf (dayOf year month day) = ⟨year, month, day⟩ := by
  have valid : Valid ⟨year, month, day⟩ := ⟨pos, le, day_pos, leap.symm ▸ day_le⟩
  exact dateOf_dayOf valid

theorem exists_year_from (pos : 1 ≤ month) (le : month ≤ 12) (day_pos : 1 ≤ day)
    (day_le : day ≤ monthLength 1 month) (start : ℤ) :
    ∃ year, start ≤ dayOf year month day ∧ dayOf (year - 1) month day ≤ start := by
  obtain ⟨low, high⟩ := yearStart_yearOf start
  have within := dayOf_in_year pos le day_pos day_le
  by_cases reached : start ≤ dayOf (yearOf start) month day
  · have := (within (yearOf start - 1)).2
    rw [Int.sub_add_cancel] at this
    exact ⟨yearOf start, reached, by omega⟩
  · have := (within (yearOf start + 1)).1
    refine ⟨yearOf start + 1, by omega, ?_⟩
    rw [Int.add_sub_cancel]
    omega

theorem exists_year_until (pos : 1 ≤ month) (le : month ≤ 12) (day_pos : 1 ≤ day)
    (day_le : day ≤ monthLength 1 month) (stop : ℤ) :
    ∃ year, dayOf year month day ≤ stop ∧ stop ≤ dayOf (year + 1) month day := by
  obtain ⟨low, high⟩ := yearStart_yearOf stop
  have within := dayOf_in_year pos le day_pos day_le
  by_cases reached : dayOf (yearOf stop) month day ≤ stop
  · have := (within (yearOf stop + 1)).1
    exact ⟨yearOf stop, reached, by omega⟩
  · have := (within (yearOf stop - 1)).2
    rw [Int.sub_add_cancel] at this
    refine ⟨yearOf stop - 1, by omega, ?_⟩
    rw [Int.sub_add_cancel]
    omega

theorem exists_date_after (pos : 1 ≤ month) (le : month ≤ 12) (day_pos : 1 ≤ day)
    (day_le : day ≤ monthLength 1 month) (start : ℤ) :
    ∃ later, start ≤ later ∧ later ≤ start + 2923 ∧ (dateOf later).month = month ∧
      (dateOf later).day = day := by
  obtain ⟨year, reached, before⟩ := exists_year_from pos le day_pos day_le start
  obtain ⟨leap, from_, until_, isLeap⟩ := exists_leap_from year
  have mono := dayOf_mono pos le day_pos day_le from_
  have eight : dayOf leap month day ≤ dayOf (year - 1) month day + 2923 := dayOf_eight (by omega)
  have date := dateOf_leap pos le day_pos day_le isLeap
  exact ⟨dayOf leap month day, by omega, by omega, by rw [date], by rw [date]⟩

theorem exists_date_before (pos : 1 ≤ month) (le : month ≤ 12) (day_pos : 1 ≤ day)
    (day_le : day ≤ monthLength 1 month) (stop : ℤ) :
    ∃ earlier, earlier ≤ stop ∧ stop ≤ earlier + 2923 ∧ (dateOf earlier).month = month ∧
      (dateOf earlier).day = day := by
  obtain ⟨year, reached, after⟩ := exists_year_until pos le day_pos day_le stop
  obtain ⟨leap, from_, until_, isLeap⟩ := exists_leap_from (year - 7)
  have mono : dayOf leap month day ≤ dayOf year month day :=
    dayOf_mono pos le day_pos day_le (by omega)
  have eight : dayOf (year + 1) month day ≤ dayOf leap month day + 2923 := dayOf_eight (by omega)
  have date := dateOf_leap pos le day_pos day_le isLeap
  exact ⟨dayOf leap month day, by omega, by omega, by rw [date], by rw [date]⟩

theorem monthLength_ge (leap : ℤ) (month : ℕ) : 28 ≤ monthLength leap month := by
  unfold monthLength
  split_ifs <;> omega

theorem monthLength_le (isLeap : leap = 0 ∨ leap = 1) (month : ℕ) :
    monthLength leap month ≤ monthLength 1 month := by
  unfold monthLength
  split_ifs <;> omega

theorem dayOf_succ_year {month : ℕ} {day : ℤ} :
    dayOf (year + 1) month day ≤ dayOf year month day + 366 := by
  have := yearStart_succ year
  have := leapDay_cases year
  have := leapDay_cases (year + 1)
  unfold dayOf daysBefore
  split_ifs <;> omega

theorem dateOf_add {first : ℤ} {month day count : ℕ} (date : dateOf first = ⟨year, month, day⟩)
    (within : day + count ≤ monthLength (leapDay year) month) :
    dateOf (first + count) = ⟨year, month, day + count⟩ := by
  have valid := dateOf_valid first
  have number := dayOf_dateOf first
  rw [date] at valid number
  have later : Valid ⟨year, month, day + count⟩ :=
    ⟨valid.month_pos, valid.month_le, le_trans valid.day_pos (Nat.le_add_right day count), within⟩
  have same : first + count = dayOf year month (day + count : ℕ) := by
    rw [← number]
    unfold dayOf
    push_cast
    omega
  rw [same, dateOf_dayOf later]

theorem dateOf_first (year : ℤ) {month : ℕ} (pos : 1 ≤ month) (le : month ≤ 12) :
    dateOf (dayOf year month (1 : ℕ)) = ⟨year, month, 1⟩ := by
  have valid : Valid ⟨year, month, 1⟩ :=
    ⟨pos, le, le_rfl, le_trans (by decide : 1 ≤ 28) (monthLength_ge (leapDay year) month)⟩
  exact dateOf_dayOf valid

theorem exists_weekday_from {first : ℤ} {month weekday : ℕ} (date : dateOf first = ⟨year, month, 1⟩)
    (high : weekday < 7) :
    ∃ day, first ≤ day ∧ day ≤ first + 6 ∧ (dateOf day).month = month ∧ weekdayOf day = weekday := by
  have count : ((weekday - weekdayOf first : ℤ) % 7).toNat ≤ 6 := by omega
  have long := monthLength_ge (leapDay year) month
  refine ⟨first + ((weekday - weekdayOf first : ℤ) % 7).toNat, by omega, by omega, ?_, ?_⟩
  · rw [dateOf_add date (by omega)]
  · unfold weekdayOf
    omega

theorem exists_weekday_after {month weekday : ℕ} (pos : 1 ≤ month) (le : month ≤ 12) (high : weekday < 7)
    (start : ℤ) :
    ∃ later, start ≤ later ∧ later ≤ start + 372 ∧ (dateOf later).month = month ∧
      weekdayOf later = weekday := by
  have long := monthLength_ge 1 month
  obtain ⟨year, reached, before⟩ := exists_year_from pos le le_rfl (by omega) start
  have step : dayOf year month (1 : ℕ) ≤ dayOf (year - 1) month (1 : ℕ) + 366 := by
    have next : dayOf (year - 1 + 1) month (1 : ℕ) ≤ dayOf (year - 1) month (1 : ℕ) + 366 := dayOf_succ_year
    rwa [Int.sub_add_cancel] at next
  obtain ⟨day, low, near, found⟩ := exists_weekday_from (dateOf_first year pos le) high
  exact ⟨day, by omega, by omega, found⟩

theorem exists_weekday_before {month weekday : ℕ} (pos : 1 ≤ month) (le : month ≤ 12) (high : weekday < 7)
    (stop : ℤ) :
    ∃ earlier, earlier ≤ stop ∧ stop ≤ earlier + 372 ∧ (dateOf earlier).month = month ∧
      weekdayOf earlier = weekday := by
  have long := monthLength_ge 1 month
  obtain ⟨year, reached, after⟩ := exists_year_until pos le le_rfl (by omega) (stop - 6)
  have step : dayOf (year + 1) month (1 : ℕ) ≤ dayOf year month (1 : ℕ) + 366 := dayOf_succ_year
  obtain ⟨day, low, near, found⟩ := exists_weekday_from (dateOf_first year pos le) high
  exact ⟨day, by omega, by omega, found⟩

theorem exists_year {leap weekday : ℤ} (isLeap : leap = 0 ∨ leap = 1) (low : 0 ≤ weekday)
    (high : weekday < 7) : ∃ year, leapDay year = leap ∧ yearStart year % 7 = weekday := by
  have table : ∀ leap ∈ [0, 1], ∀ weekday ∈ [0, 1, 2, 3, 4, 5, 6], ∃ year ∈ List.range 28,
      leapDay (1970 + year) = leap ∧ yearStart (1970 + year) % 7 = weekday := by
    decide
  obtain ⟨year, -, found⟩ := table leap (by simpa using isLeap) weekday (by simp; omega)
  exact ⟨1970 + year, found⟩

theorem exists_weekday {month day weekday : ℕ} (isLeap : leap = 0 ∨ leap = 1)
    (pos : 1 ≤ month) (le : month ≤ 12) (day_pos : 1 ≤ day) (day_le : day ≤ monthLength leap month)
    (high : weekday < 7) :
    ∃ year, leapDay year = leap ∧ dateOf (dayOf year month day) = ⟨year, month, day⟩ ∧
      weekdayOf (dayOf year month day) = weekday := by
  have residue : 0 ≤ (weekday - 3 - daysBefore leap month - day) % 7 ∧
      (weekday - 3 - daysBefore leap month - day) % 7 < 7 := by omega
  obtain ⟨year, common, starts⟩ := exists_year isLeap residue.1 residue.2
  have valid : Valid ⟨year, month, day⟩ := ⟨pos, le, day_pos, common.symm ▸ day_le⟩
  refine ⟨year, common, dateOf_dayOf valid, ?_⟩
  unfold weekdayOf dayOf
  rw [common]
  omega

def monthNumber (day : ℤ) : ℤ := 12 * (dateOf day).year + (dateOf day).month - 1

def monthStart (number : ℤ) : ℤ := dayOf (number / 12) ((number % 12).toNat + 1) 1

def monthDays (number : ℤ) : ℕ := monthLength (leapDay (number / 12)) ((number % 12).toNat + 1)

theorem monthDays_ge (number : ℤ) : 28 ≤ monthDays number := monthLength_ge _ _

theorem monthStart_succ (number : ℤ) : monthStart (number + 1) = monthStart number + monthDays number := by
  have next := daysBefore_succ (leapDay_cases (number / 12)) (by omega : 1 ≤ (number % 12).toNat + 1) (by omega)
  rw [monthStart, monthStart, monthDays]
  by_cases december : number % 12 = 11
  · have year : (number + 1) / 12 = number / 12 + 1 := by omega
    have month : (number + 1) % 12 = 0 := by omega
    rw [december] at next ⊢
    have whole := daysBefore_thirteen (leapDay (number / 12))
    have first : daysBefore (leapDay (number / 12 + 1)) ((0 : ℤ).toNat + 1) = 0 := daysBefore_one _
    have twelve : ((11 : ℤ).toNat + 1) + 1 = 13 := rfl
    rw [twelve, whole] at next
    rw [year, month, dayOf, dayOf, yearStart_succ, first]
    omega
  · have year : (number + 1) / 12 = number / 12 := by omega
    have month : ((number + 1) % 12).toNat = (number % 12).toNat + 1 := by omega
    rw [year, month, dayOf, dayOf, next]
    omega

theorem monthStart_strictMono : StrictMono monthStart := by
  refine strictMono_int_of_lt_succ fun number => ?_
  have days := monthDays_ge number
  rw [monthStart_succ]
  omega

theorem monthStart_add (day : ℤ) : monthStart (monthNumber day) + (dateOf day).day - 1 = day := by
  obtain ⟨month_pos, month_le, -, -⟩ := dateOf_valid day
  have year : monthNumber day / 12 = (dateOf day).year := by
    rw [monthNumber]
    omega
  have month : (monthNumber day % 12).toNat + 1 = (dateOf day).month := by
    rw [monthNumber]
    omega
  have back := dayOf_dateOf day
  rw [dayOf] at back
  rw [monthStart, year, month, dayOf]
  omega

theorem day_le_monthDays (day : ℤ) : (dateOf day).day ≤ monthDays (monthNumber day) := by
  obtain ⟨month_pos, month_le, -, day_le⟩ := dateOf_valid day
  have year : monthNumber day / 12 = (dateOf day).year := by
    rw [monthNumber]
    omega
  have month : (monthNumber day % 12).toNat + 1 = (dateOf day).month := by
    rw [monthNumber]
    omega
  rw [monthDays, year, month]
  exact day_le

theorem monthNumber_spec (day : ℤ) : monthStart (monthNumber day) ≤ day ∧ day < monthStart (monthNumber day + 1) := by
  have whole := monthStart_add day
  have pos := (dateOf_valid day).day_pos
  have le := day_le_monthDays day
  rw [monthStart_succ]
  omega

theorem monthNumber_eq {day number : ℤ} (first : monthStart number ≤ day) (last : day < monthStart (number + 1)) :
    monthNumber day = number := by
  obtain ⟨low, high⟩ := monthNumber_spec day
  have lower : number < monthNumber day + 1 := monthStart_strictMono.lt_iff_lt.mp (first.trans_lt high)
  have upper : monthNumber day < number + 1 := monthStart_strictMono.lt_iff_lt.mp (low.trans_lt last)
  omega

theorem monthNumber_mono {a b : ℤ} (le : a ≤ b) : monthNumber a ≤ monthNumber b := by
  have lower := (monthNumber_spec a).1
  have upper := (monthNumber_spec b).2
  have step : monthNumber a < monthNumber b + 1 := monthStart_strictMono.lt_iff_lt.mp (by omega)
  omega

theorem dateOf_monthStart (number : ℤ) {day : ℕ} (pos : 1 ≤ day) (le : day ≤ monthDays number) :
    dateOf (monthStart number + day - 1) = ⟨number / 12, (number % 12).toNat + 1, day⟩ := by
  have valid : Valid ⟨number / 12, (number % 12).toNat + 1, day⟩ := by
    refine ⟨?_, ?_, pos, le⟩
    · exact Nat.le_add_left _ _
    · dsimp only
      omega
  have same : monthStart number + day - 1 = dayOf (number / 12) ((number % 12).toNat + 1) day := by
    rw [monthStart, dayOf, dayOf]
    omega
  rw [same, dateOf_dayOf valid]

theorem dateOf_monthEnd (number : ℤ) : (dateOf (monthStart (number + 1) - 1)).day = monthDays number := by
  have days := monthDays_ge number
  rw [monthStart_succ, dateOf_monthStart number (by omega) le_rfl]

end EverWorks.Lib.Calendar
