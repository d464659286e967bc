import EverWorks.Credits.AllowanceMonth
import EverWorks.Lib.Grid

/-!
The window a spend is counted in: the current hour, day, week or month, or so many of them, of the proleptic Gregorian
calendar in UTC. Instants are milliseconds; a date beyond the latest one is invalid, and so is what is computed of it.
-/

namespace EverWorks.Agents.Budget
open Lib Calendar Credits Option

inductive AgentBudgetIntervalUnit where
  | hour | day | week | month | unlimited
  deriving DecidableEq

def msPerHour : ℤ := 3600000

/-- `new Date(…)`, and `none` for an invalid date. -/
def toDate (instant : ℤ) : Option ℤ := if |instant| ≤ maxTime then some instant else none

def utcFields (instant : ℤ) : Date := dateOf (instant / msPerDay)

def utcMonth (instant : ℤ) : ℤ := (utcFields instant).month - 1

def utcHours (instant : ℤ) : ℤ := instant % msPerDay / msPerHour

/-- `Date.UTC`, the minutes and what is below them 0. -/
def dateUTC (year month day hours : ℤ) : ℤ := utcDay year month day * msPerDay + hours * msPerHour

def startOfHourUTC (d : ℤ) : ℤ := dateUTC (utcFields d).year (utcMonth d) (utcFields d).day (utcHours d)

def startOfDayUTC (d : ℤ) : ℤ := dateUTC (utcFields d).year (utcMonth d) (utcFields d).day 0

def startOfWeekUTC (d : ℤ) : ℤ :=
  let dayOfWeek := weekdayOf (d / msPerDay)
  let daysSinceMonday := (dayOfWeek + 6) % 7
  let monday := startOfDayUTC d
  dateUTC (utcFields monday).year (utcMonth monday) ((utcFields monday).day - daysSinceMonday) 0

def slotIndex (number count : ℤ) : ℤ := number / count * count

def getCurrentPeriodStart (unit : AgentBudgetIntervalUnit) (now intervalCount : ℤ) : Option ℤ :=
  let count := max 1 intervalCount
  match unit with
  | .unlimited => some 0
  | .hour =>
    let anchor := startOfHourUTC now
    if count = 1 then toDate anchor else toDate (slotIndex (anchor / msPerHour) count * msPerHour)
  | .day =>
    let anchor := startOfDayUTC now
    if count = 1 then toDate anchor else toDate (slotIndex (anchor / msPerDay) count * msPerDay)
  | .week =>
    let anchor := startOfWeekUTC now
    if count = 1 then toDate anchor else toDate (slotIndex (anchor / (7 * msPerDay)) count * 7 * msPerDay)
  | .month =>
    let epochYear := 1970
    let monthsSinceEpoch := ((utcFields now).year - epochYear) * 12 + utcMonth now
    let slot := slotIndex monthsSinceEpoch count
    toDate (dateUTC (epochYear + slot / 12) (slot.tmod 12) 1 0)

def getNextPeriodStart (unit : AgentBudgetIntervalUnit) (now intervalCount : ℤ) : Option ℤ :=
  match unit with
  | .unlimited => some maxTime
  | unit =>
    (getCurrentPeriodStart unit now intervalCount).bind fun start =>
      let count := max 1 intervalCount
      match unit with
      | .hour => toDate (start + count * msPerHour)
      | .day => toDate (start + count * msPerDay)
      | .week => toDate (start + count * 7 * msPerDay)
      | _ =>
        let m := utcMonth start + count
        toDate (dateUTC ((utcFields start).year + m / 12) (m.tmod 12) 1 0)

def isWithinCurrentPeriod (unit : AgentBudgetIntervalUnit) (at_ now intervalCount : ℤ) : Bool :=
  match getCurrentPeriodStart unit now intervalCount, getNextPeriodStart unit now intervalCount with
  | some start, some next => decide (start ≤ at_ ∧ at_ < next)
  | _, _ => false

/-- The instants from 1970 on that a date holds. -/
def Instant (t : ℤ) : Prop := 0 ≤ t ∧ t ≤ maxTime

/-- An instant's period starts at it or before and ends after it, is the period of every instant in it and followed by
another one; weeks start on a Monday; and the instants within are those whose period starts together. -/
def Tiles (unit : AgentBudgetIntervalUnit) (count now : ℤ) : Prop :=
  ∃ start next, getCurrentPeriodStart unit now count = some start ∧ getNextPeriodStart unit now count = some next ∧
    (start ≤ now ∧ now < next) ∧
    (∀ x, start ≤ x → x < next →
      getCurrentPeriodStart unit x count = some start ∧ getNextPeriodStart unit x count = some next) ∧
    getCurrentPeriodStart unit next count = some next ∧
    (unit = .week → start % msPerDay = 0 ∧ weekdayOf (start / msPerDay) = 1) ∧
    ∀ x, Instant x → (isWithinCurrentPeriod unit x now count = true ↔
      getCurrentPeriodStart unit x count = getCurrentPeriodStart unit now count)

/-- The end of the slot of so many units that an instant lies in, the units counted from 1970 on; weeks one by one. -/
def slotEnd (unit : AgentBudgetIntervalUnit) (count now : ℤ) : ℤ :=
  match unit with
  | .hour => (now / msPerHour / count + 1) * count * msPerHour
  | .day => (now / msPerDay / count + 1) * count * msPerDay
  | .week => (((now / msPerDay - 4) / 7 + 1) * 7 + 4) * msPerDay
  | .month => monthStart (23640 + ((monthNumber (now / msPerDay) - 23640) / count + 1) * count) * msPerDay
  | .unlimited => maxTime

theorem toDate_some {t s : ℤ} : toDate t = some s ↔ t = s ∧ |t| ≤ maxTime := by
  rw [toDate]
  split
  · rename_i held
    rw [some.injEq, and_iff_left held]
  · rename_i beyond
    exact iff_of_false nofun fun both => beyond both.2

theorem bind_toDate (t : ℤ) (f : ℤ → Option ℤ) : (toDate t).bind f = (toDate t).bind fun _ => f t := by
  rw [toDate]
  split <;> rfl

theorem utcDay_fields (day : ℤ) : utcDay (dateOf day).year ((dateOf day).month - 1) (dateOf day).day = day := by
  rw [utcDay_eq]
  have whole := monthStart_add day
  rw [monthNumber] at whole
  rw [← add_sub_assoc]
  exact whole

theorem startOfDayUTC_eq (d : ℤ) : startOfDayUTC d = d / msPerDay * msPerDay := by
  rw [startOfDayUTC, dateUTC, utcMonth, utcFields, utcDay_fields]
  omega

theorem startOfHourUTC_eq (d : ℤ) : startOfHourUTC d = d / msPerHour * msPerHour := by
  rw [startOfHourUTC, dateUTC, utcMonth, utcFields, utcDay_fields, utcHours]
  unfold msPerDay msPerHour
  omega

theorem day_of_day (day : ℤ) : day * msPerDay / msPerDay = day := Int.mul_ediv_cancel _ msPerDay_pos.ne'

theorem startOfWeekUTC_eq (d : ℤ) : startOfWeekUTC d = (4 + (d / msPerDay - 4) / 7 * 7) * msPerDay := by
  have back (day : ℤ) (less : ℤ) : utcDay (dateOf day).year ((dateOf day).month - 1) ((dateOf day).day - less) = day - less := by
    have whole := utcDay_fields day
    rw [utcDay_eq] at whole ⊢
    omega
  dsimp only [startOfWeekUTC]
  rw [startOfDayUTC_eq, dateUTC, utcMonth, utcFields, day_of_day, back, weekdayOf, zero_mul, add_zero]
  congr 1
  omega

section
variable {unit : AgentBudgetIntervalUnit} {count now : ℤ}

theorem tiles_iff_of_grid {grid : Grid} (begins : -maxTime ≤ grid.start 0)
    (current : ∀ x, grid.start 0 ≤ x → getCurrentPeriodStart unit x count = toDate (grid.start x))
    (following : ∀ x, grid.start 0 ≤ x →
      getNextPeriodStart unit x count = (toDate (grid.start x)).bind fun _ => toDate (grid.next x))
    (monday : unit = .week → ∀ k, grid.bound k % msPerDay = 0 ∧ weekdayOf (grid.bound k / msPerDay) = 1)
    (instant : Instant now) : Tiles unit count now ↔ grid.next now ≤ maxTime := by
  have first : grid.start 0 ≤ grid.start now := grid.start_mono instant.1
  have held {x : ℤ} (late : grid.start 0 ≤ x) (early : x ≤ maxTime) : toDate (grid.start x) = some (grid.start x) := by
    have low := grid.start_mono late
    have high := grid.start_le x
    rw [Grid.start_start] at low
    exact toDate_some.mpr ⟨rfl, abs_le.mpr ⟨begins.trans low, high.trans early⟩⟩
  have here := held (first.trans (grid.start_le now)) instant.2
  have upcoming : getNextPeriodStart unit now count = toDate (grid.next now) := by
    rw [following now (first.trans (grid.start_le now)), here, bind_some]
  constructor
  · rintro ⟨start, next, -, ends, -⟩
    rw [upcoming, toDate_some] at ends
    exact (le_abs_self _).trans ends.2
  · intro fits
    have later : grid.start 0 ≤ grid.next now := first.trans ((grid.start_le now).trans (grid.lt_next now).le)
    have ends : toDate (grid.next now) = some (grid.next now) :=
      toDate_some.mpr ⟨rfl, abs_le.mpr ⟨begins.trans later, fits⟩⟩
    have starts : getCurrentPeriodStart unit now count = some (grid.start now) :=
      (current now (first.trans (grid.start_le now))).trans here
    refine ⟨grid.start now, grid.next now, starts, upcoming.trans ends, ⟨grid.start_le now, grid.lt_next now⟩,
      fun x low high => ?_, ?_, fun week => monday week _, fun x inRange => ?_⟩
    · have same : grid.index x = grid.index now := grid.index_eq_of_mem low high
      have whole : grid.start x = grid.start now := congrArg grid.bound same
      have whole' : grid.next x = grid.next now := congrArg (fun k => grid.bound (k + 1)) same
      rw [current x (first.trans low), following x (first.trans low), whole, whole', here, ends]
      exact ⟨rfl, rfl⟩
    · rw [current _ later, Grid.start_next, ends]
    · have late : grid.start 0 ≤ x := (grid.start_le 0).trans inRange.1
      rw [isWithinCurrentPeriod, starts, upcoming, ends, current x late, held late inRange.2, some.injEq,
        ← grid.mem_iff]
      exact decide_eq_true_iff

theorem tiles_slots (pos : 0 < count) {width : ℤ} (wide : 0 < width) (plain : unit ≠ .week)
    (current : ∀ x, getCurrentPeriodStart unit x count = toDate (x / width / count * count * width))
    (following : ∀ x, getNextPeriodStart unit x count =
      (getCurrentPeriodStart unit x count).bind fun start => toDate (start + count * width))
    (instant : Instant now) : Tiles unit count now ↔ (now / width / count + 1) * count * width ≤ maxTime := by
  let grid : Grid := (Grid.every 0 count pos).scale width wide
  have start (x : ℤ) : grid.start x = x / width / count * count * width := by
    show (0 + (x / width - 0) / count * count) * width = _
    rw [zero_add, sub_zero]
  have next (x : ℤ) : grid.next x = (x / width / count + 1) * count * width := by
    show (0 + ((x / width - 0) / count + 1) * count) * width = _
    rw [zero_add, sub_zero]
  rw [← next]
  refine tiles_iff_of_grid ?_ (fun x _ => (current x).trans (congrArg toDate (start x).symm)) (fun x _ => ?_)
    (fun week => absurd week plain) instant
  · rw [start, Int.zero_ediv, Int.zero_ediv, zero_mul, zero_mul]
    decide
  · have sum : x / width / count * count * width + count * width = grid.next x := by
      rw [next, add_mul, add_mul, one_mul]
    rw [following, current, bind_toDate, sum, start]

theorem slot_eq {width number count : ℤ} (wide : 0 < width) :
    (if count = 1 then toDate (number * width) else toDate (slotIndex (number * width / width) count * width)) =
      toDate (number / count * count * width) := by
  split
  · rename_i one
    rw [one, Int.ediv_one, mul_one]
  · rw [Int.mul_ediv_cancel _ wide.ne', slotIndex]

theorem tiles_hour (pos : 1 ≤ count) (instant : Instant now) :
    Tiles .hour count now ↔ slotEnd .hour count now ≤ maxTime := by
  have wide : 0 < msPerHour := by decide
  have many : max 1 count = count := max_eq_right pos
  refine tiles_slots pos wide nofun (fun x => ?_) (fun x => ?_) instant
  · simp only [getCurrentPeriodStart, many, startOfHourUTC_eq]
    exact slot_eq wide
  · simp only [getNextPeriodStart, many]

theorem tiles_day (pos : 1 ≤ count) (instant : Instant now) :
    Tiles .day count now ↔ slotEnd .day count now ≤ maxTime := by
  have many : max 1 count = count := max_eq_right pos
  refine tiles_slots pos msPerDay_pos nofun (fun x => ?_) (fun x => ?_) instant
  · simp only [getCurrentPeriodStart, many, startOfDayUTC_eq]
    exact slot_eq msPerDay_pos
  · simp only [getNextPeriodStart, many]

theorem tiles_week (instant : Instant now) : Tiles .week 1 now ↔ slotEnd .week 1 now ≤ maxTime := by
  let grid : Grid := (Grid.every 4 7 (by decide)).scale msPerDay msPerDay_pos
  have start (x : ℤ) : grid.start x = (4 + (x / msPerDay - 4) / 7 * 7) * msPerDay := rfl
  have next (x : ℤ) : grid.next x = (4 + ((x / msPerDay - 4) / 7 + 1) * 7) * msPerDay := rfl
  have current (x : ℤ) : getCurrentPeriodStart .week x 1 = toDate (grid.start x) := by
    rw [start, ← startOfWeekUTC_eq]
    rfl
  have whole : slotEnd .week 1 now = grid.next now := by rw [next, add_comm 4]; rfl
  rw [whole]
  refine tiles_iff_of_grid (by decide) (fun x _ => current x) (fun x _ => ?_) (fun _ k => ?_) instant
  · have sum : grid.start x + 1 * 7 * msPerDay = grid.next x := by
      rw [start, next, ← add_mul]
      congr 1
      omega
    have following : getNextPeriodStart .week x 1 =
        (getCurrentPeriodStart .week x 1).bind fun start => toDate (start + 1 * 7 * msPerDay) := rfl
    rw [following, current, bind_toDate, sum]
  · show (4 + k * 7) * msPerDay % msPerDay = 0 ∧ weekdayOf ((4 + k * 7) * msPerDay / msPerDay) = 1
    rw [Int.mul_emod_left, day_of_day, weekdayOf]
    omega

theorem not_tiles_weeks (many : 1 < count) : ¬ Tiles .week count now := by
  rintro ⟨start, next, starts, -, -, -, -, monday, -⟩
  have more : max 1 count = count := max_eq_right many.le
  simp only [getCurrentPeriodStart, more, if_neg many.ne'] at starts
  obtain ⟨rfl, -⟩ := toDate_some.mp starts
  have weekday := (monday rfl).2
  rw [day_of_day, weekdayOf] at weekday
  omega

theorem dateUTC_month (year month : ℤ) : dateUTC year month 1 0 = monthStart (12 * year + month) * msPerDay := by
  rw [dateUTC, utcDay_eq, zero_mul, add_zero, add_sub_cancel_right]

theorem dateUTC_months_after (month : ℤ) (nonneg : 0 ≤ count) :
    dateUTC ((utcFields (monthStart month * msPerDay)).year + (utcMonth (monthStart month * msPerDay) + count) / 12)
      ((utcMonth (monthStart month * msPerDay) + count).tmod 12) 1 0 = monthStart (month + count) * msPerDay := by
  have days := monthDays_ge month
  have first := dateOf_monthStart month (le_refl 1) (by omega)
  rw [Nat.cast_one, add_sub_cancel_right] at first
  have fields : utcFields (monthStart month * msPerDay) = ⟨month / 12, (month % 12).toNat + 1, 1⟩ := by
    rw [utcFields, day_of_day, first]
  have number : utcMonth (monthStart month * msPerDay) = month % 12 := by
    rw [utcMonth, fields]
    dsimp only
    omega
  rw [number, fields, dateUTC_month, Int.tmod_eq_emod_of_nonneg (by omega)]
  congr 2
  dsimp only
  omega

theorem tiles_month (pos : 1 ≤ count) (instant : Instant now) :
    Tiles .month count now ↔ slotEnd .month count now ≤ maxTime := by
  let grid : Grid := Grid.scale (Grid.coarse ⟨monthStart, monthNumber, monthStart_strictMono,
    fun day => (monthNumber_spec day).1, fun day => (monthNumber_spec day).2⟩ 23640 count pos) msPerDay msPerDay_pos
  have first : grid.start 0 = 0 := by
    show monthStart (23640 + (monthNumber (0 / msPerDay) - 23640) / count * count) * msPerDay = 0
    have january : monthNumber (0 / msPerDay) = 23640 := by decide +kernel
    rw [january, sub_self, Int.zero_ediv, zero_mul]
    decide +kernel
  have many : max 1 count = count := max_eq_right pos
  have number (x : ℤ) : ((utcFields x).year - 1970) * 12 + utcMonth x = monthNumber (x / msPerDay) - 23640 := by
    rw [utcMonth, utcFields, monthNumber]
    omega
  have current (x : ℤ) (late : 0 ≤ x) : getCurrentPeriodStart .month x count = toDate (grid.start x) := by
    have since : 23640 ≤ monthNumber (x / msPerDay) := by
      have january : monthNumber 0 = 23640 := by decide +kernel
      rw [← january]
      exact monthNumber_mono (Int.ediv_nonneg late msPerDay_pos.le)
    have nonneg : 0 ≤ slotIndex (monthNumber (x / msPerDay) - 23640) count :=
      Int.mul_nonneg (Int.ediv_nonneg (by omega) (by omega)) (by omega)
    have slot : 12 * (1970 + slotIndex (monthNumber (x / msPerDay) - 23640) count / 12) +
        (slotIndex (monthNumber (x / msPerDay) - 23640) count).tmod 12 =
          23640 + (monthNumber (x / msPerDay) - 23640) / count * count := by
      rw [Int.tmod_eq_emod_of_nonneg nonneg]
      rw [slotIndex] at *
      omega
    simp only [getCurrentPeriodStart, many, number]
    rw [dateUTC_month, slot]
    rfl
  refine tiles_iff_of_grid (by rw [first]; decide) (fun x late => current x (first ▸ late)) (fun x late => ?_)
    (fun other => by cases other) instant
  have next : grid.next x = monthStart (23640 + ((monthNumber (x / msPerDay) - 23640) / count + 1) * count) * msPerDay := rfl
  have following : getNextPeriodStart .month x count = (getCurrentPeriodStart .month x count).bind fun start =>
      toDate (dateUTC ((utcFields start).year + (utcMonth start + count) / 12) ((utcMonth start + count).tmod 12) 1 0) := by
    simp only [getNextPeriodStart, many]
  have start : grid.start x = monthStart (23640 + (monthNumber (x / msPerDay) - 23640) / count * count) * msPerDay := rfl
  have later : 23640 + (monthNumber (x / msPerDay) - 23640) / count * count + count =
      23640 + ((monthNumber (x / msPerDay) - 23640) / count + 1) * count := by
    rw [add_mul, one_mul, add_assoc]
  rw [following, current x (first ▸ late), bind_toDate, next, ← later, start, dateUTC_months_after _ (by omega)]

/-- Periods tile the time where the weeks are counted one by one and the slot ends at an instant that a date holds. -/
theorem tiles_iff (windowed : unit ≠ .unlimited) (pos : 1 ≤ count) (instant : Instant now) :
    Tiles unit count now ↔ (unit = .week → count = 1) ∧ slotEnd unit count now ≤ maxTime := by
  cases unit with
  | hour => rw [tiles_hour pos instant, and_iff_right nofun]
  | day => rw [tiles_day pos instant, and_iff_right nofun]
  | week =>
    rcases pos.eq_or_lt with rfl | many
    · rw [tiles_week instant, and_iff_right fun _ => rfl]
    · exact iff_of_false (not_tiles_weeks many) fun both => absurd (both.1 rfl) many.ne'
  | month => rw [tiles_month pos instant, and_iff_right nofun]
  | unlimited => exact absurd rfl windowed

end

/-- Quarters, in February of 2024. -/
theorem quarters_tile : Tiles .month 3 1708000000000 := by
  have windowed : AgentBudgetIntervalUnit.month ≠ .unlimited := nofun
  have instant : Instant 1708000000000 := ⟨by decide, by decide⟩
  have counted : AgentBudgetIntervalUnit.month = .week → (3 : ℤ) = 1 := nofun
  have fits : slotEnd .month 3 1708000000000 ≤ maxTime := by decide +kernel
  exact (tiles_iff windowed (by decide) instant).mpr ⟨counted, fits⟩

/-- Thursday, 15 January 1970, counted in fortnights: its own ends as it starts. -/
theorem fortnights_miss : ¬ Tiles .week 2 1209600000 := by
  rintro ⟨start, next, -, ends, inside, -⟩
  have late : getNextPeriodStart .week 1209600000 2 = some 1209600000 := by decide +kernel
  obtain rfl := some.inj (late.symm.trans ends)
  exact absurd inside.2 (lt_irrefl _)

end EverWorks.Agents.Budget
