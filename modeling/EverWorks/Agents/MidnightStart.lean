import EverWorks.Agents.RunWindow

/-!
Around a midnight a zone shows two offsets at most, one before and one after a change. Where the guess and the offset
read at it fall on the same side of the change as the answer, the answer is the first instant of the date.
-/

namespace EverWorks.Agents.RunWindow
open Lib Calendar Credits TimeZone

namespace TimeZone

variable (zone : TimeZone) (midnight : ℤ)

def guessed : ℤ := midnight - zone.offset (midnight - zone.offset midnight)

/-- The clocks jump over the midnight, and not from the midnight itself on at or after that instant of UTC. -/
def Skips : Prop :=
  ∃ change, zone.offset (change - 1) < zone.offset change ∧ change + zone.offset (change - 1) ≤ midnight ∧
    midnight < change + zone.offset change ∧ ¬ (midnight = change + zone.offset (change - 1) ∧ change ≤ midnight)

/-- The clocks show the midnight twice and are set back before that instant of UTC, or at it. -/
def Repeats : Prop :=
  ∃ change, zone.offset change < zone.offset (change - 1) ∧ change + zone.offset change ≤ midnight ∧
    midnight < change + zone.offset (change - 1) ∧ change ≤ midnight

/-- The clocks are set back over the midnight, into the date before. -/
def Splits : Prop :=
  ∃ change, zone.offset change < zone.offset (change - 1) ∧ change + zone.offset change < midnight ∧
    midnight < change + zone.offset (change - 1)

structure Around (change before after : ℤ) : Prop where
  early : ∀ t, midnight - msPerDay ≤ t → t < change → zone.offset t = before
  late : ∀ t, change ≤ t → t ≤ midnight + msPerDay → zone.offset t = after
  genuine : before ≠ after → midnight - msPerDay < change ∧ change ≤ midnight + msPerDay ∧
    zone.offset (change - 1) = before ∧ zone.offset change = after
  small : before - 10800000 ≤ after ∧ after ≤ before + 10800000
  before_bounded : -msPerDay < before ∧ before < msPerDay
  after_bounded : -msPerDay < after ∧ after < msPerDay

theorem three_hours : 10800000 < msPerDay := by decide

theorem exists_around : ∃ change before after, zone.Around midnight change before after := by
  have hours := three_hours
  rcases one_step_between zone.spaced (a := midnight - msPerDay) (b := midnight + msPerDay) (by omega) (by omega) with
    flat | ⟨change, low, high, jump, early, late⟩
  · refine ⟨midnight - msPerDay, _, _, ?_, flat, fun jump => absurd rfl jump, by omega, zone.bounded _, zone.bounded _⟩
    intro t low high
    omega
  · have left := early (change - 1) (by omega) (by omega)
    have right := late change le_rfl high
    have small := abs_le.mp (zone.small change)
    refine ⟨change, _, _, early, late, fun _ => ⟨low, high, left, right⟩, ?_, zone.bounded _, zone.bounded _⟩
    rw [← left, ← right]
    omega

namespace Around

variable {zone midnight} {change before after : ℤ} (around : zone.Around midnight change before after)
include around

theorem offset_eq {t : ℤ} (low : midnight - msPerDay ≤ t) (high : t ≤ midnight + msPerDay) :
    t < change ∧ zone.offset t = before ∨ change ≤ t ∧ zone.offset t = after := by
  rcases lt_or_ge t change with early | late
  · exact .inl ⟨early, around.early t low early⟩
  · exact .inr ⟨late, around.late t late high⟩

theorem unique {other : ℤ} (jump : zone.offset (other - 1) ≠ zone.offset other) (low : midnight - msPerDay < other)
    (high : other ≤ midnight + msPerDay) :
    other = change ∧ zone.offset (other - 1) = before ∧ zone.offset other = after := by
  rcases around.offset_eq (t := other) low.le high with ⟨early, here⟩ | ⟨late, here⟩
  · rw [here, around.early (other - 1) (by omega) (by omega)] at jump
    exact absurd rfl jump
  · rcases around.offset_eq (t := other - 1) (by omega) (by omega) with ⟨early, there⟩ | ⟨late', there⟩
    · exact ⟨by omega, there, here⟩
    · rw [here, there] at jump
      exact absurd rfl jump

theorem skips_iff : zone.Skips midnight ↔ before < after ∧ change + before ≤ midnight ∧ midnight < change + after ∧
    ¬ (midnight = change + before ∧ change ≤ midnight) := by
  constructor
  · rintro ⟨other, jump, low, high, rest⟩
    have lower := zone.bounded (other - 1)
    have upper := zone.bounded other
    obtain ⟨rfl, rfl, rfl⟩ := around.unique jump.ne (by omega) (by omega)
    exact ⟨jump, low, high, rest⟩
  · rintro ⟨jump, low, high, rest⟩
    obtain ⟨-, -, left, right⟩ := around.genuine jump.ne
    refine ⟨change, ?_⟩
    rw [left, right]
    exact ⟨jump, low, high, rest⟩

theorem repeats_iff : zone.Repeats midnight ↔ after < before ∧ change + after ≤ midnight ∧ midnight < change + before ∧
    change ≤ midnight := by
  constructor
  · rintro ⟨other, jump, low, high, rest⟩
    have lower := zone.bounded (other - 1)
    have upper := zone.bounded other
    obtain ⟨rfl, rfl, rfl⟩ := around.unique jump.ne' (by omega) (by omega)
    exact ⟨jump, low, high, rest⟩
  · rintro ⟨jump, low, high, rest⟩
    obtain ⟨-, -, left, right⟩ := around.genuine jump.ne'
    refine ⟨change, ?_⟩
    rw [left, right]
    exact ⟨jump, low, high, rest⟩

theorem splits_iff : zone.Splits midnight ↔
    after < before ∧ change + after < midnight ∧ midnight < change + before := by
  constructor
  · rintro ⟨other, jump, low, high⟩
    have lower := zone.bounded (other - 1)
    have upper := zone.bounded other
    obtain ⟨rfl, rfl, rfl⟩ := around.unique jump.ne' (by omega) (by omega)
    exact ⟨jump, low, high⟩
  · rintro ⟨jump, low, high⟩
    obtain ⟨-, -, left, right⟩ := around.genuine jump.ne'
    refine ⟨change, ?_⟩
    rw [left, right]
    exact ⟨jump, low, high⟩

theorem guessed_cases :
    (midnight < change ∧ midnight - before < change ∧ zone.guessed midnight = midnight - before) ∨
    (midnight < change ∧ change ≤ midnight - before ∧ zone.guessed midnight = midnight - after) ∨
    (change ≤ midnight ∧ midnight - after < change ∧ zone.guessed midnight = midnight - before) ∨
    (change ≤ midnight ∧ change ≤ midnight - after ∧ zone.guessed midnight = midnight - after) := by
  have lower := around.before_bounded
  have upper := around.after_bounded
  have hours := three_hours
  rw [guessed]
  rcases around.offset_eq (t := midnight) (by omega) (by omega) with ⟨early, here⟩ | ⟨late, here⟩ <;> rw [here]
  · rcases around.offset_eq (t := midnight - before) (by omega) (by omega) with ⟨first, there⟩ | ⟨first, there⟩ <;>
      rw [there]
    · exact .inl ⟨early, first, rfl⟩
    · exact .inr (.inl ⟨early, first, rfl⟩)
  · rcases around.offset_eq (t := midnight - after) (by omega) (by omega) with ⟨first, there⟩ | ⟨first, there⟩ <;>
      rw [there]
    · exact .inr (.inr (.inl ⟨late, first, rfl⟩))
    · exact .inr (.inr (.inr ⟨late, first, rfl⟩))

theorem exists_first : ∃ first, (midnight ≤ zone.localTime first ∧ zone.localTime first < midnight + msPerDay) ∧
    (∀ t < first, zone.localTime t < midnight) ∧
    (midnight < change + before ∧ first = midnight - before ∨
      change + before ≤ midnight ∧ midnight < change + after ∧ first = change ∨
      change + before ≤ midnight ∧ change + after ≤ midnight ∧ first = midnight - after) := by
  have hours := three_hours
  have small := around.small
  have lower := around.before_bounded
  have upper := around.after_bounded
  have far {t : ℤ} (early : t < midnight - msPerDay) : zone.localTime t < midnight := by
    have bounded := zone.bounded t
    rw [localTime]
    omega
  have near {t : ℤ} (low : midnight - msPerDay ≤ t) (high : t ≤ midnight + msPerDay) :
      t < change ∧ zone.localTime t = t + before ∨ change ≤ t ∧ zone.localTime t = t + after := by
    rw [localTime]
    rcases around.offset_eq low high with ⟨side, here⟩ | ⟨side, here⟩
    · exact .inl ⟨side, by rw [here]⟩
    · exact .inr ⟨side, by rw [here]⟩
  have least {first : ℤ} (inside : midnight - msPerDay ≤ first ∧ first ≤ midnight + msPerDay)
      (early : ∀ t, midnight - msPerDay ≤ t → t < first →
        t < change ∧ t + before < midnight ∨ change ≤ t ∧ t + after < midnight) :
      ∀ t < first, zone.localTime t < midnight := by
    intro t before_first
    rcases lt_or_ge t (midnight - msPerDay) with out | low
    · exact far out
    · rcases near low (by omega) with ⟨side, here⟩ | ⟨side, here⟩ <;>
        rcases early t low before_first with ⟨side', under⟩ | ⟨side', under⟩ <;> omega
  by_cases soon : midnight < change + before
  · refine ⟨midnight - before, ?_, least (by omega) fun t low under => .inl ⟨by omega, by omega⟩, .inl ⟨soon, rfl⟩⟩
    rcases near (t := midnight - before) (by omega) (by omega) with ⟨side, here⟩ | ⟨side, here⟩ <;> omega
  · by_cases skipped : midnight < change + after
    · refine ⟨change, ?_, least (by omega) fun t low under => .inl ⟨under, by omega⟩,
        .inr (.inl ⟨by omega, skipped, rfl⟩)⟩
      rcases near (t := change) (by omega) (by omega) with ⟨side, here⟩ | ⟨side, here⟩ <;> omega
    · refine ⟨midnight - after, ?_, least (by omega) fun t low under => ?_, .inr (.inr ⟨by omega, by omega, rfl⟩)⟩
      · rcases near (t := midnight - after) (by omega) (by omega) with ⟨side, here⟩ | ⟨side, here⟩ <;> omega
      · rcases lt_or_ge t change with side | side
        · exact .inl ⟨side, by omega⟩
        · exact .inr ⟨side, by omega⟩

end Around

theorem localDay_eq_iff {t day : ℤ} :
    zone.localDay t = day ↔ day * msPerDay ≤ zone.localTime t ∧ zone.localTime t < day * msPerDay + msPerDay := by
  rw [localDay, Int.ediv_eq_iff_of_pos msPerDay_pos]

theorem isLeast_localDay {day first : ℤ} (inside : day * msPerDay ≤ zone.localTime first ∧
      zone.localTime first < day * msPerDay + msPerDay) (early : ∀ t < first, zone.localTime t < day * msPerDay) :
    IsLeast {t | zone.localDay t = day} first := by
  refine ⟨(localDay_eq_iff zone).mpr inside, fun t shows => ?_⟩
  by_contra under
  have late := ((localDay_eq_iff zone).mp shows).1
  have lt := early t (not_le.mp under)
  omega

/-- A guess is the first instant of its date where the clocks neither jump over the midnight nor are set back from
behind it, but for those that jump or are set back on the other side of the guess. -/
theorem isLeast_guessed (day : ℤ) : IsLeast {t | zone.localDay t = day} (zone.guessed (day * msPerDay)) ↔
    ¬ zone.Skips (day * msPerDay) ∧ ¬ zone.Repeats (day * msPerDay) := by
  obtain ⟨change, before, after, around⟩ := zone.exists_around (day * msPerDay)
  obtain ⟨first, inside, early, which⟩ := around.exists_first
  have least := isLeast_localDay zone inside early
  have hours := three_hours
  have small := around.small
  have same : IsLeast {t | zone.localDay t = day} (zone.guessed (day * msPerDay)) ↔
      zone.guessed (day * msPerDay) = first :=
    ⟨fun found => found.unique least, fun found => found.symm ▸ least⟩
  rw [same, around.skips_iff, around.repeats_iff]
  rcases which with ⟨low, rfl⟩ | ⟨low, high, rfl⟩ | ⟨low, high, rfl⟩ <;>
    rcases around.guessed_cases with ⟨side, guess, value⟩ | ⟨side, guess, value⟩ | ⟨side, guess, value⟩ |
      ⟨side, guess, value⟩ <;> omega

/-- Every date has a first instant, and the clocks show later times from it on unless they are set back over the
midnight. -/
theorem exists_cut : ∃ first, (midnight ≤ zone.localTime first ∧ zone.localTime first < midnight + msPerDay) ∧
    (∀ t < first, zone.localTime t < midnight) ∧
    ((∀ t, first ≤ t → midnight ≤ zone.localTime t) ↔ ¬ zone.Splits midnight) := by
  obtain ⟨change, before, after, around⟩ := zone.exists_around midnight
  obtain ⟨first, inside, early, which⟩ := around.exists_first
  have hours := three_hours
  have small := around.small
  have lower := around.before_bounded
  have upper := around.after_bounded
  refine ⟨first, inside, early, ?_⟩
  rw [around.splits_iff]
  constructor
  · rintro late ⟨back, low, high⟩
    have shown := late change (by omega)
    rw [localTime, around.late change le_rfl (by omega)] at shown
    omega
  · intro splits t late
    rcases lt_or_ge (midnight + msPerDay) t with far | high
    · have bounded := zone.bounded t
      rw [localTime]
      omega
    · rw [localTime]
      rcases around.offset_eq (t := t) (by omega) high with ⟨side, here⟩ | ⟨side, here⟩ <;> rw [here] <;> omega

theorem offset_drift {s t : ℤ} (le : s ≤ t) (near : t ≤ s + 2 * msPerDay) :
    zone.offset s - 10800000 ≤ zone.offset t ∧ zone.offset t ≤ zone.offset s + 10800000 := by
  rcases one_step_between zone.spaced le near with flat | ⟨change, low, high, -, early, late⟩
  · rw [flat t le le_rfl]
    omega
  · have small := abs_le.mp (zone.small change)
    rw [early (change - 1) (by omega) (by omega), late change le_rfl high] at small
    omega

theorem localTime_drop {s t : ℤ} (le : s ≤ t) : zone.localTime s - 10800000 ≤ zone.localTime t := by
  by_cases near : t ≤ s + 2 * msPerDay
  · have drift := zone.offset_drift le near
    rw [localTime, localTime]
    omega
  · have hours := three_hours
    have drift := zone.offset_drift (s := s) (t := s + 2 * msPerDay) (by omega) le_rfl
    have rest := localTime_drop (s := s + 2 * msPerDay) (t := t) (by omega)
    rw [localTime] at rest ⊢
    omega
termination_by (t - s).toNat
decreasing_by
  have hours := three_hours
  omega

end TimeZone

section
variable (zone : TimeZone)

theorem utcYear_intlYear (year : ℤ) :
    100 ≤ year ∧ utcYear (intlYear year) = year ∨ year < 100 ∧ year + 199 ≤ utcYear (intlYear year) := by
  unfold utcYear intlYear
  split <;> split <;> omega

theorem yearStart_add_le {year later : ℤ} (le : year ≤ later) :
    yearStart year + 365 * (later - year) ≤ yearStart later := by
  induction later, le using Int.leInduction with
  | base => omega
  | succ later le ih =>
    have leap := leapDay_cases later
    rw [yearStart_succ]
    omega

theorem utcDay_month {year : ℤ} {month : ℕ} {day : ℤ} (pos : 1 ≤ month) (le : month ≤ 12) :
    utcDay year (month - 1) day = dayOf year month day := by
  have whole : ((month : ℤ) - 1) / 12 = 0 := by omega
  have part : (((month : ℤ) - 1) % 12).toNat + 1 = month := by omega
  rw [utcDay, whole, part, add_zero]

theorem dayOf_le_of_year {year later : ℤ} {month : ℕ} {day : ℤ} (pos : 1 ≤ month) (le : month ≤ 12)
    (far : year + 199 ≤ later) : dayOf year month day + 70000 ≤ dayOf later month day := by
  have years := yearStart_add_le (show year ≤ later by omega)
  have leap := leapDay_cases year
  have leap' := leapDay_cases later
  unfold dayOf daysBefore
  omega

theorem dayOf_hundred : dayOf 100 1 1 = yearStart 100 := by decide

theorem hundred_le_iff {day : ℤ} : 100 ≤ (dateOf day).year ↔ dayOf 100 1 1 ≤ day := by
  obtain ⟨low, high⟩ := yearStart_yearOf day
  have year : (dateOf day).year = yearOf day := rfl
  rw [dayOf_hundred, year]
  constructor
  · intro late
    exact (yearStart_mono late).trans low
  · intro late
    by_contra early
    have before : yearStart (yearOf day + 1) ≤ yearStart 100 := yearStart_mono (by omega)
    omega

theorem time_of_day (instant : ℤ) :
    zone.localDay instant * msPerDay + zone.localTime instant % msPerDay / 1000 * 1000 - instant / 1000 * 1000 =
      zone.offset instant := by
  have whole := zone.whole instant
  rw [localDay, localTime]
  unfold msPerDay
  omega

theorem timezoneOffsetMs_cases (instant : ℤ) :
    dayOf 100 1 1 ≤ zone.localDay instant ∧ timezoneOffsetMs instant zone = zone.offset instant ∨
      zone.localDay instant < dayOf 100 1 1 ∧
        zone.offset instant + 70000 * msPerDay ≤ timezoneOffsetMs instant zone := by
  have time := time_of_day zone instant
  have back := dayOf_dateOf (zone.localDay instant)
  obtain ⟨pos, le, -, -⟩ := dateOf_valid (zone.localDay instant)
  rcases utcYear_intlYear (dateOf (zone.localDay instant)).year with ⟨late, year⟩ | ⟨early, far⟩
  · refine .inl ⟨hundred_le_iff.mp late, ?_⟩
    rw [timezoneOffsetMs, dateUTC, year, utcDay_month pos le, back]
    omega
  · refine .inr ⟨not_le.mp fun late => absurd (hundred_le_iff.mpr late) (not_le.mpr early), ?_⟩
    have days := @dayOf_le_of_year _ _ _ (dateOf (zone.localDay instant)).day pos le far
    have scaled := Int.mul_le_mul_of_nonneg_right days msPerDay_pos.le
    rw [back, add_mul] at scaled
    rw [timezoneOffsetMs, dateUTC, utcDay_month pos le]
    omega

/-- The year is 100 or later; on the first day of that year the zone is not west of UTC and the clocks do not jump
between the guess and the midnight of UTC; and the clocks neither jump over the midnight nor repeat it on the wrong
side of the guess. -/
def Fits (date : Date) : Prop :=
  let midnight := dayOf date.year date.month date.day * msPerDay
  100 ≤ date.year ∧
    (date = ⟨100, 1, 1⟩ → 0 ≤ zone.offset midnight ∧
      zone.offset midnight ≤ zone.offset (midnight - zone.offset midnight)) ∧
    ¬ zone.Skips midnight ∧ ¬ zone.Repeats midnight

theorem day_hundred_le {date : Date} (valid : Valid date) (late : 100 ≤ date.year) :
    dayOf 100 1 1 ≤ dayOf date.year date.month date.day := by
  rw [← hundred_le_iff, dateOf_dayOf valid]
  exact late

theorem read_of_late {instant : ℤ} (late : dayOf 100 1 1 * msPerDay ≤ zone.localTime instant) :
    timezoneOffsetMs instant zone = zone.offset instant := by
  have shown : dayOf 100 1 1 ≤ zone.localDay instant := (Int.le_ediv_iff_mul_le msPerDay_pos).mpr late
  rcases timezoneOffsetMs_cases zone instant with ⟨-, read⟩ | ⟨early, -⟩
  · exact read
  · omega

theorem read_of_early {instant : ℤ} (early : zone.localTime instant < dayOf 100 1 1 * msPerDay) :
    zone.offset instant + 70000 * msPerDay ≤ timezoneOffsetMs instant zone := by
  have shown : zone.localDay instant < dayOf 100 1 1 := (Int.ediv_lt_iff_lt_mul msPerDay_pos).mpr early
  rcases timezoneOffsetMs_cases zone instant with ⟨late, -⟩ | ⟨-, read⟩
  · omega
  · exact read

theorem offset_near (midnight : ℤ) : zone.offset midnight - 10800000 ≤ zone.offset (midnight - zone.offset midnight) := by
  obtain ⟨change, before, after, around⟩ := zone.exists_around midnight
  have bounded := zone.bounded midnight
  have small := around.small
  have hours := three_hours
  rcases around.offset_eq (t := midnight) (by omega) (by omega) with ⟨-, here⟩ | ⟨-, here⟩ <;>
    rcases around.offset_eq (t := midnight - zone.offset midnight) (by omega) (by omega) with ⟨-, there⟩ | ⟨-, there⟩ <;>
      omega

theorem startOfWallClock_eq {day : ℤ} (late : dayOf 100 1 1 < day) :
    startOfWallClock (day * msPerDay) zone = zone.guessed (day * msPerDay) := by
  have hours := three_hours
  have scaled : (dayOf 100 1 1 + 1) * msPerDay ≤ day * msPerDay := Int.mul_le_mul_of_nonneg_right late msPerDay_pos.le
  rw [add_mul, one_mul] at scaled
  have bounded := zone.bounded (day * msPerDay)
  have near := offset_near zone (day * msPerDay)
  rw [startOfWallClock, guessed]
  rw [@read_of_late zone (day * msPerDay) (by rw [localTime]; omega)]
  exact congrArg _ (read_of_late zone (by rw [localTime]; omega))

theorem startOfWallClock_hundred {midnight : ℤ} (first : midnight = dayOf 100 1 1 * msPerDay) :
    startOfWallClock midnight zone = zone.guessed midnight ∧ (0 ≤ zone.offset midnight ∧
        zone.offset midnight ≤ zone.offset (midnight - zone.offset midnight)) ∨
      startOfWallClock midnight zone < midnight - 60000 * msPerDay ∧ ¬ (0 ≤ zone.offset midnight ∧
        zone.offset midnight ≤ zone.offset (midnight - zone.offset midnight)) := by
  have bounded := zone.bounded midnight
  have bounded' := zone.bounded (midnight - timezoneOffsetMs midnight zone)
  have hours := three_hours
  rw [startOfWallClock]
  rcases lt_or_ge (zone.offset midnight) 0 with west | east
  · have read := @read_of_early zone midnight (by rw [localTime]; omega)
    have again := @read_of_early zone (midnight - timezoneOffsetMs midnight zone)
      (by rw [localTime]; omega)
    exact .inr ⟨by omega, by omega⟩
  · have read := @read_of_late zone midnight (by rw [localTime]; omega)
    rw [read] at bounded' ⊢
    rcases lt_or_ge (zone.offset (midnight - zone.offset midnight)) (zone.offset midnight) with jumped | kept
    · have again := @read_of_early zone (midnight - zone.offset midnight) (by rw [localTime]; omega)
      exact .inr ⟨by omega, by omega⟩
    · have again := @read_of_late zone (midnight - zone.offset midnight) (by rw [localTime]; omega)
      exact .inl ⟨by rw [again, guessed], east, kept⟩

theorem startOfWallClock_early {date : Date} (valid : Valid date) (nonneg : 0 ≤ date.year) (early : date.year < 100) :
    dayOf date.year date.month date.day * msPerDay + 60000 * msPerDay <
      startOfWallClock (dateUTC date.year (date.month - 1) date.day) zone := by
  have far : date.year + 199 ≤ utcYear date.year := by
    unfold utcYear
    split <;> omega
  have late : 1900 ≤ utcYear date.year := by
    rw [utcYear, if_pos ⟨nonneg, by omega⟩]
    omega
  have days := @dayOf_le_of_year _ _ _ date.day valid.month_pos valid.month_le far
  have day : dayOf 100 1 1 < dayOf (utcYear date.year) date.month date.day := by
    have years := yearStart_add_le (show 100 ≤ utcYear date.year by omega)
    have pos := valid.day_pos
    have month := valid.month_pos
    have leap := leapDay_cases (utcYear date.year)
    rw [dayOf_hundred]
    unfold dayOf daysBefore
    omega
  rw [dateUTC, utcDay_month valid.month_pos valid.month_le, startOfWallClock_eq zone day, guessed]
  have bounded := zone.bounded (dayOf (utcYear date.year) date.month date.day * msPerDay -
    zone.offset (dayOf (utcYear date.year) date.month date.day * msPerDay))
  have scaled := Int.mul_le_mul_of_nonneg_right days msPerDay_pos.le
  rw [add_mul] at scaled
  omega

theorem isLeast_startOfWallClock {date : Date} (valid : Valid date) (nonneg : 0 ≤ date.year) :
    IsLeast {t | zone.localDay t = dayOf date.year date.month date.day}
      (startOfWallClock (dateUTC date.year (date.month - 1) date.day) zone) ↔ Fits zone date := by
  rcases lt_or_ge date.year 100 with early | late
  · have far := startOfWallClock_early zone valid nonneg early
    refine iff_of_false (fun least => ?_) fun fits => absurd fits.1 (not_le.mpr early)
    have shows := ((zone.localDay_eq_iff).mp least.1).2
    have bounded := zone.bounded (startOfWallClock (dateUTC date.year (date.month - 1) date.day) zone)
    have hours := three_hours
    rw [localTime] at shows
    omega
  · have wall : dateUTC date.year (date.month - 1) date.day = dayOf date.year date.month date.day * msPerDay := by
      have same : utcYear date.year = date.year := if_neg (by omega)
      rw [dateUTC, same, utcDay_month valid.month_pos valid.month_le]
    rw [wall, Fits, and_iff_right late]
    rcases (day_hundred_le valid late).eq_or_lt with first | after
    · have date_eq : date = ⟨100, 1, 1⟩ := by
        have back := dateOf_dayOf valid
        rw [← first] at back
        exact back.symm.trans (by decide +kernel)
      rw [← first]
      rcases @startOfWallClock_hundred zone (dayOf 100 1 1 * msPerDay) rfl with ⟨same, east⟩ | ⟨far, west⟩
      · rw [same, zone.isLeast_guessed, and_iff_right fun _ => east]
      · refine iff_of_false (fun least => ?_) fun both => west (both.1 date_eq)
        have shows := ((zone.localDay_eq_iff).mp least.1).1
        have bounded := zone.bounded (startOfWallClock (dayOf 100 1 1 * msPerDay) zone)
        have hours := three_hours
        rw [localTime] at shows
        omega
    · have later : date ≠ ⟨100, 1, 1⟩ := by
        rintro rfl
        exact absurd after (lt_irrefl _)
      rw [startOfWallClock_eq zone after, zone.isLeast_guessed, and_iff_right fun same => absurd same later]

end

end EverWorks.Agents.RunWindow
