import EverWorks.Schedule.Fires

/-!
The usual rule of five fields, where the day goes by both day fields when neither is `*`. The clock takes a field that
begins with `*/` for `*`, so it follows the rule exactly when such a field leaves no day out.
-/

namespace EverWorks.Schedule
open Lib Lib.Calendar Option List

def cronTexts (cadence : FleetScheduleCadence) : List String :=
  JsString.splitSpaces (JsString.trim (cadence.expr.getD ""))

def dayText (cadence : FleetScheduleCadence) : String :=
  match cadence.kind with
  | .cron => (cronTexts cadence)[2]?.getD ""
  | _ => "*"

def weekdayText (cadence : FleetScheduleCadence) : String :=
  match cadence.kind with
  | .cron => (cronTexts cadence)[4]?.getD ""
  | .weekdays => "1-5"
  | _ => "*"

section Rule

variable (cadence : FleetScheduleCadence) (fields : FleetCronFields)

def ruleDate (day weekday : ℕ) : Prop :=
  if dayText cadence ≠ "*" ∧ weekdayText cadence ≠ "*" then day ∈ fields.days ∨ weekday ∈ fields.weekdays
  else day ∈ fields.days ∧ weekday ∈ fields.weekdays

def ruleShown : Set ℤ :=
  {minute | (dateOf (minute / 1440)).month ∈ fields.months ∧
    ruleDate cadence fields (dateOf (minute / 1440)).day (weekdayOf (minute / 1440)) ∧
    (minute / 60 % 24).toNat ∈ fields.hours ∧ (minute % 60).toNat ∈ fields.minutes}

def ruleInstants (offset : ℤ) : Set ℤ :=
  {ms | ∃ minute ∈ ruleShown cadence fields, ms = (minute - offset) * 60000}

def dayStepped : Prop := dayText cadence ≠ "*" ∧ fields.dayRestricted = false

def weekdayStepped : Prop := weekdayText cadence ≠ "*" ∧ fields.weekdayRestricted = false

def EveryDay : Prop :=
  ∀ month ∈ fields.months, ∀ day, 1 ≤ day → day ≤ monthLength 1 month → day ∈ fields.days

def EveryWeekday : Prop := ∀ weekday < 7, weekday ∈ fields.weekdays

/-- A stepped day field leaves out no day that the rule leaves out. -/
structure StepsKept : Prop where
  both : dayStepped cadence fields → weekdayStepped cadence fields → EveryDay fields ∨ EveryWeekday fields
  besideStar : dayStepped cadence fields → weekdayText cadence = "*" → EveryDay fields
  besideWeekday : dayStepped cadence fields → fields.weekdayRestricted = true → EveryWeekday fields
  weekdayBesideStar : weekdayStepped cadence fields → dayText cadence = "*" → EveryWeekday fields
  weekdayBesideDay : weekdayStepped cadence fields → fields.dayRestricted = true → EveryDay fields

end Rule

variable {letters : JsString.LowerCase} {cadence : FleetScheduleCadence} {fields : FleetCronFields}

/-- What a `*` allows, and the first day that every stepped field allows. -/
structure TextsRead (cadence : FleetScheduleCadence) (fields : FleetCronFields) : Prop where
  day : dayText cadence = "*" → fields.dayRestricted = false ∧
    ∀ value, 1 ≤ value → value ≤ 31 → value ∈ fields.days
  weekday : weekdayText cadence = "*" → fields.weekdayRestricted = false ∧ EveryWeekday fields
  first : fields.dayRestricted = false → 1 ∈ fields.days

theorem textsRead (read : cadenceFields letters cadence = some fields) : TextsRead cadence fields := by
  have inMonth : ∀ value, 1 ≤ value → value ≤ 31 → value ∈ range' 1 31 := by
    intro value low high
    rw [mem_range'_1]
    omega
  have inWeek : ∀ value < 7, value ∈ range 7 := fun value high => mem_range.mpr high
  unfold cadenceFields at read
  split at read
  case h_1 kind =>
    simp only [bind_eq_bind, bind_eq_some_iff] at read
    obtain ⟨minutes, -, read⟩ := read
    split at read <;>
    · cases some.inj read
      exact ⟨fun _ => ⟨rfl, inMonth⟩, fun _ => ⟨rfl, inWeek⟩, fun _ => inMonth 1 le_rfl (by omega)⟩
  case h_2 kind =>
    simp only [bind_eq_bind, bind_eq_some_iff, Prod.exists] at read
    obtain ⟨hour, minute, -, read⟩ := read
    cases some.inj read
    exact ⟨fun _ => ⟨rfl, inMonth⟩, fun _ => ⟨rfl, inWeek⟩, fun _ => inMonth 1 le_rfl (by omega)⟩
  case h_3 kind =>
    simp only [bind_eq_bind, bind_eq_some_iff, Prod.exists] at read
    obtain ⟨hour, minute, -, read⟩ := read
    cases some.inj read
    refine ⟨fun _ => ⟨rfl, inMonth⟩, fun star => ?_, fun _ => inMonth 1 le_rfl (by omega)⟩
    simp [weekdayText, kind] at star
  case h_4 kind =>
    obtain ⟨-, text, day, weekday, same, texts⟩ := parseFleetCron_spec read
    obtain ⟨minute, hour, month, split⟩ := texts.texts
    have list : cronTexts cadence = [minute, hour, day, month, weekday] := by
      rw [cronTexts, same]
      exact split
    have dayEq : dayText cadence = day := by simp [dayText, kind, list]
    have weekdayEq : weekdayText cadence = weekday := by simp [weekdayText, kind, list]
    refine ⟨fun star => ?_, fun star => ?_, texts.firstDay⟩
    · rw [dayEq] at star
      exact ⟨by rw [texts.dayRestricted]; simp [star], texts.everyDay star⟩
    · rw [weekdayEq] at star
      exact ⟨by rw [texts.weekdayRestricted]; simp [star], texts.everyWeekday star⟩

theorem dayMatches_iff {month day weekday : ℕ} :
    dayMatches fields month day weekday = true ↔ month ∈ fields.months ∧
      (fields.dayRestricted = true → fields.weekdayRestricted = true →
        day ∈ fields.days ∨ weekday ∈ fields.weekdays) ∧
      (fields.dayRestricted = true → fields.weekdayRestricted = false → day ∈ fields.days) ∧
      (fields.dayRestricted = false → fields.weekdayRestricted = true → weekday ∈ fields.weekdays) := by
  unfold dayMatches
  cases fields.dayRestricted <;> cases fields.weekdayRestricted <;> simp

theorem forall_days (wellFormed : fields.WellFormed) {P : ℕ → ℕ → Prop} :
    (∀ day, (dateOf day).month ∈ fields.months → P (dateOf day).day (weekdayOf day)) ↔
      ∀ month ∈ fields.months, ∀ day, 1 ≤ day → day ≤ monthLength 1 month → ∀ weekday < 7, P day weekday := by
  constructor
  · intro each month inMonths day low high weekday small
    obtain ⟨year, -, date, falls⟩ := exists_weekday (.inr rfl) (wellFormed.months.low month inMonths)
      (wellFormed.months.high month inMonths) low high small
    have := each (dayOf year month day)
    rw [date, falls] at this
    exact this inMonths
  · intro each day inMonths
    have valid := dateOf_valid day
    exact each _ inMonths _ valid.day_pos
      (valid.day_le.trans (monthLength_le (leapDay_cases _) _)) _ (weekdayOf_lt day)

theorem fallsOn_iff {day : ℤ} (inMonths : (dateOf day).month ∈ fields.months) :
    fields.fallsOn day = true ↔
      (fields.dayRestricted = true → fields.weekdayRestricted = true →
        (dateOf day).day ∈ fields.days ∨ weekdayOf day ∈ fields.weekdays) ∧
      (fields.dayRestricted = true → fields.weekdayRestricted = false → (dateOf day).day ∈ fields.days) ∧
      (fields.dayRestricted = false → fields.weekdayRestricted = true → weekdayOf day ∈ fields.weekdays) := by
  rw [FleetCronFields.fallsOn, dayMatches_iff]
  exact and_iff_right inMonths

/-- The clock and the rule name the same days exactly when no stepped field leaves a day out. -/
theorem rule_iff_stepsKept (wellFormed : fields.WellFormed) (texts : TextsRead cadence fields) :
    (∀ day, (dateOf day).month ∈ fields.months →
      (fields.fallsOn day = true ↔ ruleDate cadence fields (dateOf day).day (weekdayOf day))) ↔
      StepsKept cadence fields := by
  obtain ⟨month, inMonths⟩ := exists_mem_of_ne_nil _ wellFormed.months.nonempty
  obtain ⟨weekday, inWeek⟩ := exists_mem_of_ne_nil _ wellFormed.weekdays.nonempty
  have small : weekday < 7 := Nat.lt_succ_of_le (wellFormed.weekdays.high weekday inWeek)
  have long := monthLength_ge 1 month
  constructor
  · intro same
    have agree := (forall_days wellFormed (P := fun day weekday =>
      ((fields.dayRestricted = true → fields.weekdayRestricted = true →
        day ∈ fields.days ∨ weekday ∈ fields.weekdays) ∧
      (fields.dayRestricted = true → fields.weekdayRestricted = false → day ∈ fields.days) ∧
      (fields.dayRestricted = false → fields.weekdayRestricted = true → weekday ∈ fields.weekdays)) ↔
        ruleDate cadence fields day weekday)).mp
      fun day inMonths => (fallsOn_iff inMonths).symm.trans (same day inMonths)
    constructor
    · rintro ⟨dayText, daily⟩ ⟨weekdayText, weekly⟩
      by_contra left
      simp only [EveryDay, EveryWeekday] at left
      push Not at left
      obtain ⟨⟨month, inMonths, day, low, high, notDay⟩, weekday, small, notWeekday⟩ := left
      have := agree month inMonths day low high weekday small
      simp [ruleDate, dayText, weekdayText, daily, weekly, notDay, notWeekday] at this
    · rintro ⟨dayText, daily⟩ star month inMonths day low high
      have weekly := (texts.weekday star).1
      have := agree month inMonths day low high 0 (by omega)
      simp [ruleDate, star, daily, weekly] at this
      exact this.1
    · rintro ⟨dayText, daily⟩ weekly weekday small
      have weekdayText : weekdayText cadence ≠ "*" := by
        intro star
        rw [(texts.weekday star).1] at weekly
        cases weekly
      have := agree month inMonths 1 le_rfl (by omega) weekday small
      simpa [ruleDate, dayText, weekdayText, daily, weekly, texts.first daily] using this
    · rintro ⟨weekdayText, weekly⟩ star weekday small
      have daily := (texts.day star).1
      have := agree month inMonths 1 le_rfl (by omega) weekday small
      simp [ruleDate, star, daily, weekly] at this
      exact this.2
    · rintro ⟨weekdayText, weekly⟩ daily month inMonths day low high
      have dayText : dayText cadence ≠ "*" := by
        intro star
        rw [(texts.day star).1] at daily
        cases daily
      have := agree month inMonths day low high weekday small
      simpa [ruleDate, dayText, weekdayText, daily, weekly, inWeek] using this
  · intro kept day inMonths
    rw [fallsOn_iff inMonths]
    have valid := dateOf_valid day
    have inWeek := weekdayOf_lt day
    have everyDay : EveryDay fields → (dateOf day).day ∈ fields.days := fun every =>
      every _ inMonths _ valid.day_pos (valid.day_le.trans (monthLength_le (leapDay_cases _) _))
    have everyWeekday : EveryWeekday fields → weekdayOf day ∈ fields.weekdays := fun every => every _ inWeek
    have inYear : (dateOf day).day ≤ 31 := valid.day_le.trans
      ((monthLength_le (leapDay_cases _) _).trans (by unfold monthLength; split_ifs <;> omega))
    by_cases dayStar : dayText cadence = "*" <;> by_cases weekdayStar : weekdayText cadence = "*"
    · obtain ⟨daily, days⟩ := texts.day dayStar
      obtain ⟨weekly, weekdays⟩ := texts.weekday weekdayStar
      simp [ruleDate, dayStar, daily, weekly, days _ valid.day_pos inYear, everyWeekday weekdays]
    · obtain ⟨daily, days⟩ := texts.day dayStar
      cases weekly : fields.weekdayRestricted with
      | true => simp [ruleDate, dayStar, daily, days _ valid.day_pos inYear]
      | false =>
        have every := everyWeekday (kept.weekdayBesideStar ⟨weekdayStar, weekly⟩ dayStar)
        simp [ruleDate, dayStar, daily, days _ valid.day_pos inYear, every]
    · obtain ⟨weekly, weekdays⟩ := texts.weekday weekdayStar
      cases daily : fields.dayRestricted with
      | true => simp [ruleDate, weekdayStar, weekly, everyWeekday weekdays]
      | false =>
        have every := everyDay (kept.besideStar ⟨dayStar, daily⟩ weekdayStar)
        simp [ruleDate, weekdayStar, weekly, everyWeekday weekdays, every]
    · cases daily : fields.dayRestricted <;> cases weekly : fields.weekdayRestricted
      · rcases kept.both ⟨dayStar, daily⟩ ⟨weekdayStar, weekly⟩ with every | every
        · simp [ruleDate, dayStar, weekdayStar, everyDay every]
        · simp [ruleDate, dayStar, weekdayStar, everyWeekday every]
      · have every := everyWeekday (kept.besideWeekday ⟨dayStar, daily⟩ weekly)
        simp [ruleDate, dayStar, weekdayStar, every]
      · have every := everyDay (kept.weekdayBesideDay ⟨weekdayStar, weekly⟩ daily)
        simp [ruleDate, dayStar, weekdayStar, every]
      · simp [ruleDate, dayStar, weekdayStar]

section Constant

variable (letters : JsString.LowerCase) (intl : Intl) (cadence : FleetScheduleCadence)
  (timeZone : Option String) (fields : FleetCronFields)

/-- The clock finds the next and the last instant the rule names, from every instant, and the search span
reaches the next one. -/
structure FollowsRule (offset : ℤ) : Prop where
  next : ∀ afterMs, ∃ at_, nextFleetScheduleFire letters intl cadence timeZone afterMs = some at_ ∧
    IsLeast {ms | ms ∈ ruleInstants cadence fields offset ∧ afterMs < ms} at_
  previous : ∀ atMs, ∃ at_, previousFleetScheduleFire letters intl cadence timeZone atMs = some at_ ∧
    IsGreatest {ms | ms ∈ ruleInstants cadence fields offset ∧ ms ≤ atMs} at_
  within : ∀ afterMs at_, nextFleetScheduleFire letters intl cadence timeZone afterMs = some at_ →
    at_ ≤ afterMs + (maxSearchDays + 1) * 86400000

end Constant

/-- The minutes the clock fires on are those of the rule exactly when their days are. -/
theorem shown_eq_ruleShown (wellFormed : fields.WellFormed) :
    fields.shown = ruleShown cadence fields ↔
      ∀ day, (dateOf day).month ∈ fields.months →
        (fields.fallsOn day = true ↔ ruleDate cadence fields (dateOf day).day (weekdayOf day)) := by
  obtain ⟨hour, inHours⟩ := exists_mem_of_ne_nil _ wellFormed.hours.nonempty
  obtain ⟨minute, inMinutes⟩ := exists_mem_of_ne_nil _ wellFormed.minutes.nonempty
  have inDay := wellFormed.hours.high hour inHours
  have inHour := wellFormed.minutes.high minute inMinutes
  constructor
  · intro same day inMonths
    have sameDay : (day * 1440 + hour * 60 + minute) / 1440 = day := by omega
    have sameHour : ((day * 1440 + hour * 60 + minute) / 60 % 24).toNat = hour := by omega
    have sameMinute : ((day * 1440 + hour * 60 + minute) % 60).toNat = minute := by omega
    have agree := Set.ext_iff.mp same (day * 1440 + hour * 60 + minute)
    rw [mem_shown inDay inHour, ruleShown, Set.mem_ofPred_eq, sameDay, sameHour, sameMinute] at agree
    simpa [inHours, inMinutes, inMonths] using agree
  · intro agree
    ext shown
    rw [FleetCronFields.shown, ruleShown, Set.mem_ofPred_eq, Set.mem_ofPred_eq]
    by_cases inMonths : (dateOf (shown / 1440)).month ∈ fields.months
    · rw [agree _ inMonths]
      simp [inMonths]
    · have notOn : ¬ fields.fallsOn (shown / 1440) = true := fun falls =>
        inMonths (dayMatches_iff.mp falls).1
      simp [inMonths, notOn]

theorem mem_ruleInstants (cadence : FleetScheduleCadence) (fields : FleetCronFields) {clock : Clock} {offset : ℤ}
    (constant : ∀ minute, clock.offset minute = offset) (ms : ℤ) :
    ms ∈ ruleInstants cadence fields offset ↔
      ∃ minute ∈ clock.fires (ruleShown cadence fields), ms = minute * 60000 := by
  constructor
  · rintro ⟨minute, held, rfl⟩
    exact ⟨_, ⟨minute, held, rfl⟩, by rw [Clock.instant_constant constant]⟩
  · rintro ⟨_, ⟨minute, held, rfl⟩, rfl⟩
    exact ⟨minute, held, by rw [Clock.instant_constant constant]⟩

theorem next_within {intl : Intl} {timeZone : Option String} {offset : ℤ}
    (read : cadenceFields letters cadence = some fields) (comes : cronNeverFires fields = false)
    (constant : ∀ minute, (scheduleClock intl timeZone).offset minute = offset) {afterMs at_ : ℤ}
    (found : nextFleetScheduleFire letters intl cadence timeZone afterMs = some at_) :
    at_ ≤ afterMs + (maxSearchDays + 1) * 86400000 := by
  have wellFormed := cadenceFields_wellFormed read
  obtain ⟨value, same, isNext⟩ := nextFleetScheduleFire_spec intl timeZone read comes afterMs
  rw [found] at same
  obtain rfl := some.inj same
  have wallStart : (scheduleClock intl timeZone).wall (afterMs / 60000 + 1) = afterMs / 60000 + 1 + offset := by
    rw [Clock.wall, constant]
  obtain ⟨day, from_, near, falls⟩ :=
    exists_day_after wellFormed comes ((scheduleClock intl timeZone).wall (afterMs / 60000 + 1) / 1440 + 1)
  obtain ⟨hour, inHours⟩ := exists_mem_of_ne_nil _ wellFormed.hours.nonempty
  obtain ⟨minute, inMinutes⟩ := exists_mem_of_ne_nil _ wellFormed.minutes.nonempty
  have inDay := wellFormed.hours.high hour inHours
  have inHour := wellFormed.minutes.high minute inMinutes
  have least := (Clock.unmoved_of_constant constant).next_least isNext
  have le := least.2 ⟨⟨_, (mem_shown inDay inHour).mpr ⟨falls, inHours, inMinutes⟩, rfl⟩, by
    rw [Clock.instant_constant constant]
    omega⟩
  rw [Clock.instant_constant constant] at le
  unfold maxSearchDays
  omega

def workdays : JsValue := .object [("kind", .string "cron"), ("expr", .string "30 9 * * mon-fri")]

def oddDays : JsValue := .object [("kind", .string "cron"), ("expr", .string "0 0 */2 * *")]

def oddDaysCadence : FleetScheduleCadence := { kind := .cron, expr := some "0 0 */2 * *" }

def oddDaysFields : FleetCronFields where
  minutes := [0]
  hours := [0]
  days := (range 16).map (2 * · + 1)
  months := range' 1 12
  weekdays := range 7
  dayRestricted := false
  weekdayRestricted := false

end EverWorks.Schedule
