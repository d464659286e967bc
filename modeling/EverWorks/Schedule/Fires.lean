import EverWorks.Schedule.Clock
import EverWorks.Schedule.Fields

/-!
Both searches of the schedule clock look at whole minutes only, so a zone is a `Clock` for them: a search finds
what `IsNext` and `IsLast` say of the minutes a cadence fires on, and always finds something.
-/

namespace EverWorks.Schedule
open Lib Lib.Calendar List

def TimeZone.clock (zone : TimeZone) : Clock where
  offset minute := zone.offset (minute * 60000)
  bounded _ := zone.bounded _
  small minute := by
    rcases one_step_between zone.spaced (by omega : (minute - 1) * 60000 ≤ minute * 60000) (by omega) with
      flat | ⟨step, low, high, -, before, after⟩
    · have := flat (minute * 60000) (by omega) le_rfl
      omega
    · have := zone.small step
      have := before (step - 1) (by omega) (by omega)
      have := after step le_rfl high
      omega
  spaced := by
    have change : ∀ minute, zone.offset ((minute - 1) * 60000) ≠ zone.offset (minute * 60000) →
        ∃ step, (minute - 1) * 60000 < step ∧ step ≤ minute * 60000 ∧
          zone.offset (step - 1) ≠ zone.offset step := by
      intro minute change
      rcases one_step_between zone.spaced (by omega : (minute - 1) * 60000 ≤ minute * 60000) (by omega) with
        flat | ⟨step, low, high, steps, -⟩
      · exact absurd (flat (minute * 60000) (by omega) le_rfl).symm change
      · exact ⟨step, low, high, steps⟩
    intro i j lt first second
    obtain ⟨a, low, high, steps⟩ := change i first
    obtain ⟨b, low', high', steps'⟩ := change j second
    have := zone.spaced (by omega : a < b) steps steps'
    omega

variable {zone : TimeZone}

theorem dateUTC_eq (day : ℤ) (hour minute second : ℕ) :
    dateUTC (dateOf day).year (dateOf day).month (dateOf day).day hour minute second =
      (((day * 24 + hour) * 60 + minute) * 60 + second) * 1000 := by
  rw [dateUTC, dayOf_dateOf]

theorem fleetZonedParts_minute (minute : ℤ) :
    let date := dateOf (zone.clock.wall minute / 1440)
    fleetZonedParts (minute * 60000) zone = {
      year := date.year
      month := date.month
      day := date.day
      hour := (zone.clock.wall minute / 60 % 24).toNat
      minute := (zone.clock.wall minute % 60).toNat
      second := 0
      weekday := weekdayOf (zone.clock.wall minute / 1440) } := by
  have shown : minute * 60000 + zone.offset (minute * 60000) * 60000 = zone.clock.wall minute * 60000 := by
    rw [Clock.wall, Int.add_mul]
    rfl
  have day : zone.clock.wall minute * 60000 / 86400000 = zone.clock.wall minute / 1440 := by omega
  have hour : zone.clock.wall minute * 60000 / 3600000 = zone.clock.wall minute / 60 := by omega
  have second : (zone.clock.wall minute * 60000 / 1000 % 60).toNat = 0 := by omega
  rw [fleetZonedParts, shown, day, hour, Int.mul_ediv_cancel _ (by omega), second, dayOf_dateOf]

theorem zoneOffsetMs_minute (minute : ℤ) :
    zoneOffsetMs (minute * 60000) zone = zone.clock.offset minute * 60000 := by
  have floored : minute * 60000 / 1000 * 1000 = minute * 60000 := by omega
  rw [zoneOffsetMs, floored, fleetZonedParts_minute]
  dsimp only
  rw [dateUTC_eq, Clock.wall]
  omega

theorem dateOf_inj {a b : ℤ} (year : (dateOf a).year = (dateOf b).year)
    (month : (dateOf a).month = (dateOf b).month) (day : (dateOf a).day = (dateOf b).day) : a = b := by
  rw [← dayOf_dateOf a, ← dayOf_dateOf b, year, month, day]

theorem back_iff {day minute : ℤ} {h m : ℕ} (inDay : h ≤ 23) (inHour : m ≤ 59) :
    ((fleetZonedParts (minute * 60000) zone).year = (dateOf day).year ∧
      (fleetZonedParts (minute * 60000) zone).month = (dateOf day).month ∧
      (fleetZonedParts (minute * 60000) zone).day = (dateOf day).day ∧
      (fleetZonedParts (minute * 60000) zone).hour = h ∧
      (fleetZonedParts (minute * 60000) zone).minute = m) ↔
      zone.clock.wall minute = day * 1440 + h * 60 + m := by
  rw [fleetZonedParts_minute]
  dsimp only
  constructor
  · rintro ⟨sameYear, sameMonth, sameDay, rfl, rfl⟩
    have := dateOf_inj sameYear sameMonth sameDay
    omega
  · intro same
    rw [same]
    have : (day * 1440 + h * 60 + m) / 1440 = day := by omega
    rw [this]
    refine ⟨rfl, rfl, rfl, ?_, ?_⟩ <;> omega

theorem fleetZonedInstant_eq {day : ℤ} {hour minute : ℕ} (inDay : hour ≤ 23) (inHour : minute ≤ 59) :
    fleetZonedInstant (dateOf day).year (dateOf day).month (dateOf day).day hour minute zone =
      zone.clock.instant (day * 1440 + hour * 60 + minute) * 60000 := by
  set shown := day * 1440 + hour * 60 + minute with shownEq
  have wall : dateUTC (dateOf day).year (dateOf day).month (dateOf day).day hour minute 0 = shown * 60000 := by
    rw [dateUTC_eq]
    omega
  have before : shown * 60000 - 86400000 = (shown - 1440) * 60000 := by omega
  have after : shown * 60000 + 86400000 = (shown + 1440) * 60000 := by omega
  have step : ∀ (best : Option ℤ) (offset : ℤ),
      (if (fleetZonedParts (shown * 60000 - offset * 60000) zone).year = (dateOf day).year ∧
          (fleetZonedParts (shown * 60000 - offset * 60000) zone).month = (dateOf day).month ∧
          (fleetZonedParts (shown * 60000 - offset * 60000) zone).day = (dateOf day).day ∧
          (fleetZonedParts (shown * 60000 - offset * 60000) zone).hour = hour ∧
          (fleetZonedParts (shown * 60000 - offset * 60000) zone).minute = minute ∧
          best.all (fun earliest => shown * 60000 - offset * 60000 < earliest) = true
        then some (shown * 60000 - offset * 60000) else best) =
      if zone.clock.wall (shown - offset) = shown ∧
          best.all (fun earliest => (shown - offset) * 60000 < earliest) = true
        then some ((shown - offset) * 60000) else best := by
    intro best offset
    rw [← Int.sub_mul]
    refine if_congr ?_ rfl rfl
    rw [← back_iff inDay inHour]
    tauto
  unfold fleetZonedInstant
  dsimp only
  simp only [wall, before, after, zoneOffsetMs_minute]
  set a := zone.clock.offset (shown - 1440) with aEq
  set b := zone.clock.offset shown
  set c := zone.clock.offset (shown + 1440) with cEq
  -- Of the three offsets the middle one is the first or the last.
  have middle : b = a ∨ b = c := by
    rcases zone.clock.offsets (by omega : shown - 1440 ≤ shown + 1440) (by omega) with
      flat | ⟨k, low, high, -, early, late⟩
    · exact .inl (flat shown (by omega) (by omega))
    · by_cases side : shown < k
      · exact .inl (early shown (by omega) side)
      · exact .inr (late shown (by omega) (by omega))
  have first : zone.clock.wall (shown - a) = shown → zone.clock.wall (shown - c) = shown → c ≤ a := by
    intro showsA showsC
    have le := (Clock.instant_shown showsC).2
    rw [Clock.instant, ← aEq, if_pos showsA] at le
    omega
  have scaled : ∀ x y : ℤ, x * 60000 = y * 60000 ↔ x = y := by omega
  have sets : [a * 60000, b * 60000, c * 60000].eraseDups =
      if a = c then [a * 60000] else [a * 60000, c * 60000] := by
    by_cases flat : a = c
    · rw [if_pos flat, ← flat, show b = a by omega]
      simp [eraseDups_cons]
    · have flat' : ¬ c = a := fun same => flat same.symm
      rcases middle with same | same <;> rw [if_neg flat, same] <;> simp [eraseDups_cons, flat']
  rw [sets, Clock.instant, ← aEq, ← cEq]
  by_cases flat : a = c
  · rw [if_pos flat, foldl_cons, foldl_nil, step, ← flat]
    by_cases shows : zone.clock.wall (shown - a) = shown
    · simp [shows]
    · simp [shows]
      omega
  · rw [if_neg flat, foldl_cons, foldl_cons, foldl_nil, step, step]
    by_cases showsA : zone.clock.wall (shown - a) = shown <;>
      by_cases showsC : zone.clock.wall (shown - c) = shown
    · have := first showsA showsC
      simp [showsA, showsC, Int.not_lt.mpr this]
    · simp [showsA, showsC]
    · simp [showsA, showsC]
    · simp [showsA, showsC]
      omega

def FleetCronFields.fallsOn (fields : FleetCronFields) (day : ℤ) : Bool :=
  dayMatches fields (dateOf day).month (dateOf day).day (weekdayOf day)

def FleetCronFields.shown (fields : FleetCronFields) : Set ℤ :=
  {minute | fields.fallsOn (minute / 1440) = true ∧ (minute / 60 % 24).toNat ∈ fields.hours ∧
    (minute % 60).toNat ∈ fields.minutes}

variable {fields : FleetCronFields}

theorem weekdayOf_lt (day : ℤ) : weekdayOf day < 7 := by
  unfold weekdayOf
  omega

theorem longest_eq {month : ℕ} (pos : 1 ≤ month) (le : month ≤ 12) :
    longest.getD (month - 1) 0 = monthLength 1 month := by
  interval_cases month <;> decide

theorem exists_named (wellFormed : fields.WellFormed) (comes : cronNeverFires fields = false) :
    ∃ month ∈ fields.months, 1 ≤ month ∧ month ≤ 12 ∧
      ((∃ day, 1 ≤ day ∧ day ≤ monthLength 1 month ∧ ∀ weekday, dayMatches fields month day weekday = true) ∨
        ∃ weekday < 7, ∀ day, dayMatches fields month day weekday = true) := by
  obtain ⟨month, inMonths⟩ := exists_mem_of_ne_nil _ wellFormed.months.nonempty
  have pos := wellFormed.months.low month inMonths
  have le := wellFormed.months.high month inMonths
  by_cases weekly : fields.weekdayRestricted = true
  · obtain ⟨weekday, inWeek⟩ := exists_mem_of_ne_nil _ wellFormed.weekdays.nonempty
    have high := wellFormed.weekdays.high weekday inWeek
    refine ⟨month, inMonths, pos, le, .inr ⟨weekday, by omega, fun day => ?_⟩⟩
    cases dayRestricted : fields.dayRestricted <;>
      simp [dayMatches, inMonths, inWeek, weekly, dayRestricted]
  · by_cases daily : fields.dayRestricted = true
    · simp only [cronNeverFires, daily, weekly, Bool.not_true, Bool.or_self, Bool.false_eq_true, if_false,
        all_eq_false] at comes
      obtain ⟨month, inMonths, comes⟩ := comes
      rw [all_eq_true] at comes
      push Not at comes
      obtain ⟨day, inDays, exists_⟩ := comes
      have pos := wellFormed.months.low month inMonths
      have le := wellFormed.months.high month inMonths
      simp only [ne_eq, decide_eq_true_eq, longest_eq pos le, Nat.not_lt] at exists_
      refine ⟨month, inMonths, pos, le, .inl ⟨day, wellFormed.days.low day inDays, exists_, fun weekday => ?_⟩⟩
      simp [dayMatches, inMonths, inDays, weekly, daily]
    · refine ⟨month, inMonths, pos, le, .inr ⟨0, by omega, fun day => ?_⟩⟩
      simp [dayMatches, inMonths, weekly, daily]

theorem exists_day_after (wellFormed : fields.WellFormed) (comes : cronNeverFires fields = false) (start : ℤ) :
    ∃ day, start ≤ day ∧ day ≤ start + 2923 ∧ fields.fallsOn day = true := by
  obtain ⟨month, -, pos, le, ⟨day, day_pos, day_le, falls⟩ | ⟨weekday, high, falls⟩⟩ :=
    exists_named wellFormed comes
  · obtain ⟨later, from_, near, rfl, rfl⟩ := exists_date_after pos le day_pos day_le start
    exact ⟨later, from_, near, falls _⟩
  · obtain ⟨later, from_, near, rfl, rfl⟩ := exists_weekday_after pos le high start
    exact ⟨later, from_, by omega, falls _⟩

theorem exists_day_before (wellFormed : fields.WellFormed) (comes : cronNeverFires fields = false) (stop : ℤ) :
    ∃ day, day ≤ stop ∧ stop ≤ day + 2923 ∧ fields.fallsOn day = true := by
  obtain ⟨month, -, pos, le, ⟨day, day_pos, day_le, falls⟩ | ⟨weekday, high, falls⟩⟩ :=
    exists_named wellFormed comes
  · obtain ⟨earlier, until_, near, rfl, rfl⟩ := exists_date_before pos le day_pos day_le stop
    exact ⟨earlier, until_, near, falls _⟩
  · obtain ⟨earlier, until_, near, rfl, rfl⟩ := exists_weekday_before pos le high stop
    exact ⟨earlier, until_, by omega, falls _⟩

theorem mem_shown {day : ℤ} {hour minute : ℕ} (inDay : hour ≤ 23) (inHour : minute ≤ 59) :
    day * 1440 + hour * 60 + minute ∈ fields.shown ↔
      fields.fallsOn day = true ∧ hour ∈ fields.hours ∧ minute ∈ fields.minutes := by
  have sameDay : (day * 1440 + hour * 60 + minute) / 1440 = day := by omega
  have sameHour : ((day * 1440 + hour * 60 + minute) / 60 % 24).toNat = hour := by omega
  have sameMinute : ((day * 1440 + hour * 60 + minute) % 60).toNat = minute := by omega
  rw [FleetCronFields.shown, Set.mem_ofPred_eq, sameDay, sameHour, sameMinute]

theorem shown_eq {shown : ℤ} (held : shown ∈ fields.shown) :
    ∃ hour ∈ fields.hours, ∃ minute ∈ fields.minutes, fields.fallsOn (shown / 1440) = true ∧
      hour ≤ 23 ∧ minute ≤ 59 ∧ shown = shown / 1440 * 1440 + hour * 60 + minute := by
  obtain ⟨falls, inHours, inMinutes⟩ := held
  exact ⟨_, inHours, _, inMinutes, falls, by omega, by omega, by omega⟩

theorem findSome?_first {α β : Type} {before : α → α → Prop} {items : List α} {f : α → Option β} {item : α}
    {found : β} (sorted : items.Pairwise before) (member : item ∈ items) (finds : f item = some found)
    (skips : ∀ other ∈ items, before other item → f other = none) : items.findSome? f = some found := by
  obtain ⟨front, back, rfl⟩ := append_of_mem member
  have none_ : front.findSome? f = none := by
    rw [findSome?_eq_none_iff]
    intro other inFront
    exact skips other (mem_append_left _ inFront)
      ((pairwise_append.mp sorted).2.2 other inFront item mem_cons_self)
  rw [findSome?_append, none_, Option.none_or, findSome?_cons, finds]

theorem dayOf_shift (day offset : ℤ) :
    dayOf (dateOf day).year (dateOf day).month ((dateOf day).day + offset) = day + offset := by
  have := dayOf_dateOf day
  unfold dayOf at *
  omega

theorem isLeast_minutes {minutes fires : Set ℤ}
    (each : ∀ ms, ms ∈ fires ↔ ∃ minute ∈ minutes, ms = minute * 60000) {afterMs found : ℤ} :
    IsLeast {fire | fire ∈ fires ∧ afterMs < fire} (found * 60000) ↔
      IsLeast {fire | fire ∈ minutes ∧ afterMs / 60000 + 1 ≤ fire} found := by
  constructor
  · rintro ⟨⟨held, later⟩, least⟩
    obtain ⟨minute, inMinutes, same⟩ := (each _).mp held
    cases (by omega : found = minute)
    refine ⟨⟨inMinutes, by omega⟩, fun other ⟨inOther, otherLater⟩ => ?_⟩
    have := least ⟨(each (other * 60000)).mpr ⟨other, inOther, rfl⟩, by omega⟩
    omega
  · rintro ⟨⟨held, later⟩, least⟩
    refine ⟨⟨(each _).mpr ⟨found, held, rfl⟩, by omega⟩, fun other ⟨inOther, otherLater⟩ => ?_⟩
    obtain ⟨minute, inMinutes, rfl⟩ := (each _).mp inOther
    have := least ⟨inMinutes, by omega⟩
    omega

theorem isGreatest_minutes {minutes fires : Set ℤ}
    (each : ∀ ms, ms ∈ fires ↔ ∃ minute ∈ minutes, ms = minute * 60000) {atMs found : ℤ} :
    IsGreatest {fire | fire ∈ fires ∧ fire ≤ atMs} (found * 60000) ↔
      IsGreatest {fire | fire ∈ minutes ∧ fire ≤ atMs / 60000} found := by
  constructor
  · rintro ⟨⟨held, earlier⟩, greatest⟩
    obtain ⟨minute, inMinutes, same⟩ := (each _).mp held
    cases (by omega : found = minute)
    refine ⟨⟨inMinutes, by omega⟩, fun other ⟨inOther, otherEarlier⟩ => ?_⟩
    have := greatest ⟨(each (other * 60000)).mpr ⟨other, inOther, rfl⟩, by omega⟩
    omega
  · rintro ⟨⟨held, earlier⟩, greatest⟩
    refine ⟨⟨(each _).mpr ⟨found, held, rfl⟩, by omega⟩, fun other ⟨inOther, otherEarlier⟩ => ?_⟩
    obtain ⟨minute, inMinutes, rfl⟩ := (each _).mp inOther
    have := greatest ⟨inMinutes, by omega⟩
    omega

section Search

theorem nested_first {count : ℕ} {falls : ℕ → Bool} {hours minutes : List ℕ} {beforeHour beforeMinute : ℕ → ℕ → Prop}
    (sortedHours : hours.Pairwise beforeHour) (sortedMinutes : minutes.Pairwise beforeMinute)
    {skipHour : ℕ → ℕ → Prop} [∀ day hour, Decidable (skipHour day hour)]
    {skipMinute : ℕ → ℕ → ℕ → Prop} [∀ day hour minute, Decidable (skipMinute day hour minute)]
    {fire : ℕ → ℕ → ℕ → Option ℤ} {day hour minute : ℕ} {found : ℤ} (inRange : day < count)
    (fallsOn : falls day = true) (inHours : hour ∈ hours) (inMinutes : minute ∈ minutes)
    (keepsHour : ¬ skipHour day hour) (keepsMinute : ¬ skipMinute day hour minute)
    (fires : fire day hour minute = some found)
    (before : ∀ d h m, (d < day ∨ d = day ∧ (beforeHour h hour ∨ h = hour ∧ beforeMinute m minute)) →
      falls d = true → h ∈ hours → m ∈ minutes → ¬ skipHour d h → ¬ skipMinute d h m → fire d h m = none) :
    ((List.range count).findSome? fun d =>
      if !falls d then none
      else hours.findSome? fun h =>
        if skipHour d h then none
        else minutes.findSome? fun m => if skipMinute d h m then none else fire d h m) = some found := by
  have noMinute : ∀ d h, (d < day ∨ d = day ∧ beforeHour h hour) → falls d = true → h ∈ hours →
      ¬ skipHour d h →
      (minutes.findSome? fun m => if skipMinute d h m then none else fire d h m) = none := by
    intro d h earlier falls inHours keeps
    rw [findSome?_eq_none_iff]
    intro m inMinutes
    split
    · rfl
    · exact before d h m (earlier.imp_right (And.imp_right .inl)) falls inHours inMinutes keeps ‹_›
  apply findSome?_first pairwise_lt_range (mem_range.mpr inRange)
  · rw [fallsOn]
    apply findSome?_first sortedHours inHours
    · rw [if_neg keepsHour]
      apply findSome?_first sortedMinutes inMinutes
      · rw [if_neg keepsMinute, fires]
      · intro m member earlier
        split
        · rfl
        · exact before day hour m (.inr ⟨rfl, .inr ⟨rfl, earlier⟩⟩) fallsOn inHours member keepsHour ‹_›
    · intro h member earlier
      split
      · rfl
      · exact noMinute day h (.inr ⟨rfl, earlier⟩) fallsOn member ‹_›
  · intro d _ earlier
    cases falls' : falls d with
    | false => rfl
    | true =>
      rw [Bool.not_true, if_neg Bool.false_ne_true, findSome?_eq_none_iff]
      intro h member
      split
      · rfl
      · exact noMinute d h (.inl earlier) falls' member ‹_›

variable {letters : JsString.LowerCase} {cadence : FleetScheduleCadence}

def scheduleClock (intl : Intl) (timeZone : Option String) : Clock :=
  (intl.named (fleetScheduleZone intl timeZone)).clock

theorem nextFleetScheduleFire_spec (intl : Intl) (timeZone : Option String)
    (read : cadenceFields letters cadence = some fields)
    (comes : cronNeverFires fields = false) (afterMs : ℤ) :
    ∃ found, nextFleetScheduleFire letters intl cadence timeZone afterMs = some (found * 60000) ∧
      (scheduleClock intl timeZone).IsNext fields.shown (afterMs / 60000 + 1) found := by
  have wellFormed := cadenceFields_wellFormed read
  set start := afterMs / 60000 + 1 with startEq
  obtain ⟨zone, zoneEq⟩ : ∃ zone, intl.named (fleetScheduleZone intl timeZone) = zone := ⟨_, rfl⟩
  rw [scheduleClock, zoneEq]
  have startMs : afterMs / 60000 * 60000 + 60000 = start * 60000 := by omega
  -- The least minute of the set from the start on is no farther than the search goes.
  have candidates : ∃ minute, minute ∈ fields.shown ∧ zone.clock.wall start ≤ minute ∧
      start ≤ zone.clock.instant minute ∧ minute / 1440 ≤ zone.clock.wall start / 1440 + 2929 := by
    obtain ⟨day, from_, near, falls⟩ := exists_day_after wellFormed comes (zone.clock.wall start / 1440 + 2)
    obtain ⟨hour, inHours⟩ := exists_mem_of_ne_nil _ wellFormed.hours.nonempty
    obtain ⟨minute, inMinutes⟩ := exists_mem_of_ne_nil _ wellFormed.minutes.nonempty
    have inDay := wellFormed.hours.high hour inHours
    have inHour := wellFormed.minutes.high minute inMinutes
    exact ⟨day * 1440 + hour * 60 + minute, (mem_shown inDay inHour).mpr ⟨falls, inHours, inMinutes⟩, by omega,
      Clock.le_instant (by omega), by omega⟩
  obtain ⟨shown, ⟨held, onward, reached, near⟩, least⟩ := Int.exists_least_of_bdd
    ⟨zone.clock.wall start, fun shown candidate => candidate.2.1⟩ candidates
  have minimal : ∀ other ∈ fields.shown, zone.clock.wall start ≤ other → start ≤ zone.clock.instant other →
      shown ≤ other := by
    intro other otherHeld otherOnward otherReached
    by_cases farther : other / 1440 ≤ zone.clock.wall start / 1440 + 2929
    · exact least other ⟨otherHeld, otherOnward, otherReached, farther⟩
    · omega
  refine ⟨zone.clock.instant shown, ?_, shown, held, rfl, onward, reached, minimal⟩
  obtain ⟨hour, inHours, minute, inMinutes, falls, inDay, inHour, shownEq⟩ := shown_eq held
  obtain ⟨offset, offsetEq⟩ : ∃ offset : ℕ, shown / 1440 = zone.clock.wall start / 1440 + offset :=
    ⟨(shown / 1440 - zone.clock.wall start / 1440).toNat, by omega⟩
  rw [nextFleetScheduleFire, read, startMs]
  simp only [Option.bind_eq_bind, Option.bind_some, zoneEq, fleetZonedParts_minute, dayOf_shift]
  have instant : ∀ (offset : ℕ) {h m}, h ≤ 23 → m ≤ 59 →
      fleetZonedInstant (dateOf (zone.clock.wall start / 1440 + offset)).year
        (dateOf (zone.clock.wall start / 1440 + offset)).month
        (dateOf (zone.clock.wall start / 1440 + offset)).day h m zone =
      zone.clock.instant ((zone.clock.wall start / 1440 + offset) * 1440 + h * 60 + m) * 60000 :=
    fun _ _ _ inDay inHour => fleetZonedInstant_eq inDay inHour
  refine nested_first wellFormed.hours.sorted wellFormed.minutes.sorted (by unfold maxSearchDays; omega : offset < _)
    ?_ inHours inMinutes ?_ ?_ ?_ ?_
  · rw [← offsetEq]
    exact falls
  · omega
  · omega
  · rw [instant offset inDay inHour, ← offsetEq, ← shownEq, if_pos (by omega)]
  · intro o h m earlier fallsOn hours minutes keepsHour keepsMinute
    have inDay' := wellFormed.hours.high h hours
    have inHour' := wellFormed.minutes.high m minutes
    rw [instant o inDay' inHour', if_neg]
    intro later
    have := minimal _ ((mem_shown inDay' inHour').mpr ⟨fallsOn, hours, minutes⟩) (by omega) (by omega)
    omega

theorem previousFleetScheduleFire_spec (intl : Intl) (timeZone : Option String)
    (read : cadenceFields letters cadence = some fields)
    (comes : cronNeverFires fields = false) (atMs : ℤ) :
    ∃ found, previousFleetScheduleFire letters intl cadence timeZone atMs = some (found * 60000) ∧
      (scheduleClock intl timeZone).IsLast fields.shown (atMs / 60000) found := by
  have wellFormed := cadenceFields_wellFormed read
  set stop := atMs / 60000 with stopEq
  obtain ⟨zone, zoneEq⟩ : ∃ zone, intl.named (fleetScheduleZone intl timeZone) = zone := ⟨_, rfl⟩
  rw [scheduleClock, zoneEq]
  have candidates : ∃ minute, minute ∈ fields.shown ∧ minute ≤ zone.clock.wall stop ∧
      zone.clock.instant minute ≤ stop ∧ zone.clock.wall stop / 1440 ≤ minute / 1440 + 2929 := by
    obtain ⟨day, until_, near, falls⟩ := exists_day_before wellFormed comes (zone.clock.wall stop / 1440 - 2)
    obtain ⟨hour, inHours⟩ := exists_mem_of_ne_nil _ wellFormed.hours.nonempty
    obtain ⟨minute, inMinutes⟩ := exists_mem_of_ne_nil _ wellFormed.minutes.nonempty
    have inDay := wellFormed.hours.high hour inHours
    have inHour := wellFormed.minutes.high minute inMinutes
    exact ⟨day * 1440 + hour * 60 + minute, (mem_shown inDay inHour).mpr ⟨falls, inHours, inMinutes⟩, by omega,
      Clock.instant_le (by omega), by omega⟩
  obtain ⟨shown, ⟨held, onward, reached, near⟩, greatest⟩ := Int.exists_greatest_of_bdd
    ⟨zone.clock.wall stop, fun shown candidate => candidate.2.1⟩ candidates
  have maximal : ∀ other ∈ fields.shown, other ≤ zone.clock.wall stop → zone.clock.instant other ≤ stop →
      other ≤ shown := by
    intro other otherHeld otherOnward otherReached
    by_cases farther : zone.clock.wall stop / 1440 ≤ other / 1440 + 2929
    · exact greatest other ⟨otherHeld, otherOnward, otherReached, farther⟩
    · omega
  refine ⟨zone.clock.instant shown, ?_, shown, held, rfl, onward, reached, maximal⟩
  obtain ⟨hour, inHours, minute, inMinutes, falls, inDay, inHour, shownEq⟩ := shown_eq held
  obtain ⟨offset, offsetEq⟩ : ∃ offset : ℕ, shown / 1440 = zone.clock.wall stop / 1440 - offset :=
    ⟨(zone.clock.wall stop / 1440 - shown / 1440).toNat, by omega⟩
  have shift : ∀ offset : ℕ, dayOf (dateOf (zone.clock.wall stop / 1440)).year
      (dateOf (zone.clock.wall stop / 1440)).month ((dateOf (zone.clock.wall stop / 1440)).day - offset) =
        zone.clock.wall stop / 1440 - offset := fun offset => dayOf_shift _ (-offset)
  have instant : ∀ (offset : ℕ) {h m}, h ≤ 23 → m ≤ 59 →
      fleetZonedInstant (dateOf (zone.clock.wall stop / 1440 - offset)).year
        (dateOf (zone.clock.wall stop / 1440 - offset)).month
        (dateOf (zone.clock.wall stop / 1440 - offset)).day h m zone =
      zone.clock.instant ((zone.clock.wall stop / 1440 - offset) * 1440 + h * 60 + m) * 60000 :=
    fun _ _ _ inDay inHour => fleetZonedInstant_eq inDay inHour
  rw [previousFleetScheduleFire, read]
  simp only [Option.bind_eq_bind, Option.bind_some, zoneEq, ← stopEq, fleetZonedParts_minute, shift]
  refine nested_first (pairwise_reverse.mpr wellFormed.hours.sorted)
    (pairwise_reverse.mpr wellFormed.minutes.sorted) (by unfold maxSearchDays; omega : offset < _)
    ?_ (mem_reverse.mpr inHours) (mem_reverse.mpr inMinutes) ?_ ?_ ?_ ?_
  · rw [← offsetEq]
    exact falls
  · omega
  · omega
  · rw [instant offset inDay inHour, ← offsetEq, ← shownEq, if_pos (by omega)]
  · intro o h m earlier fallsOn hours minutes keepsHour keepsMinute
    rw [mem_reverse] at hours minutes
    have inDay' := wellFormed.hours.high h hours
    have inHour' := wellFormed.minutes.high m minutes
    rw [instant o inDay' inHour', if_neg]
    intro later
    have := maximal _ ((mem_shown inDay' inHour').mpr ⟨fallsOn, hours, minutes⟩) (by omega) (by omega)
    omega

end Search

end EverWorks.Schedule
