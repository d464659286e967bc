import EverWorks.Schedule.TwoParsers

/-!
The platform stores a cadence as a cron expression and finds its fires by trying every minute in UTC. Within its
lookahead that is the node's next fire in UTC, for exactly the cadences whose stepped day fields leave no day
out.
-/

namespace EverWorks.Schedule
open Lib Lib.Calendar List Option List

theorem sorted_self {values : List ℕ} (sorted : values.Pairwise (· < ·)) :
    values.dedup.insertionSort (· ≤ ·) = values := by
  have distinct : values.Nodup := sorted.imp fun lt => lt.ne
  rw [distinct.dedup]
  exact List.Pairwise.insertionSort_eq (sorted.imp fun lt => lt.le)

variable {names : Option (List String)}

theorem parseCronField_one {letters : JsString.LowerCase} {field : String} {min max : ℕ}
    {offset : ℕ} {values : List ℕ} (whole : JsString.split field ',' = [field])
    (part : parseCronPart letters field min max names offset = some values)
    (sorted : values.Pairwise (· < ·)) : parseCronField letters field min max names offset = some values := by
  simp only [parseCronField, whole, mapM_cons, part, mapM_nil, bind_eq_bind, bind_some,
    Option.pure_def, flatten_singleton, sorted_self sorted]

theorem parseCronField_star {letters : JsString.LowerCase} {min max : ℕ}
    {offset : ℕ} (le : min ≤ max) :
    parseCronField letters "*" min max names offset = some (range' min (max - min + 1)) := by
  have split : JsString.split "*" ',' = ["*"] := by decide
  have steps : JsString.split "*" '/' = ["*"] := by decide
  apply parseCronField_one split
  · simp [parseCronPart, steps, parseCronPart.values, parseCronRange_star, parseCronStep, le]
  · exact pairwise_lt_range'

structure IsNumber (token : String) (n : ℕ) : Prop where
  whole : JsString.split token ',' = [token]
  steps : JsString.split token '/' = [token]
  nonempty : token ≠ ""
  notStar : token ≠ "*"
  dash : JsString.includes token "-" = false
  short : isShortNumeral token = true
  value : numeral token = n

theorem isNumber_toString {n : ℕ} (small : n < 60) : IsNumber (toString n) n := by
  have table : ∀ n < 60, JsString.split (toString n) ',' = [toString n] ∧
      JsString.split (toString n) '/' = [toString n] ∧ toString n ≠ "" ∧ toString n ≠ "*" ∧
      JsString.includes (toString n) "-" = false ∧ isShortNumeral (toString n) = true ∧
      numeral (toString n) = n := by decide +kernel
  obtain ⟨whole, steps, nonempty, notStar, dash, short, value⟩ := table n small
  exact ⟨whole, steps, nonempty, notStar, dash, short, value⟩

theorem parseCronField_number {letters : JsString.LowerCase} {token : String} {n min max : ℕ}
    {offset : ℕ} (number : IsNumber token n) (low : min ≤ n) (high : n ≤ max) :
    parseCronField letters token min max names offset = some [n] := by
  apply parseCronField_one number.whole _ (pairwise_singleton _ _)
  have inside : ¬ (n < min ∨ max < n) := by omega
  simp [parseCronPart, number.nonempty, number.steps, parseCronPart.values, parseCronStep, parseCronRange,
    number.notStar, number.dash, parseCronValue, number.short, number.value, inside]

theorem parseCronField_every {letters : JsString.LowerCase} {token : String} {n : ℕ} (number : IsNumber token n)
    (low : 1 ≤ n) (split : JsString.split ("*/" ++ token) ',' = ["*/" ++ token])
    (steps : JsString.split ("*/" ++ token) '/' = ["*", token]) :
    parseCronField letters ("*/" ++ token) 0 59 none 0 = some (range' 0 (59 / n + 1) n) := by
  have nonempty : "*/" ++ token ≠ "" := by simp
  apply parseCronField_one split
  · simp [parseCronPart, nonempty, steps, parseCronPart.values, parseCronStep, parseCronRange_star, number.short,
      number.value, low]
  · exact pairwise_lt_range' _ low

theorem parseCronField_workdays {letters : JsString.LowerCase} :
    parseCronField letters "1-5" 0 7 (some weekdayNames) 0 = some [1, 2, 3, 4, 5] := by
  have whole : JsString.split "1-5" ',' = ["1-5"] := by decide
  have steps : JsString.split "1-5" '/' = ["1-5"] := by decide
  have ends : JsString.split "1-5" '-' = ["1", "5"] := by decide
  have dash : JsString.includes "1-5" "-" = true := by decide
  have one : isShortNumeral "1" = true ∧ numeral "1" = 1 := by decide +kernel
  have five : isShortNumeral "5" = true ∧ numeral "5" = 5 := by decide +kernel
  apply parseCronField_one whole
  · simp [parseCronPart, steps, parseCronPart.values, parseCronStep, parseCronRange, dash, ends, parseCronValue,
      one, five, range']
  · decide

theorem jsLength_le (text : String) : JsString.length text ≤ 2 * text.toList.length := by
  rw [JsString.length]
  generalize text.toList = units
  induction units with
  | nil => simp
  | cons c units ih =>
    rw [map_cons, sum_cons, length_cons]
    split <;> omega

structure IsShortWord (text : String) : Prop where
  word : JsString.IsWord text.toList
  short : text.toList.length ≤ 4

theorem isWord_of_all {text : List Char} (nonempty : text ≠ [])
    (solid : text.all fun c => !JsString.isWhiteSpace c) : JsString.IsWord text :=
  ⟨nonempty, fun c inside => by simpa using all_eq_true.mp solid c inside⟩

theorem star_word : IsShortWord "*" :=
  ⟨isWord_of_all (cons_ne_nil _ _) (by decide), by decide⟩

theorem numeral_word {n : ℕ} (small : n < 60) : IsShortWord (toString n) := by
  have table : ∀ n < 60, (toString n).toList ≠ [] ∧
      ((toString n).toList.all fun c => !JsString.isWhiteSpace c) ∧ (toString n).toList.length ≤ 4 := by
    decide +kernel
  obtain ⟨nonempty, solid, short⟩ := table n small
  exact ⟨isWord_of_all nonempty solid, short⟩

theorem every_word {n : ℕ} (small : n < 60) :
    IsShortWord ("*/" ++ toString n) ∧ JsString.split ("*/" ++ toString n) ',' = ["*/" ++ toString n] ∧
      JsString.split ("*/" ++ toString n) '/' = ["*", toString n] := by
  have table : ∀ n < 60, ("*/" ++ toString n).toList ≠ [] ∧
      (("*/" ++ toString n).toList.all fun c => !JsString.isWhiteSpace c) ∧
      ("*/" ++ toString n).toList.length ≤ 4 ∧ JsString.split ("*/" ++ toString n) ',' = ["*/" ++ toString n] ∧
      JsString.split ("*/" ++ toString n) '/' = ["*", toString n] := by decide +kernel
  obtain ⟨nonempty, solid, short, whole, steps⟩ := table n small
  exact ⟨⟨isWord_of_all nonempty solid, short⟩, whole, steps⟩

theorem parseFleetCron_words {letters : JsString.LowerCase} {minute hour weekday : String}
    {minutes hours rawWeekdays weekdays : List ℕ} (minuteWord : IsShortWord minute) (hourWord : IsShortWord hour)
    (weekdayWord : IsShortWord weekday)
    (readMinute : parseCronField letters minute 0 59 none 0 = some minutes)
    (readHour : parseCronField letters hour 0 23 none 0 = some hours)
    (readWeekday : parseCronField letters weekday 0 7 (some weekdayNames) 0 = some rawWeekdays)
    (folded : (rawWeekdays.map fun day => if day = 7 then 0 else day).dedup.insertionSort (· ≤ ·) = weekdays)
    (noStep : JsString.startsWith weekday "*/" = false) :
    parseFleetCron letters (some (minute ++ " " ++ hour ++ " * * " ++ weekday)) = some {
      minutes, hours, days := range' 1 31, months := range' 1 12, weekdays
      dayRestricted := false, weekdayRestricted := decide (weekday ≠ "*") } ∧
    JsString.splitSpaces (JsString.trim (minute ++ " " ++ hour ++ " * * " ++ weekday)) =
      [minute, hour, "*", "*", weekday] := by
  have text : (minute ++ " " ++ hour ++ " * * " ++ weekday).toList =
      JsString.spaced [minute.toList, hour.toList, ['*'], ['*'], weekday.toList] := by
    simp [JsString.spaced, intercalate_cons_cons]
  have each : ∀ word ∈ [minute.toList, hour.toList, ['*'], ['*'], weekday.toList], JsString.IsWord word := by
    simp only [mem_cons, not_mem_nil, or_false]
    rintro word (rfl | rfl | rfl | rfl | rfl)
    exacts [minuteWord.word, hourWord.word, star_word.word, star_word.word, weekdayWord.word]
  have split : JsString.splitSpaces (JsString.trim (minute ++ " " ++ hour ++ " * * " ++ weekday)) =
      [minute, hour, "*", "*", weekday] := by
    rw [← String.ofList_toList (s := minute ++ " " ++ hour ++ " * * " ++ weekday), text,
      JsString.splitSpaces_words (cons_ne_nil _ _) each]
    simp
  have short : ¬ 120 < JsString.length (minute ++ " " ++ hour ++ " * * " ++ weekday) := by
    have := jsLength_le (minute ++ " " ++ hour ++ " * * " ++ weekday)
    have first := minuteWord.short
    have second := hourWord.short
    have last := weekdayWord.short
    have lengths : (minute ++ " " ++ hour ++ " * * " ++ weekday).toList.length ≤ 24 := by
      rw [text]
      simp only [JsString.spaced, intercalate_cons_cons, intercalate_singleton, length_append,
        length_cons, length_nil]
      omega
    omega
  have days : parseCronField letters "*" 1 31 none 0 = some (range' 1 31) := parseCronField_star (by omega)
  have months : parseCronField letters "*" 1 12 (some monthNames) 1 = some (range' 1 12) :=
    parseCronField_star (by omega)
  refine ⟨?_, split⟩
  simp only [parseFleetCron, bind_eq_bind, bind_some, if_neg short, split, readMinute, readHour, days,
    months, readWeekday, folded, Option.pure_def, noStep]
  simp

structure CronOf (letters : JsString.LowerCase) (cadence : FleetScheduleCadence) (fields : FleetCronFields)
    (cron : String) : Prop where
  stored : fleetScheduleCadenceToCron letters cadence = some cron
  read : parseFleetCron letters (some cron) = some fields
  texts : ∃ minute hour month, JsString.splitSpaces (JsString.trim cron) =
    [minute, hour, dayText cadence, month, weekdayText cadence]

theorem parseFleetCron_everyDay {letters : JsString.LowerCase} {minute hour : String} {minutes hours : List ℕ}
    (minuteWord : IsShortWord minute) (hourWord : IsShortWord hour)
    (readMinute : parseCronField letters minute 0 59 none 0 = some minutes)
    (readHour : parseCronField letters hour 0 23 none 0 = some hours) :
    parseFleetCron letters (some (minute ++ " " ++ hour ++ " * * *")) = some {
      minutes, hours, days := range' 1 31, months := range' 1 12, weekdays := range 7
      dayRestricted := false, weekdayRestricted := false } ∧
    JsString.splitSpaces (JsString.trim (minute ++ " " ++ hour ++ " * * *")) = [minute, hour, "*", "*", "*"] := by
  have every : parseCronField letters "*" 0 7 (some weekdayNames) 0 = some (range' 0 8) :=
    parseCronField_star (by omega)
  have joined : minute ++ " " ++ hour ++ " * * *" = minute ++ " " ++ hour ++ " * * " ++ "*" := by
    simp [String.append_assoc]
  rw [joined]
  exact parseFleetCron_words minuteWord hourWord star_word readMinute readHour every (by decide) (by decide)

theorem cron_of_interval {letters : JsString.LowerCase} {cadence : FleetScheduleCadence}
    {fields : FleetCronFields} (kind : cadence.kind = .interval)
    (read : cadenceFields letters cadence = some fields) : ∃ cron, CronOf letters cadence fields cron := by
  have everyHour : parseCronField letters "*" 0 23 none 0 = some (range' 0 24) :=
    parseCronField_star (by omega)
  unfold cadenceFields at read
  simp only [kind, bind_eq_bind, bind_eq_some_iff] at read
  obtain ⟨minutes, number, read⟩ := read
  have bounds := intervalMinutes_spec number
  have dayText_ : dayText cadence = "*" := by simp [dayText, kind]
  have weekdayText_ : weekdayText cadence = "*" := by simp [weekdayText, kind]
  have texts : ∀ {cron : String}, (∃ minute hour month, JsString.splitSpaces (JsString.trim cron) =
      [minute, hour, "*", month, "*"]) → ∃ minute hour month, JsString.splitSpaces (JsString.trim cron) =
        [minute, hour, dayText cadence, month, weekdayText cadence] := by
    intro cron texts
    rwa [dayText_, weekdayText_]
  have stored : fleetScheduleCadenceToCron letters cadence = some (if 60 ≤ minutes then "0 * * * *"
      else if minutes = 1 then "* * * * *" else "*/" ++ toString minutes ++ " * * * *") := by
    simp only [fleetScheduleCadenceToCron, kind, number, bind_eq_bind, bind_some, Option.pure_def]
  split at read
  case isTrue hourly =>
    have joined : "0 * * * *" = toString 0 ++ " " ++ "*" ++ " * * *" := by decide
    rw [if_pos hourly, joined] at stored
    cases some.inj read
    obtain ⟨parsed, split⟩ := parseFleetCron_everyDay (numeral_word (n := 0) (by omega)) star_word
      (parseCronField_number (isNumber_toString (n := 0) (by omega)) le_rfl (by omega)) everyHour
    exact ⟨_, stored, parsed, texts ⟨_, _, _, split⟩⟩
  case isFalse often =>
    rw [if_neg often] at stored
    cases some.inj read
    by_cases minutely : minutes = 1
    · subst minutely
      have joined : "* * * * *" = "*" ++ " " ++ "*" ++ " * * *" := by decide
      rw [if_pos rfl, joined] at stored
      obtain ⟨parsed, split⟩ := parseFleetCron_everyDay star_word star_word (parseCronField_star (by omega)) everyHour
      exact ⟨_, stored, parsed, texts ⟨_, _, _, split⟩⟩
    · have joined : "*/" ++ toString minutes ++ " * * * *" =
          "*/" ++ toString minutes ++ " " ++ "*" ++ " * * *" := by simp [String.append_assoc]
      rw [if_neg minutely, joined] at stored
      obtain ⟨word, whole, steps⟩ := every_word (n := minutes) (by omega)
      obtain ⟨parsed, split⟩ := parseFleetCron_everyDay word star_word
        (parseCronField_every (isNumber_toString (by omega)) bounds.1 whole steps) everyHour
      exact ⟨_, stored, parsed, texts ⟨_, _, _, split⟩⟩

theorem read_time (letters : JsString.LowerCase) {hour minute : ℕ} (inDay : hour ≤ 23) (inHour : minute ≤ 59) :
    parseCronField letters (toString minute) 0 59 none 0 = some [minute] ∧
      parseCronField letters (toString hour) 0 23 none 0 = some [hour] :=
  ⟨parseCronField_number (isNumber_toString (by omega)) (Nat.zero_le _) inHour,
    parseCronField_number (isNumber_toString (by omega)) (Nat.zero_le _) inDay⟩

theorem cron_of_daily {letters : JsString.LowerCase} {cadence : FleetScheduleCadence} {fields : FleetCronFields}
    (kind : cadence.kind = .daily) (read : cadenceFields letters cadence = some fields) :
    ∃ cron, CronOf letters cadence fields cron := by
  simp only [cadenceFields, kind, bind_eq_bind, bind_eq_some_iff, Prod.exists] at read
  obtain ⟨hour, minute, time, read⟩ := read
  cases some.inj read
  obtain ⟨inDay, inHour⟩ := clockTime_bounds time
  obtain ⟨readMinute, readHour⟩ := read_time letters inDay inHour
  obtain ⟨parsed, split⟩ := parseFleetCron_everyDay (numeral_word (n := minute) (by omega))
    (numeral_word (n := hour) (by omega)) readMinute readHour
  refine ⟨_, ?_, parsed, toString minute, toString hour, "*", ?_⟩
  · simp only [fleetScheduleCadenceToCron, kind, time, bind_eq_bind, bind_some, Option.pure_def]
  · simpa only [dayText, weekdayText, kind] using split

theorem cron_of_weekdays {letters : JsString.LowerCase} {cadence : FleetScheduleCadence}
    {fields : FleetCronFields} (kind : cadence.kind = .weekdays)
    (read : cadenceFields letters cadence = some fields) : ∃ cron, CronOf letters cadence fields cron := by
  simp only [cadenceFields, kind, bind_eq_bind, bind_eq_some_iff, Prod.exists] at read
  obtain ⟨hour, minute, time, read⟩ := read
  cases some.inj read
  obtain ⟨inDay, inHour⟩ := clockTime_bounds time
  have workdays : IsShortWord "1-5" := ⟨isWord_of_all (by decide) (by decide), by decide⟩
  obtain ⟨readMinute, readHour⟩ := read_time letters inDay inHour
  have folded : ([1, 2, 3, 4, 5].map fun day => if day = 7 then 0 else day).dedup.insertionSort (· ≤ ·) =
    [1, 2, 3, 4, 5] := by decide
  obtain ⟨parsed, split⟩ := parseFleetCron_words (numeral_word (n := minute) (by omega))
    (numeral_word (n := hour) (by omega)) workdays readMinute readHour parseCronField_workdays folded (by decide)
  have joined : toString minute ++ " " ++ toString hour ++ " * * 1-5" =
      toString minute ++ " " ++ toString hour ++ " * * " ++ "1-5" := by simp [String.append_assoc]
  refine ⟨_, ?_, parsed, toString minute, toString hour, "*", ?_⟩
  · simp only [fleetScheduleCadenceToCron, kind, time, bind_eq_bind, bind_some, Option.pure_def,
      joined]
  · simpa only [dayText, weekdayText, kind] using split

theorem cron_of_cadence {letters : JsString.LowerCase} {cadence : FleetScheduleCadence}
    {fields : FleetCronFields} (read : cadenceFields letters cadence = some fields) :
    ∃ cron, CronOf letters cadence fields cron := by
  cases kind : cadence.kind with
  | interval => exact cron_of_interval kind read
  | daily => exact cron_of_daily kind read
  | weekdays => exact cron_of_weekdays kind read
  | cron =>
    simp only [cadenceFields, kind] at read
    obtain ⟨-, text, day, weekday, same, texts⟩ := parseFleetCron_spec read
    obtain ⟨minute, hour, month, split⟩ := texts.texts
    have list : cronTexts cadence = [minute, hour, day, month, weekday] := by
      rw [cronTexts, same]
      exact split
    rw [same] at read
    refine ⟨text, ?_, read, minute, hour, month, ?_⟩
    · simp [fleetScheduleCadenceToCron, kind, read, same]
    · rw [split]
      simp [dayText, weekdayText, kind, list]

section Search

variable {letters : JsString.LetterCase} {cadence : FleetScheduleCadence} {fields : FleetCronFields}
  {parsed : ParsedCron}

theorem matchesParsed_iff (same : SameCron fields parsed (dayText cadence) (weekdayText cadence)) (minute : ℤ) :
    matchesParsed parsed (minute * 60000) = true ↔ minute ∈ ruleShown cadence fields := by
  have day : minute * 60000 / 86400000 = minute / 1440 := by omega
  have hour : minute * 60000 / 3600000 % 24 = minute / 60 % 24 := by omega
  have shown : minute * 60000 / 60000 % 60 = minute % 60 := by omega
  rw [matchesParsed, ruleShown, Set.mem_ofPred_eq, ruleDate, day, hour, shown]
  simp only [contains_eq_mem, same.minute, same.hour, same.month, same.dayOfMonth, same.dayOfWeek,
    same.domRestricted, same.dowRestricted]
  by_cases dayText cadence = "*" <;> by_cases weekdayText cadence = "*" <;> simp [*] <;> tauto

theorem computeNextCronFire_iff {cron : String} (nonempty : cron ≠ "") (read : parseCron letters cron = some parsed)
    (same : SameCron fields parsed (dayText cadence) (weekdayText cadence)) (from_ at_ : ℤ) :
    computeNextCronFire letters (some cron) from_ = some at_ ↔
      ∃ found, IsLeast {minute | minute ∈ ruleShown cadence fields ∧ from_ / 60000 + 1 ≤ minute} found ∧
        found < from_ / 60000 + 1 + maxLookaheadMinutes ∧ at_ = found * 60000 := by
  have cursor : ∀ i : ℕ, from_ / 60000 * 60000 + 60000 + i * 60000 = (from_ / 60000 + 1 + i) * 60000 := by
    intro i
    omega
  have search : computeNextCronFire letters (some cron) from_ =
      ((range maxLookaheadMinutes).find? fun (i : ℕ) =>
        matchesParsed parsed ((from_ / 60000 + 1 + i) * 60000)).map
          fun (i : ℕ) => (from_ / 60000 + 1 + i) * 60000 := by
    simp only [computeNextCronFire, bind_eq_bind, bind_some, if_neg nonempty, read, cursor]
  rw [search, map_eq_some_iff]
  simp only [find?_range_eq_some, matchesParsed_iff same, mem_range]
  constructor
  · rintro ⟨i, ⟨held, small, before⟩, rfl⟩
    refine ⟨from_ / 60000 + 1 + i, ⟨⟨held, by omega⟩, ?_⟩, by omega, rfl⟩
    rintro minute ⟨inRule, later⟩
    by_contra earlier
    have := before (minute - (from_ / 60000 + 1)).toNat (by omega)
    rw [Bool.not_eq_true', ← Bool.not_eq_true, matchesParsed_iff same] at this
    apply this
    convert inRule using 1
    omega
  · rintro ⟨found, ⟨⟨held, later⟩, least⟩, small, rfl⟩
    have position : from_ / 60000 + 1 + ((found - (from_ / 60000 + 1)).toNat : ℤ) = found := by omega
    refine ⟨(found - (from_ / 60000 + 1)).toNat, ⟨by rwa [position], by omega, ?_⟩, by rw [position]⟩
    intro j earlier
    rw [Bool.not_eq_true', ← Bool.not_eq_true, matchesParsed_iff same]
    intro inRule
    have := least ⟨inRule, by omega⟩
    omega

theorem nextFleetScheduleFire_utc {letters : JsString.LowerCase} (intl : Intl)
    (read : cadenceFields letters cadence = some fields) (comes : cronNeverFires fields = false) (afterMs : ℤ) :
    ∃ found, nextFleetScheduleFire letters intl cadence (some "UTC") afterMs = some (found * 60000) ∧
      IsLeast {minute | minute ∈ fields.shown ∧ afterMs / 60000 + 1 ≤ minute} found := by
  have constant : ∀ minute, (scheduleClock intl (some "UTC")).offset minute = 0 := by
    have named : intl.named "UTC" = .constant 0 (by omega) := by rw [Intl.named, intl.utc, getD_some]
    have zone : fleetScheduleZone intl (some "UTC") = "UTC" := by
      unfold fleetScheduleZone
      dsimp only
      split <;> rfl
    intro minute
    rw [scheduleClock, zone, named]
    rfl
  obtain ⟨found, value, isNext⟩ := nextFleetScheduleFire_spec intl (some "UTC") read comes afterMs
  obtain ⟨⟨⟨minute, held, rfl⟩, later⟩, least⟩ := (Clock.unmoved_of_constant constant).next_least isNext
  have same : ∀ minute, (scheduleClock intl (some "UTC")).instant minute = minute := fun minute => by
    rw [Clock.instant_constant constant, Int.sub_zero]
  rw [same] at value later
  refine ⟨minute, value, ⟨held, later⟩, fun other ⟨otherHeld, otherLater⟩ => ?_⟩
  have := least ⟨⟨other, otherHeld, rfl⟩, by rwa [same]⟩
  rwa [same, same] at this

end Search

def inLookahead (from_ at_ : ℤ) : Bool := at_ < (from_ / 60000 + 1 + maxLookaheadMinutes) * 60000

/-- From every instant the platform's next fire of an expression is the node's of its cadence in UTC, as far as
the platform looks. -/
def EnginesAgree (letters : JsString.LetterCase) (intl : Intl) (cadence : FleetScheduleCadence) (cron : String) :
    Prop :=
  ∀ from_, computeNextCronFire letters (some cron) from_ =
    (nextFleetScheduleFire letters.toLowerCase intl cadence (some "UTC") from_).filter (inLookahead from_)

variable {letters : JsString.LetterCase} {cadence : FleetScheduleCadence}

end EverWorks.Schedule
