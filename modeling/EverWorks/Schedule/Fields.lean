import EverWorks.Schedule.Cadence
import Mathlib.Tactic.IntervalCases
/-!
Each list of `cadenceFields` is sorted, not empty and within the bounds of its field, and what an accepted
cadence names comes some day.
-/

namespace EverWorks.Schedule
open Lib List JsNumber List

structure Field (values : List ℕ) (min max : ℕ) : Prop where
  sorted : values.Pairwise (· < ·)
  nonempty : values ≠ []
  low : ∀ value ∈ values, min ≤ value
  high : ∀ value ∈ values, value ≤ max

structure FleetCronFields.WellFormed (fields : FleetCronFields) : Prop where
  minutes : Field fields.minutes 0 59
  hours : Field fields.hours 0 23
  days : Field fields.days 1 31
  months : Field fields.months 1 12
  weekdays : Field fields.weekdays 0 6

theorem sorted_strict (values : List ℕ) : (values.dedup.insertionSort (· ≤ ·)).Pairwise (· < ·) := by
  have sorted : (values.dedup.insertionSort (· ≤ ·)).Pairwise (· ≤ ·) := pairwise_insertionSort _ _
  have distinct : (values.dedup.insertionSort (· ≤ ·)).Nodup :=
    (perm_insertionSort (· ≤ ·) values.dedup).nodup_iff.mpr values.nodup_dedup
  exact sorted.imp₂ (fun _ _ le ne => lt_of_le_of_ne le ne) distinct

variable {values : List ℕ}

theorem mem_sorted {value : ℕ} :
    value ∈ values.dedup.insertionSort (· ≤ ·) ↔ value ∈ values := by
  rw [mem_insertionSort, mem_dedup]

variable {min max : ℕ}

theorem field_sorted (nonempty : values ≠ [])
    (within : ∀ value ∈ values, min ≤ value ∧ value ≤ max) :
    Field (values.dedup.insertionSort (· ≤ ·)) min max where
  sorted := sorted_strict values
  nonempty empty := by
    obtain ⟨value, member⟩ := exists_mem_of_ne_nil _ nonempty
    rw [← mem_sorted, empty] at member
    exact not_mem_nil member
  low value member := (within value (mem_sorted.mp member)).1
  high value member := (within value (mem_sorted.mp member)).2

variable {letters : JsString.LowerCase}

variable {names : Option (List String)}

variable {offset : ℕ}

theorem parseCronPart_spec {part : String}
    (parsed : parseCronPart letters part min max names offset = some values) :
    values ≠ [] ∧ ∀ value ∈ values, min ≤ value ∧ value ≤ max := by
  have inner : ∀ range step, parseCronPart.values letters min max names offset range step = some values →
      values ≠ [] ∧ ∀ value ∈ values, min ≤ value ∧ value ≤ max := by
    intro range stepText parsed
    unfold parseCronPart.values at parsed
    simp only [Option.bind_eq_bind, Option.bind_eq_some_iff, Prod.exists] at parsed
    obtain ⟨step, -, first, last, -, parsed⟩ := parsed
    split at parsed
    case isTrue => cases parsed
    case isFalse inside =>
      cases Option.some.inj parsed
      refine ⟨by simp, fun value member => ?_⟩
      obtain ⟨k, bound, rfl⟩ := mem_range'.mp member
      have : step * k ≤ last - first := by
        have : k ≤ (last - first) / step := by omega
        calc step * k ≤ step * ((last - first) / step) := Nat.mul_le_mul_left _ this
          _ ≤ last - first := Nat.mul_div_le _ _
      omega
  unfold parseCronPart at parsed
  split at parsed
  · cases parsed
  · split at parsed
    · exact inner _ _ parsed
    · exact inner _ _ parsed
    · cases parsed

theorem mapM_eq_some {α β : Type} {f : α → Option β} {items : List α} {results : List β} :
    items.mapM f = some results ↔ List.Forall₂ (fun item result => f item = some result) items results := by
  induction items generalizing results with
  | nil => simp [eq_comm]
  | cons first rest ih =>
    rw [mapM_cons]
    cases results with
    | nil => cases read : f first <;> cases tail : rest.mapM f <;> simp
    | cons result later =>
      rw [forall₂_cons, ← ih]
      cases read : f first <;> cases tail : rest.mapM f <;> simp

theorem exists_left {α β : Type} {R : α → β → Prop} {items : List α} {results : List β} {result : β}
    (pairs : List.Forall₂ R items results) (member : result ∈ results) : ∃ item ∈ items, R item result := by
  induction pairs with
  | nil => cases member
  | cons head _ ih =>
    rcases mem_cons.mp member with rfl | later
    · exact ⟨_, mem_cons_self, head⟩
    · obtain ⟨item, inRest, read⟩ := ih later
      exact ⟨item, mem_cons_of_mem _ inRest, read⟩

theorem exists_right {α β : Type} {R : α → β → Prop} {items : List α} {results : List β} {item : α}
    (pairs : List.Forall₂ R items results) (member : item ∈ items) : ∃ result ∈ results, R item result :=
  exists_left (List.Forall₂.flip pairs) member

variable {field : String}

theorem parseCronField_spec
    (parsed : parseCronField letters field min max names offset = some values) :
    Field values min max := by
  unfold parseCronField at parsed
  simp only [Option.bind_eq_bind, Option.bind_eq_some_iff, Option.pure_def, Option.some.injEq] at parsed
  obtain ⟨parts, read, rfl⟩ := parsed
  have pairs := mapM_eq_some.mp read
  have each : ∀ part ∈ parts, part ≠ [] ∧ ∀ value ∈ part, min ≤ value ∧ value ≤ max := by
    intro part member
    obtain ⟨text, -, parsed⟩ := exists_left pairs member
    exact parseCronPart_spec parsed
  apply field_sorted
  · intro empty
    have : parts = [] := by
      cases parts with
      | nil => rfl
      | cons part rest =>
        rw [flatten_cons, append_eq_nil_iff] at empty
        exact absurd empty.1 (each part mem_cons_self).1
    subst this
    have : JsString.split field ',' = [] := forall₂_nil_right_iff.mp pairs
    exact splitOn_ne_nil _ _ (map_eq_nil_iff.mp this)
  · intro value member
    obtain ⟨part, inParts, inPart⟩ := mem_flatten.mp member
    exact (each part inParts).2 value inPart

theorem mem_parseCronField {offset value : ℕ}
    (parsed : parseCronField letters field min max names offset = some values) :
    value ∈ values ↔ ∃ part ∈ JsString.split field ',', ∃ piece,
      parseCronPart letters part min max names offset = some piece ∧ value ∈ piece := by
  unfold parseCronField at parsed
  simp only [Option.bind_eq_bind, Option.bind_eq_some_iff, Option.pure_def, Option.some.injEq] at parsed
  obtain ⟨parts, read, rfl⟩ := parsed
  rw [mem_sorted, mem_flatten]
  have pairs := mapM_eq_some.mp read
  constructor
  · rintro ⟨piece, inParts, inPiece⟩
    obtain ⟨part, inField, parsed⟩ := exists_left pairs inParts
    exact ⟨part, inField, piece, parsed, inPiece⟩
  · rintro ⟨part, inField, piece, parsed, inPiece⟩
    obtain ⟨piece', inParts, parsed'⟩ := exists_right pairs inField
    cases Option.some.inj (parsed'.symm.trans parsed)
    exact ⟨piece, inParts, inPiece⟩

theorem parseCronRange_star {stepped : Bool} :
    parseCronRange letters "*" stepped min max names offset = some (min, max) := by
  simp [parseCronRange]

theorem splitOn_cons_ne {c separator : Char} (ne : c ≠ separator) (rest : List Char) :
    ∃ first more, rest.splitOn separator = first :: more ∧
      (c :: rest).splitOn separator = (c :: first) :: more := by
  obtain ⟨first, more, same⟩ := exists_cons_of_ne_nil (splitOn_ne_nil separator rest)
  refine ⟨first, more, same, ?_⟩
  rw [splitOn_cons_eq_if_modifyHead, if_neg (by simpa using ne), same, modifyHead_cons]

theorem splitOn_cons_self (separator : Char) (rest : List Char) :
    (separator :: rest).splitOn separator = [] :: rest.splitOn separator := by
  rw [splitOn_cons_eq_if_modifyHead, if_pos (by simp)]

theorem min_mem_of_star
    (star : field = "*" ∨ JsString.startsWith field "*/" = true)
    (parsed : parseCronField letters field min max names offset = some values) : min ∈ values := by
  have head : ∃ rest more, JsString.split field ',' = String.ofList ('*' :: rest) :: more ∧
      ∃ steps, ('*' :: rest).splitOn '/' = ['*'] :: steps := by
    rcases star with rfl | begins
    · exact ⟨[], [], by decide, [], by decide⟩
    · obtain ⟨tail, text⟩ := JsString.startsWith_iff.mp begins
      obtain ⟨second, more, split, splitCons⟩ := splitOn_cons_ne (by decide : '/' ≠ ',') tail
      obtain ⟨first, more', split', splitCons'⟩ := splitOn_cons_ne (by decide : '*' ≠ ',') ('/' :: tail)
      rw [splitCons] at split'
      obtain ⟨rfl, rfl⟩ := cons.inj split'
      refine ⟨'/' :: second, more.map String.ofList, ?_, second.splitOn '/', ?_⟩
      · have : field.toList = '*' :: '/' :: tail := text.symm
        rw [JsString.split, this, splitCons', map_cons]
      · obtain ⟨_, _, same, splits⟩ := splitOn_cons_ne (by decide : '*' ≠ '/') ('/' :: second)
        rw [splitOn_cons_self] at same
        obtain ⟨rfl, rfl⟩ := cons.inj same
        exact splits
  obtain ⟨rest, more, split, steps, splits⟩ := head
  rw [mem_parseCronField parsed]
  obtain ⟨piece, read⟩ : ∃ piece,
      parseCronPart letters (String.ofList ('*' :: rest)) min max names offset = some piece := by
    unfold parseCronField at parsed
    simp only [Option.bind_eq_bind, Option.bind_eq_some_iff] at parsed
    obtain ⟨parts, read, -⟩ := parsed
    obtain ⟨piece, -, part⟩ := exists_right (mapM_eq_some.mp read) (split ▸ mem_cons_self)
    exact ⟨piece, part⟩
  refine ⟨_, split ▸ mem_cons_self, piece, read, ?_⟩
  have inner : ∀ step, parseCronPart.values letters min max names offset "*" step = some piece →
      min ∈ piece := by
    intro stepText parsed
    unfold parseCronPart.values at parsed
    simp only [parseCronRange_star, Option.bind_eq_bind, Option.bind_eq_some_iff, Option.bind_some] at parsed
    obtain ⟨step, -, parsed⟩ := parsed
    split at parsed
    · cases parsed
    · cases Option.some.inj parsed
      exact mem_range'.mpr ⟨0, Nat.succ_pos _, rfl⟩
  unfold parseCronPart at read
  rw [JsString.split, String.toList_ofList, splits, map_cons] at read
  split at read
  · cases read
  · split at read
    case h_1 range same =>
      obtain ⟨rfl, -⟩ := cons.inj same
      exact inner _ read
    case h_2 range stepText same =>
      obtain ⟨rfl, -⟩ := cons.inj same
      exact inner _ read
    case h_3 => cases read

theorem mem_of_star {min max value : ℕ}
    (parsed : parseCronField letters "*" min max names offset = some values) (low : min ≤ value)
    (high : value ≤ max) : value ∈ values := by
  have split : JsString.split "*" ',' = ["*"] := by decide
  have steps : JsString.split "*" '/' = ["*"] := by decide
  rw [mem_parseCronField parsed]
  have inside : min ≤ max := low.trans high
  refine ⟨"*", by rw [split]; exact mem_singleton_self _, range' min (max - min + 1) 1, ?_, ?_⟩
  · simp [parseCronPart, steps, parseCronPart.values, parseCronRange_star, parseCronStep, inside]
  · rw [mem_range'_1]
    omega

structure CronTexts (expr : String) (fields : FleetCronFields) (day weekday : String) : Prop where
  texts : ∃ minute hour month, JsString.splitSpaces (JsString.trim expr) = [minute, hour, day, month, weekday]
  dayRestricted : fields.dayRestricted = decide (day ≠ "*" ∧ ¬ JsString.startsWith day "*/")
  weekdayRestricted : fields.weekdayRestricted = decide (weekday ≠ "*" ∧ ¬ JsString.startsWith weekday "*/")
  everyDay : day = "*" → ∀ value, 1 ≤ value → value ≤ 31 → value ∈ fields.days
  everyWeekday : weekday = "*" → ∀ value < 7, value ∈ fields.weekdays
  firstDay : fields.dayRestricted = false → 1 ∈ fields.days

theorem parseFleetCron_spec {expr : Option String} {fields : FleetCronFields}
    (parsed : parseFleetCron letters expr = some fields) :
    fields.WellFormed ∧ ∃ text day weekday, expr = some text ∧ CronTexts text fields day weekday := by
  unfold parseFleetCron at parsed
  simp only [Option.bind_eq_bind, Option.bind_eq_some_iff] at parsed
  obtain ⟨text, same, parsed⟩ := parsed
  split at parsed
  · cases parsed
  · split at parsed
    case h_2 => cases parsed
    case h_1 minute hour day month weekday texts =>
      simp only [Option.bind_eq_some_iff, Option.pure_def, Option.some.injEq] at parsed
      obtain ⟨minutes, readMinutes, hours, readHours, days, readDays, months, readMonths, weekdays,
        readWeekdays, rfl⟩ := parsed
      have raw := parseCronField_spec readWeekdays
      refine ⟨⟨parseCronField_spec readMinutes, parseCronField_spec readHours, parseCronField_spec readDays,
        parseCronField_spec readMonths, ?_⟩, text, day, weekday, same, ⟨minute, hour, month, texts⟩, rfl, rfl,
        ?_, ?_, ?_⟩
      · apply field_sorted
        · simpa using raw.nonempty
        · intro value member
          obtain ⟨day, inRaw, rfl⟩ := mem_map.mp member
          have := raw.high day inRaw
          split <;> omega
      · rintro rfl value low high
        exact mem_of_star readDays low high
      · rintro rfl value low
        rw [mem_sorted, mem_map]
        exact ⟨value, mem_of_star readWeekdays (Nat.zero_le _) (by omega), if_neg (by omega)⟩
      · intro star
        apply min_mem_of_star _ readDays
        by_contra other
        push Not at other
        simp [other.1, other.2] at star

theorem char_le {a b : Char} : a ≤ b ↔ a.toNat ≤ b.toNat := by
  rw [Char.le_def, UInt32.le_iff_toNat_le]
  rfl

theorem isDigit_iff {c : Char} : c.isDigit = true ↔ 48 ≤ c.toNat ∧ c.toNat ≤ 57 := by
  simp only [Char.isDigit, Bool.and_eq_true, decide_eq_true_eq, ge_iff_le, UInt32.le_iff_toNat_le]
  rfl

theorem digitOf_isDigit {c : Char} (digit : c.isDigit = true) :
    digitOf 10 c = some (c.toNat - 48) := by
  have bounds := Iff.mp isDigit_iff digit
  have range : '0' ≤ c ∧ c ≤ '9' := ⟨Iff.mpr char_le bounds.1, Iff.mpr char_le bounds.2⟩
  simp only [digitOf, if_pos range]
  exact if_pos (by omega)

theorem ofText_two {a b : Char} (first : a.isDigit = true) (second : b.isDigit = true) :
    ofText (String.ofList [a, b]) = ((a.toNat - 48) * 10 + (b.toNat - 48) : ℕ) := by
  have := Iff.mp isDigit_iff first
  have := Iff.mp isDigit_iff second
  refine ofText_digits (by simp) ?_ (by omega)
  simp [ofDigits, digitOf_isDigit first, digitOf_isDigit second]

theorem numeral_two {a b : Char} (first : a.isDigit = true) (second : b.isDigit = true) :
    numeral (String.ofList [a, b]) = (a.toNat - 48) * 10 + (b.toNat - 48) := by
  rw [numeral, ofText_two first second, index_cast, Option.getD_some]

theorem clockTime_of_valid {text : String} (valid : isFleetScheduleClockTime text = true) :
    ∃ hour minute, clockTime (some text) = some (hour, minute) ∧ hour ≤ 23 ∧ minute ≤ 59 := by
  have shape := valid
  unfold isFleetScheduleClockTime at shape
  split at shape
  case h_2 => cases shape
  case h_1 a b c d same =>
    simp only [Bool.and_eq_true, Bool.or_eq_true, beq_iff_eq, decide_eq_true_eq, isDigit_iff, char_le]
      at shape
    obtain ⟨⟨⟨hours, low⟩, high⟩, last⟩ := shape
    have zero : '0'.toNat = 48 := rfl
    have one : '1'.toNat = 49 := rfl
    have two : '2'.toNat = 50 := rfl
    have three : '3'.toNat = 51 := rfl
    have five : '5'.toNat = 53 := rfl
    have hourBounds : 48 ≤ a.toNat ∧ a.toNat ≤ 57 ∧ 48 ≤ b.toNat ∧ b.toNat ≤ 57 ∧
        (a.toNat - 48) * 10 + (b.toNat - 48) ≤ 23 := by
      rcases hours with ⟨rfl | rfl, hours⟩ | ⟨⟨rfl, hours⟩, hours'⟩ <;> omega
    have first : numeral (String.ofList [a, b]) = (a.toNat - 48) * 10 + (b.toNat - 48) :=
      numeral_two (Iff.mpr isDigit_iff (by omega)) (Iff.mpr isDigit_iff (by omega))
    have second : numeral (String.ofList [c, d]) = (c.toNat - 48) * 10 + (d.toNat - 48) :=
      numeral_two (Iff.mpr isDigit_iff (by omega)) (Iff.mpr isDigit_iff last)
    have ne : ∀ e : Char, 48 ≤ e.toNat → e.toNat ≤ 57 → ':' ≠ e := by
      rintro e low high rfl
      exact absurd high (by decide)
    have pair : ∀ e e' : Char, ':' ≠ e → ':' ≠ e' → ':' ∉ [e, e'] := by
      intro e e' first second
      simp [first, second]
    have split : JsString.split text ':' = [String.ofList [a, b], String.ofList [c, d]] := by
      have apart : ':' ∉ [a, b] := pair a b (ne a (by omega) (by omega)) (ne b (by omega) (by omega))
      have apart' : ':' ∉ [c, d] := pair c d (ne c (by omega) (by omega)) (ne d (by omega) (by omega))
      have : text.toList = [a, b] ++ ':' :: [c, d] := same
      rw [JsString.split, this, splitOn_append_cons_self, splitOn_eq_singleton apart,
        splitOn_eq_singleton apart']
      rfl
    refine ⟨_, _, ?_, hourBounds.2.2.2.2, (by omega : (c.toNat - 48) * 10 + (d.toNat - 48) ≤ 59)⟩
    rw [← first, ← second]
    simp only [clockTime, Option.bind_eq_bind, Option.bind_some, valid, split, if_true, map_cons,
      map_nil]

theorem intervalMinutes_spec {number : JsNumber} {minutes : ℕ} (read : intervalMinutes number = some minutes) :
    1 ≤ minutes ∧ minutes ≤ 60 := by
  unfold intervalMinutes at read
  rw [Option.filter_eq_some_iff] at read
  simpa using read.2

theorem intervalMinutes_toString {minutes : ℕ} (low : 1 ≤ minutes) (high : minutes ≤ 60) :
    intervalMinutes (ofText (toString minutes)) = some minutes := by
  interval_cases minutes <;> decide +kernel

theorem clockTime_bounds {at_ : Option String} {hour minute : ℕ} (read : clockTime at_ = some (hour, minute)) :
    hour ≤ 23 ∧ minute ≤ 59 := by
  cases at_ with
  | none => cases read
  | some text =>
    by_cases valid : isFleetScheduleClockTime text = true
    · obtain ⟨hour', minute', read', bounds⟩ := clockTime_of_valid valid
      cases Option.some.inj (read'.symm.trans read)
      exact bounds
    · simp [clockTime, valid] at read

theorem field_range {first count max : ℕ} (some_ : 0 < count) (within : first + count ≤ max + 1) :
    Field (range' first count) first max where
  sorted := pairwise_lt_range'
  nonempty := by simpa using some_.ne'
  low value member := (mem_range'_1.mp member).1
  high value member := by
    have := (mem_range'_1.mp member).2
    omega

theorem field_singleton {value max : ℕ} (le : value ≤ max) : Field [value] 0 max where
  sorted := pairwise_singleton _ _
  nonempty := cons_ne_nil _ _
  low _ _ := Nat.zero_le _
  high other member := by
    rw [mem_singleton.mp member]
    exact le

theorem everyHour : Field (range 24) 0 23 := by
  rw [range_eq_range']
  exact field_range (by omega) (by omega)

theorem everyWeekday : Field (range 7) 0 6 := by
  rw [range_eq_range']
  exact field_range (by omega) (by omega)

theorem base_wellFormed {minutes hours weekdays : List ℕ} {weekdayRestricted : Bool}
    (inHour : Field minutes 0 59) (inDay : Field hours 0 23) (inWeek : Field weekdays 0 6) :
    FleetCronFields.WellFormed { minutes, hours, days := range' 1 31, months := range' 1 12, weekdays
                                 dayRestricted := false, weekdayRestricted } where
  minutes := inHour
  hours := inDay
  days := field_range (by omega) (by omega)
  months := field_range (by omega) (by omega)
  weekdays := inWeek

theorem cadenceFields_wellFormed {cadence : FleetScheduleCadence} {fields : FleetCronFields}
    (read : cadenceFields letters cadence = some fields) : fields.WellFormed := by
  unfold cadenceFields at read
  split at read
  case h_1 =>
    simp only [Option.bind_eq_bind, Option.bind_eq_some_iff] at read
    obtain ⟨minutes, interval, read⟩ := read
    obtain ⟨low, high⟩ := intervalMinutes_spec interval
    split at read
    · cases Option.some.inj read
      exact base_wellFormed (field_singleton (by omega)) everyHour everyWeekday
    · cases Option.some.inj read
      refine base_wellFormed ⟨pairwise_lt_range' _ low, by simp, by simp, ?_⟩ everyHour everyWeekday
      intro value member
      obtain ⟨k, bound, rfl⟩ := mem_range'.mp member
      have := Nat.mul_le_mul_left minutes (Nat.lt_succ_iff.mp bound)
      have := Nat.mul_div_le 59 minutes
      omega
  case h_2 =>
    simp only [Option.bind_eq_bind, Option.bind_eq_some_iff, Prod.exists] at read
    obtain ⟨hour, minute, clock, read⟩ := read
    obtain ⟨inDay, inHour⟩ := clockTime_bounds clock
    cases Option.some.inj read
    exact base_wellFormed (field_singleton inHour) (field_singleton inDay) everyWeekday
  case h_3 =>
    simp only [Option.bind_eq_bind, Option.bind_eq_some_iff, Prod.exists] at read
    obtain ⟨hour, minute, clock, read⟩ := read
    obtain ⟨inDay, inHour⟩ := clockTime_bounds clock
    cases Option.some.inj read
    have workdays : Field [1, 2, 3, 4, 5] 0 6 := by constructor <;> decide
    exact base_wellFormed (field_singleton inHour) (field_singleton inDay) workdays
  case h_4 => exact (parseFleetCron_spec read).1

theorem accepted_fields {js : JsCoercions} {raw : JsValue} {cadence : FleetScheduleCadence}
    (accepted : parseFleetScheduleCadence letters js raw = .ok cadence) :
    ∃ fields, cadenceFields letters cadence = some fields ∧ cronNeverFires fields = false := by
  have timed : ∀ kind, (kind = .daily ∨ kind = .weekdays) →
      parseFleetScheduleCadence.timed raw kind = .ok cadence →
      ∃ fields, cadenceFields letters cadence = some fields ∧ cronNeverFires fields = false := by
    intro kind which accepted
    unfold parseFleetScheduleCadence.timed at accepted
    split at accepted
    case h_2 => cases accepted
    case h_1 time _ =>
      split at accepted
      case isFalse => cases accepted
      case isTrue valid =>
        cases Except.ok.inj accepted
        obtain ⟨hour, minute, read, -⟩ := clockTime_of_valid valid
        rcases which with rfl | rfl <;> simp [cadenceFields, read, cronNeverFires]
  unfold parseFleetScheduleCadence at accepted
  split at accepted
  case h_2 => cases accepted
  case h_1 =>
    split at accepted
    case isFalse => cases accepted
    case isTrue =>
      split at accepted
      case h_1 =>
        split at accepted
        case h_2 => cases accepted
        case h_1 minutes read =>
          obtain ⟨low, high⟩ := intervalMinutes_spec read
          cases Except.ok.inj accepted
          simp only [cadenceFields, Option.map_some, Option.getD_some, intervalMinutes_toString low high,
            Option.bind_eq_bind, Option.bind_some]
          split <;> exact ⟨_, rfl, rfl⟩
      case h_2 => exact timed .daily (.inl rfl) accepted
      case h_3 => exact timed .weekdays (.inr rfl) accepted
      case h_4 =>
        dsimp only at accepted
        split at accepted
        case h_1 => cases accepted
        case h_2 fields read =>
          split at accepted
          case isTrue => cases accepted
          case isFalse fires =>
            cases Except.ok.inj accepted
            exact ⟨fields, read, by simpa using fires⟩
      case h_5 => cases accepted

end EverWorks.Schedule
