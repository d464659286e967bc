import EverWorks.Agents.MidnightStart
import EverWorks.Lib.Grid
import Mathlib.Data.List.Basic

/-!
A date is read off the text that was written for it, and the texts between which a window lies are those of the first
day of its cell in the calendar and of the next.
-/

namespace EverWorks.Agents.RunWindow
open Lib Calendar IsoDate Credits List Option

theorem digitValue_digitChar {n : ℕ} (lt : n < 10) : digitValue (Nat.digitChar n) = n := by
  have table : ∀ n ∈ List.range 10, digitValue (Nat.digitChar n) = n := by decide
  exact table n (mem_range.mpr lt)

theorem number_append (digits : List Char) (c : Char) :
    number (digits ++ [c]) = 10 * number digits + digitValue c := by
  rw [number, foldl_append]
  rfl

theorem number_pad {width n : ℕ} (lt : n < 10 ^ width) : number (pad width n) = n := by
  induction width generalizing n with
  | zero =>
    rw [pow_zero] at lt
    exact (Nat.lt_one_iff.mp lt).symm
  | succ width ih =>
    rw [pow_succ] at lt
    rw [pad, number_append, ih (by omega), digitValue_digitChar (Nat.mod_lt n (by omega))]
    omega

theorem isDigit_of_mem_pad {width n : ℕ} {c : Char} (mem : c ∈ pad width n) : c.isDigit := by
  induction width generalizing n with
  | zero => exact absurd mem not_mem_nil
  | succ width ih =>
    rw [pad, mem_append, mem_singleton] at mem
    rcases mem with front | rfl
    · exact ih front
    · exact digitChar_isDigit (Nat.mod_lt n (by omega))

theorem number_toDigits (n : ℕ) : number (Nat.toDigits 10 n) = n := by
  have same (digits : List Char) (start : ℕ) : digits.foldl (fun n c => 10 * n + digitValue c) start =
      Nat.ofDigitChars 10 digits start := rfl
  rw [number, same, Nat.ofDigitChars_ten_toDigits]

theorem exists_four {digits : List Char} (four : digits.length = 4) : ∃ a b c d, digits = [a, b, c, d] := by
  obtain ⟨a, rest, rfl⟩ := exists_cons_of_length_eq_add_one four
  obtain ⟨b, c, d, rfl⟩ := length_eq_three.mp (Nat.succ.inj four)
  exact ⟨a, b, c, d, rfl⟩

theorem dateFields_of_digits {years months days : List Char} (four : years.length = 4) (two : months.length = 2)
    (two' : days.length = 2) (digits : ∀ c ∈ years ++ months ++ days, c.isDigit) :
    dateFields (years ++ '-' :: months ++ '-' :: days) = some (number years, number months, number days) := by
  obtain ⟨a, b, c, d, rfl⟩ := exists_four four
  obtain ⟨e, f, rfl⟩ := length_eq_two.mp two
  obtain ⟨g, h, rfl⟩ := length_eq_two.mp two'
  exact if_pos (all_eq_true.mpr digits)

theorem dateFields_some {text : List Char} {fields : ℕ × ℕ × ℕ} (some_ : dateFields text = some fields) :
    ∃ years months days : List Char, text = years ++ '-' :: months ++ '-' :: days ∧ years.length = 4 ∧
      months.length = 2 ∧ days.length = 2 ∧ (∀ c ∈ years ++ months ++ days, c.isDigit) ∧
      fields = (number years, number months, number days) := by
  unfold dateFields at some_
  split at some_
  · rename_i a b c d e f g h
    split at some_
    · rename_i digits
      cases some_
      exact ⟨[a, b, c, d], [e, f], [g, h], rfl, rfl, rfl, rfl, all_eq_true.mp digits, rfl⟩
    · cases some_
  · cases some_

theorem parseCalendarDate_of_fields {text : List Char} {year month day : ℕ}
    (fields : dateFields text = some (year, month, day)) (valid : Valid ⟨year, month, day⟩) :
    parseCalendarDate text = some ⟨year, month, day⟩ := by
  have back : dateOf (utcDay year (month - 1) day) = ⟨year, month, day⟩ := by
    have month_pos := valid.month_pos
    have month_le := valid.month_le
    have whole : ((month : ℤ) - 1) / 12 = 0 := by
      dsimp only at month_pos month_le
      omega
    have part : (((month : ℤ) - 1) % 12).toNat + 1 = month := by
      dsimp only at month_pos month_le
      omega
    rw [utcDay, whole, part, add_zero, dateOf_dayOf valid]
  have isDate : isRunLedgerCalendarDate text = true := by
    simp only [isRunLedgerCalendarDate, fields, back, and_self, decide_true]
  rw [parseCalendarDate, if_pos isDate, fields]
  rfl

theorem fields_of_parseCalendarDate {text : List Char} {date : Date} (parsed : parseCalendarDate text = some date) :
    ∃ year month day : ℕ, dateFields text = some (year, month, day) ∧ date = ⟨year, month, day⟩ ∧ Valid date := by
  unfold parseCalendarDate isRunLedgerCalendarDate at parsed
  cases fields : dateFields text with
  | none =>
    rw [fields] at parsed
    cases parsed
  | some found =>
    obtain ⟨year, month, day⟩ := found
    simp only [fields, decide_eq_true_eq, map_some] at parsed
    split at parsed
    · rename_i probe
      cases parsed
      have valid := dateOf_valid (utcDay year (month - 1) day)
      have same : dateOf (utcDay year (month - 1) day) = ⟨year, month, day⟩ := by
        rw [Date.mk.injEq]
        exact probe
      rw [same] at valid
      exact ⟨year, month, day, rfl, rfl, valid⟩
    · cases parsed

theorem foldl_number (digits : List Char) (start : ℕ) :
    digits.foldl (fun n c => 10 * n + digitValue c) start = start * 10 ^ digits.length + number digits := by
  induction digits generalizing start with
  | nil => exact (mul_one start).symm
  | cons c digits ih =>
    rw [number, foldl_cons, foldl_cons, ih, ih (10 * 0 + digitValue c), length_cons, pow_succ]
    rw [mul_zero, zero_add, add_mul, mul_comm (10 ^ _) 10, mul_comm 10 start, mul_assoc, add_assoc]

theorem number_cons (c : Char) (digits : List Char) :
    number (c :: digits) = digitValue c * 10 ^ digits.length + number digits := by
  rw [number, foldl_cons, foldl_number, mul_zero, zero_add]

theorem digitValue_lt {c : Char} (digit : c.isDigit) : digitValue c < 10 := by
  rw [Char.isDigit_iff_toNat] at digit
  have nine : ('9' : Char).toNat = 57 := rfl
  unfold digitValue
  omega

theorem number_lt {digits : List Char} (isDigit : ∀ c ∈ digits, c.isDigit) : number digits < 10 ^ digits.length := by
  induction digits with
  | nil => exact Nat.one_pos
  | cons c digits ih =>
    have rest := ih fun d mem => isDigit d (mem_cons_of_mem _ mem)
    have value := digitValue_lt (isDigit c mem_cons_self)
    have scaled : (digitValue c + 1) * 10 ^ digits.length ≤ 10 * 10 ^ digits.length := Nat.mul_le_mul_right _ value
    rw [number_cons, length_cons, pow_succ]
    rw [add_mul] at scaled
    omega

theorem lt_of_number_lt {xs ys : List Char} (same : xs.length = ys.length) (digits : ∀ c ∈ xs, c.isDigit)
    (digits' : ∀ c ∈ ys, c.isDigit) (lt : number xs < number ys) (rest rest' : List Char) :
    xs ++ rest < ys ++ rest' := by
  induction xs generalizing ys with
  | nil =>
    obtain rfl := length_eq_zero_iff.mp same.symm
    exact absurd lt (lt_irrefl _)
  | cons x xs ih =>
    obtain ⟨y, ys, rfl⟩ := exists_cons_of_length_eq_add_one same.symm
    have length := Nat.succ.inj same
    have first := digits x mem_cons_self
    have first' := digits' y mem_cons_self
    have below := number_lt fun c mem => digits' c (mem_cons_of_mem _ mem)
    rw [number_cons, number_cons, length] at lt
    rw [Char.isDigit_iff_toNat] at first first'
    have zero : ('0' : Char).toNat = 48 := rfl
    refine cons_lt_cons_iff.mpr ?_
    rcases Nat.lt_trichotomy (digitValue x) (digitValue y) with less | equal | more
    · unfold digitValue at less
      exact .inl (Char.lt_def.mpr (UInt32.lt_iff_toNat_lt.mpr (show x.toNat < y.toNat by omega)))
    · rw [equal] at lt
      unfold digitValue at equal
      exact .inr ⟨Char.toNat_inj.mp (by omega), ih length (fun c mem => digits c (mem_cons_of_mem _ mem))
        (fun c mem => digits' c (mem_cons_of_mem _ mem)) (by omega)⟩
    · have scaled : (digitValue y + 1) * 10 ^ ys.length ≤ digitValue x * 10 ^ ys.length := Nat.mul_le_mul_right _ more
      rw [add_mul] at scaled
      omega

theorem parseCalendarDate_spec {text : List Char} {date : Date} (parsed : parseCalendarDate text = some date) :
    Valid date ∧ 0 ≤ date.year ∧ date.year < 10000 := by
  obtain ⟨year, month, day, fields, rfl, valid⟩ := fields_of_parseCalendarDate parsed
  obtain ⟨years, months, days, -, four, -, -, digits, same⟩ := dateFields_some fields
  cases same
  have lt := number_lt fun c mem => digits c (mem_append_left _ (mem_append_left _ mem))
  rw [four] at lt
  exact ⟨valid, Int.natCast_nonneg _, Int.ofNat_lt.mpr lt⟩

theorem monthLength_le (year : ℤ) (month : ℕ) : monthLength (leapDay year) month ≤ 31 := by
  have leap := leapDay_cases year
  unfold monthLength
  split_ifs <;> omega

def dateText (day : ℤ) : List Char := (isoDate (dateOf day)).take 10

theorem parse_of_not_digit {c : Char} {rest : List Char} (sign : ¬ c.isDigit) : parseCalendarDate (c :: rest) = none := by
  refine eq_none_iff_forall_ne_some.mpr fun date parsed => ?_
  obtain ⟨year, month, day, fields, -, -⟩ := fields_of_parseCalendarDate parsed
  obtain ⟨years, months, days, text, four, -, -, digits, -⟩ := dateFields_some fields
  obtain ⟨a, b, e, d, rfl⟩ := exists_four four
  have first : c = a := head_eq_of_cons_eq text
  exact sign (first ▸ digits a (by simp))

section
variable {day : ℤ}

theorem dateText_four (four : 0 ≤ (dateOf day).year ∧ (dateOf day).year ≤ 9999) : dateText day =
    pad 4 (dateOf day).year.natAbs ++ '-' :: pad 2 (dateOf day).month ++ '-' :: pad 2 (dateOf day).day := by
  rw [dateText, isoDate, isoYear_four four, append_assoc]
  exact take_of_length_le (by simp)

theorem parse_dateText (four : 0 ≤ (dateOf day).year ∧ (dateOf day).year ≤ 9999) :
    parseCalendarDate (dateText day) = some (dateOf day) := by
  have valid := dateOf_valid day
  have month_le := valid.month_le
  have day_le := (dateOf_valid day).day_le.trans (monthLength_le _ _)
  have year : (((dateOf day).year.natAbs : ℕ) : ℤ) = (dateOf day).year := Int.natAbs_of_nonneg four.1
  have fields := dateFields_of_digits (length_pad 4 (dateOf day).year.natAbs) (length_pad 2 (dateOf day).month)
    (length_pad 2 (dateOf day).day) fun c mem => by
      simp only [mem_append] at mem
      rcases mem with (mem | mem) | mem <;> exact isDigit_of_mem_pad mem
  rw [number_pad (by omega), number_pad (by omega), number_pad (by omega), ← dateText_four four] at fields
  have whole : (⟨((dateOf day).year.natAbs : ℕ), (dateOf day).month, (dateOf day).day⟩ : Date) = dateOf day := by
    rw [year]
  rw [← whole]
  exact parseCalendarDate_of_fields fields (whole.symm ▸ valid)

theorem parse_dateText_sign (other : ¬ (0 ≤ (dateOf day).year ∧ (dateOf day).year ≤ 9999)) :
    ∃ sign rest, dateText day = sign :: rest ∧ ¬ sign.isDigit := by
  rw [dateText, isoDate, isoYear_six other]
  refine ⟨_, _, rfl, ?_⟩
  split <;> decide

theorem four_of_parse {date : Date} (parsed : parseCalendarDate (dateText day) = some date) :
    date = dateOf day ∧ 0 ≤ (dateOf day).year ∧ (dateOf day).year ≤ 9999 := by
  by_cases four : 0 ≤ (dateOf day).year ∧ (dateOf day).year ≤ 9999
  · rw [parse_dateText four] at parsed
    exact ⟨(some.inj parsed).symm, four⟩
  · obtain ⟨sign, rest, text, notDigit⟩ := parse_dateText_sign four
    rw [text, parse_of_not_digit notDigit] at parsed
    cases parsed

end

section
variable {text : List Char} {day : ℤ} (parsed : parseCalendarDate text = some (dateOf day))
  (late : dayOf 100 1 1 ≤ day)

theorem dateUTC_day {year : ℤ} (month day : ℤ) (late : 100 ≤ year) : dateUTC year month day = utcDay year month day * msPerDay := by
  have same : utcYear year = year := if_neg (by omega)
  rw [dateUTC, same]

theorem formatCalendarDate_eq {year : ℤ} (month day : ℤ) (late : 100 ≤ year) :
    formatCalendarDate year month day = dateText (utcDay year (month - 1) day) := by
  rw [formatCalendarDate, dateUTC_day _ _ late, Int.mul_ediv_cancel _ msPerDay_pos.ne', dateText]

include parsed late

theorem startOfCalendarDate_eq (zone : TimeZone) :
    startOfCalendarDate text zone = some (startOfWallClock (day * msPerDay) zone) := by
  have valid := dateOf_valid day
  rw [startOfCalendarDate, parsed, map_some, dateUTC_day _ _ (hundred_le_iff.mpr late),
    utcDay_month valid.month_pos valid.month_le, dayOf_dateOf]

theorem addCalendarDays_eq (days : ℤ) : addCalendarDays text days = some (dateText (day + days)) := by
  have valid := dateOf_valid day
  have back := dayOf_dateOf day
  have moved : dayOf (dateOf day).year (dateOf day).month ((dateOf day).day + days) = day + days := by
    rw [dayOf] at back ⊢
    omega
  rw [addCalendarDays, parsed, map_some, formatCalendarDate_eq _ _ (hundred_le_iff.mpr late),
    utcDay_month valid.month_pos valid.month_le, moved]

theorem startOfIsoWeek_eq : startOfIsoWeek text = some (dateText (4 + (day - 4) / 7 * 7)) := by
  have valid := dateOf_valid day
  have monday : day + -(((weekdayOf day + 6) % 7 : ℕ) : ℤ) = 4 + (day - 4) / 7 * 7 := by
    unfold weekdayOf
    omega
  rw [startOfIsoWeek, parsed, bind_some, dateUTC_day _ _ (hundred_le_iff.mpr late),
    utcDay_month valid.month_pos valid.month_le, dayOf_dateOf, Int.mul_ediv_cancel _ msPerDay_pos.ne']
  rw [addCalendarDays_eq parsed late, ← monday]

theorem addCalendarMonths_eq {months : ℤ} (target : dayOf 100 1 1 ≤ monthStart (monthNumber day + months)) :
    addCalendarMonths text months = some (dateText (monthStart (monthNumber day + months) +
      min ((dateOf day).day : ℤ) (monthDays (monthNumber day + months)) - 1)) := by
  have first : utcDay (dateOf day).year ((dateOf day).month - 1 + months) 1 = monthStart (monthNumber day + months) := by
    rw [utcDay_eq, add_sub_cancel_right, monthNumber]
    exact congrArg _ (by omega)
  have start : dateOf (monthStart (monthNumber day + months)) = _ :=
    (congrArg dateOf (by omega)).trans (dateOf_monthStart (monthNumber day + months) le_rfl (by
      have days := monthDays_ge (monthNumber day + months)
      omega))
  have year := hundred_le_iff.mpr target
  rw [addCalendarMonths, parsed, map_some, dateUTC_day _ _ (hundred_le_iff.mpr late), first,
    Int.mul_ediv_cancel _ msPerDay_pos.ne']
  generalize monthNumber day + months = number at start year ⊢
  rw [start] at year ⊢
  have last : utcDay (number / 12) ((number % 12).toNat + 1 : ℕ) 0 = monthStart (number + 1) - 1 := by
    rw [utcDay_eq, add_zero]
    exact congrArg (monthStart · - 1) (by omega)
  have same (day : ℤ) : utcDay (number / 12) (((number % 12).toNat + 1 : ℕ) - 1) day = monthStart number + day - 1 := by
    rw [utcDay_eq]
    exact congrArg (monthStart · + day - 1) (by omega)
  simp only [dateUTC_day _ _ year, last, Int.mul_ediv_cancel _ msPerDay_pos.ne', dateOf_monthEnd,
    formatCalendarDate_eq _ _ year, same]

end

theorem parse_startOfCalendarMonth {text : List Char} {day : ℤ} (parsed : parseCalendarDate text = some (dateOf day)) :
    parseCalendarDate (startOfCalendarMonth text) = some (dateOf (monthStart (monthNumber day))) := by
  obtain ⟨year, month, day', fields, same, valid⟩ := fields_of_parseCalendarDate parsed
  obtain ⟨years, months, days, rfl, four, two, -, digits, numbers⟩ := dateFields_some fields
  have cut : startOfCalendarMonth (years ++ '-' :: months ++ '-' :: days) = years ++ '-' :: months ++ '-' :: ['0', '1'] := by
    obtain ⟨a, b, c, d, rfl⟩ := exists_four four
    obtain ⟨e, f, rfl⟩ := length_eq_two.mp two
    rfl
  have first := dateFields_of_digits four two (show ['0', '1'].length = 2 from rfl) fun c mem => by
    simp only [mem_append, mem_cons, not_mem_nil, or_false] at mem
    rcases mem with front | rfl | rfl
    · exact digits c (mem_append_left _ (mem_append.mpr front))
    · rfl
    · rfl
  have one : number ['0', '1'] = 1 := by decide
  cases numbers
  have month_pos := (same ▸ valid).month_pos
  have month_le := (same ▸ valid).month_le
  have days_ge := monthDays_ge (monthNumber day)
  have start : dateOf (monthStart (monthNumber day)) = ⟨number years, number months, 1⟩ := by
    have of_start := dateOf_monthStart (monthNumber day) le_rfl (by omega)
    rw [Nat.cast_one, add_sub_cancel_right] at of_start
    rw [of_start, monthNumber, same, Date.mk.injEq]
    dsimp only at month_pos month_le ⊢
    omega
  rw [cut, start]
  rw [one] at first
  exact parseCalendarDate_of_fields first (start ▸ dateOf_valid _)

end EverWorks.Agents.RunWindow
