import EverWorks.Agents.WindowDates

/-!
A window lies between the starts of two days. It holds the instants of its dates where both starts are the first
instants of their days and the clocks are not set back over them.
-/

namespace EverWorks.Agents.RunWindow
open Lib Calendar IsoDate Credits Option List

def RunLedgerGranularity.calendar : RunLedgerGranularity → Grid
  | .day => Grid.every 0 1 Int.one_pos
  | .week => Grid.every 4 7 (by decide)
  | .month => ⟨monthStart, monthNumber, monthStart_strictMono, fun t => (monthNumber_spec t).1, fun t => (monthNumber_spec t).2⟩

section
variable {zone : TimeZone} {day : ℤ}

theorem start_of_dateText {start : ℤ} (late : dayOf 100 1 1 ≤ day)
    (starts : startOfCalendarDate (dateText day) zone = some start) : start = startOfWallClock (day * msPerDay) zone := by
  have some_ := starts
  rw [startOfCalendarDate, map_eq_some_iff] at some_
  obtain ⟨date, parsed, -⟩ := some_
  obtain ⟨rfl, -, -⟩ := four_of_parse parsed
  rw [startOfCalendarDate_eq parsed late] at starts
  exact (some.inj starts).symm

theorem addCalendarDays_some {text end_ : List Char} {days : ℤ} (added : addCalendarDays text days = some end_) :
    ∃ date, parseCalendarDate text = some date := by
  rw [addCalendarDays, map_eq_some_iff] at added
  obtain ⟨date, parsed, -⟩ := added
  exact ⟨date, parsed⟩

theorem start_near (granularity : RunLedgerGranularity) (day : ℤ) : day - 31 < granularity.calendar.start day := by
  cases granularity with
  | day =>
    show day - 31 < 0 + (day - 0) / 1 * 1
    omega
  | week =>
    show day - 31 < 4 + (day - 4) / 7 * 7
    omega
  | month =>
    show day - 31 < monthStart (monthNumber day)
    have added := monthStart_add day
    have le := (dateOf_valid day).day_le.trans (monthLength_le _ _)
    omega

theorem windowDates_eq {granularity : RunLedgerGranularity} {text start end_ : List Char} {from_ to_ : ℤ}
    (parsed : parseCalendarDate text = some (dateOf day)) (late : dayOf 100 1 1 + 31 ≤ day)
    (dates : windowDates granularity text = some (start, end_)) (starts : startOfCalendarDate start zone = some from_)
    (ends : startOfCalendarDate end_ zone = some to_) :
    from_ = startOfWallClock (granularity.calendar.start day * msPerDay) zone ∧
      to_ = startOfWallClock (granularity.calendar.next day * msPerDay) zone := by
  have near := start_near granularity day
  have after := granularity.calendar.lt_next day
  cases granularity with
  | day =>
    have first : RunLedgerGranularity.day.calendar.start day = day := by
      show 0 + (day - 0) / 1 * 1 = day
      omega
    have last : RunLedgerGranularity.day.calendar.next day = day + 1 := by
      show 0 + ((day - 0) / 1 + 1) * 1 = day + 1
      omega
    rw [windowDates, addCalendarDays_eq parsed (by omega)] at dates
    cases dates
    rw [startOfCalendarDate_eq parsed (by omega)] at starts
    rw [first, last]
    exact ⟨(some.inj starts).symm, start_of_dateText (by omega) ends⟩
  | week =>
    have first : RunLedgerGranularity.week.calendar.start day = 4 + (day - 4) / 7 * 7 := rfl
    have last : RunLedgerGranularity.week.calendar.next day = 4 + (day - 4) / 7 * 7 + 7 := by
      show 4 + ((day - 4) / 7 + 1) * 7 = _
      omega
    rw [first] at near ⊢
    rw [last] at after ⊢
    simp only [windowDates, startOfIsoWeek_eq parsed (show dayOf 100 1 1 ≤ day by omega), bind_eq_bind,
      bind_some, bind_eq_some_iff] at dates
    obtain ⟨shown, added, pair⟩ := dates
    cases pair
    obtain ⟨date, monday⟩ := addCalendarDays_some added
    obtain ⟨rfl, -, -⟩ := four_of_parse monday
    rw [addCalendarDays_eq monday (by omega)] at added
    cases added
    exact ⟨start_of_dateText (by omega) starts, start_of_dateText (by omega) ends⟩
  | month =>
    have first : RunLedgerGranularity.month.calendar.start day = monthStart (monthNumber day) := rfl
    have last : RunLedgerGranularity.month.calendar.next day = monthStart (monthNumber day + 1) := rfl
    rw [first] at near ⊢
    rw [last] at after ⊢
    have begun := parse_startOfCalendarMonth parsed
    have number : monthNumber (monthStart (monthNumber day)) = monthNumber day :=
      monthNumber_eq le_rfl (monthStart_strictMono (Int.lt_succ _))
    have one : (dateOf (monthStart (monthNumber day))).day = 1 := by
      have added := monthStart_add (monthStart (monthNumber day))
      rw [number] at added
      omega
    have added := @addCalendarMonths_eq _ _ begun (by omega) 1 (by rw [number]; omega)
    have days := monthDays_ge (monthNumber day + 1)
    rw [number, one, min_eq_left (by omega), Nat.cast_one, add_sub_cancel_right] at added
    rw [windowDates, added] at dates
    cases dates
    rw [startOfCalendarDate_eq begun (by omega)] at starts
    exact ⟨(some.inj starts).symm, start_of_dateText (by omega) ends⟩

theorem windowDates_of_not_digit (granularity : RunLedgerGranularity) {sign : Char} {rest : List Char}
    (notDigit : ¬ sign.isDigit) : windowDates granularity (sign :: rest) = none := by
  cases granularity with
  | day => rw [windowDates, addCalendarDays, parse_of_not_digit notDigit]; rfl
  | week => rw [windowDates, startOfIsoWeek, parse_of_not_digit notDigit]; rfl
  | month =>
    have cut : startOfCalendarMonth (sign :: rest) = sign :: (rest.take 7 ++ ['0', '1']) := rfl
    rw [windowDates, cut, addCalendarMonths, parse_of_not_digit notDigit]
    rfl

theorem thousand_le_of_today {now : ℤ} {date : Date} (parsed : parseCalendarDate (calendarDateInTimezone now zone) = some date) :
    1000 ≤ date.year := by
  obtain ⟨year, month, day, fields, rfl, -⟩ := fields_of_parseCalendarDate parsed
  obtain ⟨years, months, days, text, four, two, two', -, same⟩ := dateFields_some fields
  cases same
  obtain ⟨front, -⟩ := append_inj' text (by simp [two'])
  obtain ⟨digits, -⟩ := append_inj' front (by simp [two])
  rw [← digits] at four ⊢
  rw [number_toDigits]
  refine Int.ofNat_le.mpr (not_lt.mp fun short => ?_)
  have three := (Nat.length_toDigits_le_iff (k := 3) (by omega : 1 < 10) (by omega)).mpr short
  omega

theorem year_mono {first last : ℤ} (le : first ≤ last) : (dateOf first).year ≤ (dateOf last).year := by
  have months := monthNumber_mono le
  obtain ⟨pos, le', -, -⟩ := dateOf_valid first
  obtain ⟨pos', le'', -, -⟩ := dateOf_valid last
  rw [monthNumber, monthNumber] at months
  omega

theorem year_of_monthNumber {day year : ℤ} {month : ℕ} (number : monthNumber day = 12 * year + month - 1) (pos : 1 ≤ month)
    (le : month ≤ 12) : (dateOf day).year = year := by
  obtain ⟨pos', le', -, -⟩ := dateOf_valid day
  rw [monthNumber] at number
  omega

theorem late_of_year (late : 999 ≤ (dateOf day).year) : dayOf 100 1 1 + 31 ≤ day := by
  have years := yearStart_add_le (show 100 ≤ yearOf day by exact le_trans (by omega) late)
  obtain ⟨low, -⟩ := yearStart_yearOf day
  have year : (dateOf day).year = yearOf day := rfl
  rw [dayOf_hundred]
  omega

theorem reachableRange_eq {now : ℤ} {earliest latest : List Char} (range : reachableRange now zone = some (earliest, latest)) :
    ∃ today first last, parseCalendarDate (calendarDateInTimezone now zone) = some (dateOf today) ∧
      999 ≤ (dateOf today).year ∧ earliest = dateText first ∧ latest = dateText last ∧
      999 ≤ (dateOf first).year ∧ (dateOf first).year ≤ 9999 ∧ 999 ≤ (dateOf last).year := by
  simp only [reachableRange, bind_eq_bind, bind_eq_some_iff] at range
  obtain ⟨text, first, text', last, pair⟩ := range
  cases pair
  obtain ⟨date, parsed⟩ := addCalendarDays_some last
  have thousand := thousand_le_of_today parsed
  obtain ⟨valid, -, short⟩ := parseCalendarDate_spec parsed
  obtain ⟨today, rfl⟩ : ∃ today, dateOf today = date := ⟨_, dateOf_dayOf valid⟩
  have late := late_of_year (show 999 ≤ (dateOf today).year by omega)
  have month_pos := valid.month_pos
  have month_le := valid.month_le
  have back : monthNumber today + -runLedgerReachBackMonths = 12 * ((dateOf today).year - 1) + (dateOf today).month - 1 := by
    rw [monthNumber, runLedgerReachBackMonths]
    omega
  have days := monthDays_ge (monthNumber today + -runLedgerReachBackMonths)
  have day_pos := valid.day_pos
  have inside := @monthNumber_eq (monthStart (monthNumber today + -runLedgerReachBackMonths) +
      min ((dateOf today).day : ℤ) (monthDays (monthNumber today + -runLedgerReachBackMonths)) - 1)
    (monthNumber today + -runLedgerReachBackMonths) (by omega) (by rw [monthStart_succ]; omega)
  have year := year_of_monthNumber (inside.trans back) month_pos month_le
  have start := @monthNumber_eq _ (monthNumber today + -runLedgerReachBackMonths) le_rfl
    (monthStart_strictMono (Int.lt_succ _))
  have year' := year_of_monthNumber (start.trans back) month_pos month_le
  have target := hundred_le_iff.mp (year'.symm ▸ (by omega : 100 ≤ (dateOf today).year - 1))
  rw [addCalendarMonths_eq parsed (by omega) target] at first
  rw [addCalendarDays_eq parsed (by omega)] at last
  cases first
  cases last
  have ahead := year_mono (show today ≤ today + runLedgerReachForwardDays by rw [runLedgerReachForwardDays]; omega)
  exact ⟨today, _, _, parsed, by omega, rfl, rfl, by omega, by omega, by omega⟩

theorem lt_dateText {text : List Char} {date : Date} (parsed : parseCalendarDate text = some date)
    (four : 0 ≤ (dateOf day).year ∧ (dateOf day).year ≤ 9999) (lt : date.year < (dateOf day).year) :
    text < dateText day := by
  obtain ⟨year, month, day', fields, rfl, -⟩ := fields_of_parseCalendarDate parsed
  obtain ⟨years, months, days, rfl, length, -, -, digits, same⟩ := dateFields_some fields
  cases same
  have short : (dateOf day).year.natAbs < 10 ^ 4 := by omega
  rw [dateText_four four, append_assoc, append_assoc]
  refine lt_of_number_lt (by rw [length, length_pad])
    (fun c mem => digits c (mem_append_left _ (mem_append_left _ mem))) (fun c => isDigit_of_mem_pad) ?_ _ _
  rw [number_pad short]
  dsimp only at lt
  omega

theorem parse_of_isDate {text : List Char} (isDate : isRunLedgerCalendarDate text = true) :
    ∃ date, parseCalendarDate text = some date := by
  rw [parseCalendarDate, if_pos isDate]
  unfold isRunLedgerCalendarDate at isDate
  cases fields : dateFields text with
  | none =>
    rw [fields] at isDate
    cases isDate
  | some found => exact ⟨_, rfl⟩

theorem anchor_spec {now : ℤ} {granularity : RunLedgerGranularity} {date : Option (List Char)}
    {earliest latest anchorDate : List Char} {clamped : Bool} {dates : List Char × List Char}
    (range : reachableRange now zone = some (earliest, latest))
    (anchor : clampAnchor ((date.filter isRunLedgerCalendarDate).getD (calendarDateInTimezone now zone)) earliest latest =
      (anchorDate, clamped)) (shown : windowDates granularity anchorDate = some dates) :
    ∃ day, parseCalendarDate anchorDate = some (dateOf day) ∧ 999 ≤ (dateOf day).year := by
  obtain ⟨today, first, last, parsed, thousand, rfl, rfl, low, high, low'⟩ := reachableRange_eq range
  generalize asked_eq : (date.filter isRunLedgerCalendarDate).getD (calendarDateInTimezone now zone) = asked at anchor
  have readable : ∃ date, parseCalendarDate asked = some date := by
    subst asked_eq
    cases kept : date.filter isRunLedgerCalendarDate with
    | none => exact ⟨_, parsed⟩
    | some text => exact parse_of_isDate (filter_eq_some_iff.mp kept).2
  unfold clampAnchor at anchor
  split at anchor
  · cases anchor
    exact ⟨first, parse_dateText ⟨by omega, high⟩, low⟩
  · rename_i reached
    split at anchor
    · cases anchor
      by_cases four : 0 ≤ (dateOf last).year ∧ (dateOf last).year ≤ 9999
      · exact ⟨last, parse_dateText four, low'⟩
      · obtain ⟨sign, rest, text, notDigit⟩ := parse_dateText_sign four
        rw [text, windowDates_of_not_digit granularity notDigit] at shown
        cases shown
    · cases anchor
      obtain ⟨date, read⟩ := readable
      obtain ⟨valid, -, -⟩ := parseCalendarDate_spec read
      refine ⟨dayOf date.year date.month date.day, by rw [dateOf_dayOf valid]; exact read, ?_⟩
      rw [dateOf_dayOf valid]
      by_contra early
      exact reached (lt_dateText read ⟨by omega, high⟩ (lt_of_lt_of_le (not_le.mp early) low))

end

namespace TimeZone
variable (zone : TimeZone)

/-- The start of a day is its first instant, and the clocks show no date before it from there on. -/
def Kept (day : ℤ) : Prop :=
  ¬ zone.Skips (day * msPerDay) ∧ ¬ zone.Repeats (day * msPerDay) ∧ ¬ zone.Splits (day * msPerDay)

theorem kept_iff {day : ℤ} : zone.Kept day ↔
    IsLeast {t | zone.localDay t = day} (zone.guessed (day * msPerDay)) ∧ ¬ zone.Splits (day * msPerDay) := by
  rw [Kept, isLeast_guessed, and_assoc]

theorem localTime_guessed (midnight : ℤ) : midnight - 10800000 ≤ zone.localTime (zone.guessed midnight) ∧
    zone.localTime (zone.guessed midnight) ≤ midnight + 10800000 := by
  have here := zone.bounded midnight
  have there := zone.bounded (midnight - zone.offset midnight)
  rw [localTime, guessed]
  rcases le_total (midnight - zone.offset midnight)
    (midnight - zone.offset (midnight - zone.offset midnight)) with le | le
  · have drift := zone.offset_drift le (by omega)
    omega
  · have drift := zone.offset_drift le (by omega)
    omega

theorem guessed_lt {first last : ℤ} (lt : first < last) :
    zone.guessed (first * msPerDay) < zone.guessed (last * msPerDay) := by
  by_contra back
  have drop := zone.localTime_drop (not_lt.mp back)
  have early := zone.localTime_guessed (first * msPerDay)
  have late := zone.localTime_guessed (last * msPerDay)
  have scaled : (first + 1) * msPerDay ≤ last * msPerDay := Int.mul_le_mul_of_nonneg_right lt msPerDay_pos.le
  rw [add_mul, one_mul] at scaled
  have hours := three_hours
  unfold msPerDay at hours scaled drop early late
  omega

theorem le_localDay_iff {t day : ℤ} : day ≤ zone.localDay t ↔ day * msPerDay ≤ zone.localTime t :=
  Int.le_ediv_iff_mul_le msPerDay_pos

theorem localDay_lt_iff {t day : ℤ} : zone.localDay t < day ↔ zone.localTime t < day * msPerDay :=
  Int.ediv_lt_iff_lt_mul msPerDay_pos

theorem mem_guessed_iff {first last : ℤ} (lt : first < last) :
    (∀ t, zone.guessed (first * msPerDay) ≤ t ∧ t < zone.guessed (last * msPerDay) ↔
      first ≤ zone.localDay t ∧ zone.localDay t < last) ↔ zone.Kept first ∧ zone.Kept last := by
  obtain ⟨cut, inside, early, kept⟩ := zone.exists_cut (first * msPerDay)
  obtain ⟨cut', inside', early', kept'⟩ := zone.exists_cut (last * msPerDay)
  have least := isLeast_localDay zone inside early
  have least' := isLeast_localDay zone inside' early'
  have near := zone.localTime_guessed (last * msPerDay)
  have ordered := zone.guessed_lt lt
  have scaled : (first + 1) * msPerDay ≤ last * msPerDay := Int.mul_le_mul_of_nonneg_right lt msPerDay_pos.le
  rw [add_mul, one_mul] at scaled
  have day : msPerDay = 86400000 := rfl
  rw [kept_iff, kept_iff, ← kept, ← kept']
  simp only [le_localDay_iff, localDay_lt_iff]
  constructor
  · intro holds
    have low : zone.guessed (first * msPerDay) = cut := by
      have within := (holds cut).mpr ⟨inside.1, by omega⟩
      have shows := (holds _).mp ⟨le_rfl, ordered⟩
      refine le_antisymm within.1 (not_lt.mp fun under => ?_)
      have before := early _ under
      omega
    have ends : zone.guessed (last * msPerDay) = cut' := by
      have after : cut ≤ cut' := not_lt.mp fun under => absurd (early _ under) (by omega)
      have outside : zone.guessed (last * msPerDay) ≤ cut' := by
        by_contra under
        have shows := (holds cut').mp ⟨by omega, by omega⟩
        omega
      refine le_antisymm outside (not_lt.mp fun under => ?_)
      have before := early' _ under
      have shows := (holds (zone.guessed (last * msPerDay))).mpr ⟨by omega, before⟩
      omega
    rw [low, ends]
    refine ⟨⟨least, fun t late => ?_⟩, least', fun t late => ?_⟩
    · rcases lt_or_ge t cut' with within | after
      · exact ((holds t).mp ⟨by omega, by omega⟩).1
      · have drop := zone.localTime_drop after
        omega
    · have drop := zone.localTime_drop late
      refine not_lt.mp fun before => ?_
      have within := (holds t).mpr ⟨by omega, before⟩
      omega
  · rintro ⟨⟨first_least, first_kept⟩, last_least, last_kept⟩ t
    rw [first_least.unique least, last_least.unique least']
    constructor
    · rintro ⟨low, high⟩
      exact ⟨first_kept t low, early' t high⟩
    · rintro ⟨low, high⟩
      constructor
      · exact not_lt.mp fun under => absurd (early t under) (not_lt.mpr low)
      · exact not_le.mp fun late => absurd (last_kept t late) (not_le.mpr high)

end TimeZone

def windowZone (intl : String → Option TimeZone) (input : ResolveRunWindowInput) : TimeZone :=
  ((knownTimezone intl input.timezone).getD ("UTC", .utc)).2

/-- The day a window is anchored on. -/
def AnchoredOn (window : RunLedgerWindow) (day : ℤ) : Prop := parseCalendarDate window.anchorDate = some (dateOf day)

theorem anchoredOn_unique {window : RunLedgerWindow} {day other : ℤ} (anchored : AnchoredOn window day)
    (anchored' : AnchoredOn window other) : day = other := by
  have same := some.inj (anchored.symm.trans anchored')
  have back := dayOf_dateOf day
  rw [same, dayOf_dateOf] at back
  exact back.symm

section
variable {intl : String → Option TimeZone} {input : ResolveRunWindowInput} {now : ℤ} {window : RunLedgerWindow}

theorem resolveRunWindow_spec (resolved : resolveRunWindow intl input now = some window) : ∃ day, AnchoredOn window day ∧
    window.from_ = (windowZone intl input).guessed (window.granularity.calendar.start day * msPerDay) ∧
    window.to_ = (windowZone intl input).guessed (window.granularity.calendar.next day * msPerDay) := by
  simp only [resolveRunWindow, bind_eq_bind, bind_eq_some_iff] at resolved
  obtain ⟨⟨earliest, latest⟩, range, ⟨start, end_⟩, dates, from_, starts, to_, ends, same⟩ := resolved
  cases same
  obtain ⟨day, parsed, year⟩ := anchor_spec range (Prod.eta _).symm dates
  have late := late_of_year year
  obtain ⟨first, last⟩ := windowDates_eq parsed late dates starts ends
  refine ⟨day, parsed, first.trans ?_, last.trans ?_⟩
  · have near := start_near ((input.granularity.bind RunLedgerGranularity.ofText).getD .day) day
    exact startOfWallClock_eq _ (by omega)
  · have after := ((input.granularity.bind RunLedgerGranularity.ofText).getD .day).calendar.lt_next day
    exact startOfWallClock_eq _ (by omega)

theorem mem_window_iff (resolved : resolveRunWindow intl input now = some window) {day : ℤ}
    (anchored : AnchoredOn window day) : (∀ t, window.from_ ≤ t ∧ t < window.to_ ↔
      window.granularity.calendar.index ((windowZone intl input).localDay t) = window.granularity.calendar.index day) ↔
    (windowZone intl input).Kept (window.granularity.calendar.start day) ∧
      (windowZone intl input).Kept (window.granularity.calendar.next day) := by
  obtain ⟨day', anchored', low, high⟩ := resolveRunWindow_spec resolved
  obtain rfl := anchoredOn_unique anchored anchored'
  have lt : window.granularity.calendar.start day < window.granularity.calendar.next day :=
    window.granularity.calendar.rises (Int.lt_succ _)
  rw [low, high, ← TimeZone.mem_guessed_iff _ lt]
  refine forall_congr' fun t => iff_congr Iff.rfl ?_
  constructor
  · intro same
    have below := window.granularity.calendar.low ((windowZone intl input).localDay t)
    have above := window.granularity.calendar.high ((windowZone intl input).localDay t)
    rw [same] at below above
    exact ⟨below, above⟩
  · rintro ⟨below, above⟩
    exact window.granularity.calendar.index_eq below above

end

/-- Two windows of one size in one zone are one, or the one that begins earlier ends before the other begins, and where
their cells are neighbours ends as the other begins. -/
structure Tiled (first second : RunLedgerWindow) (day day' : ℤ) : Prop where
  nonempty : first.from_ < first.to_
  same : first.granularity.calendar.index day = first.granularity.calendar.index day' →
    first.from_ = second.from_ ∧ first.to_ = second.to_
  apart : first.granularity.calendar.index day < first.granularity.calendar.index day' → first.to_ ≤ second.from_
  neighbours : first.granularity.calendar.index day + 1 = first.granularity.calendar.index day' →
    first.to_ = second.from_

theorem tiled_windows {intl : String → Option TimeZone} {input input' : ResolveRunWindowInput} {now now' : ℤ}
    {first second : RunLedgerWindow} (resolved : resolveRunWindow intl input now = some first)
    (resolved' : resolveRunWindow intl input' now' = some second) (zones : input.timezone = input'.timezone)
    (size : first.granularity = second.granularity) {day day' : ℤ} (anchored : AnchoredOn first day)
    (anchored' : AnchoredOn second day') : Tiled first second day day' := by
  obtain ⟨found, anchor, low, high⟩ := resolveRunWindow_spec resolved
  obtain ⟨found', anchor', low', high'⟩ := resolveRunWindow_spec resolved'
  obtain rfl := anchoredOn_unique anchored anchor
  obtain rfl := anchoredOn_unique anchored' anchor'
  have zone : windowZone intl input' = windowZone intl input := by rw [windowZone, windowZone, zones]
  rw [zone, ← size] at low' high'
  have rises {i j : ℤ} (lt : i < j) := TimeZone.guessed_lt (windowZone intl input) (first.granularity.calendar.rises lt)
  constructor
  · rw [low, high]
    exact rises (Int.lt_succ _)
  · intro same
    rw [low, high, low', high', Grid.start, Grid.next, Grid.start, Grid.next, same]
    exact ⟨rfl, rfl⟩
  · intro lt
    rw [high, low', Grid.start, Grid.next]
    rcases (Int.add_one_le_iff.mpr lt).eq_or_lt with same | apart
    · rw [same]
    · exact (rises apart).le
  · intro next
    rw [high, low', Grid.start, Grid.next, next]

/-- Every date starts at its first instant in exactly the zones where it fits; a window holds the instants of its dates
and no others where the days it begins and ends with are kept; and windows tile the time line in every zone. -/
theorem windows_iff (intl : String → Option TimeZone) :
    (∀ (zone : TimeZone) text date, parseCalendarDate text = some date → ∃ start,
      startOfCalendarDate text zone = some start ∧
        (IsLeast {t | zone.localDay t = dayOf date.year date.month date.day} start ↔ Fits zone date)) ∧
    (∀ input now window, resolveRunWindow intl input now = some window → ∃ day, AnchoredOn window day ∧
      ((∀ t, window.from_ ≤ t ∧ t < window.to_ ↔ window.granularity.calendar.index ((windowZone intl input).localDay t) =
          window.granularity.calendar.index day) ↔
        (windowZone intl input).Kept (window.granularity.calendar.start day) ∧
          (windowZone intl input).Kept (window.granularity.calendar.next day))) ∧
    (∀ input now first, resolveRunWindow intl input now = some first → ∀ input' now' second,
      resolveRunWindow intl input' now' = some second → input.timezone = input'.timezone →
        first.granularity = second.granularity → ∀ day day', AnchoredOn first day → AnchoredOn second day' →
          Tiled first second day day') := by
  refine ⟨fun zone text date parsed => ?_, fun input now window resolved => ?_,
    fun input now first resolved input' now' second resolved' zones size day day' anchored anchored' =>
      tiled_windows resolved resolved' zones size anchored anchored'⟩
  · obtain ⟨valid, nonneg, -⟩ := parseCalendarDate_spec parsed
    refine ⟨_, by rw [startOfCalendarDate, parsed, map_some], ?_⟩
    exact isLeast_startOfWallClock zone valid nonneg
  · obtain ⟨day, anchored, -, -⟩ := resolveRunWindow_spec resolved
    exact ⟨day, anchored, mem_window_iff resolved anchored⟩

theorem fits_utc : Fits .utc ⟨2024, 3, 1⟩ := by
  refine ⟨by decide, fun hundred => absurd hundred (by decide), ?_, ?_⟩ <;> rintro ⟨change, jump, -⟩ <;>
    exact absurd jump (lt_irrefl _)

theorem march_starts : IsLeast {t | TimeZone.utc.localDay t = 19783} 1709251200000 := by
  obtain ⟨start, starts, least⟩ :=
    (windows_iff fun _ => none).1 .utc ['2', '0', '2', '4', '-', '0', '3', '-', '0', '1'] ⟨2024, 3, 1⟩ (by decide +kernel)
  have value : startOfCalendarDate ['2', '0', '2', '4', '-', '0', '3', '-', '0', '1'] .utc = some 1709251200000 := by
    decide +kernel
  have day : dayOf 2024 3 1 = 19783 := by decide +kernel
  obtain rfl := some.inj (value.symm.trans starts)
  rw [← day]
  exact least.mpr fits_utc

def midnightJump : TimeZone where
  offset t := if t < 1541300400000 then -10800000 else -7200000
  whole t := by split <;> rfl
  bounded t := by split <;> decide
  minutes t := by split <;> split <;> omega
  small t := by split <;> split <;> decide
  spaced {s t} lt jump jump' := by
    split at jump <;> split at jump <;> split at jump' <;> split at jump' <;> omega

/-- There the date begins an hour too early, on the day before. -/
theorem jumped_midnight_starts_early : ¬ ∀ (zone : TimeZone) text date start, parseCalendarDate text = some date →
    startOfCalendarDate text zone = some start →
      IsLeast {t | zone.localDay t = dayOf date.year date.month date.day} start := by
  intro claim
  have least := claim midnightJump ['2', '0', '1', '8', '-', '1', '1', '-', '0', '4'] ⟨2018, 11, 4⟩ 1541296800000
    (by decide +kernel) (by decide +kernel)
  have shown : midnightJump.localDay 1541296800000 = 17838 := by decide +kernel
  have day : dayOf 2018 11 4 = 17839 := by decide +kernel
  have same : (17838 : ℤ) = 17839 := shown.symm.trans (least.1.trans day)
  exact absurd same (by decide)

end EverWorks.Agents.RunWindow
