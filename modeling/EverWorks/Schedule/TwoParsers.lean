import EverWorks.Lib.Words
import EverWorks.Schedule.CronRule
import EverWorks.Schedule.PlatformCron

/-!
What the node's parser accepts the platform's matcher accepts too, and both read the same values.
-/

namespace EverWorks.Schedule
open Lib Lib.Calendar List JsString JsNumber

variable {letters : JsString.LetterCase}

theorem toUpper_toLower {c : Char} (ascii : c.toNat < 128) : c.toLower.toUpper = c.toUpper := by
  have table : ∀ n < 128, (Char.ofNat n).toLower.toUpper = (Char.ofNat n).toUpper := by decide
  have := table c.toNat ascii
  rwa [Char.ofNat_toNat] at this

variable {token : String}

theorem upper_of_lower {name : List Char}
    (plain : ∀ c ∈ name, 'a' ≤ c ∧ c ≤ 'z' ∧ c ≠ 'k') (lower : letters.lower token = String.ofList name) :
    letters.upper token = String.ofList (name.map Char.toUpper) := by
  have chars : (letters.lower token).toList = name := by rw [lower, String.toList_ofList]
  have ascii := letters.ascii_of_lower token (by rwa [chars])
  have lowered : token.toList.map Char.toLower = name := by rw [← letters.lower_ascii token ascii, chars]
  apply String.toList_inj.mp
  rw [letters.upper_ascii token ascii, String.toList_ofList, ← lowered, List.map_map]
  apply map_congr_left
  intro c member
  exact (toUpper_toLower (ascii c member)).symm

theorem numeral_spec (short : isShortNumeral token = true) :
    ofText token = (numeral token : ℕ) ∧ letters.upper token = token := by
  have parts := short
  simp only [isShortNumeral, Bool.and_eq_true, Bool.or_eq_true, beq_iff_eq, all_eq_true,
    ← String.length_toList] at parts
  obtain ⟨length, digits⟩ := parts
  constructor
  · have value : ∃ n < 100, ofDigits 10 token.toList = some n := by
      rcases length with one | two
      · obtain ⟨a, same⟩ := length_eq_one_iff.mp one
        rw [same] at digits ⊢
        have first := digits a (by simp)
        have := isDigit_iff.mp first
        exact ⟨a.toNat - 48, by omega, by simp [ofDigits, digitOf_isDigit first]⟩
      · obtain ⟨a, b, same⟩ := length_eq_two.mp two
        rw [same] at digits ⊢
        have first := digits a (by simp)
        have second := digits b (by simp)
        have := isDigit_iff.mp first
        have := isDigit_iff.mp second
        exact ⟨(a.toNat - 48) * 10 + (b.toNat - 48), by omega,
          by simp [ofDigits, digitOf_isDigit first, digitOf_isDigit second]⟩
    obtain ⟨n, small, read⟩ := value
    have nonempty : token.toList ≠ [] := by
      intro empty
      rw [empty] at length
      simp at length
    have number := ofText_digits nonempty read (by omega)
    rw [numeral, number, index_cast, Option.getD_some]
  · apply String.toList_inj.mp
    have ascii : ∀ c ∈ token.toList, c.toNat < 128 := fun c member => by
      have := isDigit_iff.mp (digits c member)
      omega
    rw [letters.upper_ascii token ascii]
    conv_rhs => rw [← map_id token.toList]
    apply map_congr_left
    intro c member
    have table : ∀ n < 58, (Char.ofNat n).toUpper = Char.ofNat n := by decide
    have upper := table c.toNat (by have := isDigit_iff.mp (digits c member); omega)
    rwa [Char.ofNat_toNat] at upper

structure NamesAgree (names : Option (List String)) (nameOffset : ℕ) (spec : FieldSpec) : Prop where
  nonempty : "" ∉ names.getD []
  plain : ∀ name ∈ names.getD [], ∀ c ∈ name.toList, 'a' ≤ c ∧ c ≤ 'z' ∧ c ≠ 'k'
  aliases : ∀ index name, (names.getD [])[index]? = some name →
    spec.aliases.lookup (String.ofList (name.toList.map Char.toUpper)) = some (index + nameOffset)
  noDigits : ∀ token, isShortNumeral token = true → spec.aliases.lookup token = none
  small : ∀ name value, spec.aliases.lookup name = some value → value ≤ 12

variable {names : Option (List String)}

variable {spec : FieldSpec}

theorem resolved {nameOffset value : ℕ}
    (agree : NamesAgree names nameOffset spec)
    (parsed : parseCronValue letters.toLowerCase token names nameOffset = some value) :
    (ofText (resolveAlias letters token spec)).index = some value := by
  unfold parseCronValue at parsed
  split at parsed
  case isTrue short =>
    obtain ⟨number, upper⟩ : ofText token = (numeral token : ℕ) ∧ letters.upper token = token :=
      numeral_spec short
    cases Option.some.inj parsed
    rw [resolveAlias, upper, agree.noDigits token short, number, index_cast]
  case isFalse =>
    obtain ⟨names, rfl, found⟩ := Option.bind_eq_some_iff.mp parsed
    obtain ⟨index, at_, rfl⟩ := Option.map_eq_some_iff.mp found
    rw [idxOf?_eq_some_iff] at at_
    obtain ⟨inside, same, -⟩ := at_
    set name := letters.lower token
    have at_ : names[index]? = some name := by rw [getElem?_eq_getElem inside, same]
    have plain := agree.plain name (same ▸ getElem_mem inside)
    have upper : letters.upper token = String.ofList (name.toList.map Char.toUpper) :=
      upper_of_lower plain String.ofList_toList.symm
    have known := agree.aliases index name at_
    have table : ∀ value ≤ 12, (ofText (toString value)).index = some value := by decide +kernel
    rw [resolveAlias, upper, known]
    exact table _ (agree.small _ _ known)

theorem parseInteger_of {nameOffset value : ℕ}
    (agree : NamesAgree names nameOffset spec)
    (parsed : parseCronValue letters.toLowerCase token names nameOffset = some value)
    (low : spec.min ≤ value) (high : value ≤ spec.max) :
    parseInteger letters token spec = some value := by
  rw [parseInteger, resolved agree parsed]
  simp [low, high]

variable {nameOffset : ℕ}

theorem parseCronValue_empty
    (agree : NamesAgree names nameOffset spec) :
    parseCronValue letters.toLowerCase "" names nameOffset = none := by
  have lower : letters.lower "" = "" := by
    apply String.toList_inj.mp
    rw [letters.lower_ascii "" (by simp)]
    rfl
  have long : ¬ isShortNumeral "" = true := by decide
  rw [parseCronValue, if_neg long, lower]
  cases names with
  | none => rfl
  | some names =>
    have absent : names.idxOf? "" = none := idxOf?_eq_none_iff.mpr agree.nonempty
    simp [absent]

theorem parseRange_of {range : String} {stepped : Bool} {nameOffset first last : ℕ}
    (agree : NamesAgree names nameOffset spec)
    (parsed : parseCronRange letters.toLowerCase range stepped spec.min spec.max names nameOffset =
      some (first, last))
    (inside : ¬ (first < spec.min ∨ spec.max < last ∨ last < first)) :
    parseRange letters range stepped spec = some (first, last) := by
  unfold parseCronRange at parsed
  unfold parseRange
  split at parsed
  case isTrue star => rwa [if_pos (.inl star)]
  case isFalse notStar =>
    have nonempty : range ≠ "" := by
      rintro rfl
      rw [if_neg (by decide)] at parsed
      simp [parseCronValue_empty agree] at parsed
    rw [if_neg (by simp [notStar, nonempty])]
    split at parsed
    case isTrue dash =>
      rw [if_pos dash]
      split at parsed
      case h_2 => cases parsed
      case h_1 a b split =>
        simp only [Option.bind_eq_bind, Option.bind_eq_some_iff, Option.pure_def, Option.some.injEq] at parsed
        obtain ⟨start, readStart, stop, readStop, same⟩ := parsed
        cases same
        rw [split]
        simp [parseInteger_of agree readStart (by omega) (by omega),
          parseInteger_of agree readStop (by omega) (by omega)]
        omega
    case isFalse plain =>
      rw [if_neg plain]
      simp only [Option.bind_eq_bind, Option.bind_eq_some_iff, Option.pure_def, Option.some.injEq] at parsed
      obtain ⟨single, read, same⟩ := parsed
      cases same
      have high : first ≤ spec.max := by
        cases stepped <;> simp at inside <;> omega
      simp [parseInteger_of agree read (by omega) high]

theorem parseFieldPart_of {part : String}
    {values : List ℕ} (agree : NamesAgree names nameOffset spec)
    (parsed : parseCronPart letters.toLowerCase part spec.min spec.max names nameOffset = some values) :
    part ≠ "" ∧ parseFieldPart letters part spec = some values := by
  have steps : ∀ text step, parseCronStep text = some step → parseStep text = some step := by
    intro text step read
    cases text with
    | none => exact read
    | some text =>
      obtain ⟨⟨short, positive⟩, same⟩ := Option.ite_none_right_eq_some.mp read
      obtain ⟨number, -⟩ : ofText text = (numeral text : ℕ) ∧ letters.upper text = text :=
        numeral_spec short
      rw [parseStep, number, index_cast, ← Option.some.inj same]
      simp [positive]
  have inner : ∀ range stepText more,
      parseCronPart.values letters.toLowerCase spec.min spec.max names nameOffset range stepText = some values →
      split part '/' = range :: more → more.head? = stepText →
      parseFieldPart letters part spec = some values := by
    rintro range _ more parsed split rfl
    unfold parseCronPart.values at parsed
    simp only [Option.bind_eq_bind, Option.bind_eq_some_iff, Prod.exists] at parsed
    obtain ⟨step, readStep, first, last, readRange, parsed⟩ := parsed
    obtain ⟨inside, same⟩ := Option.ite_none_left_eq_some.mp parsed
    have range_ : parseRange letters range more.head?.isSome spec = some (first, last) :=
      parseRange_of agree readRange inside
    simp only [parseFieldPart, split, steps _ _ readStep, range_, Option.bind_eq_bind, Option.bind_some]
    exact same
  unfold parseCronPart at parsed
  obtain ⟨nonempty, parsed⟩ := Option.ite_none_left_eq_some.mp parsed
  refine ⟨nonempty, ?_⟩
  split at parsed
  case h_1 range split => exact inner range none [] parsed split rfl
  case h_2 range stepText split => exact inner range (some stepText) [stepText] parsed split rfl
  case h_3 => cases parsed

theorem mem_of_mem_splitOn {separator c : Char} {text piece : List Char} (inText : piece ∈ text.splitOn separator)
    (member : c ∈ piece) : c ∈ text := by
  induction text generalizing piece with
  | nil =>
    rw [splitOn_nil, mem_singleton] at inText
    rwa [inText] at member
  | cons first rest ih =>
    by_cases same : first = separator
    · subst same
      rw [splitOn_cons_self] at inText
      rcases mem_cons.mp inText with rfl | later
      · cases member
      · exact mem_cons_of_mem _ (ih later member)
    · obtain ⟨head, more, split, splitCons⟩ := splitOn_cons_ne same rest
      rw [splitCons] at inText
      rcases mem_cons.mp inText with rfl | later
      · rcases mem_cons.mp member with rfl | inHead
        · exact mem_cons_self
        · exact mem_cons_of_mem _ (ih (split ▸ mem_cons_self) inHead)
      · exact mem_cons_of_mem _ (ih (split ▸ mem_cons_of_mem _ later) member)

theorem trim_split {field : String} {separator : Char}
    (solid : ∀ c ∈ field.toList, isWhiteSpace c = false) :
    (split field separator).map trim = split field separator := by
  conv_rhs => rw [← map_id (split field separator)]
  apply map_congr_left
  intro part member
  obtain ⟨piece, inPieces, rfl⟩ := mem_map.mp member
  apply trim_solid
  intro c inPiece
  rw [String.toList_ofList] at inPiece
  exact solid c (mem_of_mem_splitOn inPieces inPiece)

theorem parseField_of {field : String}
    {values : List ℕ} (agree : NamesAgree names nameOffset spec)
    (solid : ∀ c ∈ field.toList, isWhiteSpace c = false)
    (parsed : parseCronField letters.toLowerCase field spec.min spec.max names nameOffset = some values) :
    ∃ out, parseField letters field spec = some out ∧ ∀ value, value ∈ out ↔ value ∈ values := by
  have nonempty := (parseCronField_spec parsed).nonempty
  unfold parseCronField at parsed
  simp only [Option.bind_eq_bind, Option.bind_eq_some_iff, Option.pure_def, Option.some.injEq] at parsed
  obtain ⟨pieces, read, rfl⟩ := parsed
  have pairs := mapM_eq_some.mp read
  have parts : ((split field ',').map trim).filter (· ≠ "") = split field ',' := by
    rw [trim_split solid, filter_eq_self]
    intro part member
    obtain ⟨piece, -, parsed⟩ := exists_right pairs member
    simpa using (parseFieldPart_of agree parsed).1
  have out : (split field ',').mapM (fun part => parseFieldPart letters part spec) = some pieces := by
    rw [mapM_eq_some]
    exact pairs.imp fun part piece parsed => (parseFieldPart_of agree parsed).2
  have some_ : pieces.flatten ≠ [] := by
    intro empty
    rw [empty] at nonempty
    exact nonempty rfl
  refine ⟨pieces.flatten, ?_, fun value => mem_sorted.symm⟩
  simp only [parseField, parts, out, Option.bind_eq_bind, Option.bind_some, if_neg some_]

theorem separator_not_mem {separator : Char} {text piece : List Char} (inText : piece ∈ text.splitOn separator) :
    separator ∉ piece := by
  induction text generalizing piece with
  | nil =>
    rw [splitOn_nil, mem_singleton] at inText
    rw [inText]
    exact not_mem_nil
  | cons first rest ih =>
    by_cases same : first = separator
    · subst same
      rw [splitOn_cons_self] at inText
      rcases mem_cons.mp inText with rfl | later
      · exact not_mem_nil
      · exact ih later
    · obtain ⟨head, more, split, splitCons⟩ := splitOn_cons_ne same rest
      rw [splitCons] at inText
      rcases mem_cons.mp inText with rfl | later
      · rw [mem_cons, not_or]
        exact ⟨Ne.symm same, ih (split ▸ mem_cons_self)⟩
      · exact ih (split ▸ mem_cons_of_mem _ later)

theorem squeeze_spaces {text : List Char} {c : Char} (member : c ∈ squeeze text)
    (space : isWhiteSpace c = true) : c = ' ' := by
  induction text with
  | nil => cases member
  | cons first rest ih =>
    unfold squeeze at member
    split at member
    case isTrue =>
      split at member
      · exact ih member
      · rcases mem_cons.mp member with rfl | later
        · rfl
        · exact ih later
    case isFalse solid =>
      rcases mem_cons.mp member with rfl | later
      · exact absurd space solid
      · exact ih later

theorem splitSpaces_solid {text piece : String} (inText : piece ∈ splitSpaces text) :
    ∀ c ∈ piece.toList, isWhiteSpace c = false := by
  intro c member
  obtain ⟨units, inUnits, rfl⟩ := mem_map.mp inText
  rw [String.toList_ofList] at member
  rw [replaceSpaces, String.toList_ofList] at inUnits
  by_contra space
  rw [Bool.not_eq_false] at space
  have blank := squeeze_spaces (mem_of_mem_splitOn inUnits member) space
  subst blank
  exact separator_not_mem inUnits member

theorem noNames (min max : ℕ) : NamesAgree none 0 { min, max } where
  nonempty := by simp
  plain := by simp
  aliases := by simp
  noDigits := by simp
  small := by simp

theorem lookup_mem {aliases : List (String × ℕ)} {name : String} {value : ℕ}
    (found : aliases.lookup name = some value) : (name, value) ∈ aliases := by
  induction aliases with
  | nil => cases found
  | cons first rest ih =>
    rw [lookup_cons] at found
    split at found
    · rename_i same
      cases Option.some.inj found
      rw [beq_iff_eq.mp same]
      exact mem_cons_self
    · exact mem_cons_of_mem _ (ih found)

theorem namesAgree {names : List String}
    (nonempty : "" ∉ names)
    (plain : ∀ name ∈ names, name.toList.all fun c => decide ('a' ≤ c ∧ c ≤ 'z' ∧ c ≠ 'k'))
    (aliases : ∀ pair ∈ names.zipIdx,
      spec.aliases.lookup (String.ofList (pair.1.toList.map Char.toUpper)) = some (pair.2 + nameOffset))
    (entries : ∀ entry ∈ spec.aliases, isShortNumeral entry.1 = false ∧ entry.2 ≤ 12) :
    NamesAgree (some names) nameOffset spec where
  nonempty := nonempty
  plain name mem c inside := of_decide_eq_true (all_eq_true.mp (plain name mem) c inside)
  aliases index name at_ := aliases (name, index) (mem_zipIdx_iff_getElem?.mpr at_)
  noDigits token short := by
    by_contra found
    obtain ⟨value, found⟩ := Option.ne_none_iff_exists'.mp found
    rw [(entries _ (lookup_mem found)).1] at short
    cases short
  small name value found := (entries _ (lookup_mem found)).2

theorem monthsAgree : NamesAgree (some monthNames) 1 monthSpec :=
  namesAgree (by decide) (by decide) (by decide) (by decide)

theorem weekdaysAgree : NamesAgree (some weekdayNames) 0 dowSpec :=
  namesAgree (by decide) (by decide) (by decide) (by decide)

structure SameCron (fields : FleetCronFields) (parsed : ParsedCron) (day weekday : String) : Prop where
  minute : ∀ value, value ∈ parsed.minute ↔ value ∈ fields.minutes
  hour : ∀ value, value ∈ parsed.hour ↔ value ∈ fields.hours
  dayOfMonth : ∀ value, value ∈ parsed.dayOfMonth ↔ value ∈ fields.days
  month : ∀ value, value ∈ parsed.month ↔ value ∈ fields.months
  dayOfWeek : ∀ value, value ∈ parsed.dayOfWeek ↔ value ∈ fields.weekdays
  domRestricted : parsed.domRestricted = decide (day ≠ "*")
  dowRestricted : parsed.dowRestricted = decide (weekday ≠ "*")

theorem parseCron_of {expr : String} {fields : FleetCronFields}
    (read : parseFleetCron letters.toLowerCase (some expr) = some fields) :
    ∃ parsed minute hour day month weekday,
      splitSpaces (trim expr) = [minute, hour, day, month, weekday] ∧
      parseCron letters expr = some parsed ∧ SameCron fields parsed day weekday := by
  unfold parseFleetCron at read
  simp only [Option.bind_eq_bind, Option.bind_some] at read
  obtain ⟨-, read⟩ := Option.ite_none_left_eq_some.mp read
  split at read
  case h_2 => cases read
  case h_1 minute hour day month weekday texts =>
    simp only [Option.bind_eq_some_iff, Option.pure_def, Option.some.injEq] at read
    obtain ⟨minutes, readMinutes, hours, readHours, days, readDays, months, readMonths, weekdays,
      readWeekdays, rfl⟩ := read
    have solid : ∀ text ∈ [minute, hour, day, month, weekday], ∀ c ∈ text.toList,
        isWhiteSpace c = false := fun text member => splitSpaces_solid (texts ▸ member)
    obtain ⟨minutes', parsedMinutes, sameMinutes⟩ := parseField_of (noNames 0 59)
      (solid minute (by simp)) readMinutes
    obtain ⟨hours', parsedHours, sameHours⟩ := parseField_of (noNames 0 23) (solid hour (by simp)) readHours
    obtain ⟨days', parsedDays, sameDays⟩ := parseField_of (noNames 1 31) (solid day (by simp)) readDays
    obtain ⟨months', parsedMonths, sameMonths⟩ := parseField_of monthsAgree (solid month (by simp)) readMonths
    obtain ⟨weekdays', parsedWeekdays, sameWeekdays⟩ := parseField_of weekdaysAgree
      (solid weekday (by simp)) readWeekdays
    refine ⟨{
      minute := minutes', hour := hours', dayOfMonth := days', month := months'
      dayOfWeek := if 7 ∈ weekdays' then weekdays'.filter (· ≠ 7) ++ [0] else weekdays'
      domRestricted := day ≠ "*", dowRestricted := weekday ≠ "*" },
      minute, hour, day, month, weekday, texts, ?_, sameMinutes, sameHours, sameDays, sameMonths, ?_, rfl, rfl⟩
    · simp only [parseCron, texts, Option.bind_eq_bind, minuteSpec, hourSpec, domSpec, parsedMinutes, parsedHours,
        parsedDays, parsedMonths, parsedWeekdays, Option.bind_some]
      rfl
    · intro value
      dsimp only
      rw [mem_sorted, mem_map]
      simp only [← sameWeekdays]
      constructor
      · intro member
        split at member
        case isTrue sunday =>
          rcases mem_append.mp member with inRest | zero
          · obtain ⟨inWeek, notSunday⟩ := mem_filter.mp inRest
            exact ⟨value, inWeek, if_neg (by simpa using notSunday)⟩
          · exact ⟨7, sunday, by simpa using (mem_singleton.mp zero).symm⟩
        case isFalse other =>
          exact ⟨value, member, if_neg fun same : value = 7 => other (same ▸ member)⟩
      · rintro ⟨day, member, rfl⟩
        by_cases sunday : day = 7
        · subst sunday
          simp [member]
        · rw [if_neg sunday]
          split
          · exact mem_append_left _ (mem_filter.mpr ⟨member, by simpa using sunday⟩)
          · exact member

end EverWorks.Schedule
