import EverWorks.Schedule.CronGrammar

/-!
# Where the parser is exact

Ranges, parts, fields and expressions in turn: the parser accepts what reads, and what reads is an expression
exactly where it is plain.
-/

namespace EverWorks.Schedule
open Lib Lib.Calendar List JsString JsNumber

section

variable {letters : JsString.LetterCase} {spec : FieldSpec}

/-! ## Ranges -/

theorem includes_dash {text : String} : includes text "-" = true ↔ '-' ∈ text.toList := by
  rw [includes, decide_eq_true_eq]
  exact singleton_infix_iff '-' text.toList

variable {separator : Char}

theorem split_of_not_mem {text : String} (absent : separator ∉ text.toList) :
    split text separator = [text] := by
  have alone : ([separator].intercalate [text.toList]).splitOn separator = [text.toList] :=
    splitOn_intercalate separator (by simpa using absent) (by simp)
  rw [split]
  rw [intercalate_singleton] at alone
  rw [alone]
  simp

theorem mem_of_split {text a b : String} {more : List String}
    (pieces : split text separator = a :: b :: more) : separator ∈ text.toList := by
  by_contra absent
  rw [split_of_not_mem absent] at pieces
  cases pieces

theorem split_pieces (text : String) (separator : Char) :
    ∃ first more, split text separator = first :: more := by
  obtain ⟨first, more, same⟩ := exists_cons_of_ne_nil (splitOn_ne_nil separator text.toList)
  exact ⟨String.ofList first, more.map String.ofList, by rw [split, same]; rfl⟩

theorem literal_filled {token : String} {n : ℕ} (usual : Usual spec) (literal : Literal spec token n) :
    ¬(token = "*" ∨ token = "") ∧ '-' ∉ token.toList := by
  obtain ⟨nonempty, high⟩ := literal_chars usual literal
  have apart : ∀ c : Char, c.toNat < 48 → c ∉ token.toList := by
    intro c low member
    have := high c member
    omega
  refine ⟨?_, apart '-' (by decide)⟩
  rintro (rfl | rfl)
  · exact apart '*' (by decide) (by decide)
  · exact nonempty rfl

variable {stepped : Bool}

variable {range : String}

variable {first last : ℕ}

theorem parseRange_iff (usual : Usual spec) :
    parseRange letters range stepped spec = some (first, last) ↔ LooseRange letters spec stepped range first last := by
  constructor
  · intro read
    unfold parseRange at read
    split at read
    · next text =>
      cases read
      exact .every text
    · next filled =>
      split at read
      · split at read
        · next a b more pieces =>
          simp only [Option.bind_eq_bind, Option.bind_eq_some_iff] at read
          obtain ⟨m, readM, n, readN, read⟩ := read
          obtain ⟨ordered, same⟩ := Option.ite_none_left_eq_some.mp read
          cases same
          exact .span pieces ((parseInteger_iff usual).mp readM) ((parseInteger_iff usual).mp readN)
            (not_lt.mp ordered)
        · cases read
      · next dashless =>
        simp only [Option.bind_eq_bind, Option.bind_eq_some_iff, Option.pure_def, Option.some.injEq] at read
        obtain ⟨n, readN, same⟩ := read
        cases same
        exact .single filled (fun dash => dashless (includes_dash.mpr dash)) ((parseInteger_iff usual).mp readN)
  · intro loose
    unfold parseRange
    cases loose with
    | every text => rw [if_pos text]
    | single filled dashless literal =>
      rw [if_neg filled, if_neg (fun dash => dashless (includes_dash.mp dash))]
      simp [(parseInteger_iff usual).mpr literal]
    | @span a b more m n pieces readM readN ordered =>
      have dash := mem_of_split pieces
      have filled : ¬(range = "*" ∨ range = "") := by
        rintro (rfl | rfl) <;> revert dash <;> decide
      rw [if_neg filled, if_pos (includes_dash.mpr dash), pieces]
      simp [(parseInteger_iff usual).mpr readM, (parseInteger_iff usual).mpr readN, ordered]

theorem range_ordered (usual : Usual spec)
    (loose : LooseRange letters spec stepped range first last) : first ≤ last := by
  cases loose with
  | every => exact usual.ordered
  | single filled dashless literal =>
    split
    · exact literal.2.2
    · exact le_refl _
  | span _ _ _ ordered => exact ordered

theorem range_loose (usual : Usual spec)
    (strict : RangeText spec stepped range first last) : LooseRange letters spec stepped range first last := by
  cases strict with
  | every star => exact .every (Or.inl star)
  | single literal =>
    obtain ⟨filled, dashless⟩ := literal_filled usual literal
    exact .single filled dashless (literal_loose usual literal)
  | span pieces readM readN ordered =>
    exact .span pieces (literal_loose usual readM) (literal_loose usual readN) ordered

theorem range_plain (usual : Usual spec)
    (strict : RangeText spec stepped range first last) : plainRange spec range = true := by
  cases strict with
  | every star => simp [plainRange, star]
  | single literal =>
    simp [plainRange, split_of_not_mem (literal_filled usual literal).2, literal_plain literal]
  | span pieces readM readN => simp [plainRange, pieces, literal_plain readM, literal_plain readN]

theorem loose_range (usual : Usual spec)
    (loose : LooseRange letters spec stepped range first last) (plain : plainRange spec range = true) :
    RangeText spec stepped range first last := by
  have empty : plainRange spec "" = false := by
    have nameless : ∀ entry ∈ spec.aliases, ([] : List Char) ≠ entry.1.toList :=
      fun entry listed same => (usual.listed entry listed).2.2.1 same.symm
    have some_ : plainLiteral spec "" = false := by
      simp only [plainLiteral, plainDecimal, String.toList_empty, map_nil, Bool.or_eq_false_iff,
        any_eq_false, decide_eq_true_eq]
      exact ⟨rfl, nameless⟩
    simp [plainRange, split_of_not_mem, some_]
  cases loose with
  | every text =>
    rcases text with star | rfl
    · exact .every star
    · rw [empty] at plain
      cases plain
  | single filled dashless literal =>
    refine .single (loose_literal usual literal ?_)
    simpa [plainRange, split_of_not_mem dashless, (not_or.mp filled).1] using plain
  | @span a b more m n pieces readM readN ordered =>
    have dash := mem_of_split pieces
    have star : range ≠ "*" := by
      rintro rfl
      revert dash
      decide
    simp only [plainRange, star, pieces, decide_false, Bool.false_or] at plain
    cases more with
    | nil =>
      obtain ⟨plainA, plainB⟩ := Bool.and_eq_true_iff.mp plain
      exact .span pieces (loose_literal usual readM plainA) (loose_literal usual readN plainB) ordered
    | cons => cases plain

/-! ## Parts -/

theorem mem_steps {first last step v : ℕ} (positive : 0 < step) (ordered : first ≤ last) :
    v ∈ List.range' first ((last - first) / step + 1) step ↔ (∃ k, v = first + k * step) ∧ v ≤ last := by
  rw [mem_range']
  constructor
  · rintro ⟨k, small, rfl⟩
    have within : k * step ≤ last - first :=
      (Nat.mul_le_mul_right step (Nat.lt_succ_iff.mp small)).trans (Nat.div_mul_le_self _ _)
    exact ⟨⟨k, by rw [Nat.mul_comm]⟩, by rw [Nat.mul_comm]; omega⟩
  · rintro ⟨⟨k, rfl⟩, inside⟩
    refine ⟨k, ?_, by rw [Nat.mul_comm]⟩
    rw [Nat.lt_succ_iff, Nat.le_div_iff_mul_le positive]
    omega

theorem parseStep_iff {stepText : Option String} {step : ℕ} :
    parseStep stepText = some step ↔ LooseStep stepText step := by
  cases stepText with
  | none => simp [parseStep, LooseStep, eq_comm]
  | some text => simp [parseStep, LooseStep, Option.filter_eq_some_iff]

variable {part : String}

variable {values : List ℕ}

theorem parseFieldPart_iff (usual : Usual spec) :
    parseFieldPart letters part spec = some values ↔ LoosePart letters spec part values := by
  obtain ⟨range, more, pieces⟩ := split_pieces part '/'
  simp only [parseFieldPart, pieces, Option.bind_eq_bind, Option.bind_eq_some_iff, Option.pure_def,
    Option.some.injEq, Prod.exists]
  constructor
  · rintro ⟨step, readStep, first, last, readRange, rfl⟩
    exact .reads pieces (parseStep_iff.mp readStep) ((parseRange_iff usual).mp readRange)
  · intro loose
    cases loose with
    | reads pieces' number read =>
      rw [pieces] at pieces'
      cases pieces'
      exact ⟨_, parseStep_iff.mpr number, _, _, (parseRange_iff usual).mpr read, rfl⟩

theorem looseStep_positive {stepText : Option String} {step : ℕ} (number : LooseStep stepText step) : 0 < step := by
  cases stepText with
  | none =>
    rw [LooseStep] at number
    omega
  | some text => exact number.2

theorem loosePart_nonempty (loose : LoosePart letters spec part values) :
    values ≠ [] := by
  cases loose
  simp [List.range'_eq_nil_iff]

theorem step_index {stepText : String} {n m : ℕ} (decimal : Decimal stepText n)
    (index : (ofText stepText).index = some m) : n < 2 ^ 1024 - 2 ^ 970 ∧ (m = n ∨ 60 ≤ n ∧ 60 ≤ m) := by
  rw [ofText_decimal decimal.1 decimal.2] at index
  obtain ⟨small, large⟩ := index_ofExact index
  refine ⟨index_ofExact_isSome.mp (by rw [index]; rfl), ?_⟩
  rcases Nat.lt_or_ge n (2 ^ 53) with below | above
  · exact Or.inl (small below)
  · have := large above
    right
    omega

theorem same_values {first last m n : ℕ} (short : last ≤ first + 59) (same : m = n ∨ 60 ≤ n ∧ 60 ≤ m) (v : ℕ) :
    (∃ k, v = first + k * m) ∧ v ≤ last ↔ (∃ k, v = first + k * n) ∧ v ≤ last := by
  have once : ∀ {a b : ℕ}, 60 ≤ a → (∃ k, v = first + k * a) ∧ v ≤ last → (∃ k, v = first + k * b) ∧ v ≤ last := by
    rintro a b large ⟨⟨k, rfl⟩, inside⟩
    refine ⟨⟨0, ?_⟩, inside⟩
    cases k with
    | zero => simp
    | succ k =>
      have : a ≤ (k + 1) * a := Nat.le_mul_of_pos_left a (Nat.succ_pos k)
      omega
  rcases same with rfl | ⟨largeN, largeM⟩
  · exact Iff.rfl
  · exact ⟨once largeM, once largeN⟩

theorem range_last
    (loose : LooseRange letters spec stepped range first last) : last ≤ spec.max := by
  cases loose with
  | every => exact le_refl _
  | single filled dashless literal =>
    split
    · exact le_refl _
    · exact literal.2.2
  | span _ _ readN => exact readN.2.2

theorem split_alone {text piece : String} (pieces : split text separator = [piece]) :
    piece = text := by
  have whole : [separator].intercalate (text.toList.splitOn separator) = text.toList :=
    intercalate_splitOn separator
  obtain ⟨units, same, rfl⟩ := map_eq_singleton_iff.mp pieces
  rw [same, intercalate_singleton] at whole
  rw [whole, String.ofList_toList]

variable {set : Set ℕ}

theorem partText_plain (usual : Usual spec) (strict : PartText spec part set) :
    plainPart spec part = true := by
  cases strict with
  | plain pieces range => simp [plainPart, pieces, range_plain usual range]
  | @stepped range stepText first last step pieces read number =>
    simp [plainPart, pieces, range_plain usual read, plainDecimal_iff.mpr ⟨step, number⟩]

variable (letters) in
theorem partText_loose (usual : Usual spec) (strict : PartText spec part set)
    (fits : partFits part) : ∃ values, LoosePart letters spec part values ∧ ∀ v, v ∈ values ↔ v ∈ set := by
  cases strict with
  | @plain first last pieces range =>
    have loose : LooseRange letters spec false part first last := range_loose usual range
    refine ⟨_, .reads pieces rfl loose, fun v => ?_⟩
    rw [mem_steps (Nat.succ_pos 0) (range_ordered usual loose), Set.mem_ofPred_eq]
    refine and_congr_left fun _ => ⟨?_, fun le => ⟨v - first, by omega⟩⟩
    rintro ⟨k, rfl⟩
    omega
  | @stepped range stepText first last step pieces read number positive =>
    have loose : LooseRange letters spec true range first last := range_loose usual read
    have index : (ofText stepText).index.isSome = true := by
      rw [ofText_decimal number.1 number.2]
      exact index_ofExact_isSome.mpr (fits range stepText step pieces number)
    obtain ⟨m, index⟩ := Option.isSome_iff_exists.mp index
    obtain ⟨-, same⟩ := step_index number index
    have positive' : 0 < m := by omega
    have reads : LoosePart letters spec part (List.range' first ((last - first) / m + 1) m) :=
      .reads pieces ⟨index, positive'⟩ loose
    refine ⟨_, reads, fun v => ?_⟩
    have short : last ≤ first + 59 := by
      have := range_last loose
      have := usual.small
      omega
    rw [mem_steps positive' (range_ordered usual loose)]
    exact same_values short same v

theorem loosePart_text (usual : Usual spec)
    (loose : LoosePart letters spec part values) (plain : plainPart spec part = true) :
    partFits part ∧ ∃ set, PartText spec part set := by
  cases loose with
  | @reads range more first last step pieces number read =>
    match more with
    | [] =>
      obtain rfl := split_alone pieces
      simp only [plainPart, pieces] at plain
      refine ⟨fun range' stepText n pieces' => ?_, _, .plain pieces (loose_range usual read plain)⟩
      rw [pieces] at pieces'
      cases pieces'
    | [stepText] =>
      simp only [plainPart, pieces, Bool.and_eq_true] at plain
      obtain ⟨plainRange_, digits⟩ := plain
      obtain ⟨n, decimal⟩ := plainDecimal_iff.mp digits
      obtain ⟨-, same⟩ := step_index decimal number.1
      refine ⟨fun range' stepText' n' pieces' decimal' => ?_, _,
        .stepped pieces (loose_range usual read plainRange_) decimal ?_⟩
      · rw [pieces] at pieces'
        cases pieces'
        exact (step_index decimal' number.1).1
      · have := number.2
        omega
    | _ :: _ :: _ => simp [plainPart, pieces] at plain

/-! ## Fields -/

theorem range_filled (usual : Usual spec)
    (strict : RangeText spec stepped range first last) : range ≠ "" := by
  cases strict with
  | every star =>
    rw [star]
    decide
  | single literal =>
    rintro rfl
    exact (literal_chars usual literal).1 rfl
  | span pieces =>
    have dash := mem_of_split pieces
    rintro rfl
    revert dash
    decide

theorem plainPart_empty (usual : Usual spec) : plainPart spec "" = false := by
  by_contra plain
  rw [Bool.not_eq_false] at plain
  have pieces : split "" '/' = [""] := split_of_not_mem (by decide)
  simp only [plainPart, pieces] at plain
  have loose : LooseRange (.ascii : JsString.LetterCase) spec false "" spec.min spec.max := .every (Or.inr rfl)
  exact range_filled usual (loose_range usual loose plain) rfl

variable {field : String}

theorem parseField_iff (usual : Usual spec)
    (solid : ∀ c ∈ field.toList, isWhiteSpace c = false) {out : List ℕ} :
    parseField letters field spec = some out ↔ LooseField letters spec field out := by
  have filled : ∀ {items : List String} {lists : List (List ℕ)}, List.Forall₂ (LoosePart letters spec) items lists →
      (lists.flatten = [] ↔ items = []) := by
    intro items lists pairs
    cases pairs with
    | nil => simp
    | cons first _ => simp [loosePart_nonempty first]
  have reads : ∀ {items : List String} {lists : List (List ℕ)},
      items.mapM (fun part => parseFieldPart letters part spec) = some lists ↔
        List.Forall₂ (LoosePart letters spec) items lists := by
    intro items lists
    rw [mapM_eq_some]
    exact ⟨fun pairs => pairs.imp fun _ _ => (parseFieldPart_iff usual).mp,
      fun pairs => pairs.imp fun _ _ => (parseFieldPart_iff usual).mpr⟩
  simp only [parseField, trim_split solid, LooseField, Option.bind_eq_bind, Option.bind_eq_some_iff]
  constructor
  · rintro ⟨lists, read, kept⟩
    obtain ⟨nonempty, same⟩ := Option.ite_none_left_eq_some.mp kept
    have pairs := reads.mp read
    exact ⟨fun empty => nonempty ((filled pairs).mpr empty), lists, pairs, (Option.some.inj same).symm⟩
  · rintro ⟨nonempty, lists, pairs, rfl⟩
    exact ⟨lists, reads.mpr pairs, if_neg fun empty => nonempty ((filled pairs).mp empty)⟩

theorem looseField_le (usual : Usual spec) {out : List ℕ} (loose : LooseField letters spec field out)
    {v : ℕ} (member : v ∈ out) : v ≤ spec.max := by
  obtain ⟨-, lists, pairs, rfl⟩ := loose
  obtain ⟨values, listed, inside⟩ := mem_flatten.mp member
  obtain ⟨part, -, read⟩ := exists_left pairs listed
  cases read with
  | reads pieces number range =>
    rw [mem_steps (looseStep_positive number) (range_ordered usual range)] at inside
    exact inside.2.trans (range_last range)

theorem exists_values {α β : Type} {R : α → β → Prop} {items : List α} (each : ∀ item ∈ items, ∃ value, R item value) :
    ∃ values, List.Forall₂ R items values := by
  induction items with
  | nil => exact ⟨[], .nil⟩
  | cons item rest ih =>
    obtain ⟨value, here⟩ := each item mem_cons_self
    obtain ⟨values, later⟩ := ih fun other member => each other (mem_cons_of_mem _ member)
    exact ⟨value :: values, .cons here later⟩

theorem fieldText_plain (usual : Usual spec) (strict : FieldText spec field set) :
    (split field ',').all (plainPart spec) = true := by
  obtain ⟨sets, pairs, -⟩ := strict
  rw [all_eq_true]
  intro part member
  obtain ⟨set, -, text⟩ := exists_right pairs member
  exact partText_plain usual text

variable (letters) in
theorem fieldText_loose (usual : Usual spec) (strict : FieldText spec field set)
    (fits : ∀ part ∈ split field ',', partFits part) :
    ∃ out, LooseField letters spec field out ∧ ∀ v, v ∈ out ↔ v ∈ set := by
  have plain := all_eq_true.mp (fieldText_plain usual strict)
  obtain ⟨sets, pairs, rfl⟩ := strict
  have whole : (split field ',').filter (· ≠ "") = split field ',' := by
    rw [filter_eq_self]
    intro part member
    have := plain part member
    rw [decide_eq_true_eq]
    rintro rfl
    rw [plainPart_empty usual] at this
    cases this
  have lists : ∀ {items : List String} {sets : List (Set ℕ)}, List.Forall₂ (PartText spec) items sets →
      (∀ part ∈ items, partFits part) → ∃ lists, List.Forall₂ (LoosePart letters spec) items lists ∧
        ∀ v, v ∈ lists.flatten ↔ ∃ set ∈ sets, v ∈ set := by
    intro items sets pairs fits
    induction pairs with
    | nil => exact ⟨[], .nil, by simp⟩
    | cons text _ ih =>
      obtain ⟨values, read, same⟩ := partText_loose letters usual text (fits _ mem_cons_self)
      obtain ⟨lists, later, rest⟩ := ih fun part member => fits part (mem_cons_of_mem _ member)
      refine ⟨values :: lists, .cons read later, fun v => ?_⟩
      simp [same, rest]
  obtain ⟨values, read, same⟩ := lists pairs fits
  obtain ⟨first, more, pieces⟩ := split_pieces field ','
  refine ⟨values.flatten, ⟨?_, values, by rwa [whole], rfl⟩, same⟩
  rw [whole, pieces]
  exact cons_ne_nil _ _

theorem looseField_text (usual : Usual spec) {out : List ℕ}
    (loose : LooseField letters spec field out) (plain : (split field ',').all (plainPart spec) = true) :
    (∀ part ∈ split field ',', partFits part) ∧ ∃ set, FieldText spec field set := by
  rw [all_eq_true] at plain
  obtain ⟨-, lists, pairs, -⟩ := loose
  have each : ∀ part ∈ split field ',', partFits part ∧ ∃ set, PartText spec part set := by
    intro part member
    have filled : part ≠ "" := by
      rintro rfl
      have := plain "" member
      rw [plainPart_empty usual] at this
      cases this
    obtain ⟨values, -, read⟩ := exists_right pairs (mem_filter.mpr ⟨member, by simpa using filled⟩)
    exact loosePart_text usual read (plain part member)
  obtain ⟨sets, texts⟩ := exists_values fun part member => (each part member).2
  exact ⟨fun part member => (each part member).1, _, sets, texts, rfl⟩

end

/-! ## Expressions -/

section

variable {letters : JsString.LetterCase} {cron : String}

theorem usual_minute : Usual minuteSpec := cronSpecs_usual _ (by simp [cronSpecs])
theorem usual_hour : Usual hourSpec := cronSpecs_usual _ (by simp [cronSpecs])
theorem usual_dom : Usual domSpec := cronSpecs_usual _ (by simp [cronSpecs])
theorem usual_month : Usual monthSpec := cronSpecs_usual _ (by simp [cronSpecs])
theorem usual_dow : Usual dowSpec := cronSpecs_usual _ (by simp [cronSpecs])

theorem parseCron_fields {minute hour dom month dow : String}
    (five : splitSpaces (trim cron) = [minute, hour, dom, month, dow]) {parsed : ParsedCron} :
    parseCron letters cron = some parsed ↔ ∃ minutes hours days months weekdays,
      LooseField letters minuteSpec minute minutes ∧ LooseField letters hourSpec hour hours ∧
      LooseField letters domSpec dom days ∧ LooseField letters monthSpec month months ∧
      LooseField letters dowSpec dow weekdays ∧
      parsed = ⟨minutes, hours, days, months,
        if 7 ∈ weekdays then weekdays.filter (· ≠ 7) ++ [0] else weekdays, dom ≠ "*", dow ≠ "*"⟩ := by
  have solid : ∀ field ∈ [minute, hour, dom, month, dow], ∀ c ∈ field.toList, isWhiteSpace c = false := by
    rw [← five]
    exact fun field member => splitSpaces_solid member
  simp only [mem_cons, not_mem_nil, or_false, forall_eq_or_imp, forall_eq] at solid
  obtain ⟨solidMinute, solidHour, solidDom, solidMonth, solidDow⟩ := solid
  simp only [parseCron, five, Option.bind_eq_bind, Option.bind_eq_some_iff, Option.pure_def, Option.some.injEq,
    parseField_iff usual_minute solidMinute, parseField_iff usual_hour solidHour, parseField_iff usual_dom solidDom,
    parseField_iff usual_month solidMonth, parseField_iff usual_dow solidDow]
  constructor
  · rintro ⟨minutes, minuteRead, hours, hourRead, days, domRead, months, monthRead, weekdays, dowRead, same⟩
    exact ⟨minutes, hours, days, months, weekdays, minuteRead, hourRead, domRead, monthRead, dowRead, same.symm⟩
  · rintro ⟨minutes, hours, days, months, weekdays, minuteRead, hourRead, domRead, monthRead, dowRead, same⟩
    exact ⟨minutes, minuteRead, hours, hourRead, days, domRead, months, monthRead, weekdays, dowRead, same.symm⟩

theorem parseCron_isSome : (parseCron letters cron).isSome = true ↔ Loose letters cron := by
  constructor
  · intro accepted
    obtain ⟨parsed, read⟩ := Option.isSome_iff_exists.mp accepted
    have shape := read
    unfold parseCron at shape
    split at shape
    · next minute hour dom month dow five =>
      obtain ⟨minutes, hours, days, months, weekdays, minuteRead, hourRead, domRead, monthRead, dowRead, -⟩ :=
        (parseCron_fields five).mp read
      rw [Loose, five]
      exact .cons ⟨_, minuteRead⟩ (.cons ⟨_, hourRead⟩ (.cons ⟨_, domRead⟩ (.cons ⟨_, monthRead⟩
        (.cons ⟨_, dowRead⟩ .nil))))
    · cases shape
  · intro loose
    unfold Loose cronSpecs at loose
    generalize five : splitSpaces (trim cron) = fields at loose
    obtain _ | ⟨⟨minutes, minuteRead⟩, loose⟩ := loose
    obtain _ | ⟨⟨hours, hourRead⟩, loose⟩ := loose
    obtain _ | ⟨⟨days, domRead⟩, loose⟩ := loose
    obtain _ | ⟨⟨months, monthRead⟩, loose⟩ := loose
    obtain _ | ⟨⟨weekdays, dowRead⟩, ⟨⟩⟩ := loose
    exact Option.isSome_iff_exists.mpr ⟨_, (parseCron_fields five).mpr
      ⟨_, _, _, _, _, minuteRead, hourRead, domRead, monthRead, dowRead, rfl⟩⟩

theorem mem_weekdays {weekdays : List ℕ} (small : ∀ w ∈ weekdays, w ≤ 7) (v : ℕ) :
    v ∈ (if 7 ∈ weekdays then weekdays.filter (· ≠ 7) ++ [0] else weekdays) ↔ ∃ w ∈ weekdays, v = w % 7 := by
  split
  · next seven =>
    simp only [mem_append, mem_filter, mem_singleton, decide_eq_true_eq]
    constructor
    · rintro (⟨member, apart⟩ | rfl)
      · have := small v member
        exact ⟨v, member, by omega⟩
      · exact ⟨7, seven, rfl⟩
    · rintro ⟨w, member, rfl⟩
      have := small w member
      by_cases sunday : w = 7
      · exact Or.inr (by omega)
      · have same : w % 7 = w := by omega
        rw [same]
        exact Or.inl ⟨member, sunday⟩
  · next absent =>
    constructor
    · intro member
      have := small v member
      have apart : v ≠ 7 := by
        rintro rfl
        exact absent member
      exact ⟨v, member, by omega⟩
    · rintro ⟨w, member, rfl⟩
      have := small w member
      have apart : w ≠ 7 := by
        rintro rfl
        exact absent member
      have same : w % 7 = w := by omega
      rwa [same]

variable {meaning : CronMeaning}

theorem matchesParsed_eq {parsed : ParsedCron}
    (minute : ∀ v, v ∈ parsed.minute ↔ v ∈ meaning.minute) (hour : ∀ v, v ∈ parsed.hour ↔ v ∈ meaning.hour)
    (dayOfMonth : ∀ v, v ∈ parsed.dayOfMonth ↔ v ∈ meaning.dayOfMonth)
    (month : ∀ v, v ∈ parsed.month ↔ v ∈ meaning.month)
    (dayOfWeek : ∀ v, v ∈ parsed.dayOfWeek ↔ v ∈ meaning.dayOfWeek)
    (dom : parsed.domRestricted = true ↔ meaning.domRestricted)
    (dow : parsed.dowRestricted = true ↔ meaning.dowRestricted) (ms : ℤ) :
    matchesParsed parsed ms = true ↔ meaning.Matches ms := by
  unfold matchesParsed CronMeaning.Matches
  dsimp only
  simp only [← minute, ← hour, ← dayOfMonth, ← month, ← dayOfWeek, ← dom, ← dow, contains_eq_mem,
    Bool.not_eq_true', decide_eq_false_iff_not]
  by_cases minutes : (ms / 60000 % 60).toNat ∈ parsed.minute
  · by_cases hours : (ms / 3600000 % 24).toNat ∈ parsed.hour
    · by_cases months : (dateOf (ms / 86400000)).month ∈ parsed.month
      · cases parsed.domRestricted <;> cases parsed.dowRestricted <;> simp [minutes, hours, months]
      · simp [minutes, hours, months]
    · simp [minutes, hours]
  · simp [minutes]

theorem written_plain (written : Written cron meaning) : plainCron cron = true := by
  cases written with
  | fields five minuteText hourText domText monthText dowText =>
    simp only [plainCron, five, cronSpecs, zip_cons_cons, zip_nil_right, all_cons, all_nil,
      fieldText_plain usual_minute minuteText, fieldText_plain usual_hour hourText,
      fieldText_plain usual_dom domText, fieldText_plain usual_month monthText,
      fieldText_plain usual_dow dowText, Bool.and_true]

variable (letters) in
theorem written_reads (written : Written cron meaning) (fits : StepsFit cron) :
    ∃ parsed, parseCron letters cron = some parsed ∧
      (∀ v, v ∈ parsed.minute ↔ v ∈ meaning.minute) ∧ (∀ v, v ∈ parsed.hour ↔ v ∈ meaning.hour) ∧
      (∀ v, v ∈ parsed.dayOfMonth ↔ v ∈ meaning.dayOfMonth) ∧ (∀ v, v ∈ parsed.month ↔ v ∈ meaning.month) ∧
      (∀ v, v ∈ parsed.dayOfWeek ↔ v ∈ meaning.dayOfWeek) ∧
      ∀ ms, matchesParsed parsed ms = true ↔ meaning.Matches ms := by
  cases written with
  | @fields _ _ _ _ _ _ _ _ _ named five minuteText hourText domText monthText dowText =>
    simp only [StepsFit, five, mem_cons, not_mem_nil, or_false, forall_eq_or_imp, forall_eq] at fits
    obtain ⟨minuteFits, hourFits, domFits, monthFits, dowFits⟩ := fits
    obtain ⟨minutes, minuteRead, minuteSame⟩ := fieldText_loose letters usual_minute minuteText minuteFits
    obtain ⟨hours, hourRead, hourSame⟩ := fieldText_loose letters usual_hour hourText hourFits
    obtain ⟨days, domRead, domSame⟩ := fieldText_loose letters usual_dom domText domFits
    obtain ⟨months, monthRead, monthSame⟩ := fieldText_loose letters usual_month monthText monthFits
    obtain ⟨weekdays, dowRead, dowSame⟩ := fieldText_loose letters usual_dow dowText dowFits
    have small : ∀ w ∈ weekdays, w ≤ 7 := fun w member => looseField_le usual_dow dowRead member
    have weekday : ∀ v, v ∈ (if 7 ∈ weekdays then weekdays.filter (· ≠ 7) ++ [0] else weekdays) ↔
        v ∈ {v | ∃ w ∈ named, v = w % 7} := by
      intro v
      rw [mem_weekdays small, Set.mem_ofPred_eq]
      exact exists_congr fun w => and_congr_left fun _ => dowSame w
    refine ⟨_, (parseCron_fields five).mpr
      ⟨minutes, hours, days, months, weekdays, minuteRead, hourRead, domRead, monthRead, dowRead, rfl⟩,
      minuteSame, hourSame, domSame, monthSame, weekday, fun ms => ?_⟩
    exact matchesParsed_eq minuteSame hourSame domSame monthSame weekday (by simp) (by simp) ms

theorem loose_written (loose : Loose letters cron) (plain : plainCron cron = true) :
    (∃ meaning, Written cron meaning) ∧ StepsFit cron := by
  unfold Loose cronSpecs at loose
  unfold plainCron cronSpecs at plain
  generalize five : splitSpaces (trim cron) = fields at loose plain
  obtain _ | ⟨⟨minutes, minuteRead⟩, loose⟩ := loose
  obtain _ | ⟨⟨hours, hourRead⟩, loose⟩ := loose
  obtain _ | ⟨⟨days, domRead⟩, loose⟩ := loose
  obtain _ | ⟨⟨months, monthRead⟩, loose⟩ := loose
  obtain _ | ⟨⟨weekdays, dowRead⟩, ⟨⟩⟩ := loose
  simp only [zip_cons_cons, zip_nil_right, all_cons, all_nil, Bool.and_true,
    Bool.and_eq_true] at plain
  obtain ⟨minutePlain, hourPlain, domPlain, monthPlain, dowPlain⟩ := plain
  obtain ⟨minuteFits, _, minuteText⟩ := looseField_text usual_minute minuteRead minutePlain
  obtain ⟨hourFits, _, hourText⟩ := looseField_text usual_hour hourRead hourPlain
  obtain ⟨domFits, _, domText⟩ := looseField_text usual_dom domRead domPlain
  obtain ⟨monthFits, _, monthText⟩ := looseField_text usual_month monthRead monthPlain
  obtain ⟨dowFits, _, dowText⟩ := looseField_text usual_dow dowRead dowPlain
  refine ⟨⟨_, .fields five minuteText hourText domText monthText dowText⟩, ?_⟩
  simp only [StepsFit, five, mem_cons, not_mem_nil, or_false, forall_eq_or_imp, forall_eq]
  exact ⟨minuteFits, hourFits, domFits, monthFits, dowFits⟩

end

end EverWorks.Schedule
