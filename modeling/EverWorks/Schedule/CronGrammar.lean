import EverWorks.Schedule.TwoParsers

/-!
What an expression may be and the values it names, beside what splitting and `Number` make of a text. A text that
reads as an expression without being one, and the one kind of expression that does not read, are the slips.
-/

namespace EverWorks.Schedule
open Lib Lib.Calendar List JsString JsNumber

def matchesCron (letters : JsString.LetterCase) (cron : String) (ms : ℤ) : Option Bool :=
  (parseCron letters cron).map (matchesParsed · ms)

def Decimal (token : String) (n : ℕ) : Prop :=
  token.toList ≠ [] ∧ ofDigits 10 token.toList = some n

/-- A value of a field: an unsigned decimal in its range, or a name in any case. -/
inductive Literal (spec : FieldSpec) (token : String) (n : ℕ) : Prop
  | decimal (read : Decimal token n) (low : spec.min ≤ n) (high : n ≤ spec.max)
  | name (key : String) (listed : (key, n) ∈ spec.aliases) (spelled : token.toList.map Char.toUpper = key.toList)

/-- `*`, `a` or `a-b`, with the first and the last value; a single value before a step stands for all from it on. -/
inductive RangeText (spec : FieldSpec) (stepped : Bool) (range : String) : ℕ → ℕ → Prop
  | every (star : range = "*") : RangeText spec stepped range spec.min spec.max
  | single {n : ℕ} (literal : Literal spec range n) :
      RangeText spec stepped range n (if stepped then spec.max else n)
  | span {a b : String} {m n : ℕ} (pieces : split range '-' = [a, b]) (first : Literal spec a m)
      (last : Literal spec b n) (ordered : m ≤ n) : RangeText spec stepped range m n

inductive PartText (spec : FieldSpec) (part : String) : Set ℕ → Prop
  | plain {first last : ℕ} (pieces : split part '/' = [part])
      (range : RangeText spec false part first last) : PartText spec part {v | first ≤ v ∧ v ≤ last}
  | stepped {range stepText : String} {first last step : ℕ} (pieces : split part '/' = [range, stepText])
      (read : RangeText spec true range first last) (number : Decimal stepText step) (positive : 0 < step) :
      PartText spec part {v | (∃ k, v = first + k * step) ∧ v ≤ last}

def FieldText (spec : FieldSpec) (field : String) (values : Set ℕ) : Prop :=
  ∃ sets, List.Forall₂ (PartText spec) (split field ',') sets ∧ values = {v | ∃ set ∈ sets, v ∈ set}

structure CronMeaning where
  minute : Set ℕ
  hour : Set ℕ
  dayOfMonth : Set ℕ
  month : Set ℕ
  dayOfWeek : Set ℕ
  domRestricted : Prop
  dowRestricted : Prop

/-- Five fields between blanks; weekday 7 is weekday 0. -/
inductive Written (cron : String) : CronMeaning → Prop
  | fields {minute hour dom month dow : String} {minutes hours days months weekdays : Set ℕ}
      (five : splitSpaces (trim cron) = [minute, hour, dom, month, dow])
      (minuteText : FieldText minuteSpec minute minutes) (hourText : FieldText hourSpec hour hours)
      (domText : FieldText domSpec dom days) (monthText : FieldText monthSpec month months)
      (dowText : FieldText dowSpec dow weekdays) :
      Written cron ⟨minutes, hours, days, months, {v | ∃ w ∈ weekdays, v = w % 7}, dom ≠ "*", dow ≠ "*"⟩

/-- The documented rule: either day field suffices where both are restricted. -/
def CronMeaning.Matches (meaning : CronMeaning) (ms : ℤ) : Prop :=
  (ms / 60000 % 60).toNat ∈ meaning.minute ∧ (ms / 3600000 % 24).toNat ∈ meaning.hour ∧
    (dateOf (ms / 86400000)).month ∈ meaning.month ∧
    (meaning.domRestricted ∧ meaning.dowRestricted →
      (dateOf (ms / 86400000)).day ∈ meaning.dayOfMonth ∨ weekdayOf (ms / 86400000) ∈ meaning.dayOfWeek) ∧
    (¬(meaning.domRestricted ∧ meaning.dowRestricted) →
      (dateOf (ms / 86400000)).day ∈ meaning.dayOfMonth ∧ weekdayOf (ms / 86400000) ∈ meaning.dayOfWeek)

/-- The parser accepts the text exactly if it is an expression, and reads the values the expression names. -/
def GrammarExact (letters : JsString.LetterCase) (cron : String) : Prop :=
  ((parseCron letters cron).isSome = true ↔ ∃ meaning, Written cron meaning) ∧
  ∀ meaning parsed, Written cron meaning → parseCron letters cron = some parsed →
    (∀ v, v ∈ parsed.minute ↔ v ∈ meaning.minute) ∧ (∀ v, v ∈ parsed.hour ↔ v ∈ meaning.hour) ∧
    (∀ v, v ∈ parsed.dayOfMonth ↔ v ∈ meaning.dayOfMonth) ∧ (∀ v, v ∈ parsed.month ↔ v ∈ meaning.month) ∧
    (∀ v, v ∈ parsed.dayOfWeek ↔ v ∈ meaning.dayOfWeek) ∧
    ∀ ms, matchesCron letters cron ms = some true ↔ meaning.Matches ms

section

variable (letters : JsString.LetterCase) (spec : FieldSpec)

/-- What the tables of names and `Number` read as a value of the field. -/
def LooseLiteral (token : String) (n : ℕ) : Prop :=
  (spec.aliases.lookup (letters.upper token) = some n ∨
    spec.aliases.lookup (letters.upper token) = none ∧ (ofText token).index = some n) ∧
  spec.min ≤ n ∧ n ≤ spec.max

/-- No range reads as `*`, and what follows a second dash is dropped. -/
inductive LooseRange (stepped : Bool) (range : String) : ℕ → ℕ → Prop
  | every (text : range = "*" ∨ range = "") : LooseRange stepped range spec.min spec.max
  | single {n : ℕ} (filled : ¬(range = "*" ∨ range = "")) (dashless : '-' ∉ range.toList)
      (literal : LooseLiteral letters spec range n) :
      LooseRange stepped range n (if stepped then spec.max else n)
  | span {a b : String} {more : List String} {m n : ℕ} (pieces : split range '-' = a :: b :: more)
      (first : LooseLiteral letters spec a m) (last : LooseLiteral letters spec b n) (ordered : m ≤ n) :
      LooseRange stepped range m n

/-- A step of whatever `Number` reads as a positive whole number. -/
def LooseStep : Option String → ℕ → Prop
  | none, step => step = 1
  | some text, step => (ofText text).index = some step ∧ 1 ≤ step

inductive LoosePart (part : String) : List ℕ → Prop
  | reads {range : String} {more : List String} {first last step : ℕ}
      (pieces : split part '/' = range :: more) (number : LooseStep more.head? step)
      (read : LooseRange letters spec more.head?.isSome range first last) :
      LoosePart part (List.range' first ((last - first) / step + 1) step)

def LooseField (field : String) (out : List ℕ) : Prop :=
  (split field ',').filter (· ≠ "") ≠ [] ∧
  ∃ lists, List.Forall₂ (LoosePart letters spec) ((split field ',').filter (· ≠ "")) lists ∧
    out = lists.flatten

end

def cronSpecs : List FieldSpec := [minuteSpec, hourSpec, domSpec, monthSpec, dowSpec]

def Loose (letters : JsString.LetterCase) (cron : String) : Prop :=
  List.Forall₂ (fun field spec => ∃ out, LooseField letters spec field out)
    (splitSpaces (trim cron)) cronSpecs

section

variable (spec : FieldSpec)

def plainDecimal (token : String) : Bool := token.toList ≠ [] && token.toList.all Char.isDigit

def plainLiteral (token : String) : Bool :=
  plainDecimal token || spec.aliases.any fun entry => token.toList.map Char.toUpper = entry.1.toList

def plainRange (range : String) : Bool :=
  range = "*" || match split range '-' with
    | [a] => plainLiteral spec a
    | [a, b] => plainLiteral spec a && plainLiteral spec b
    | _ => false

def plainPart (part : String) : Bool :=
  match split part '/' with
  | [range] => plainRange spec range
  | [range, stepText] => plainRange spec range && plainDecimal stepText
  | _ => false

end

def plainCron (cron : String) : Bool :=
  ((splitSpaces (trim cron)).zip cronSpecs).all fun pair =>
    (split pair.1 ',').all (plainPart pair.2)

/-- The decimals after a slash are below the least one that `Number` reads as infinite. -/
def partFits (part : String) : Prop :=
  ∀ range stepText n, split part '/' = [range, stepText] → Decimal stepText n → n < 2 ^ 1024 - 2 ^ 970

def StepsFit (cron : String) : Prop :=
  ∀ field ∈ splitSpaces (trim cron), ∀ part ∈ split field ',', partFits part

/-- No text reads that is no expression, and no step of an expression is beyond the numbers. -/
structure SlipFree (letters : JsString.LetterCase) (cron : String) : Prop where
  plain : Loose letters cron → plainCron cron = true
  fits : ∀ meaning, Written cron meaning → StepsFit cron

structure Usual (spec : FieldSpec) : Prop where
  ordered : spec.min ≤ spec.max
  small : spec.max ≤ 59
  listed : ∀ entry ∈ spec.aliases, spec.aliases.lookup entry.1 = some entry.2 ∧
    (spec.min ≤ entry.2 ∧ entry.2 ≤ spec.max ∧ entry.2 ≤ 12) ∧
    entry.1.toList ≠ [] ∧ ∀ c ∈ entry.1.toList, 'A' ≤ c ∧ c ≤ 'Z'

theorem cronSpecs_usual : ∀ spec ∈ cronSpecs, Usual spec := by
  have bounds : ∀ spec ∈ cronSpecs, spec.min ≤ spec.max ∧ spec.max ≤ 59 := by decide
  have table : cronSpecs.all (fun spec => spec.aliases.all fun entry =>
      spec.aliases.lookup entry.1 = some entry.2 ∧ (spec.min ≤ entry.2 ∧ entry.2 ≤ spec.max ∧ entry.2 ≤ 12) ∧
        entry.1.toList ≠ [] ∧ entry.1.toList.all fun c => 'A' ≤ c ∧ c ≤ 'Z') = true := by decide
  simp only [all_eq_true, decide_eq_true_eq] at table
  exact fun spec member => ⟨(bounds spec member).1, (bounds spec member).2, table spec member⟩

section

variable {letters : JsString.LetterCase} {spec : FieldSpec} {token : String} {n : ℕ}

theorem decimal_digits (read : Decimal token n) : ∀ c ∈ token.toList, '0' ≤ c ∧ c ≤ '9' :=
  digits_of_ofDigits read.2

theorem isDigit_of_bounds {c : Char} (bounds : '0' ≤ c ∧ c ≤ '9') : c.isDigit = true := by
  rw [isDigit_iff]
  have low : '0'.toNat ≤ c.toNat := bounds.1
  have high : c.toNat ≤ '9'.toNat := bounds.2
  exact ⟨low, high⟩

theorem plainDecimal_iff : plainDecimal token = true ↔ ∃ n, Decimal token n := by
  simp only [plainDecimal, Bool.and_eq_true, decide_eq_true_eq, all_eq_true]
  constructor
  · rintro ⟨nonempty, digits⟩
    have reads : ∀ (text : List Char) (m : ℕ), (∀ c ∈ text, c.isDigit = true) →
        ∃ n, text.foldlM (fun value c => (digitOf 10 c).map (value * 10 + ·)) m = some n := by
      intro text
      induction text with
      | nil => exact fun m _ => ⟨m, rfl⟩
      | cons c rest ih =>
        intro m all
        rw [foldlM_cons, digitOf_isDigit (all c mem_cons_self)]
        exact ih _ fun d member => all d (mem_cons_of_mem _ member)
    obtain ⟨n, read⟩ := reads token.toList 0 digits
    exact ⟨n, nonempty, read⟩
  · rintro ⟨n, read⟩
    exact ⟨read.1, fun c member => isDigit_of_bounds (decimal_digits read c member)⟩

theorem upper_decimal (read : Decimal token n) : letters.upper token = token := by
  apply String.toList_inj.mp
  have digits := decimal_digits read
  have ascii : ∀ c ∈ token.toList, c.toNat < 128 := by
    intro c member
    have high : c.toNat ≤ '9'.toNat := (digits c member).2
    have : '9'.toNat = 57 := rfl
    omega
  rw [letters.upper_ascii token ascii]
  conv_rhs => rw [← map_id token.toList]
  apply map_congr_left
  intro c member
  have table : ∀ n < 58, (Char.ofNat n).toUpper = Char.ofNat n := by decide
  have high : c.toNat ≤ '9'.toNat := (digits c member).2
  have upper := table c.toNat (Nat.lt_succ_of_le high)
  rwa [Char.ofNat_toNat] at upper

theorem lookup_decimal (usual : Usual spec) (read : Decimal token n) :
    spec.aliases.lookup (letters.upper token) = none := by
  rw [upper_decimal read]
  by_contra found
  obtain ⟨value, found⟩ := Option.ne_none_iff_exists'.mp found
  obtain ⟨c, rest, head⟩ := exists_cons_of_ne_nil read.1
  have member : c ∈ token.toList := head ▸ mem_cons_self
  have letter := (usual.listed _ (lookup_mem found)).2.2.2 c member
  have low : 'A'.toNat ≤ c.toNat := letter.1
  have high : c.toNat ≤ '9'.toNat := (decimal_digits read c member).2
  have : 'A'.toNat = 65 := rfl
  have : '9'.toNat = 57 := rfl
  omega

theorem ascii_of_toUpper {c : Char} (upper : c.toUpper.toNat < 128) : c.toNat < 128 := by
  by_contra wide
  have fixed : c.toUpper = c := by
    refine dif_neg ?_
    intro lower
    have : c.toNat ≤ 'z'.toNat := lower.2
    have : 'z'.toNat = 122 := rfl
    omega
  rw [fixed] at upper
  exact wide upper

theorem lookup_name (usual : Usual spec) {key : String} (listed : (key, n) ∈ spec.aliases)
    (spelled : token.toList.map Char.toUpper = key.toList) :
    spec.aliases.lookup (letters.upper token) = some n := by
  have ascii : ∀ c ∈ token.toList, c.toNat < 128 := by
    intro c member
    refine ascii_of_toUpper ?_
    have inKey : c.toUpper ∈ key.toList := spelled ▸ mem_map_of_mem member
    have high : c.toUpper.toNat ≤ 'Z'.toNat := ((usual.listed _ listed).2.2.2 _ inKey).2
    have : 'Z'.toNat = 90 := rfl
    omega
  have same : letters.upper token = key := by
    apply String.toList_inj.mp
    rw [letters.upper_ascii token ascii, spelled]
  rw [same]
  exact (usual.listed _ listed).1

theorem literal_chars (usual : Usual spec) (literal : Literal spec token n) :
    token.toList ≠ [] ∧ ∀ c ∈ token.toList, 48 ≤ c.toNat := by
  cases literal with
  | decimal read => exact ⟨read.1, fun c member => (decimal_digits read c member).1⟩
  | name key listed spelled =>
    obtain ⟨-, -, nonempty, capitals⟩ := usual.listed _ listed
    refine ⟨?_, fun c member => ?_⟩
    · intro empty
      rw [empty] at spelled
      exact nonempty spelled.symm
    · have inKey : c.toUpper ∈ key.toList := spelled ▸ mem_map_of_mem member
      have low : 'A'.toNat ≤ c.toUpper.toNat := (capitals _ inKey).1
      have table : ∀ n < 128, 65 ≤ (Char.ofNat n).toUpper.toNat → 48 ≤ n := by decide
      have high : c.toUpper.toNat ≤ 'Z'.toNat := (capitals _ inKey).2
      have ascii : c.toNat < 128 := ascii_of_toUpper (lt_of_le_of_lt high (by decide))
      refine table c.toNat ascii ?_
      rwa [Char.ofNat_toNat]

theorem literal_plain (literal : Literal spec token n) : plainLiteral spec token = true := by
  cases literal with
  | decimal read => simp [plainLiteral, plainDecimal_iff.mpr ⟨n, read⟩]
  | name key listed spelled =>
    have some_ : (spec.aliases.any fun entry => token.toList.map Char.toUpper = entry.1.toList) = true :=
      any_eq_true.mpr ⟨(key, n), listed, by simpa using spelled⟩
    simp [plainLiteral, some_]

theorem literal_loose (usual : Usual spec) (literal : Literal spec token n) :
    LooseLiteral letters spec token n := by
  cases literal with
  | decimal read low high =>
    have := usual.small
    refine ⟨Or.inr ⟨lookup_decimal usual read, ?_⟩, low, high⟩
    rw [ofText_digits read.1 read.2 (by omega), index_cast]
  | name key listed spelled =>
    obtain ⟨-, ⟨low, high, -⟩, -⟩ := usual.listed _ listed
    exact ⟨Or.inl (lookup_name usual listed spelled), low, high⟩

theorem loose_literal (usual : Usual spec) (loose : LooseLiteral letters spec token n)
    (plain : plainLiteral spec token = true) : Literal spec token n := by
  have := usual.small
  obtain ⟨read, low, high⟩ := loose
  simp only [plainLiteral, Bool.or_eq_true, any_eq_true, decide_eq_true_eq] at plain
  rcases plain with digits | ⟨⟨key, value⟩, listed, spelled⟩
  · obtain ⟨m, decimal⟩ := plainDecimal_iff.mp digits
    rw [lookup_decimal usual decimal, ofText_decimal decimal.1 decimal.2] at read
    rcases read with impossible | ⟨-, index⟩
    · cases impossible
    · obtain ⟨small, large⟩ := index_ofExact index
      rcases Nat.lt_or_ge m (2 ^ 53) with below | above
      · rw [small below] at low high ⊢
        exact .decimal decimal low high
      · have := large above
        omega
  · rw [lookup_name usual listed spelled] at read
    rcases read with same | ⟨impossible, -⟩
    · obtain rfl := Option.some.inj same
      exact .name key listed spelled
    · cases impossible

theorem parseInteger_iff (usual : Usual spec) :
    parseInteger letters token spec = some n ↔ LooseLiteral letters spec token n := by
  have table : ∀ value ≤ 12, (ofText (toString value)).index = some value := by decide +kernel
  unfold parseInteger resolveAlias LooseLiteral
  cases found : spec.aliases.lookup (letters.upper token) with
  | some value =>
    have small := (usual.listed _ (lookup_mem found)).2.1.2.2
    simp only [table value small]
    simp [Option.filter_eq_some_iff]
  | none =>
    simp [Option.filter_eq_some_iff]

end
end EverWorks.Schedule
