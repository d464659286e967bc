import EverWorks.Schedule.PlatformCron

/-!
A template recurs by an RRULE or by a cron expression. When an occurrence falls due the dispatcher computes the
next one and stores it in place of the one it dispatches; a template without a next occurrence is never due again.
-/

namespace EverWorks.Tasks
open Lib Lib.Calendar Schedule Option List

/-- The `rrule` package: what a rule's text parses to at an instant, and the next occurrence of a parsed rule. -/
structure RRulePackage where
  Rule : Type
  /-- `none` where it throws. A rule without a start begins when it is parsed. -/
  fromString : String → (now : ℤ) → Option Rule
  /-- `rule.after(from, false)` -/
  after : Rule → ℤ → Option ℤ
  occurs : Rule → ℤ → Prop

/-- What the package documents. -/
structure RRulePackage.Documented (package : RRulePackage) : Prop where
  first : ∀ rule from_ next, package.after rule from_ = some next →
    IsLeast {at_ | package.occurs rule at_ ∧ from_ < at_} next
  exhausted : ∀ rule from_, package.after rule from_ = none → ∀ at_, package.occurs rule at_ → at_ ≤ from_
  /-- Whether a text is a rule does not depend on the clock. -/
  steady : ∀ text now later, (package.fromString text now).isSome → (package.fromString text later).isSome

section

variable (letters : JsString.LetterCase) (package : RRulePackage) (now : ℤ)

def validateRecurrenceRule (rule : String) : Bool :=
  rule ≠ "" && JsString.length rule ≤ 200 && (package.fromString rule now).isSome

def validateRecurrenceCron (expr : String) : Bool :=
  expr ≠ "" && JsString.length expr ≤ 120 && (parseCron letters (JsString.trim expr)).isSome

structure NextOccurrenceContext where
  rule : String
  from_ : ℤ
  recurrenceEndsAt : Option ℤ := none
  recurrenceMaxOccurrences : Option ℤ := none
  recurrenceOccurredCount : ℕ := 0

def computeNextOccurrence (ctx : NextOccurrenceContext) : Option ℤ :=
  if ctx.recurrenceMaxOccurrences.any (· ≤ (ctx.recurrenceOccurredCount : ℤ)) then none
  else match package.fromString ctx.rule now with
    | none => none
    | some parsed =>
      match package.after parsed ctx.from_ with
      | none => none
      | some next => if ctx.recurrenceEndsAt.any (· < next) then none else some next

structure TemplateCadenceContext where
  rule : Option String
  cron : Option String
  from_ : ℤ
  recurrenceEndsAt : Option ℤ := none
  recurrenceMaxOccurrences : Option ℤ := none
  recurrenceOccurredCount : ℕ := 0

def computeNextTemplateOccurrence (ctx : TemplateCadenceContext) : Option ℤ :=
  match ctx.rule.filter (· ≠ ""), ctx.cron.filter (· ≠ "") with
  | some rule, _ =>
    computeNextOccurrence package now
      { rule, from_ := ctx.from_, recurrenceEndsAt := ctx.recurrenceEndsAt
        recurrenceMaxOccurrences := ctx.recurrenceMaxOccurrences
        recurrenceOccurredCount := ctx.recurrenceOccurredCount }
  | none, none => none
  | none, some cron =>
    if ctx.recurrenceMaxOccurrences.any (· ≤ (ctx.recurrenceOccurredCount : ℤ)) then none
    else match computeNextCronFire letters (some cron) ctx.from_ with
      | none => none
      | some next => if ctx.recurrenceEndsAt.any (· < next) then none else some next

/-- The recurring columns of a template's row. -/
structure RecurringTemplate where
  isRecurring : Bool := true
  recurrenceRule : Option String := none
  recurrenceCron : Option String := none
  nextOccurrenceAt : Option ℤ := none
  recurrenceEndsAt : Option ℤ := none
  recurrenceMaxOccurrences : Option ℤ := none
  recurrenceOccurredCount : ℕ := 0
  recurrencePausedAt : Option ℤ := none

namespace RecurringTemplate

/-- What the dispatcher computes when the occurrence at `scheduledFor` is due. -/
def nextSlot (template : RecurringTemplate) (scheduledFor : ℤ) : Option ℤ :=
  computeNextTemplateOccurrence letters package now
    { rule := template.recurrenceRule, cron := template.recurrenceCron, from_ := scheduledFor
      recurrenceEndsAt := template.recurrenceEndsAt
      recurrenceMaxOccurrences := template.recurrenceMaxOccurrences
      recurrenceOccurredCount := template.recurrenceOccurredCount + 1 }

/-- The row after the claim, or `none` where the claim is lost. -/
def casClaimRecurrence (row : RecurringTemplate) (expected : ℤ) (newNextOccurrence : Option ℤ) :
    Option RecurringTemplate :=
  if row.isRecurring ∧ row.nextOccurrenceAt = some expected ∧ row.recurrencePausedAt = none then
    some { row with
      nextOccurrenceAt := newNextOccurrence, recurrenceOccurredCount := row.recurrenceOccurredCount + 1 }
  else none

/-- The cadence `setRecurring` lets in: one rule, or one cron expression. -/
inductive Accepted (template : RecurringTemplate) : Prop
  | rule (rule : String) (validated : ℤ) (given : template.recurrenceRule = some rule)
      (valid : validateRecurrenceRule package validated rule = true)
      (alone : template.recurrenceCron.all (· = "") = true)
  | cron (expr : String) (given : template.recurrenceCron = some expr)
      (valid : validateRecurrenceCron letters expr = true)
      (alone : template.recurrenceRule.all (· = "") = true)

/-- What `findDueRecurringTemplates` selects, with the occurrence that fell due. -/
structure Due (template : RecurringTemplate) (scheduledFor : ℤ) : Prop where
  recurring : template.isRecurring = true
  running : template.recurrencePausedAt = none
  next : template.nextOccurrenceAt = some scheduledFor

/-- A cron expression fires at the whole minutes it matches. -/
def CronFires (expr : String) (at_ : ℤ) : Prop :=
  ∃ parsed, parseCron letters expr = some parsed ∧ at_ % 60000 = 0 ∧ matchesParsed parsed at_ = true

def Occurs (template : RecurringTemplate) (at_ : ℤ) : Prop :=
  (∃ rule parsed, template.recurrenceRule = some rule ∧ rule ≠ "" ∧
    package.fromString rule now = some parsed ∧ package.occurs parsed at_) ∨
  (template.recurrenceRule.all (· = "") = true ∧
    ∃ expr, template.recurrenceCron = some expr ∧ expr ≠ "" ∧ CronFires letters expr at_)

/-- An occurrence after the one being dispatched that the caps still allow. -/
structure Remains (template : RecurringTemplate) (scheduledFor at_ : ℤ) : Prop where
  occurs : template.Occurs letters package now at_
  later : scheduledFor < at_
  counted : ∀ most, template.recurrenceMaxOccurrences = some most → (template.recurrenceOccurredCount + 1 : ℕ) < most
  inTime : ∀ end_, template.recurrenceEndsAt = some end_ → at_ ≤ end_

/-- Without a next occurrence, computed or stored by the claim, none remains. -/
def NeverStops (template : RecurringTemplate) (scheduledFor : ℤ) : Prop :=
  (template.nextSlot letters package now scheduledFor = none →
    ∀ at_, ¬template.Remains letters package now scheduledFor at_) ∧
  ∀ claimed, template.casClaimRecurrence scheduledFor (template.nextSlot letters package now scheduledFor) =
    some claimed → claimed.nextOccurrenceAt = none → ∀ at_, ¬template.Remains letters package now scheduledFor at_

/-- The expression fires within 31 days of the minute of an instant. -/
def FiresInLookahead (expr : String) (scheduledFor : ℤ) : Prop :=
  ∃ fire, CronFires letters expr fire ∧ scheduledFor < fire ∧ fire ≤ scheduledFor / 60000 * 60000 + 31 * 86400000

end RecurringTemplate
end

section

variable {letters : JsString.LetterCase} {package : RRulePackage} {now : ℤ}

theorem computeNextCronFire_cases {expr : String} (nonempty : expr ≠ "") {parsed : ParsedCron}
    (read : parseCron letters expr = some parsed) (from_ : ℤ) :
    (∃ next, computeNextCronFire letters (some expr) from_ = some next ∧
      RecurringTemplate.CronFires letters expr next ∧ from_ < next ∧
      next ≤ from_ / 60000 * 60000 + 31 * 86400000 ∧
      ∀ fire, RecurringTemplate.CronFires letters expr fire → from_ < fire → next ≤ fire) ∨
    (computeNextCronFire letters (some expr) from_ = none ∧
      ¬RecurringTemplate.FiresInLookahead letters expr from_) := by
  have fires : ∀ at_, RecurringTemplate.CronFires letters expr at_ ↔
      at_ % 60000 = 0 ∧ matchesParsed parsed at_ = true := by
    intro at_
    constructor
    · rintro ⟨other, here, whole, held⟩
      obtain rfl := some.inj (read.symm.trans here)
      exact ⟨whole, held⟩
    · rintro ⟨whole, held⟩
      exact ⟨parsed, read, whole, held⟩
  have search : computeNextCronFire letters (some expr) from_ =
      ((range maxLookaheadMinutes).find? fun (i : ℕ) =>
        matchesParsed parsed (from_ / 60000 * 60000 + 60000 + i * 60000)).map
          fun (i : ℕ) => from_ / 60000 * 60000 + 60000 + i * 60000 := by
    simp only [computeNextCronFire, bind_eq_bind, bind_some, if_neg nonempty, read]
  rw [search]
  -- A fire after the instant is one of the minutes counted from the next one on.
  have counted : ∀ fire, RecurringTemplate.CronFires letters expr fire → from_ < fire →
      ∃ i : ℕ, fire = from_ / 60000 * 60000 + 60000 + i * 60000 ∧
        matchesParsed parsed (from_ / 60000 * 60000 + 60000 + i * 60000) = true := by
    intro fire here later
    obtain ⟨whole, held⟩ := (fires fire).mp here
    have after : from_ / 60000 + 1 ≤ fire / 60000 := by omega
    have minute : fire = from_ / 60000 * 60000 + 60000 +
        ((fire / 60000 - (from_ / 60000 + 1)).toNat : ℤ) * 60000 := by omega
    exact ⟨_, minute, minute ▸ held⟩
  cases found : (range maxLookaheadMinutes).find? fun (i : ℕ) =>
      matchesParsed parsed (from_ / 60000 * 60000 + 60000 + i * 60000) with
  | some i =>
    left
    obtain ⟨held, within, before⟩ := find?_range_eq_some.mp found
    have small : i < 44640 := mem_range.mp within
    refine ⟨from_ / 60000 * 60000 + 60000 + i * 60000, rfl, (fires _).mpr ⟨by omega, held⟩, by omega, by omega,
      fun fire here later => ?_⟩
    obtain ⟨j, rfl, held'⟩ := counted fire here later
    by_contra earlier
    have missed := before j (by omega)
    rw [held'] at missed
    cases missed
  | none =>
    right
    refine ⟨rfl, ?_⟩
    rintro ⟨fire, here, later, inTime⟩
    obtain ⟨i, rfl, held⟩ := counted fire here later
    have missed := find?_eq_none.mp found i
      (mem_range.mpr (by unfold maxLookaheadMinutes; omega))
    exact missed held

theorem computeNextOccurrence_remains (documented : package.Documented) {rule : String} {parsed : package.Rule}
    (read : package.fromString rule now = some parsed) {ctx : NextOccurrenceContext} (about : ctx.rule = rule)
    {at_ : ℤ} (occurs : package.occurs parsed at_) (later : ctx.from_ < at_)
    (counted : ctx.recurrenceMaxOccurrences.any (· ≤ (ctx.recurrenceOccurredCount : ℤ)) = false)
    (inTime : ctx.recurrenceEndsAt.any (· < at_) = false) : computeNextOccurrence package now ctx ≠ none := by
  unfold computeNextOccurrence
  rw [if_neg (by simp [counted]), about, read]
  cases next : package.after parsed ctx.from_ with
  | none =>
    have := documented.exhausted parsed ctx.from_ next at_ occurs
    omega
  | some first =>
    have least := documented.first parsed ctx.from_ first next
    have before : first ≤ at_ := least.2 ⟨occurs, later⟩
    have allowed : ctx.recurrenceEndsAt.any (· < first) = false := by
      cases ends : ctx.recurrenceEndsAt with
      | none => rfl
      | some end_ =>
        rw [ends] at inTime
        simp only [any_some, decide_eq_false_iff_not] at inTime ⊢
        omega
    simp [next, allowed]

theorem parseCron_trim (expr : String) : parseCron letters (JsString.trim expr) = parseCron letters expr := by
  unfold parseCron
  rw [JsString.trim_trim]

namespace RecurringTemplate

variable {template : RecurringTemplate} {scheduledFor at_ : ℤ}

theorem Remains.below (remains : template.Remains letters package now scheduledFor at_) :
    template.recurrenceMaxOccurrences.any (· ≤ ((template.recurrenceOccurredCount + 1 : ℕ) : ℤ)) = false := by
  cases most : template.recurrenceMaxOccurrences with
  | none => rfl
  | some most_ =>
    have := remains.counted most_ most
    simpa using this

theorem Remains.beforeEnd (remains : template.Remains letters package now scheduledFor at_) {next : ℤ}
    (before : next ≤ at_) : template.recurrenceEndsAt.any (· < next) = false := by
  cases ends : template.recurrenceEndsAt with
  | none => rfl
  | some end_ =>
    have := remains.inTime end_ ends
    simp only [any_some, decide_eq_false_iff_not]
    omega

theorem nextSlot_rule (documented : package.Documented) {rule : String}
    (given : template.recurrenceRule = some rule) (nonempty : rule ≠ "")
    (remains : template.Remains letters package now scheduledFor at_) :
    template.nextSlot letters package now scheduledFor ≠ none := by
  rcases remains.occurs with ⟨rule', parsed, given', -, read, occurs⟩ | ⟨without, -⟩
  · obtain rfl := some.inj (given.symm.trans given')
    have chosen : template.recurrenceRule.filter (· ≠ "") = some rule := by simp [given, nonempty]
    simp only [nextSlot, computeNextTemplateOccurrence, chosen]
    exact computeNextOccurrence_remains documented read rfl occurs remains.later remains.below
      (remains.beforeEnd (le_refl _))
  · rw [given] at without
    simp [nonempty] at without

theorem nextSlot_cron {expr : String} (given : template.recurrenceCron = some expr)
    (valid : validateRecurrenceCron letters expr = true) (alone : template.recurrenceRule.all (· = "") = true)
    (remains : template.Remains letters package now scheduledFor at_) :
    template.nextSlot letters package now scheduledFor ≠ none ↔ FiresInLookahead letters expr scheduledFor := by
  simp only [validateRecurrenceCron, Bool.and_eq_true, decide_eq_true_eq, parseCron_trim] at valid
  obtain ⟨⟨nonempty, -⟩, readable⟩ := valid
  obtain ⟨parsed, read⟩ := isSome_iff_exists.mp readable
  have noRule : template.recurrenceRule.filter (· ≠ "") = none := by
    cases rule : template.recurrenceRule with
    | none => rfl
    | some text =>
      rw [rule] at alone
      simpa using alone
  have chosen : template.recurrenceCron.filter (· ≠ "") = some expr := by simp [given, nonempty]
  have fires : CronFires letters expr at_ := by
    rcases remains.occurs with ⟨rule, -, given', nonempty', -⟩ | ⟨-, other, given', -, fires⟩
    · rw [given'] at alone
      simp [nonempty'] at alone
    · obtain rfl := some.inj (given.symm.trans given')
      exact fires
  have slot : template.nextSlot letters package now scheduledFor =
      match computeNextCronFire letters (some expr) scheduledFor with
      | none => none
      | some next => if template.recurrenceEndsAt.any (· < next) then none else some next := by
    simp only [nextSlot, computeNextTemplateOccurrence, noRule, chosen, remains.below]
    rfl
  rw [slot]
  rcases computeNextCronFire_cases nonempty read scheduledFor with
    ⟨next, found, here, later, inTime, least⟩ | ⟨none_, never⟩
  · have before : next ≤ at_ := least at_ fires remains.later
    exact iff_of_true (by simp [found, remains.beforeEnd before]) ⟨next, here, later, inTime⟩
  · exact iff_of_false (by simp [none_]) never

theorem Due.claims (due : template.Due scheduledFor) (next : Option ℤ) :
    ∃ claimed, template.casClaimRecurrence scheduledFor next = some claimed ∧ claimed.nextOccurrenceAt = next :=
  ⟨_, if_pos ⟨due.recurring, due.next, due.running⟩, rfl⟩

theorem neverStops_iff_slot (due : template.Due scheduledFor) :
    template.NeverStops letters package now scheduledFor ↔
      ∀ at_, template.Remains letters package now scheduledFor at_ →
        template.nextSlot letters package now scheduledFor ≠ none := by
  obtain ⟨claimed, won, stored⟩ := due.claims (template.nextSlot letters package now scheduledFor)
  constructor
  · intro never at_ remains stopped
    exact never.1 stopped at_ remains
  · intro goes
    refine ⟨fun stopped at_ remains => goes at_ remains stopped, fun other won' stopped at_ remains => ?_⟩
    obtain rfl := some.inj (won.symm.trans won')
    exact goes at_ remains (stored.symm.trans stopped)

end RecurringTemplate
end

open RecurringTemplate

/-- A due template never stops silently exactly if, while an occurrence remains, its cron expression fires within
31 days. Templates with a rule never do. -/
theorem template_neverStops_iff (letters : JsString.LetterCase) (package : RRulePackage)
    (documented : package.Documented) (now : ℤ) (template : RecurringTemplate) (scheduledFor : ℤ)
    (accepted : template.Accepted letters package) (due : template.Due scheduledFor) :
    template.NeverStops letters package now scheduledFor ↔
      ∀ expr, template.recurrenceCron = some expr → expr ≠ "" →
        (∃ at_, template.Remains letters package now scheduledFor at_) →
        FiresInLookahead letters expr scheduledFor := by
  rw [neverStops_iff_slot due]
  cases accepted with
  | rule rule validated given valid alone =>
    have nonempty : rule ≠ "" := by
      simp only [validateRecurrenceRule, Bool.and_eq_true, decide_eq_true_eq] at valid
      exact valid.1.1
    refine iff_of_true (fun at_ remains => nextSlot_rule documented given nonempty remains) ?_
    intro expr cron filled
    rw [cron] at alone
    simp [filled] at alone
  | cron expr given valid alone =>
    have nonempty : expr ≠ "" := by
      simp only [validateRecurrenceCron, Bool.and_eq_true, decide_eq_true_eq] at valid
      exact valid.1.1
    constructor
    · rintro goes other given' - ⟨at_, remains⟩
      obtain rfl := some.inj (given.symm.trans given')
      exact (nextSlot_cron given valid alone remains).mp (goes at_ remains)
    · intro fires at_ remains
      exact (nextSlot_cron given valid alone remains).mpr (fires expr given nonempty ⟨at_, remains⟩)

def dailyRules : RRulePackage where
  Rule := ℤ
  fromString text now := if text = "FREQ=DAILY" then some (now / 1000 * 1000) else none
  after start from_ := some (if from_ < start then start else start + ((from_ - start) / 86400000 + 1) * 86400000)
  occurs start at_ := ∃ days : ℕ, at_ = start + days * 86400000

theorem dailyRules_documented : dailyRules.Documented where
  first start from_ next found := by
    change ℤ at start
    simp only [dailyRules, some.injEq] at found
    subst found
    by_cases early : from_ < start
    · rw [if_pos early]
      refine ⟨⟨⟨0, by simp⟩, early⟩, ?_⟩
      rintro at_ ⟨⟨days, rfl⟩, -⟩
      omega
    · rw [if_neg early]
      refine ⟨⟨⟨((from_ - start) / 86400000 + 1).toNat, by omega⟩, by omega⟩, ?_⟩
      rintro at_ ⟨⟨days, rfl⟩, later⟩
      omega
  exhausted _ _ none_ := by cases none_
  steady text now later here := by
    simp only [dailyRules] at here ⊢
    split at here
    · next same =>
      rw [if_pos same]
      rfl
    · cases here

def quarterly : RecurringTemplate := { recurrenceCron := some "*/15 * * * *", nextOccurrenceAt := some 0 }

theorem quarterly_neverStops : quarterly.NeverStops .ascii dailyRules 0 0 := by
  have valid : validateRecurrenceCron .ascii "*/15 * * * *" = true := by decide +kernel
  refine (template_neverStops_iff .ascii dailyRules dailyRules_documented 0 quarterly 0
    (.cron "*/15 * * * *" rfl valid rfl) ⟨rfl, rfl, rfl⟩).mpr ?_
  rintro expr given - -
  obtain rfl := some.inj given
  have fires : ((parseCron .ascii "*/15 * * * *").any fun parsed => matchesParsed parsed 900000) = true := by
    decide +kernel
  obtain ⟨parsed, read, held⟩ := (Option.any_eq_true _ _).mp fires
  exact ⟨900000, ⟨parsed, read, by decide, held⟩, by decide, by decide⟩

def monthEnds : RecurringTemplate :=
  { recurrenceCron := some "0 0 31 * *", nextOccurrenceAt := some 1769817600000 }

theorem monthEnds_quiet : ¬FiresInLookahead .ascii "0 0 31 * *" 1769817600000 := by
  rintro ⟨fire, ⟨parsed, read, whole, held⟩, later, inTime⟩
  have minutes : (parseCron .ascii "0 0 31 * *").map (·.minute) = some [0] := by decide +kernel
  have hours : (parseCron .ascii "0 0 31 * *").map (·.hour) = some [0] := by decide +kernel
  have days : (parseCron .ascii "0 0 31 * *").map (·.dayOfMonth) = some [31] := by decide +kernel
  have weekdays : (parseCron .ascii "0 0 31 * *").map (·.dowRestricted) = some false := by decide +kernel
  rw [read, map_some, some.injEq] at minutes hours days weekdays
  have apart : ∀ day ∈ range 31, (dateOf (20485 + (day : ℤ))).day ≠ 31 := by decide +kernel
  have fields : fire / 60000 % 60 = 0 ∧ fire / 3600000 % 24 = 0 ∧ (dateOf (fire / 86400000)).day = 31 := by
    simp only [matchesParsed, minutes, hours, days, weekdays, Bool.and_false, Bool.false_eq_true, if_false,
      Bool.not_eq_true', contains_eq_mem, mem_singleton, decide_eq_false_iff_not] at held
    split at held
    · cases held
    split at held
    · cases held
    split at held
    · cases held
    next minute hour _ =>
      have day : (dateOf (fire / 86400000)).day = 31 := by simpa using (Bool.and_eq_true_iff.mp held).1
      exact ⟨by omega, by omega, day⟩
  obtain ⟨minute, hour, day⟩ := fields
  refine apart (fire / 86400000 - 20485).toNat (mem_range.mpr (by omega)) ?_
  have same : (20485 : ℤ) + ((fire / 86400000 - 20485).toNat : ℤ) = fire / 86400000 := by omega
  rwa [same]

theorem month_end_template_stops : monthEnds.Accepted .ascii dailyRules ∧ monthEnds.Due 1769817600000 ∧
    ¬monthEnds.NeverStops .ascii dailyRules 1769817600000 1769817600000 := by
  have valid : validateRecurrenceCron .ascii "0 0 31 * *" = true := by decide +kernel
  refine ⟨.cron "0 0 31 * *" rfl valid rfl, ⟨rfl, rfl, rfl⟩, fun never => ?_⟩
  -- 31 March.
  have fires : ((parseCron .ascii "0 0 31 * *").any fun parsed => matchesParsed parsed 1774915200000) = true := by
    decide +kernel
  obtain ⟨parsed, read, held⟩ := (Option.any_eq_true _ _).mp fires
  have remains : monthEnds.Remains .ascii dailyRules 1769817600000 1769817600000 1774915200000 :=
    ⟨Or.inr ⟨rfl, _, rfl, by decide, parsed, read, by decide, held⟩, by decide, by simp [monthEnds],
      by simp [monthEnds]⟩
  have stopped : monthEnds.nextSlot .ascii dailyRules 1769817600000 1769817600000 = none := by
    by_contra goes
    exact monthEnds_quiet ((nextSlot_cron rfl valid rfl remains).mp goes)
  exact never.1 stopped _ remains

end EverWorks.Tasks
