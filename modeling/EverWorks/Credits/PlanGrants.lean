import EverWorks.Credits.AllowanceMonth
import EverWorks.Credits.LedgerInvariant

/-!
# Plan grants

`PlanCreditGrantService.grantForSubscription` writes a plan's monthly credits once for each allowance month and plan
code, under a ceiling on all plan credits of the month.
-/

namespace EverWorks.Credits
open Lib List List

/-- The `refType` of plan-allowance rows. -/
def planGrantRefType : String := "plan-allowance"

inductive SubscriptionStatus where
  | active | canceled | pastDue | trialing
  deriving DecidableEq

inductive SubscriptionPlanHosting where
  | cloud | selfhosted
  deriving DecidableEq

inductive BillingSubscriptionStatus where
  | none | trialing | active | pastDue | unpaid | paused | canceled | incomplete | incompleteExpired
  deriving DecidableEq

structure SubscriptionPlan where
  code : Option String
  displayName : String
  hosting : Option SubscriptionPlanHosting := some .cloud
  monthlyCredits : Int
  deriving DecidableEq

structure UserSubscription where
  id : String
  userId : String
  status : SubscriptionStatus := .active
  plan : Option SubscriptionPlan
  createdAt : Option Int
  trialEndsAt : Option Int := none
  providerSubscriptionId : Option String := none
  deriving DecidableEq

structure BillingProfile where
  subscriptionStatus : Option BillingSubscriptionStatus := none
  providerSubscriptionId : Option String := none
  deriving DecidableEq

inductive PlanGrantOutcome where
  | granted | alreadyGranted | notEligible
  deriving DecidableEq

structure GrantCall where
  subscription : UserSubscription
  billingProfile : Option BillingProfile := none
  now : Int
  deriving DecidableEq

def isPastDueSubscriptionStatus (status : Option BillingSubscriptionStatus) : Bool :=
  status = some .pastDue || status = some .unpaid

def blank (text : Option String) : Bool := text.getD "" = ""

def allowanceAnchor (subscription : UserSubscription) (now : Int) : Int :=
  subscription.trialEndsAt.getD (subscription.createdAt.getD now)

/-- The provider says that this very subscription is on trial, and the row does not know of the trial's end. -/
def GrantCall.trialing (call : GrantCall) : Bool :=
  let trialOverOnRow := call.subscription.trialEndsAt.any (· ≤ call.now)
  !trialOverOnRow && call.billingProfile.any fun billingProfile =>
    billingProfile.subscriptionStatus = some .trialing &&
      (blank billingProfile.providerSubscriptionId || blank call.subscription.providerSubscriptionId ||
        billingProfile.providerSubscriptionId = call.subscription.providerSubscriptionId)

/-- The plan that a call grants for; `none` where it is not eligible. -/
def GrantCall.eligiblePlan (call : GrantCall) : Option SubscriptionPlan :=
  if call.subscription.status ≠ .active then none
  else match call.subscription.plan with
    | none => none
    | some plan =>
      if plan.monthlyCredits ≤ 0 then none
      else if plan.hosting = some .selfhosted then none
      else if isPastDueSubscriptionStatus (call.billingProfile.bind (·.subscriptionStatus)) then none
      else if call.subscription.trialEndsAt.any (call.now < ·) then none
      else if call.trialing then none
      else some plan

def SubscriptionPlan.planCode (plan : SubscriptionPlan) : String := plan.code.getD "unknown"

def planGrantKey (userId periodKey planCode : String) : String :=
  "grant:plan:" ++ (userId ++ (":" ++ (periodKey ++ (":" ++ planCode))))

def isPlanGrantKey (key : String) : Bool := "grant:plan:".toList.isPrefixOf key.toList

def planGrantWrite (subscription : UserSubscription) (plan : SubscriptionPlan) (period : AllowancePeriod)
    (periodKey endKey : String) : CreditLedgerWrite where
  kind := .grant
  amountCredits := plan.monthlyCredits
  refType := some planGrantRefType
  refId := some subscription.id
  description := some
    (plan.displayName ++ " plan — monthly credits (" ++ periodKey ++ " → " ++ endKey ++ ")")
  idempotencyKey := some (planGrantKey subscription.userId periodKey plan.planCode)
  expiresAt := some period.end

def planWindow (period : AllowancePeriod) (maxAmountCredits : Int) : RefTypeWindow where
  refType := planGrantRefType
  from_ := period.start
  to_ := period.end
  maxAmountCredits

def hasEntry (rows : Rows) (idempotencyKey : String) : Bool := (findByIdempotencyKey rows idempotencyKey).isSome

def grantForSubscription (rows : Rows) (call : GrantCall) : Tx (Option PlanGrantOutcome) :=
  match call.eligiblePlan with
  | none => { rows, result := some .notEligible }
  | some plan =>
    let anchor := allowanceAnchor call.subscription call.now
    let period := allowancePeriodFor anchor call.now
    match periodKey period.start with
    | none => { rows, result := none }
    | some key =>
      let startKey := String.ofList key
      if hasEntry rows (planGrantKey call.subscription.userId startKey plan.planCode) then
        { rows, result := some .alreadyGranted }
      else match periodKey period.end with
        | none => { rows, result := none }
        | some endKey =>
          let tx := recordAtomic rows
            (planGrantWrite call.subscription plan period startKey (String.ofList endKey))
            { maxRefTypeAmountInWindow := some (planWindow period plan.monthlyCredits) } call.now
          { rows := tx.rows
            left := tx.left
            result := match tx.result with
              | .created _ | .idempotent _ => some .granted
              | _ => some .alreadyGranted }

/-- What happens to one user's ledger. -/
inductive GrantEvent where
  | grantForSubscription (call : GrantCall)
  /-- Any other write. -/
  | ledger (call : LedgerCall)

def grantStep (rows : Rows) : GrantEvent → Rows
  | .grantForSubscription call => (grantForSubscription rows call).rows
  | .ledger call => (LedgerState.step { rows } call).rows

/-- Another write keeps off the plan grants: their `refType` and their keys. -/
def LedgerCall.Elsewhere (call : LedgerCall) : Prop :=
  match call.op with
  | .recordAtomic write _ => write.refType ≠ some planGrantRefType ∧
      ∀ key ∈ write.idempotencyKey, isPlanGrantKey key = false
  | .recordCumulativeRefundAtomic write => write.refType ≠ planGrantRefType ∧
      isPlanGrantKey write.idempotencyKey = false
  | .expireDueBuckets => True

/-- An allowance month of an anchor, with ends that a date holds. -/
structure AllowanceMonth (anchor : Int) where
  index : ℕ
  startHeld : |addMonthsClamped anchor index| ≤ maxTime
  endHeld : |addMonthsClamped anchor (index + 1)| ≤ maxTime

namespace AllowanceMonth

variable {anchor : Int} (month : AllowanceMonth anchor)

def period : AllowancePeriod :=
  ⟨addMonthsClamped anchor month.index, addMonthsClamped anchor (month.index + 1), month.index⟩

def plan? (call : GrantCall) : Option SubscriptionPlan :=
  if allowancePeriodFor anchor call.now = month.period then call.eligiblePlan else none

def code? : GrantEvent → Option String
  | .grantForSubscription call => (month.plan? call).map (·.planCode)
  | .ledger _ => none

def seen (events : List GrantEvent) : List String := events.filterMap month.code?

def granted (rows : Rows) : Int := sumByRefTypeInWindow rows (planWindow month.period 0)

end AllowanceMonth

def best (amountOf : String → Int) (codes : List String) : Int := (codes.map amountOf).foldr max 0

/-- What a run of one subscription is promised: one user, one anchor, no call before it, and one amount for each plan
code in the month. -/
structure GrantRun {anchor : Int} (month : AllowanceMonth anchor) (userId : String) (amountOf : String → Int)
    (events : List GrantEvent) : Prop where
  owner : ∀ call, .grantForSubscription call ∈ events → call.subscription.userId = userId
  anchored : ∀ call, .grantForSubscription call ∈ events → allowanceAnchor call.subscription call.now = anchor
  after : ∀ call, .grantForSubscription call ∈ events → anchor ≤ call.now
  amount : ∀ call, .grantForSubscription call ∈ events → ∀ plan ∈ month.plan? call,
    plan.monthlyCredits = amountOf plan.planCode
  elsewhere : ∀ call, .ledger call ∈ events → call.Elsewhere

theorem isPlanGrantKey_planGrantKey (userId periodKey planCode : String) :
    isPlanGrantKey (planGrantKey userId periodKey planCode) = true := by
  rw [isPlanGrantKey, planGrantKey, String.toList_append, isPrefixOf_iff_prefix]
  exact prefix_append _ _

theorem isPlanGrantKey_expiryKey (id : Nat) : isPlanGrantKey (expiryKey id) = false := by
  rw [isPlanGrantKey, expiryKey, String.toList_append, Bool.eq_false_iff, Ne, isPrefixOf_iff_prefix]
  rintro ⟨rest, same⟩
  have first : some 'g' = some 'e' := congrArg head? same
  exact absurd first (by decide)

theorem planGrantKey_inj {userId first second code code' : String} (long : first.length = second.length)
    (same : planGrantKey userId first code = planGrantKey userId second code') : first = second ∧ code = code' := by
  rw [planGrantKey, planGrantKey, String.append_right_inj, String.append_right_inj, String.append_right_inj] at same
  have same := congrArg String.toList same
  simp only [String.toList_append] at same
  have long : first.toList.length = second.toList.length := by rwa [String.length_toList, String.length_toList]
  obtain ⟨key, code⟩ := append_inj same long
  exact ⟨String.toList_inj.mp key, String.toList_inj.mp (append_cancel_left code)⟩

def isPlanMove (row : CreditLedgerEntry) : Bool :=
  row.refType = some planGrantRefType || row.idempotencyKey.any isPlanGrantKey

def planMoves (rows : Rows) : Rows := (rows.map movement).filter isPlanMove

theorem planMoves_append (rows rest : Rows) : planMoves (rows ++ rest) = planMoves rows ++ planMoves rest := by
  rw [planMoves, map_append, filter_append, planMoves, planMoves]

@[simp] theorem planMoves_updateRemaining (rows : Rows) (id : Nat) (v : Int) :
    planMoves (updateRemaining rows id v) = planMoves rows := by
  rw [planMoves, movements_updateRemaining, planMoves]

theorem planMoves_post (rows : Rows) (entry : CreditLedgerEntry) (now : Int) :
    planMoves (post rows entry now).1 = planMoves rows ++ planMoves [entry] := by
  rw [planMoves, movements_post, filter_append, planMoves, planMoves, map_singleton]

variable {entry : CreditLedgerEntry}

theorem planMoves_singleton (other : isPlanMove entry = false) :
    planMoves [entry] = [] := by
  rw [planMoves, map_singleton, filter_singleton]
  have other : isPlanMove (movement entry) = false := other
  rw [other, cond_false]

theorem isPlanMove_expiryEntry (rows : Rows) (bucket : CreditLedgerEntry) (now : Int) :
    isPlanMove (expiryEntry rows bucket now) = false := by
  rw [isPlanMove, Bool.or_eq_false_iff]
  exact ⟨by simp [expiryEntry, planGrantRefType], isPlanGrantKey_expiryKey bucket.id⟩

theorem planMoves_expire (rows : Rows) (now : Int) : planMoves (expireDueBucketsInTx rows now) = planMoves rows := by
  have folded : ∀ (buckets before : Rows), planMoves (buckets.foldl (expireBucket now) before) = planMoves before := by
    intro buckets
    induction buckets with
    | nil => exact fun _ => rfl
    | cons bucket rest ih =>
      intro before
      rw [foldl_cons, ih, expireBucket]
      split
      · rfl
      · split
        · exact planMoves_updateRemaining _ _ _
        · rw [planMoves_updateRemaining, planMoves_append,
            planMoves_singleton (isPlanMove_expiryEntry before bucket now), append_nil]
  exact folded _ rows

theorem planMoves_recordAtomic (rows : Rows) (write : CreditLedgerWrite) (options : RecordAtomicOptions) (now : Int) :
    let moves := planMoves (recordAtomic rows write options now).rows
    let swept := expireDueBucketsInTx rows now
    let amount := clampAmount swept options (sumBalance swept) write.amountCredits
    ((findExisting rows write.idempotencyKey).isSome ∧ moves = planMoves rows) ∨
    (((0 < write.amountCredits ∧ amount ≤ 0) ∨ belowFloor options (sumBalance swept + amount)) ∧
      moves = planMoves rows) ∨
    (findExisting rows write.idempotencyKey = none ∧ ¬ (0 < write.amountCredits ∧ amount ≤ 0) ∧
      moves = planMoves rows ++ planMoves [writtenEntry swept write amount now]) := by
  intro moves swept amount
  have unfolded : moves = planMoves (recordAtomic rows write options now).rows := rfl
  rw [recordAtomic] at unfolded
  cases found : findExisting rows write.idempotencyKey with
  | some existing =>
    rw [found] at unfolded
    exact Or.inl ⟨rfl, unfolded⟩
  | none =>
    rw [found] at unfolded
    dsimp only at unfolded
    right
    split at unfolded
    · rename_i clamped
      exact Or.inl ⟨Or.inl clamped, unfolded.trans (planMoves_expire rows now)⟩
    · rename_i kept
      split at unfolded
      · rename_i below
        exact Or.inl ⟨Or.inr below, unfolded.trans (planMoves_expire rows now)⟩
      · rw [planMoves_post, planMoves_expire] at unfolded
        exact Or.inr ⟨rfl, kept, unfolded⟩

theorem planMoves_ledger {call : LedgerCall} (elsewhere : call.Elsewhere) (rows : Rows) :
    planMoves (grantStep rows (.ledger call)) = planMoves rows := by
  obtain ⟨op, now⟩ := call
  cases op with
  | expireDueBuckets => exact planMoves_expire rows now
  | recordAtomic write options =>
    obtain ⟨refType, keys⟩ := elsewhere
    have other : ∀ (swept : Rows) (amount : Int), isPlanMove (writtenEntry swept write amount now) = false := by
      intro swept amount
      rw [isPlanMove, Bool.or_eq_false_iff, Option.any_eq_false]
      exact ⟨decide_eq_false refType, fun key found => keys key found⟩
    obtain ⟨-, same⟩ | ⟨-, same⟩ | ⟨-, -, same⟩ := planMoves_recordAtomic rows write options now
    · exact same
    · exact same
    · rw [planMoves_singleton (other _ _), append_nil] at same
      exact same
  | recordCumulativeRefundAtomic write =>
    obtain ⟨refType, key⟩ := elsewhere
    have other : ∀ (swept : Rows) (purchase : CreditLedgerEntry) (reversed : Int),
        isPlanMove (reversalEntry swept write purchase reversed now) = false := by
      intro swept purchase reversed
      rw [isPlanMove, Bool.or_eq_false_iff]
      exact ⟨decide_eq_false fun same => refType (Option.some.inj same), key⟩
    show planMoves (recordCumulativeRefundAtomic rows write now).rows = planMoves rows
    rw [recordCumulativeRefundAtomic]
    split
    · rfl
    · split
      · rfl
      · split
        · rfl
        · dsimp only
          split
          · rfl
          · rw [planMoves_post, planMoves_expire, planMoves_singleton (other _ _ _), append_nil]

variable {rows : Rows}

theorem hasEntry_iff {key : String} (own : isPlanGrantKey key = true) :
    hasEntry rows key = true ↔ ∃ row ∈ planMoves rows, row.idempotencyKey = some key := by
  rw [hasEntry, findByIdempotencyKey, find?_isSome]
  constructor
  · rintro ⟨row, member, keyed⟩
    have keyed : row.idempotencyKey = some key := of_decide_eq_true keyed
    refine ⟨movement row, mem_filter.mpr ⟨mem_map_of_mem member, ?_⟩, keyed⟩
    rw [isPlanMove, Bool.or_eq_true]
    refine Or.inr ?_
    show row.idempotencyKey.any isPlanGrantKey = true
    rw [keyed]
    exact own
  · rintro ⟨move, member, keyed⟩
    obtain ⟨row, present, rfl⟩ := mem_map.mp (mem_filter.mp member).1
    exact ⟨row, present, decide_eq_true keyed⟩

theorem sumByRefTypeInWindow_planMoves {window : RefTypeWindow} (plans : window.refType = planGrantRefType)
    (rows : Rows) : sumByRefTypeInWindow (planMoves rows) window = sumByRefTypeInWindow rows window := by
  rw [sumByRefTypeInWindow, sumByRefTypeInWindow, planMoves, filter_filter, filter_map, map_map]
  refine congrArg sum (congrArg (map _) (filter_congr fun row _ => ?_))
  rw [Function.comp_apply, isPlanMove, plans]
  grind [movement]

theorem sumByRefTypeInWindow_append (rows rest : Rows) (window : RefTypeWindow) :
    sumByRefTypeInWindow (rows ++ rest) window = sumByRefTypeInWindow rows window + sumByRefTypeInWindow rest window := by
  rw [sumByRefTypeInWindow, filter_append, map_append, sum_append, sumByRefTypeInWindow,
    sumByRefTypeInWindow]

variable {call : GrantCall}

variable {plan : SubscriptionPlan}

theorem pos_of_eligiblePlan (eligible : call.eligiblePlan = some plan) :
    0 < plan.monthlyCredits := by
  rw [GrantCall.eligiblePlan] at eligible
  grind

theorem findExisting_planGrantKey (rows : Rows) (userId periodKey planCode : String) :
    findExisting rows (some (planGrantKey userId periodKey planCode)) =
      findByIdempotencyKey rows (planGrantKey userId periodKey planCode) := by
  have own := isPlanGrantKey_planGrantKey userId periodKey planCode
  have present : planGrantKey userId periodKey planCode ≠ "" := by
    intro empty
    rw [empty] at own
    exact absurd own (by decide)
  rw [findExisting.eq_def]
  exact if_neg present

theorem grantForSubscription_cases {userId : String} {anchor : Int}
    {period : AllowancePeriod} (eligible : call.eligiblePlan = some plan) (owner : call.subscription.userId = userId)
    (anchored : allowanceAnchor call.subscription call.now = anchor)
    (within : allowancePeriodFor anchor call.now = period) {held : Int}
    (sum : sumByRefTypeInWindow rows (planWindow period plan.monthlyCredits) = held) :
    ((periodKey period.start = none ∨ periodKey period.end = none) ∧
      planMoves (grantForSubscription rows call).rows = planMoves rows) ∨
    ∃ key, periodKey period.start = some key ∧
      ((hasEntry rows (planGrantKey userId (String.ofList key) plan.planCode) ∧
        planMoves (grantForSubscription rows call).rows = planMoves rows) ∨
      (plan.monthlyCredits ≤ held ∧ planMoves (grantForSubscription rows call).rows = planMoves rows) ∨
      (∃ entry : CreditLedgerEntry, held < plan.monthlyCredits ∧ entry.refType = some planGrantRefType ∧
        entry.createdAt = call.now ∧
        entry.idempotencyKey = some (planGrantKey userId (String.ofList key) plan.planCode) ∧
        entry.amountCredits = min plan.monthlyCredits (plan.monthlyCredits - held) ∧
        planMoves (grantForSubscription rows call).rows = planMoves rows ++ planMoves [entry])) := by
  subst owner anchored within
  have unfolded : planMoves (grantForSubscription rows call).rows = planMoves (grantForSubscription rows call).rows := rfl
  conv_rhs at unfolded => rw [grantForSubscription, eligible]
  dsimp only at unfolded
  cases startText : periodKey (allowancePeriodFor (allowanceAnchor call.subscription call.now) call.now).start with
  | none =>
    rw [startText] at unfolded
    exact Or.inl ⟨Or.inl rfl, unfolded⟩
  | some key =>
    rw [startText] at unfolded
    dsimp only at unfolded
    split at unfolded
    · rename_i keyed
      exact Or.inr ⟨key, rfl, Or.inl ⟨keyed, unfolded⟩⟩
    · rename_i unkeyed
      cases endText : periodKey (allowancePeriodFor (allowanceAnchor call.subscription call.now) call.now).end with
      | none =>
        rw [endText] at unfolded
        exact Or.inl ⟨Or.inr rfl, unfolded⟩
      | some endKey =>
        rw [endText] at unfolded
        dsimp only at unfolded
        refine Or.inr ⟨key, rfl, Or.inr ?_⟩
        have swept := sum
        rw [← sumByRefTypeInWindow_planMoves rfl, ← planMoves_expire rows call.now,
          sumByRefTypeInWindow_planMoves rfl] at swept
        obtain ⟨found, -⟩ | ⟨clamped | below, same⟩ | ⟨-, kept, same⟩ := planMoves_recordAtomic rows
          (planGrantWrite call.subscription plan
            (allowancePeriodFor (allowanceAnchor call.subscription call.now) call.now) (String.ofList key)
            (String.ofList endKey))
          { maxRefTypeAmountInWindow := some (planWindow
            (allowancePeriodFor (allowanceAnchor call.subscription call.now) call.now) plan.monthlyCredits) } call.now
        · have found : (findExisting rows (some (planGrantKey _ _ _))).isSome := found
          rw [findExisting_planGrantKey] at found
          exact absurd found unkeyed
        · have full : min plan.monthlyCredits (plan.monthlyCredits - _) ≤ 0 := clamped.2
          rw [swept] at full
          have positive := pos_of_eligiblePlan eligible
          exact Or.inl ⟨by omega, unfolded.trans same⟩
        · cases below
        · have kept : ¬ (0 < plan.monthlyCredits ∧ min plan.monthlyCredits (plan.monthlyCredits - _) ≤ 0) := kept
          rw [swept] at kept
          have positive := pos_of_eligiblePlan eligible
          refine Or.inr ⟨_, by omega, rfl, rfl, rfl, ?_, unfolded.trans same⟩
          show min plan.monthlyCredits (plan.monthlyCredits - _) = _
          rw [swept]

section
variable {anchor : Int} (month : AllowanceMonth anchor) (userId : String) (amountOf : String → Int)

theorem best_append (codes : List String) (code : String) :
    best amountOf (codes ++ [code]) = max (best amountOf codes) (amountOf code) := by
  induction codes with
  | nil => exact max_comm _ _
  | cons first rest ih =>
    have ih : ((rest ++ [code]).map amountOf).foldr max 0 = max ((rest.map amountOf).foldr max 0) (amountOf code) := ih
    rw [best, best, cons_append, map_cons, map_cons, foldr_cons, foldr_cons, ih, max_assoc]

theorem best_nonneg (codes : List String) : 0 ≤ best amountOf codes := by
  induction codes with
  | nil => exact le_rfl
  | cons first rest ih => exact ih.trans (le_max_right _ _)

variable {codes : List String}

theorem amountOf_le_best {code : String} (listed : code ∈ codes) :
    amountOf code ≤ best amountOf codes := by
  induction codes with
  | nil => cases listed
  | cons first rest ih =>
    obtain _ | ⟨_, listed⟩ := listed
    · exact le_max_left _ _
    · exact (ih listed).trans (le_max_right _ _)

namespace AllowanceMonth

def startKey : String := String.ofList ((IsoDate.isoDate (Calendar.dateOf (month.period.start / msPerDay))).take 10)

theorem periodKey_start : ∃ key, periodKey month.period.start = some key ∧ String.ofList key = month.startKey :=
  ⟨_, if_pos month.startHeld, rfl⟩

theorem granted_planMoves (rows : Rows) : month.granted (planMoves rows) = month.granted rows :=
  sumByRefTypeInWindow_planMoves rfl rows

variable {month} in
theorem bounds_iff {now : Int} (after : anchor ≤ now) :
    (month.period.start ≤ now ∧ now < month.period.end) ↔ allowancePeriodFor anchor now = month.period := by
  obtain ⟨index, period, within⟩ := allowancePeriodFor_spec after
  rw [period]
  constructor
  · intro here
    rw [index_unique within here, AllowanceMonth.period]
  · intro same
    rw [← same]
    exact within

theorem sum_own (refType : entry.refType = some planGrantRefType)
    (here : month.period.start ≤ entry.createdAt ∧ entry.createdAt < month.period.end) :
    sumByRefTypeInWindow [entry] (planWindow month.period 0) = entry.amountCredits := by
  simp [sumByRefTypeInWindow, planWindow, refType, here]

theorem sum_apart
    (away : ¬ (month.period.start ≤ entry.createdAt ∧ entry.createdAt < month.period.end)) :
    sumByRefTypeInWindow [entry] (planWindow month.period 0) = 0 := by
  simp [sumByRefTypeInWindow, planWindow, away]

structure Agrees (rows : Rows) (codes : List String) : Prop where
  sum : month.granted rows = best amountOf codes
  keyed : ∀ row ∈ planMoves rows, ∀ code, row.idempotencyKey = some (planGrantKey userId month.startKey code) →
    code ∈ codes

variable {month userId amountOf}

theorem Agrees.of_planMoves {rows rows' : Rows} (agrees : month.Agrees userId amountOf rows codes)
    (same : planMoves rows' = planMoves rows) : month.Agrees userId amountOf rows' codes where
  sum := by rw [← granted_planMoves, same, granted_planMoves, agrees.sum]
  keyed := by
    rw [same]
    exact agrees.keyed

theorem Agrees.again (agrees : month.Agrees userId amountOf rows codes)
    {code : String} (small : amountOf code ≤ best amountOf codes) :
    month.Agrees userId amountOf rows (codes ++ [code]) where
  sum := by rw [best_append, max_eq_left small, agrees.sum]
  keyed row member other keyed := mem_append_left _ (agrees.keyed row member other keyed)

theorem Agrees.granted (agrees : month.Agrees userId amountOf rows codes)
    (offered : month.plan? call = some plan)
    (owner : call.subscription.userId = userId) (anchored : allowanceAnchor call.subscription call.now = anchor)
    (after : anchor ≤ call.now) (amount : plan.monthlyCredits = amountOf plan.planCode) :
    month.Agrees userId amountOf (grantForSubscription rows call).rows (codes ++ [plan.planCode]) := by
  obtain ⟨within, eligible⟩ := Option.ite_none_right_eq_some.mp offered
  obtain ⟨key, startText, startKey⟩ := month.periodKey_start
  have held : sumByRefTypeInWindow rows (planWindow month.period plan.monthlyCredits) = best amountOf codes :=
    agrees.sum
  obtain ⟨none | none, -⟩ | ⟨_, same, ⟨keyed, moves⟩ | ⟨full, moves⟩ |
      ⟨entry, room, refType, createdAt, keyed, credits, moves⟩⟩ :=
    grantForSubscription_cases eligible owner anchored within held
  · exact absurd none (startText ▸ Option.some_ne_none key)
  · exact absurd (none.symm.trans (if_pos month.endHeld)) (Option.some_ne_none _).symm
  · obtain rfl := Option.some.inj (startText.symm.trans same)
    rw [startKey, hasEntry_iff (isPlanGrantKey_planGrantKey _ _ _)] at keyed
    obtain ⟨row, member, keyed⟩ := keyed
    have listed := agrees.keyed row member _ keyed
    exact (agrees.of_planMoves moves).again (amountOf_le_best amountOf listed)
  · exact (agrees.of_planMoves moves).again (amount ▸ full)
  · obtain rfl := Option.some.inj (startText.symm.trans same)
    rw [startKey] at keyed
    constructor
    · have here : sumByRefTypeInWindow [entry] (planWindow month.period 0) = entry.amountCredits :=
        month.sum_own refType (createdAt ▸ (bounds_iff after).mpr within)
      have top : AllowanceMonth.granted month (grantForSubscription rows call).rows =
          best amountOf codes + entry.amountCredits := by
        rw [← granted_planMoves, moves, AllowanceMonth.granted, sumByRefTypeInWindow_append,
          sumByRefTypeInWindow_planMoves rfl, sumByRefTypeInWindow_planMoves rfl, here]
        exact congrArg (· + entry.amountCredits) agrees.sum
      have nonneg := best_nonneg amountOf codes
      rw [top, credits, best_append, ← amount]
      omega
    · rw [moves]
      intro row member code own
      rcases mem_append.mp member with earlier | new
      · exact mem_append_left _ (agrees.keyed row earlier code own)
      · obtain ⟨_, present, rfl⟩ := mem_map.mp (mem_filter.mp new).1
        obtain rfl := mem_singleton.mp present
        have same := Option.some.inj (keyed.symm.trans own)
        obtain ⟨-, rfl⟩ := planGrantKey_inj rfl same
        exact mem_append_right _ (mem_singleton_self _)

theorem planGrantKey_apart {now : Int} {key : List Char} {code code' : String} (after : anchor ≤ now)
    (other : allowancePeriodFor anchor now ≠ month.period)
    (text : periodKey (allowancePeriodFor anchor now).start = some key) :
    planGrantKey userId (String.ofList key) code ≠ planGrantKey userId month.startKey code' := by
  intro same
  obtain ⟨key', text', startKey⟩ := month.periodKey_start
  have long : (String.ofList key).length = month.startKey.length := by
    rw [← startKey, String.length_ofList, String.length_ofList, length_periodKey text, length_periodKey text']
  obtain ⟨keys, -⟩ := planGrantKey_inj long same
  rw [← startKey, String.ofList_inj] at keys
  obtain ⟨index, period, -⟩ := allowancePeriodFor_spec after
  rw [period] at text other
  rw [keys] at text
  have months := monthNumber_of_periodKey text text'
  rw [AllowanceMonth.period, monthNumber_addMonthsClamped, monthNumber_addMonthsClamped] at months
  have indexes : index = month.index := by omega
  exact other (indexes ▸ rfl)

theorem Agrees.apart (agrees : month.Agrees userId amountOf rows codes)
    (other : month.plan? call = none)
    (owner : call.subscription.userId = userId) (anchored : allowanceAnchor call.subscription call.now = anchor)
    (after : anchor ≤ call.now) :
    month.Agrees userId amountOf (grantForSubscription rows call).rows codes := by
  cases eligible : call.eligiblePlan with
  | none =>
    have same : (grantForSubscription rows call).rows = rows := by rw [grantForSubscription, eligible]
    rw [same]
    exact agrees
  | some plan =>
    have away : allowancePeriodFor anchor call.now ≠ month.period := by
      intro within
      rw [plan?, if_pos within, eligible] at other
      cases other
    have sum : sumByRefTypeInWindow rows (planWindow (allowancePeriodFor anchor call.now) plan.monthlyCredits) = _ :=
      rfl
    obtain ⟨-, moves⟩ | ⟨key, text, ⟨-, moves⟩ | ⟨-, moves⟩ | ⟨entry, -, refType, createdAt, keyed, -, moves⟩⟩ :=
      grantForSubscription_cases eligible owner anchored rfl sum
    · exact agrees.of_planMoves moves
    · exact agrees.of_planMoves moves
    · exact agrees.of_planMoves moves
    · constructor
      · have nothing : sumByRefTypeInWindow [entry] (planWindow month.period 0) = 0 :=
          month.sum_apart (createdAt ▸ fun here => away ((bounds_iff after).mp here))
        rw [← granted_planMoves, moves, AllowanceMonth.granted, sumByRefTypeInWindow_append,
          sumByRefTypeInWindow_planMoves rfl, sumByRefTypeInWindow_planMoves rfl, nothing, add_zero]
        exact agrees.sum
      · rw [moves]
        intro row member code own
        rcases mem_append.mp member with earlier | new
        · exact agrees.keyed row earlier code own
        · obtain ⟨_, present, rfl⟩ := mem_map.mp (mem_filter.mp new).1
          obtain rfl := mem_singleton.mp present
          exact absurd (Option.some.inj (keyed.symm.trans own)) (planGrantKey_apart after away text)

end AllowanceMonth

end

def upgradedAndBack : List GrantEvent :=
  let call (code : String) (monthlyCredits now : Int) : GrantEvent := .grantForSubscription
    { subscription :=
        { id := "s1"
          userId := "u1"
          plan := some { code := some code, displayName := code, monthlyCredits }
          createdAt := some 0 }
      now }
  [call "standard" 100 1, call "premium" 300 2, call "standard" 100 3, call "standard" 100 3]

end EverWorks.Credits
