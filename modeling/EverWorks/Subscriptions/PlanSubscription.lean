import EverWorks.Lib.Run
import EverWorks.Lib.Table

/-!
`PlanSubscriptionService.applyWebhook` moves an owner's tier on verified `subscription.activated` and
`subscription.canceled` deliveries: the `user_subscriptions` row and the user's default plan.
-/

namespace EverWorks.Subscriptions
open Lib

inductive SubscriptionPlanCode where
  | free | standard | premium | selfhostedCommunity | selfhostedPro | selfhostedEnterprise
  deriving DecidableEq

def SubscriptionPlanCode.value : SubscriptionPlanCode → String
  | free => "free"
  | standard => "standard"
  | premium => "premium"
  | selfhostedCommunity => "selfhosted_community"
  | selfhostedPro => "selfhosted_pro"
  | selfhostedEnterprise => "selfhosted_enterprise"

def SubscriptionPlanCode.values : List SubscriptionPlanCode :=
  [free, standard, premium, selfhostedCommunity, selfhostedPro, selfhostedEnterprise]

inductive SubscriptionPlanHosting where
  | cloud | selfhosted
  deriving DecidableEq

/-- `monthlyPrice` is in cents, `none` where the column holds no finite number. -/
structure SubscriptionPlan where
  id : String
  code : SubscriptionPlanCode
  hosting : SubscriptionPlanHosting
  monthlyPrice : Option Int
  deriving DecidableEq

def isPaidPlan (plan : SubscriptionPlan) : Bool :=
  match plan.monthlyPrice with
  | none => true
  | some price => !(price ≤ 0)

inductive SubscriptionStatus where
  | active | canceled | pastDue | trialing
  deriving DecidableEq

inductive SubscriptionBillingProvider where
  | stripe | manual
  deriving DecidableEq

def providerEnum (providerId : String) : SubscriptionBillingProvider :=
  if providerId = "stripe" then .stripe else .manual

structure UserSubscription where
  id : Nat
  userId : String
  planCode : SubscriptionPlanCode
  planId : String
  status : SubscriptionStatus
  billingProvider : SubscriptionBillingProvider := .stripe
  providerSubscriptionId : Option String := none
  seats : Option Nat := none
  providerSeatItemId : Option String := none
  currentPeriodEnd : Option Int := none
  cancelAtPeriodEnd : Bool := false
  trialEndsAt : Option Int := none
  tenantId : Option String := none
  deriving DecidableEq

structure User where
  id : String
  tenantId : Option String := none
  defaultPlanId : Option String := none
  deriving DecidableEq

structure BillingProfile where
  userId : String
  provider : String
  providerCustomerId : Option String := none
  providerSubscriptionId : Option String := none
  subscriptionStatus : Option String := none
  currentPeriodEnd : Option Int := none
  deriving DecidableEq

structure LicencePurchase where
  userId : String
  planCode : SubscriptionPlanCode
  provider : String
  providerPaymentId : String
  amountCents : Int
  currency : String
  deriving DecidableEq

structure SubscriptionStore where
  rows : List UserSubscription := []
  users : List User := []
  billingProfiles : List BillingProfile := []
  licencePurchases : List LicencePurchase := []

/-- `findOne` without an order returns one of the matching rows, and says nothing about which. -/
structure FindOne where
  pick : List UserSubscription → Option UserSubscription
  pick_mem : ∀ {rows row}, pick rows = some row → row ∈ rows
  pick_nil : ∀ {rows}, pick rows = none → rows = []

structure Deployment where
  enabled : Bool
  allowSelfServePaidPlans : Bool := false
  providerId : String
  plans : List SubscriptionPlan
  findOne : FindOne

inductive BillingWebhookEventKind where
  | subscriptionActivated | subscriptionCanceled | subscriptionUpdated | other
  deriving DecidableEq

/-- A field that the provider may leave out altogether is an option of an option. -/
structure BillingSubscriptionSnapshot where
  seats : Option (Option Nat) := none
  seatItemId : Option (Option String) := none
  deriving DecidableEq

structure BillingWebhookEvent where
  id : String
  kind : BillingWebhookEventKind
  customerId : Option String := none
  referenceId : Option String := none
  amountCents : Option Int := none
  currency : Option String := none
  subscription : Option BillingSubscriptionSnapshot := none
  paymentId : Option String := none
  planCode : Option String := none
  subscriptionId : Option String := none
  currentPeriodEnd : Option Int := none
  cancelAtPeriodEnd : Option Bool := none
  trialEnd : Option Int := none
  inTrial : Bool := false
  deriving DecidableEq

inductive PlanWebhookAction where
  | subscriptionActivated | subscriptionCanceled | subscriptionReconciled | ignored | unattributed
  deriving DecidableEq

inductive PlanError where
  | badRequest (message : String)
  | notFound (message : String)
  | forbidden (message : String)
  | conflict (message : String)
  deriving DecidableEq

section Lookups

variable (deployment : Deployment) (store : SubscriptionStore)

def findByCode (code : SubscriptionPlanCode) : Option SubscriptionPlan :=
  deployment.plans.find? fun plan => plan.code = code

/-- `toLowerCase` as far as it can reach a plan code. -/
def toLowerCase (text : String) : String :=
  String.ofList (text.toList.map Char.toLower)

def findPlanByCode (planCode : String) : Option SubscriptionPlan :=
  (SubscriptionPlanCode.values.find? fun code => code.value = toLowerCase planCode).bind
    (findByCode deployment)

def findActiveByUser (userId : String) : Option UserSubscription :=
  deployment.findOne.pick (store.rows.filter fun row => row.userId = userId ∧ row.status = .active)

def findByProviderSubscriptionId (subscriptionId : String) : Option UserSubscription :=
  deployment.findOne.pick
    (store.rows.filter fun row => row.providerSubscriptionId = some subscriptionId)

def findUser (userId : String) : Option User :=
  store.users.find? fun user => user.id = userId

/-- `value || null` on a string the event may leave out. -/
def given (value : Option String) : Option String :=
  value.filter (· ≠ "")

/-- `referenceId.split(':')[0]`, when that is not empty. -/
def ownerOfReference (referenceId : String) : Option String :=
  given (some (String.ofList (referenceId.toList.takeWhile (· ≠ ':'))))

def resolveUserId (event : BillingWebhookEvent) : Option String :=
  ((given event.subscriptionId).bind fun subscriptionId =>
      (findByProviderSubscriptionId deployment store subscriptionId).map (·.userId)) <|>
    ((given event.customerId).bind fun customerId =>
      (store.billingProfiles.find? fun profile => profile.provider = deployment.providerId ∧
        profile.providerCustomerId = some customerId).map (·.userId)) <|>
    (given event.referenceId).bind ownerOfReference

end Lookups

section Tier

variable (deployment : Deployment) (store : SubscriptionStore)

def persistDefaultPlan (userId : String) (plan : SubscriptionPlan) : SubscriptionStore :=
  let assign (user : User) : User := { user with defaultPlanId := some plan.id }
  { store with users := Table.update User.id userId assign store.users }

/-- The privileged grant. `activate` has looked the plan up already, so it is always found. -/
def assignPlanToUser (userId : String) (planCode : SubscriptionPlanCode) : SubscriptionStore :=
  match findByCode deployment planCode with
  | none => store
  | some plan => persistDefaultPlan store userId plan

def changePlanSelfService (userId : String) (planCode : SubscriptionPlanCode) :
    Except PlanError SubscriptionStore :=
  if ¬ deployment.enabled then .error (.badRequest "Subscriptions are disabled")
  else match findByCode deployment planCode with
    | none => .error (.notFound "Plan not found")
    | some plan =>
      if isPaidPlan plan ∧ ¬ deployment.allowSelfServePaidPlans then
        .error (.forbidden
          "Paid plans must be activated through billing and cannot be self-assigned.")
      else if plan.hosting = .selfhosted then
        .error (.forbidden
          "Self-hosted editions cannot be self-assigned on a hosted deployment.")
      else if ((findActiveByUser deployment store userId).bind
          fun live => given live.providerSubscriptionId).isSome then
        .error (.conflict "You still have an active paid subscription. Cancel it first — switching the plan here would relabel your tier while the provider kept billing you.")
      else .ok (persistDefaultPlan store userId plan)

def createOrUpdate (userId : String) (blank : UserSubscription)
    (patch : UserSubscription → UserSubscription) : SubscriptionStore :=
  match findActiveByUser deployment store userId with
  | some existing =>
    { store with rows := Table.update UserSubscription.id existing.id patch store.rows }
  | none => { store with rows := store.rows ++ [patch blank] }

end Tier

def cloudPlanTrialPeriodDays : Int := 90

structure PlanActivation where
  userId : String
  inTrial : Bool
  trialEnd : Option Int
  planCode : Option String
  providerSubscriptionId : Option String
  currentPeriodEnd : Option Int
  cancelAtPeriodEnd : Bool
  seats : Option (Option Nat)
  seatItemId : Option (Option String)
  providerPaymentId : Option String
  amountCents : Option Int
  currency : Option String

def BillingWebhookEvent.activation (event : BillingWebhookEvent) (userId : String) :
    PlanActivation where
  userId := userId
  inTrial := event.inTrial
  trialEnd := event.trialEnd
  planCode := event.planCode
  providerSubscriptionId := event.subscriptionId
  currentPeriodEnd := event.currentPeriodEnd
  cancelAtPeriodEnd := event.cancelAtPeriodEnd.getD false
  seats := event.subscription.bind (·.seats)
  seatItemId := event.subscription.bind (·.seatItemId)
  providerPaymentId := event.paymentId
  amountCents := event.amountCents
  currency := event.currency

section Activate

variable (deployment : Deployment) (store : SubscriptionStore) (now : Int)

def PlanActivation.onTrial (input : PlanActivation) : Bool :=
  input.inTrial && !(input.trialEnd.any (· ≤ now))

/-- The trial end to write; `none` leaves the column alone. -/
def PlanActivation.trialEndsAt (input : PlanActivation) (existingRow : Option UserSubscription) :
    Option (Option Int) :=
  if input.onTrial now then
    some (some ((input.trialEnd <|> input.currentPeriodEnd).getD
      (now + cloudPlanTrialPeriodDays * 24 * 60 * 60 * 1000)))
  else if existingRow.any fun row => (given input.providerSubscriptionId).isSome ∧
      row.providerSubscriptionId = input.providerSubscriptionId then
    if (existingRow.bind (·.trialEndsAt)).any (now < ·) then some (some now) else none
  else some none

/-- The columns `activate` hands to `createOrUpdate`. -/
def PlanActivation.patch (input : PlanActivation) (plan : SubscriptionPlan)
    (existingRow : Option UserSubscription) (owner : Option User) (row : UserSubscription) :
    UserSubscription :=
  { row with
    trialEndsAt := (input.trialEndsAt now existingRow).getD row.trialEndsAt
    tenantId :=
      if (given (existingRow.bind (·.tenantId))).isSome then row.tenantId
      else given (owner.bind (·.tenantId)) <|> row.tenantId
    planCode := plan.code
    planId := plan.id
    status := .active
    billingProvider := providerEnum deployment.providerId
    currentPeriodEnd := input.currentPeriodEnd
    cancelAtPeriodEnd := input.cancelAtPeriodEnd
    providerSubscriptionId := input.providerSubscriptionId
    seats := (input.seats.map fun seats => some (seats.getD 0)).getD row.seats
    providerSeatItemId := input.seatItemId.getD row.providerSeatItemId }

def recordPurchase (purchase : LicencePurchase) : SubscriptionStore :=
  if store.licencePurchases.any fun other => other.provider = purchase.provider ∧
      other.providerPaymentId = purchase.providerPaymentId then store
  else { store with licencePurchases := store.licencePurchases ++ [purchase] }

def recordLicence (input : PlanActivation) (plan : SubscriptionPlan) : SubscriptionStore × Bool :=
  if (given input.providerSubscriptionId).isSome then (store, true)
  else match given input.providerPaymentId, input.amountCents, given input.currency with
    | some paymentId, some amountCents, some currency =>
      (recordPurchase store ⟨input.userId, plan.code, deployment.providerId, paymentId,
        amountCents, currency⟩, true)
    | _, _, _ => (store, false)

def updateSubscriptionState (userId : String) (providerSubscriptionId : String)
    (trialEndsAt : Option Int) : SubscriptionStore :=
  let patch (profile : BillingProfile) : BillingProfile :=
    { profile with
      providerSubscriptionId := some providerSubscriptionId
      subscriptionStatus := some "trialing"
      currentPeriodEnd := trialEndsAt <|> profile.currentPeriodEnd }
  let billingProfiles := Table.update BillingProfile.userId userId patch store.billingProfiles
  { store with billingProfiles := billingProfiles }

def activateHosted (input : PlanActivation) (plan : SubscriptionPlan) : SubscriptionStore :=
  let existingRow := findActiveByUser deployment store input.userId
  let blank : UserSubscription :=
    { id := store.rows.length, userId := input.userId, planCode := plan.code, planId := plan.id,
      status := .active }
  let written := createOrUpdate deployment store input.userId blank
    (input.patch deployment now plan existingRow (findUser store input.userId))
  let granted :=
    if deployment.enabled ∧ (findUser written input.userId).isSome then
      assignPlanToUser deployment written input.userId plan.code
    else written
  match input.onTrial now, given input.providerSubscriptionId with
  | true, some providerSubscriptionId =>
    updateSubscriptionState granted input.userId providerSubscriptionId
      (input.trialEndsAt now existingRow).join
  | _, _ => granted

def activate (input : PlanActivation) : SubscriptionStore × Bool :=
  match (given input.planCode).bind (findPlanByCode deployment) with
  | none => (store, false)
  | some plan =>
    if plan.hosting = .selfhosted then recordLicence deployment store input plan
    else (activateHosted deployment store now input plan, true)

end Activate

section Cancel

variable (deployment : Deployment) (store : SubscriptionStore)

def markCanceled (id : Nat) : SubscriptionStore :=
  let mark (row : UserSubscription) : UserSubscription := { row with status := .canceled }
  { store with rows := Table.update UserSubscription.id id mark store.rows }

def cancelSubscriptionRow (subscription : UserSubscription) :
    SubscriptionStore × Except PlanError Unit :=
  let marked := markCanceled store subscription.id
  if deployment.enabled ∧ (findUser marked subscription.userId).isSome then
    match changePlanSelfService deployment marked subscription.userId .free with
    | .ok downgraded => (downgraded, .ok ())
    | .error error => (marked, .error error)
  else (marked, .ok ())

def cancel (userId : String) (providerSubscriptionId : Option String) :
    SubscriptionStore × Except PlanError Bool :=
  let subscription := match given providerSubscriptionId with
    | some id => findByProviderSubscriptionId deployment store id
    | none => findActiveByUser deployment store userId
  match subscription with
  | none => (store, .ok false)
  | some row =>
    if row.userId ≠ userId then (store, .ok false)
    else
      let (canceled, outcome) := cancelSubscriptionRow deployment store row
      (canceled, outcome.map fun _ => true)

def applyWebhook (now : Int) (event : BillingWebhookEvent) :
    SubscriptionStore × Except PlanError PlanWebhookAction :=
  match resolveUserId deployment store event with
  | none => (store, .ok .unattributed)
  | some userId =>
    match event.kind with
    | .subscriptionActivated =>
      let (after, activated) := activate deployment store now (event.activation userId)
      (after, .ok (if activated then .subscriptionActivated else .ignored))
    | .subscriptionCanceled =>
      let (after, outcome) := cancel deployment store userId event.subscriptionId
      (after, outcome.map fun canceled => if canceled then .subscriptionCanceled else .ignored)
    | .subscriptionUpdated => (store, .ok .subscriptionReconciled)
    | .other => (store, .ok .ignored)

end Cancel

end EverWorks.Subscriptions
