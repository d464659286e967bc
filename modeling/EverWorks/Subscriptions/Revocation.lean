import EverWorks.Subscriptions.PlanSubscription
import Mathlib.Data.List.Nodup

/-!
What the deliveries about one provider subscription do to its owner, over every order of delivery and
any number of replays. A delivery carries the instant the provider emitted it at; the code never
reads that instant.
-/

namespace EverWorks.Subscriptions
open Lib List

structure PlanDelivery where
  event : BillingWebhookEvent
  emittedAt : Int
  deliveredAt : Int

/-- The store, and when the cancellations applied so far were emitted. -/
structure PlanRun where
  store : SubscriptionStore
  cancellations : List Int := []

section Run

variable (deployment : Deployment) (owner subscriptionId : String)

def PlanDelivery.outcome (delivery : PlanDelivery) (store : SubscriptionStore) :
    SubscriptionStore × Except PlanError PlanWebhookAction :=
  applyWebhook deployment store delivery.deliveredAt delivery.event

def PlanRun.deliver (run : PlanRun) (delivery : PlanDelivery) : PlanRun :=
  let (store, outcome) := delivery.outcome deployment run.store
  match outcome with
  | .ok .subscriptionCanceled => ⟨store, delivery.emittedAt :: run.cancellations⟩
  | _ => ⟨store, run.cancellations⟩

/-- An activation or a cancellation of the subscription, attributed to the owner. -/
def PlanRun.About (run : PlanRun) (delivery : PlanDelivery) : Prop :=
  (delivery.event.kind = .subscriptionActivated ∨ delivery.event.kind = .subscriptionCanceled) ∧
  delivery.event.subscriptionId = some subscriptionId ∧
  resolveUserId deployment run.store delivery.event = some owner

/-- An activation emitted before a cancellation that has been applied. -/
def PlanRun.Stale (run : PlanRun) (delivery : PlanDelivery) : Prop :=
  delivery.event.kind = .subscriptionActivated ∧
  ∃ canceledAt ∈ run.cancellations, delivery.emittedAt < canceledAt

def planOf (event : BillingWebhookEvent) : Option SubscriptionPlan :=
  (given event.planCode).bind (findPlanByCode deployment)

def NamesHostedPlan (event : BillingWebhookEvent) : Prop :=
  ∃ plan ∈ planOf deployment event, plan.hosting = .cloud

/-- An ACTIVE row of the owner for the subscription. -/
def HoldsRow (store : SubscriptionStore) : Prop :=
  ∃ row ∈ store.rows, row.userId = owner ∧ row.status = .active ∧
    row.providerSubscriptionId = some subscriptionId

def HoldsDefault (store : SubscriptionStore) (plan : SubscriptionPlan) : Prop :=
  isPaidPlan plan = true ∧ ∃ user ∈ store.users, user.id = owner ∧ user.defaultPlanId = some plan.id

/-- The owner has an ACTIVE row for the subscription, or the paid plan of the delivery as default. -/
def Entitled (store : SubscriptionStore) (event : BillingWebhookEvent) : Prop :=
  HoldsRow owner subscriptionId store ∨
  ∃ plan ∈ planOf deployment event, HoldsDefault owner store plan

instance (run : PlanRun) (delivery : PlanDelivery) :
    Decidable (run.About deployment owner subscriptionId delivery) :=
  inferInstanceAs (Decidable (_ ∧ _))

instance (run : PlanRun) (delivery : PlanDelivery) : Decidable (run.Stale delivery) :=
  inferInstanceAs (Decidable (_ ∧ _))

instance (event : BillingWebhookEvent) : Decidable (NamesHostedPlan deployment event) :=
  inferInstanceAs (Decidable (∃ plan ∈ planOf deployment event, plan.hosting = .cloud))

instance (store : SubscriptionStore) : Decidable (HoldsRow owner subscriptionId store) :=
  inferInstanceAs (Decidable (∃ row ∈ store.rows, _))

instance (store : SubscriptionStore) (plan : SubscriptionPlan) :
    Decidable (HoldsDefault owner store plan) :=
  inferInstanceAs (Decidable (_ ∧ ∃ user ∈ store.users, _))

instance (store : SubscriptionStore) (event : BillingWebhookEvent) :
    Decidable (Entitled deployment owner subscriptionId store event) :=
  inferInstanceAs (Decidable (_ ∨ ∃ plan ∈ planOf deployment event, _))

end Run

section Operations

variable {deployment : Deployment} {store : SubscriptionStore} {userId : String}

theorem findActiveByUser_some {row : UserSubscription}
    (found : findActiveByUser deployment store userId = some row) :
    row ∈ store.rows ∧ row.userId = userId ∧ row.status = .active := by
  have member := deployment.findOne.pick_mem found
  simpa using member

variable {now : Int} {input : PlanActivation} {plan : SubscriptionPlan}

theorem assignPlanToUser_rows {code : SubscriptionPlanCode} :
    (assignPlanToUser deployment store userId code).rows = store.rows := by
  unfold assignPlanToUser
  split <;> rfl

theorem activateHosted_rows :
    (activateHosted deployment store now input plan).rows =
      (createOrUpdate deployment store input.userId
        { id := store.rows.length, userId := input.userId, planCode := plan.code,
          planId := plan.id, status := .active }
        (input.patch deployment now plan (findActiveByUser deployment store input.userId)
          (findUser store input.userId))).rows := by
  unfold activateHosted
  dsimp only
  split
  · unfold updateSubscriptionState
    dsimp only
    split
    · exact assignPlanToUser_rows
    · rfl
  · split
    · exact assignPlanToUser_rows
    · rfl

variable (deployment store now input plan) in
theorem activateHosted_holds :
    ∃ row ∈ (activateHosted deployment store now input plan).rows,
      row.userId = input.userId ∧ row.status = .active ∧
      row.providerSubscriptionId = input.providerSubscriptionId := by
  rw [activateHosted_rows]
  unfold createOrUpdate
  split
  · rename_i existing found
    obtain ⟨member, owned, -⟩ := findActiveByUser_some found
    refine ⟨_, Table.mem_update.mpr ⟨existing, member, Or.inl ⟨rfl, rfl⟩⟩, ?_, rfl, rfl⟩
    exact owned
  · refine ⟨_, mem_append_right _ (mem_singleton_self _), ?_, rfl, rfl⟩
    rfl

theorem recordLicence_frame :
    (recordLicence deployment store input plan).1.rows = store.rows ∧
    (recordLicence deployment store input plan).1.users = store.users := by
  unfold recordLicence
  split
  · exact ⟨rfl, rfl⟩
  · split
    · unfold recordPurchase
      split <;> exact ⟨rfl, rfl⟩
    · exact ⟨rfl, rfl⟩

variable (deployment store now input) in
theorem activate_cases :
    (∃ plan ∈ (given input.planCode).bind (findPlanByCode deployment), plan.hosting = .cloud ∧
      activate deployment store now input =
        (activateHosted deployment store now input plan, true)) ∨
    ((¬ ∃ plan ∈ (given input.planCode).bind (findPlanByCode deployment), plan.hosting = .cloud) ∧
      (activate deployment store now input).1.rows = store.rows ∧
      (activate deployment store now input).1.users = store.users) := by
  unfold activate
  cases found : (given input.planCode).bind (findPlanByCode deployment) with
  | none => exact Or.inr ⟨by simp, rfl, rfl⟩
  | some plan =>
    cases hosting : plan.hosting with
    | cloud => exact Or.inl ⟨plan, rfl, hosting, by simp [hosting]⟩
    | selfhosted =>
      refine Or.inr ⟨by simp [hosting], ?_⟩
      simpa [hosting] using recordLicence_frame

end Operations

section Stale

variable {deployment : Deployment} {owner subscriptionId : String} {run : PlanRun}
  {delivery : PlanDelivery}

theorem PlanRun.deliver_activated (kind : delivery.event.kind = .subscriptionActivated)
    (attributed : resolveUserId deployment run.store delivery.event = some owner) :
    run.deliver deployment delivery =
      ⟨(activate deployment run.store delivery.deliveredAt (delivery.event.activation owner)).1,
        run.cancellations⟩ := by
  unfold PlanRun.deliver PlanDelivery.outcome applyWebhook
  simp only [attributed, kind]
  split
  · rename_i applied
    split at applied <;> cases applied
  · rfl

theorem PlanRun.not_entitled_iff (about : run.About deployment owner subscriptionId delivery)
    (kind : delivery.event.kind = .subscriptionActivated) :
    ¬ Entitled deployment owner subscriptionId (run.deliver deployment delivery).store
        delivery.event ↔
      ¬ NamesHostedPlan deployment delivery.event ∧
        ¬ Entitled deployment owner subscriptionId run.store delivery.event := by
  obtain ⟨-, ofSubscription, attributed⟩ := about
  rw [PlanRun.deliver_activated kind attributed]
  obtain ⟨plan, named, hosted, activated⟩ | ⟨unnamed, rows, users⟩ :=
    activate_cases deployment run.store delivery.deliveredAt (delivery.event.activation owner)
  · rw [activated]
    have holds : HoldsRow owner subscriptionId (activateHosted deployment run.store
        delivery.deliveredAt (delivery.event.activation owner) plan) := by
      obtain ⟨row, member, owned, active, under⟩ := activateHosted_holds deployment run.store
        delivery.deliveredAt (delivery.event.activation owner) plan
      exact ⟨row, member, owned, active, under.trans ofSubscription⟩
    constructor
    · intro revoked
      exact absurd (Or.inl holds) revoked
    · rintro ⟨unnamed, -⟩
      exact absurd ⟨plan, named, hosted⟩ unnamed
  · unfold Entitled HoldsRow HoldsDefault
    rw [rows, users]
    exact ⟨fun revoked => ⟨unnamed, revoked⟩, fun revoked => revoked.2⟩

end Stale

/-- **A cancelled subscription stays cancelled.** In every run of deliveries about one subscription of
one owner, no stale activation leaves the owner with the plan exactly when none names a hosted plan
and none finds the owner with it. -/
theorem revocation_lasts (deployment : Deployment) (owner subscriptionId : String)
    (start : SubscriptionStore) (deliveries : List PlanDelivery)
    (about : Along (PlanRun.deliver deployment)
      (fun run delivery => run.About deployment owner subscriptionId delivery)
      { store := start } deliveries) :
    Along (PlanRun.deliver deployment)
      (fun run delivery => run.Stale delivery →
        ¬ Entitled deployment owner subscriptionId (run.deliver deployment delivery).store
          delivery.event) { store := start } deliveries ↔
    Along (PlanRun.deliver deployment)
      (fun run delivery => run.Stale delivery →
        ¬ NamesHostedPlan deployment delivery.event ∧
        ¬ Entitled deployment owner subscriptionId run.store delivery.event)
      { store := start } deliveries := by
  refine along_congr ?_ about
  intro run delivery about
  constructor
  · intro lasts stale
    exact (PlanRun.not_entitled_iff about stale.1).mp (lasts stale)
  · intro harmless stale
    exact (PlanRun.not_entitled_iff about stale.1).mpr (harmless stale)

def firstMatch : FindOne where
  pick := head?
  pick_mem := mem_of_head?
  pick_nil := by
    intro rows none
    exact head?_eq_none_iff.mp none

def cloudDeployment : Deployment where
  enabled := true
  providerId := "stripe"
  plans := [⟨"p0", .free, .cloud, some 0⟩, ⟨"p1", .standard, .cloud, some 4900⟩]
  findOne := firstMatch

def freeOwner : SubscriptionStore where
  users := [{ id := "u", defaultPlanId := some "p0" }]

def activated (id : String) (emittedAt deliveredAt : Int) : PlanDelivery where
  event := {
    id := id
    kind := .subscriptionActivated
    referenceId := some "u:checkout"
    planCode := some "standard"
    subscriptionId := some "sub" }
  emittedAt := emittedAt
  deliveredAt := deliveredAt

def canceled (id : String) (emittedAt deliveredAt : Int) : PlanDelivery where
  event := { id := id, kind := .subscriptionCanceled, subscriptionId := some "sub" }
  emittedAt := emittedAt
  deliveredAt := deliveredAt

/-- The activation, the cancellation, and the activation delivered once more. -/
theorem revoked_by_replay :
    ¬ ∀ (deployment : Deployment) (owner subscriptionId : String) (start : SubscriptionStore)
      (deliveries : List PlanDelivery),
      Along (PlanRun.deliver deployment)
        (fun run delivery => run.About deployment owner subscriptionId delivery)
        { store := start } deliveries →
      Along (PlanRun.deliver deployment)
        (fun run delivery => run.Stale delivery →
          ¬ Entitled deployment owner subscriptionId (run.deliver deployment delivery).store
            delivery.event) { store := start } deliveries := by
  intro claim
  have lasts := claim cloudDeployment "u" "sub" freeOwner
    [activated "evt_1" 1 1, canceled "evt_2" 2 2, activated "evt_1" 1 3] (by decide)
  exact absurd lasts (by decide)

def unplanned : PlanDelivery :=
  { activated "evt_0" 0 3 with event := { (activated "evt_0" 0 3).event with planCode := none } }

theorem revocation_lasts_unplanned :
    Along (PlanRun.deliver cloudDeployment)
      (fun run delivery => run.Stale delivery →
        ¬ Entitled cloudDeployment "u" "sub" (run.deliver cloudDeployment delivery).store
          delivery.event)
      { store := freeOwner } [activated "evt_1" 1 1, canceled "evt_2" 2 2, unplanned] :=
  (revocation_lasts cloudDeployment "u" "sub" freeOwner
    [activated "evt_1" 1 1, canceled "evt_2" 2 2, unplanned] (by decide)).mpr (by decide)

section Invariant

variable {deployment : Deployment} {owner subscriptionId : String}

variable {run : PlanRun} {delivery : PlanDelivery}

end Invariant

end EverWorks.Subscriptions
