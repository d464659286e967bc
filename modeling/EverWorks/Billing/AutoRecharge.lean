import EverWorks.Credits.RefundConvergence
import EverWorks.Credits.Settlement

/-!
# Auto-recharge

`AutoRechargeService.maybeRecharge` reads the profile and the balance, claims the in-flight slot and charges;
`BillingService.applyPurchase` records a payment and releases the slot.
-/

namespace EverWorks.Billing
open Lib Credits List

structure CreditPack where
  id : String
  priceCents : Int
  credits : Int
  currency : String
  label : String
  deriving DecidableEq

def defaultAutoRechargePack : CreditPack :=
  ⟨"credits-1000", 1000, 1000, "usd", "1,000 credits"⟩

def creditPacks : List CreditPack :=
  [defaultAutoRechargePack, ⟨"credits-5500", 5000, 5500, "usd", "5,500 credits"⟩,
   ⟨"credits-25000", 20000, 25000, "usd", "25,000 credits"⟩]

def findCreditPack (packId : Option String) : Option CreditPack :=
  packId.bind fun id => if id = "" then none else creditPacks.find? fun pack => pack.id = id

structure BillingProfile where
  userId : String
  providerCustomerId : Option String := none
  defaultPaymentMethodRef : Option String := none
  autoRechargeEnabled : Bool := false
  autoRechargeThresholdCredits : Option Int := none
  autoRechargePackId : Option String := none
  autoRechargeInFlightKey : Option String := none
  autoRechargeInFlightAt : Option Int := none
  autoRechargeFailureCount : Nat := 0
  autoRechargeLastFailureAt : Option Int := none
  deriving DecidableEq

inductive AutoRechargeOutcome where
  | disabled
  | aboveThreshold (balanceCredits : Int)
  | alreadyInFlight
  | charged (paymentId packId : String)
  | pending (paymentId packId : String)
  | failed (failureCode : Option String)
  deriving DecidableEq

inductive ChargeAnswer where
  | succeeded (paymentId : String)
  | pending (paymentId : String)
  | lost (paymentId : Option String)
  | failed (failureCode : Option String)
  deriving DecidableEq

/-- A payment the provider took up, under the key the request carried. -/
structure OffSessionCharge where
  paymentId : String
  idempotencyKey : String
  deriving DecidableEq

/-- Where a call of `maybeRecharge` stands. The last two numbers of a claim are the balance that was
read and, once the slot is won, the balance at that moment. -/
inductive RechargeCall where
  | readProfile (now : Int)
  | readBalance (now : Int)
  | claim (now balanceCredits : Int)
  | charge (now : Int) (claimKey : String) (balanceAtClaim : Int)
  | recordFailure (now : Int) (failureCode : Option String)
  | done (outcome : AutoRechargeOutcome)
  deriving DecidableEq

structure PurchaseEvent where
  id : String
  paymentId : Option String
  packId : Option String
  amountCents : Option Int
  deriving DecidableEq

inductive PurchaseDelivery where
  | record (event : PurchaseEvent)
  | release
  | reset
  | done
  deriving DecidableEq

structure RechargeState where
  profile : BillingProfile
  rows : Rows := []
  charges : List OffSessionCharge := []
  calls : List RechargeCall := []
  deliveries : List PurchaseDelivery := []

inductive RechargeEvent where
  | maybeRecharge (now : Int)
  /-- The next step of a call, at the instant `clock`, with the provider's answer if it charges. -/
  | turn (call : Nat) (clock : Int) (answer : ChargeAnswer)
  | purchase (event : PurchaseEvent)
  | deliver (delivery : Nat) (clock : Int)
  | ledger (call : LedgerCall)

def BillingProfile.threshold (profile : BillingProfile) : Option Int :=
  if profile.autoRechargeEnabled ∧ profile.defaultPaymentMethodRef.any (· ≠ "") ∧
      profile.providerCustomerId.any (· ≠ "") then
    profile.autoRechargeThresholdCredits.filter (0 ≤ ·)
  else none

def BillingProfile.pack (profile : BillingProfile) : CreditPack :=
  (findCreditPack profile.autoRechargePackId).getD defaultAutoRechargePack

def claimKey (profile : BillingProfile) (now : Int) : String :=
  "auto:" ++ profile.userId ++ ":" ++ profile.pack.id ++ ":" ++ toString now

/-- `UPDATE … WHERE autoRechargeInFlightKey IS NULL`, and whether it hit. -/
def claimAutoRechargeSlot (profile : BillingProfile) (key : String) (now : Int) :
    BillingProfile × Bool :=
  if profile.autoRechargeInFlightKey.isNone then
    ({ profile with autoRechargeInFlightKey := some key, autoRechargeInFlightAt := some now }, true)
  else (profile, false)

def releaseAutoRechargeSlot (profile : BillingProfile) : BillingProfile :=
  { profile with autoRechargeInFlightKey := none, autoRechargeInFlightAt := none }

def recordAutoRechargeFailure (profile : BillingProfile) (now : Int) : BillingProfile :=
  { profile with
    autoRechargeFailureCount := profile.autoRechargeFailureCount + 1
    autoRechargeInFlightKey := none
    autoRechargeInFlightAt := none
    autoRechargeLastFailureAt := some now }

def resetAutoRechargeFailures (profile : BillingProfile) : BillingProfile :=
  { profile with autoRechargeFailureCount := 0, autoRechargeLastFailureAt := none }

def takeUp (charges : List OffSessionCharge) (key : String) : ChargeAnswer → List OffSessionCharge
  | .succeeded paymentId | .pending paymentId | .lost (some paymentId) =>
    if charges.any fun charge => charge.idempotencyKey = key then charges
    else charges ++ [⟨paymentId, key⟩]
  | .lost none | .failed _ => charges

def afterCharge (now : Int) (pack : CreditPack) : ChargeAnswer → RechargeCall
  | .succeeded paymentId => .done (.charged paymentId pack.id)
  | .pending paymentId => .done (.pending paymentId pack.id)
  | .lost _ => .done (.pending "" pack.id)
  | .failed failureCode => .recordFailure now failureCode

def RechargeState.advance (state : RechargeState) (i : Nat) (call : RechargeCall) : RechargeState :=
  { state with calls := state.calls.set i call }

def RechargeState.turn (configured : Bool) (state : RechargeState) (i : Nat) (clock : Int)
    (answer : ChargeAnswer) : RechargeCall → RechargeState
  | .readProfile now =>
    match state.profile.threshold with
    | none => state.advance i (.done .disabled)
    | some _ =>
      if configured = false then state.advance i (.done .disabled)
      else if (state.profile.autoRechargeInFlightKey.any (· ≠ "")) then
        state.advance i (.done .alreadyInFlight)
      else state.advance i (.readBalance now)
  | .readBalance now =>
    let balanceCredits := getBalance state.rows clock
    match state.profile.threshold with
    | none => state.advance i (.done .disabled)
    | some threshold =>
      if threshold ≤ balanceCredits then state.advance i (.done (.aboveThreshold balanceCredits))
      else state.advance i (.claim now balanceCredits)
  | .claim now _ =>
    let key := claimKey state.profile now
    let claimed := claimAutoRechargeSlot state.profile key now
    if claimed.2 then
      { state with
        profile := claimed.1
        calls := state.calls.set i (.charge now key (getBalance state.rows clock)) }
    else state.advance i (.done .alreadyInFlight)
  | .charge now key _ =>
    { state with
      charges := takeUp state.charges key answer
      calls := state.calls.set i (afterCharge now state.profile.pack answer) }
  | .recordFailure now failureCode =>
    { state with
      profile := recordAutoRechargeFailure state.profile now
      calls := state.calls.set i (.done (.failed failureCode)) }
  | .done _ => state

def purchaseWrite (provider : BillingProviderId) (event : PurchaseEvent) (pack : CreditPack) :
    CreditLedgerWrite where
  kind := .purchase
  amountCredits := pack.credits
  costCentsRef := some (event.amountCents.getD pack.priceCents)
  refType := some billingPaymentRefType
  refId := event.paymentId
  description := some ("Credit top-up — " ++ pack.label)
  idempotencyKey := some (eventKey provider event.id)

/-- One step of `applyPurchase`; an event with an unknown pack is ignored. -/
def RechargeState.deliver (provider : BillingProviderId) (state : RechargeState) (i : Nat)
    (clock : Int) : PurchaseDelivery → RechargeState
  | .record event =>
    match findCreditPack event.packId with
    | none => { state with deliveries := state.deliveries.set i .done }
    | some pack =>
      let tx := record state.rows (purchaseWrite provider event pack) false clock
      { state with rows := tx.rows, deliveries := state.deliveries.set i .release }
  | .release =>
    { state with
      profile := releaseAutoRechargeSlot state.profile
      deliveries := state.deliveries.set i .reset }
  | .reset =>
    { state with
      profile := resetAutoRechargeFailures state.profile
      deliveries := state.deliveries.set i .done }
  | .done => state

def RechargeState.step (provider : BillingProviderId) (configured : Bool) (state : RechargeState) :
    RechargeEvent → RechargeState
  | .maybeRecharge now => { state with calls := state.calls ++ [.readProfile now] }
  | .turn i clock answer =>
    match state.calls[i]? with
    | some call => state.turn configured i clock answer call
    | none => state
  | .purchase event => { state with deliveries := state.deliveries ++ [.record event] }
  | .deliver i clock =>
    match state.deliveries[i]? with
    | some delivery => state.deliver provider i clock delivery
    | none => state
  | .ledger call => { state with rows := (LedgerState.step { rows := state.rows } call).rows }

def RechargeCall.holds : RechargeCall → Bool
  | .charge _ _ _ | .recordFailure _ _ => true
  | _ => false

def resolved (rows : Rows) (charge : OffSessionCharge) : Bool :=
  rows.any (ofPayment billingPaymentRefType charge.paymentId .purchase)

def RechargeState.settled (state : RechargeState) : Bool :=
  state.charges.all (resolved state.rows)

/-- A step that charges does so with every earlier charge resolved, and after a claim made below
the threshold. -/
def RechargeState.lawful (state : RechargeState) : RechargeEvent → Bool
  | .turn i _ _ =>
    match state.calls[i]? with
    | some (.charge _ _ balanceAtClaim) => state.settled &&
        state.profile.threshold.any fun threshold => balanceAtClaim < threshold
    | _ => true
  | _ => true

/-- A purchase releases the slot only when no call holds it and no charge is unresolved, and the
balance has not risen between the read and a claim that wins. -/
def RechargeState.orderly (state : RechargeState) : RechargeEvent → Bool
  | .turn i clock _ =>
    match state.calls[i]? with
    | some (.claim _ balanceCredits) => state.profile.autoRechargeInFlightKey.isSome ||
        getBalance state.rows clock ≤ balanceCredits
    | _ => true
  | .deliver i _ =>
    match state.deliveries[i]? with
    | some .release => state.settled && state.calls.all fun call => !call.holds
    | _ => true
  | _ => true

def RechargeCall.Below (profile : BillingProfile) : RechargeCall → Prop
  | .claim _ balance | .charge _ _ balance =>
    ∃ threshold, profile.threshold = some threshold ∧ balance < threshold
  | _ => True

structure RechargeState.Guarded (state : RechargeState) : Prop where
  free : state.profile.autoRechargeInFlightKey = none →
    (∀ call ∈ state.calls, call.holds = false) ∧ state.settled = true
  held : ∀ call ∈ state.calls, call.holds = true → state.settled = true
  unique : ∀ (i j : Nat) (a b : RechargeCall), state.calls[i]? = some a → state.calls[j]? = some b →
    a.holds = true → b.holds = true → i = j
  below : ∀ call ∈ state.calls, call.Below state.profile

theorem resolved_mono {rows rows' : Rows} (grows : rows.map movement <+: rows'.map movement)
    {charge : OffSessionCharge} (before : resolved rows charge = true) :
    resolved rows' charge = true := by
  unfold resolved at before ⊢
  rw [any_eq_true] at before ⊢
  obtain ⟨row, member, payment⟩ := before
  obtain ⟨kept, present, same⟩ := mem_map.mp (grows.subset (mem_map_of_mem member))
  refine ⟨kept, present, ?_⟩
  rw [← ofPayment_movement, same, ofPayment_movement]
  exact payment

variable {state : RechargeState}

theorem RechargeState.settled_mono {rows' : Rows}
    (grows : state.rows.map movement <+: rows'.map movement) (before : state.settled = true) :
    state.charges.all (resolved rows') = true := by
  unfold RechargeState.settled at before
  rw [all_eq_true] at before ⊢
  exact fun charge member => resolved_mono grows (before charge member)

theorem grows_of_appends {rows rows' posted : Rows} (appends : Appends rows rows' posted) :
    rows.map movement <+: rows'.map movement := by
  obtain ⟨expiries, appended, -⟩ := appends
  rw [appended, append_assoc]
  exact prefix_append _ _

theorem RechargeState.Guarded.rows (guarded : state.Guarded) {rows' : Rows}
    (grows : state.rows.map movement <+: rows'.map movement) (deliveries : List PurchaseDelivery) :
    RechargeState.Guarded { state with rows := rows', deliveries } where
  free := fun none_ => ⟨(guarded.free none_).1, state.settled_mono grows (guarded.free none_).2⟩
  held := fun call member holds => state.settled_mono grows (guarded.held call member holds)
  unique := guarded.unique
  below := guarded.below

variable {call : RechargeCall}

variable {i : Nat}

theorem RechargeState.Guarded.advance (guarded : state.Guarded)
    (idle : call.holds = false) (below : call.Below state.profile) :
    (state.advance i call).Guarded := by
  have cases_of : ∀ c ∈ state.calls.set i call, c ∈ state.calls ∨ c = call :=
    fun c member => mem_or_eq_of_mem_set member
  have holder : ∀ (j : Nat) (c : RechargeCall), (state.calls.set i call)[j]? = some c → c.holds = true →
      state.calls[j]? = some c := by
    intro j c read holds
    rw [getElem?_set] at read
    split at read
    · split at read
      · rw [← Option.some.inj read, idle] at holds
        cases holds
      · cases read
    · exact read
  constructor
  · intro none_
    refine ⟨?_, (guarded.free none_).2⟩
    intro c member
    rcases cases_of c member with old | rfl
    · exact (guarded.free none_).1 c old
    · exact idle
  · intro c member holds
    rcases cases_of c member with old | rfl
    · exact guarded.held c old holds
    · rw [idle] at holds
      cases holds
  · intro j k a b readA readB holdsA holdsB
    exact guarded.unique j k a b (holder j a readA holdsA) (holder k b readB holdsB) holdsA holdsB
  · intro c member
    rcases cases_of c member with old | rfl
    · exact guarded.below c old
    · exact below

theorem RechargeState.Guarded.only (guarded : state.Guarded)
    (read : state.calls[i]? = some call) (holds : call.holds = true)
    (next : RechargeCall) :
    ∀ (j : Nat) (c : RechargeCall), (state.calls.set i next)[j]? = some c → c.holds = true → j = i := by
  intro j c found held
  rw [getElem?_set] at found
  split at found
  · rename_i same
    exact same.symm
  · exact guarded.unique j i c call found read held holds

theorem RechargeState.Guarded.charged (guarded : state.Guarded)
    (read : state.calls[i]? = some call) (holds : call.holds = true)
    (charges : List OffSessionCharge) (outcome : AutoRechargeOutcome) :
    RechargeState.Guarded
      { state with charges, calls := state.calls.set i (.done outcome) } := by
  have member := mem_of_getElem? read
  have none_holds : ∀ (j : Nat) (c : RechargeCall), (state.calls.set i (.done outcome))[j]? = some c →
      c.holds = false := by
    intro j c found
    by_contra held
    rw [Bool.not_eq_false] at held
    have same := guarded.only read holds _ j c found held
    rw [same, getElem?_set_self (List.getElem?_eq_some_iff.mp read).1] at found
    rw [← Option.some.inj found] at held
    cases held
  constructor
  · intro none_
    have idle := (guarded.free none_).1 call member
    rw [holds] at idle
    cases idle
  · intro c inside held
    obtain ⟨j, found⟩ := getElem?_of_mem inside
    rw [none_holds j c found] at held
    cases held
  · intro j k a b readA readB holdsA _
    rw [none_holds j a readA] at holdsA
    cases holdsA
  · intro c inside
    rcases mem_or_eq_of_mem_set inside with old | rfl
    · exact guarded.below c old
    · trivial

theorem RechargeState.Guarded.keeps (guarded : state.Guarded)
    {call next : RechargeCall} (read : state.calls[i]? = some call) (holds : call.holds = true)
    (below : next.Below state.profile) : (state.advance i next).Guarded := by
  have member := mem_of_getElem? read
  have settled := guarded.held call member holds
  have only := guarded.only read holds next
  constructor
  · intro none_
    have idle := (guarded.free none_).1 call member
    rw [holds] at idle
    cases idle
  · exact fun _ _ _ => settled
  · intro j k a b readA readB holdsA holdsB
    exact (only j a readA holdsA).trans (only k b readB holdsB).symm
  · intro c inside
    rcases mem_or_eq_of_mem_set inside with old | rfl
    · exact guarded.below c old
    · exact below

theorem claimed_iff {profile : BillingProfile} {key : String} {now : Int} :
    (claimAutoRechargeSlot profile key now).2 = true ↔ profile.autoRechargeInFlightKey = none := by
  unfold claimAutoRechargeSlot
  cases profile.autoRechargeInFlightKey with
  | none => simp
  | some key => simp

theorem claimed_threshold (profile : BillingProfile) (key : String) (now : Int) :
    (claimAutoRechargeSlot profile key now).1.threshold = profile.threshold := by
  unfold claimAutoRechargeSlot
  split
  · rfl
  · rfl

theorem below_of_threshold {profile profile' : BillingProfile}
    (same : profile'.threshold = profile.threshold)
    (below : call.Below profile) : call.Below profile' := by
  unfold RechargeCall.Below at below ⊢
  rw [same]
  exact below

theorem RechargeState.turn_guarded {configured : Bool}
    (guarded : state.Guarded) {clock : Int} {answer : ChargeAnswer}
    (read : state.calls[i]? = some call)
    (orderly : state.orderly (.turn i clock answer) = true) :
    (state.turn configured i clock answer call).Guarded := by
  have member := mem_of_getElem? read
  cases call with
  | readProfile now =>
    unfold RechargeState.turn
    dsimp only
    split
    · exact guarded.advance rfl trivial
    · split
      · exact guarded.advance rfl trivial
      · split
        · exact guarded.advance rfl trivial
        · exact guarded.advance rfl trivial
  | readBalance now =>
    unfold RechargeState.turn
    dsimp only
    split
    · exact guarded.advance rfl trivial
    · rename_i threshold settings
      split
      · exact guarded.advance rfl trivial
      · rename_i short
        exact guarded.advance rfl ⟨threshold, settings, not_le.mp short⟩
  | claim now balanceCredits =>
    unfold RechargeState.turn
    dsimp only
    split
    · rename_i won
      have free := claimed_iff.mp won
      obtain ⟨idle, settled⟩ := guarded.free free
      have steady : getBalance state.rows clock ≤ balanceCredits := by
        simpa [RechargeState.orderly, read, free] using orderly
      obtain ⟨threshold, settings, short⟩ := guarded.below _ member
      have below : (RechargeCall.charge now (claimKey state.profile now)
          (getBalance state.rows clock)).Below state.profile :=
        ⟨threshold, settings, by omega⟩
      have own : ∀ (j : Nat) (c : RechargeCall), (state.calls.set i (.charge now
          (claimKey state.profile now) (getBalance state.rows clock)))[j]? = some c →
          c.holds = true → j = i := by
        intro j c found holds
        rw [getElem?_set] at found
        split at found
        · rename_i same
          exact same.symm
        · rw [idle c (mem_of_getElem? found)] at holds
          cases holds
      constructor
      · intro none_
        unfold claimAutoRechargeSlot at none_
        rw [free] at none_
        simp at none_
      · exact fun _ _ _ => settled
      · intro j k a b readA readB holdsA holdsB
        exact (own j a readA holdsA).trans (own k b readB holdsB).symm
      · intro c inside
        refine below_of_threshold (claimed_threshold state.profile _ now) ?_
        rcases mem_or_eq_of_mem_set inside with old | rfl
        · exact guarded.below c old
        · exact below
    · exact guarded.advance rfl trivial
  | charge now key balanceAtClaim =>
    cases answer with
    | succeeded paymentId => exact guarded.charged read rfl _ _
    | pending paymentId => exact guarded.charged read rfl _ _
    | lost paymentId => exact guarded.charged read rfl _ _
    | failed failureCode => exact guarded.keeps read rfl trivial
  | recordFailure now failureCode =>
    have settled := guarded.held _ member rfl
    have released := guarded.charged read rfl state.charges (.failed failureCode)
    refine ⟨fun _ => ⟨?_, settled⟩, released.held, released.unique, ?_⟩
    · intro c inside
      by_contra held
      rw [Bool.not_eq_false] at held
      obtain ⟨j, found⟩ := getElem?_of_mem inside
      have same := guarded.only read rfl _ j c found held
      rw [same] at found
      have last : (state.calls.set i (.done (.failed failureCode)))[i]? =
          some (.done (.failed failureCode)) :=
        getElem?_set_self (List.getElem?_eq_some_iff.mp read).1
      rw [← Option.some.inj (last.symm.trans found)] at held
      cases held
    · exact fun c inside => below_of_threshold rfl (released.below c inside)
  | done outcome => exact guarded

theorem RechargeState.deliver_guarded {provider : BillingProviderId}
    (guarded : state.Guarded) {clock : Int} {delivery : PurchaseDelivery}
    (read : state.deliveries[i]? = some delivery)
    (orderly : state.orderly (.deliver i clock) = true) :
    (state.deliver provider i clock delivery).Guarded := by
  cases delivery with
  | record event =>
    unfold RechargeState.deliver
    dsimp only
    split
    · exact guarded.rows prefix_rfl _
    · rename_i pack known
      obtain ⟨posted, appends, -⟩ := LedgerState.step_appends { rows := state.rows }
        { op := .recordAtomic (purchaseWrite provider event pack)
            { minBalanceAfter := if (purchaseWrite provider event pack).amountCredits < 0 ∧
              false = false then some 0 else none }
          now := clock }
      exact guarded.rows (grows_of_appends appends) _
  | release =>
    have allowed : state.settled = true ∧ ∀ call ∈ state.calls, call.holds = false := by
      simpa [RechargeState.orderly, read] using orderly
    refine ⟨fun _ => ⟨allowed.2, allowed.1⟩, guarded.held, guarded.unique, ?_⟩
    exact fun c inside => below_of_threshold rfl (guarded.below c inside)
  | reset =>
    refine ⟨guarded.free, guarded.held, guarded.unique, ?_⟩
    exact fun c inside => below_of_threshold rfl (guarded.below c inside)
  | done => exact guarded

theorem RechargeState.step_guarded {provider : BillingProviderId} {configured : Bool}
    (guarded : state.Guarded) {event : RechargeEvent}
    (orderly : state.orderly event = true) : (state.step provider configured event).Guarded := by
  cases event with
  | maybeRecharge now =>
    have cases_of : ∀ c ∈ state.calls ++ [RechargeCall.readProfile now],
        c ∈ state.calls ∨ c = .readProfile now := by
      intro c inside
      rcases mem_append.mp inside with old | new
      · exact Or.inl old
      · exact Or.inr (mem_singleton.mp new)
    constructor
    · intro none_
      refine ⟨?_, (guarded.free none_).2⟩
      intro c inside
      rcases cases_of c inside with old | rfl
      · exact (guarded.free none_).1 c old
      · rfl
    · intro c inside holds
      rcases cases_of c inside with old | rfl
      · exact guarded.held c old holds
      · cases holds
    · intro j k a b readA readB holdsA holdsB
      have earlier : ∀ (n : Nat) (c : RechargeCall), (state.calls ++ [RechargeCall.readProfile now])[n]? =
          some c → c.holds = true → state.calls[n]? = some c := by
        intro n c found holds
        rw [getElem?_append] at found
        split at found
        · exact found
        · rw [mem_singleton.mp (mem_of_getElem? found)] at holds
          cases holds
      exact guarded.unique j k a b (earlier j a readA holdsA) (earlier k b readB holdsB) holdsA holdsB
    · intro c inside
      rcases cases_of c inside with old | rfl
      · exact guarded.below c old
      · trivial
  | turn i clock answer =>
    unfold RechargeState.step
    dsimp only
    split
    · rename_i call read
      exact RechargeState.turn_guarded guarded read orderly
    · exact guarded
  | purchase event => exact guarded.rows prefix_rfl _
  | deliver i clock =>
    unfold RechargeState.step
    dsimp only
    split
    · rename_i delivery read
      exact RechargeState.deliver_guarded guarded read orderly
    · exact guarded
  | ledger call =>
    obtain ⟨posted, appends, -⟩ := LedgerState.step_appends { rows := state.rows } call
    exact guarded.rows (grows_of_appends appends) _

theorem RechargeState.Guarded.lawful (guarded : state.Guarded)
    (event : RechargeEvent) : state.lawful event = true := by
  cases event with
  | turn i clock answer =>
    unfold RechargeState.lawful
    dsimp only
    split
    · rename_i now key balanceAtClaim read
      have member := mem_of_getElem? read
      obtain ⟨threshold, settings, below⟩ := guarded.below _ member
      rw [guarded.held _ member rfl, settings]
      exact decide_eq_true below
    · rfl
  | maybeRecharge now => rfl
  | purchase event => rfl
  | deliver i clock => rfl
  | ledger call => rfl

/-- **At most one recharge for each crossing.** From a profile nothing was charged for, in every run of orderly steps each charge is placed with every earlier one resolved and after a
claim made below the threshold. -/
theorem recharges_lawfully (provider : BillingProviderId) (configured : Bool)
    (start : RechargeState) (uncharged : start.charges = []) (none_open : start.calls = []) (history : List RechargeEvent)
    (orderly : Along (RechargeState.step provider configured)
      (fun state event => state.orderly event = true) start history) :
    Along (RechargeState.step provider configured) (fun state event => state.lawful event = true)
      start history := by
  have starting : start.Guarded := by
    constructor
    · intro _
      refine ⟨by rw [none_open]; simp, ?_⟩
      unfold RechargeState.settled
      rw [uncharged]
      rfl
    · rw [none_open]
      simp
    · rw [none_open]
      simp
    · rw [none_open]
      simp
  clear uncharged none_open
  induction history generalizing start with
  | nil => trivial
  | cons event rest ih =>
    exact ⟨starting.lawful event,
      ih _ orderly.2 (RechargeState.step_guarded starting orderly.1)⟩

def rechargingOwner : RechargeState where
  profile := {
    userId := "u"
    providerCustomerId := some "cus"
    defaultPaymentMethodRef := some "pm"
    autoRechargeEnabled := true
    autoRechargeThresholdCredits := some 5000 }

/-- A recharge is placed and pending; a top-up bought by hand arrives and releases the slot; the next
call finds the balance still below the threshold. -/
def toppedUpByHand : List RechargeEvent :=
  [.maybeRecharge 0, .turn 0 0 (.lost none), .turn 0 0 (.lost none), .turn 0 0 (.lost none),
   .turn 0 0 (.pending "pi_auto"),
   .purchase ⟨"evt", some "pi_manual", some "credits-1000", some 1000⟩, .deliver 0 1, .deliver 0 1,
   .maybeRecharge 2, .turn 1 2 (.lost none), .turn 1 2 (.lost none), .turn 1 2 (.lost none),
   .turn 1 2 (.pending "pi_second")]

/-- The second charge is placed while the first is unresolved. -/
theorem recharges_twice :
    ¬ ∀ (provider : BillingProviderId) (configured : Bool) (start : RechargeState),
      start.charges = [] → start.calls = [] → ∀ history : List RechargeEvent,
      Along (RechargeState.step provider configured)
        (fun state event => state.lawful event = true) start history := by
  intro claim
  exact absurd (claim .stripe true rechargingOwner rfl rfl toppedUpByHand) (by decide)

theorem recharges_lawfully_once :
    Along (RechargeState.step .stripe true) (fun state event => state.lawful event = true)
      rechargingOwner (toppedUpByHand.take 7) :=
  recharges_lawfully .stripe true rechargingOwner rfl rfl (toppedUpByHand.take 7) (by decide)

end EverWorks.Billing
