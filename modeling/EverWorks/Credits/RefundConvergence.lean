import EverWorks.Lib.Run
import EverWorks.Credits.Changes

/-!
The deliveries of a payment's refunds, duplicated and out of order, reverse what the largest of
their cumulative totals calls for.
-/

namespace EverWorks.Credits
open Lib List

inductive BillingProviderId where
  | stripe | manual
  deriving DecidableEq

def BillingProviderId.value : BillingProviderId → String
  | .stripe => "stripe"
  | .manual => "manual"

def eventKey (provider : BillingProviderId) (eventId : String) : String :=
  provider.value ++ ":evt:" ++ eventId

def billingPaymentRefType : String := "billing-payment"

/-- The write `BillingService.applyRefund` makes of a verified refund event. -/
def refundWrite (provider : BillingProviderId) (paymentId eventId : String)
    (amountCents : Option Int) : CumulativeRefundWrite where
  refType := billingPaymentRefType
  refId := paymentId
  cumulativeRefundedCents := amountCents
  idempotencyKey := eventKey provider eventId
  description := some "Refund / chargeback reversal"

theorem eventKey_injective {provider : BillingProviderId} {a b : String}
    (same : eventKey provider a = eventKey provider b) : a = b :=
  (String.append_right_inj _).mp same

theorem eventKey_ne_expiryKey (provider : BillingProviderId) (eventId : String) (id : Nat) :
    eventKey provider eventId ≠ expiryKey id := by
  apply ne_expiryKey
  unfold eventKey
  rw [String.toList_append, String.toList_append]
  cases provider with
  | stripe => simp [BillingProviderId.value]
  | manual => simp [BillingProviderId.value]

theorem ofPayment_movement (refType refId : String) (kind : CreditLedgerKind)
    (row : CreditLedgerEntry) :
    ofPayment refType refId kind (movement row) = ofPayment refType refId kind row := rfl

theorem filter_movements (rows : Rows) (refType refId : String) (kind : CreditLedgerKind) :
    (rows.map movement).filter (ofPayment refType refId kind) =
      (rows.filter (ofPayment refType refId kind)).map movement := by
  rw [filter_map]
  rfl

theorem priorAdjustmentTotal_movements (rows : Rows) (refType refId : String) :
    priorAdjustmentTotal (rows.map movement) refType refId =
      priorAdjustmentTotal rows refType refId := by
  unfold priorAdjustmentTotal
  rw [filter_movements, List.map_map]
  rfl

theorem findPurchase_movements (rows : Rows) (refType refId : String) :
    findPurchase (rows.map movement) refType refId =
      (findPurchase rows refType refId).map movement := by
  unfold findPurchase
  rw [filter_movements, ← head?_map]
  congr 1
  exact (map_insertionSort _ _ movement _ (fun _ _ _ _ => Iff.rfl)).symm

theorem filter_append_of_kind {rows more : Rows} {refType refId : String}
    {kind : CreditLedgerKind} (other : ∀ row ∈ more, row.kind ≠ kind) :
    (rows ++ more).filter (ofPayment refType refId kind) =
      rows.filter (ofPayment refType refId kind) := by
  have none_kept : more.filter (ofPayment refType refId kind) = [] := by
    rw [filter_eq_nil_iff]
    intro row inside kept
    unfold ofPayment at kept
    rw [decide_eq_true_eq] at kept
    exact other row inside kept.2.2
  rw [filter_append, none_kept, append_nil]

theorem priorAdjustmentTotal_reversal (rows : Rows) (write : CumulativeRefundWrite)
    (purchase : CreditLedgerEntry) (creditsReversed now : Int) :
    priorAdjustmentTotal (post (expireDueBucketsInTx rows now)
      (reversalEntry (expireDueBucketsInTx rows now) write purchase creditsReversed now) now).1
        write.refType write.refId =
      priorAdjustmentTotal rows write.refType write.refId - creditsReversed := by
  obtain ⟨expiries, appended, own⟩ := post_appends rows
    (reversalEntry (expireDueBucketsInTx rows now) write purchase creditsReversed now) now
  rw [map_singleton] at appended
  have skipped : ∀ row ∈ expiries, row.kind ≠ .adjustment := by
    intro row inside same
    rw [(own row inside).1] at same
    cases same
  rw [← priorAdjustmentTotal_movements, appended, ← priorAdjustmentTotal_movements rows]
  have kept : ofPayment write.refType write.refId .adjustment (movement
      (reversalEntry (expireDueBucketsInTx rows now) write purchase creditsReversed now)) = true := by
    simp [ofPayment, movement, reversalEntry]
  unfold priorAdjustmentTotal
  rw [filter_append, filter_append_of_kind skipped, filter_singleton, kept, map_append,
    sum_append]
  show _ + (-creditsReversed + 0) = _
  omega

theorem findPurchase_reversal (rows : Rows) (write : CumulativeRefundWrite)
    (purchase : CreditLedgerEntry) (creditsReversed now : Int) (refType refId : String) :
    (findPurchase (post (expireDueBucketsInTx rows now)
      (reversalEntry (expireDueBucketsInTx rows now) write purchase creditsReversed now) now).1
        refType refId).map movement = (findPurchase rows refType refId).map movement := by
  obtain ⟨expiries, appended, own⟩ := post_appends rows
    (reversalEntry (expireDueBucketsInTx rows now) write purchase creditsReversed now) now
  rw [map_singleton] at appended
  rw [← findPurchase_movements, appended, ← findPurchase_movements]
  unfold findPurchase
  rw [filter_append_of_kind, filter_append_of_kind]
  · intro row inside same
    rw [(own row inside).1] at same
    cases same
  · intro row inside same
    rw [mem_singleton.mp inside] at same
    cases same

/-- The credits a cumulative refund of `cents` out of `charged` reverses of `credits`. -/
def refundedCredits (credits charged : Int) (cents : ℕ) : Int :=
  min credits (jsRound (toDouble (credits * min 1 (toDouble ((cents : Int) / charged)))))

variable {purchase : CreditLedgerEntry} {charged : Int}

theorem targetReversed_eq (credits : 0 < purchase.amountCredits)
    (cost : purchase.costCentsRef = some charged) (paid : 0 < charged) (cents : ℕ) :
    targetReversed purchase (some cents) = refundedCredits purchase.amountCredits charged cents := by
  have share : refundShare purchase (some cents) = min 1 (toDouble ((cents : Int) / charged)) := by
    unfold refundShare refundedCents
    rw [cost, Option.getD_some, Option.getD_some, if_pos paid, max_eq_right (Int.natCast_nonneg cents)]
  have ratio : (0 : ℚ) ≤ (cents : Int) / (charged : ℚ) := by
    apply div_nonneg
    · exact_mod_cast Int.natCast_nonneg cents
    · exact_mod_cast paid.le
  have product : (0 : ℚ) ≤ purchase.amountCredits * min 1 (toDouble ((cents : Int) / charged)) := by
    apply mul_nonneg
    · exact_mod_cast credits.le
    · exact le_min zero_le_one (toDouble_nonneg ratio)
  unfold targetReversed refundedCredits
  rw [share, max_eq_right (jsRound_nonneg (toDouble_nonneg product))]

theorem targetReversed_le (cumulative : Option Int) :
    targetReversed purchase cumulative ≤ purchase.amountCredits := min_le_left _ _

theorem targetReversed_movement (cumulative : Option Int) :
    targetReversed (movement purchase) cumulative = targetReversed purchase cumulative := rfl

/-- A delivery of the event `eventId` at the instant `now`. -/
structure RefundDelivery where
  eventId : String
  now : Int

def deliver (provider : BillingProviderId) (paymentId : String) (cents : String → ℕ) (rows : Rows)
    (delivery : RefundDelivery) : Rows :=
  (recordCumulativeRefundAtomic rows
    (refundWrite provider paymentId delivery.eventId (some (cents delivery.eventId)))
    delivery.now).rows

def reversedTotal (paymentId : String) (rows : Rows) : Int :=
  -priorAdjustmentTotal rows billingPaymentRefType paymentId

def largestTarget (purchase : CreditLedgerEntry) (cents : String → ℕ) (delivered : List String) : Int :=
  (delivered.map fun eventId => targetReversed purchase (some (cents eventId))).foldr max 0

theorem largestTarget_le (credits : 0 < purchase.amountCredits) (cents : String → ℕ)
    (delivered : List String) : largestTarget purchase cents delivered ≤ purchase.amountCredits := by
  induction delivered with
  | nil => exact credits.le
  | cons eventId rest ih => exact max_le (targetReversed_le _) ih

theorem largestTarget_nonneg (cents : String → ℕ) (delivered : List String) :
    0 ≤ largestTarget purchase cents delivered := by
  induction delivered with
  | nil => exact le_rfl
  | cons eventId rest ih => exact le_max_of_le_right ih

theorem le_largestTarget (cents : String → ℕ) {delivered : List String} {eventId : String}
    (member : eventId ∈ delivered) :
    targetReversed purchase (some (cents eventId)) ≤ largestTarget purchase cents delivered := by
  induction delivered with
  | nil => cases member
  | cons first rest ih =>
    rcases mem_cons.mp member with rfl | later
    · exact le_max_left _ _
    · exact le_max_of_le_right (ih later)

theorem largestTarget_append (cents : String → ℕ) (delivered : List String) (eventId : String) :
    largestTarget purchase cents (delivered ++ [eventId]) =
      max (largestTarget purchase cents delivered) (targetReversed purchase (some (cents eventId))) := by
  induction delivered with
  | nil => exact max_comm _ _
  | cons first rest ih =>
    show max _ (largestTarget purchase cents (rest ++ [eventId])) = _
    rw [ih, ← max_assoc]
    rfl

variable {provider : BillingProviderId} {paymentId : String} {cents : String → ℕ}
  {events delivered : List String} {rows : Rows}

def deliveryWrite (provider : BillingProviderId) (paymentId : String) (cents : String → ℕ)
    (delivery : RefundDelivery) : CumulativeRefundWrite :=
  refundWrite provider paymentId delivery.eventId (some (cents delivery.eventId))

theorem deliver_cases (provider : BillingProviderId) (cents : String → ℕ)
    {found : CreditLedgerEntry} (credits : 0 < found.amountCredits)
    (read : findPurchase rows billingPaymentRefType paymentId = some found)
    (delivery : RefundDelivery) :
    let target := targetReversed found (some (cents delivery.eventId))
    let already := alreadyReversed rows found billingPaymentRefType paymentId
    (deliver provider paymentId cents rows delivery = rows ∧
      ((∃ row ∈ rows, row.idempotencyKey = some (eventKey provider delivery.eventId)) ∨
        target ≤ already)) ∨
    (already < target ∧ deliver provider paymentId cents rows delivery =
      (post (expireDueBucketsInTx rows delivery.now)
        (reversalEntry (expireDueBucketsInTx rows delivery.now)
          (deliveryWrite provider paymentId cents delivery) found (target - already) delivery.now)
        delivery.now).1) := by
  intro target already
  have ref : findPurchase rows (deliveryWrite provider paymentId cents delivery).refType
      (deliveryWrite provider paymentId cents delivery).refId = some found := read
  show (_ ∧ _) ∨ _
  unfold deliver
  rw [← deliveryWrite, recordCumulativeRefundAtomic]
  cases existing : findByIdempotencyKey rows
      (deliveryWrite provider paymentId cents delivery).idempotencyKey with
  | some row =>
    have keyed := find?_some existing
    exact Or.inl ⟨rfl, Or.inl ⟨row, mem_of_find?_eq_some existing, of_decide_eq_true keyed⟩⟩
  | none =>
    rw [ref]
    dsimp only
    rw [if_neg (not_le.mpr credits)]
    split
    · rename_i within
      have reached : target - already ≤ 0 := within
      exact Or.inl ⟨rfl, Or.inr (by omega)⟩
    · rename_i short
      have beyond : ¬ target - already ≤ 0 := short
      exact Or.inr ⟨by omega, rfl⟩

/-- The ledger after the deliveries of `delivered`, among those of `events`. -/
structure Reconciled (provider : BillingProviderId) (paymentId : String) (cents : String → ℕ)
    (purchase : CreditLedgerEntry) (events delivered : List String) (rows : Rows) : Prop where
  payment : (findPurchase rows billingPaymentRefType paymentId).map movement =
    some (movement purchase)
  total : reversedTotal paymentId rows = largestTarget purchase cents delivered
  keys : ∀ row ∈ rows, ∀ eventId ∈ events,
    row.idempotencyKey = some (eventKey provider eventId) → eventId ∈ delivered

theorem Reconciled.already (credits : 0 < purchase.amountCredits)
    (reconciled : Reconciled provider paymentId cents purchase events delivered rows)
    {found : CreditLedgerEntry} (amount : found.amountCredits = purchase.amountCredits) :
    alreadyReversed rows found billingPaymentRefType paymentId =
      largestTarget purchase cents delivered := by
  have low : 0 ≤ largestTarget purchase cents delivered := largestTarget_nonneg cents delivered
  have high := largestTarget_le credits cents delivered
  have total := reconciled.total
  unfold reversedTotal at total
  unfold alreadyReversed
  rw [total, amount, max_eq_right low, min_eq_right high]

theorem Reconciled.unchanged
    (reconciled : Reconciled provider paymentId cents purchase events delivered rows)
    {eventId : String} (within : targetReversed purchase (some (cents eventId)) ≤
      largestTarget purchase cents delivered) :
    Reconciled provider paymentId cents purchase events (delivered ++ [eventId]) rows := by
  refine ⟨reconciled.payment, ?_, ?_⟩
  · rw [reconciled.total, largestTarget_append, max_eq_left within]
  · intro row inside other known same
    exact mem_append_left _ (reconciled.keys row inside other known same)

theorem Reconciled.reversed
    (reconciled : Reconciled provider paymentId cents purchase events delivered rows)
    {delivery : RefundDelivery} (beyond : largestTarget purchase cents delivered <
      targetReversed purchase (some (cents delivery.eventId))) (found : CreditLedgerEntry) :
    Reconciled provider paymentId cents purchase events (delivered ++ [delivery.eventId])
      (post (expireDueBucketsInTx rows delivery.now)
        (reversalEntry (expireDueBucketsInTx rows delivery.now)
          (deliveryWrite provider paymentId cents delivery) found
          (targetReversed purchase (some (cents delivery.eventId)) -
            largestTarget purchase cents delivered) delivery.now) delivery.now).1 := by
  obtain ⟨payment, total, keys⟩ := reconciled
  constructor
  · rw [findPurchase_reversal]
    exact payment
  · have reversal := priorAdjustmentTotal_reversal rows
      (deliveryWrite provider paymentId cents delivery) found
      (targetReversed purchase (some (cents delivery.eventId)) -
        largestTarget purchase cents delivered) delivery.now
    unfold reversedTotal at total ⊢
    rw [largestTarget_append, max_eq_right beyond.le]
    refine (congrArg Neg.neg reversal).trans ?_
    show -(priorAdjustmentTotal rows billingPaymentRefType paymentId - _) = _
    omega
  · intro row inside eventId known keyed
    obtain ⟨expiries, appended, own⟩ := post_appends rows
      (reversalEntry (expireDueBucketsInTx rows delivery.now)
        (deliveryWrite provider paymentId cents delivery) found
        (targetReversed purchase (some (cents delivery.eventId)) -
          largestTarget purchase cents delivered) delivery.now) delivery.now
    rw [map_singleton] at appended
    have listed := mem_map_of_mem (f := movement) inside
    rw [appended, mem_append, mem_append, mem_singleton] at listed
    rcases listed with (old | expiry) | reversal
    · obtain ⟨earlier, present, sameRow⟩ := mem_map.mp old
      have sameKey : earlier.idempotencyKey = row.idempotencyKey :=
        congrArg (·.idempotencyKey) sameRow
      exact mem_append_left _ (keys earlier present eventId known (sameKey.trans keyed))
    · obtain ⟨-, id, expiryKeyed⟩ := own _ expiry
      have clash : eventKey provider eventId = expiryKey id :=
        Option.some.inj (keyed.symm.trans expiryKeyed)
      exact absurd clash (eventKey_ne_expiryKey provider eventId id)
    · have sameKey : row.idempotencyKey = some (eventKey provider delivery.eventId) :=
        congrArg (·.idempotencyKey) reversal
      have event : eventId = delivery.eventId :=
        eventKey_injective (Option.some.inj (keyed.symm.trans sameKey))
      exact mem_append_right _ (mem_singleton.mpr event)

theorem Reconciled.deliver (credits : 0 < purchase.amountCredits)
    (reconciled : Reconciled provider paymentId cents purchase events delivered rows)
    {delivery : RefundDelivery} (member : delivery.eventId ∈ events) :
    Reconciled provider paymentId cents purchase events (delivered ++ [delivery.eventId])
      (deliver provider paymentId cents rows delivery) := by
  obtain ⟨found, read, same⟩ := Option.map_eq_some_iff.mp reconciled.payment
  have amount : found.amountCredits = purchase.amountCredits := congrArg (·.amountCredits) same
  have target : targetReversed found (some (cents delivery.eventId)) =
      targetReversed purchase (some (cents delivery.eventId)) := by
    rw [← targetReversed_movement, same, targetReversed_movement]
  have already := reconciled.already credits amount
  rcases deliver_cases provider cents (by omega) read delivery with
    ⟨nothing, recorded | reached⟩ | ⟨beyond, written⟩
  · obtain ⟨row, inside, keyed⟩ := recorded
    have known := reconciled.keys row inside delivery.eventId member keyed
    rw [nothing]
    exact reconciled.unchanged (le_largestTarget cents known)
  · rw [target, already] at reached
    rw [nothing]
    exact reconciled.unchanged reached
  · rw [target, already] at beyond written
    rw [written]
    exact reconciled.reversed beyond found

theorem Reconciled.run (credits : 0 < purchase.amountCredits) {deliveries : List RefundDelivery} :
    ∀ {delivered : List String} {rows : Rows},
      Reconciled provider paymentId cents purchase events delivered rows →
      (∀ delivery ∈ deliveries, delivery.eventId ∈ events) →
      Reconciled provider paymentId cents purchase events
        (delivered ++ deliveries.map (·.eventId))
        (Lib.run (Credits.deliver provider paymentId cents) rows deliveries) := by
  induction deliveries with
  | nil =>
    intro delivered rows reconciled _
    rw [map_nil, append_nil]
    exact reconciled
  | cons delivery rest ih =>
    intro delivered rows reconciled members
    have next := ih (reconciled.deliver credits (members delivery mem_cons_self))
      fun later inside => members later (mem_cons_of_mem _ inside)
    rw [append_assoc] at next
    exact next

theorem largestTarget_congr {first second : List String} (same : ∀ e, e ∈ first ↔ e ∈ second) :
    largestTarget purchase cents first = largestTarget purchase cents second := by
  have below : ∀ {a b : List String}, (∀ e ∈ a, e ∈ b) →
      largestTarget purchase cents a ≤ largestTarget purchase cents b := by
    intro a b inside
    induction a with
    | nil => exact largestTarget_nonneg cents b
    | cons e rest ih =>
      exact max_le (le_largestTarget cents (inside e mem_cons_self))
        (ih fun later present => inside later (mem_cons_of_mem _ present))
  exact le_antisymm (below fun e => (same e).mp) (below fun e => (same e).mpr)

/-- **Refund convergence.** For a purchase of `C` credits charged `P` cents without earlier
reversals, the deliveries of refund events reverse the largest of the events' targets, whatever
their order and repetitions, and never more than `C` on the way. -/
theorem refund_convergence (provider : BillingProviderId) (paymentId : String)
    (cents : String → ℕ) (rows : Rows) (purchase : CreditLedgerEntry) (charged : Int)
    (deliveries : List RefundDelivery)
    (read : findPurchase rows billingPaymentRefType paymentId = some purchase)
    (credits : 0 < purchase.amountCredits) (cost : purchase.costCentsRef = some charged)
    (paid : 0 < charged) (untouched : priorAdjustmentTotal rows billingPaymentRefType paymentId = 0)
    (fresh : ∀ row ∈ rows, ∀ delivery ∈ deliveries,
      row.idempotencyKey ≠ some (eventKey provider delivery.eventId)) :
    let reversed := fun order : List RefundDelivery =>
      reversedTotal paymentId (run (deliver provider paymentId cents) rows order)
    reversed deliveries = (deliveries.map fun delivery =>
      refundedCredits purchase.amountCredits charged (cents delivery.eventId)).foldr max 0 ∧
    (∀ order : List RefundDelivery,
      (∀ e, e ∈ order.map (·.eventId) ↔ e ∈ deliveries.map (·.eventId)) →
        reversed order = reversed deliveries) ∧
    ∀ first, first <+: deliveries → reversed first ≤ purchase.amountCredits := by
  intro reversed
  have start : Reconciled provider paymentId cents purchase (deliveries.map (·.eventId)) [] rows := by
    refine ⟨by rw [read]; rfl, by unfold reversedTotal; rw [untouched]; rfl, ?_⟩
    intro row inside eventId known keyed
    obtain ⟨delivery, present, rfl⟩ := mem_map.mp known
    exact absurd keyed (fresh row inside delivery present)
  have total : ∀ order : List RefundDelivery,
      (∀ delivery ∈ order, delivery.eventId ∈ deliveries.map (·.eventId)) →
      reversed order = largestTarget purchase cents (order.map (·.eventId)) := by
    intro order members
    have finished := (Reconciled.run credits start members).total
    rw [nil_append] at finished
    exact finished
  refine ⟨?_, ?_, ?_⟩
  · rw [total deliveries fun delivery inside => mem_map_of_mem inside]
    unfold largestTarget
    rw [List.map_map]
    congr 1
    apply map_congr_left
    intro delivery _
    exact targetReversed_eq credits cost paid _
  · intro order same
    rw [total order fun delivery inside => (same _).mp (mem_map_of_mem inside),
      total deliveries fun delivery inside => mem_map_of_mem inside]
    exact largestTarget_congr same
  · intro first isPre
    rw [total first fun delivery inside => mem_map_of_mem (isPre.subset inside)]
    exact largestTarget_le credits cents _

def chargedPurchase : CreditLedgerEntry where
  id := 0
  kind := .purchase
  amountCredits := 1000
  costCentsRef := some 1000
  refType := some billingPaymentRefType
  refId := some "pi"
  balanceAfter := 1000
  idempotencyKey := some "stripe:evt:purchase"
  remainingCredits := some 1000
  createdAt := 0

theorem refund_convergence_twice :
    let reversed := reversedTotal "pi"
      (run (deliver .stripe "pi" fun e => if e = "first" then 300 else 700) [chargedPurchase]
        [⟨"second", 1⟩, ⟨"first", 2⟩, ⟨"second", 3⟩])
    reversed = [refundedCredits 1000 1000 700, refundedCredits 1000 1000 300,
      refundedCredits 1000 1000 700].foldr max 0 := by
  have converged := refund_convergence .stripe "pi" (fun e => if e = "first" then 300 else 700)
    [chargedPurchase] chargedPurchase 1000 [⟨"second", 1⟩, ⟨"first", 2⟩, ⟨"second", 3⟩]
    (by decide) (by decide) rfl (by decide) (by decide) (by decide)
  exact converged.1

end EverWorks.Credits
