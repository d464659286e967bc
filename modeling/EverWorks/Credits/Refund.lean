import EverWorks.Lib.Number
import EverWorks.Credits.Ledger

/-!
`recordCumulativeRefundAtomic` reconciles the provider's running refund total of one payment with
the adjustments already written for it.
-/

namespace EverWorks.Credits
open Lib

structure CumulativeRefundWrite where
  refType : String
  refId : String
  /-- `null` is a reversal of the whole charge. -/
  cumulativeRefundedCents : Option Int
  idempotencyKey : String
  description : Option String := none
  deriving DecidableEq

inductive CumulativeRefundResult where
  | created (entry : CreditLedgerEntry) (creditsReversed : Int)
  | idempotent (entry : CreditLedgerEntry)
  | covered
  | missingPurchase
  deriving DecidableEq

def ofPayment (refType refId : String) (kind : CreditLedgerKind) (row : CreditLedgerEntry) : Bool :=
  row.refType = some refType ∧ row.refId = some refId ∧ row.kind = kind

def findPurchase (rows : Rows) (refType refId : String) : Option CreditLedgerEntry :=
  ((rows.filter (ofPayment refType refId .purchase)).insertionSort
    fun a b => b.createdAt ≤ a.createdAt).head?

def priorAdjustmentTotal (rows : Rows) (refType refId : String) : Int :=
  ((rows.filter (ofPayment refType refId .adjustment)).map (·.amountCredits)).sum

def refundedCents (purchase : CreditLedgerEntry) (cumulative : Option Int) : Int :=
  max 0 (cumulative.getD (purchase.costCentsRef.getD 0))

def refundShare (purchase : CreditLedgerEntry) (cumulative : Option Int) : ℚ :=
  let chargedCents := purchase.costCentsRef.getD 0
  let refunded := refundedCents purchase cumulative
  if 0 < chargedCents then min 1 (toDouble (refunded / chargedCents))
  else if cumulative.isNone ∨ 0 < refunded then 1 else 0

def targetReversed (purchase : CreditLedgerEntry) (cumulative : Option Int) : Int :=
  min purchase.amountCredits
    (max 0 (jsRound (toDouble (purchase.amountCredits * refundShare purchase cumulative))))

def alreadyReversed (rows : Rows) (purchase : CreditLedgerEntry) (refType refId : String) : Int :=
  min purchase.amountCredits (max 0 (-priorAdjustmentTotal rows refType refId))

def incrementalRefundedCents (purchase : CreditLedgerEntry) (cumulative : Option Int)
    (creditsReversed : Int) : Int :=
  let chargedCents := purchase.costCentsRef.getD 0
  let refunded := refundedCents purchase cumulative
  if 0 < chargedCents then
    min refunded (max 1 (jsRound (toDouble
      (toDouble (chargedCents * creditsReversed) / purchase.amountCredits))))
  else refunded

def reversalEntry (rows : Rows) (write : CumulativeRefundWrite) (purchase : CreditLedgerEntry)
    (creditsReversed now : Int) : CreditLedgerEntry where
  id := rows.length
  kind := .adjustment
  amountCredits := -creditsReversed
  costCentsRef :=
    some (incrementalRefundedCents purchase write.cumulativeRefundedCents creditsReversed)
  refType := some write.refType
  refId := some write.refId
  balanceAfter := sumBalance rows - creditsReversed
  description := write.description
  idempotencyKey := some write.idempotencyKey
  createdAt := now

def recordCumulativeRefundAtomic (rows : Rows) (write : CumulativeRefundWrite) (now : Int) :
    Tx CumulativeRefundResult :=
  match findByIdempotencyKey rows write.idempotencyKey with
  | some existing => { rows, result := .idempotent existing }
  | none =>
    match findPurchase rows write.refType write.refId with
    | none => { rows, result := .missingPurchase }
    | some purchase =>
      if purchase.amountCredits ≤ 0 then { rows, result := .missingPurchase }
      else
        let creditsReversed := targetReversed purchase write.cumulativeRefundedCents -
          alreadyReversed rows purchase write.refType write.refId
        if creditsReversed ≤ 0 then { rows, result := .covered }
        else
          let rows := expireDueBucketsInTx rows now
          let entry := reversalEntry rows write purchase creditsReversed now
          let posted := post rows entry now
          { rows := posted.1, result := .created entry creditsReversed, left := posted.2 }

end EverWorks.Credits
