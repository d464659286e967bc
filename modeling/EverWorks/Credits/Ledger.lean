import Mathlib.Data.List.Sort
import EverWorks.Lib.Table

/-!
`CreditLedgerRepository`: the append-only movements of one user, the buckets its positive rows are, and the three
transactions that write it, each under the lock on the user's row.
-/

namespace EverWorks.Credits
open Lib

inductive CreditLedgerKind where
  | purchase | grant | dailyFree | consumption | adjustment | expiry
  deriving DecidableEq

def CreditLedgerKind.value : CreditLedgerKind → String
  | .purchase => "purchase"
  | .grant => "grant"
  | .dailyFree => "daily-free"
  | .consumption => "consumption"
  | .adjustment => "adjustment"
  | .expiry => "expiry"

/-- One row of the user. The primary key is the row's insertion number, an instant is its
millisecond. -/
structure CreditLedgerEntry where
  id : Nat
  kind : CreditLedgerKind
  amountCredits : Int
  costCentsRef : Option Int := none
  refType : Option String := none
  refId : Option String := none
  balanceAfter : Int
  description : Option String := none
  idempotencyKey : Option String := none
  remainingCredits : Option Int := none
  expiresAt : Option Int := none
  createdAt : Int
  deriving DecidableEq

abbrev Rows := List CreditLedgerEntry

structure CreditLedgerWrite where
  kind : CreditLedgerKind
  amountCredits : Int
  costCentsRef : Option Int := none
  refType : Option String := none
  refId : Option String := none
  description : Option String := none
  idempotencyKey : Option String := none
  expiresAt : Option Int := none
  deriving DecidableEq

structure RefTypeWindow where
  refType : String
  from_ : Int
  to_ : Int
  maxAmountCredits : Int
  deriving DecidableEq

structure RecordAtomicOptions where
  minBalanceAfter : Option Int := none
  maxBalanceAfter : Option Int := none
  maxRefTypeAmountInWindow : Option RefTypeWindow := none
  deriving DecidableEq

inductive RecordAtomicResult where
  | created (entry : CreditLedgerEntry)
  | idempotent (entry : CreditLedgerEntry)
  | insufficient (balance : Int)
  | skipped (balance : Int)
  deriving DecidableEq

/-- What a transaction leaves: the rows, its answer, and the remainder `allocateDebit` could not
place in any bucket. -/
structure Tx (α : Type) where
  rows : Rows
  result : α
  left : Int := 0

def findByIdempotencyKey (rows : Rows) (key : String) : Option CreditLedgerEntry :=
  rows.find? fun row => row.idempotencyKey = some key

/-- The `if (write.idempotencyKey)` read: a null or empty key finds nothing. -/
def findExisting (rows : Rows) : Option String → Option CreditLedgerEntry
  | none => none
  | some key => if key = "" then none else findByIdempotencyKey rows key

def sumBalance (rows : Rows) : Int := (rows.map (·.amountCredits)).sum

def sumByRefTypeInWindow (rows : Rows) (window : RefTypeWindow) : Int :=
  ((rows.filter fun row => row.refType = some window.refType ∧ window.from_ ≤ row.createdAt ∧
    row.createdAt < window.to_).map (·.amountCredits)).sum

/-- `bucket.remainingCredits ?? 0`. -/
def CreditLedgerEntry.available (row : CreditLedgerEntry) : Int := row.remainingCredits.getD 0

def CreditLedgerEntry.lapsedAt (row : CreditLedgerEntry) (now : Int) : Bool :=
  match row.expiresAt with
  | some at_ => at_ ≤ now
  | none => false

def CreditLedgerEntry.isDue (row : CreditLedgerEntry) (now : Int) : Bool :=
  0 < row.available && row.lapsedAt now

def sumDueRemaining (rows : Rows) (now : Int) : Int :=
  ((rows.filter (·.isDue now)).map (·.available)).sum

def getBalance (rows : Rows) (now : Int) : Int := sumBalance rows - sumDueRemaining rows now

/-- `ORDER BY expiresAt ASC, createdAt ASC`; rows that tie keep insertion order. -/
def soonestFirst (a b : CreditLedgerEntry) : Prop :=
  a.expiresAt.getD 0 < b.expiresAt.getD 0 ∨
    (a.expiresAt.getD 0 = b.expiresAt.getD 0 ∧ a.createdAt ≤ b.createdAt)

instance : DecidableRel soonestFirst := fun a b =>
  inferInstanceAs (Decidable (a.expiresAt.getD 0 < b.expiresAt.getD 0 ∨
    (a.expiresAt.getD 0 = b.expiresAt.getD 0 ∧ a.createdAt ≤ b.createdAt)))

/-- `repo.update(id, { remainingCredits })`. -/
def updateRemaining (rows : Rows) (id : Nat) (remaining : Int) : Rows :=
  Table.update (·.id) id (fun row => { row with remainingCredits := some remaining }) rows

/-- One turn of the loop of `allocateDebit`, over the row as the two reads returned it. -/
def takeFrom (state : Rows × Int) (bucket : CreditLedgerEntry) : Rows × Int :=
  if state.2 ≤ 0 then state
  else
    let take := min bucket.available state.2
    if take ≤ 0 then state
    else (updateRemaining state.1 bucket.id (bucket.available - take), state.2 - take)

def openBuckets (rows : Rows) (now : Int) : Rows :=
  (rows.filter fun row => 0 < row.available && match row.expiresAt with
    | some at_ => decide (now < at_)
    | none => false).insertionSort soonestFirst ++
  (rows.filter fun row => 0 < row.available && row.expiresAt.isNone).insertionSort
    (fun a b => a.createdAt ≤ b.createdAt)

def allocateDebit (rows : Rows) (credits now : Int) : Rows × Int :=
  (openBuckets rows now).foldl takeFrom (rows, credits)

def expiryKey (bucketId : Nat) : String := "expiry:" ++ toString bucketId

def expiryEntry (rows : Rows) (bucket : CreditLedgerEntry) (now : Int) : CreditLedgerEntry where
  id := rows.length
  kind := .expiry
  amountCredits := -bucket.available
  refType := some "credit-ledger-entry"
  refId := some (toString bucket.id)
  balanceAfter := sumBalance rows - bucket.available
  description := some ("Expired: " ++ bucket.description.getD bucket.kind.value)
  idempotencyKey := some (expiryKey bucket.id)
  createdAt := now

/-- One turn of the loop of `expireDueBucketsInTx`. -/
def expireBucket (now : Int) (rows : Rows) (bucket : CreditLedgerEntry) : Rows :=
  if bucket.available ≤ 0 then rows
  else match findByIdempotencyKey rows (expiryKey bucket.id) with
    | some _ => updateRemaining rows bucket.id 0
    | none => updateRemaining (rows ++ [expiryEntry rows bucket now]) bucket.id 0

def dueBuckets (rows : Rows) (now : Int) : Rows :=
  (rows.filter (·.isDue now)).insertionSort soonestFirst

def expireDueBucketsInTx (rows : Rows) (now : Int) : Rows :=
  (dueBuckets rows now).foldl (expireBucket now) rows

def expireDueBuckets (rows : Rows) (now : Int) : Tx Unit :=
  { rows := expireDueBucketsInTx rows now, result := () }

def post (rows : Rows) (entry : CreditLedgerEntry) (now : Int) : Rows × Int :=
  if entry.amountCredits < 0 then allocateDebit (rows ++ [entry]) (-entry.amountCredits) now
  else (rows ++ [entry], 0)

/-- `amount` after the two ceilings of the options. -/
def clampAmount (rows : Rows) (options : RecordAtomicOptions) (balance amount : Int) : Int :=
  let amount := match options.maxRefTypeAmountInWindow with
    | some window => min amount (window.maxAmountCredits - sumByRefTypeInWindow rows window)
    | none => amount
  match options.maxBalanceAfter with
  | some ceiling => min amount (ceiling - balance)
  | none => amount

def belowFloor (options : RecordAtomicOptions) (balanceAfter : Int) : Bool :=
  match options.minBalanceAfter with
  | some floor => balanceAfter < floor
  | none => false

def writtenEntry (rows : Rows) (write : CreditLedgerWrite) (amount now : Int) :
    CreditLedgerEntry where
  id := rows.length
  kind := write.kind
  amountCredits := amount
  costCentsRef := write.costCentsRef
  refType := write.refType
  refId := write.refId
  balanceAfter := sumBalance rows + amount
  description := write.description
  idempotencyKey := write.idempotencyKey
  remainingCredits := if 0 < amount then some amount else none
  expiresAt := if 0 < amount then write.expiresAt else none
  createdAt := now

def recordAtomic (rows : Rows) (write : CreditLedgerWrite) (options : RecordAtomicOptions)
    (now : Int) : Tx RecordAtomicResult :=
  match findExisting rows write.idempotencyKey with
  | some existing => { rows, result := .idempotent existing }
  | none =>
    -- Expire on touch: the expiries stay even when the write below is refused.
    let rows := expireDueBucketsInTx rows now
    let balance := sumBalance rows
    let amount := clampAmount rows options balance write.amountCredits
    if 0 < write.amountCredits ∧ amount ≤ 0 then { rows, result := .skipped balance }
    else if belowFloor options (balance + amount) then { rows, result := .insufficient balance }
    else
      let entry := writtenEntry rows write amount now
      let posted := post rows entry now
      { rows := posted.1, result := .created entry, left := posted.2 }

end EverWorks.Credits
