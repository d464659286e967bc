import EverWorks.Lib.Guarantee
import EverWorks.Lib.JsValue
import EverWorks.Lib.Utf16

/-!
The rows of one task, each with a claim key and a budget slot of its own, and the claim of a review: a read of the
taken slots and an insert at each free one in turn. Each statement is served at once.
-/

namespace EverWorks.Review
open Lib

inductive AgentReviewState where
  | dispatched | approved | changesRequested | refused | failed
  deriving DecidableEq

def reviewClaimKeyMaxChars : Nat := 200

def cutClaimKey (claimKey : Utf16) : Utf16 := claimKey.take reviewClaimKeyMaxChars

/-- A row. `call` stands for the id by which its claimant knows it. -/
structure AgentReview where
  call : Nat
  claimKey : Utf16
  slot : Nat
  reviewerAgentId : String
  approverId : String
  headSha : String
  state : AgentReviewState := .dispatched
  deriving DecidableEq

structure ClaimInput where
  reviewerAgentId : String
  approverId : String
  claimKey : Utf16
  headSha : String
  maxRuns : JsNumber

def ClaimInput.slots (input : ClaimInput) : Nat :=
  match input.maxRuns with
  | .finite value => (value.num.tdiv value.den).toNat
  | _ => 0

inductive ClaimOutcome where
  | claimed (review : AgentReview)
  | alreadyClaimed
  | budgetSpent
  /-- A store failure. -/
  | threw
  deriving DecidableEq

/-- Which statements of a claim fail. -/
structure ClaimFaults where
  existing : Bool := false
  taken : Bool := false
  insert : Nat → Bool := fun _ => false
  winner : Nat → Bool := fun _ => false
  reread : Bool := false

/-- The rows in the order of their inserts, and the answers that claims gave. -/
structure ReviewLedger where
  rows : List AgentReview := []
  answers : List (Nat × ClaimOutcome) := []

inductive LedgerCall where
  | findOne (claimKey : Utf16)
  | listTakenSlots
  | insert (row : AgentReview)
  | answer (call : Nat) (outcome : ClaimOutcome)

abbrev LedgerReply : LedgerCall → Type
  | .findOne _ => Option AgentReview
  | .listTakenSlots => List Nat
  | .insert _ => Bool
  | .answer .. => Unit

def serveLedger : (request : LedgerCall) → ReviewLedger → LedgerReply request × ReviewLedger
  | .findOne claimKey, ledger => (ledger.rows.find? (·.claimKey = claimKey), ledger)
  | .listTakenSlots, ledger => (ledger.rows.map (·.slot), ledger)
  | .insert row, ledger =>
    if row.claimKey ∈ ledger.rows.map (·.claimKey) ∨ row.slot ∈ ledger.rows.map (·.slot) then (false, ledger)
    else (true, { ledger with rows := ledger.rows ++ [row] })
  | .answer call outcome, ledger => ((), { ledger with answers := ledger.answers ++ [(call, outcome)] })

abbrev LedgerProgram := Program LedgerCall LedgerReply Empty

def ClaimInput.row (input : ClaimInput) (call slot : Nat) : AgentReview :=
  { call, slot
    claimKey := cutClaimKey input.claimKey
    reviewerAgentId := input.reviewerAgentId
    approverId := input.approverId
    headSha := input.headSha }

def rereadClaimed (input : ClaimInput) (faults : ClaimFaults) (row : AgentReview) : LedgerProgram ClaimOutcome :=
  if faults.reread then pure (.claimed row)
  else do
    match ← Program.ask (LedgerCall.findOne (cutClaimKey input.claimKey)) with
    | some review => return .claimed review
    | none => return .threw

def trySlots (call : Nat) (input : ClaimInput) (faults : ClaimFaults) (taken : List Nat) :
    List Nat → LedgerProgram ClaimOutcome
  | [] => pure .budgetSpent
  | slot :: rest =>
    if slot ∈ taken then trySlots call input faults taken rest
    else if faults.insert slot then pure .threw
    else do
      let inserted ← Program.ask (LedgerCall.insert (input.row call slot))
      if inserted then rereadClaimed input faults (input.row call slot)
      else if faults.winner slot then return .threw
      else
        match ← Program.ask (LedgerCall.findOne (cutClaimKey input.claimKey)) with
        | some _ => return .alreadyClaimed
        | none => trySlots call input faults taken rest

def claim (call : Nat) (input : ClaimInput) (faults : ClaimFaults) : LedgerProgram ClaimOutcome :=
  if faults.existing then pure .threw
  else do
    match ← Program.ask (LedgerCall.findOne (cutClaimKey input.claimKey)) with
    | some _ => return .alreadyClaimed
    | none =>
      if input.slots = 0 then return .budgetSpent
      else if faults.taken then return .threw
      else
        let taken ← Program.ask LedgerCall.listTakenSlots
        trySlots call input faults taken (List.range input.slots)

def claimPool (calls : List (ClaimInput × ClaimFaults)) : Pool ReviewLedger LedgerCall LedgerReply Empty :=
  ⟨{}, calls.mapIdx fun call (input, faults) => do
    let outcome ← claim call input faults
    Program.ask (LedgerCall.answer call outcome)⟩

def afterClaims (calls : List (ClaimInput × ClaimFaults)) (schedule : List Nat) : ReviewLedger :=
  (run (Pool.step serveLedger Empty.elim) (claimPool calls) schedule).state

/-- The comparison by which `isSupersededInTransaction` takes a prior review for a newer one. -/
def claimedAfter (prior mine : AgentReview) : Bool := prior.slot > mine.slot

end EverWorks.Review
