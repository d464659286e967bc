import EverWorks.Agents.Steering
import Mathlib.Data.List.MinMax

/-!
Before a run is handed to the job runtime it passes a chain of middlewares, each of which decides or leaves the
decision to the next. What they read of the platform is given by its ports, which may fail.
-/

namespace EverWorks.Agents.Dispatch

inductive QueuedReason where
  | concurrencyLimit | insufficientCredits | killSwitch | agentPaused | workBudget | appChangesPaused
  deriving DecidableEq

def given (column : Option String) : Option String := column.filter (· ≠ "")

structure RunAdmissionInput where
  userId : String
  workId : Option String
  organizationId : Option String
  agentId : Option String

structure RunAdmissionVerdict where
  admitted : Bool
  queuedReason : Option QueuedReason
  deriving DecidableEq

def runAdmissionAdmitted : RunAdmissionVerdict := { admitted := true, queuedReason := none }

def parkedFor (reason : QueuedReason) : RunAdmissionVerdict := { admitted := false, queuedReason := some reason }

abbrev Answer (α : Type) := Except Unit α

structure RunAdmissionContext where
  countInFlightForWork : String → Answer ℕ
  countInFlightForOrganization : String → Answer ℕ
  countInFlightForUser : String → Answer ℕ
  resolveWorkLimit : ℤ
  resolveOrgLimit : ℤ
  isCreditsEnforcementEnabled : Bool
  creditsPrecheck : Option (String → Answer Bool)
  isPlanConcurrencyEnabled : Bool
  planLimits : Option (String → Answer (Option ℤ))
  killSwitch : Option (Answer Bool)
  agentBrake : Option (String → Answer Bool)

abbrev RunAdmissionMiddleware := RunAdmissionContext → RunAdmissionInput → Answer (Option RunAdmissionVerdict)

def composeRunAdmission : List RunAdmissionMiddleware → RunAdmissionContext → RunAdmissionInput →
    Answer RunAdmissionVerdict
  | [], _, _ => .ok runAdmissionAdmitted
  | middleware :: chain, context, input =>
    match middleware context input with
    | .error thrown => .error thrown
    | .ok (some verdict) => .ok verdict
    | .ok none => composeRunAdmission chain context input

def closed (answer : Answer Bool) : Bool :=
  match answer with
  | .ok flag => flag
  | .error _ => true

def opened (answer : Answer Bool) : Bool :=
  match answer with
  | .ok flag => flag
  | .error _ => false

def killSwitchAdmission : RunAdmissionMiddleware := fun context _ =>
  match context.killSwitch with
  | none => .ok none
  | some answer => .ok (if closed answer then some (parkedFor .killSwitch) else none)

def agentBrakeAdmission : RunAdmissionMiddleware := fun context input =>
  match context.agentBrake, given input.agentId with
  | some brake, some agentId => .ok (if closed (brake agentId) then some (parkedFor .agentPaused) else none)
  | _, _ => .ok none

def workConcurrencyAdmission : RunAdmissionMiddleware := fun context input =>
  match given input.workId with
  | none => .ok none
  | some workId =>
    if context.resolveWorkLimit ≤ 0 then .ok none
    else do
      let inFlight ← context.countInFlightForWork workId
      return if inFlight < context.resolveWorkLimit then none else some (parkedFor .concurrencyLimit)

def planLimitOf (context : RunAdmissionContext) (userId : String) : Option ℤ :=
  match context.planLimits with
  | none => none
  | some resolve =>
    if context.isPlanConcurrencyEnabled then
      match resolve userId with
      | .ok limit => limit
      | .error _ => none
    else none

def planExempts (context : RunAdmissionContext) (input : RunAdmissionInput) (inFlight : ℕ) : Answer Bool :=
  match planLimitOf context input.userId with
  | none => .ok false
  | some planLimit =>
    if planLimit < 0 then .ok ((given input.workId).isSome && 0 < context.resolveWorkLimit)
    else if 0 < planLimit then do
      let ownInFlight ←
        if (given input.organizationId).isSome then context.countInFlightForUser input.userId else .ok inFlight
      return ownInFlight < planLimit
    else .ok false

def countInFlightInScope (context : RunAdmissionContext) (input : RunAdmissionInput) : Answer ℕ :=
  match given input.organizationId with
  | some organizationId => context.countInFlightForOrganization organizationId
  | none => context.countInFlightForUser input.userId

def orgConcurrencyAdmission : RunAdmissionMiddleware := fun context input =>
  if context.resolveOrgLimit ≤ 0 then .ok none
  else do
    let inFlight ← countInFlightInScope context input
    if inFlight < context.resolveOrgLimit then return none
    else
      let exempt ← planExempts context input inFlight
      return if exempt then none else some (parkedFor .concurrencyLimit)

def creditsAdmission : RunAdmissionMiddleware := fun context input =>
  match context.creditsPrecheck with
  | none => .ok none
  | some shouldQueueForCredits =>
    .ok (if context.isCreditsEnforcementEnabled && opened (shouldQueueForCredits input.userId) then
      some (parkedFor .insufficientCredits) else none)

def createWorkBudgetAdmission (shouldParkForWorkBudget : RunAdmissionInput → Answer Bool) : RunAdmissionMiddleware :=
  fun _ input =>
    .ok (if (given input.workId).isSome && opened (shouldParkForWorkBudget input) then some (parkedFor .workBudget)
      else none)

def defaultRunAdmissionChain : List RunAdmissionMiddleware :=
  [killSwitchAdmission, agentBrakeAdmission, workConcurrencyAdmission, orgConcurrencyAdmission, creditsAdmission]

def withWorkBudgetAdmission (shouldParkForWorkBudget : RunAdmissionInput → Answer Bool) :
    List RunAdmissionMiddleware :=
  defaultRunAdmissionChain.insertIdx 2 (createWorkBudgetAdmission shouldParkForWorkBudget)

end EverWorks.Agents.Dispatch
