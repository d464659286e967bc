import EverWorks.Lib.Json

/-!
The row of a fleet job and the repository's updates of it. Every update is conditional: its WHERE clause
restates what the caller saw, and the caller learns whether the row was hit.
-/

namespace EverWorks.Fleet
open Lib

inductive FleetJobStatus where
  | queued | leased | running | done | failed
  deriving DecidableEq

def fleetJobActiveStatuses : List FleetJobStatus := [.leased, .running]

def fleetJobTerminalStatuses : List FleetJobStatus := [.done, .failed]

inductive FleetJobKind where
  | acceptanceChecks | agentTask | browserCheck | computerSession | agentSession | vmCreate | vmControl
  | usageScan | runnerInstall | runnerControl
  deriving DecidableEq

def fleetJobKinds : List FleetJobKind :=
  [.acceptanceChecks, .agentTask, .browserCheck, .computerSession, .agentSession, .vmCreate, .vmControl,
    .usageScan, .runnerInstall, .runnerControl]

/-- A row, with instants in milliseconds. -/
structure FleetJob where
  id : String
  userId : String
  kind : FleetJobKind
  nodeId : Option String := none
  targetNodeId : Option String := none
  status : FleetJobStatus := .queued
  payload : Option JsonRecord := none
  requiredCapabilities : List Utf16 := []
  leaseExpiresAt : Option Nat := none
  attempts : Nat := 0
  maxAttempts : Nat := 3
  leaseGeneration : Nat := 0
  result : Option JsonRecord := none
  error : Option Utf16 := none
  queuedReason : Option Utf16 := none
  queuedAt : Option Nat := none
  cancelRequestedAt : Option Nat := none
  startedAt : Option Nat := none
  completedAt : Option Nat := none
  usageLimitParks : Nat := 0

def FleetJob.isActive (job : FleetJob) : Bool := job.status ∈ fleetJobActiveStatuses

def FleetJob.isTerminal (job : FleetJob) : Bool := job.status ∈ fleetJobTerminalStatuses

structure FleetJobView where
  id : String
  kind : FleetJobKind
  status : FleetJobStatus
  nodeId : Option String
  targetNodeId : Option String
  requiredCapabilities : List Utf16
  payload : Option JsonRecord
  leaseExpiresAt : Option Nat
  attempts : Nat
  maxAttempts : Nat
  startedAt : Option Nat
  completedAt : Option Nat
  queuedAt : Option Nat
  queuedReason : Option Utf16
  cancelRequestedAt : Option Nat
  leaseGeneration : Nat

def toJobView (job : FleetJob) : FleetJobView where
  id := job.id
  kind := job.kind
  status := job.status
  nodeId := job.nodeId
  targetNodeId := job.targetNodeId
  requiredCapabilities := job.requiredCapabilities
  payload := job.payload
  leaseExpiresAt := job.leaseExpiresAt
  attempts := job.attempts
  maxAttempts := job.maxAttempts
  startedAt := job.startedAt
  completedAt := job.completedAt
  queuedAt := job.queuedAt
  queuedReason := job.queuedReason
  cancelRequestedAt := job.cancelRequestedAt
  leaseGeneration := job.leaseGeneration

abbrev FleetJobs := String → Option FleetJob

namespace FleetJobs

/-- `UPDATE … WHERE id = … AND …`, or `none` where it affects no row. -/
def updateWhere (jobs : FleetJobs) (id : String) (holds : FleetJob → Bool) (patch : FleetJob → FleetJob) :
    Option FleetJobs :=
  match jobs id with
  | some job => if holds job then some (Function.update jobs id (some (patch job))) else none
  | none => none

/-- `find`: which of the matching rows come back, and in what order, is up to the database. -/
def findWhere (jobs : FleetJobs) (holds : FleetJob → Bool) (found : List String) (limit : Nat) :
    List FleetJob :=
  (found.filterMap fun id => (jobs id).filter holds).take limit

def create (jobs : FleetJobs) (job : FleetJob) (now : Nat) : FleetJobs :=
  if (jobs job.id).isSome then jobs
  else Function.update jobs job.id (some
    { id := job.id, userId := job.userId, kind := job.kind, targetNodeId := job.targetNodeId
      payload := job.payload, requiredCapabilities := job.requiredCapabilities
      maxAttempts := job.maxAttempts, queuedReason := job.queuedReason, queuedAt := some now })

/-- `leaseGeneration` is the one this claim mints. -/
structure ClaimJobPatch where
  nodeId : String
  leaseExpiresAt : Nat
  attempts : Nat
  leaseGeneration : Nat

def claim (jobs : FleetJobs) (id : String) (patch : ClaimJobPatch) : Option FleetJobs :=
  jobs.updateWhere id
    (fun job => job.status = .queued ∧ job.cancelRequestedAt = none ∧
      job.leaseGeneration = patch.leaseGeneration - 1)
    fun job => { job with
      nodeId := some patch.nodeId, status := .leased, leaseExpiresAt := some patch.leaseExpiresAt
      attempts := patch.attempts, queuedReason := none, leaseGeneration := patch.leaseGeneration
      startedAt := none }

def heldUnder (nodeId : String) (leaseGeneration : Nat) (job : FleetJob) : Bool :=
  job.nodeId = some nodeId ∧ job.isActive ∧ job.leaseGeneration = leaseGeneration

def extendLease (jobs : FleetJobs) (id nodeId : String) (leaseExpiresAt startedAt leaseGeneration : Nat) :
    Option FleetJobs :=
  jobs.updateWhere id (heldUnder nodeId leaseGeneration)
    fun job => { job with
      leaseExpiresAt := some leaseExpiresAt, status := .running, startedAt := some startedAt }

structure FleetJobVerdict where
  status : FleetJobStatus
  result : Option JsonRecord
  error : Option Utf16
  completedAt : Nat

def complete (jobs : FleetJobs) (id nodeId : String) (verdict : FleetJobVerdict) (leaseGeneration : Nat) :
    Option FleetJobs :=
  jobs.updateWhere id (heldUnder nodeId leaseGeneration)
    fun job => { job with
      status := verdict.status, result := verdict.result, error := verdict.error
      completedAt := some verdict.completedAt, leaseExpiresAt := none }

structure ParkJobPatch where
  attempts : Nat
  queuedAt : Nat
  usageLimitParks : Nat
  queuedReason : Utf16

def parkForUsageLimit (jobs : FleetJobs) (id nodeId : String) (leaseGeneration : Nat)
    (patch : ParkJobPatch) : Option FleetJobs :=
  jobs.updateWhere id (heldUnder nodeId leaseGeneration)
    fun job => { job with
      status := .queued, nodeId := none, leaseExpiresAt := none, startedAt := none
      attempts := patch.attempts, queuedAt := some patch.queuedAt
      queuedReason := some patch.queuedReason, usageLimitParks := patch.usageLimitParks }

def cancelQueued (jobs : FleetJobs) (id : String) (error : Utf16) (completedAt : Nat) : Option FleetJobs :=
  jobs.updateWhere id (fun job => job.status = .queued)
    fun job => { job with
      status := .failed, error := some error, completedAt := some completedAt
      cancelRequestedAt := some completedAt, leaseExpiresAt := none, queuedReason := none }

def requestCancel (jobs : FleetJobs) (id : String) (now : Nat) : Option FleetJobs :=
  jobs.updateWhere id (fun job => job.isActive && job.cancelRequestedAt.isNone)
    fun job => { job with cancelRequestedAt := some now }

def failQueuedExpired (jobs : FleetJobs) (id : String) (cutoff : Nat) (error : Utf16) (completedAt : Nat) :
    Option FleetJobs :=
  jobs.updateWhere id
    (fun job => job.status = .queued && job.queuedAt.any (· < cutoff) && job.cancelRequestedAt.isNone)
    fun job => { job with
      status := .failed, error := some error, completedAt := some completedAt, leaseExpiresAt := none
      queuedReason := none }

structure ObservedFleetJobLease where
  status : FleetJobStatus
  nodeId : String
  leaseExpiresAt : Nat
  leaseGeneration : Nat

def ObservedFleetJobLease.holds (observed : ObservedFleetJobLease) (job : FleetJob) : Bool :=
  job.status = observed.status ∧ job.nodeId = some observed.nodeId ∧
    job.leaseExpiresAt = some observed.leaseExpiresAt ∧ job.leaseGeneration = observed.leaseGeneration

def reclaim (jobs : FleetJobs) (id : String) (observed : ObservedFleetJobLease) (now : Nat) :
    Option FleetJobs :=
  jobs.updateWhere id observed.holds
    fun job => { job with
      status := .queued, nodeId := none, leaseExpiresAt := none, queuedReason := none
      queuedAt := some now }

def failExhausted (jobs : FleetJobs) (id : String) (observed : ObservedFleetJobLease) (error : Utf16)
    (completedAt : Nat) : Option FleetJobs :=
  jobs.updateWhere id observed.holds
    fun job => { job with
      status := .failed, leaseExpiresAt := none, error := some error, completedAt := some completedAt }

def heldBy (userId nodeId : String) (job : FleetJob) : Bool :=
  job.userId = userId ∧ job.nodeId = some nodeId ∧ job.isActive

def releaseClaimsForNode (jobs : FleetJobs) (userId nodeId : String) (now : Nat) : FleetJobs := fun id =>
  (jobs id).map fun job =>
    if heldBy userId nodeId job then
      { job with status := .queued, nodeId := none, leaseExpiresAt := none, queuedAt := some now }
    else job

variable {holds : FleetJob → Bool}

theorem updateWhere_some {jobs after : FleetJobs} {id : String}
    {patch : FleetJob → FleetJob} :
    jobs.updateWhere id holds patch = some after ↔
      ∃ job, jobs id = some job ∧ holds job = true ∧
        after = Function.update jobs id (some (patch job)) := by
  unfold updateWhere
  cases jobs id with
  | none => simp
  | some job =>
    by_cases hit : holds job = true
    · simp only [hit, if_true, Option.some.injEq, exists_eq_left', true_and]
      exact eq_comm
    · simp [hit]

theorem updateWhere_none {jobs : FleetJobs} {id : String}
    {patch : FleetJob → FleetJob} :
    jobs.updateWhere id holds patch = none ↔ ∀ job, jobs id = some job → holds job = false := by
  unfold updateWhere
  cases jobs id with
  | none => simp
  | some job => by_cases hit : holds job = true <;> simp [hit]

theorem mem_findWhere {jobs : FleetJobs} {found : List String} {limit : Nat}
    {job : FleetJob} (member : job ∈ jobs.findWhere holds found limit) :
    holds job = true ∧ ∃ id, jobs id = some job := by
  obtain ⟨id, -, read⟩ := List.mem_filterMap.mp (List.mem_of_mem_take member)
  obtain ⟨row, hit⟩ := Option.filter_eq_some_iff.mp read
  exact ⟨hit, id, row⟩

end FleetJobs
end EverWorks.Fleet
