import EverWorks.Fleet.FleetJob

/-!
A call of `FleetJobService` is the list of what it has still to do: each entry is one read or one conditional update
of the rows with the code up to the next one.
-/

namespace EverWorks.Fleet
open Lib

/-- `AuthenticatedFleetNode`, with the model CLIs it is out of quota on. -/
structure AuthenticatedFleetNode where
  id : String
  userId : String
  capabilities : List Utf16
  throttled : List Utf16 := []

structure LeaseFleetJobsInput where
  max : JsonValue := .null
  leaseTtlSec : JsonValue := .null
  capabilities : Option (List Utf16) := none
  kinds : List FleetJobKind := []
  excludeKinds : List FleetJobKind := []

structure CompleteFleetJobInput where
  jobId : String
  success : Bool
  result : JsonValue := .null
  error : Option Utf16 := none
  leaseGeneration : JsonValue := .null

inductive FleetJobCompletionSource where
  | nodeReport | leaseExhausted | cancelled | queueExpired
  deriving DecidableEq

structure FleetJobCompletedEvent where
  job : FleetJobView
  userId : String
  source : FleetJobCompletionSource
  nodeId : Option String := none
  result : Option JsonRecord := none
  error : Option Utf16 := none

inductive CancelFleetJobState where
  | notFound | terminal | queuedDropped | cancelRequested
  deriving DecidableEq

structure CancelFleetJobOutcome where
  cancelled : Bool
  state : CancelFleetJobState
  deriving DecidableEq

/-- What the service reads from its configuration and from other parts of the platform. -/
structure FleetJobDeps where
  getQueuedMaxAgeSeconds : FleetJobKind → Nat
  /-- `readFleetJobModelUsageLimit(result, now)`: when the work may be retried. -/
  readModelUsageLimit : JsonValue → Nat → Option Nat
  /-- The bytes of `JSON.stringify`. -/
  jsonBytes : JsonValue → Nat

def fleetJobMaxLeaseBatch : Nat := 5
def fleetJobReclaimBatch : Nat := 200
def fleetJobMaxResultBytes : Nat := 256 * 1024
def fleetJobMaxErrorLength : Nat := 4096
def fleetJobMaxUsageLimitParks : Nat := 20
def fleetJobCancelledError : Utf16 := ascii "Cancelled by the operator before a node claimed it"
def fleetJobCancelledLeaseLapsedError : Utf16 :=
  ascii "Cancelled by the operator; the node holding it stopped reporting"
def fleetJobQueueExpiredReason : Utf16 := ascii "queued-max-age-exceeded"
def fleetJobModelUsageLimitQueuedReason : Utf16 := ascii "model-usage-limit"

def clampBatch : JsonValue → Nat
  | .number (.finite value) =>
    (min (max (if 0 ≤ value then ⌊value⌋ else ⌈value⌉) 1) fleetJobMaxLeaseBatch).toNat
  | _ => 1

def clampLeaseTtlSec : JsonValue → Nat
  | .number (.finite value) => (min (max ⌊value + 1 / 2⌋ 30) 3600).toNat
  | _ => 300

def isLeasableKind (kind : FleetJobKind) (input : LeaseFleetJobsInput) : Bool :=
  (input.kinds.isEmpty || input.kinds.contains kind) && !input.excludeKinds.contains kind

def nodeSatisfiesCapabilities (nodeCapabilities requiredCapabilities : List Utf16) : Bool :=
  requiredCapabilities.all nodeCapabilities.contains

def blockedByModelThrottle (job : FleetJob) (throttled : List Utf16) : Bool :=
  if throttled.isEmpty then false
  else if job.requiredCapabilities.any throttled.contains then true
  else if job.kind ≠ .agentTask then false
  else match job.payload.bind fun payload => Json.field payload "execution" with
    | some (.object execution) =>
      match Json.field execution "provider" with
      | some (.string provider) => throttled.contains provider
      | _ => false
    | _ => false

/-- `admitted` is the answer of the port that judges the node, refusals and failures alike. -/
def appWorkLeaseAdmits (candidate : FleetJob) (admitted : Bool) : Bool :=
  if candidate.kind ≠ .agentTask then true
  else match candidate.payload.bind fun payload => Json.field payload "appWorkId" with
    | some (.string workId) => workId.isEmpty || admitted
    | _ => true

/-- `supplied === generation` is for whole numbers from 1 on alone. -/
def isCurrentLeaseGeneration (job : FleetJob) : JsonValue → Bool
  | .number supplied =>
    supplied.isInteger && JsNumber.atMost 1 supplied && supplied.equals job.leaseGeneration
  | _ => false

def truncate (value : Option Utf16) (max : Nat) : Option Utf16 :=
  value.bind fun text => if (Utf16.trim text).isEmpty then none else some ((Utf16.trim text).take max)

/-- `none` where the value is refused with an exception. -/
def normalizePayload (deps : FleetJobDeps) (value : JsonValue) (maxBytes : Nat) :
    Option (Option JsonRecord) :=
  match value with
  | .null => some none
  | .object fields => if maxBytes < deps.jsonBytes value then none else some (some fields)
  | _ => none

def formatDuration (seconds : Nat) : Utf16 :=
  ascii (if seconds % 3600 = 0 then toString (seconds / 3600) ++ "h"
    else if seconds % 60 = 0 then toString (seconds / 60) ++ "m" else toString seconds ++ "s")

def describeQueueExpiry (job : FleetJob) (maxAgeSec : Nat) : Utf16 :=
  let head := fleetJobQueueExpiredReason ++ ascii ": no eligible runner took the job within " ++
    formatDuration maxAgeSec
  let pinned := match job.targetNodeId with
    | some node => ascii " (pinned to node " ++ ascii node ++ ascii ")"
    | none => []
  let tags := if job.requiredCapabilities.isEmpty then []
    else ascii " [requires " ++ (ascii ", ").intercalate job.requiredCapabilities ++ ascii "]"
  (truncate (some (head ++ pinned ++ tags)) fleetJobMaxErrorLength).getD fleetJobQueueExpiredReason

/-- A read or a conditional update a call is about to make, with the locals it will use. -/
inductive FleetJobTask where
  | reclaimExpired (userId : Option String)
  | reclaim (job : FleetJob) (now : Nat)
  | expireQueued (userId : Option String)
  | findQueuedOlderThan (userId : Option String) (kind : FleetJobKind) (now : Nat)
  | failQueuedExpired (job : FleetJob) (cutoff now : Nat)
  | findQueuedForNode (node : AuthenticatedFleetNode) (input : LeaseFleetJobsInput)
  | claim (node : AuthenticatedFleetNode) (input : LeaseFleetJobsInput) (leased : Nat)
      (candidates : List FleetJob)
  | heartbeat (node : AuthenticatedFleetNode) (jobId : String) (leaseTtlSec leaseGeneration : JsonValue)
  | extendLease (node : AuthenticatedFleetNode) (job : FleetJob) (leaseGeneration : JsonValue)
      (leaseExpiresAt startedAt : Nat)
  | complete (node : AuthenticatedFleetNode) (input : CompleteFleetJobInput)
  | settle (node : AuthenticatedFleetNode) (job : FleetJob) (leaseGeneration : JsonValue)
      (verdict : FleetJobs.FleetJobVerdict)
  | park (node : AuthenticatedFleetNode) (job : FleetJob) (leaseGeneration : JsonValue) (retryAt : Nat)
  | cancel (jobId : String)
  | cancelQueued (job : FleetJob) (now : Nat)
  | cancelClaimed (jobId : String) (now : Nat)
  | requestCancel (job : FleetJob) (now : Nat)
  | readCancelled (jobId : String)
  | releaseClaims (userId nodeId : String)

inductive FleetJobCall where
  | lease (node : AuthenticatedFleetNode) (input : LeaseFleetJobsInput)
  | heartbeatJob (node : AuthenticatedFleetNode) (jobId : String) (leaseTtlSec leaseGeneration : JsonValue)
  | completeJob (node : AuthenticatedFleetNode) (input : CompleteFleetJobInput)
  | cancel (jobId : String)
  | reclaimExpired (userId : Option String)
  | expireQueued (userId : Option String)
  | releaseClaimsForNode (userId nodeId : String)

def FleetJobCall.tasks : FleetJobCall → List FleetJobTask
  | lease node input =>
    [.reclaimExpired (some node.userId), .expireQueued (some node.userId), .findQueuedForNode node input]
  | heartbeatJob node jobId leaseTtlSec leaseGeneration =>
    [.heartbeat node jobId leaseTtlSec leaseGeneration]
  | completeJob node input => [.complete node input]
  | cancel jobId => [.cancel jobId]
  | reclaimExpired userId => [.reclaimExpired userId]
  | expireQueued userId => [.expireQueued userId]
  | releaseClaimsForNode userId nodeId => [.releaseClaims userId nodeId]

/-- The rows, and what became of them. -/
structure FleetJobBoard where
  jobs : FleetJobs := fun _ => none
  /-- The generation of the last claim of a job, until that claim is released. -/
  holds : String → Option Nat := fun _ => none
  /-- What `lease` calls returned. -/
  handed : List FleetJobView := []
  emitted : List FleetJobCompletedEvent := []
  /-- The jobs `cancel` answered `cancelled` for. -/
  cancelled : List String := []

/-- What the clock, the database's choice of rows and the admission port say to a task. -/
structure FleetJobEnv where
  now : Nat := 0
  found : List String := []
  admitted : Bool := true

namespace FleetJobBoard

variable (deps : FleetJobDeps) (board : FleetJobBoard) (env : FleetJobEnv)

def released (jobs : FleetJobs) (id : String) : FleetJobBoard :=
  { board with jobs, holds := Function.update board.holds id none }

def settled (jobs : FleetJobs) (event : FleetJobCompletedEvent) : FleetJobBoard :=
  { board with jobs, emitted := board.emitted ++ [event] }

def answered (jobId : String) (outcome : CancelFleetJobOutcome) : FleetJobBoard :=
  if outcome.cancelled then { board with cancelled := board.cancelled ++ [jobId] } else board

/-- The error a lapsed claim settles with, or `none` where it goes back in the queue. -/
def lapseError (job : FleetJob) : Option (Utf16 × FleetJobCompletionSource) :=
  if job.cancelRequestedAt.isSome then some (fleetJobCancelledLeaseLapsedError, .cancelled)
  else if job.maxAttempts ≤ job.attempts then
    some (ascii "Lease expired " ++ ascii (toString job.attempts) ++
      ascii " time(s) without a result; attempt budget exhausted", .leaseExhausted)
  else none

def reclaimRow (job : FleetJob) (now : Nat) : FleetJobBoard :=
  match job.nodeId, job.leaseExpiresAt with
  | some nodeId, some leaseExpiresAt =>
    let observed := ⟨job.status, nodeId, leaseExpiresAt, job.leaseGeneration⟩
    match lapseError job with
    | some (error, source) =>
      match board.jobs.failExhausted job.id observed error now with
      | some jobs =>
        board.settled jobs
          { job := toJobView { job with
              status := .failed, error := some error, completedAt := some now, leaseExpiresAt := none }
            userId := job.userId, source, nodeId := job.nodeId, error := some error }
      | none => board
    | none =>
      match board.jobs.reclaim job.id observed env.now with
      | some jobs => board.released jobs job.id
      | none => board
  | _, _ => board

def failQueuedExpiredRow (job : FleetJob) (cutoff now : Nat) : FleetJobBoard :=
  if job.queuedAt.isNone || job.cancelRequestedAt.isSome then board
  else
    let error := describeQueueExpiry job (deps.getQueuedMaxAgeSeconds job.kind)
    match board.jobs.failQueuedExpired job.id cutoff error now with
    | some jobs =>
      board.settled jobs
        { job := toJobView { job with
            status := .failed, error := some error, completedAt := some now, leaseExpiresAt := none
            queuedReason := none }
          userId := job.userId, source := .queueExpired, error := some error }
    | none => board

def offers (node : AuthenticatedFleetNode) (input : LeaseFleetJobsInput) (candidate : FleetJob)
    (admitted : Bool) : Bool :=
  candidate.targetNodeId.all (· = node.id) && isLeasableKind candidate.kind input &&
    nodeSatisfiesCapabilities (input.capabilities.getD node.capabilities) candidate.requiredCapabilities &&
    !blockedByModelThrottle candidate node.throttled && appWorkLeaseAdmits candidate admitted

def claimRow (node : AuthenticatedFleetNode) (input : LeaseFleetJobsInput) (candidate : FleetJob) :
    FleetJobBoard × Bool :=
  if offers node input candidate env.admitted then
    let leaseExpiresAt := env.now + clampLeaseTtlSec input.leaseTtlSec * 1000
    let attempts := candidate.attempts + 1
    let leaseGeneration := candidate.leaseGeneration + 1
    match board.jobs.claim candidate.id ⟨node.id, leaseExpiresAt, attempts, leaseGeneration⟩ with
    | some jobs =>
      ({ board with
          jobs
          holds := Function.update board.holds candidate.id (some leaseGeneration)
          handed := board.handed ++ [toJobView { candidate with
            nodeId := some node.id, status := .leased, leaseExpiresAt := some leaseExpiresAt, attempts
            queuedReason := none, leaseGeneration, startedAt := none }] }, true)
    | none => (board, false)
  else (board, false)

def settleRow (node : AuthenticatedFleetNode) (job : FleetJob) (verdict : FleetJobs.FleetJobVerdict) :
    FleetJobBoard :=
  match board.jobs.complete job.id node.id verdict job.leaseGeneration with
  | some jobs =>
    board.settled jobs
      { job := toJobView { job with
          status := verdict.status, result := verdict.result, error := verdict.error
          completedAt := some verdict.completedAt, leaseExpiresAt := none }
        userId := job.userId, source := .nodeReport, nodeId := some node.id, result := verdict.result
        error := verdict.error }
  | none => board

def parkRow (node : AuthenticatedFleetNode) (job : FleetJob) (retryAt : Nat) : FleetJobBoard :=
  match board.jobs.parkForUsageLimit job.id node.id job.leaseGeneration
      ⟨job.attempts - 1, retryAt, job.usageLimitParks + 1, fleetJobModelUsageLimitQueuedReason⟩ with
  | some jobs => board.released jobs job.id
  | none => board

/-- `completeJob` between its read and its write. -/
def completeTasks (node : AuthenticatedFleetNode) (input : CompleteFleetJobInput) (job : FleetJob) :
    List FleetJobTask :=
  let usageLimit := if input.success ∧ job.kind = .agentTask then deps.readModelUsageLimit input.result env.now
    else none
  match usageLimit with
  | some retryAt =>
    if job.usageLimitParks < fleetJobMaxUsageLimitParks then
      [.park node job input.leaseGeneration retryAt]
    else verdictTasks
  | none => verdictTasks
where
  verdictTasks : List FleetJobTask :=
    if input.success then
      match normalizePayload deps input.result fleetJobMaxResultBytes with
      | some result => [.settle node job input.leaseGeneration ⟨.done, result, none, env.now⟩]
      | none => []
    else
      [.settle node job input.leaseGeneration
        ⟨.failed, none, truncate input.error fleetJobMaxErrorLength, env.now⟩]

def readHeld (node : AuthenticatedFleetNode) (jobId : String) (leaseGeneration : JsonValue) : Option FleetJob :=
  (board.jobs jobId).filter fun job =>
    job.nodeId = some node.id ∧ job.isActive ∧ isCurrentLeaseGeneration job leaseGeneration

/-- `requestCancelOnActive` up to its update. -/
def requestCancelOnActive (job : FleetJob) (now : Nat) : FleetJobBoard × List FleetJobTask :=
  if job.cancelRequestedAt.isSome then (board.answered job.id ⟨true, .cancelRequested⟩, [])
  else (board, [.requestCancel job now])

def perform : FleetJobTask → FleetJobBoard × List FleetJobTask
  | .reclaimExpired userId =>
    let expired := board.jobs.findWhere (fun job =>
      userId.all (· = job.userId) && job.isActive && job.leaseExpiresAt.any (· < env.now))
      env.found fleetJobReclaimBatch
    (board, expired.map (.reclaim · env.now))
  | .reclaim job now => (board.reclaimRow env job now, [])
  | .expireQueued userId => (board, fleetJobKinds.map (.findQueuedOlderThan userId · env.now))
  | .findQueuedOlderThan userId kind now =>
    let cutoff := now - deps.getQueuedMaxAgeSeconds kind * 1000
    let stale := board.jobs.findWhere (fun job =>
      userId.all (· = job.userId) && job.kind = kind && job.status = .queued &&
        job.queuedAt.any (· < cutoff) && job.cancelRequestedAt.isNone)
      env.found fleetJobReclaimBatch
    (board, stale.map (.failQueuedExpired · cutoff now))
  | .failQueuedExpired job cutoff now => (board.failQueuedExpiredRow deps job cutoff now, [])
  | .findQueuedForNode node input =>
    let candidates := board.jobs.findWhere (fun job =>
      job.userId = node.userId && job.status = .queued && job.targetNodeId.all (· = node.id) &&
        isLeasableKind job.kind input)
      env.found (max (clampBatch input.max * 4) fleetJobMaxLeaseBatch)
    (board, [.claim node input 0 candidates])
  | .claim _ _ _ [] => (board, [])
  | .claim node input leased (candidate :: candidates) =>
    if clampBatch input.max ≤ leased then (board, [])
    else
      let (board, won) := board.claimRow env node input candidate
      (board, [.claim node input (if won then leased + 1 else leased) candidates])
  | .heartbeat node jobId leaseTtlSec leaseGeneration =>
    match board.readHeld node jobId leaseGeneration with
    | some job =>
      if job.cancelRequestedAt.isSome then (board, [])
      else
        (board, [.extendLease node job leaseGeneration (env.now + clampLeaseTtlSec leaseTtlSec * 1000)
          (job.startedAt.getD env.now)])
    | none => (board, [])
  | .extendLease node job _ leaseExpiresAt startedAt =>
    match board.jobs.extendLease job.id node.id leaseExpiresAt startedAt job.leaseGeneration with
    | some jobs => ({ board with jobs }, [])
    | none => (board, [])
  | .complete node input =>
    match board.readHeld node input.jobId input.leaseGeneration with
    | some job => (board, completeTasks deps env node input job)
    | none => (board, [])
  | .settle node job _ verdict => (board.settleRow node job verdict, [])
  | .park node job _ retryAt => (board.parkRow node job retryAt, [])
  | .cancel jobId =>
    match board.jobs jobId with
    | none => (board, [])
    | some job =>
      if job.isTerminal then (board, [])
      else if job.status = .queued then (board, [.cancelQueued job env.now])
      else board.requestCancelOnActive job env.now
  | .cancelQueued job now =>
    match board.jobs.cancelQueued job.id fleetJobCancelledError now with
    | some jobs =>
      ((board.settled jobs
        { job := toJobView { job with
            status := .failed, error := some fleetJobCancelledError, completedAt := some now
            leaseExpiresAt := none, cancelRequestedAt := some now }
          userId := job.userId, source := .cancelled, error := some fleetJobCancelledError }).answered
        job.id ⟨true, .queuedDropped⟩, [])
    | none => (board, [.cancelClaimed job.id now])
  | .cancelClaimed jobId now =>
    match board.jobs jobId with
    | none => (board, [])
    | some fresh => if fresh.isTerminal then (board, []) else board.requestCancelOnActive fresh now
  | .requestCancel job now =>
    match board.jobs.requestCancel job.id now with
    | some jobs => (({ board with jobs } : FleetJobBoard).answered job.id ⟨true, .cancelRequested⟩, [])
    | none => (board, [.readCancelled job.id])
  | .readCancelled jobId =>
    match board.jobs jobId with
    | some fresh =>
      if fresh.cancelRequestedAt.isSome then (board.answered jobId ⟨true, .cancelRequested⟩, [])
      else (board.answered jobId ⟨false, .terminal⟩, [])
    | none => (board.answered jobId ⟨false, .terminal⟩, [])
  | .releaseClaims userId nodeId =>
    ({ board with
        jobs := board.jobs.releaseClaimsForNode userId nodeId env.now
        holds := fun id =>
          if (board.jobs id).any (FleetJobs.heldBy userId nodeId) then none else board.holds id }, [])

end FleetJobBoard

structure FleetJobPlatform where
  board : FleetJobBoard := {}
  /-- What each call has still to do. -/
  calls : Nat → List FleetJobTask := fun _ => []

inductive FleetJobEvent where
  | enqueue (job : FleetJob) (now : Nat)
  | begin (id : Nat) (call : FleetJobCall)
  | advance (id : Nat) (env : FleetJobEnv)

def FleetJobPlatform.step (deps : FleetJobDeps) (platform : FleetJobPlatform) :
    FleetJobEvent → FleetJobPlatform
  | .enqueue job now =>
    { platform with board := { platform.board with jobs := platform.board.jobs.create job now } }
  | .begin id call =>
    if (platform.calls id).isEmpty then
      { platform with calls := Function.update platform.calls id call.tasks }
    else platform
  | .advance id env =>
    match platform.calls id with
    | [] => platform
    | task :: rest =>
      let (board, next) := platform.board.perform deps env task
      { board, calls := Function.update platform.calls id (next ++ rest) }

end EverWorks.Fleet
