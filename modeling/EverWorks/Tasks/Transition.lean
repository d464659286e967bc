import EverWorks.Tasks.Task

/-!
`transition` with its gates and its compare-and-set, the auto-unblock cascade that a resolved task starts, and the
sync walk along a shortest path, as programs over the repository calls.
-/

namespace EverWorks.Tasks
open Lib Lib.Program

inductive TaskActorType where
  | user | agent
  deriving DecidableEq

structure TransitionOptions where
  force : Bool := false
  actorType : Option TaskActorType := none
  suppressAgentDispatch : Bool := false
  suppressAgentFanOut : Bool := false
  automaticRestore : Bool := false
  ownRunTask : Bool := false

def withoutAgentForce (opts : TransitionOptions) : TransitionOptions :=
  if opts.actorType = some .agent && opts.force then { opts with force := false } else opts

def withAgentFanOutSuppressed (around : Surroundings) (opts : TransitionOptions) (to' : TaskStatus) :
    TransitionOptions :=
  if opts.actorType ≠ some .agent || opts.suppressAgentFanOut then opts
  else if !around.agentTransitionsNoFanOut then opts
  else if opts.ownRunTask && to' ≠ .inProgress then opts
  else { opts with suppressAgentFanOut := true }

def awaitingOwnerLabel : String := "awaiting-owner"

def isAwaitingOwner (task : Task) : Bool := task.labels.contains awaitingOwnerLabel

def withoutAwaitingOwner (labels : List String) : List String := labels.filter (· ≠ awaitingOwnerLabel)

inductive Refusal where
  | awaitingOwner (task : TaskId)
  | agentBlockLift (task : TaskId)
  | cannotTransition (source target : TaskStatus)
  | openBlockers (target : TaskStatus) (count : Nat)
  | refusingGate (gate : RefusingGate)
  | notApproved
  | vanished (task : TaskId)
  deriving DecidableEq

/-- Whether the refusal is a `ConflictException`. -/
def Refusal.isConflict : Refusal → Bool
  | .openBlockers .. | .refusingGate _ | .notApproved | .vanished _ => true
  | .awaitingOwner _ | .agentBlockLift _ | .cannotTransition .. => false

def openAmong : List TaskId → TaskProgram (List TaskId)
  | [] => pure []
  | id :: rest => do
    let found ← ask (.findById id)
    let later ← openAmong rest
    return if (found : Option Task).any (!·.status.resolved) then id :: later else later

def listOpenBlockerIds (taskId : TaskId) : TaskProgram (List TaskId) := do
  let rows ← ask (.findByTaskId taskId)
  openAmong ((rows : List TaskBlock).map (·.blockedByTaskId))

def refusedAtOnce (around : Surroundings) (task : Task) (target : TaskStatus) (opts : TransitionOptions) :
    Option Refusal :=
  let agent := opts.actorType = some .agent
  if isAwaitingOwner task && agent then some (.awaitingOwner task.id)
  else if task.status = .blocked && target ≠ .blocked && agent && !opts.automaticRestore &&
      !around.agentMayLiftBlock then some (.agentBlockLift task.id)
  else if target ∉ allowed task.status then some (.cannotTransition task.status target)
  else none

/-- The blockers that hold back a move into `in_progress` or `done`. -/
def blockerGate (task : Task) (target : TaskStatus) : TaskProgram (List TaskId) :=
  if target = .inProgress || target = .done then listOpenBlockerIds task.id else pure []

def reviewEntryGate (task : Task) (target : TaskStatus) (opts : TransitionOptions) :
    TaskProgram (Option RefusingGate) :=
  if task.status = .inProgress && target = .inReview && opts.actorType = some .agent && !opts.force then
    ask (TaskCall.findRefusingGateStatus task.id)
  else pure none

def approverGate (task : Task) (target : TaskStatus) (opts : TransitionOptions) : TaskProgram Bool :=
  if target = .done && !opts.force && task.requireAllApprovers then ask (TaskCall.allApproved task.id) else pure true

def closedGate (task : Task) (target : TaskStatus) (opts : TransitionOptions) : TaskProgram (Option Refusal) := do
  let openBlockers ← blockerGate task target
  if openBlockers ≠ [] then return some (.openBlockers target openBlockers.length)
  else
    match ← reviewEntryGate task target opts with
    | some gate => return some (.refusingGate gate)
    | none =>
      let approved ← approverGate task target opts
      return if approved then none else some .notApproved

def transitionPatch (around : Surroundings) (task : Task) (target : TaskStatus) (opts : TransitionOptions) :
    TaskPatch :=
  let ownerStarts := isAwaitingOwner task && (target = .todo || target = .inProgress) &&
    opts.actorType ≠ some .agent && !opts.suppressAgentDispatch && !opts.suppressAgentFanOut &&
    !opts.automaticRestore
  { status := target
    labels := if ownerStarts then some (withoutAwaitingOwner task.labels) else none
    startedAt := if target = .inProgress && task.startedAt.isNone then some around.now else none
    completedAt := if target = .done then some around.now else none
    previousStatus :=
      if task.status = .blocked then some none
      else if target = .blocked then some (some task.status)
      else none }

def releaseDependents (task : Task) (target : TaskStatus) (opts : TransitionOptions) : TaskProgram Unit :=
  if target.resolved then
    start
      { blockerTaskId := task.id
        suppressAgentDispatch := opts.suppressAgentDispatch
        suppressAgentFanOut := opts.suppressAgentFanOut }
  else pure ()

def landing (around : Surroundings) (task : Task) (target : TaskStatus) (opts : TransitionOptions) :
    TaskProgram (Except Refusal Task) := do
  let won ← ask (.casUpdateStatus task.id task.status (transitionPatch around task target opts))
  if !(won : Bool) then return .error (.cannotTransition task.status target)
  else
    match (← ask (.findById task.id) : Option Task) with
    | none => return .error (.vanished task.id)
    | some refreshed =>
      releaseDependents refreshed target opts
      return .ok refreshed

def transition (around : Surroundings) (task : Task) (target : TaskStatus) (opts : TransitionOptions) :
    TaskProgram (Except Refusal Task) := do
  let opts := withAgentFanOutSuppressed around (withoutAgentForce opts) target
  match refusedAtOnce around task target opts with
  | some refusal => return .error refusal
  | none =>
    match ← closedGate task target opts with
    | some refusal => return .error refusal
    | none => landing around task target opts

def restoreOptions (cascade : Cascade) : TransitionOptions where
  suppressAgentDispatch := cascade.suppressAgentDispatch
  suppressAgentFanOut := cascade.suppressAgentFanOut
  automaticRestore := true

def restoreTo (blocked : Task) : TaskStatus := blocked.previousStatus.getD .todo

def tryUnblockSingleTask (around : Surroundings) (cascade : Cascade) (taskId : TaskId) : TaskProgram Bool := do
  match (← ask (.findById taskId) : Option Task) with
  | none => return false
  | some blocked =>
    if blocked.status ≠ .blocked then return false
    else
      let openBlockers ← listOpenBlockerIds taskId
      if openBlockers ≠ [] then return false
      else
        match ← transition around blocked (restoreTo blocked) (restoreOptions cascade) with
        | .ok _ => return true
        | .error _ => return false

def unblockEach (around : Surroundings) (cascade : Cascade) : List TaskId → TaskProgram (List TaskId)
  | [] => pure []
  | id :: rest => do
    let unblocked ← tryUnblockSingleTask around cascade id
    let later ← unblockEach around cascade rest
    return if unblocked then id :: later else later

def autoUnblockResolvedTasks (around : Surroundings) (cascade : Cascade) : TaskProgram (List TaskId) := do
  let blockedTaskIds ← ask (.findTasksBlockedBy cascade.blockerTaskId)
  unblockEach around cascade blockedTaskIds

end EverWorks.Tasks
