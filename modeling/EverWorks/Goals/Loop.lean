import EverWorks.Goals.LoopRules
import EverWorks.Tasks.Task

/-!
The programs of one Goal's loop over the rows they read and save: ticks, manual advances and the operator's controls.
-/

namespace EverWorks.Goals
open Lib Lib.Utf16 Lib.Program

def maxGoalTasks : Nat := 500
def goalAwaitingMergeScan : Nat := 200
def maxConcurrentIterationsCap : Nat := 10

inductive AgentRunStatus
  | queued
  | running
  | completed
  | failed
  | cancelled
  deriving DecidableEq

/-- `ACTIVE_RUN_STATUSES`. -/
def AgentRunStatus.isActive (status : AgentRunStatus) : Bool := status == .queued || status == .running

structure AgentRun where
  id : Nat
  taskId : Nat
  status : AgentRunStatus
  startedAt : Option Int := none
  costCents : Option Int := none
  deriving DecidableEq

def AgentRun.isActive (run : AgentRun) : Bool := run.status.isActive

/-- A Task of the Goal. -/
structure IterationTask where
  id : Nat
  title : Utf16
  status : Tasks.TaskStatus := .todo
  agentId : Option Nat := none
  workId : Option Nat := none
  prNumber : Option Nat := none
  prUrl : Option String := none
  prState : Option String := none
  branchState : Option String := none
  deriving DecidableEq

inductive GoalWork
  | unavailable
  | appWork
  | other
  deriving DecidableEq

/-- A copy of the Goal as it was read; `afterCancel` says that a cancel had returned by then. -/
structure GoalCopy where
  goal : Goal
  afterCancel : Bool := false
  deriving DecidableEq

structure LoopControl where
  loopStatus : Option GoalLoopStatus
  archivedAt : Option Int
  deriving DecidableEq

/-- The rows of one Goal; its Tasks and their runs are in the order of their creation. `started` has an entry for each
iteration Task that was filed, `returned` for each cancel that returned, and `control` is the last of the operator's
controls. -/
structure LoopState where
  goal : Goal
  title : Utf16
  work : GoalWork := .other
  tasks : List IterationTask := []
  runs : List AgentRun := []
  next : Nat
  started : List GoalCopy := []
  returned : List (List Nat) := []
  control : Option LoopControl := none
  deriving DecidableEq

def iterationTitle (title : Utf16) (iteration : Nat) : Utf16 :=
  ofString "[Goal] " ++ title ++ ofString " — iteration " ++ ofString iteration.repr

def isDigitUnit (unit : UInt16) : Bool := 0x30 ≤ unit && unit ≤ 0x39

def lowerUnits (text : Utf16) : Utf16 := text.map fun unit => if 0x41 ≤ unit && unit ≤ 0x5A then unit + 0x20 else unit

/-- `/iteration\s+(\d+)\s*$/i`, read from the end. -/
def iterationFromTitle (title : Utf16) : Option Nat :=
  let back := title.reverse.dropWhile isWhiteSpace
  let digits := back.takeWhile isDigitUnit
  let front := back.dropWhile isDigitUnit
  if digits = [] then none
  else if (front.takeWhile isWhiteSpace).isEmpty then none
  else if (ofString "iteration").reverse.isPrefixOf (lowerUnits (front.dropWhile isWhiteSpace)) then
    some (Nat.ofDigitChars 10 (digits.reverse.map fun unit => Char.ofNat unit.toNat) 0)
  else none

inductive GoalWrite
  | spent (cents : Nat)
  | dispatched (iteration agentId : Nat)
  | terminal (loopStatus : GoalLoopStatus) (status : GoalStatus) (outcome : Option GoalOutcome)
      (nextCheckAt : Option Int)
  | paused
  | cancelled (inFlight : List Nat)
  | archived (archivedAt : Option Int) (loopStatus : Option GoalLoopStatus)
  deriving DecidableEq

/-- `saveGoalColumns`: the columns of a write and no others. -/
def GoalWrite.apply : GoalWrite → Goal → Goal
  | .spent cents, goal => { goal with spentCents := cents }
  | .dispatched iteration agentId, goal => { goal with iteration, activeAgentId := some agentId }
  | .terminal loopStatus status outcome nextCheckAt, goal =>
    { goal with loopStatus := some loopStatus, activeAgentId := none, status, outcome, nextCheckAt }
  | .paused, goal => { goal with loopStatus := some .paused }
  | .cancelled _, goal => { goal with loopStatus := some .cancelled, activeAgentId := none }
  | .archived archivedAt loopStatus, goal => { goal with archivedAt, loopStatus }

inductive LoopCall
  /-- The scan of `advanceDue`, for this Goal. -/
  | findDue
  | findGoal
  /-- `findOrThrow` of a cancel, which also tells which runs are in flight. -/
  | findGoalToCancel
  | findTasks
  /-- The runs of some Tasks; a cancel looks among them for those that were in flight when it was called. -/
  | findRuns (taskIds inFlight : List Nat)
  | findWork
  | findOpenPullRequests (workId : Option Nat)
  | findRunsInFlight (taskIds : List Nat)
  | createTask (copy : GoalCopy) (slot : DispatchSlot)
  | createRun (taskId : Nat) (status : AgentRunStatus)
  | save (copy : GoalCopy) (write : GoalWrite)
  | findRun (runId : Nat)
  | cancelRun (runId : Nat)
  /-- A worker takes a run up. -/
  | startRun (runId : Nat) (startedAt : Int)
  /-- A run ends. -/
  | endRun (runId : Nat) (completed : Bool)
  deriving DecidableEq

abbrev LoopReply : LoopCall → Type
  | .findDue => Bool
  | .findGoal => GoalCopy
  | .findGoalToCancel => GoalCopy × List Nat
  | .findTasks | .findOpenPullRequests _ => List IterationTask
  | .findRuns _ _ => List AgentRun
  | .findWork => GoalWork
  | .findRunsInFlight _ => List Nat
  | .createTask _ _ => Nat
  | .findRun _ => Option AgentRun
  | .createRun _ _ | .save _ _ | .cancelRun _ | .startRun _ _ | .endRun _ _ => Unit

abbrev LoopProgram := Program LoopCall LoopReply Empty

def startedBefore (one other : AgentRun) : Prop :=
  match one.startedAt, other.startedAt with
  | some first, some second => first ≤ second
  | some _, none | none, none => True
  | none, some _ => False

instance (one other : AgentRun) : Decidable (startedBefore one other) := by
  unfold startedBefore
  split <;> infer_instance

/-- The runs of some Tasks, `startedFirst`. -/
def runsOf (state : LoopState) (taskIds : List Nat) : List AgentRun :=
  (state.runs.filter (·.taskId ∈ taskIds)).insertionSort startedBefore

/-- `openPullRequestWhere`, with a status that is neither done nor cancelled. -/
def openPullRequestWhere (workId : Option Nat) (task : IterationTask) : Bool :=
  task.workId == workId && task.status ∉ [Tasks.TaskStatus.done, .cancelled] && task.prNumber.isSome &&
    task.prUrl.isSome && !task.prState.any (· ∈ ["merged", "closed"]) &&
    !task.branchState.any (· ∈ ["merged", "cleaned", "discarded"])

def hasOpenPullRequest (task : IterationTask) : Bool :=
  task.prNumber.any (· ≠ 0) && task.prUrl.any (· ≠ "") && !(task.prState = some "merged" ∨ task.prState = some "closed") &&
    task.branchState.getD "" ∉ ["merged", "cleaned", "discarded"]

def changeRun (runId : Nat) (change : AgentRun → AgentRun) (state : LoopState) : LoopState :=
  { state with runs := state.runs.map fun run => if run.id = runId then change run else run }

def LoopState.inFlight (state : LoopState) : List Nat := (state.runs.filter (·.isActive)).map (·.id)

def LoopState.copy (state : LoopState) : GoalCopy := ⟨state.goal, state.returned ≠ []⟩

def LoopState.note (state : LoopState) : GoalWrite → LoopState
  | .paused => { state with control := some ⟨some .paused, state.goal.archivedAt⟩ }
  | .cancelled inFlight =>
    { state with
      control := some ⟨some .cancelled, state.goal.archivedAt⟩
      returned := inFlight :: state.returned }
  | .archived archivedAt loopStatus => { state with control := some ⟨loopStatus, archivedAt⟩ }
  | .spent _ | .dispatched _ _ | .terminal _ _ _ _ => state

def serveLoop : (request : LoopCall) → LoopState → LoopReply request × LoopState
  | .findDue, state => (state.goal.loopStatus == some .running && state.goal.archivedAt.isNone, state)
  | .findGoal, state => (state.copy, state)
  | .findGoalToCancel, state => ((state.copy, state.inFlight), state)
  | .findTasks, state => (state.tasks.take maxGoalTasks, state)
  | .findRuns taskIds _, state => (runsOf state taskIds, state)
  | .findWork, state => (state.work, state)
  | .findOpenPullRequests workId, state =>
    ((state.tasks.filter (openPullRequestWhere workId)).take goalAwaitingMergeScan, state)
  | .findRunsInFlight taskIds, state =>
    ((state.runs.filter fun run => run.taskId ∈ taskIds && run.isActive).map (·.taskId), state)
  | .createTask copy slot, state =>
    (state.next, { state with
      tasks := state.tasks ++ [{
        id := state.next
        title := iterationTitle state.title slot.iteration
        agentId := some slot.agentId
        workId := copy.goal.workId }]
      next := state.next + 1
      started := copy :: state.started })
  | .createRun taskId status, state =>
    ((), { state with runs := state.runs ++ [⟨state.next, taskId, status, none, none⟩], next := state.next + 1 })
  | .save _ write, state => ((), { state.note write with goal := write.apply state.goal })
  | .findRun runId, state => (state.runs.find? (·.id = runId), state)
  | .cancelRun runId, state =>
    ((), changeRun runId (fun run => if run.isActive then { run with status := .cancelled } else run) state)
  | .startRun runId startedAt, state =>
    ((), changeRun runId (fun run =>
      if run.status = .queued then { run with status := .running, startedAt := some startedAt } else run) state)
  | .endRun runId completed, state =>
    ((), changeRun runId (fun run =>
      if run.isActive then { run with status := if completed then .completed else .failed } else run) state)

/-- How one slot of a dispatch goes: its Task is not filed; or it is, with a run of some status or none, and the
dispatch may throw after that. -/
inductive SlotOutcome
  | createFails
  | filed (run : Option AgentRunStatus) (throws : Bool)
  deriving DecidableEq

/-- What an advance finds outside the rows of the Goal. -/
structure AdvanceAnswers where
  now : Int
  agentFound : Nat → Bool
  scopeAgents : List Nat
  workReadable : Bool
  pullRequestsReadable : Bool
  tasksRuntime : Bool
  slots : Nat → SlotOutcome

/-- An Agent is found, the Tasks runtime is there, and every Task gets a run that is queued. -/
def plainAnswers : AdvanceAnswers where
  now := 0
  agentFound _ := true
  scopeAgents := [7]
  workReadable := true
  pullRequestsReadable := true
  tasksRuntime := true
  slots _ := .filed (some .queued) false

def loadGoalWork (inFlight : List Nat) : LoopProgram (List IterationTask × List AgentRun) := do
  let tasks : List IterationTask ← ask LoopCall.findTasks
  if tasks = [] then pure ([], [])
  else
    let runs ← ask (LoopCall.findRuns (tasks.map (·.id)) inFlight)
    pure (tasks, runs)

def spendOf (runs : List AgentRun) : Nat := (runs.map fun run => (run.costCents.getD 0).toNat).sum

structure GoalWorkState where
  unavailable : Bool := false
  unreadable : Bool := false
  awaitingMerge : List IterationTask := []

def goalWorkState (answers : AdvanceAnswers) (goal : Goal) : LoopProgram GoalWorkState :=
  if goal.workId = none then pure {}
  else do
    let work ← ask LoopCall.findWork
    if !answers.workReadable then pure { unreadable := true }
    else
      match work with
      | .unavailable => pure { unavailable := true }
      | .other => pure {}
      | .appWork => do
        let found : List IterationTask ← ask (LoopCall.findOpenPullRequests goal.workId)
        if !answers.pullRequestsReadable then pure { unreadable := true }
        else
          let candidates := found.filter hasOpenPullRequest
          let running : List Nat ← ask (LoopCall.findRunsInFlight (candidates.map (·.id)))
          pure { awaitingMerge := candidates.filter (·.id ∉ running) }

def historyCandidates (answers : AdvanceAnswers) (tasks : List IterationTask) : List GoalRoutingCandidate :=
  ((tasks.filterMap (·.agentId)).eraseDups.filter answers.agentFound).map (⟨·, .history⟩)

def resolveCandidates (answers : AdvanceAnswers) (goal : Goal) : LoopProgram (List GoalRoutingCandidate) :=
  match goal.assignedAgentId.filter answers.agentFound with
  | some agentId => pure [⟨agentId, .assigned⟩]
  | none => do
    let (tasks, _) ← loadGoalWork []
    let out := historyCandidates answers tasks
    if out ≠ [] ∨ goal.assignedAgentId.isSome then pure out
    else pure (answers.scopeAgents.map (⟨·, .scope⟩))

def loopInput (answers : AdvanceAnswers) (goal : Goal) (spent : Nat) (runs : List AgentRun) (work : GoalWorkState)
    (candidates : List GoalRoutingCandidate) : GoalLoopInput where
  loopStatus := goal.loopStatus
  dod := summarizeDoD goal.criteria
  iteration := goal.iteration
  lastProgressIteration := goal.lastProgressIteration
  stuckThresholdIterations := goal.stuckThresholdIterations
  spendCapCents := goal.spendCapCents
  spentCents := spent
  wallClockLimitHours := goal.wallClockLimitHours
  loopStartedAt := goal.loopStartedAt
  gracePeriodMinutes := goal.gracePeriodMinutes
  hasRunInFlight := runs.any (·.isActive)
  runsInFlight := (runs.filter (·.isActive)).length
  maxConcurrentIterations := goal.maxConcurrentIterations.map (min · maxConcurrentIterationsCap)
  pullRequestsAwaitingMerge := work.awaitingMerge.length
  workUnavailable := work.unavailable
  workUnreadable := work.unreadable
  candidates
  now := answers.now

def dispatchSlots (answers : AdvanceAnswers) (copy : GoalCopy) : List DispatchSlot → Nat → LoopProgram (List DispatchSlot)
  | [], _ => pure []
  | slot :: rest, index =>
    match answers.slots index with
    | .createFails => pure []
    | .filed run throws => do
      let taskId ← ask (LoopCall.createTask copy slot)
      match run with
      | some status => ask (LoopCall.createRun taskId status)
      | none => pure ()
      if throws then pure []
      else do
        let landed ← dispatchSlots answers copy rest (index + 1)
        pure (slot :: landed)

def applyDispatch (answers : AdvanceAnswers) (copy : GoalCopy) (slots : List DispatchSlot) : LoopProgram Unit :=
  if !answers.tasksRuntime then pure ()
  else do
    let landed ← dispatchSlots answers copy slots 0
    match landed.getLast? with
    | none => pure ()
    | some last => ask (LoopCall.save copy (.dispatched last.iteration last.agentId))

def applyTerminal (copy : GoalCopy) (loopStatus : GoalLoopStatus) : LoopProgram Unit :=
  let goal := copy.goal
  if loopStatus = .done ∧ isDeliveryGoal goal ∧ goal.status ≠ .completed then
    ask (LoopCall.save copy (.terminal loopStatus .completed (some .achieved) none))
  else ask (LoopCall.save copy (.terminal loopStatus goal.status goal.outcome goal.nextCheckAt))

/-- The rest of `advanceOne`, once the spend is known. -/
def advanceOn (answers : AdvanceAnswers) (copy : GoalCopy) (spent : Nat) : LoopProgram Unit := do
  let (_, runs) ← loadGoalWork []
  let work ← goalWorkState answers copy.goal
  let candidates ← resolveCandidates answers copy.goal
  match (decideGoalLoop (loopInput answers copy.goal spent runs work candidates)).action with
  | .dispatch slots => applyDispatch answers copy slots
  | .complete => applyTerminal copy .done
  | .pause => applyTerminal copy .paused
  | .stuck => applyTerminal copy .stuck
  | .wait | .noop => pure ()

def advanceOne (answers : AdvanceAnswers) (copy : GoalCopy) : LoopProgram Unit := do
  let (_, spending) ← loadGoalWork []
  if copy.goal.spentCents ≠ spendOf spending then
    ask (LoopCall.save copy (.spent (spendOf spending)))
  advanceOn answers copy (spendOf spending)

/-- One Goal's share of `advanceDue`. -/
def tick (answers : AdvanceAnswers) : LoopProgram Unit := do
  let due ← ask LoopCall.findDue
  if !due then pure ()
  else
    let copy ← ask LoopCall.findGoal
    if copy.goal.loopStatus ≠ some .running ∨ copy.goal.archivedAt.isSome then pure ()
    else advanceOne answers copy

def advance (answers : AdvanceAnswers) : LoopProgram Unit := do
  let copy ← ask LoopCall.findGoal
  advanceOne answers copy

def pauseLoop : LoopProgram Unit := do
  let copy ← ask LoopCall.findGoal
  if copy.goal.loopStatus ≠ some .running then pure ()
  else ask (LoopCall.save copy .paused)

def cancelActiveRun (canCancel : Bool) (inFlight : List Nat) : LoopProgram Bool := do
  let (_, runs) ← loadGoalWork inFlight
  match runs.find? (·.isActive) with
  | none => pure true
  | some active =>
    if !canCancel then pure false
    else do
      let found : Option AgentRun ← ask (LoopCall.findRun active.id)
      if found.any (·.isActive) then do
        ask (LoopCall.cancelRun active.id)
        pure true
      else pure true

def cancelLoop (canCancel : Bool) : LoopProgram Unit := do
  let (copy, inFlight) ← ask LoopCall.findGoalToCancel
  let went ← cancelActiveRun canCancel inFlight
  if !went then pure ()
  else ask (LoopCall.save copy (.cancelled inFlight))

def archive (now : Int) : LoopProgram Unit := do
  let copy ← ask LoopCall.findGoal
  if copy.goal.archivedAt.isSome then pure ()
  else
    ask (LoopCall.save copy (.archived (some now)
      (if copy.goal.loopStatus = some .running then some .paused else copy.goal.loopStatus)))

/-- What may run beside one another. -/
inductive LoopJob
  | tick (answers : AdvanceAnswers)
  | advance (answers : AdvanceAnswers)
  | pauseLoop
  | cancelLoop (canCancel : Bool)
  | archive (now : Int)
  | startRun (runId : Nat) (startedAt : Int)
  | endRun (runId : Nat) (completed : Bool)

def LoopJob.run : LoopJob → LoopProgram Unit
  | .tick answers => Goals.tick answers
  | .advance answers => Goals.advance answers
  | .pauseLoop => Goals.pauseLoop
  | .cancelLoop canCancel => Goals.cancelLoop canCancel
  | .archive now => Goals.archive now
  | .startRun runId startedAt => ask (LoopCall.startRun runId startedAt)
  | .endRun runId completed => ask (LoopCall.endRun runId completed)

end EverWorks.Goals
