import EverWorks.Agents.RunAdmission

/-!
Where a run ends, its Work's oldest parked run is looked up, admitted again and handed to the runtime. If it is
refused the drain ends: it stays the oldest, and no younger one is looked at before it has gone.
-/

namespace EverWorks.Agents.Dispatch
open List

inductive AgentRunTriggerKind where
  | heartbeat | manual | task | chat | event | conversation | session
  deriving DecidableEq

/-- The columns of a run's row that a drain reads or writes. -/
structure AgentRun where
  id : String
  userId : String
  agentId : Option String
  workId : Option String
  organizationId : Option String := none
  taskId : Option String
  triggerKind : AgentRunTriggerKind := .task
  chatMessageId : Option String := none
  status : AgentRunStatus := .queued
  queuedReason : Option QueuedReason := none
  triggerRunId : Option String := none
  errorMessage : Option String := none
  createdAt : ℤ
  deriving DecidableEq

inductive Enqueued where
  | accepted (runId : Option String)
  | killSwitchActive (message : String)
  | notConfigured (message : String)
  | failed (message : String)

/-- The service: its chain with what it reads, and the dispatchers that are bound. -/
structure RunDispatchGate where
  admissionChain : List RunAdmissionMiddleware
  context : RunAdmissionContext
  dispatcher : Option (AgentRun → Enqueued)
  chatDispatcher : Option (AgentRun → Enqueued)

inductive DrainReason where
  | noCandidate | overLimit | claimLost | noDispatcher | dispatchFailed
  deriving DecidableEq

inductive RunDispatchDrainResult where
  | dispatched (runId : String)
  | refused (reason : DrainReason)
  deriving DecidableEq

def RunDispatchDrainResult.isDispatched : RunDispatchDrainResult → Bool
  | .dispatched _ => true
  | .refused _ => false

abbrev AgentRuns := List AgentRun

def parked (runs : AgentRuns) (workId : String) (queuedReason : QueuedReason) : AgentRuns :=
  runs.filter fun run => run.workId = some workId ∧ run.status = .queued ∧ run.queuedReason = some queuedReason

/-- The order of `createdAt`, as one computes with it. -/
local instance createdAtOrder : Preorder ℤ := Int.instLinearOrder.toPreorder

def findOldestQueuedForConcurrency (runs : AgentRuns) (workId : String) (queuedReason : QueuedReason) :
    Option AgentRun :=
  (parked runs workId queuedReason).argmin (·.createdAt)

/-- `UPDATE … WHERE id = :id AND …`, with whether it found its row. -/
def updateWhere (runs : AgentRuns) (id : String) (where_ : AgentRun → Bool) (set : AgentRun → AgentRun) :
    Bool × AgentRuns :=
  (runs.any fun run => run.id = id && where_ run,
    runs.map fun run => if run.id = id && where_ run then set run else run)

def claimQueuedForDispatch (runs : AgentRuns) (id : String) (queuedReason : QueuedReason) : Bool × AgentRuns :=
  updateWhere runs id (fun run => run.status = .queued && run.queuedReason = some queuedReason)
    ({ · with queuedReason := none })

def relabelQueuedReason (runs : AgentRuns) (id : String) (source target : QueuedReason) : AgentRuns :=
  (updateWhere runs id (fun run => run.status = .queued && run.queuedReason = some source)
    ({ · with queuedReason := some target })).2

def restoreQueuedReason (runs : AgentRuns) (id : String) (queuedReason : QueuedReason) : AgentRuns :=
  (updateWhere runs id (fun run => run.status = .queued && run.queuedReason.isNone)
    ({ · with queuedReason := some queuedReason })).2

def setTriggerRunId (runs : AgentRuns) (id triggerRunId : String) : AgentRuns :=
  (updateWhere runs id (fun run => run.triggerRunId.isNone) ({ · with triggerRunId := some triggerRunId })).2

def markDispatchFailed (runs : AgentRuns) (id errorMessage : String) : AgentRuns :=
  (updateWhere runs id (fun run => run.status = .queued)
    ({ · with status := .failed, errorMessage := some errorMessage })).2

def relabellableParkReasons : List QueuedReason := [.killSwitch, .agentPaused, .appChangesPaused]

namespace RunDispatchGate

variable (gate : RunDispatchGate)

/-- `admit`, as a drain asks it about a parked run. -/
def admitCandidate (candidate : AgentRun) : Answer RunAdmissionVerdict :=
  composeRunAdmission gate.admissionChain gate.context
    { userId := candidate.userId, workId := candidate.workId, organizationId := candidate.organizationId,
      agentId := candidate.agentId }

def viaChat (candidate : AgentRun) : Bool := candidate.triggerKind = .chat && (given candidate.chatMessageId).isSome

def dispatcherOf (candidate : AgentRun) : Option (AgentRun → Enqueued) :=
  if viaChat candidate then gate.chatDispatcher else gate.dispatcher

def enqueued (runs : AgentRuns) (candidate : AgentRun) : Enqueued → RunDispatchDrainResult × AgentRuns
  | .accepted runId =>
    (.dispatched candidate.id,
      match given runId with
      | some handle => setTriggerRunId runs candidate.id handle
      | none => runs)
  | .killSwitchActive _ => (.refused .overLimit, restoreQueuedReason runs candidate.id .killSwitch)
  | .notConfigured message =>
    (.refused .dispatchFailed,
      markDispatchFailed runs candidate.id ("job-runtime-not-configured: " ++ message))
  | .failed message =>
    (.refused .dispatchFailed, markDispatchFailed runs candidate.id ("dispatch-failed: " ++ message))

def relabelled (runs : AgentRuns) (candidate : AgentRun) (queuedReason : QueuedReason) :
    Option QueuedReason → AgentRuns
  | some other =>
    if queuedReason ∈ relabellableParkReasons ∧ other ≠ queuedReason then
      relabelQueuedReason runs candidate.id queuedReason other
    else runs
  | none => runs

def promoteCandidate (runs : AgentRuns) (candidate : AgentRun) (queuedReason : QueuedReason) :
    RunDispatchDrainResult × AgentRuns :=
  match given candidate.taskId with
  | none => (.refused .noCandidate, runs)
  | some _ =>
    match gate.admitCandidate candidate with
    | .error _ => (.refused .dispatchFailed, runs)
    | .ok admission =>
      if !admission.admitted then (.refused .overLimit, relabelled runs candidate queuedReason admission.queuedReason)
      else
        match gate.dispatcherOf candidate with
        | none => (.refused .noDispatcher, runs)
        | some enqueue =>
          let (claimed, runs) := claimQueuedForDispatch runs candidate.id queuedReason
          if claimed then enqueued runs candidate (enqueue candidate) else (.refused .claimLost, runs)

def drainForWork (runs : AgentRuns) (workId : String) (queuedReason : QueuedReason) :
    RunDispatchDrainResult × AgentRuns :=
  match findOldestQueuedForConcurrency runs workId queuedReason with
  | none => (.refused .noCandidate, runs)
  | some candidate => gate.promoteCandidate runs candidate queuedReason

/-- A run that is bound to a task, has its dispatcher bound and would be admitted now. -/
structure Sendable (run : AgentRun) : Prop where
  task : (given run.taskId).isSome = true
  bound : (gate.dispatcherOf run).isSome = true
  admitted : ∃ verdict, gate.admitCandidate run = .ok verdict ∧ verdict.admitted = true

/-- Its dispatcher takes the run. -/
def Accepts (run : AgentRun) : Prop :=
  ∃ enqueue ∈ gate.dispatcherOf run, ∃ runId, enqueue run = .accepted runId

/-- Where some parked run can go out, a drain of its Work dispatches one. -/
def WorkConserving (runs : AgentRuns) (workId : String) : Prop :=
  (∃ run ∈ parked runs workId .concurrencyLimit, gate.Sendable run) →
    (gate.drainForWork runs workId .concurrencyLimit).1.isDispatched = true

/-- Where some parked run can go out, the oldest one can, and its dispatcher takes it. -/
def HeadGoesOut (runs : AgentRuns) (workId : String) : Prop :=
  (∃ run ∈ parked runs workId .concurrencyLimit, gate.Sendable run) →
    ∀ oldest ∈ findOldestQueuedForConcurrency runs workId .concurrencyLimit,
      gate.Sendable oldest ∧ gate.Accepts oldest

end RunDispatchGate

section Drain

variable {gate : RunDispatchGate} {runs : AgentRuns} {workId : String} {queuedReason : QueuedReason}
  {candidate : AgentRun}

theorem claimed_of_parked (member : candidate ∈ parked runs workId queuedReason) :
    (claimQueuedForDispatch runs candidate.id queuedReason).1 = true := by
  obtain ⟨inRuns, isParked⟩ := mem_filter.mp member
  have columns : candidate.workId = some workId ∧ candidate.status = .queued ∧
      candidate.queuedReason = some queuedReason := of_decide_eq_true isParked
  refine any_eq_true.mpr ⟨candidate, inRuns, ?_⟩
  simp [columns.2.1, columns.2.2]

theorem enqueued_isDispatched {answer : Enqueued} :
    (RunDispatchGate.enqueued runs candidate answer).1.isDispatched = true ↔ ∃ runId, answer = .accepted runId := by
  cases answer <;> simp [RunDispatchGate.enqueued, RunDispatchDrainResult.isDispatched]

theorem promoteCandidate_isDispatched (member : candidate ∈ parked runs workId queuedReason) :
    (gate.promoteCandidate runs candidate queuedReason).1.isDispatched = true ↔
      gate.Sendable candidate ∧ gate.Accepts candidate := by
  rw [RunDispatchGate.promoteCandidate]
  cases task : given candidate.taskId with
  | none =>
    refine iff_of_false nofun fun both => ?_
    have isTask := both.1.task
    rw [task] at isTask
    cases isTask
  | some taskId =>
    cases admission : gate.admitCandidate candidate with
    | error thrown =>
      refine iff_of_false nofun fun both => ?_
      obtain ⟨verdict, isVerdict, _⟩ := both.1.admitted
      rw [admission] at isVerdict
      cases isVerdict
    | ok verdict =>
      dsimp only
      cases admitted : verdict.admitted with
      | false =>
        refine iff_of_false nofun fun both => ?_
        obtain ⟨other, isVerdict, isAdmitted⟩ := both.1.admitted
        rw [admission] at isVerdict
        cases isVerdict
        rw [admitted] at isAdmitted
        cases isAdmitted
      | true =>
        cases bound : gate.dispatcherOf candidate with
        | none =>
          refine iff_of_false nofun fun both => ?_
          have isBound := both.1.bound
          rw [bound] at isBound
          cases isBound
        | some enqueue =>
          have claimed := claimed_of_parked member
          simp only [Bool.not_true, Bool.false_eq_true, if_false, claimed, if_true, enqueued_isDispatched]
          constructor
          · rintro ⟨runId, accepted⟩
            exact ⟨⟨by rw [task]; rfl, by rw [bound]; rfl, verdict, admission, admitted⟩, enqueue, bound, runId,
              accepted⟩
          · rintro ⟨_, other, isBound, runId, accepted⟩
            rw [Option.mem_def, bound, Option.some.injEq] at isBound
            exact ⟨runId, isBound ▸ accepted⟩

theorem oldest_mem (found : candidate ∈ findOldestQueuedForConcurrency runs workId queuedReason) :
    candidate ∈ parked runs workId queuedReason := argmin_mem found

/-- A drain conserves work exactly if, where some run can go out, the oldest one does. -/
theorem drain_workConserving_iff (gate : RunDispatchGate) (runs : AgentRuns) (workId : String) :
    gate.WorkConserving runs workId ↔ gate.HeadGoesOut runs workId := by
  refine forall_congr' fun some_ => ?_
  rw [RunDispatchGate.drainForWork]
  cases found : findOldestQueuedForConcurrency runs workId .concurrencyLimit with
  | none =>
    obtain ⟨run, member, _⟩ := some_
    have empty : parked runs workId .concurrencyLimit = [] := argmin_eq_none.mp found
    rw [empty] at member
    cases member
  | some oldest =>
    dsimp only
    rw [promoteCandidate_isDispatched (oldest_mem found)]
    constructor
    · intro goes other same
      cases same
      exact goes
    · exact fun goes => goes oldest rfl

end Drain

def onePaused : RunDispatchGate where
  admissionChain := defaultRunAdmissionChain
  context := {
    countInFlightForWork := fun _ => .ok 0
    countInFlightForOrganization := fun _ => .ok 0
    countInFlightForUser := fun _ => .ok 0
    resolveWorkLimit := 10, resolveOrgLimit := 25
    isCreditsEnforcementEnabled := false, creditsPrecheck := none
    isPlanConcurrencyEnabled := false, planLimits := none
    killSwitch := some (.ok false)
    agentBrake := some fun agentId => .ok (agentId = "paused") }
  dispatcher := some fun _ => .accepted none
  chatDispatcher := none

def pausedFirst : AgentRuns := [
  { id := "older", userId := "owner", agentId := some "paused", workId := some "work", taskId := some "first"
    queuedReason := some .concurrencyLimit, createdAt := 1 },
  { id := "younger", userId := "owner", agentId := some "working", workId := some "work", taskId := some "second"
    queuedReason := some .concurrencyLimit, createdAt := 2 }]

/-- The younger run could go out, and no drain ever looks at it. -/
theorem paused_run_blocks_work :
    onePaused.drainForWork pausedFirst "work" .concurrencyLimit = (.refused .overLimit, pausedFirst) ∧
      ¬ onePaused.WorkConserving pausedFirst "work" := by
  have refused : onePaused.drainForWork pausedFirst "work" .concurrencyLimit = (.refused .overLimit, pausedFirst) := by
    rfl
  refine ⟨refused, fun conserving => ?_⟩
  have dispatched := conserving ⟨_, mem_cons_of_mem _ mem_cons_self, rfl, rfl, _, rfl, rfl⟩
  rw [refused] at dispatched
  cases dispatched

end EverWorks.Agents.Dispatch
