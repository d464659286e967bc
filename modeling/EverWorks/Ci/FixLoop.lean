import EverWorks.Ci.HeadCommit
import EverWorks.Lib.Guarantee
import EverWorks.Lib.Utf16
import EverWorks.Tasks.Task

/-!
A red check or a recorded rejection may resume the task's last authoring run. The ledger of attempts is the budget
and its unique claim key the guard against a second resume; each repository call is served at once.
-/

namespace EverWorks.Ci
open Lib Tasks Program

inductive AutoResumeTrigger where
  | ci | review
  deriving DecidableEq

inductive ResumeCause where
  | commit (headSha : String)
  | rejection (id : String)
  deriving DecidableEq

namespace ResumeCause

def trigger : ResumeCause → AutoResumeTrigger
  | commit _ => .ci
  | rejection _ => .review

/-- `ciAutoResumeClaimKey` and `reviewAutoResumeClaimKey`. -/
def claimKey : ResumeCause → String
  | commit headSha => "ci:" ++ headSha
  | rejection id => "review:" ++ id

def commit? : ResumeCause → Option String
  | commit headSha => some headSha
  | rejection _ => none

def rejection? : ResumeCause → Option String
  | commit _ => none
  | rejection id => some id

end ResumeCause

def claimKeyMaxChars : Nat := 200

def storedKey (claimKey : String) : Utf16 := (Utf16.ofString claimKey).take claimKeyMaxChars

/-- A row of the ledger. `delivery` stands for the row's own id, by which its claimant knows it. -/
structure Attempt where
  delivery : Nat
  trigger : AutoResumeTrigger
  claimKey : Utf16
  headSha : Option String
  failureKey : Option String
  sourceRunId : String
  deriving DecidableEq

/-- A `resumeRun` call. -/
structure Resume where
  delivery : Nat
  runId : String
  cause : ResumeCause
  deriving DecidableEq

structure LoopState where
  task : CiTask := {}
  noticedAt : Option Int := none
  attempts : List Attempt := []
  resumes : List Resume := []
  deriving DecidableEq

inductive LoopCall where
  | findById
  | recordCiHead (record : RecordCiHead)
  | countForTask (trigger : Option AutoResumeTrigger)
  | hasFailureKey (failureKey : String)
  | claim (attempt : Attempt)
  | casMarkCiAutoResumeNoticed (noticedAt : Int)
  | resumeRun (resume : Resume)

abbrev LoopReply : LoopCall → Type
  | .findById => CiTask × Option Int
  | .recordCiHead _ => Unit
  | .countForTask _ => Nat
  | .hasFailureKey _ => Bool
  | .claim _ => Bool
  | .casMarkCiAutoResumeNoticed _ => Bool
  | .resumeRun _ => Unit

def countsFor (trigger : Option AutoResumeTrigger) (attempt : Attempt) : Bool := trigger.all (· = attempt.trigger)

def serveLoop : (request : LoopCall) → LoopState → LoopReply request × LoopState
  | .findById, state => ((state.task, state.noticedAt), state)
  | .recordCiHead record, state => ((), { state with task := recordCiHead state.task record })
  | .countForTask trigger, state => ((state.attempts.filter (countsFor trigger)).length, state)
  | .hasFailureKey failureKey, state =>
    (failureKey ≠ "" && state.attempts.any (·.failureKey = some failureKey), state)
  | .claim attempt, state =>
    if attempt.claimKey ∈ state.attempts.map (·.claimKey) then (false, state)
    else (true, { state with attempts := state.attempts ++ [attempt] })
  | .casMarkCiAutoResumeNoticed noticedAt, state =>
    match state.noticedAt with
    | some _ => (false, state)
    | none => (true, { state with noticedAt := some noticedAt })
  | .resumeRun resume, state => ((), { state with resumes := state.resumes ++ [resume] })

abbrev LoopProgram := Program LoopCall LoopReply Empty

/-- `platformMaxAttempts`, and the gate-attempt budget of an app Work's task. -/
structure LoopBudget where
  platformMaxAttempts : Nat
  appBudget : Option Nat

namespace LoopBudget

def app (budget : LoopBudget) : AutoResumeTrigger → Option Nat
  | .ci => budget.appBudget
  | .review => none

def maxAttempts (budget : LoopBudget) (trigger : AutoResumeTrigger) : Nat :=
  (budget.app trigger).getD budget.platformMaxAttempts

def counted (budget : LoopBudget) (trigger : AutoResumeTrigger) : Option AutoResumeTrigger :=
  (budget.app trigger).map fun _ => .ci

end LoopBudget

structure AuthoringRun where
  id : String
  status : String
  awaitingInput : Bool := false

/-- What a delivery reads outside the ledger, and which of its calls fail. -/
structure Readings where
  status : TaskStatus := .inReview
  prState : Option String := none
  branchState : Option String := none
  halted : Bool := false
  steering : Bool := true
  authoringRun : Option AuthoringRun
  skippedNonAuthoringRuns : Nat := 0
  now : Int := 0
  countUnreadable : Bool := false
  lookupUnreadable : Bool := false
  claimThrows : Bool := false
  settledUnreadable : Bool := false
  markThrows : Bool := false
  dispatchFails : Bool := false

inductive AutoResumeReason where
  | resumed | disabled | refused (refusal : CheckRefusal) | halted | noFeedback | stopped | taskFinished | prClosed
  | noSteering | noRun | noAuthoringRun | runInFlight | awaitingHuman | runNotResumable | budgetSpent
  | budgetUnreadable | repeatFailure | alreadyClaimed | dispatchFailed | error
  deriving DecidableEq

structure ResumeContext where
  delivery : Nat
  noticedAt : Option Int
  cause : ResumeCause
  headSha : Option String
  failureKey : Option String

section
variable (case : JsString.LowerCase) (budget : LoopBudget)

def isPullRequestFinished (prState branchState : Option String) : Bool :=
  case.lower (prState.getD "") ∈ ["merged", "closed"] || case.lower (branchState.getD "") ∈ ["merged", "discarded"]

def fileStopNotice (context : ResumeContext) (readings : Readings) : LoopProgram Bool :=
  if context.noticedAt.isSome || readings.markThrows then pure false
  else ask (LoopCall.casMarkCiAutoResumeNoticed readings.now)

def dispatchClaimed (context : ResumeContext) (readings : Readings) (runId : String) :
    LoopProgram AutoResumeReason := do
  if readings.settledUnreadable then return .budgetUnreadable
  else
    let settled ← ask (LoopCall.countForTask (budget.counted context.cause.trigger))
    if settled > budget.maxAttempts context.cause.trigger then
      let _ ← fileStopNotice context readings
      return .budgetSpent
    else
      let _ ← ask (LoopCall.resumeRun ⟨context.delivery, runId, context.cause⟩)
      return if readings.dispatchFails then .dispatchFailed else .resumed

def runHeldBack (readings : Readings) : Except AutoResumeReason String :=
  match readings.authoringRun with
  | none => .error (if 0 < readings.skippedNonAuthoringRuns then .noAuthoringRun else .noRun)
  | some authoring =>
    if authoring.status = "queued" || authoring.status = "running" then .error .runInFlight
    else if authoring.awaitingInput then .error .awaitingHuman
    else if authoring.status ≠ "completed" then .error .runNotResumable
    else .ok authoring.id

def claimAttempt (context : ResumeContext) (readings : Readings) : LoopProgram AutoResumeReason :=
  match runHeldBack readings with
  | .error reason => pure reason
  | .ok runId =>
    if readings.claimThrows then pure .error
    else do
      let claimed ← ask (LoopCall.claim
        { delivery := context.delivery
          trigger := context.cause.trigger
          claimKey := storedKey context.cause.claimKey
          headSha := context.headSha
          failureKey := context.failureKey
          sourceRunId := runId })
      if claimed then dispatchClaimed budget context readings runId else return .alreadyClaimed

def failureRepeated (context : ResumeContext) (readings : Readings) : LoopProgram (Option Bool) :=
  match context.failureKey, budget.app context.cause.trigger with
  | some failureKey, none =>
    if failureKey = "" then pure (some false)
    else if readings.lookupUnreadable then pure none
    else some <$> ask (LoopCall.hasFailureKey failureKey)
  | _, _ => pure (some false)

def stopped (context : ResumeContext) (readings : Readings) : Option AutoResumeReason :=
  if budget.platformMaxAttempts = 0 then some .disabled
  else if readings.status = .done || readings.status = .cancelled then some .taskFinished
  else if context.noticedAt.isSome then some .stopped
  else if isPullRequestFinished case readings.prState readings.branchState then some .prClosed
  else if readings.halted then some .halted
  else if !readings.steering then some .noSteering
  else none

def evaluate (context : ResumeContext) (readings : Readings) : LoopProgram AutoResumeReason :=
  match stopped case budget context readings with
  | some reason => pure reason
  | none => do
    if readings.countUnreadable then return .budgetUnreadable
    else
      let attemptsUsed ← ask (LoopCall.countForTask (budget.counted context.cause.trigger))
      if attemptsUsed ≥ budget.maxAttempts context.cause.trigger then
        let _ ← fileStopNotice context readings
        return .budgetSpent
      else
        match ← failureRepeated budget context readings with
        | none => return .budgetUnreadable
        | some true =>
          let _ ← fileStopNotice context readings
          return .repeatFailure
        | some false => claimAttempt budget context readings

/-- A delivery of a check result, or of a rejection with the row its scan of the pending ones picks. -/
inductive LoopDelivery where
  | check (delivery : CheckDelivery) (readings : Readings)
  | rejection (pending : Option String) (readings : Readings)

variable (trusted : List String)

def writeHead : Option RecordCiHead → LoopProgram Unit
  | none => pure ()
  | some record => ask (LoopCall.recordCiHead record)

def onCheckResult (number : Nat) (delivery : CheckDelivery) (readings : Readings) :
    LoopProgram AutoResumeReason := do
  let (task, noticedAt) ← ask LoopCall.findById
  let plan := handleCheckResult case trusted task delivery
  writeHead plan.record
  match plan.next with
  | .error refusal => return .refused refusal
  | .ok headSha =>
    evaluate case budget ⟨number, noticedAt, .commit headSha, some headSha, delivery.input.failureKey⟩ readings

def onReviewRejection (number : Nat) (pending : Option String) (readings : Readings) :
    LoopProgram AutoResumeReason := do
  let (task, noticedAt) ← ask LoopCall.findById
  match pending with
  | none => return .noFeedback
  | some id => evaluate case budget ⟨number, noticedAt, .rejection id, task.ciHeadSha, none⟩ readings

def deliver (number : Nat) : LoopDelivery → LoopProgram AutoResumeReason
  | .check delivery readings => onCheckResult case budget trusted number delivery readings
  | .rejection pending readings => onReviewRejection case budget number pending readings

def loopPool (state : LoopState) (deliveries : List LoopDelivery) : Pool LoopState LoopCall LoopReply Empty :=
  ⟨state, deliveries.mapIdx fun number delivery => deliver case budget trusted number delivery >>= fun _ => pure ()⟩

def afterLoop (task : CiTask) (deliveries : List LoopDelivery) (schedule : List Nat) : LoopState :=
  (run (Pool.step serveLoop Empty.elim) (loopPool case budget trusted { task } deliveries) schedule).state

end

end EverWorks.Ci
