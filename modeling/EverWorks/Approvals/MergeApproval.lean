import EverWorks.Lib.JsString
import EverWorks.Lib.Run
import Mathlib.Data.List.Pairwise

/-!
A merge waits for a person. The gate verifies that the commit at the head of the pull request has been approved, and
asks for it where it has not; a person decides on the row that was filed. Three services share one key for each commit.
-/

namespace EverWorks.Approvals
open Lib JsString

inductive ActionType where
  | spawnAgent | scheduleTask | sendMessage | budgetOverride | mergePullRequest | other
  deriving DecidableEq

inductive RiskFlag where
  | budgetOverride | destructive | crossScope | highFanout
  deriving DecidableEq

inductive ProposalStatus where
  | pending | approved | rejected
  deriving DecidableEq

inductive DecidedVia where
  | user | guardrail
  deriving DecidableEq

def DecidedVia.text : DecidedVia → String
  | user => "user"
  | guardrail => "guardrail"

structure MergePayload where
  taskId : String
  prNumber : ℤ
  prUrl : Option String
  headSha : String
  targetBranch : Option String
  repository : Option String
  ciState : Option String
  reviewApprovedBy : Option String
  destructive : Bool := true
  deriving DecidableEq

structure AgentActionProposal where
  id : ℕ
  userId : String
  agentId : String
  runId : Option String
  actionType : ActionType
  title : String
  payload : MergePayload
  riskFlags : List RiskFlag
  subjectKey : Option String
  status : ProposalStatus
  decidedById : Option String := none
  decidedAt : Option ℤ := none
  decidedVia : Option DecidedVia := none
  createdAt : ℤ
  deriving DecidableEq

structure AgentGuardrails where
  autonomous : Bool
  autoApproveActionTypes : Option (List ActionType) := none
  blockedActionTypes : Option (List ActionType) := none

inductive GuardrailDecision where
  | queue | autoApprove | block
  deriving DecidableEq

def evaluateGuardrails (guardrails : Option AgentGuardrails) (actionType : ActionType) (riskFlags : List RiskFlag) :
    GuardrailDecision :=
  match guardrails with
  | none => .queue
  | some guardrails =>
    if (guardrails.blockedActionTypes.getD []).contains actionType then .block
    else if actionType = .mergePullRequest then .queue
    else if guardrails.autonomous ∧ riskFlags = [] then
      match guardrails.autoApproveActionTypes with
      | none => .autoApprove
      | some allowList => if allowList.contains actionType then .autoApprove else .queue
    else .queue

inductive TrustRung where
  | off | draft | ask | auto
  deriving DecidableEq

inductive ActionCategory where
  | readExternal | writeInternal | writeDestructive | messageInternal | messageExternal | publishExternal | spendMetered
  | spendCommitment | accessGrant | machineRun | machineAdmin | agentFanout
  deriving DecidableEq

structure LadderEntry where
  category : ActionCategory
  rung : TrustRung
  enforced : Bool

/-- `PROPOSAL_ACTION_CATEGORY` -/
def proposalActionCategory : ActionType → Option ActionCategory
  | .spawnAgent | .scheduleTask => some .agentFanout
  | .sendMessage => some .messageExternal
  | .budgetOverride => some .spendMetered
  | .mergePullRequest => some .publishExternal
  | .other => none

def applyLadderToGuardrailDecision (decision : GuardrailDecision) (actionType : ActionType)
    (ladder : Option (List LadderEntry)) : GuardrailDecision :=
  if decision = .block then .block
  else
    match ladder, proposalActionCategory actionType with
    | some entries, some category =>
      match entries.find? fun entry => entry.category = category with
      | some entry =>
        if ¬ entry.enforced then decision
        else if entry.rung = .off then .block
        else if entry.rung = .draft ∨ entry.rung = .ask then .queue
        else decision
      | none => decision
    | _, _ => decision

structure TaskRow where
  userId : String
  tenantId : Option String := none
  organizationId : Option String := none

structure UserRow where
  isActive : Bool
  isAnonymous : Bool := false
  tenantId : Option String := none

structure AgentRow where
  guardrails : Option AgentGuardrails := none
  ladder : Option (List LadderEntry) := none

/-- The rows that can be read. `rosterSize` is `none` where it cannot be counted, and the roster and the tenants may not
be bound at all. -/
structure Platform where
  task : String → Option TaskRow := fun _ => none
  user : String → Option UserRow := fun _ => none
  agent : String → String → Option AgentRow := fun _ _ => none
  rosterBound : Bool := true
  member : String → String → Bool := fun _ _ => false
  rosterSize : String → Option ℕ := fun _ => some 0
  tenantOwner : String → Option String := fun _ => none

structure State where
  rows : List AgentActionProposal := []
  platform : Platform
  now : ℤ

def mergeApprovalMaxAgeMs : ℤ := 24 * 60 * 60 * 1000

def mergeApprovalSubjectKeyMaxLength : ℕ := 200

section
variable (case : JsString.LowerCase)

def isShaDigit (c : Char) : Bool := c.isDigit || ('a' ≤ c && c ≤ 'f')

def normalizeCommitSha (sha : String) : Option String :=
  let trimmed := case.lower (trim sha)
  if 7 ≤ trimmed.length ∧ trimmed.length ≤ 64 ∧ trimmed.toList.all isShaDigit then some trimmed else none

def mergeApprovalSubjectKey (taskId : String) (prNumber : ℤ) (headSha : String) : Except String String :=
  let taskId := trim taskId
  if taskId = "" then .error "A merge approval subject needs a taskId."
  else if prNumber ≤ 0 then .error s!"A merge approval subject needs a positive pull-request number, got {prNumber}."
  else
    match normalizeCommitSha case headSha with
    | none => .error "A merge approval subject needs a head commit SHA."
    | some headSha =>
      let key := s!"merge:{taskId}:{prNumber}:{headSha}"
      if mergeApprovalSubjectKeyMaxLength < length key then
        .error s!"Merge approval subject key exceeds {mergeApprovalSubjectKeyMaxLength} characters ({JsString.length key})."
      else .ok key

def mergeApprovalPullRequestKeyPrefix (taskId : String) (prNumber : ℤ) : Except String String :=
  let taskId := trim taskId
  if taskId = "" then .error "A merge approval subject needs a taskId."
  else if prNumber ≤ 0 then .error s!"A merge approval subject needs a positive pull-request number, got {prNumber}."
  else .ok s!"merge:{taskId}:{prNumber}:"

inductive RefusalCode where
  | approvalMissing | headShaUnknown | approvalNotHuman | approvalExpired | approverNotEntitled | approvalStale
  deriving DecidableEq

inductive MergeApprovalVerdict where
  | approved (approvalId : ℕ) (approvedById : String) (approvedAt : ℤ)
  | refused (code : RefusalCode) (reason : String)

/-- `none` where the approver is entitled, else why not. -/
def entitledToApprove (platform : Platform) (taskId approverId : String) : Option String :=
  match platform.task taskId with
  | none => some s!"Task {taskId} is no longer readable, so the approver's entitlement cannot be established."
  | some task =>
    match (platform.user approverId).filter (·.isActive) with
    | none => some "The account that approved this merge is not an active user."
    | some approver =>
      if approver.isAnonymous then some "An anonymous account cannot approve a merge."
      else
        match task.organizationId with
        | none =>
          if approverId ≠ task.userId then
            some "This Task is in a personal scope and was approved by somebody other than its owner."
          else none
        | some organizationId =>
          if task.tenantId = none ∨ approver.tenantId ≠ task.tenantId then
            some <| "The approver does not belong to the Tenant that owns this Task, so they may not " ++
              "approve merges for its Organization."
          else if ¬ platform.rosterBound then none
          else if platform.member organizationId approverId then none
          else if task.tenantId.bind platform.tenantOwner = some approverId then none
          else
            match platform.rosterSize organizationId with
            | none =>
              some <| "The Organization roster could not be read, so the approver’s membership of it " ++
                "cannot be established. Refusing rather than assuming."
            | some 0 => none
            | some _ =>
              some <| "The approver is not a member of the Organization that owns this Task. Belonging to " ++
                "the wider Tenant is not enough to approve a merge into that Organization’s " ++
                "repository — being removed from an Organization has to mean something."

def shortSha (headSha : String) : String := String.ofList (headSha.toList.take 12)

def describeMissingApproval (rows : List AgentActionProposal) (taskId : String) (prNumber : ℤ) (headSha : String) :
    MergeApprovalVerdict :=
  let priorForPr :=
    match mergeApprovalPullRequestKeyPrefix taskId prNumber with
    | .ok start => rows.countP fun row => row.actionType = .mergePullRequest ∧ row.status = .approved ∧
        row.subjectKey.any (startsWith · start)
    | .error _ => 0
  if 0 < priorForPr then
    .refused .approvalStale <| s!"PR #{prNumber} was approved for an earlier commit, but its head is now " ++
      s!"{shortSha headSha}. The approval covers the commit that was reviewed, not this one — review and approve again."
  else
    .refused .approvalMissing <| s!"No human approval is on record for PR #{prNumber} at commit {shortSha headSha}. " ++
      "Approve it in the Inbox to let the agent merge."

def findRow (rows : List AgentActionProposal) (key : String) (status : Option ProposalStatus) :
    Option AgentActionProposal :=
  rows.find? fun row => row.actionType = .mergePullRequest ∧ row.subjectKey = some key ∧
    status.all (row.status = ·)

structure MergeApprovalQuery where
  taskId : String
  prNumber : ℤ
  headSha : String

def judgeApproval (state : State) (taskId : String) (row : AgentActionProposal) : MergeApprovalVerdict :=
  match row.decidedById.filter fun _ => row.decidedVia = some .user with
  | none =>
    let via := (row.decidedVia.map DecidedVia.text).getD "unknown"
    .refused .approvalNotHuman <| "The recorded decision for this pull request was not made by a person " ++
      s!"(decided via {via}). A merge needs a human approval."
  | some decidedById =>
    match row.decidedAt with
    | none =>
      .refused .approvalExpired
        "The approval for this pull request carries no decision time, so its age cannot be established."
    | some decidedAt =>
      if mergeApprovalMaxAgeMs < state.now - decidedAt then
        .refused .approvalExpired <|
          s!"The approval for this pull request is {(state.now - decidedAt) / 3600000}h old and approvals expire after " ++
            s!"{mergeApprovalMaxAgeMs / 3600000}h. Approve it again to merge."
      else
        match entitledToApprove state.platform taskId decidedById with
        | some reason => .refused .approverNotEntitled reason
        | none => .approved row.id decidedById decidedAt

def verifyMergeApproval (state : State) (query : MergeApprovalQuery) : MergeApprovalVerdict :=
  let taskId := trim query.taskId
  if taskId = "" then
    .refused .approvalMissing <| "This merge is not attached to a Task, so there is nothing an approval could " ++
      "have been recorded against. Refusing rather than merging unattributed work."
  else
    match normalizeCommitSha case query.headSha with
    | none =>
      .refused .headShaUnknown <| "The pull request head commit could not be determined, so no approval can be " ++
        "matched to what would actually be merged."
    | some headSha =>
      match mergeApprovalSubjectKey case taskId query.prNumber headSha with
      | .error message => .refused .approvalMissing s!"This merge cannot be keyed to an approval: {message}"
      | .ok subjectKey =>
        match findRow state.rows subjectKey (some .approved) with
        | none => describeMissingApproval state.rows taskId query.prNumber headSha
        | some row => judgeApproval state taskId row

structure CreateProposalInput where
  agentId : String
  actionType : ActionType
  title : String
  payload : MergePayload
  subjectKey : Option String
  runId : Option String

/-- `RISK_SCORER` of a payload that names no other scope and spawns nothing. -/
def riskScorer (actionType : ActionType) (payload : MergePayload) : List RiskFlag :=
  (if actionType = .budgetOverride then [.budgetOverride] else []) ++
    (if payload.destructive ∨ actionType = .mergePullRequest then [.destructive] else [])

def proposalDecision (agent : AgentRow) (input : CreateProposalInput) : GuardrailDecision :=
  applyLadderToGuardrailDecision
    (evaluateGuardrails agent.guardrails input.actionType (riskScorer input.actionType input.payload)) input.actionType
    agent.ladder

def proposedRow (state : State) (userId : String) (input : CreateProposalInput) (decision : GuardrailDecision) :
    AgentActionProposal :=
  { id := state.rows.length
    userId
    agentId := input.agentId
    runId := input.runId
    actionType := input.actionType
    title := String.ofList ((trim input.title).toList.take 200)
    payload := input.payload
    riskFlags := riskScorer input.actionType input.payload
    subjectKey := input.subjectKey
    status :=
      match decision with
      | .autoApprove => .approved
      | .block => .rejected
      | .queue => .pending
    decidedAt := if decision = .queue then none else some state.now
    decidedVia := if decision = .queue then none else some .guardrail
    createdAt := state.now }

/-- `none` where it throws: no title, no agent of this user, or a row under the key already. -/
def createProposal (state : State) (userId : String) (input : CreateProposalInput) :
    Option (AgentActionProposal × State) :=
  if trim input.title = "" then none
  else
    (state.platform.agent input.agentId userId).bind fun agent =>
      let row := proposedRow state userId input (proposalDecision agent input)
      if row.subjectKey.isSome ∧
          state.rows.any (fun other => other.actionType = row.actionType ∧ other.subjectKey = row.subjectKey) then none
      else some (row, { state with rows := state.rows ++ [row] })

structure RequestMergeApprovalInput where
  userId : String
  taskId : String
  taskLabel : String
  agentId : String
  prNumber : ℤ
  prUrl : Option String := none
  headSha : String
  targetBranch : Option String := none
  repository : Option String := none
  ciState : Option String := none
  reviewApprovedBy : Option String := none
  runId : Option String := none

inductive RequestOutcome where
  | raised (proposal : AgentActionProposal)
  | alreadyOpen | alreadyDecided | unusableSubject | failed

def RequestMergeApprovalInput.key (input : RequestMergeApprovalInput) : Option (String × String) :=
  (normalizeCommitSha case input.headSha).bind fun headSha =>
    (mergeApprovalSubjectKey case input.taskId input.prNumber headSha).toOption.map fun key => (key, headSha)

def mergeProposal (input : RequestMergeApprovalInput) (subjectKey headSha : String) : CreateProposalInput :=
  let target := input.targetBranch.elim "" fun branch => if branch = "" then "" else s!" into {branch}"
  let place := input.repository.elim "" fun repository => if repository = "" then "" else s!" in {repository}"
  { agentId := input.agentId
    actionType := .mergePullRequest
    title := String.ofList <| List.take 200
      s!"Merge PR #{input.prNumber}{target}{place} for {input.taskLabel} (@ {shortSha headSha})".toList
    subjectKey := some subjectKey
    runId := input.runId
    payload :=
      { taskId := input.taskId, prNumber := input.prNumber, prUrl := input.prUrl, headSha
        targetBranch := input.targetBranch, repository := input.repository, ciState := input.ciState
        reviewApprovedBy := input.reviewApprovedBy } }

def outcomeOf (row : AgentActionProposal) : RequestOutcome :=
  if row.status = .pending then .alreadyOpen else .alreadyDecided

def raiseApproval (state : State) (input : RequestMergeApprovalInput) (subjectKey headSha : String) :
    RequestOutcome × State :=
  match createProposal state input.userId (mergeProposal input subjectKey headSha) with
  | some (proposal, next) => (.raised proposal, next)
  | none =>
    match findRow state.rows subjectKey none with
    | some winner => (outcomeOf winner, state)
    | none => (.failed, state)

def requestMergeApproval (state : State) (input : RequestMergeApprovalInput) : RequestOutcome × State :=
  match input.key case with
  | none => (.unusableSubject, state)
  | some (subjectKey, headSha) =>
    match findRow state.rows subjectKey none with
    | some existing => (outcomeOf existing, state)
    | none => raiseApproval state input subjectKey headSha

/-- `UPDATE … WHERE id AND userId AND status = 'pending'`; a decision on anything else changes nothing. -/
def decide (state : State) (userId : String) (id : ℕ) (decision : Bool) : State :=
  { state with rows := state.rows.map fun row =>
      if row.id = id ∧ row.userId = userId ∧ row.status = .pending then
        { row with
          status := if decision then .approved else .rejected
          decidedById := some userId, decidedAt := some state.now, decidedVia := some .user }
      else row }

inductive GateOutcome where
  | mergeAttempted
  | approvalRequested (proposalId : ℕ)
  | approvalPending
  | skipped (reason : String)

def approvalPath (state : State) (input : RequestMergeApprovalInput) : GateOutcome × State :=
  match verifyMergeApproval case state ⟨input.taskId, input.prNumber, input.headSha⟩ with
  | .approved _ _ _ => (.mergeAttempted, state)
  | .refused _ _ =>
    let (request, next) := requestMergeApproval case state input
    match request with
    | .raised proposal => (.approvalRequested proposal.id, next)
    | .alreadyOpen | .alreadyDecided => (.approvalPending, next)
    | .unusableSubject => (.skipped "unusable-subject", next)
    | .failed => (.skipped "failed", next)

/-- A pass of the gate, a request whose look at the rows is out of date, a person's decision, and whatever happens to the
platform's other rows and to the clock. -/
inductive Event where
  | pass (input : RequestMergeApprovalInput)
  | raise (input : RequestMergeApprovalInput)
  | decide (userId : String) (id : ℕ) (decision : Bool)
  | platform (next : Platform)
  | clock (next : ℤ)

def step (state : State) : Event → State
  | .pass input => (approvalPath case state input).2
  | .raise input => (input.key case).elim state fun (key, headSha) => (raiseApproval state input key headSha).2
  | .decide userId id decision => decide state userId id decision
  | .platform next => { state with platform := next }
  | .clock next => { state with now := next }

end

end EverWorks.Approvals
