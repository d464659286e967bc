import EverWorks.Lib.JsString

/-!
What a delivery says of the commit it is about, what the task has on record of it, and what is made of the two:
the write of the task's head, and the evaluation of a resume.
-/

namespace EverWorks.Ci
open Lib

inductive CheckVerdict where
  | failing | passing | pending | inconclusive
  deriving DecidableEq

structure PullRequestHead where
  number : Nat
  headSha : Option String

structure CiCheckResultInput where
  headSha : String
  prNumbers : List Nat := []
  prHeads : List PullRequestHead := []
  /-- Milliseconds; none where the provider gave no usable time. -/
  observedAt : Option Int
  verdict : CheckVerdict
  appSlug : Option String
  failureKey : Option String := none

/-- The columns of a task that a delivery reads and writes. -/
structure CiTask where
  ciHeadSha : Option String := none
  ciHeadSeenAt : Option Int := none
  ciState : Option String := none
  ciCheckedAt : Option Int := none
  prHeadSha : Option String := none
  prNumber : Option Nat := none
  deriving DecidableEq

inductive Via where
  | pullRequest | branch
  deriving DecidableEq

structure Resolution where
  prNumber : Option Nat
  via : Via

inductive CiHeadDecision where
  | firstSeen | current | advanced | stale
  deriving DecidableEq

structure CiHeadEvidence where
  headSha : String
  prHeadSha : Option String
  reportedAt : Option Int
  branchOnly : Bool

section
variable (case : JsString.LowerCase)

/-- `(value ?? '').trim().toLowerCase()`. -/
def commitId (value : Option String) : String := case.lower (JsString.trim (value.getD ""))

def isTrustedCheckApp (appSlug : Option String) (trusted : List String) : Bool :=
  let slug := commitId case appSlug
  slug ≠ "" && trusted.contains slug

def decideCiHead (stored : CiTask) (event : CiHeadEvidence) : CiHeadDecision :=
  let storedSha := commitId case stored.ciHeadSha
  let eventSha := commitId case (some event.headSha)
  if storedSha = "" then .firstSeen
  else if storedSha = eventSha then .current
  else if event.branchOnly then .stale
  else
    let prHeadSha := commitId case event.prHeadSha
    if prHeadSha ≠ "" then if prHeadSha = eventSha then .advanced else .stale
    else
      match event.reportedAt, stored.ciHeadSeenAt with
      | none, _ => .stale
      | some _, none => .advanced
      | some reportedAt, some seenAt => if seenAt < reportedAt then .advanced else .stale

def isKnownTaskCommit (task : CiTask) (headSha : String) : Bool :=
  let wanted := commitId case (some headSha)
  wanted ≠ "" && [task.ciHeadSha, task.prHeadSha].any fun known => commitId case known = wanted

end

/-- The head the delivery gives for the task's pull request, or for the only one it lists. -/
def prHeadFor (input : CiCheckResultInput) (wanted : Option Nat) : Option String :=
  let named := wanted.bind fun number => input.prHeads.find? (·.number = number)
  let lone := match input.prHeads with
    | [entry] => some entry
    | _ => none
  let sha := JsString.trim (((named.or lone).bind (·.headSha)).getD "")
  if sha = "" then none else some sha

structure RecordCiHead where
  expectedHeadSha : Option String
  headSha : String
  seenAt : Int
  failing : Bool

def recordCiHead (task : CiTask) (record : RecordCiHead) : CiTask :=
  if task.ciHeadSha = record.expectedHeadSha then
    { task with
      ciHeadSha := some record.headSha
      ciHeadSeenAt := some record.seenAt
      ciState := if record.failing then some "failing" else task.ciState
      ciCheckedAt := if record.failing then some record.seenAt else task.ciCheckedAt }
  else task

inductive CheckRefusal where
  | noTask | untrustedCheckApp | unverifiedBranch | notAFailure | staleHead
  deriving DecidableEq

/-- A delivery with what is read to place it. -/
structure CheckDelivery where
  input : CiCheckResultInput
  resolution : Option Resolution
  /-- An advisory leg, or a suite that cannot say which leg failed. -/
  notAFailure : Bool := false
  now : Int := 0

structure CheckPlan where
  record : Option RecordCiHead
  next : Except CheckRefusal String

section
variable (case : JsString.LowerCase) (trusted : List String)

/-- `recordHead`, up to its write. -/
def recordHead (task : CiTask) (headSha : String) (seenAt : Int) (failing : Bool) (decision : CiHeadDecision) :
    Option RecordCiHead :=
  if decision = .current && !failing then none
  else
    some
      { expectedHeadSha := if decision = .firstSeen then none else task.ciHeadSha
        headSha, seenAt, failing }

def handleCheckResult (task : CiTask) (delivery : CheckDelivery) : CheckPlan :=
  let input := delivery.input
  let headSha := JsString.trim input.headSha
  if headSha = "" then ⟨none, .error .noTask⟩
  else if !isTrustedCheckApp case input.appSlug trusted then ⟨none, .error .untrustedCheckApp⟩
  else
    match delivery.resolution with
    | none => ⟨none, .error .noTask⟩
    | some resolution =>
      let branchOnly := resolution.via = .branch && input.prNumbers.isEmpty
      if branchOnly && !isKnownTaskCommit case task headSha then ⟨none, .error .unverifiedBranch⟩
      else
        let failing := input.verdict = .failing && !delivery.notAFailure
        let decision := decideCiHead case task
          { headSha
            prHeadSha := if branchOnly then none else prHeadFor input (resolution.prNumber.or task.prNumber)
            reportedAt := input.observedAt
            branchOnly }
        { record :=
            if decision = .stale then none
            else recordHead task headSha (input.observedAt.getD delivery.now) failing decision
          next :=
            if !failing then .error .notAFailure
            else if decision = .stale then .error .staleHead
            else .ok headSha }

def handled (task : CiTask) (delivery : CheckDelivery) : CiTask :=
  match (handleCheckResult case trusted task delivery).record with
  | some record => recordCiHead task record
  | none => task

end

theorem commitId_trim {case : JsString.LowerCase} (text : String) :
    commitId case (some (JsString.trim text)) = commitId case (some text) := by
  simp only [commitId, Option.getD_some, JsString.trim_trim]

end EverWorks.Ci
