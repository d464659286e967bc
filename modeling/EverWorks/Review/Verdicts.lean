import EverWorks.Review.Ledger

/-!
The run that is bound to a review answers it: the answer is checked against the commit the pull request is on, and then the
review and its approver's row are written together. Pushes, plans and other writers come between.
-/

namespace EverWorks.Review.Verdicts
open Lib Option JsString List

/-! ## The rows of a task -/

def isShaDigit (c : Char) : Bool := c.isDigit || ('a' ≤ c && c ≤ 'f')

/-- A commit as `normalizeCommitSha` leaves it. -/
structure CommitSha where
  text : String
  digits : ∀ c ∈ text.toList, isShaDigit c = true
  long : 7 ≤ text.toList.length
  deriving DecidableEq

structure ReviewRow where
  id : ℕ
  claimKey : Utf16
  slot : ℕ
  reviewerAgentId : String
  approverId : String
  headSha : CommitSha
  state : AgentReviewState := .dispatched
  runId : Option String := none
  refusalCode : Option String := none
  deriving DecidableEq

inductive ApproverType where
  | user | agent
  deriving DecidableEq

inductive ApprovalState where
  | pending | approved | rejected
  deriving DecidableEq

inductive DecidedVia where
  | user | agentReview
  deriving DecidableEq

structure TaskApprover where
  approverType : ApproverType
  approverId : String
  approvalState : ApprovalState := .pending
  decidedVia : Option DecidedVia := none
  decidedByRunId : Option String := none
  decidedHeadSha : Option CommitSha := none
  deriving DecidableEq

structure AgentRun where
  agentId : String
  taskId : String
  reviewScope : Bool
  deriving DecidableEq

inductive AgentReviewVerdict where
  | approve | requestChanges
  deriving DecidableEq

def AgentReviewVerdict.approvalState : AgentReviewVerdict → ApprovalState
  | .approve => .approved
  | .requestChanges => .rejected

def AgentReviewVerdict.reviewState : AgentReviewVerdict → AgentReviewState
  | .approve => .approved
  | .requestChanges => .changesRequested

def parseAgentReviewVerdict (raw : Option String) : Option AgentReviewVerdict :=
  match raw.map trim with
  | some "approve" => some .approve
  | some "request-changes" => some .requestChanges
  | _ => none

def agentReviewClaimKey (reviewerAgentId headSha : String) : Utf16 :=
  cutClaimKey (Utf16.ofString s!"agent-review:{reviewerAgentId}:{headSha}")

structure SubmitAgentReviewInput where
  runId : Option String
  taskId : Option String := none
  reviewerAgentId : String
  verdict : Option String

/-- Whether the reviewer may judge the work, as the stores answer when it is asked. -/
inductive Standing where
  | clean | selfReview | reviewerUnreadable
  deriving DecidableEq

/-- A verdict that passed its checks and is about to be written. -/
structure Submission where
  reviewId : ℕ
  reviewerAgentId : String
  approverId : String
  headSha : CommitSha
  runId : Option String
  verdict : AgentReviewVerdict
  deriving DecidableEq

/-- One task's rows. The provider reports `head`; a task without a pull request has none. -/
structure Store where
  taskId : String
  head : Option CommitSha
  reviews : List ReviewRow := []
  approvers : String → Option TaskApprover := fun _ => none
  runs : String → Option AgentRun := fun _ => none
  underWay : ℕ → Option Submission := fun _ => none

namespace Store

def findOpenForRun (store : Store) (runId : String) : Option ReviewRow :=
  store.reviews.find? fun row => row.runId = some runId && row.state = .dispatched

def findByClaimKey (store : Store) (claimKey : Utf16) : Option ReviewRow := store.reviews.find? (·.claimKey = claimKey)

def findReview (store : Store) (id : ℕ) : Option ReviewRow := store.reviews.find? (·.id = id)

def isOpen (store : Store) (id : ℕ) : Bool := store.reviews.any fun row => row.id = id && row.state = .dispatched

/-- `UPDATE … WHERE id = ? AND state = 'dispatched'`. -/
def casSettle (store : Store) (id : ℕ) (state : AgentReviewState) (refusalCode : Option String) : Store :=
  { store with reviews := store.reviews.map fun row =>
      if row.id = id ∧ row.state = .dispatched then { row with state, refusalCode } else row }

def setApprover (store : Store) (id : String) (row : Option TaskApprover) : Store :=
  { store with approvers := fun other => if other = id then row else store.approvers other }

def agentApprover (store : Store) (id agentId : String) : Option TaskApprover :=
  (store.approvers id).filter fun row => row.approverType = .agent && row.approverId = agentId

end Store

/-! ## A submission -/

inductive VerdictReason where
  | noOpenReview | selfReview | reviewerUnreadable | staleHead | unreadableVerdict | approverMissing
  deriving DecidableEq

inductive Checked where
  | refused (reason : VerdictReason) (closes : Option (ℕ × String))
  | passed (submission : Submission)
  deriving DecidableEq

def boundReview (store : Store) (input : SubmitAgentReviewInput) : Option ReviewRow := do
  let runId ← input.runId.map trim
  if runId = "" then none
  else
    let review ← store.findOpenForRun runId
    let run ← store.runs runId
    if review.reviewerAgentId ≠ input.reviewerAgentId then none
    else if (input.taskId.filter (· ≠ "")).any (· ≠ store.taskId) then none
    else if run.agentId ≠ input.reviewerAgentId || run.taskId ≠ store.taskId || !run.reviewScope then none
    else some review

def checkVerdict (store : Store) (input : SubmitAgentReviewInput) (standing : Standing) : Checked :=
  match boundReview store input with
  | none => .refused .noOpenReview none
  | some review =>
    match standing with
    | .selfReview => .refused .selfReview (some (review.id, "self-review"))
    | .reviewerUnreadable => .refused .reviewerUnreadable none
    | .clean =>
      if store.head ≠ some review.headSha then .refused .staleHead (some (review.id, "stale-head"))
      else
        match parseAgentReviewVerdict input.verdict with
        | none => .refused .unreadableVerdict none
        | some verdict =>
          match store.agentApprover review.approverId input.reviewerAgentId with
          | none => .refused .approverMissing (some (review.id, "approver-missing"))
          | some _ => .passed
            { reviewId := review.id, reviewerAgentId := input.reviewerAgentId, approverId := review.approverId
              headSha := review.headSha, runId := review.runId, verdict }

/-- Whether the row carries a verdict of a review that was claimed after the submission's. -/
def isSupersededInTransaction (store : Store) (submission : Submission) (current : TaskApprover) : Bool :=
  if current.approvalState = .pending || current.decidedVia ≠ some .agentReview then false
  else
    let priorHead := trim ((current.decidedHeadSha.map (·.text)).getD "")
    if priorHead = "" || priorHead = submission.headSha.text then false
    else
      match store.findReview submission.reviewId,
        store.findByClaimKey (agentReviewClaimKey submission.reviewerAgentId priorHead) with
      | some mine, some prior => prior.slot > mine.slot
      | _, _ => false

inductive RecordOutcome where
  | recorded | reviewNotOpen | approverNotWritten | superseded
  deriving DecidableEq

def decidedRow (submission : Submission) (current : TaskApprover) : TaskApprover :=
  { current with
    approvalState := submission.verdict.approvalState
    decidedVia := some .agentReview
    decidedByRunId := submission.runId
    decidedHeadSha := some submission.headSha }

def recordVerdict (store : Store) (submission : Submission) : RecordOutcome × Store :=
  if !store.isOpen submission.reviewId then (.reviewNotOpen, store)
  else
    match store.agentApprover submission.approverId submission.reviewerAgentId with
    | none => (.approverNotWritten, store)
    | some current =>
      if isSupersededInTransaction store submission current then (.superseded, store)
      else
        (.recorded, (store.casSettle submission.reviewId submission.verdict.reviewState none).setApprover
          submission.approverId (some (decidedRow submission current)))

def finishVerdict (store : Store) (submission : Submission) : Store :=
  match recordVerdict store submission with
  | (.superseded, after) => after.casSettle submission.reviewId .refused (some "superseded")
  | (_, after) => after

/-! ## What comes between -/

def agentApproverNeedsReview (row : TaskApprover) (headSha : CommitSha) : Bool :=
  if row.approverType ≠ .agent then false
  else if row.approvalState = .pending then true
  else if row.decidedVia ≠ some .agentReview then true
  else row.decidedHeadSha ≠ some headSha

def isRecordedVerdictFor (review : ReviewRow) (id : String) (row : TaskApprover) (headSha : CommitSha) : Bool :=
  (review.state = .approved || review.state = .changesRequested) && review.approverId = id &&
    review.reviewerAgentId = row.approverId && review.headSha = headSha

def resetStale (store : Store) (id : String) (headSha : CommitSha) : Store :=
  match store.approvers id with
  | none => store
  | some row =>
    if row.approverType = .agent ∧ row.approvalState ≠ .pending ∧ agentApproverNeedsReview row headSha then
      store.setApprover id (some { row with
        approvalState := .pending, decidedVia := none, decidedByRunId := none, decidedHeadSha := none })
    else store

def restoreVerdict (store : Store) (id : String) (headSha : CommitSha) : Store :=
  match store.approvers id with
  | none => store
  | some row =>
    if row.approverType = .agent ∧ row.approvalState = .pending then
      match store.findByClaimKey (agentReviewClaimKey row.approverId headSha.text) with
      | none => store
      | some review =>
        if isRecordedVerdictFor review id row headSha then
          store.setApprover id (some { row with
            approvalState := if review.state = .approved then .approved else .rejected
            decidedVia := some .agentReview
            decidedByRunId := review.runId
            decidedHeadSha := some headSha })
        else store
    else store

def claimReview (store : Store) (reviewerAgentId approverId : String) (headSha : CommitSha) (slot : ℕ) : Store :=
  let claimKey := agentReviewClaimKey reviewerAgentId headSha.text
  if store.reviews.any fun row => row.claimKey = claimKey || row.slot = slot then store
  else { store with reviews := store.reviews ++
      [{ id := store.reviews.length, claimKey, slot, reviewerAgentId, approverId, headSha }] }

def bindRun (store : Store) (reviewId : ℕ) (runId : String) : Store :=
  { store with reviews := store.reviews.map fun row =>
      if row.id = reviewId ∧ row.state = .dispatched ∧ row.runId = none then { row with runId := some runId } else row }

inductive Event where
  /-- The pull request moves to a commit, also back to an earlier one. -/
  | push (head : Option CommitSha)
  | startRun (runId : String) (run : AgentRun)
  | addApprover (id : String) (approverType : ApproverType) (approverId : String)
  | removeApprover (id : String)
  /-- A decision that is not a review's. -/
  | decide (id : String) (approvalState : ApprovalState)
  | claim (reviewerAgentId approverId : String) (headSha : CommitSha) (slot : ℕ)
  | bindRun (reviewId : ℕ) (runId : String)
  | dispatchFailed (reviewId : ℕ)
  | resetStale (id : String) (headSha : CommitSha)
  | restore (id : String) (headSha : CommitSha)
  | check (call : ℕ) (input : SubmitAgentReviewInput) (standing : Standing)
  | record (call : ℕ)

def setUnderWay (store : Store) (call : ℕ) (submission : Option Submission) : Store :=
  { store with underWay := fun other => if other = call then submission else store.underWay other }

def step (store : Store) : Event → Store
  | .push head => { store with head }
  | .startRun runId run =>
    { store with runs := fun other => if other = runId ∧ store.runs runId = none then some run else store.runs other }
  | .addApprover id approverType approverId =>
    if (store.approvers id).isSome then store else store.setApprover id (some { approverType, approverId })
  | .removeApprover id => store.setApprover id none
  | .decide id approvalState =>
    store.setApprover id ((store.approvers id).map fun row =>
      { row with approvalState, decidedVia := some .user, decidedByRunId := none, decidedHeadSha := none })
  | .claim reviewerAgentId approverId headSha slot => claimReview store reviewerAgentId approverId headSha slot
  | .bindRun reviewId runId => bindRun store reviewId runId
  | .dispatchFailed reviewId => store.casSettle reviewId .failed none
  | .resetStale id headSha => resetStale store id headSha
  | .restore id headSha => restoreVerdict store id headSha
  | .check call input standing =>
    match checkVerdict store input standing with
    | .refused _ none => store
    | .refused _ (some (id, code)) => store.casSettle id .refused (some code)
    | .passed submission => setUnderWay store call (some submission)
  | .record call =>
    match store.underWay call with
    | none => store
    | some submission => setUnderWay (finishVerdict store submission) call none

def start (taskId : String) (head : Option CommitSha) : Store := { taskId, head }

/-! ## What becomes of a verdict -/

/-- The bound run answers its open review in time, and the reviewer may. -/
structure Answers (store : Store) (input : SubmitAgentReviewInput) (standing : Standing) (review : ReviewRow)
    (verdict : AgentReviewVerdict) : Prop where
  bound : boundReview store input = some review
  clean : standing = .clean
  live : store.head = some review.headSha
  readable : parseAgentReviewVerdict input.verdict = some verdict
  named : (store.agentApprover review.approverId input.reviewerAgentId).isSome = true

def submissionOf (input : SubmitAgentReviewInput) (review : ReviewRow) (verdict : AgentReviewVerdict) : Submission where
  reviewId := review.id
  reviewerAgentId := input.reviewerAgentId
  approverId := review.approverId
  headSha := review.headSha
  runId := review.runId
  verdict := verdict

/-- The review is still open, about the commit the pull request is on, and the approver's row still names the reviewer. -/
structure Writable (store : Store) (submission : Submission) : Prop where
  still : store.isOpen submission.reviewId = true
  live : store.head = some submission.headSha
  named : (store.agentApprover submission.approverId submission.reviewerAgentId).isSome = true

/-- The approver's row carries the verdict, and the review is settled with it. -/
structure Recorded (store : Store) (submission : Submission) : Prop where
  decided : ∃ row, store.approvers submission.approverId = some row ∧
    row.approvalState = submission.verdict.approvalState ∧ row.decidedVia = some .agentReview ∧
    row.decidedHeadSha = some submission.headSha ∧ row.decidedByRunId = submission.runId
  settled : ∃ review ∈ store.reviews, review.id = submission.reviewId ∧ review.state = submission.verdict.reviewState

/-- No verdict about the live commit is thrown away at a step: neither by its checks nor by its write. -/
def Kept (store : Store) (event : Event) : Prop :=
  match event with
  | .check call input standing => ∀ review verdict, Answers store input standing review verdict →
    (step store event).underWay call = some (submissionOf input review verdict)
  | .record call => ∀ submission, store.underWay call = some submission → Writable store submission →
    Recorded (step store event) submission
  | _ => True

/-- The approver's row carries a review's verdict about another commit, and that review holds a higher slot. -/
def Overtaken (store : Store) (submission : Submission) : Prop :=
  ∃ row other mine prior, store.agentApprover submission.approverId submission.reviewerAgentId = some row ∧
    row.approvalState ≠ .pending ∧ row.decidedVia = some .agentReview ∧
    row.decidedHeadSha = some other ∧ other ≠ submission.headSha ∧
    store.findReview submission.reviewId = some mine ∧
    store.findByClaimKey (agentReviewClaimKey submission.reviewerAgentId other.text) = some prior ∧
    mine.slot < prior.slot

/-- A verdict that may be written is not overtaken. -/
def NotOvertaken (store : Store) (event : Event) : Prop :=
  match event with
  | .record call => ∀ submission, store.underWay call = some submission → Writable store submission →
    ¬ Overtaken store submission
  | _ => True

section
variable {store : Store} {submission : Submission}

theorem CommitSha.trim_text (sha : CommitSha) : trim sha.text = sha.text := by
  refine trim_solid fun c listed => ?_
  have digit := sha.digits c listed
  have bounds : (48 ≤ c.toNat ∧ c.toNat ≤ 57) ∨ (97 ≤ c.toNat ∧ c.toNat ≤ 102) := by
    rw [isShaDigit, Bool.or_eq_true, Bool.and_eq_true, decide_eq_true_iff, decide_eq_true_iff] at digit
    rcases digit with digit | ⟨low, high⟩
    · rw [Char.isDigit, Bool.and_eq_true, decide_eq_true_iff, decide_eq_true_iff] at digit
      exact .inl ⟨digit.1, digit.2⟩
    · exact .inr ⟨low, high⟩
  unfold isWhiteSpace
  simp only [Bool.or_eq_false_iff, Bool.and_eq_false_iff, beq_eq_false_iff_ne, decide_eq_false_iff_not]
  omega

theorem CommitSha.text_ne (sha : CommitSha) : sha.text ≠ "" := by
  intro empty
  have long := sha.long
  rw [empty] at long
  exact absurd long (by decide)

theorem CommitSha.ext_text {first second : CommitSha} (same : first.text = second.text) : first = second := by
  cases first
  cases second
  cases same
  rfl

theorem superseded_iff {row : TaskApprover}
    (named : store.agentApprover submission.approverId submission.reviewerAgentId = some row) :
    isSupersededInTransaction store submission row = true ↔ Overtaken store submission := by
  unfold isSupersededInTransaction
  constructor
  · intro superseded
    split at superseded
    case isTrue => cases superseded
    rename_i decided
    dsimp only at superseded
    split at superseded
    case isTrue => cases superseded
    rename_i other
    rw [Bool.or_eq_true, not_or, decide_eq_true_iff, decide_eq_true_iff, not_not] at decided
    rw [Bool.or_eq_true, not_or, decide_eq_true_iff, decide_eq_true_iff] at other
    split at superseded
    case h_2 => cases superseded
    rename_i mine prior foundMine foundPrior
    cases head : row.decidedHeadSha with
    | none =>
      rw [head] at other
      exact absurd rfl other.1
    | some sha =>
      have text : trim ((row.decidedHeadSha.map (·.text)).getD "") = sha.text := by
        rw [head]
        exact sha.trim_text
      rw [text] at foundPrior other
      exact ⟨row, sha, mine, prior, named, decided.1, decided.2, head, fun same => other.2 (congrArg _ same), foundMine,
        foundPrior, of_decide_eq_true superseded⟩
  · rintro ⟨row', sha, mine, prior, named', decided, via, head, other, foundMine, foundPrior, higher⟩
    obtain rfl := some.inj (named.symm.trans named')
    have text : trim ((row.decidedHeadSha.map (·.text)).getD "") = sha.text := by
      rw [head]
      exact sha.trim_text
    have apart : sha.text ≠ submission.headSha.text := fun same => other (CommitSha.ext_text same)
    rw [if_neg (by simp [decided, via])]
    dsimp only
    rw [text, if_neg (by simp [sha.text_ne, apart]), foundMine, foundPrior]
    exact decide_eq_true higher

theorem mem_casSettle {id : ℕ} {state : AgentReviewState} {refusalCode : Option String} (still : store.isOpen id = true) :
    ∃ review ∈ (store.casSettle id state refusalCode).reviews, review.id = id ∧ review.state = state := by
  obtain ⟨row, listed, both⟩ := any_eq_true.mp still
  rw [Bool.and_eq_true, decide_eq_true_iff, decide_eq_true_iff] at both
  refine ⟨{ row with state, refusalCode }, mem_map.mpr ⟨row, listed, if_pos both⟩, both.1, rfl⟩

theorem finish_of_overtaken (writable : Writable store submission) (overtaken : Overtaken store submission) :
    (finishVerdict store submission).approvers = store.approvers := by
  obtain ⟨row, named⟩ := isSome_iff_exists.mp writable.named
  have superseded := (superseded_iff named).mpr overtaken
  have outcome : recordVerdict store submission = (.superseded, store) := by
    rw [recordVerdict, writable.still, named]
    dsimp only
    rw [if_pos superseded]
    rfl
  rw [finishVerdict, outcome]
  rfl

theorem finish_of_not (writable : Writable store submission) (free : ¬ Overtaken store submission) :
    Recorded (finishVerdict store submission) submission := by
  obtain ⟨row, named⟩ := isSome_iff_exists.mp writable.named
  have written : finishVerdict store submission =
      (store.casSettle submission.reviewId submission.verdict.reviewState none).setApprover submission.approverId
        (some (decidedRow submission row)) := by
    rw [finishVerdict, recordVerdict, writable.still, named]
    dsimp only
    rw [if_neg fun superseded => free ((superseded_iff named).mp superseded)]
    rfl
  rw [written]
  constructor
  · exact ⟨decidedRow submission row, if_pos rfl, rfl, rfl, rfl, rfl⟩
  · exact mem_casSettle writable.still

theorem not_recorded (overtaken : Overtaken store submission) {after : Store} (same : after.approvers = store.approvers) :
    ¬ Recorded after submission := by
  rintro ⟨⟨row', found, -, -, head, -⟩, -⟩
  obtain ⟨row, sha, mine, prior, named, -, -, about, other, -⟩ := overtaken
  obtain ⟨here, -⟩ := filter_eq_some_iff.mp named
  rw [same, here] at found
  obtain rfl := some.inj found
  exact other (some.inj (about.symm.trans head))

theorem check_of_answers {input : SubmitAgentReviewInput} {standing : Standing} {review : ReviewRow}
    {verdict : AgentReviewVerdict} (answers : Answers store input standing review verdict) :
    checkVerdict store input standing = .passed (submissionOf input review verdict) := by
  obtain ⟨row, named⟩ := isSome_iff_exists.mp answers.named
  rw [checkVerdict, answers.bound]
  dsimp only
  rw [answers.clean]
  dsimp only
  rw [if_neg (not_not.mpr answers.live), answers.readable]
  dsimp only
  rw [named]
  rfl

theorem kept_iff (store : Store) (event : Event) : Kept store event ↔ NotOvertaken store event := by
  cases event with
  | check call input standing =>
    refine iff_of_true (fun review verdict answers => ?_) trivial
    rw [step, check_of_answers answers]
    exact if_pos rfl
  | record call =>
    refine forall_congr' fun submission => forall_congr' fun called => forall_congr' fun writable => ?_
    have stepped : step store (.record call) = setUnderWay (finishVerdict store submission) call none := by
      rw [step, called]
    rw [stepped]
    constructor
    · intro recorded overtaken
      refine not_recorded overtaken (finish_of_overtaken writable overtaken) ?_
      exact ⟨recorded.decided, recorded.settled⟩
    · intro free
      have recorded := finish_of_not writable free
      exact ⟨recorded.decided, recorded.settled⟩
  | push | startRun | addApprover | removeApprover | decide | claim | bindRun | dispatchFailed | resetStale | restore =>
    exact Iff.rfl

end

/-- Along a run no verdict about the live commit is thrown away exactly if none is overtaken when it is written. -/
theorem verdicts_kept_iff (taskId : String) (head : Option CommitSha) (events : List Event) :
    Along step Kept (start taskId head) events ↔ Along step NotOvertaken (start taskId head) events := by
  have whole : Along step (fun _ _ => True) (start taskId head) events := along_iff_split.mpr fun _ _ _ _ => trivial
  exact along_congr (fun store event _ => kept_iff store event) whole

/-! ## A commit that comes back -/

def firstCommit : CommitSha := ⟨"aaaaaaa", all_eq_true.mp rfl, by decide⟩

def secondCommit : CommitSha := ⟨"bbbbbbb", all_eq_true.mp rfl, by decide⟩

def comesBack : List Event :=
  [.addApprover "row" .agent "reviewer", .startRun "r1" ⟨"reviewer", "task", true⟩,
    .startRun "r2" ⟨"reviewer", "task", true⟩, .claim "reviewer" "row" firstCommit 0, .bindRun 0 "r1",
    .push (some secondCommit), .claim "reviewer" "row" secondCommit 1, .bindRun 1 "r2",
    .check 2 { runId := some "r2", reviewerAgentId := "reviewer", verdict := some "approve" } .clean, .record 2,
    .push (some firstCommit),
    .check 1 { runId := some "r1", reviewerAgentId := "reviewer", verdict := some "approve" } .clean]

/-- The verdict about the live commit is refused, and its review is closed for good. -/
theorem returned_commit_verdict_lost :
    ¬ ∀ (taskId : String) (head : Option CommitSha) (events : List Event), Along step Kept (start taskId head) events := by
  intro kept
  have last := along_iff_split.mp (kept "task" (some firstCommit) (comesBack ++ [.record 1])) comesBack (.record 1) [] rfl
  let late : Submission := ⟨0, "reviewer", "row", firstCommit, some "r1", .approve⟩
  have called : (run step (start "task" (some firstCommit)) comesBack).underWay 1 = some late := by decide
  obtain ⟨⟨row, found, -, -, about, -⟩, -⟩ := last late called ⟨by decide, by decide, by decide⟩
  have stays : ((step (run step (start "task" (some firstCommit)) comesBack) (.record 1)).approvers "row").bind
      (·.decidedHeadSha) = some secondCommit := by decide
  rw [show late.approverId = "row" from rfl] at found
  rw [found, bind_some, about] at stays
  exact absurd stays (by decide)

end EverWorks.Review.Verdicts
