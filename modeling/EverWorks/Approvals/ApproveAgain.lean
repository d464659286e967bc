import EverWorks.Approvals.MergeApproval
import Mathlib.Data.List.Nodup

/-!
# Approving again

A commit has one row. Once that row has been decided nothing is asked again for the commit, also where the decision was
an approval that no longer counts.
-/

namespace EverWorks.Approvals
open Lib List Option

/-! ## One row for each commit -/

structure Sound (row : AgentActionProposal) : Prop where
  merge : row.actionType = .mergePullRequest
  keyed : row.subjectKey ≠ none
  personal : row.status = .approved →
    row.decidedVia = some .user ∧ ∃ decidedById decidedAt, row.decidedById = some decidedById ∧
      row.decidedAt = some decidedAt

structure Kept (rows : List AgentActionProposal) : Prop where
  apart : (rows.map (·.subjectKey)).Nodup
  sound : ∀ row ∈ rows, Sound row

section
variable {rows : List AgentActionProposal}

theorem Kept.unique (kept : Kept rows) {a b : AgentActionProposal} (mem : a ∈ rows) (mem' : b ∈ rows)
    (same : a.subjectKey = b.subjectKey) : a = b := inj_on_of_nodup_map kept.apart mem mem' same

variable {status : Option ProposalStatus}

theorem findRow_some {key : String} {row : AgentActionProposal}
    (found : findRow rows key status = some row) :
    row ∈ rows ∧ row.actionType = .mergePullRequest ∧ row.subjectKey = some key ∧ ∀ s ∈ status, row.status = s := by
  have holds := find?_some found
  simp only [decide_eq_true_eq, all_eq_true_iff_get] at holds
  refine ⟨mem_of_find?_eq_some found, holds.1, holds.2.1, fun s mem => ?_⟩
  cases mem
  exact holds.2.2 rfl

theorem findRow_none {key : String} (missing : findRow rows key status = none)
    (kept : Kept rows) {row : AgentActionProposal} (mem : row ∈ rows) (keyed : row.subjectKey = some key) :
    ∃ s, status = some s ∧ row.status ≠ s := by
  have fails := find?_eq_none.mp missing row mem
  cases status with
  | none => exact absurd (by simp [keyed, (kept.sound row mem).merge]) fails
  | some s => exact ⟨s, rfl, fun same => fails (by simp [keyed, (kept.sound row mem).merge, same])⟩

end

def mergeDecision (agent : AgentRow) : GuardrailDecision :=
  applyLadderToGuardrailDecision (evaluateGuardrails agent.guardrails .mergePullRequest [.destructive]) .mergePullRequest
    agent.ladder

theorem proposalDecision_merge (agent : AgentRow) {input : CreateProposalInput}
    (merge : input.actionType = .mergePullRequest) : proposalDecision agent input = mergeDecision agent := by
  have flags : riskScorer .mergePullRequest input.payload = [.destructive] := by
    rw [riskScorer, if_neg (by decide), if_pos (.inr rfl), nil_append]
  rw [proposalDecision, merge, flags, mergeDecision]

theorem mergeDecision_ne (agent : AgentRow) : mergeDecision agent ≠ .autoApprove := by
  have rules : evaluateGuardrails agent.guardrails .mergePullRequest [.destructive] ≠ .autoApprove := by
    unfold evaluateGuardrails
    split
    · decide
    · split
      · decide
      · simp
  unfold mergeDecision applyLadderToGuardrailDecision
  split
  · decide
  · split
    · split
      · split
        · exact rules
        · split
          · decide
          · split
            · decide
            · exact rules
      · exact rules
    · exact rules

/-! ## Steps -/

section
variable {case : JsString.LowerCase} {state : State} {input : RequestMergeApprovalInput} {key headSha : String}

/-- The agent may not even ask. -/
def Blocked (state : State) (input : RequestMergeApprovalInput) : Prop :=
  ∃ agent, state.platform.agent input.agentId input.userId = some agent ∧ mergeDecision agent = .block

theorem proposedRow_subjectKey {userId : String} {proposed : CreateProposalInput} {decision : GuardrailDecision} :
    (proposedRow state userId proposed decision).subjectKey = proposed.subjectKey := rfl

theorem proposedRow_actionType {userId : String} {proposed : CreateProposalInput} {decision : GuardrailDecision} :
    (proposedRow state userId proposed decision).actionType = proposed.actionType := rfl

theorem createProposal_some {proposal : AgentActionProposal} {next : State}
    (created : createProposal state input.userId (mergeProposal input key headSha) = some (proposal, next)) :
    next = { state with rows := state.rows ++ [proposal] } ∧ proposal.subjectKey = some key ∧ Sound proposal ∧
      (∀ row ∈ state.rows, row.actionType = .mergePullRequest → row.subjectKey ≠ some key) ∧
      (proposal.status = .pending ↔ ¬ Blocked state input) := by
  have merge : (mergeProposal input key headSha).actionType = .mergePullRequest := rfl
  have keyed : (mergeProposal input key headSha).subjectKey = some key := rfl
  have asks : (mergeProposal input key headSha).agentId = input.agentId := rfl
  generalize mergeProposal input key headSha = proposed at created merge keyed asks
  unfold createProposal at created
  split at created
  · cases created
  · rw [bind_eq_some_iff] at created
    obtain ⟨agent, known, created⟩ := created
    rw [asks] at known
    rw [proposalDecision_merge agent merge] at created
    dsimp only at created
    split at created
    · cases created
    · rename_i free
      have decision := mergeDecision_ne agent
      have isBlocked : Blocked state input ↔ mergeDecision agent = .block := by
        constructor
        · rintro ⟨other, known', block⟩
          cases known.symm.trans known'
          exact block
        · intro block
          exact ⟨agent, known, block⟩
      have fresh : ∀ row ∈ state.rows, row.actionType = .mergePullRequest → row.subjectKey ≠ some key := by
        intro row mem merge' keyed'
        refine free ⟨?_, any_eq_true.mpr ⟨row, mem, decide_eq_true ?_⟩⟩
        · rw [proposedRow_subjectKey, keyed]
          rfl
        · rw [proposedRow_subjectKey, proposedRow_actionType, merge, keyed]
          exact ⟨merge', keyed'⟩
      rw [isBlocked]
      generalize mergeDecision agent = found at created decision ⊢
      cases created
      refine ⟨rfl, keyed, ⟨merge, ?_, ?_⟩, fresh, ?_⟩
      · rw [proposedRow_subjectKey, keyed]
        exact some_ne_none _
      · cases found with
        | queue => exact fun approved => nomatch approved
        | autoApprove => exact absurd rfl decision
        | block => exact fun approved => nomatch approved
      · cases found with
        | queue => exact iff_of_true rfl (by decide)
        | autoApprove => exact absurd rfl decision
        | block => exact iff_of_false (fun pending => nomatch pending) (not_not_intro rfl)

theorem Kept.append {rows : List AgentActionProposal} (kept : Kept rows) {row : AgentActionProposal} (sound : Sound row)
    (fresh : ∀ other ∈ rows, other.subjectKey ≠ row.subjectKey) : Kept (rows ++ [row]) where
  apart := by
    rw [map_append, map_singleton, nodup_append]
    refine ⟨kept.apart, nodup_singleton _, ?_⟩
    intro key mem key' mem' same
    obtain ⟨other, present, rfl⟩ := mem_map.mp mem
    rw [mem_singleton.mp mem'] at same
    exact fresh other present same
  sound other mem := by
    rcases mem_append.mp mem with old | new
    · exact kept.sound other old
    · rw [mem_singleton.mp new]
      exact sound

theorem kept_raiseApproval (kept : Kept state.rows) : Kept (raiseApproval state input key headSha).2.rows := by
  unfold raiseApproval
  split
  · rename_i proposal next created
    obtain ⟨rfl, keyed, sound, fresh, -⟩ := createProposal_some created
    refine kept.append sound fun other mem => ?_
    rw [keyed]
    exact fresh other mem (kept.sound other mem).merge
  · split <;> exact kept

theorem kept_requestMergeApproval (kept : Kept state.rows) : Kept (requestMergeApproval case state input).2.rows := by
  unfold requestMergeApproval
  split
  · exact kept
  · split
    · exact kept
    · exact kept_raiseApproval kept

theorem kept_decide (kept : Kept state.rows) (userId : String) (id : ℕ) (decision : Bool) :
    Kept (decide state userId id decision).rows where
  apart := by
    have same : (decide state userId id decision).rows.map (·.subjectKey) = state.rows.map (·.subjectKey) := by
      rw [decide, List.map_map]
      refine map_congr_left fun row _ => ?_
      rw [Function.comp]
      split <;> rfl
    rw [same]
    exact kept.apart
  sound row mem := by
    obtain ⟨old, present, rfl⟩ := mem_map.mp mem
    have sound := kept.sound old present
    split
    · exact ⟨sound.merge, sound.keyed, fun _ => ⟨rfl, _, _, rfl, rfl⟩⟩
    · exact sound

theorem approvalPath_rows : (approvalPath case state input).2 = state ∨
    (approvalPath case state input).2 = (requestMergeApproval case state input).2 := by
  unfold approvalPath
  split
  · exact .inl rfl
  · right
    dsimp only
    split <;> rfl

theorem kept_step (kept : Kept state.rows) (event : Event) : Kept (step case state event).rows := by
  cases event with
  | pass input =>
    rw [step]
    rcases @approvalPath_rows case state input with same | asked
    · rw [same]
      exact kept
    · rw [asked]
      exact kept_requestMergeApproval kept
  | raise input =>
    rw [step]
    cases input.key case with
    | none => exact kept
    | some found =>
      obtain ⟨key, headSha⟩ := found
      rw [elim_some]
      exact kept_raiseApproval kept
  | decide userId id decision =>
    rw [step]
    exact kept_decide kept userId id decision
  | platform next => exact kept
  | clock next => exact kept

end

theorem kept_run {case : JsString.LowerCase} {state : State} (kept : Kept state.rows) (events : List Event) :
    Kept (run (step case) state events).rows := by
  induction events generalizing state with
  | nil => exact kept
  | cons event rest ih => exact ih (kept_step kept event)

/-! ## What the gate reads -/

section
variable {case : JsString.LowerCase} {state : State} {input : RequestMergeApprovalInput} {key headSha : String}

/-- An approval of a person who may still give it, not too old. -/
def Counts (state : State) (taskId : String) (row : AgentActionProposal) : Prop :=
  ∃ decidedById decidedAt, row.decidedById = some decidedById ∧ row.decidedAt = some decidedAt ∧
    state.now - decidedAt ≤ mergeApprovalMaxAgeMs ∧
      entitledToApprove state.platform (JsString.trim taskId) decidedById = none

def MergeApprovalVerdict.Refused (verdict : MergeApprovalVerdict) : Prop := ∃ code reason, verdict = .refused code reason

theorem refused_describeMissing {rows : List AgentActionProposal} {taskId headSha : String} {prNumber : ℤ} :
    (describeMissingApproval rows taskId prNumber headSha).Refused := by
  unfold describeMissingApproval
  dsimp only
  split <;> split <;> exact ⟨_, _, rfl⟩

variable {row : AgentActionProposal}

theorem refused_judge {taskId : String} (sound : Sound row) (approved : row.status = .approved) :
    (judgeApproval state (JsString.trim taskId) row).Refused ↔ ¬ Counts state taskId row := by
  obtain ⟨via, decidedById, decidedAt, byPerson, atTime⟩ := sound.personal approved
  have person : row.decidedById.filter (fun _ => row.decidedVia = some .user) = some decidedById := by
    rw [byPerson, filter_some, if_pos (decide_eq_true via)]
  have counts : Counts state taskId row ↔ state.now - decidedAt ≤ mergeApprovalMaxAgeMs ∧
      entitledToApprove state.platform (JsString.trim taskId) decidedById = none := by
    constructor
    · rintro ⟨other, time, isPerson, isTime, rest⟩
      cases byPerson.symm.trans isPerson
      cases atTime.symm.trans isTime
      exact rest
    · intro rest
      exact ⟨decidedById, decidedAt, byPerson, atTime, rest⟩
  rw [counts, judgeApproval, person]
  dsimp only
  rw [atTime]
  dsimp only
  split
  · rename_i old
    exact iff_of_true ⟨_, _, rfl⟩ fun both => absurd both.1 (Int.not_le.mpr old)
  · rename_i young
    cases entitled : entitledToApprove state.platform (JsString.trim taskId) decidedById with
    | some reason => exact iff_of_true ⟨_, _, rfl⟩ fun both => nomatch both.2
    | none => exact iff_of_false (fun ⟨_, _, refused⟩ => nomatch refused) (not_not_intro ⟨Int.not_lt.mp young, rfl⟩)

theorem verify_eq (keyed : input.key case = some (key, headSha)) :
    verifyMergeApproval case state ⟨input.taskId, input.prNumber, input.headSha⟩ =
      match findRow state.rows key (some .approved) with
      | none => describeMissingApproval state.rows (JsString.trim input.taskId) input.prNumber headSha
      | some row => judgeApproval state (JsString.trim input.taskId) row := by
  rw [RequestMergeApprovalInput.key, bind_eq_some_iff] at keyed
  obtain ⟨sha, normal, keyed⟩ := keyed
  rw [map_eq_some_iff] at keyed
  obtain ⟨text, ok, pair⟩ := keyed
  cases pair
  have made : mergeApprovalSubjectKey case input.taskId input.prNumber headSha = .ok key := by
    cases result : mergeApprovalSubjectKey case input.taskId input.prNumber headSha with
    | error message =>
      rw [result] at ok
      cases ok
    | ok text =>
      rw [result] at ok
      cases ok
      rfl
  have trimmed : mergeApprovalSubjectKey case (JsString.trim input.taskId) input.prNumber headSha = .ok key := by
    rw [← made]
    unfold mergeApprovalSubjectKey
    rw [JsString.trim_trim]
  have named : JsString.trim input.taskId ≠ "" := by
    intro blank
    unfold mergeApprovalSubjectKey at made
    rw [if_pos blank] at made
    cases made
  unfold verifyMergeApproval
  dsimp only
  rw [if_neg named, normal]
  dsimp only
  rewrite [trimmed]
  rfl

theorem verify_some (keyed : input.key case = some (key, headSha))
    (found : findRow state.rows key (some .approved) = some row) :
    verifyMergeApproval case state ⟨input.taskId, input.prNumber, input.headSha⟩ =
      judgeApproval state (JsString.trim input.taskId) row := by
  rw [verify_eq keyed, found]

theorem verify_none (keyed : input.key case = some (key, headSha))
    (missing : findRow state.rows key (some .approved) = none) :
    verifyMergeApproval case state ⟨input.taskId, input.prNumber, input.headSha⟩ =
      describeMissingApproval state.rows (JsString.trim input.taskId) input.prNumber headSha := by
  rw [verify_eq keyed, missing]

theorem findRow_of_mem (kept : Kept state.rows) (mem : row ∈ state.rows)
    (keyed : row.subjectKey = some key) {status : Option ProposalStatus} (stands : ∀ s ∈ status, row.status = s) :
    findRow state.rows key status = some row := by
  cases found : findRow state.rows key status with
  | none =>
    obtain ⟨s, rfl, differs⟩ := findRow_none found kept mem keyed
    exact absurd (stands s rfl) differs
  | some other =>
    obtain ⟨mem', -, keyed', -⟩ := findRow_some found
    rw [kept.unique mem' mem (keyed'.trans keyed.symm)]

theorem trim_ne_empty {text : String} {c : Char} (mem : c ∈ text.toList) (solid : JsString.isWhiteSpace c = false) :
    JsString.trim text ≠ "" := by
  intro blank
  have empty : (JsString.trim text).toList = [] := by
    rw [blank]
    rfl
  rw [JsString.trim, String.toList_ofList, reverse_eq_nil_iff, dropWhile_eq_nil_iff] at empty
  have kept : c ∈ text.toList.dropWhile JsString.isWhiteSpace := by
    rw [← takeWhile_append_dropWhile (p := JsString.isWhiteSpace) (l := text.toList)] at mem
    refine (mem_append.mp mem).resolve_left fun front => ?_
    rw [mem_takeWhile_imp front] at solid
    cases solid
  rw [empty c (mem_reverse.mpr kept)] at solid
  cases solid

theorem mergeProposal_title : JsString.trim (mergeProposal input key headSha).title ≠ "" := by
  have first : 'M' ∈ (mergeProposal input key headSha).title.toList := by
    unfold mergeProposal
    simp only [String.toList_ofList]
    generalize input.targetBranch.elim "" _ = target
    generalize input.repository.elim "" _ = place
    simp [toString, take_succ_cons]
  exact trim_ne_empty first (by decide)

/-! ## Asking again -/

def RequestOutcome.Went : RequestOutcome → Prop
  | .raised _ | .alreadyOpen | .alreadyDecided => True
  | .unusableSubject | .failed => False

def RejectedByPerson (state : State) (key : String) : Prop :=
  ∃ row ∈ state.rows, row.subjectKey = some key ∧ row.status = .rejected ∧ row.decidedVia = some .user

/-- A commit that is refused for another reason than a person's rejection has a row to decide on once the gate has asked
for it. -/
def AskedAgain (case : JsString.LowerCase) (state : State) (input : RequestMergeApprovalInput) : Prop :=
  ∀ key headSha, input.key case = some (key, headSha) →
    (verifyMergeApproval case state ⟨input.taskId, input.prNumber, input.headSha⟩).Refused →
      ¬ RejectedByPerson state key → (requestMergeApproval case state input).1.Went →
        ∃ row ∈ (requestMergeApproval case state input).2.rows, row.actionType = .mergePullRequest ∧
          row.subjectKey = some key ∧ row.status = .pending

/-- The commit's row is pending, or was rejected by a person, or is an approval that counts; and where it has none the
agent may ask. -/
def MayBeDecided (case : JsString.LowerCase) (state : State) (input : RequestMergeApprovalInput) : Prop :=
  ∀ key headSha, input.key case = some (key, headSha) →
    (∀ row ∈ state.rows, row.subjectKey = some key →
      row.status = .pending ∨ row.status = .rejected ∧ row.decidedVia = some .user ∨
        row.status = .approved ∧ Counts state input.taskId row) ∧
      ((∀ row ∈ state.rows, row.subjectKey ≠ some key) → ¬ Blocked state input)

theorem went_outcomeOf : (outcomeOf row).Went := by
  unfold outcomeOf
  split <;> trivial

theorem findRow_missing {status : Option ProposalStatus}
    (missing : ∀ row ∈ state.rows, row.subjectKey = some key → ∀ s ∈ status, row.status ≠ s)
    (some_ : status ≠ none ∨ ∀ row ∈ state.rows, row.subjectKey ≠ some key) : findRow state.rows key status = none := by
  refine eq_none_iff_forall_ne_some.mpr fun other found => ?_
  obtain ⟨mem, -, subject, stands⟩ := findRow_some found
  rcases some_ with some_ | free
  · obtain ⟨s, rfl⟩ := ne_none_iff_exists'.mp some_
    exact missing other mem subject s rfl (stands s rfl)
  · exact free other mem subject

theorem refused_iff (kept : Kept state.rows) (mem : row ∈ state.rows)
    (subject : row.subjectKey = some key) (keyed : input.key case = some (key, headSha)) :
    (verifyMergeApproval case state ⟨input.taskId, input.prNumber, input.headSha⟩).Refused ↔
      ¬ (row.status = .approved ∧ Counts state input.taskId row) := by
  by_cases approved : row.status = .approved
  · have found : findRow state.rows key (some .approved) = some row :=
      findRow_of_mem kept mem subject fun s same => approved.trans (some.inj same)
    rw [verify_some keyed found, refused_judge (kept.sound row mem) approved, and_iff_right approved]
  · have missing : findRow state.rows key (some .approved) = none := by
      refine findRow_missing (fun other mem' subject' s same stands => approved ?_) (.inl (some_ne_none _))
      rw [← kept.unique mem' mem (subject'.trans subject.symm), stands]
      exact (some.inj same).symm
    rw [verify_none keyed missing]
    exact iff_of_true refused_describeMissing fun both => approved both.1

theorem request_of_row (kept : Kept state.rows) (mem : row ∈ state.rows)
    (subject : row.subjectKey = some key) (keyed : input.key case = some (key, headSha)) :
    requestMergeApproval case state input = (outcomeOf row, state) := by
  have found : findRow state.rows key none = some row :=
    findRow_of_mem kept mem subject fun s same => absurd same (some_ne_none s).symm
  simp only [requestMergeApproval, keyed, found]

theorem request_of_none (free : ∀ row ∈ state.rows, row.subjectKey ≠ some key)
    (keyed : input.key case = some (key, headSha)) :
    requestMergeApproval case state input = raiseApproval state input key headSha := by
  have missing : findRow state.rows key none = none :=
    findRow_missing (fun row mem subject => absurd subject (free row mem)) (.inr free)
  simp only [requestMergeApproval, keyed, missing]

theorem askedAgain_of_row (kept : Kept state.rows) (mem : row ∈ state.rows)
    (subject : row.subjectKey = some key) (keyed : input.key case = some (key, headSha)) : AskedAgain case state input ↔
      row.status = .pending ∨ row.status = .rejected ∧ row.decidedVia = some .user ∨
        row.status = .approved ∧ Counts state input.taskId row := by
  have sound := kept.sound row mem
  have refused := refused_iff kept mem subject keyed
  have only {other : AgentActionProposal} (mem' : other ∈ state.rows) (subject' : other.subjectKey = some key) : other = row :=
    kept.unique mem' mem (subject'.trans subject.symm)
  unfold AskedAgain RejectedByPerson
  rw [request_of_row kept mem subject keyed]
  constructor
  · intro holds
    by_cases counting : row.status = .approved ∧ Counts state input.taskId row
    · exact .inr (.inr counting)
    · by_cases rejected : row.status = .rejected ∧ row.decidedVia = some .user
      · exact .inr (.inl rejected)
      · obtain ⟨other, mem', -, subject', pending⟩ := holds key headSha keyed (refused.mpr counting)
          (fun ⟨other, mem', subject', isRejected⟩ => rejected (only mem' subject' ▸ isRejected)) went_outcomeOf
        exact .inl (only mem' subject' ▸ pending)
  · intro stands key' headSha' keyed' isRefused notRejected _
    cases keyed.symm.trans keyed'
    rcases stands with pending | rejected | counting
    · exact ⟨row, mem, sound.merge, subject, pending⟩
    · exact absurd ⟨row, mem, subject, rejected⟩ notRejected
    · exact absurd counting (refused.mp isRefused)

theorem not_blocked_of_failed (free : ∀ row ∈ state.rows, row.subjectKey ≠ some key)
    (failed : createProposal state input.userId (mergeProposal input key headSha) = none) : ¬ Blocked state input := by
  rintro ⟨agent, known, -⟩
  have title := @mergeProposal_title input key headSha
  have keyed : (mergeProposal input key headSha).subjectKey = some key := rfl
  have asks : (mergeProposal input key headSha).agentId = input.agentId := rfl
  generalize mergeProposal input key headSha = proposed at failed title keyed asks
  unfold createProposal at failed
  rw [if_neg title, asks, known, bind_some] at failed
  dsimp only at failed
  split at failed
  · rename_i taken
    obtain ⟨row, mem, same⟩ := any_eq_true.mp taken.2
    have same := (of_decide_eq_true same).2
    rw [proposedRow_subjectKey, keyed] at same
    exact free row mem same
  · cases failed

theorem raise_none (failed : createProposal state input.userId (mergeProposal input key headSha) = none)
    (missing : findRow state.rows key none = none) : raiseApproval state input key headSha = (.failed, state) := by
  unfold raiseApproval
  split
  · rename_i created
    rw [failed] at created
    cases created
  · rw [missing]

theorem raise_some {proposal : AgentActionProposal} {next : State}
    (created : createProposal state input.userId (mergeProposal input key headSha) = some (proposal, next)) :
    raiseApproval state input key headSha = (.raised proposal, next) := by
  unfold raiseApproval
  split
  · rename_i other
    rw [created] at other
    cases other
    rfl
  · rename_i failed
    rw [created] at failed
    cases failed

theorem askedAgain_of_none (free : ∀ row ∈ state.rows, row.subjectKey ≠ some key)
    (keyed : input.key case = some (key, headSha)) : AskedAgain case state input ↔ ¬ Blocked state input := by
  have missing (status : Option ProposalStatus) : findRow state.rows key status = none :=
    findRow_missing (fun row mem subject => absurd subject (free row mem)) (.inr free)
  have refused : (verifyMergeApproval case state ⟨input.taskId, input.prNumber, input.headSha⟩).Refused := by
    rw [verify_none keyed (missing _)]
    exact refused_describeMissing
  have rejected : ¬ RejectedByPerson state key := by
    rintro ⟨row, mem, subject, -⟩
    exact free row mem subject
  unfold AskedAgain
  rw [request_of_none free keyed]
  cases created : createProposal state input.userId (mergeProposal input key headSha) with
  | none =>
    rw [raise_none created (missing none)]
    exact iff_of_true (fun _ _ _ _ _ went => went.elim) (not_blocked_of_failed free created)
  | some made =>
    obtain ⟨proposal, next⟩ := made
    rw [raise_some created]
    obtain ⟨rfl, subject, sound, -, pending⟩ := createProposal_some created
    rw [← pending]
    constructor
    · intro all
      obtain ⟨row, mem, -, subject', isPending⟩ := all key headSha keyed refused rejected trivial
      rcases mem_append.mp mem with old | new
      · exact absurd subject' (free row old)
      · rw [← mem_singleton.mp new]
        exact isPending
    · intro isPending key' headSha' keyed' _ _ _
      cases keyed.symm.trans keyed'
      exact ⟨proposal, mem_append_right _ mem_cons_self, sound.merge, subject, isPending⟩

theorem askedAgain_iff (kept : Kept state.rows) : AskedAgain case state input ↔ MayBeDecided case state input := by
  cases keyed : input.key case with
  | none =>
    unfold AskedAgain MayBeDecided
    rw [keyed]
    exact iff_of_true (fun _ _ none_ => nomatch none_) fun _ _ none_ => nomatch none_
  | some found =>
    obtain ⟨key, headSha⟩ := found
    have condition : MayBeDecided case state input ↔ (∀ row ∈ state.rows, row.subjectKey = some key →
        row.status = .pending ∨ row.status = .rejected ∧ row.decidedVia = some .user ∨
          row.status = .approved ∧ Counts state input.taskId row) ∧
        ((∀ row ∈ state.rows, row.subjectKey ≠ some key) → ¬ Blocked state input) := by
      unfold MayBeDecided
      rw [keyed]
      constructor
      · intro all
        exact all key headSha rfl
      · rintro holds _ _ ⟨⟩
        exact holds
    rw [condition]
    by_cases taken : ∃ row ∈ state.rows, row.subjectKey = some key
    · obtain ⟨row, mem, subject⟩ := taken
      rw [askedAgain_of_row kept mem subject keyed]
      constructor
      · intro stands
        refine ⟨fun other mem' subject' => ?_, fun free => absurd subject (free row mem)⟩
        rw [kept.unique mem' mem (subject'.trans subject.symm)]
        exact stands
      · intro both
        exact both.1 row mem subject
    · have free : ∀ row ∈ state.rows, row.subjectKey ≠ some key := fun row mem subject => taken ⟨row, mem, subject⟩
      rw [askedAgain_of_none free keyed]
      constructor
      · intro mayAsk
        exact ⟨fun row mem subject => absurd subject (free row mem), fun _ => mayAsk⟩
      · intro both
        exact both.2 free

end

/-- In every state that is reached, a commit that is refused for another reason than a person's rejection can be decided
after the gate has asked, exactly where its row is not decided already: its approval has not run out and still counts,
and the agent may ask. -/
theorem approve_again_iff (case : JsString.LowerCase) (platform : Platform) (now : ℤ) (events : List Event)
    (input : RequestMergeApprovalInput) :
    AskedAgain case (run (step case) { platform, now } events) input ↔
      MayBeDecided case (run (step case) { platform, now } events) input := by
  have start : Kept ({ platform, now } : State).rows := ⟨nodup_nil, fun _ mem => absurd mem not_mem_nil⟩
  exact askedAgain_iff (kept_run start events)

def personalPlatform : Platform where
  task taskId := if taskId = "t" then some { userId := "u" } else none
  user userId := if userId = "u" then some { isActive := true } else none
  agent agentId userId := if agentId = "a" ∧ userId = "u" then some {} else none

def personalRequest : RequestMergeApprovalInput :=
  { userId := "u", taskId := "t", taskLabel := "t", agentId := "a", prNumber := 7, headSha := "abcdef1" }

/-- The owner approves, waits for 25 hours, and can never approve that commit again. -/
theorem expired_approval_stays : ¬ ∀ (case : JsString.LowerCase) (platform : Platform) (now : ℤ) (events : List Event)
    (input : RequestMergeApprovalInput), AskedAgain case (run (step case) { platform, now } events) input := by
  intro claim
  have asked := claim .ascii personalPlatform 0 [.pass personalRequest, .decide "u" 0 true, .clock 90000000] personalRequest
  rw [approve_again_iff] at asked
  have keyed : personalRequest.key .ascii = some ("merge:t:7:abcdef1", "abcdef1") := by decide +kernel
  have clock : (run (step .ascii) { platform := personalPlatform, now := 0 }
      [.pass personalRequest, .decide "u" 0 true, .clock 90000000]).now = 90000000 := rfl
  have decided : ∃ row ∈ (run (step .ascii) { platform := personalPlatform, now := 0 }
      [.pass personalRequest, .decide "u" 0 true, .clock 90000000]).rows,
      row.subjectKey = some "merge:t:7:abcdef1" ∧ row.status = .approved ∧ row.decidedAt = some 0 := by decide +kernel
  obtain ⟨row, mem, subject, approved, time⟩ := decided
  rcases (asked _ _ keyed).1 row mem subject with pending | rejected | counting
  · exact absurd (approved.symm.trans pending) (by decide)
  · exact absurd (approved.symm.trans rejected.1) (by decide)
  · obtain ⟨-, decidedAt, -, time', young, -⟩ := counting.2
    cases time.symm.trans time'
    rw [clock] at young
    exact absurd young (by decide)

end EverWorks.Approvals
