import EverWorks.Lib.Utf16
import Mathlib.Data.List.Sort

/-!
The checklist's criteria, its rollup, its validation and the canonical shape it is stored in.
-/

namespace EverWorks.Goals
open Lib Lib.Utf16 List

inductive GoalDoDStatus
  | opened
  | done
  | waived
  deriving DecidableEq

def GoalDoDStatus.text : GoalDoDStatus → Utf16
  | opened => ofString "open"
  | done => ofString "done"
  | waived => ofString "waived"

inductive GoalDoDSource
  | operator
  | planner
  deriving DecidableEq

structure GoalDoDCriterion where
  id : Utf16
  text : Utf16
  status : GoalDoDStatus
  evidence : Option Utf16 := none
  note : Option Utf16 := none
  source : Option GoalDoDSource := none
  /-- `proposed === true`. -/
  proposed : Bool := false
  updatedAt : Option Utf16 := none
  deriving DecidableEq

def maxGoalDodCriteria : Nat := 50
def maxDodTextChars : Nat := 500
def maxDodEvidenceChars : Nat := 1000
def maxDodNoteChars : Nat := 500
def maxDodIdChars : Nat := 64
def maxGoalDodJsonChars : Nat := 64000

structure GoalDoDSummary where
  total : Nat := 0
  done : Nat := 0
  waived : Nat := 0
  opened : Nat := 0
  proposed : Nat := 0
  closed : Nat := 0
  complete : Bool := false
  deriving DecidableEq

def isApprovedDoDCriterion (criterion : GoalDoDCriterion) : Bool := !criterion.proposed

def hasDefinitionOfDone (criteria : List GoalDoDCriterion) : Bool := criteria.any isApprovedDoDCriterion

def GoalDoDSummary.count (summary : GoalDoDSummary) (criterion : GoalDoDCriterion) : GoalDoDSummary :=
  if !isApprovedDoDCriterion criterion then { summary with proposed := summary.proposed + 1 }
  else
    let summary := { summary with total := summary.total + 1 }
    match criterion.status with
    | .done => { summary with done := summary.done + 1 }
    | .waived => { summary with waived := summary.waived + 1 }
    | .opened => { summary with opened := summary.opened + 1 }

def summarizeDoD (criteria : List GoalDoDCriterion) : GoalDoDSummary :=
  let summary := criteria.foldl GoalDoDSummary.count {}
  { summary with
    closed := summary.done + summary.waived
    complete := 0 < summary.total && summary.opened == 0 }

def dodProgressSignature (criteria : List GoalDoDCriterion) : Utf16 :=
  (ofString "|").intercalate (((criteria.filter isApprovedDoDCriterion).map fun criterion =>
    criterion.id ++ ofString ":" ++ criterion.status.text).insertionSort (· ≤ ·))

structure GoalDoDValidationError where
  field : String
  message : Utf16
  deriving DecidableEq

def dodError (message : Utf16) : GoalDoDValidationError := ⟨"dodCriteria", message⟩

def tooLong (value : Option Utf16) (bound : Nat) : Bool := value.any fun text => decide (bound < text.length)

def validateCriterion (seen : List Utf16) (entry : GoalDoDCriterion) : List GoalDoDValidationError :=
  let id := trim entry.id
  let criterion := ofString "criterion '" ++ id
  (if maxDodIdChars < id.length then
    [dodError (ofString "criterion id '" ++ id.take 16 ++ ofString "…' exceeds 64 characters")] else []) ++
  (if id ∈ seen then [dodError (ofString "duplicate criterion id '" ++ id ++ ofString "'")] else []) ++
  (if trim entry.text = [] then [dodError (criterion ++ ofString "' needs non-empty text")]
    else if maxDodTextChars < entry.text.length then
      [dodError (criterion ++ ofString "' text exceeds 500 characters")] else []) ++
  (if tooLong entry.evidence maxDodEvidenceChars then
    [dodError (criterion ++ ofString "' evidence must be a string of at most 1000 characters")] else []) ++
  (if tooLong entry.note maxDodNoteChars then
    [dodError (criterion ++ ofString "' note must be a string of at most 500 characters")] else [])

def validateEntries : List Utf16 → List GoalDoDCriterion → List GoalDoDValidationError
  | _, [] => []
  | seen, entry :: rest =>
    if trim entry.id = [] then
      dodError (ofString "every criterion needs a non-empty id") :: validateEntries seen rest
    else validateCriterion seen entry ++ validateEntries (trim entry.id :: seen) rest

/-- `jsonLength` is the length of the list's JSON text. -/
def validateDoDCriteria (jsonLength : List GoalDoDCriterion → Nat) (criteria : List GoalDoDCriterion) :
    List GoalDoDValidationError :=
  (if maxGoalDodCriteria < criteria.length then [dodError (ofString "at most 50 criteria are allowed")] else []) ++
  validateEntries [] criteria ++
  (if maxGoalDodJsonChars < jsonLength criteria then [dodError (ofString "dodCriteria payload is too large")] else [])

def normalizeOptionalText (value : Option Utf16) (max : Nat) : Option Utf16 :=
  match value with
  | none => none
  | some text => if trim text = [] then none else some ((trim text).take max)

def normalizeDoDCriterion (now : Utf16) (entry : GoalDoDCriterion) : GoalDoDCriterion where
  id := (trim entry.id).take maxDodIdChars
  text := (trim entry.text).take maxDodTextChars
  status := entry.status
  evidence := normalizeOptionalText entry.evidence maxDodEvidenceChars
  note := normalizeOptionalText entry.note maxDodNoteChars
  source := some (entry.source.getD .operator)
  updatedAt := some (entry.updatedAt.getD now)
  proposed := entry.proposed

def normalizeDoDCriteria (criteria : List GoalDoDCriterion) (now : Utf16) : List GoalDoDCriterion :=
  criteria.map (normalizeDoDCriterion now)

def GoalDoDCriterion.key (criterion : GoalDoDCriterion) : Utf16 := trim criterion.id

def DistinctIds (criteria : List GoalDoDCriterion) : Prop := (criteria.map (·.key)).Nodup

instance (criteria : List GoalDoDCriterion) : Decidable (DistinctIds criteria) :=
  inferInstanceAs (Decidable (List.Nodup _))

variable {criteria : List GoalDoDCriterion}

theorem validateEntries_nil {seen : List Utf16}
    (valid : validateEntries seen criteria = []) :
    DistinctIds criteria ∧ ∀ entry ∈ criteria, entry.key ∉ seen ∧ entry.key.length ≤ maxDodIdChars := by
  induction criteria generalizing seen with
  | nil => exact ⟨nodup_nil, fun _ listed => absurd listed not_mem_nil⟩
  | cons entry rest ih =>
    rw [validateEntries] at valid
    split at valid
    · cases valid
    · obtain ⟨own, others⟩ := append_eq_nil_iff.mp valid
      obtain ⟨distinct, fresh⟩ := ih others
      simp only [validateCriterion, append_eq_nil_iff] at own
      obtain ⟨⟨⟨⟨short, new⟩, -⟩, -⟩, -⟩ := own
      have short : entry.key.length ≤ maxDodIdChars := by
        by_contra long
        rw [if_pos (show maxDodIdChars < (trim entry.id).length from Nat.lt_of_not_le long)] at short
        cases short
      have new : entry.key ∉ seen := by
        intro inside
        rw [if_pos (show trim entry.id ∈ seen from inside)] at new
        cases new
      refine ⟨nodup_cons.mpr ⟨fun inside => ?_, distinct⟩, fun other listed => ?_⟩
      · obtain ⟨other, listed, same⟩ := mem_map.mp inside
        exact (fresh other listed).1 (mem_cons.mpr (.inl same))
      · rcases mem_cons.mp listed with rfl | later
        · exact ⟨new, short⟩
        · exact ⟨fun inside => (fresh other later).1 (mem_cons_of_mem _ inside), (fresh other later).2⟩

theorem distinct_of_valid {jsonLength : List GoalDoDCriterion → Nat}
    (valid : validateDoDCriteria jsonLength criteria = []) :
    DistinctIds criteria ∧ ∀ entry ∈ criteria, entry.key.length ≤ maxDodIdChars := by
  simp only [validateDoDCriteria, append_eq_nil_iff] at valid
  obtain ⟨distinct, each⟩ := validateEntries_nil valid.1.2
  exact ⟨distinct, fun entry listed => (each entry listed).2⟩

theorem normalize_key {now : Utf16} {entry : GoalDoDCriterion} (short : entry.key.length ≤ maxDodIdChars) :
    (normalizeDoDCriterion now entry).key = entry.key := by
  have whole : (trim entry.id).take maxDodIdChars = trim entry.id := take_of_length_le short
  calc trim ((trim entry.id).take maxDodIdChars) = trim (trim entry.id) := by rw [whole]
    _ = trim entry.id := trim_trim _

theorem count_proposed (summary : GoalDoDSummary)
    (proposed : ∀ entry ∈ criteria, entry.proposed = true) :
    criteria.foldl GoalDoDSummary.count summary =
      { summary with proposed := summary.proposed + criteria.length } := by
  induction criteria generalizing summary with
  | nil => rfl
  | cons entry rest ih =>
    have own : summary.count entry = { summary with proposed := summary.proposed + 1 } := by
      rw [GoalDoDSummary.count, isApprovedDoDCriterion, proposed entry mem_cons_self]
      rfl
    rw [foldl_cons, own, ih _ fun other later => proposed other (mem_cons_of_mem _ later), length_cons]
    simp only [GoalDoDSummary.mk.injEq, true_and, and_true]
    omega

theorem summarizeDoD_append {criteria proposed : List GoalDoDCriterion}
    (inert : ∀ entry ∈ proposed, entry.proposed = true) :
    summarizeDoD (criteria ++ proposed) =
      { summarizeDoD criteria with proposed := (summarizeDoD criteria).proposed + proposed.length } := by
  rw [summarizeDoD, foldl_append, count_proposed _ inert]
  rfl

end EverWorks.Goals

/-!
## A Goal

The columns of a Goal's row that its execution loop and its Definition of Done read and write.
-/

namespace EverWorks.Goals

inductive GoalKind
  | metric
  | delivery
  deriving DecidableEq

inductive GoalStatus
  | draft
  | active
  | paused
  | completed
  deriving DecidableEq

inductive GoalOutcome
  | achieved
  | missed
  | abandoned
  deriving DecidableEq

inductive GoalLoopStatus
  | running
  | paused
  | done
  | cancelled
  | stuck
  deriving DecidableEq

/-- Times are in milliseconds, agents and Works are known by their ids. -/
structure Goal where
  goalKind : GoalKind := .metric
  status : GoalStatus := .active
  outcome : Option GoalOutcome := none
  nextCheckAt : Option Int := none
  dodCriteria : Option (List GoalDoDCriterion) := none
  spendCapCents : Option Nat := none
  spentCents : Nat := 0
  wallClockLimitHours : Option Nat := none
  stuckThresholdIterations : Option Nat := none
  maxConcurrentIterations : Option Nat := none
  gracePeriodMinutes : Option Nat := none
  iteration : Nat := 0
  lastProgressIteration : Nat := 0
  activeAgentId : Option Nat := none
  assignedAgentId : Option Nat := none
  loopStatus : Option GoalLoopStatus := none
  loopStartedAt : Option Int := none
  archivedAt : Option Int := none
  workId : Option Nat := none
  deriving DecidableEq

def Goal.criteria (goal : Goal) : List GoalDoDCriterion := goal.dodCriteria.getD []

def isDeliveryGoal (goal : Goal) : Bool := goal.goalKind == .delivery

end EverWorks.Goals
