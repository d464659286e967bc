import EverWorks.Goals.Goal
import EverWorks.Lib.Guarantee

/-!
Each edit reads the Goal, computes a whole new checklist from the copy and saves the column. Edits of one Goal run
side by side, and where each save finds the checklist that its edit read, none of them is lost.
-/

namespace EverWorks.Goals
open Lib Lib.Utf16 Lib.Program List

inductive DodRefusal
  | badRequest (message : Utf16)
  | notFound (message : Utf16)
  deriving DecidableEq

structure PatchGoalDoDCriterionInput where
  status : Option GoalDoDStatus := none
  text : Option Utf16 := none
  evidence : Option (Option Utf16) := none
  note : Option (Option Utf16) := none
  deriving DecidableEq

section
variable (jsonLength : List GoalDoDCriterion → Nat)

def assertDod (criteria : List GoalDoDCriterion) : Except DodRefusal Unit :=
  let errors := validateDoDCriteria jsonLength criteria
  if errors = [] then .ok ()
  else .error (.badRequest ((ofString "; ").intercalate (errors.map fun error =>
    ofString error.field ++ ofString ": " ++ error.message)))

def markProgressIfChanged (goal : Goal) (beforeSignature : Utf16) : Goal :=
  if dodProgressSignature goal.criteria ≠ beforeSignature then { goal with lastProgressIteration := goal.iteration }
  else goal

/-- `now` stands for the clock of one call, here and below. -/
def setDodCriteria (criteria : Option (List GoalDoDCriterion)) (now : Utf16) (goal : Goal) : Except DodRefusal Goal := do
  match criteria with
  | none => pure ()
  | some listed => assertDod jsonLength listed
  if isDeliveryGoal goal && (criteria.isNone || !hasDefinitionOfDone (criteria.getD [])) then
    .error (.badRequest (ofString "A delivery Goal must keep at least one approved Definition-of-Done criterion."))
  else
    pure (markProgressIfChanged { goal with dodCriteria := criteria.map (normalizeDoDCriteria · now) }
      (dodProgressSignature goal.criteria))

def PatchGoalDoDCriterionInput.apply (patch : PatchGoalDoDCriterionInput) (now : Utf16) (target : GoalDoDCriterion) :
    GoalDoDCriterion :=
  { target with
    status := patch.status.getD target.status
    text := patch.text.getD target.text
    evidence := patch.evidence.getD target.evidence
    note := patch.note.getD target.note
    updatedAt := some now }

def patchDodCriterion (criterionId : Utf16) (patch : PatchGoalDoDCriterionInput) (now : Utf16) (goal : Goal) :
    Except DodRefusal Goal :=
  match goal.criteria.find? (·.id = criterionId) with
  | none => .error (.notFound (ofString "Criterion not found"))
  | some target => do
    let updated := patch.apply now target
    let next := goal.criteria.map fun entry => if entry.id = criterionId then updated else entry
    assertDod jsonLength next
    pure (markProgressIfChanged { goal with dodCriteria := some (normalizeDoDCriteria next now) }
      (dodProgressSignature goal.criteria))

def proposedCriteria (criteria : List GoalDoDCriterion) (now : Utf16) : List GoalDoDCriterion :=
  normalizeDoDCriteria (criteria.map fun entry =>
    { entry with status := .opened, source := some .planner, proposed := true }) now

def proposeDodCriteria (criteria : List GoalDoDCriterion) (now : Utf16) (goal : Goal) : Except DodRefusal Goal :=
  if criteria = [] then .error (.badRequest (ofString "At least one proposed criterion is required."))
  else do
    let merged := goal.criteria ++ proposedCriteria criteria now
    assertDod jsonLength merged
    pure { goal with dodCriteria := some merged }

def wantedIds (criterionIds : Option (List Utf16)) : Option (List Utf16) := criterionIds.filter (· ≠ [])

def approvalNames (criterionIds : Option (List Utf16)) (id : Utf16) : Bool :=
  (wantedIds criterionIds).all fun ids => decide (id ∈ ids)

def approveCriterion (criterionIds : Option (List Utf16)) (now : Utf16) (entry : GoalDoDCriterion) : GoalDoDCriterion :=
  if entry.proposed && approvalNames criterionIds entry.id then
    { entry with proposed := false, updatedAt := some now }
  else entry

def approveDodCriteria (criterionIds : Option (List Utf16)) (now : Utf16) (goal : Goal) : Except DodRefusal Goal :=
  let unknown := ((wantedIds criterionIds).getD []).eraseDups.filter fun id =>
    !goal.criteria.any fun entry => decide (entry.id = id)
  if unknown ≠ [] then
    .error (.notFound (ofString "Unknown criterion id(s): " ++ (ofString ", ").intercalate unknown))
  else if goal.criteria.countP (fun entry => entry.proposed && approvalNames criterionIds entry.id) = 0 then
    .error (.badRequest (ofString "No proposed criteria to approve."))
  else
    .ok (markProgressIfChanged { goal with dodCriteria := some (goal.criteria.map (approveCriterion criterionIds now)) }
      (dodProgressSignature goal.criteria))

/-- The edits that may overlap. -/
inductive DodEdit
  | patch (criterionId : Utf16) (input : PatchGoalDoDCriterionInput) (now : Utf16)
  | propose (criteria : List GoalDoDCriterion) (now : Utf16)
  | approve (criterionIds : Option (List Utf16)) (now : Utf16)
  deriving DecidableEq

def DodEdit.apply : DodEdit → Goal → Except DodRefusal Goal
  | .patch criterionId input now => patchDodCriterion jsonLength criterionId input now
  | .propose criteria now => proposeDodCriteria jsonLength criteria now
  | .approve criterionIds now => approveDodCriteria criterionIds now

end

namespace DodEdit

def Patches : DodEdit → Utf16 → Prop
  | .patch criterionId _ _, key => trim criterionId = key
  | .propose _ _, _ | .approve _ _, _ => False

def Approves : DodEdit → Utf16 → Prop
  | .approve criterionIds _, id => approvalNames criterionIds id = true
  | .patch _ _ _, _ | .propose _ _, _ => False

/-- A checklist has what an edit, made on the checklist it read, was for: the status it patched, the criteria it
proposed, the approvals it gave. -/
def Held (read criteria : List GoalDoDCriterion) : DodEdit → Prop
  | .patch criterionId input _ =>
    ∀ status ∈ input.status, ∃ entry ∈ criteria, entry.key = trim criterionId ∧ entry.status = status
  | .propose proposed now =>
    ∀ one ∈ proposedCriteria proposed now, ∃ entry ∈ criteria, entry.key = one.key
  | .approve criterionIds _ => ∀ entry ∈ read, approvalNames criterionIds entry.id = true →
    ∃ kept ∈ criteria, kept.key = entry.key ∧ isApprovedDoDCriterion kept = true

end DodEdit

structure DodStep (edit : DodEdit) (before after : List GoalDoDCriterion) : Prop where
  distinct : DistinctIds after
  kept : ∀ old ∈ before, ∃ new ∈ after, new.key = old.key ∧
    (isApprovedDoDCriterion old = true → isApprovedDoDCriterion new = true) ∧
    (¬ edit.Patches old.key → new.status = old.status)
  came : ∀ new ∈ after, isApprovedDoDCriterion new = true → ∃ old ∈ before, old.key = new.key ∧
    (isApprovedDoDCriterion old = true ∨ edit.Approves old.id)
  held : edit.Held before after

variable {criteria : List GoalDoDCriterion}

theorem valid_of_assertDod {jsonLength : List GoalDoDCriterion → Nat}
    (passed : assertDod jsonLength criteria = .ok ()) : validateDoDCriteria jsonLength criteria = [] := by
  rw [assertDod.eq_def] at passed
  dsimp only at passed
  split at passed
  · assumption
  · cases passed

theorem markProgress_criteria (goal : Goal) (before : Utf16) :
    (markProgressIfChanged goal before).criteria = goal.criteria := by
  rw [markProgressIfChanged]
  split <;> rfl

theorem distinct_map {f : GoalDoDCriterion → GoalDoDCriterion}
    (distinct : DistinctIds criteria) (key : ∀ entry ∈ criteria, (f entry).key = entry.key) :
    DistinctIds (criteria.map f) := by
  rw [DistinctIds, List.map_map]
  rwa [map_congr_left (g := fun entry => entry.key) key]

theorem DodStep.of_map {edit : DodEdit} {before : List GoalDoDCriterion} {f : GoalDoDCriterion → GoalDoDCriterion}
    (distinct : DistinctIds before) (key : ∀ entry ∈ before, (f entry).key = entry.key)
    (stays : ∀ entry ∈ before, isApprovedDoDCriterion entry = true → isApprovedDoDCriterion (f entry) = true)
    (approved : ∀ entry ∈ before, isApprovedDoDCriterion (f entry) = true →
      isApprovedDoDCriterion entry = true ∨ edit.Approves entry.id)
    (status : ∀ entry ∈ before, ¬ edit.Patches entry.key → (f entry).status = entry.status)
    (held : edit.Held before (before.map f)) : DodStep edit before (before.map f) where
  distinct := distinct_map distinct key
  kept old listed := ⟨f old, mem_map_of_mem listed, key old listed, stays old listed, status old listed⟩
  came new listed isApproved := by
    obtain ⟨old, there, rfl⟩ := mem_map.mp listed
    exact ⟨old, there, (key old there).symm, approved old there isApproved⟩
  held := held

section
variable {jsonLength : List GoalDoDCriterion → Nat} {goal next : Goal} {now : Utf16}

theorem patch_step {criterionId : Utf16} {input : PatchGoalDoDCriterionInput} (distinct : DistinctIds goal.criteria)
    (patched : patchDodCriterion jsonLength criterionId input now goal = .ok next) :
    DodStep (.patch criterionId input now) goal.criteria next.criteria := by
  rw [patchDodCriterion] at patched
  split at patched
  · cases patched
  rename_i target found
  obtain rfl : target.id = criterionId := by simpa using find?_some found
  let written (entry : GoalDoDCriterion) := if entry.id = target.id then input.apply now target else entry
  change (assertDod jsonLength (goal.criteria.map written) >>= fun _ => _) = _ at patched
  cases passed : assertDod jsonLength (goal.criteria.map written) with
  | error refusal =>
    rw [passed] at patched
    cases patched
  | ok _ =>
    rw [passed] at patched
    obtain rfl := (Except.ok.inj patched).symm
    obtain ⟨-, short⟩ := distinct_of_valid (valid_of_assertDod passed)
    have own : written target = input.apply now target := if_pos rfl
    have same {entry : GoalDoDCriterion} (listed : entry ∈ goal.criteria) (named : entry.key = trim target.id) :
        entry = target :=
      inj_on_of_nodup_map distinct listed (mem_of_find?_eq_some found) named
    have away {entry : GoalDoDCriterion} (other : entry.id ≠ target.id) : written entry = entry := if_neg other
    have key (entry : GoalDoDCriterion) (listed : entry ∈ goal.criteria) :
        (normalizeDoDCriterion now (written entry)).key = entry.key := by
      rw [normalize_key (short _ (mem_map_of_mem listed))]
      by_cases named : entry.id = target.id
      · rw [GoalDoDCriterion.key, GoalDoDCriterion.key, named]
        have wrote : written entry = input.apply now target := if_pos named
        rw [wrote]
        rfl
      · rw [away named]
    have proposed (entry : GoalDoDCriterion) (listed : entry ∈ goal.criteria) :
        isApprovedDoDCriterion (normalizeDoDCriterion now (written entry)) = isApprovedDoDCriterion entry := by
      by_cases named : entry.id = target.id
      · rw [same listed (congrArg trim named)]
        rw [own]
        rfl
      · rw [away named]
        rfl
    rw [markProgress_criteria]
    change DodStep _ _ (normalizeDoDCriteria (goal.criteria.map written) now)
    rw [normalizeDoDCriteria, List.map_map]
    refine .of_map distinct key ?_ ?_ ?_ ?_
    · exact fun entry listed isApproved => (proposed entry listed).trans isApproved
    · exact fun entry listed isApproved => .inl ((proposed entry listed).symm.trans isApproved)
    · intro entry listed apart
      have other : entry.id ≠ target.id := fun named => apart (congrArg trim named.symm)
      exact congrArg (GoalDoDCriterion.status ∘ normalizeDoDCriterion now) (away other)
    · intro status given
      have there := mem_of_find?_eq_some found
      refine ⟨_, mem_map_of_mem there, key target there, ?_⟩
      calc (written target).status = input.status.getD target.status := congrArg GoalDoDCriterion.status own
        _ = status := by rw [given]; rfl

theorem proposed_of_mem {entry : GoalDoDCriterion}
    (listed : entry ∈ proposedCriteria criteria now) : entry.proposed = true := by
  rw [proposedCriteria, normalizeDoDCriteria, List.map_map] at listed
  obtain ⟨one, _, rfl⟩ := mem_map.mp listed
  rfl

theorem propose_ok (proposed : proposeDodCriteria jsonLength criteria now goal = .ok next) :
    next.criteria = goal.criteria ++ proposedCriteria criteria now ∧
      validateDoDCriteria jsonLength (goal.criteria ++ proposedCriteria criteria now) = [] := by
  rw [proposeDodCriteria] at proposed
  split at proposed
  · cases proposed
  change (assertDod jsonLength (goal.criteria ++ proposedCriteria criteria now) >>= fun _ => _) = _ at proposed
  cases passed : assertDod jsonLength (goal.criteria ++ proposedCriteria criteria now) with
  | error refusal =>
    rw [passed] at proposed
    cases proposed
  | ok _ =>
    rw [passed] at proposed
    obtain rfl := (Except.ok.inj proposed).symm
    exact ⟨rfl, valid_of_assertDod passed⟩

theorem propose_step
    (proposed : proposeDodCriteria jsonLength criteria now goal = .ok next) :
    DodStep (.propose criteria now) goal.criteria next.criteria := by
  obtain ⟨merged, valid⟩ := propose_ok proposed
  rw [merged]
  refine ⟨(distinct_of_valid valid).1, fun old listed => ?_, fun new listed isApproved => ?_, fun one listed => ?_⟩
  · exact ⟨old, mem_append_left _ listed, rfl, id, fun _ => rfl⟩
  · rcases mem_append.mp listed with old | fresh
    · exact ⟨new, old, rfl, .inl isApproved⟩
    · rw [isApprovedDoDCriterion, proposed_of_mem fresh] at isApproved
      cases isApproved
  · exact ⟨one, mem_append_right _ listed, rfl⟩

theorem approve_step {criterionIds : Option (List Utf16)} (distinct : DistinctIds goal.criteria)
    (approved : approveDodCriteria criterionIds now goal = .ok next) :
    DodStep (.approve criterionIds now) goal.criteria next.criteria := by
  rw [approveDodCriteria.eq_def] at approved
  dsimp only at approved
  split at approved
  · cases approved
  split at approved
  · cases approved
  obtain rfl := (Except.ok.inj approved).symm
  rw [markProgress_criteria]
  change DodStep _ _ (goal.criteria.map (approveCriterion criterionIds now))
  have key (entry : GoalDoDCriterion) : (approveCriterion criterionIds now entry).key = entry.key := by
    rw [approveCriterion]
    split <;> rfl
  refine .of_map distinct (fun entry _ => key entry) (fun entry _ isApproved => ?_) (fun entry _ isApproved => ?_)
    (fun entry _ _ => ?_) (fun entry listed named => ?_)
  · rw [approveCriterion]
    split
    · rfl
    · exact isApproved
  · rw [approveCriterion] at isApproved
    split at isApproved
    · rename_i both
      rw [Bool.and_eq_true] at both
      exact .inr both.2
    · exact .inl isApproved
  · rw [approveCriterion]
    split <;> rfl
  · refine ⟨_, mem_map_of_mem listed, key entry, ?_⟩
    rw [approveCriterion, named, Bool.and_true]
    split
    · rfl
    · rename_i already
      rw [isApprovedDoDCriterion, eq_false_of_ne_true already]
      rfl

theorem DodEdit.apply_step {edit : DodEdit} (distinct : DistinctIds goal.criteria)
    (applied : edit.apply jsonLength goal = .ok next) : DodStep edit goal.criteria next.criteria := by
  cases edit with
  | patch criterionId input now => exact patch_step distinct applied
  | propose criteria now => exact propose_step applied
  | approve criterionIds now => exact approve_step distinct applied

end

end EverWorks.Goals
