import EverWorks.Goals.DodEdits
import Mathlib.Data.List.Pairwise

/-!
Every order of the reads and saves of the edits of one Goal in which each save finds the checklist its edit read.
-/

namespace EverWorks.Goals
open Lib Lib.Utf16 Lib.Program List List

inductive DodCall
  | findOrThrow
  /-- Saves `dodCriteria` and `lastProgressIteration` of `goal`, which `edit` made of `read`. -/
  | saveGoalColumns (edit : DodEdit) (read goal : Goal)

def DodReply : DodCall → Type
  | .findOrThrow => Goal
  | .saveGoalColumns _ _ _ => Unit

/-- An edit that was saved, with the checklist it read and the one it wrote. -/
structure SavedEdit where
  edit : DodEdit
  read : List GoalDoDCriterion
  wrote : List GoalDoDCriterion
  deriving DecidableEq

/-- The stored Goal, and the edits saved so far. -/
structure DodState where
  goal : Goal
  saved : List SavedEdit := []
  deriving DecidableEq

def serveDod : (request : DodCall) → DodState → DodReply request × DodState
  | .findOrThrow, state => (state.goal, state)
  | .saveGoalColumns edit read goal, state =>
    ((), {
      goal := { state.goal with
        dodCriteria := goal.dodCriteria
        lastProgressIteration := goal.lastProgressIteration }
      saved := state.saved ++ [⟨edit, read.criteria, goal.criteria⟩] })

abbrev DodPool := Pool DodState DodCall DodReply Empty

variable (jsonLength : List GoalDoDCriterion → Nat)

def DodEdit.run (edit : DodEdit) : Program DodCall DodReply Empty Unit := do
  let goal ← ask DodCall.findOrThrow
  match edit.apply jsonLength goal with
  | .error _ => pure ()
  | .ok next => ask (DodCall.saveGoalColumns edit goal next)

def dodPool (goal : Goal) (edits : List DodEdit) : DodPool := ⟨⟨goal, []⟩, edits.map (·.run jsonLength)⟩

def afterEdits (goal : Goal) (edits : List DodEdit) (schedule : List Nat) : DodPool :=
  run (Pool.step serveDod Empty.elim) (dodPool jsonLength goal edits) schedule

def AsRead (state : DodState) : DodCall → Prop
  | .findOrThrow => True
  | .saveGoalColumns _ read _ => state.goal.dodCriteria = read.dodCriteria

instance (state : DodState) : (request : DodCall) → Decidable (AsRead state request)
  | .findOrThrow => inferInstanceAs (Decidable True)
  | .saveGoalColumns _ read _ => inferInstanceAs (Decidable (state.goal.dodCriteria = read.dodCriteria))

/-- The next call of a program, if it is a save, finds the checklist that was read. -/
def NextAsRead (pool : DodPool) (place : Nat) : Prop :=
  match pool.programs[place]? with
  | some (.call request _) => AsRead pool.state request
  | _ => True

instance (pool : DodPool) (place : Nat) : Decidable (NextAsRead pool place) := by
  unfold NextAsRead
  split <;> infer_instance

/-- Edits that do not patch the same criterion. -/
def DodEdit.Apart (one other : DodEdit) : Prop := ∀ key, one.Patches key → ¬ other.Patches key

def DifferentPatches (edits : List DodEdit) : Prop := edits.Pairwise DodEdit.Apart

/-- Nothing of the edits that were saved is lost, and no criterion is approved but by an approval. -/
structure DodKept (initial : List GoalDoDCriterion) (state : DodState) : Prop where
  distinct : DistinctIds state.goal.criteria
  held : ∀ one ∈ state.saved, one.edit.Held one.read state.goal.criteria
  approved : ∀ entry ∈ state.goal.criteria, isApprovedDoDCriterion entry = true →
    (∃ old ∈ initial, old.key = entry.key ∧ isApprovedDoDCriterion old = true) ∨
    ∃ one ∈ state.saved, ∃ named ∈ one.read, named.key = entry.key ∧ one.edit.Approves named.id
  inert : ∀ one ∈ state.saved, ∀ criteria now, one.edit = .propose criteria now →
    summarizeDoD one.wrote =
      { summarizeDoD one.read with proposed := (summarizeDoD one.read).proposed + criteria.length }

def serveAsRead : (request : DodCall) → DodState → DodReply request × DodState
  | .saveGoalColumns edit read goal, state =>
    if state.goal.dodCriteria = read.dodCriteria then serveDod (.saveGoalColumns edit read goal) state else ((), state)
  | .findOrThrow, state => serveDod .findOrThrow state

theorem serve_asRead {state : DodState} {request : DodCall} (asRead : AsRead state request) :
    serveAsRead request state = serveDod request state := by
  cases request with
  | findOrThrow => rfl
  | saveGoalColumns edit read goal => exact if_pos asRead

def SavesOne (edits : List DodEdit) (before after : DodState) : Prop :=
  after = before ∨ ∃ edit ∈ edits, ∃ read next, edit.apply jsonLength read = .ok next ∧
    before.goal.dodCriteria = read.dodCriteria ∧ after = (serveDod (.saveGoalColumns edit read next) before).2

section
variable {jsonLength : List GoalDoDCriterion → Nat} {edits : List DodEdit} {initial : List GoalDoDCriterion}
  {before after : DodState}

instance : Std.Symm DodEdit.Apart := ⟨fun _ _ apart key first second => apart key second first⟩

theorem DodEdit.Held.later {edit other : DodEdit} {read criteria next : List GoalDoDCriterion}
    (held : edit.Held read criteria) (step : DodStep other criteria next)
    (apart : edit.Apart other) : edit.Held read next := by
  cases edit with
  | patch criterionId input now =>
    intro status given
    obtain ⟨entry, listed, key, same⟩ := held status given
    obtain ⟨new, there, key', -, kept⟩ := step.kept entry listed
    exact ⟨new, there, key'.trans key, (kept (key ▸ apart _ rfl)).trans same⟩
  | propose criteria now =>
    intro one listed
    obtain ⟨entry, there, key⟩ := held one listed
    obtain ⟨new, there, key', -, -⟩ := step.kept entry there
    exact ⟨new, there, key'.trans key⟩
  | approve criterionIds now =>
    intro entry listed named
    obtain ⟨kept, there, key, isApproved⟩ := held entry listed named
    obtain ⟨new, there, key', stays, -⟩ := step.kept kept there
    exact ⟨new, there, key'.trans key, stays isApproved⟩

theorem DodEdit.Held.of_patch {edit : DodEdit} {key : Utf16} {read read' criteria : List GoalDoDCriterion}
    (patches : edit.Patches key) (held : edit.Held read criteria) : edit.Held read' criteria := by
  cases edit with
  | patch criterionId input now => exact held
  | propose criteria now => exact patches.elim
  | approve criterionIds now => exact patches.elim

theorem propose_inert {criteria : List GoalDoDCriterion} {now : Utf16} {read next : Goal}
    (proposed : proposeDodCriteria jsonLength criteria now read = .ok next) :
    summarizeDoD next.criteria = { summarizeDoD read.criteria with
      proposed := (summarizeDoD read.criteria).proposed + criteria.length } := by
  rw [(propose_ok proposed).1, summarizeDoD_append fun entry listed => proposed_of_mem listed,
    proposedCriteria, normalizeDoDCriteria, length_map, length_map]

theorem SavesOne.kept (different : DifferentPatches edits) (saves : SavesOne jsonLength edits before after)
    (from' : ∀ one ∈ before.saved, one.edit ∈ edits) (kept : DodKept initial before) :
    DodKept initial after ∧ ∀ one ∈ after.saved, one.edit ∈ edits := by
  rcases saves with rfl | ⟨edit, listed, read, next, applied, same, rfl⟩
  · exact ⟨kept, from'⟩
  have found : before.goal.criteria = read.criteria := congrArg (fun criteria => criteria.getD []) same
  have step := edit.apply_step (found ▸ kept.distinct) applied
  let last : SavedEdit := ⟨edit, read.criteria, next.criteria⟩
  have savedBefore (one : SavedEdit) (there : one ∈ before.saved ++ [last]) : one ∈ before.saved ∨ one = last :=
    (mem_append.mp there).imp_right mem_singleton.mp
  refine ⟨⟨step.distinct, fun one there => ?_, fun entry there isApproved => ?_, fun one there => ?_⟩, ?_⟩
  · rcases savedBefore one there with old | rfl
    · have held := found ▸ kept.held one old
      by_cases apart : one.edit.Apart edit
      · exact held.later step apart
      · -- The only edit that patches the same criterion is the same edit.
        have equal : one.edit = edit := by
          by_contra unequal
          exact apart (different.forall (from' one old) listed unequal)
        obtain ⟨key, patches, -⟩ : ∃ key, one.edit.Patches key ∧ edit.Patches key := by
          by_contra none
          exact apart fun key first second => none ⟨key, first, second⟩
        rw [equal] at patches ⊢
        exact step.held.of_patch patches
    · exact step.held
  · obtain ⟨old, there, key, why⟩ := step.came entry there isApproved
    rcases why with already | approves
    · rcases kept.approved old (found ▸ there) already with ⟨first, listed, same, isApproved⟩ | ⟨one, saved, named, listed, same, approves⟩
      · exact .inl ⟨first, listed, same.trans key, isApproved⟩
      · exact .inr ⟨one, mem_append_left _ saved, named, listed, same.trans key, approves⟩
    · exact .inr ⟨last, mem_append_right _ mem_cons_self, old, there, key, approves⟩
  · rcases savedBefore one there with old | rfl
    · exact kept.inert one old
    · rintro criteria now rfl
      exact propose_inert applied
  · intro one there
    rcases savedBefore one there with old | rfl
    · exact from' one old
    · exact listed

theorem SavesOne.hasDefinition (saves : SavesOne jsonLength edits before after)
    (distinct : DistinctIds before.goal.criteria) (has : hasDefinitionOfDone before.goal.criteria = true) :
    hasDefinitionOfDone after.goal.criteria = true := by
  rcases saves with rfl | ⟨edit, listed, read, next, applied, same, rfl⟩
  · exact has
  have found : before.goal.criteria = read.criteria := congrArg (fun criteria => criteria.getD []) same
  have step := edit.apply_step (found ▸ distinct) applied
  obtain ⟨old, there, isApproved⟩ := any_eq_true.mp has
  obtain ⟨new, there, -, stays, -⟩ := step.kept old (found ▸ there)
  exact any_eq_true.mpr ⟨new, there, stays isApproved⟩

theorem edit_holds {edit : DodEdit} (listed : edit ∈ edits) (state : DodState) :
    (edit.run jsonLength).Holds serveAsRead (fun _ _ => True) (SavesOne jsonLength edits) (fun _ _ => True) state := by
  refine .ask fun read _ => ⟨.inl rfl, ?_⟩
  dsimp only [serveAsRead, serveDod]
  split
  · exact .pure fun _ => trivial
  · rename_i next applied
    refine fun now _ => ⟨?_, fun _ _ => trivial⟩
    by_cases same : now.goal.dodCriteria = read.goal.dodCriteria
    · exact .inr ⟨edit, listed, read.goal, next, applied, same, congrArg Prod.snd (if_pos same)⟩
    · exact .inl (congrArg Prod.snd (if_neg same))

/-- Where every save finds the checklist its edit read, the edits that were saved are all held by the stored
checklist, and a checklist that has an approved criterion keeps one. -/
theorem dodKept_of_asRead (jsonLength : List GoalDoDCriterion → Nat) (goal : Goal) (edits : List DodEdit)
    (schedule : List Nat) (distinct : DistinctIds goal.criteria) (different : DifferentPatches edits)
    (asRead : Along (Pool.step serveDod Empty.elim) NextAsRead (dodPool jsonLength goal edits) schedule) :
    DodKept goal.criteria (afterEdits jsonLength goal edits schedule).state ∧
    ∀ first rest, schedule = first ++ rest →
      hasDefinitionOfDone (afterEdits jsonLength goal edits first).state.goal.criteria = true →
      hasDefinitionOfDone (afterEdits jsonLength goal edits schedule).state.goal.criteria = true := by
  let guar (_ : Nat) := SavesOne jsonLength edits
  let rely (_ : Nat) (_ _ : DodState) : Prop := True
  let inv (state : DodState) : Prop := DodKept goal.criteria state ∧ ∀ one ∈ state.saved, one.edit ∈ edits
  have start : Pool.InStep serveAsRead rely guar (dodPool jsonLength goal edits) := by
    intro place program there
    obtain ⟨edit, listed, rfl⟩ := mem_map.mp (mem_of_getElem? there)
    exact edit_holds listed _
  have holds : inv (dodPool jsonLength goal edits).state := by
    refine ⟨⟨distinct, ?_, fun entry listed isApproved => .inl ⟨entry, listed, rfl, isApproved⟩, ?_⟩, ?_⟩
    all_goals exact fun one none => absurd none not_mem_nil
  have ran (pool : DodPool) (schedule : List Nat) (inv : DodState → Prop)
      (keeps : ∀ before after, inv before → SavesOne jsonLength edits before after → inv after)
      (inStep : Pool.InStep serveAsRead rely guar pool) (holds : inv pool.state) :
      Pool.InStep serveAsRead rely guar (run (Pool.step serveAsRead Empty.elim) pool schedule) ∧
        inv (run (Pool.step serveAsRead Empty.elim) pool schedule).state :=
    Pool.run_inStep (fun _ _ => trivial) (fun _ _ _ _ _ _ => trivial)
      (fun _ _ _ _ _ _ => trivial) (fun _ _ before after => keeps before after) inStep holds
  have same {pool : DodPool} {schedule : List Nat} (asRead : Along (Pool.step serveDod Empty.elim) NextAsRead pool schedule) :
      run (Pool.step serveAsRead Empty.elim) pool schedule = run (Pool.step serveDod Empty.elim) pool schedule := by
    refine Pool.run_congr (along_mono (fun pool place next request rest found => ?_) asRead)
    rw [NextAsRead, found] at next
    exact serve_asRead next
  have keeps (before after : DodState) (kept : inv before) (saves : SavesOne jsonLength edits before after) : inv after :=
    saves.kept different kept.2 kept.1
  refine ⟨?_, fun first rest split has => ?_⟩
  · rw [afterEdits, ← same asRead]
    exact (ran _ schedule inv keeps start holds).2.1
  · subst split
    obtain ⟨before, later⟩ := along_append.mp asRead
    obtain ⟨inStep, kept⟩ := ran _ first inv keeps start holds
    rw [same before] at inStep kept
    have both := ran (run (Pool.step serveDod Empty.elim) (dodPool jsonLength goal edits) first) rest
      (fun state => inv state ∧ hasDefinitionOfDone state.goal.criteria = true)
      (fun before after both saves => ⟨keeps before after both.1 saves, saves.hasDefinition both.1.1.distinct both.2⟩)
      inStep ⟨kept, has⟩
    rw [same later] at both
    rw [afterEdits, run_append]
    exact both.2.2

end

def twoCriteria : Goal where
  goalKind := .delivery
  dodCriteria := some [
    { id := ofString "a", text := ofString "The page loads", status := .opened },
    { id := ofString "b", text := ofString "The tests pass", status := .opened }]

def tickOff (id : String) : DodEdit := .patch (ofString id) { status := some .done } (ofString "now")

def proposal : DodEdit :=
  .propose [{ id := ofString "c", text := ofString "The docs are written", status := .done }] (ofString "now")

abbrev ticks : List DodEdit := [tickOff "a", tickOff "b", proposal, .approve none (ofString "later")]

theorem ticks_in_turn : DodKept twoCriteria.criteria
      (afterEdits length twoCriteria ticks [0, 0, 1, 1, 2, 2, 3, 3]).state ∧
    ∀ first rest, [0, 0, 1, 1, 2, 2, 3, 3] = first ++ rest →
      hasDefinitionOfDone (afterEdits length twoCriteria ticks first).state.goal.criteria = true →
      hasDefinitionOfDone (afterEdits length twoCriteria ticks [0, 0, 1, 1, 2, 2, 3, 3]).state.goal.criteria =
        true := by
  have distinct : DistinctIds twoCriteria.criteria := by decide
  have different : DifferentPatches ticks := by
    have keys : trim (ofString "a") ≠ trim (ofString "b") := by decide
    have apart : (tickOff "a").Apart (tickOff "b") := fun key first second => keys (Eq.trans first (Eq.symm second))
    have propose (edit : DodEdit) : edit.Apart proposal := fun _ _ => id
    have approve (edit : DodEdit) : edit.Apart (.approve none (ofString "later")) := fun _ _ => id
    simp [DifferentPatches, ticks, apart, propose, approve]
  have asRead : Along (Pool.step serveDod Empty.elim) NextAsRead (dodPool length twoCriteria ticks)
      [0, 0, 1, 1, 2, 2, 3, 3] := by
    decide
  exact dodKept_of_asRead length twoCriteria ticks _ distinct different asRead

/-- Both ticks are read before either is saved: both are saved, and the first is lost. -/
theorem tick_lost :
    (afterEdits length twoCriteria [tickOff "a", tickOff "b"] [0, 1, 0, 1]).state.saved.map (·.edit) = [tickOff "a", tickOff "b"] ∧
      ¬ DodKept twoCriteria.criteria (afterEdits length twoCriteria [tickOff "a", tickOff "b"] [0, 1, 0, 1]).state := by
  have saved : (afterEdits length twoCriteria [tickOff "a", tickOff "b"] [0, 1, 0, 1]).state.saved.map (·.edit) =
      [tickOff "a", tickOff "b"] := by
    decide
  have lost : ∀ entry ∈ (afterEdits length twoCriteria [tickOff "a", tickOff "b"] [0, 1, 0, 1]).state.goal.criteria,
      entry.key = ofString "a" → entry.status ≠ .done := by
    decide
  refine ⟨saved, fun kept => ?_⟩
  have first : tickOff "a" ∈ (afterEdits length twoCriteria [tickOff "a", tickOff "b"] [0, 1, 0, 1]).state.saved.map (·.edit) :=
    saved ▸ mem_cons_self
  obtain ⟨one, there, same⟩ := mem_map.mp first
  have held := kept.held one there
  rw [same] at held
  obtain ⟨entry, listed, key, done⟩ := held .done rfl
  exact lost entry listed key done

end EverWorks.Goals
