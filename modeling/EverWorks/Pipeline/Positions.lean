import EverWorks.Pipeline.Builder

/-!
Where the contributed steps end up. They are placed first and sorted afterwards, and the sort knows
declared dependencies alone: it orders the steps by their critical paths.
-/

namespace EverWorks.Pipeline
open Lib List

section Positions

variable (pipeline : PipelinePlugin) (modifiers : List PipelineModifier)

def injectionPair (step : PipelineStepDefinition) : Option (String × String) :=
  let base := stepIds (baseSteps pipeline modifiers)
  match step.position with
  | .before target => if target ≠ "" ∧ target ∈ base then some (step.id, target) else none
  | .after target => if target ≠ "" ∧ target ∈ base then some (target, step.id) else none
  | _ => none

def positionPairs : List (String × String) :=
  let context := buildContext modifiers
  let base := stepIds (baseSteps pipeline modifiers)
  context.injections.filterMap (fun injection => injectionPair pipeline modifiers injection.step) ++
    context.prependSteps.flatMap (fun prepend => base.map fun id => (prepend.step.id, id)) ++
    context.appendSteps.flatMap (fun append => base.map fun id => (id, append.step.id))

def dependencyPairs : List (String × String) :=
  let placed := placedSteps pipeline modifiers
  (stepIds placed).flatMap fun stepId =>
    (presentDependencies placed stepId).map fun dependency => (dependency, stepId)

def InOrder (order : List String) (pairs : List (String × String)) : Prop :=
  ∀ pair ∈ pairs, List.Sublist [pair.1, pair.2] order

instance (order : List String) (pairs : List (String × String)) : Decidable (InOrder order pairs) :=
  inferInstanceAs (Decidable (∀ pair ∈ pairs, _))

/-- Some order of the placed steps obeys the dependencies and the positions: together they have no
cycle. -/
def Orderable : Prop :=
  ∃ order : List String, order.Perm (stepIds (placedSteps pipeline modifiers)) ∧
    InOrder order (dependencyPairs pipeline modifiers ++ positionPairs pipeline modifiers)

/-- The places, among the placed steps, of a step and of the dependencies it waits for longest. -/
def criticalPath (stepId : String) : List Nat :=
  let placed := placedSteps pipeline modifiers
  Kahn.path (stepIds placed) (presentDependencies placed) stepId

variable {pipeline modifiers}

theorem mem_injectedAt {injections : List ContributedStep} {injection : ContributedStep}
    {targetId : String} (member : injection ∈ injections) (given : targetId ≠ "") :
    injection.step ∈ injectedAt injections injection.step.position targetId := by
  unfold injectedAt
  rw [if_neg given]
  exact mem_map.mpr ⟨injection, mem_filter.mpr ⟨member, by simp⟩, rfl⟩

theorem mem_placed_of_injected {step : PipelineStepDefinition}
    (injected : step ∈ applyInjections (baseSteps pipeline modifiers)
      (buildContext modifiers).injections) : step.id ∈ stepIds (placedSteps pipeline modifiers) := by
  refine mem_map.mpr ⟨step, ?_, rfl⟩
  unfold placedSteps applyPrependAppend
  exact mem_append_left _ (mem_append_right _ injected)

theorem mem_placed_of_base {stepId : String}
    (member : stepId ∈ stepIds (baseSteps pipeline modifiers)) :
    stepId ∈ stepIds (placedSteps pipeline modifiers) := by
  obtain ⟨step, present, rfl⟩ := mem_map.mp member
  apply mem_placed_of_injected
  exact mem_flatMap.mpr ⟨step, present, mem_append_right _ mem_cons_self⟩

theorem mem_placed_of_pair {pair : String × String}
    (member : pair ∈ positionPairs pipeline modifiers) :
    pair.1 ∈ stepIds (placedSteps pipeline modifiers) ∧
      pair.2 ∈ stepIds (placedSteps pipeline modifiers) := by
  unfold positionPairs at member
  simp only [mem_append] at member
  rcases member with (injected | prepended) | appended
  · obtain ⟨injection, inside, found⟩ := mem_filterMap.mp injected
    unfold injectionPair at found
    dsimp only at found
    split at found
    · rename_i target position
      split at found
      · rename_i isBase
        obtain ⟨given, base⟩ := isBase
        obtain rfl := Option.some.inj found
        obtain ⟨step, present, rfl⟩ := mem_map.mp base
        refine ⟨mem_placed_of_injected (mem_flatMap.mpr ⟨step, present, ?_⟩),
          mem_placed_of_base base⟩
        exact mem_append_left _ (position ▸ mem_injectedAt inside given)
      · cases found
    · rename_i target position
      split at found
      · rename_i isBase
        obtain ⟨given, base⟩ := isBase
        obtain rfl := Option.some.inj found
        obtain ⟨step, present, rfl⟩ := mem_map.mp base
        refine ⟨mem_placed_of_base base,
          mem_placed_of_injected (mem_flatMap.mpr ⟨step, present, ?_⟩)⟩
        refine mem_append_right _ (mem_cons_of_mem _ ?_)
        exact position ▸ mem_injectedAt inside given
      · cases found
    · cases found
  · obtain ⟨prepend, inside, found⟩ := mem_flatMap.mp prepended
    obtain ⟨id, base, rfl⟩ := mem_map.mp found
    refine ⟨mem_map.mpr ⟨prepend.step, ?_, rfl⟩, mem_placed_of_base base⟩
    exact mem_append_left _ (mem_append_left _ (mem_map_of_mem inside))
  · obtain ⟨append, inside, found⟩ := mem_flatMap.mp appended
    obtain ⟨id, base, rfl⟩ := mem_map.mp found
    refine ⟨mem_placed_of_base base, mem_map.mpr ⟨append.step, ?_, rfl⟩⟩
    exact mem_append_right _ (mem_map_of_mem inside)

end Positions

theorem duplicateStepId_none {ids : List String} {steps : List PipelineStepDefinition}
    (unique : duplicateStepId ids steps = none) :
    (stepIds steps).Nodup ∧ ∀ id ∈ ids, id ∉ stepIds steps := by
  induction steps generalizing ids with
  | nil => simp [stepIds]
  | cons step rest ih =>
    unfold duplicateStepId at unique
    split at unique
    · cases unique
    · rename_i fresh
      obtain ⟨distinct, apart⟩ := ih unique
      have first : step.id ∉ stepIds rest := apart step.id mem_cons_self
      refine ⟨nodup_cons.mpr ⟨first, distinct⟩, ?_⟩
      intro id early late
      rcases mem_cons.mp late with rfl | later
      · exact fresh early
      · exact apart id (mem_cons_of_mem _ early) later

theorem stepIds_lookup {steps : List PipelineStepDefinition} {ids : List String}
    (known : ids ⊆ stepIds steps) :
    stepIds (ids.filterMap fun id => steps.find? fun step => step.id = id) = ids := by
  induction ids with
  | nil => rfl
  | cons id rest ih =>
    obtain ⟨step, present, named⟩ := mem_map.mp (known mem_cons_self)
    have found : (steps.find? fun step => step.id = id).isSome = true := by
      rw [find?_isSome]
      exact ⟨step, present, by simpa using named⟩
    obtain ⟨other, found⟩ := Option.isSome_iff_exists.mp found
    have same : other.id = id := by simpa using find?_some found
    have rest_ := ih fun _ later => known (mem_cons_of_mem _ later)
    simp only [filterMap_cons, found]
    show other.id :: stepIds _ = _
    rw [same, rest_]

variable {pipeline : PipelinePlugin} {modifiers : List PipelineModifier}

theorem build_ok {built : ExecutablePipeline} (success : build pipeline modifiers = .ok built) :
    let placed := placedSteps pipeline modifiers
    let sorted := Kahn.sort (stepIds placed) (presentDependencies placed)
    (stepIds placed).Nodup ∧ stepIds built.steps = sorted ∧ sorted.Perm (stepIds placed) := by
  intro placed sorted
  unfold build at success
  dsimp only at success
  split at success
  · cases success
  · rename_i unique
    obtain ⟨distinct, -⟩ := duplicateStepId_none unique
    have inside : sorted ⊆ stepIds placed := Kahn.sort_subset distinct
    have unrepeated : sorted.Nodup := Kahn.sort_nodup distinct
    split at success
    · cases success
    · rename_i ordered sorts
      obtain rfl := Except.ok.inj success
      unfold topologicalSort at sorts
      split at sorts
      · cases sorts
      · dsimp only at sorts
        split at sorts
        · rename_i whole
          obtain rfl := Except.ok.inj sorts
          have looked := stepIds_lookup inside
          refine ⟨distinct, looked, ?_⟩
          apply (subperm_of_subset unrepeated inside).perm_of_length_le
          have counted := congrArg List.length looked
          simp only [stepIds, length_map] at counted ⊢
          exact (whole.symm.trans counted).le
        · cases sorts

/-- **Modifier positions survive compilation** exactly where the critical paths already stand in the
order that the positions ask for. -/
theorem positions_survive (pipeline : PipelinePlugin) (modifiers : List PipelineModifier)
    (built : ExecutablePipeline) (success : build pipeline modifiers = .ok built) :
    InOrder (stepIds built.steps) (positionPairs pipeline modifiers) ↔
      ∀ pair ∈ positionPairs pipeline modifiers,
        Kahn.Before (criticalPath pipeline modifiers pair.1) (criticalPath pipeline modifiers pair.2) := by
  obtain ⟨distinct, sorted, perm⟩ := build_ok success
  unfold InOrder
  rw [sorted]
  apply forall₂_congr
  intro pair member
  obtain ⟨first, second⟩ := mem_placed_of_pair member
  exact Kahn.sublist_sort_iff distinct (perm.mem_iff.mpr first) (perm.mem_iff.mpr second)

def crawlThenWrite : PipelinePlugin where
  id := "standard"
  steps := [
    { id := "crawl", position := .first },
    { id := "write", position := .last, dependencies := [{ stepId := "crawl", required := true }] }]

def reviewAfter (dependencies : List StepDependency) : List PipelineModifier :=
  [⟨"reviewer", [{ id := "review", position := .after "write", dependencies := dependencies }]⟩]

theorem eq_ok_get {ε α : Type} {result : Except ε α} (succeeds : result.toOption.isSome = true) :
    result = .ok (result.toOption.get succeeds) := by
  cases result with
  | error error => cases succeeds
  | ok value => rfl

theorem positions_survive_declared :
    InOrder
      (stepIds ((build crawlThenWrite (reviewAfter [⟨"write", true⟩])).toOption.get
        (by decide)).steps)
      (positionPairs crawlThenWrite (reviewAfter [⟨"write", true⟩])) :=
  (positions_survive crawlThenWrite (reviewAfter [⟨"write", true⟩]) _
    (eq_ok_get (by decide))).mpr (by decide)

/-- A step injected after another without a dependency on it is sorted before it. -/
theorem position_lost :
    ¬ ∀ (pipeline : PipelinePlugin) (modifiers : List PipelineModifier)
      (built : ExecutablePipeline), Orderable pipeline modifiers →
      build pipeline modifiers = .ok built →
      InOrder (stepIds built.steps) (positionPairs pipeline modifiers) := by
  intro claim
  have orderable : Orderable crawlThenWrite (reviewAfter []) :=
    ⟨["crawl", "write", "review"], by decide, by decide⟩
  have kept := claim crawlThenWrite (reviewAfter []) _ orderable (eq_ok_get (by decide))
  exact absurd kept (by decide)

end EverWorks.Pipeline
