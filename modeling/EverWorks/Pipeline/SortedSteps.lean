import EverWorks.Pipeline.Positions

/-!
The sort returns the steps of a pipeline without cycles in an order that their dependencies allow, unless a step names
a dependency twice: the in-degree counts both entries, and the edge brings it down once.
-/

namespace EverWorks.Pipeline
open Lib List

section
variable (steps : List PipelineStepDefinition)

/-- A required dependency is not among the steps. -/
def MissingRequired : Prop :=
  ∃ step ∈ steps, ∃ dep ∈ step.dependencies, dep.required = true ∧ dep.stepId ∉ stepIds steps

/-- A step of the pipeline depends on another one, required or not. -/
def DependsOn (dependency stepId : String) : Prop :=
  dependency ∈ stepIds steps ∧
    ∃ step ∈ steps, step.id = stepId ∧ dependency ∈ step.dependencies.map (·.stepId)

/-- Every step comes after each of its dependencies that is there. -/
def AfterDependencies : Prop :=
  ∀ before step after, steps = before ++ step :: after →
    ∀ dep ∈ step.dependencies, dep.stepId ∈ stepIds steps → dep.stepId ∈ stepIds before

/-- The steps come out in an order of their dependencies if there is one, and are refused for what is wrong otherwise. -/
def SortsAcyclic : Prop :=
  match topologicalSort steps with
  | .ok sorted => sorted.Perm steps ∧ AfterDependencies sorted ∧ ¬ MissingRequired steps ∧ Acyclic (DependsOn steps)
  | .error (.missingDependency _ _) => MissingRequired steps
  | .error (.circularDependency _) => ¬ MissingRequired steps ∧ ¬ Acyclic (DependsOn steps)
  | .error (.duplicateStepId _) => False

/-- No step names a step of the pipeline twice among its dependencies. -/
def NamedOnce : Prop :=
  ∀ step ∈ steps, ((step.dependencies.map (·.stepId)).filter (· ∈ stepIds steps)).Nodup

end

section
variable {steps : List PipelineStepDefinition}

theorem missingDependency_none : missingDependency steps = none ↔ ¬ MissingRequired steps := by
  simp only [missingDependency, findSome?_eq_none_iff, Option.map_eq_none_iff, find?_eq_none,
    decide_eq_true_eq, MissingRequired]
  push Not
  rfl

theorem find_step (distinct : (stepIds steps).Nodup) {step : PipelineStepDefinition} (present : step ∈ steps) :
    (steps.find? fun other => other.id = step.id) = some step := by
  have some : (steps.find? fun other => other.id = step.id).isSome = true := by
    rw [find?_isSome]
    exact ⟨step, present, by simp⟩
  obtain ⟨other, found⟩ := Option.isSome_iff_exists.mp some
  have same : other.id = step.id := by simpa using find?_some found
  rw [found, inj_on_of_nodup_map distinct (mem_of_find?_eq_some found) present same]

theorem presentDependencies_id (distinct : (stepIds steps).Nodup) {step : PipelineStepDefinition}
    (present : step ∈ steps) :
    presentDependencies steps step.id = (step.dependencies.map (·.stepId)).filter (· ∈ stepIds steps) := by
  rw [presentDependencies, find_step distinct present]

theorem precedes_iff (distinct : (stepIds steps).Nodup) (dependency stepId : String) :
    Kahn.Precedes (stepIds steps) (presentDependencies steps) dependency stepId ↔ DependsOn steps dependency stepId := by
  constructor
  · rintro ⟨present, entry⟩
    obtain ⟨step, listed, rfl⟩ := mem_map.mp present
    rw [presentDependencies_id distinct listed, mem_filter] at entry
    exact ⟨of_decide_eq_true entry.2, step, listed, rfl, entry.1⟩
  · rintro ⟨there, step, listed, rfl, named⟩
    refine ⟨mem_map_of_mem listed, ?_⟩
    rw [presentDependencies_id distinct listed, mem_filter]
    exact ⟨named, decide_eq_true there⟩

theorem sort_perm_iff (distinct : (stepIds steps).Nodup) :
    (Kahn.sort (stepIds steps) (presentDependencies steps)).Perm (stepIds steps) ↔
      Acyclic (DependsOn steps) ∧ NamedOnce steps := by
  have inside : ∀ id ∈ stepIds steps, presentDependencies steps id ⊆ stepIds steps := by
    intro id present dependency entry
    obtain ⟨step, listed, rfl⟩ := mem_map.mp present
    rw [presentDependencies_id distinct listed, mem_filter] at entry
    exact of_decide_eq_true entry.2
  have edges : Kahn.Precedes (stepIds steps) (presentDependencies steps) = DependsOn steps :=
    funext fun dependency => funext fun stepId => propext (precedes_iff distinct dependency stepId)
  rw [Kahn.sort_perm_iff distinct inside, edges]
  refine and_congr_right fun _ => ?_
  rw [stepIds, forall_mem_map]
  exact forall₂_congr fun step listed => by rw [presentDependencies_id distinct listed]

def lookUp (steps : List PipelineStepDefinition) (ids : List String) : List PipelineStepDefinition :=
  ids.filterMap fun id => steps.find? fun step => step.id = id

theorem length_lookUp_iff (distinct : (stepIds steps).Nodup) :
    (lookUp steps (Kahn.sort (stepIds steps) (presentDependencies steps))).length = steps.length ↔
      (Kahn.sort (stepIds steps) (presentDependencies steps)).Perm (stepIds steps) := by
  have inside : Kahn.sort (stepIds steps) (presentDependencies steps) ⊆ stepIds steps := Kahn.sort_subset distinct
  have counted := congrArg List.length (stepIds_lookup inside)
  rw [stepIds, length_map] at counted
  rw [lookUp, counted]
  constructor
  · intro whole
    have unique : (Kahn.sort (stepIds steps) (presentDependencies steps)).Nodup := Kahn.sort_nodup distinct
    refine (subperm_of_subset unique inside).perm_of_length_le (le_of_eq ?_)
    rw [whole, stepIds, length_map]
  · intro perm
    rw [perm.length_eq, stepIds, length_map]

theorem lookUp_perm (distinct : (stepIds steps).Nodup) {ids : List String} (perm : ids.Perm (stepIds steps)) :
    (lookUp steps ids).Perm steps := by
  have whole : lookUp steps (stepIds steps) = steps := by
    rw [lookUp, stepIds, filterMap_map]
    refine Eq.trans (filterMap_congr fun step listed => ?_) filterMap_some
    exact find_step distinct listed
  have looked := perm.filterMap fun id => steps.find? fun step => step.id = id
  exact looked.trans (.of_eq whole)

theorem lookUp_after (distinct : (stepIds steps).Nodup) {ids : List String} (perm : ids.Perm (stepIds steps))
    (ordered : Kahn.Ordered (presentDependencies steps) ids) : AfterDependencies (lookUp steps ids) := by
  intro before step after split dep listed present
  have looked : stepIds (lookUp steps ids) = ids := stepIds_lookup perm.subset
  have inside : step ∈ steps := (lookUp_perm distinct perm).subset (split ▸ mem_append_right _ mem_cons_self)
  rw [looked] at present
  have parts : ids = stepIds before ++ step.id :: stepIds after := by
    rw [← looked, split, stepIds, map_append, map_cons]
    rfl
  refine ordered _ _ _ parts dep.stepId ?_
  rw [presentDependencies_id distinct inside, mem_filter]
  exact ⟨mem_map_of_mem listed, decide_eq_true (perm.subset present)⟩

end

/-- The sort tells acyclic pipelines from others exactly where a dependency is missing, the dependencies have a cycle,
or no step names a dependency twice. -/
theorem sortsAcyclic_iff (steps : List PipelineStepDefinition) (distinct : (stepIds steps).Nodup) :
    SortsAcyclic steps ↔ MissingRequired steps ∨ ¬ Acyclic (DependsOn steps) ∨ NamedOnce steps := by
  by_cases missing : MissingRequired steps
  · refine iff_of_true ?_ (.inl missing)
    rw [SortsAcyclic, topologicalSort]
    cases found : missingDependency steps with
    | none => exact absurd missing (missingDependency_none.mp found)
    | some pair => exact missing
  have sorts : topologicalSort steps =
      let sortedIds := Kahn.sort (stepIds steps) (presentDependencies steps)
      if (lookUp steps sortedIds).length = steps.length then .ok (lookUp steps sortedIds)
      else .error (.circularDependency ((steps.filter fun step => step.id ∉ sortedIds).map (·.id))) := by
    rw [topologicalSort, missingDependency_none.mpr missing]
    rfl
  rw [SortsAcyclic, sorts]
  dsimp only
  by_cases whole : (Kahn.sort (stepIds steps) (presentDependencies steps)).Perm (stepIds steps)
  · rw [if_pos ((length_lookUp_iff distinct).mpr whole)]
    obtain ⟨acyclic, once⟩ := (sort_perm_iff distinct).mp whole
    refine iff_of_true ⟨lookUp_perm distinct whole, ?_, missing, acyclic⟩ (.inr (.inr once))
    exact lookUp_after distinct whole (Kahn.sort_ordered distinct)
  · rw [if_neg fun counted => whole ((length_lookUp_iff distinct).mp counted)]
    rw [sort_perm_iff distinct, not_and_or] at whole
    constructor
    · exact fun refused => .inr (.inl refused.2)
    · rintro (lost | cyclic | once)
      · exact absurd lost missing
      · exact ⟨missing, cyclic⟩
      · exact ⟨missing, whole.resolve_right (not_not_intro once)⟩

def writeAfterCrawl (entries : List StepDependency) : List PipelineStepDefinition :=
  [{ id := "write", position := .last, dependencies := entries }, { id := "crawl", position := .first }]

theorem sortsAcyclic_once : SortsAcyclic (writeAfterCrawl [⟨"crawl", true⟩, ⟨"render", false⟩]) := by
  refine (sortsAcyclic_iff _ (by decide)).mpr (.inr (.inr ?_))
  unfold NamedOnce
  decide

/-- The second entry of a dependency keeps the step out, and the pipeline is refused for a cycle it does not have. -/
theorem named_twice : ¬ SortsAcyclic (writeAfterCrawl [⟨"crawl", true⟩, ⟨"crawl", false⟩]) := by
  have refused : topologicalSort (writeAfterCrawl [⟨"crawl", true⟩, ⟨"crawl", false⟩]) =
      .error (.circularDependency ["write"]) := by
    decide
  rw [SortsAcyclic, refused]
  rintro ⟨-, cyclic⟩
  refine cyclic fun id cycle => ?_
  -- Only `write` depends on anything, and that is `crawl`.
  have edge {dependency stepId : String}
      (edge : DependsOn (writeAfterCrawl [⟨"crawl", true⟩, ⟨"crawl", false⟩]) dependency stepId) :
      dependency = "crawl" ∧ stepId = "write" := by
    obtain ⟨-, step, listed, rfl, named⟩ := edge
    simp only [writeAfterCrawl, mem_cons, not_mem_nil, or_false] at listed
    rcases listed with rfl | rfl
    · exact ⟨by simpa using named, rfl⟩
    · cases named
  obtain ⟨first, start, -⟩ := Relation.TransGen.head'_iff.mp cycle
  obtain ⟨last, -, finish⟩ := Relation.TransGen.tail'_iff.mp cycle
  have same := (edge start).1.symm.trans (edge finish).2
  exact absurd same (by decide)

end EverWorks.Pipeline
