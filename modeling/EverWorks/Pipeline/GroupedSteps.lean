import EverWorks.Lib.Run
import EverWorks.Pipeline.SortedSteps

/-!
The groups hold the sorted steps in their order. A step stands in a later group than everything it depends on, unless
it is taken into the open group beside a dependency that it does not require.
-/

namespace EverWorks.Pipeline
open Lib List List

def joins (grouping : Grouping) (step : PipelineStepDefinition) : Bool :=
  step.parallelizable && step.dependencies.all fun dep => !dep.required || grouping.completedSteps.contains dep.stepId

/-- A step that is taken into the open group has no dependency there that it does not require. -/
def JoinsApart (grouping : Grouping) (step : PipelineStepDefinition) : Prop :=
  joins grouping step = true → ∀ dep ∈ step.dependencies, dep.required = false → dep.stepId ∉ grouping.currentGroup

instance (grouping : Grouping) (step : PipelineStepDefinition) : Decidable (JoinsApart grouping step) :=
  inferInstanceAs (Decidable (_ → _))

/-- The groups hold the steps in their order, and each dependency that is there stands in an earlier group. -/
structure GroupsApart (steps : List PipelineStepDefinition) (groups : List ParallelGroup) : Prop where
  whole : groups.flatMap (·.stepIds) = stepIds steps
  apart : ∀ before group after, groups = before ++ group :: after → ∀ step ∈ steps, step.id ∈ group.stepIds →
    ∀ dep ∈ step.dependencies, dep.stepId ∈ stepIds steps → dep.stepId ∈ before.flatMap (·.stepIds)

def Grouping.layers (grouping : Grouping) : List (List String) :=
  grouping.groups.map (·.stepIds) ++ if grouping.currentGroup = [] then [] else [grouping.currentGroup]

def LayersApart (deps : String → List String) (layers : List (List String)) : Prop :=
  ∀ before layer after, layers = before ++ layer :: after → ∀ id ∈ layer, ∀ dep ∈ deps id, dep ∈ before.flatten

theorem LayersApart.snoc {deps : String → List String} {layers : List (List String)} {last : List String}
    (apart : LayersApart deps layers) (new : ∀ id ∈ last, ∀ dep ∈ deps id, dep ∈ layers.flatten) :
    LayersApart deps (layers ++ [last]) := by
  intro before layer after split
  rcases eq_nil_or_concat after with rfl | ⟨rest, end_, rfl⟩
  · obtain ⟨rfl, same⟩ := append_inj' split rfl
    obtain rfl := head_eq_of_cons_eq same
    exact new
  · rw [concat_eq_append, ← cons_append, ← append_assoc] at split
    exact apart before layer rest (append_inj' split rfl).1

theorem LayersApart.init {deps : String → List String} {layers more : List (List String)}
    (apart : LayersApart deps (layers ++ more)) : LayersApart deps layers := by
  rintro before layer after rfl
  exact apart before layer (after ++ more) (by rw [append_assoc, cons_append])

section
variable {steps : List PipelineStepDefinition} {grouping : Grouping} {step : PipelineStepDefinition}

theorem layers_flatten (grouping : Grouping) :
    grouping.layers.flatten = (grouping.groups.map (·.stepIds)).flatten ++ grouping.currentGroup := by
  rw [Grouping.layers, flatten_append]
  split
  · rename_i closed
    rw [closed]
    rfl
  · rw [flatten_singleton]

theorem flushGroup_groups (steps : List PipelineStepDefinition) (grouping : Grouping) :
    (flushGroup steps grouping).groups.map (·.stepIds) = grouping.layers := by
  rw [flushGroup, Grouping.layers]
  split
  · rw [append_nil]
  · rw [map_append]
    rfl

theorem flushGroup_completed (steps : List PipelineStepDefinition) (grouping : Grouping) :
    (flushGroup steps grouping).completedSteps = grouping.completedSteps ++ grouping.currentGroup := by
  rw [flushGroup]
  split
  · rename_i closed
    rw [closed, append_nil]
  · rfl

theorem flushGroup_current (steps : List PipelineStepDefinition) (grouping : Grouping) :
    (flushGroup steps grouping).currentGroup = [] := by
  rw [flushGroup]
  split
  · rename_i closed
    exact closed
  · rfl

theorem flushGroup_twice (steps : List PipelineStepDefinition) (grouping : Grouping) :
    flushGroup steps (flushGroup steps grouping) = flushGroup steps grouping := by
  conv_lhs => rw [flushGroup, if_pos (flushGroup_current steps grouping)]

theorem groupStep_joins (taken : joins grouping step = true) :
    groupStep steps grouping step = { grouping with currentGroup := grouping.currentGroup ++ [step.id] } := by
  obtain ⟨parallel, complete⟩ := Bool.and_eq_true_iff.mp taken
  rw [groupStep, complete, if_pos rfl, if_pos (by rw [parallel]; rfl)]

theorem groupStep_alone (alone : joins grouping step = false) :
    groupStep steps grouping step =
      let flushed := flushGroup steps grouping
      { flushed with
        groups := flushed.groups ++ [createParallelGroup steps flushed.groups.length [step.id]]
        completedSteps := flushed.completedSteps ++ [step.id] } := by
  rw [groupStep]
  rw [joins] at alone
  cases complete : step.dependencies.all fun dep => !dep.required || grouping.completedSteps.contains dep.stepId with
  | true =>
    rw [complete] at alone
    rw [if_neg (by rw [alone]; exact Bool.false_ne_true)]
    rfl
  | false =>
    rw [Bool.and_false, if_neg Bool.false_ne_true]
    dsimp only
    rw [if_neg Bool.false_ne_true, flushGroup_twice]

structure Grouped (done : List PipelineStepDefinition) (grouping : Grouping) : Prop where
  whole : grouping.layers.flatten = stepIds done
  completed : grouping.completedSteps = (grouping.groups.map (·.stepIds)).flatten

theorem Grouped.groupStep (steps : List PipelineStepDefinition) {done : List PipelineStepDefinition}
    (grouped : Grouped done grouping) (step : PipelineStepDefinition) : Grouped (done ++ [step]) (Pipeline.groupStep steps grouping step) := by
  have ids : stepIds (done ++ [step]) = stepIds done ++ [step.id] := by rw [stepIds, map_append]; rfl
  cases taken : joins grouping step with
  | true =>
    rw [groupStep_joins taken]
    refine ⟨?_, grouped.completed⟩
    rw [layers_flatten, ids, ← grouped.whole, layers_flatten, append_assoc]
  | false =>
    rw [groupStep_alone taken]
    constructor
    · rw [layers_flatten]
      dsimp only
      rw [map_append, flushGroup_groups, flushGroup_current, flatten_append, grouped.whole, ids,
        append_nil]
      rfl
    · dsimp only
      rw [map_append, flushGroup_groups, flushGroup_completed, flatten_append, layers_flatten,
        grouped.completed]
      rfl

theorem run_grouped (steps done rest : List PipelineStepDefinition) (grouped : Grouped done grouping) :
    Grouped (done ++ rest) (run (groupStep steps) grouping rest) := by
  induction rest generalizing done grouping with
  | nil => rwa [append_nil]
  | cons step rest ih =>
    have next := ih (done ++ [step]) (grouped.groupStep steps step)
    rwa [append_assoc] at next

theorem grouped_start : Grouped [] {} := ⟨rfl, rfl⟩

theorem run_apart (distinct : (stepIds steps).Nodup) (sorted : AfterDependencies steps)
    {done rest : List PipelineStepDefinition} (split : steps = done ++ rest) (grouped : Grouped done grouping)
    (apart : LayersApart (presentDependencies steps) grouping.layers)
    (along : Along (groupStep steps) JoinsApart grouping rest) :
    LayersApart (presentDependencies steps) (run (groupStep steps) grouping rest).layers := by
  induction rest generalizing done grouping with
  | nil => exact apart
  | cons step rest ih =>
    have inside : step ∈ steps := split ▸ mem_append_right _ mem_cons_self
    have earlier : ∀ dep ∈ step.dependencies, dep.stepId ∈ stepIds steps → dep.stepId ∈ grouping.layers.flatten := by
      intro dep listed present
      rw [grouped.whole]
      exact sorted done step rest split dep listed present
    have own : ∀ id ∈ presentDependencies steps step.id,
        ∃ dep ∈ step.dependencies, dep.stepId = id ∧ id ∈ stepIds steps := by
      intro id entry
      rw [presentDependencies_id distinct inside, mem_filter] at entry
      obtain ⟨dep, listed, rfl⟩ := mem_map.mp entry.1
      exact ⟨dep, listed, rfl, of_decide_eq_true entry.2⟩
    have split' : steps = (done ++ [step]) ++ rest := by
      rw [split, append_assoc]
      rfl
    refine ih split' (grouped.groupStep steps step) ?_ along.2
    cases taken : joins grouping step with
    | true =>
      rw [groupStep_joins taken, Grouping.layers, if_neg (append_ne_nil_of_right_ne_nil _ (cons_ne_nil _ _))]
      have closed : LayersApart (presentDependencies steps) (grouping.groups.map (·.stepIds)) := apart.init
      refine closed.snoc fun id listed dep entry => ?_
      rcases mem_append.mp listed with old | new
      · have opened : grouping.currentGroup ≠ [] := ne_nil_of_mem old
        refine apart (grouping.groups.map (·.stepIds)) grouping.currentGroup [] ?_ id old dep entry
        rw [Grouping.layers, if_neg opened]
      · obtain rfl := mem_singleton.mp new
        obtain ⟨dep, listed, rfl, present⟩ := own dep entry
        have complete := all_eq_true.mp (Bool.and_eq_true_iff.mp taken).2 dep listed
        rcases Bool.or_eq_true_iff.mp complete with optional | done
        · have there := earlier dep listed present
          rw [layers_flatten] at there
          refine (mem_append.mp there).resolve_right (along.1 taken dep listed ?_)
          rwa [Bool.not_eq_true'] at optional
        · rw [← grouped.completed]
          exact contains_iff_mem.mp done
    | false =>
      rw [groupStep_alone taken, Grouping.layers]
      dsimp only
      rw [map_append, flushGroup_groups, flushGroup_current, if_pos rfl, append_nil]
      refine apart.snoc fun id listed dep entry => ?_
      obtain rfl := mem_singleton.mp listed
      obtain ⟨dep, listed, rfl, present⟩ := own dep entry
      exact earlier dep listed present

theorem run_keeps_closed (steps : List PipelineStepDefinition) (grouping : Grouping)
    (rest : List PipelineStepDefinition) :
    grouping.groups.map (·.stepIds) <+: (run (groupStep steps) grouping rest).layers := by
  induction rest generalizing grouping with
  | nil => exact prefix_append _ _
  | cons step rest ih =>
    refine List.IsPrefix.trans ?_ (ih (groupStep steps grouping step))
    cases taken : joins grouping step with
    | true => rw [groupStep_joins taken]
    | false =>
      rw [groupStep_alone taken]
      dsimp only
      rw [map_append, flushGroup_groups, Grouping.layers, append_assoc]
      exact prefix_append _ _

theorem run_keeps_current (steps : List PipelineStepDefinition) (closed : List ParallelGroup)
    (completed : List String) {current : List String} (opened : current ≠ []) (rest : List PipelineStepDefinition) :
    ∃ more after, (run (groupStep steps) ⟨closed, completed, current⟩ rest).layers =
      closed.map (·.stepIds) ++ (current ++ more) :: after := by
  induction rest generalizing current with
  | nil => exact ⟨[], [], by rw [run_nil, Grouping.layers, if_neg opened, append_nil]⟩
  | cons step rest ih =>
    rw [run_cons]
    cases taken : joins ⟨closed, completed, current⟩ step with
    | true =>
      rw [groupStep_joins taken]
      obtain ⟨more, after, layers⟩ := ih (append_ne_nil_of_left_ne_nil opened [step.id])
      exact ⟨step.id :: more, after, by rw [layers, append_assoc]; rfl⟩
    | false =>
      obtain ⟨after, layers⟩ := run_keeps_closed steps (groupStep steps ⟨closed, completed, current⟩ step) rest
      rw [groupStep_alone taken] at layers ⊢
      dsimp only at layers
      rw [map_append, flushGroup_groups, Grouping.layers, if_neg opened] at layers
      refine ⟨[], [step.id] :: after, ?_⟩
      rw [← layers, append_nil]
      simp [createParallelGroup]

end

theorem groups_eq (steps : List PipelineStepDefinition) :
    (identifyParallelGroups steps).map (·.stepIds) = (run (groupStep steps) {} steps).layers := by
  have folded (grouping : Grouping) (rest : List PipelineStepDefinition) :
      rest.foldl (groupStep steps) grouping = run (groupStep steps) grouping rest := by
    induction rest generalizing grouping with
    | nil => rfl
    | cons step rest ih => exact ih _
  rw [identifyParallelGroups, flushGroup_groups, folded]

theorem groupsApart_iff {steps : List PipelineStepDefinition} (distinct : (stepIds steps).Nodup) :
    GroupsApart steps (identifyParallelGroups steps) ↔
      LayersApart (presentDependencies steps) (run (groupStep steps) {} steps).layers := by
  have whole : (run (groupStep steps) {} steps).layers.flatten = stepIds steps :=
    (run_grouped steps [] steps grouped_start).whole
  rw [← groups_eq] at whole ⊢
  constructor
  · intro groups before layer after split id listed dep entry
    obtain ⟨front, rest, same, rfl, tail⟩ := map_eq_append_iff.mp split
    obtain ⟨group, back, rfl, rfl, rfl⟩ := map_eq_cons_iff.mp tail
    have there : id ∈ stepIds steps := by
      rw [← whole, split, mem_flatten]
      exact ⟨_, mem_append_right _ mem_cons_self, listed⟩
    obtain ⟨step, inside, rfl⟩ := mem_map.mp there
    rw [presentDependencies_id distinct inside, mem_filter] at entry
    obtain ⟨dependency, named, rfl⟩ := mem_map.mp entry.1
    rw [← flatMap_def]
    exact groups.apart front group back same step inside listed dependency named (of_decide_eq_true entry.2)
  · intro layers
    refine ⟨by rw [flatMap_def, whole], fun before group after split step inside listed dep named present => ?_⟩
    rw [flatMap_def]
    refine layers _ group.stepIds (after.map (·.stepIds)) ?_ step.id listed dep.stepId ?_
    · rw [split, map_append, map_cons]
    · rw [presentDependencies_id distinct inside, mem_filter]
      exact ⟨mem_map_of_mem named, decide_eq_true present⟩

/-- The groups of sorted steps respect all dependencies exactly if no step is taken into the open group beside a
dependency that it does not require. -/
theorem groupsApart_iff_along (steps : List PipelineStepDefinition) (distinct : (stepIds steps).Nodup)
    (sorted : AfterDependencies steps) :
    GroupsApart steps (identifyParallelGroups steps) ↔ Along (groupStep steps) JoinsApart {} steps := by
  rw [groupsApart_iff distinct]
  constructor
  · intro apart
    refine along_iff_split.mpr fun done step rest split taken dep named _ inGroup => ?_
    have grouped := run_grouped steps [] done grouped_start
    rw [nil_append] at grouped
    have final : run (groupStep steps) {} steps =
        run (groupStep steps) (groupStep steps (run (groupStep steps) {} done) step) rest :=
      (congrArg (run (groupStep steps) {}) split).trans (run_append _ _ done (step :: rest))
    rw [final, groupStep_joins taken] at apart
    have inside : step ∈ steps := split ▸ mem_append_right _ mem_cons_self
    have ids : stepIds steps = stepIds done ++ stepIds (step :: rest) :=
      (congrArg stepIds split).trans map_append
    generalize run (groupStep steps) {} done = grouping at grouped inGroup apart
    -- The step and its dependency are in one layer, and the dependency is in no earlier one.
    obtain ⟨more, after, layers⟩ := run_keeps_current steps grouping.groups grouping.completedSteps
      (append_ne_nil_of_right_ne_nil grouping.currentGroup (cons_ne_nil step.id [])) rest
    have whole := grouped.whole
    rw [layers_flatten] at whole
    have present : dep.stepId ∈ stepIds steps := by
      rw [ids, ← whole]
      exact mem_append_left _ (mem_append_right _ inGroup)
    have early := apart _ _ _ layers step.id (by simp) dep.stepId (by
      rw [presentDependencies_id distinct inside, mem_filter]
      exact ⟨mem_map_of_mem named, decide_eq_true present⟩)
    rw [ids, ← whole] at distinct
    exact (nodup_append.mp (nodup_append.mp distinct).1).2.2 _ early _ inGroup rfl
  · intro along
    refine run_apart distinct sorted rfl grouped_start ?_ along
    intro before layer after split
    cases (append_eq_nil_iff.mp split.symm).2

def summarizeAfterFetch (required : Bool) : List PipelineStepDefinition :=
  [{ id := "fetch", position := .first, parallelizable := true },
    { id := "summarize", position := .last, parallelizable := true, dependencies := [⟨"fetch", required⟩] }]

theorem summarize_sorted (required : Bool) : AfterDependencies (summarizeAfterFetch required) := by
  intro before step after split dep named present
  rcases before with - | ⟨first, rest⟩
  · obtain ⟨rfl, -⟩ := cons.inj split
    cases named
  · obtain ⟨rfl, -⟩ := cons.inj split
    rcases rest with - | ⟨second, rest⟩
    · obtain ⟨rfl, -⟩ := cons.inj (cons.inj split).2
      obtain rfl := mem_singleton.mp named
      exact mem_cons_self
    · have short := congrArg length split
      rw [cons_append, cons_append, length_cons, length_cons, length_append] at short
      simp [summarizeAfterFetch] at short

theorem required_apart :
    GroupsApart (summarizeAfterFetch true) (identifyParallelGroups (summarizeAfterFetch true)) :=
  (groupsApart_iff_along (summarizeAfterFetch true) (by decide) (summarize_sorted true)).mpr (by decide)

/-- A step that does not require its dependency starts together with it. -/
theorem optional_together :
    AfterDependencies (summarizeAfterFetch false) ∧
      (identifyParallelGroups (summarizeAfterFetch false)).map (·.stepIds) = [["fetch", "summarize"]] ∧
      ¬ GroupsApart (summarizeAfterFetch false) (identifyParallelGroups (summarizeAfterFetch false)) := by
  refine ⟨summarize_sorted false, by decide, fun apart => ?_⟩
  have earlier := apart.apart [] _ [] rfl { id := "summarize", position := .last, parallelizable := true,
                                            dependencies := [⟨"fetch", false⟩] } (by decide) (by decide)
    ⟨"fetch", false⟩ (by decide) (by decide)
  cases earlier

end EverWorks.Pipeline
