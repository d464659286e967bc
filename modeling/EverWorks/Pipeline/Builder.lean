import EverWorks.Lib.Kahn

/-!
`PipelineBuilderService.build` places the steps of the enabled modifiers among those of a pipeline,
sorts the result by its dependencies and groups what may run in parallel.
-/

namespace EverWorks.Pipeline
open Lib

inductive StepPosition where
  | before (stepId : String)
  | after (stepId : String)
  | replace (stepId : String)
  | disable (stepId : String)
  | first
  | last
  deriving DecidableEq

structure StepDependency where
  stepId : String
  required : Bool := false
  deriving DecidableEq

structure PipelineStepDefinition where
  id : String
  position : StepPosition
  dependencies : List StepDependency := []
  provides : List String := []
  optional : Bool := false
  parallelizable : Bool := false
  estimatedDuration : Nat := 0
  deriving DecidableEq

structure PipelinePlugin where
  id : String
  steps : List PipelineStepDefinition
  isValidStepId : String → Bool := fun _ => true

/-- An enabled modifier that targets the pipeline. -/
structure PipelineModifier where
  pluginId : String
  steps : List PipelineStepDefinition
  deriving DecidableEq

structure ContributedStep where
  step : PipelineStepDefinition
  pluginId : String
  deriving DecidableEq

structure BuildContext where
  replacements : List (String × ContributedStep) := []
  disabledSteps : List String := []
  injections : List ContributedStep := []
  prependSteps : List ContributedStep := []
  appendSteps : List ContributedStep := []
  deriving DecidableEq

inductive BuildError where
  | duplicateStepId (stepId : String)
  | missingDependency (stepId missingDependency : String)
  | circularDependency (cycle : List String)
  deriving DecidableEq

structure ParallelGroup where
  id : String
  stepIds : List String
  allRequired : Bool
  maxConcurrent : Option Nat
  deriving DecidableEq

inductive StepExecutor where
  | builtin (serviceId pluginId : String)
  | plugin (pluginId stepId : String)
  deriving DecidableEq

structure ExecutablePipeline where
  source : String
  steps : List PipelineStepDefinition
  groups : List ParallelGroup
  executorMap : List (String × StepExecutor)
  replacedSteps : List (String × String)
  disabledSteps : List String
  injectedSteps : List String
  estimatedDuration : Nat
  deriving DecidableEq

/-- `Map.set`: a key keeps its place. -/
def setEntry {α : Type} (entries : List (String × α)) (key : String) (value : α) :
    List (String × α) :=
  if entries.any fun entry => entry.1 = key then
    entries.map fun entry => if entry.1 = key then (key, value) else entry
  else entries ++ [(key, value)]

def processStepPosition (pluginId : String) (context : BuildContext)
    (step : PipelineStepDefinition) : BuildContext :=
  let contributed : ContributedStep := ⟨step, pluginId⟩
  match step.position with
  | .replace stepId =>
    { context with replacements := setEntry context.replacements stepId contributed }
  | .before _ | .after _ => { context with injections := context.injections ++ [contributed] }
  | .disable stepId => { context with disabledSteps := context.disabledSteps ++ [stepId] }
  | .first => { context with prependSteps := context.prependSteps ++ [contributed] }
  | .last => { context with appendSteps := context.appendSteps ++ [contributed] }

def processModifierSteps (context : BuildContext) (modifier : PipelineModifier) : BuildContext :=
  modifier.steps.foldl (processStepPosition modifier.pluginId) context

def buildContext (modifiers : List PipelineModifier) : BuildContext :=
  modifiers.foldl processModifierSteps {}

section Place

variable (steps : List PipelineStepDefinition)

def replaceStep (step replacement : PipelineStepDefinition) : PipelineStepDefinition :=
  { replacement with
    id := step.id
    dependencies :=
      if replacement.dependencies = [] then step.dependencies else replacement.dependencies
    provides := if replacement.provides = [] then step.provides else replacement.provides }

def applyReplacements (replacements : List (String × ContributedStep)) :
    List PipelineStepDefinition :=
  steps.map fun step =>
    match replacements.find? fun entry => entry.1 = step.id with
    | some entry => replaceStep step entry.2.step
    | none => step

def applyDisabling (disabledSteps : List String) : List PipelineStepDefinition :=
  steps.filter fun step => step.id ∉ disabledSteps

def injectedAt (injections : List ContributedStep) (position : StepPosition) (targetId : String) :
    List PipelineStepDefinition :=
  if targetId = "" then []
  else (injections.filter fun injection => injection.step.position = position).map (·.step)

def applyInjections (injections : List ContributedStep) : List PipelineStepDefinition :=
  steps.flatMap fun step =>
    injectedAt injections (.before step.id) step.id ++ step ::
      injectedAt injections (.after step.id) step.id

def applyPrependAppend (prependSteps appendSteps : List ContributedStep) :
    List PipelineStepDefinition :=
  prependSteps.map (·.step) ++ steps ++ appendSteps.map (·.step)

def duplicateStepId : List String → List PipelineStepDefinition → Option String
  | _, [] => none
  | ids, step :: rest =>
    if step.id ∈ ids then some step.id else duplicateStepId (step.id :: ids) rest

end Place

section Topological

variable (steps : List PipelineStepDefinition)

def stepIds : List String := steps.map (·.id)

def presentDependencies (stepId : String) : List String :=
  match steps.find? fun step => step.id = stepId with
  | none => []
  | some step => (step.dependencies.map (·.stepId)).filter fun id => id ∈ stepIds steps

def missingDependency : Option (String × String) :=
  steps.findSome? fun step =>
    (step.dependencies.find? fun dep => dep.required ∧ dep.stepId ∉ stepIds steps).map
      fun dep => (step.id, dep.stepId)

def topologicalSort : Except BuildError (List PipelineStepDefinition) :=
  match missingDependency steps with
  | some (stepId, dependency) => .error (.missingDependency stepId dependency)
  | none =>
    let sortedIds := Kahn.sort (stepIds steps) (presentDependencies steps)
    let sorted := sortedIds.filterMap fun id => steps.find? fun step => step.id = id
    if sorted.length = steps.length then .ok sorted
    else .error (.circularDependency
      ((steps.filter fun step => step.id ∉ sortedIds).map (·.id)))

end Topological

def createParallelGroup (steps : List PipelineStepDefinition) (index : Nat) (stepIds : List String) :
    ParallelGroup where
  id := "group-" ++ toString index
  stepIds := stepIds
  allRequired := (steps.filter fun step => step.id ∈ stepIds).all fun step => !step.optional
  maxConcurrent := if 1 < stepIds.length then some (min stepIds.length 4) else none

structure Grouping where
  groups : List ParallelGroup := []
  completedSteps : List String := []
  currentGroup : List String := []

def flushGroup (steps : List PipelineStepDefinition) (grouping : Grouping) : Grouping :=
  if grouping.currentGroup = [] then grouping
  else {
    groups := grouping.groups ++
      [createParallelGroup steps grouping.groups.length grouping.currentGroup]
    completedSteps := grouping.completedSteps ++ grouping.currentGroup
    currentGroup := [] }

def groupStep (steps : List PipelineStepDefinition) (grouping : Grouping)
    (step : PipelineStepDefinition) : Grouping :=
  let complete := step.dependencies.all fun dep =>
    !dep.required || grouping.completedSteps.contains dep.stepId
  let grouping := if complete then grouping else flushGroup steps grouping
  if step.parallelizable && complete then
    { grouping with currentGroup := grouping.currentGroup ++ [step.id] }
  else
    let flushed := flushGroup steps grouping
    { flushed with
      groups := flushed.groups ++ [createParallelGroup steps flushed.groups.length [step.id]]
      completedSteps := flushed.completedSteps ++ [step.id] }

def identifyParallelGroups (steps : List PipelineStepDefinition) : List ParallelGroup :=
  (flushGroup steps (steps.foldl (groupStep steps) {})).groups

def pluginSteps (context : BuildContext) : List (String × ContributedStep) :=
  (context.injections ++ context.prependSteps ++ context.appendSteps).foldl
    (fun entries contributed => setEntry entries contributed.step.id contributed)
    context.replacements

def buildExecutorMap (steps : List PipelineStepDefinition) (pipeline : PipelinePlugin)
    (context : BuildContext) : List (String × StepExecutor) :=
  steps.foldl (fun executors step =>
    match (pluginSteps context).find? fun entry => entry.1 = step.id with
    | some entry => setEntry executors step.id (.plugin entry.2.pluginId entry.2.step.id)
    | none =>
      if pipeline.isValidStepId step.id then
        setEntry executors step.id (.builtin step.id pipeline.id)
      else executors) []

def calculateEstimatedDuration (steps : List PipelineStepDefinition) : Nat :=
  (steps.map fun step =>
    (if step.estimatedDuration = 0 then 10 else step.estimatedDuration) * 1000).sum

section Build

variable (pipeline : PipelinePlugin) (modifiers : List PipelineModifier)

def baseSteps : List PipelineStepDefinition :=
  let context := buildContext modifiers
  applyDisabling (applyReplacements pipeline.steps context.replacements) context.disabledSteps

def placedSteps : List PipelineStepDefinition :=
  let context := buildContext modifiers
  applyPrependAppend (applyInjections (baseSteps pipeline modifiers) context.injections)
    context.prependSteps context.appendSteps

def build : Except BuildError ExecutablePipeline :=
  let context := buildContext modifiers
  let steps := placedSteps pipeline modifiers
  match duplicateStepId [] steps with
  | some stepId => .error (.duplicateStepId stepId)
  | none =>
    match topologicalSort steps with
    | .error error => .error error
    | .ok orderedSteps => .ok {
        source := pipeline.id
        steps := orderedSteps
        groups := identifyParallelGroups orderedSteps
        executorMap := buildExecutorMap orderedSteps pipeline context
        replacedSteps := context.replacements.map fun entry => (entry.1, entry.2.step.id)
        disabledSteps := context.disabledSteps.eraseDups
        injectedSteps := ((context.injections ++ context.prependSteps ++ context.appendSteps).map
          fun contributed => contributed.step.id).eraseDups
        estimatedDuration := calculateEstimatedDuration orderedSteps }

end Build

end EverWorks.Pipeline
