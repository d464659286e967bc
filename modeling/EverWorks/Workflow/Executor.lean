import EverWorks.Workflow.Graph

/-!
`WorkflowGraphExecutorService.execute` walks a graph one node at a time. The node runner and the
decision port are functions of what they are told, the number of the step included, and may throw.
-/

namespace EverWorks.Workflow
open Lib

abbrev Fields := List (String × JsValue)

inductive WorkflowRunStatus where
  | completed | failed | blocked
  deriving DecidableEq

inductive WorkflowRunFailureCode where
  | graphInvalid | nodeNotFound | nodeFailed | noNodeRunner | inputMappingUnresolved
  | llmDecideUnavailable | llmDecideUnknownChoice | maxStepsExceeded
  deriving DecidableEq

structure WorkflowNodeRunContext where
  graphId : String
  runId : String
  viaEdgeId : Option String
  stepIndex : Nat
  context : Fields

structure WorkflowNodeRunResult where
  ok : Bool
  output : JsValue := .undefined
  failureCode : Option String := none
  error : Option String := none

abbrev WorkflowNodeRunner :=
  WorkflowNode → Fields → WorkflowNodeRunContext → Except String WorkflowNodeRunResult

structure WorkflowDecisionChoice where
  choice : String
  description : Option String
  targetNodeId : String

structure WorkflowDecisionRequest where
  graphId : String
  runId : String
  nodeId : String
  nodeOutput : JsValue
  choices : List WorkflowDecisionChoice
  context : Fields

structure WorkflowDecision where
  choice : String
  rationale : Option String := none

abbrev WorkflowDecisionPort := Nat → WorkflowDecisionRequest → Except String WorkflowDecision

structure WorkflowNodeTrace where
  nodeId : String
  viaEdgeId : Option String
  ok : Bool
  failureCode : Option String
  error : Option String
  deriving DecidableEq

structure WorkflowDecisionTrace where
  nodeId : String
  choice : String
  rationale : Option String := none
  degraded : Bool := false
  deriving DecidableEq

structure WorkflowRunResult where
  status : WorkflowRunStatus
  runId : String
  visited : List String
  traversedEdges : List String
  nodes : List WorkflowNodeTrace
  decisions : List WorkflowDecisionTrace
  output : JsValue
  nodeOutputs : Fields
  failureCode : Option WorkflowRunFailureCode
  failedNodeId : Option String
  errors : List String

structure WorkflowRunOptions where
  input : Fields := []
  context : Fields := []

structure NodeState where
  output : JsValue
  ok : Bool
  failureCode : Option String

structure WorkflowScope where
  input : Fields
  context : Fields
  nodes : List (String × NodeState) := []
  last : Option (String × NodeState) := none

/-- `value || undefined` on a text. -/
def nonEmpty (text : Option String) : Option String :=
  text.filter (· ≠ "")

theorem nonEmpty_some {text : String} (given : text ≠ "") : nonEmpty (some text) = some text := by
  simp [nonEmpty, Option.filter, given]

def WorkflowNodeRunResult.state (result : WorkflowNodeRunResult) : NodeState :=
  ⟨result.output, result.ok, nonEmpty result.failureCode⟩

def NodeState.fields (state : NodeState) : Fields :=
  [("output", state.output), ("ok", .bool state.ok)] ++
    (state.failureCode.map fun code => ("failureCode", JsValue.string code)).toList

def WorkflowScope.toValue (scope : WorkflowScope) : JsValue :=
  .object [("input", .object scope.input), ("context", .object scope.context),
    ("nodes", .object (scope.nodes.map fun entry => (entry.1, .object entry.2.fields))),
    ("last", match scope.last with
      | none => .null
      | some (nodeId, state) => .object (("nodeId", .string nodeId) :: state.fields))]

def WorkflowScope.record (scope : WorkflowScope) (node : WorkflowNode)
    (result : WorkflowNodeRunResult) : WorkflowScope :=
  { scope with
    nodes := setField scope.nodes node.id result.state
    last := some (node.id, result.state) }

inductive Selection where
  | edge (edge : WorkflowEdge) (decisions : List WorkflowDecisionTrace)
  | stop (status : WorkflowRunStatus) (failure : Option (WorkflowRunFailureCode × String))

section Select

variable (js : JsCoercions) (decider : Option WorkflowDecisionPort) (graph : WorkflowGraph)
  (node : WorkflowNode) (scope : WorkflowScope)

def degrade (fallback : Option WorkflowEdge) (reason : String) : Selection :=
  match fallback with
  | none => .stop .blocked (some (.llmDecideUnavailable,
      reason ++ " and node \"" ++ node.id ++ "\" declares no fallback arm"))
  | some arm => .edge arm [{ nodeId := node.id, choice := arm.choice, degraded := true }]

def decisionRequest (runId : String) (decideEdges : List WorkflowEdge) : WorkflowDecisionRequest where
  graphId := graph.id
  runId := runId
  nodeId := node.id
  nodeOutput := (scope.last.map (·.2.output)).getD .undefined
  choices := decideEdges.map fun edge =>
    ⟨edge.choice, nonEmpty edge.choiceDescription, edge.target⟩
  context := scope.context

def decideNextEdge (runId : String) (stepIndex : Nat) (decideEdges : List WorkflowEdge) :
    Selection :=
  let fallback := decideEdges.find? (·.fallback)
  match decider with
  | none => degrade node fallback "no WORKFLOW_DECISION_PORT is bound"
  | some decide =>
    match decide stepIndex (decisionRequest graph node scope runId decideEdges) with
    | .error message => degrade node fallback ("the decision port threw (" ++ message ++ ")")
    | .ok decision =>
      match decideEdges.find? fun edge => edge.choice = decision.choice with
      | some chosen => .edge chosen
          [{ nodeId := node.id, choice := chosen.choice, rationale := nonEmpty decision.rationale }]
      | none =>
        if fallback.isSome then
          degrade node fallback ("the decider returned unknown choice \"" ++ decision.choice ++ "\"")
        else .stop .failed (some (.llmDecideUnknownChoice,
          "the decider returned \"" ++ decision.choice ++ "\", which is not an arm of node \"" ++
            node.id ++ "\""))

def holdingEdge : Option WorkflowEdge :=
  (outgoingWorkflowEdges graph node.id .conditional).find? fun edge =>
    edge.condition.any fun condition => evaluateWorkflowCondition js condition scope.toValue

def catchingEdge (failureCode : Option String) : Option WorkflowEdge :=
  (outgoingWorkflowEdges graph node.id .onFailure).find? fun edge =>
    onFailureEdgeCatches edge failureCode

def selectNextEdge (ok : Bool) (runId : String) (stepIndex : Nat) : Selection :=
  if ok then
    match holdingEdge js graph node scope with
    | some edge => .edge edge []
    | none =>
      let decideEdges := outgoingWorkflowEdges graph node.id .llmDecide
      if decideEdges ≠ [] then decideNextEdge decider graph node scope runId stepIndex decideEdges
      else match outgoingWorkflowEdges graph node.id .sequential with
        | edge :: _ => .edge edge []
        | [] => .stop .completed none
  else
    let failureCode := scope.last.bind (·.2.failureCode)
    match catchingEdge graph node failureCode with
    | some edge => .edge edge []
    | none => .stop .failed (some (.nodeFailed, "node \"" ++ node.id ++ "\" failed (" ++
        failureCode.getD "no code" ++ ") and no on_failure edge caught it"))

end Select

structure WalkState where
  visited : List String := []
  traversedEdges : List String := []
  nodes : List WorkflowNodeTrace := []
  decisions : List WorkflowDecisionTrace := []
  errors : List String := []
  scope : WorkflowScope
  currentNodeId : String
  viaEdgeId : Option String := none
  inputs : Fields

def WalkState.finish (state : WalkState) (runId : String) (status : WorkflowRunStatus)
    (failureCode : Option WorkflowRunFailureCode) (failedNodeId : Option String) :
    WorkflowRunResult where
  status := status
  runId := runId
  visited := state.visited
  traversedEdges := state.traversedEdges
  nodes := state.nodes
  decisions := state.decisions
  output := match state.scope.last with
    | some (_, last) => if last.ok then last.output else .undefined
    | none => .undefined
  nodeOutputs := state.scope.nodes.map fun entry => (entry.1, entry.2.output)
  failureCode := failureCode
  failedNodeId := nonEmpty failedNodeId
  errors := state.errors

def runNode (runner : WorkflowNodeRunner) (node : WorkflowNode) (inputs : Fields)
    (context : WorkflowNodeRunContext) : WorkflowNodeRunResult :=
  match runner node inputs context with
  | .ok result => result
  | .error message => { ok := false, failureCode := some "node-threw", error := some message }

section Execute

variable (js : JsCoercions) (runner : WorkflowNodeRunner) (decider : Option WorkflowDecisionPort)
  (graph : WorkflowGraph) (runId : String)

/-- A node's execution: what it was given, what it answered, and the scope after it. -/
structure Visit where
  node : WorkflowNode
  viaEdgeId : Option String
  inputs : Fields
  result : WorkflowNodeRunResult
  scope : WorkflowScope

def Visit.trace (visit : Visit) : WorkflowNodeTrace :=
  ⟨visit.node.id, visit.viaEdgeId, visit.result.ok, nonEmpty visit.result.failureCode,
    nonEmpty visit.result.error⟩

def nodeById (nodeId : String) : Option WorkflowNode :=
  graph.nodes.reverse.find? fun node => node.id = nodeId

def WalkState.visit (state : WalkState) (stepIndex : Nat) (node : WorkflowNode) : Visit :=
  let result := runNode runner node state.inputs
    ⟨graph.id, runId, state.viaEdgeId, stepIndex, state.scope.context⟩
  ⟨node, state.viaEdgeId, state.inputs, result, state.scope.record node result⟩

def WalkState.record (state : WalkState) (visit : Visit) : WalkState :=
  { state with
    visited := state.visited ++ [visit.node.id]
    nodes := state.nodes ++ [visit.trace]
    scope := visit.scope }

/-- What the destination gets: its mapped inputs, or without a mapping the source's output. -/
def WalkState.follow (state : WalkState) (edge : WorkflowEdge)
    (decisions : List WorkflowDecisionTrace) (mapped : Fields) (output : JsValue) : WalkState :=
  { state with
    traversedEdges := state.traversedEdges ++ [edge.id]
    decisions := state.decisions ++ decisions
    inputs := if edge.inputMapping = [] then [("input", output)] else mapped
    viaEdgeId := some edge.id
    currentNodeId := edge.target }

def walkStep (stepIndex : Nat) (state : WalkState) : WalkState ⊕ WorkflowRunResult :=
  match nodeById graph state.currentNodeId with
  | none =>
    let noted := { state with
      errors := state.errors ++ ["node \"" ++ state.currentNodeId ++ "\" is not in the graph"] }
    .inr (noted.finish runId .failed (some .nodeNotFound) (some state.currentNodeId))
  | some node =>
    let visit := state.visit runner graph runId stepIndex node
    let recorded := state.record visit
    match selectNextEdge js decider graph node visit.scope visit.result.ok runId stepIndex with
    | .stop status none => .inr (recorded.finish runId status none none)
    | .stop status (some (failureCode, error)) =>
      let noted := { recorded with errors := recorded.errors ++ [error] }
      .inr (noted.finish runId status (some failureCode) (some node.id))
    | .edge edge decisions =>
      match applyWorkflowInputMapping js edge.inputMapping visit.scope.toValue with
      | .error missing =>
        let noted := { recorded with
          decisions := recorded.decisions ++ decisions
          errors := recorded.errors ++ ["edge \"" ++ edge.id ++
            "\" could not resolve required input(s): " ++ ", ".intercalate missing] }
        .inr (noted.finish runId .failed (some .inputMappingUnresolved) (some node.id))
      | .ok mapped => .inl (recorded.follow edge decisions mapped visit.result.output)

/-- `maxSteps` before the ceiling, to which an infinite one is clamped. -/
def askedSteps : ℚ :=
  match graph.maxSteps with
  | some (.finite value) => if 0 < value then value else workflowDefaultMaxSteps
  | some (.infinite false) => workflowMaxStepsCeiling
  | _ => workflowDefaultMaxSteps

def stepBound : Nat :=
  (min (askedSteps graph) workflowMaxStepsCeiling).ceil.toNat

/-- The loop from a turn on, with `remaining` turns left of the bound. -/
def walk : Nat → Nat → WalkState → WorkflowRunResult
  | 0, stepIndex, state =>
    let noted := { state with errors := state.errors ++
      ["run exceeded maxSteps (" ++ toString stepIndex ++ ") — the graph is looping"] }
    noted.finish runId .failed (some .maxStepsExceeded) (some state.currentNodeId)
  | remaining + 1, stepIndex, state =>
    match walkStep js runner decider graph runId stepIndex state with
    | .inl next => walk remaining (stepIndex + 1) next
    | .inr result => result

end Execute

def startState (graph : WorkflowGraph) (options : WorkflowRunOptions) : WalkState where
  scope := { input := options.input, context := options.context }
  currentNodeId := graph.entryNodeId
  inputs := options.input

def execute (js : JsCoercions) (runner : Option WorkflowNodeRunner)
    (decider : Option WorkflowDecisionPort) (graph : WorkflowGraph) (runId : String)
    (options : WorkflowRunOptions) : WorkflowRunResult :=
  let start := startState graph options
  match validateWorkflowGraph graph with
  | [] =>
    match runner with
    | none =>
      let noted := { start with
        errors := ["no WORKFLOW_NODE_RUNNER is bound — nothing can execute a node"] }
      noted.finish runId .blocked (some .noNodeRunner) none
    | some runner => walk js runner decider graph runId (stepBound graph) 0 start
  | errors => { start with errors := errors }.finish runId .failed (some .graphInvalid) none

end EverWorks.Workflow
