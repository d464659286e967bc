import EverWorks.Lib.JsValue
import EverWorks.Lib.Run

/-!
The graph, its conditions and input mappings over the run scope, and the structural validation a graph
must pass before it is executed.
-/

namespace EverWorks.Workflow
open Lib List

inductive WorkflowEdgeKind where
  | sequential | onFailure | conditional | llmDecide
  | unknown (token : String)
  deriving DecidableEq

inductive WorkflowConditionOperator where
  | eq | neq | gt | gte | lt | lte | exists_ | notExists | truthy | falsy | contains | in_
  | unknown (token : String)
  deriving DecidableEq

structure WorkflowCondition where
  path : String
  operator : WorkflowConditionOperator
  value : JsValue := .undefined

structure WorkflowInputMappingEntry where
  key : String
  source : Option String := none
  fallback : JsValue := .undefined
  required : Bool := false

/-- The fields of all four edge kinds; a kind reads its own. -/
structure WorkflowEdge where
  id : String
  kind : WorkflowEdgeKind
  source : String
  target : String
  catches : Option (List String) := none
  condition : Option WorkflowCondition := none
  choice : String := ""
  choiceDescription : Option String := none
  fallback : Bool := false
  inputMapping : List WorkflowInputMappingEntry := []

structure WorkflowNode where
  id : String
  kind : String
  name : Option String := none
  config : List (String × JsValue) := []

structure WorkflowGraph where
  id : String
  entryNodeId : String
  nodes : List WorkflowNode
  edges : List WorkflowEdge
  maxSteps : Option JsNumber := none

def workflowDefaultMaxSteps : ℚ := 50
def workflowMaxStepsCeiling : ℚ := 500

def forbiddenPathSegments : List String := ["__proto__", "prototype", "constructor"]

section Scope

variable (js : JsCoercions)

/-- One segment of a dot path; `none` where it reaches nothing. -/
def readSegment (current : JsValue) (segment : String) : Option JsValue :=
  if segment = "" ∨ segment ∈ forbiddenPathSegments then none
  else match current with
    | .array items => (js.toNumber (.string segment)).index.bind fun index => items[index]?
    | .object fields => (fields.find? fun field => field.1 = segment).map (·.2)
    | _ => none

def resolveWorkflowPath (scope : JsValue) (path : String) : JsValue :=
  if path = "" then .undefined
  else ((JsString.split path '.').foldlM (readSegment js) scope).getD .undefined

def looseContains (haystack needle : JsValue) : Bool :=
  match haystack with
  | .array items => items.any fun entry => entry.strictEquals js needle
  | .string text => JsString.includes text (js.toText needle)
  | _ => false

def toNumber : JsValue → JsNumber
  | .number value => value
  | value => js.toNumber value

def numericCompare (left right : JsValue) (compare : ℚ → ℚ → Bool) : Bool :=
  match toNumber js left, toNumber js right with
  | .finite a, .finite b => compare a b
  | _, _ => false

def evaluateWorkflowCondition (condition : WorkflowCondition) (scope : JsValue) : Bool :=
  let actual := resolveWorkflowPath js scope condition.path
  match condition.operator with
  | .exists_ => !actual.isNullish
  | .notExists => actual.isNullish
  | .truthy => actual.truthy
  | .falsy => !actual.truthy
  | .eq => actual.strictEquals js condition.value
  | .neq => !actual.strictEquals js condition.value
  | .gt => numericCompare js actual condition.value fun a b => a > b
  | .gte => numericCompare js actual condition.value fun a b => a ≥ b
  | .lt => numericCompare js actual condition.value fun a b => a < b
  | .lte => numericCompare js actual condition.value fun a b => a ≤ b
  | .contains => looseContains js actual condition.value
  | .in_ => looseContains js condition.value actual
  | .unknown _ => false

def applyBinding (scope : JsValue) (collected : List (String × JsValue) × List String)
    (entry : WorkflowInputMappingEntry) : List (String × JsValue) × List String :=
  if entry.key = "" ∨ entry.key ∈ forbiddenPathSegments then collected
  else
    let resolved : JsValue := match entry.source with
      | none => .undefined
      | some path => resolveWorkflowPath js scope path
    let value := if resolved.isUndefined then entry.fallback else resolved
    if value.isUndefined then
      if entry.required then (collected.1, collected.2 ++ [entry.key]) else collected
    else (setField collected.1 entry.key value, collected.2)

def applyWorkflowInputMapping (mapping : List WorkflowInputMappingEntry) (scope : JsValue) :
    Except (List String) (List (String × JsValue)) :=
  let (inputs, missing) := mapping.foldl (applyBinding js scope) ([], [])
  if missing = [] then .ok inputs else .error missing

end Scope

def outgoingWorkflowEdges (graph : WorkflowGraph) (nodeId : String) (kind : WorkflowEdgeKind) :
    List WorkflowEdge :=
  graph.edges.filter fun edge => edge.source = nodeId ∧ edge.kind = kind

def onFailureEdgeCatches (edge : WorkflowEdge) (failureCode : Option String) : Bool :=
  match edge.catches, failureCode with
  | none, _ => true
  | some _, none => false
  | some codes, some code => codes.contains code

structure NodeScan where
  nodeIds : List String := []
  errors : List String := []

def scanNode (scan : NodeScan) (node : WorkflowNode) : NodeScan :=
  if node.id = "" then { scan with errors := scan.errors ++ ["node without an id"] }
  else {
    nodeIds := node.id :: scan.nodeIds
    errors := scan.errors ++
      if node.id ∈ scan.nodeIds then ["duplicate node id \"" ++ node.id ++ "\""] else [] }

structure EdgeScan where
  edgeIds : List String := []
  sequentialBySource : String → Nat := fun _ => 0
  choicesBySource : String → List String := fun _ => []
  fallbacksBySource : String → Nat := fun _ => 0
  errors : List String := []

def entryErrors (nodeIds : List String) (entryNodeId : String) : List String :=
  if entryNodeId = "" then ["graph has no entryNodeId"]
  else if entryNodeId ∉ nodeIds then
    ["entryNodeId \"" ++ entryNodeId ++ "\" is not a node in the graph"]
  else []

/-- `when.operator` as it is printed; only an unknown one ever is. -/
def conditionErrors (edge : WorkflowEdge) : List String :=
  match edge.condition with
  | none => ["conditional edge \"" ++ edge.id ++ "\" has no when.path"]
  | some condition =>
    if condition.path = "" then ["conditional edge \"" ++ edge.id ++ "\" has no when.path"]
    else match condition.operator with
      | .unknown token =>
        ["conditional edge \"" ++ edge.id ++ "\" has unknown operator \"" ++ token ++ "\""]
      | _ => []

def armErrors (scan : EdgeScan) (edge : WorkflowEdge) : List String :=
  (if edge.choice = "" then ["llm_decide edge \"" ++ edge.id ++ "\" has no choice token"]
    else if edge.choice ∈ scan.choicesBySource edge.source then
      ["node \"" ++ edge.source ++ "\" has two llm_decide edges with choice \"" ++ edge.choice ++
        "\""]
    else []) ++
  if edge.fallback ∧ scan.fallbacksBySource edge.source + 1 = 2 then
    ["node \"" ++ edge.source ++ "\" has more than one llm_decide fallback arm"]
  else []

def bindingErrors (edge : WorkflowEdge) (binding : WorkflowInputMappingEntry) : List String :=
  if binding.key = "" then ["edge \"" ++ edge.id ++ "\" has an input mapping without a \"to\" key"]
  else if binding.source.isNone ∧ binding.fallback.isUndefined then
    ["edge \"" ++ edge.id ++ "\" mapping \"" ++ binding.key ++
      "\" has neither \"from\" nor \"fallback\""]
  else []

def kindErrors (scan : EdgeScan) (edge : WorkflowEdge) : List String :=
  match edge.kind with
  | .sequential =>
    if scan.sequentialBySource edge.source + 1 = 2 then
      ["node \"" ++ edge.source ++
        "\" has more than one sequential edge — use conditional or llm_decide to branch"]
    else []
  | .conditional => conditionErrors edge
  | .llmDecide => armErrors scan edge
  | _ => []

def edgeErrors (nodeIds : List String) (scan : EdgeScan) (edge : WorkflowEdge) : List String :=
  if edge.id = "" then ["edge without an id"]
  else
    (if edge.id ∈ scan.edgeIds then ["duplicate edge id \"" ++ edge.id ++ "\""] else []) ++
    match edge.kind with
    | .unknown token => ["edge \"" ++ edge.id ++ "\" has unknown kind \"" ++ token ++ "\""]
    | _ =>
      (if edge.source ∉ nodeIds then
        ["edge \"" ++ edge.id ++ "\" leaves unknown node \"" ++ edge.source ++ "\""] else []) ++
      (if edge.target ∉ nodeIds then
        ["edge \"" ++ edge.id ++ "\" points at unknown node \"" ++ edge.target ++ "\""] else []) ++
      kindErrors scan edge ++ edge.inputMapping.flatMap (bindingErrors edge)

def noteEdge (scan : EdgeScan) (edge : WorkflowEdge) : EdgeScan :=
  let bump (counts : String → Nat) : String → Nat :=
    fun source => if source = edge.source then counts source + 1 else counts source
  if edge.id = "" then scan
  else
    let seen := { scan with edgeIds := edge.id :: scan.edgeIds }
    match edge.kind with
    | .sequential => { seen with sequentialBySource := bump scan.sequentialBySource }
    | .llmDecide =>
      { seen with
        choicesBySource := fun source =>
          if source = edge.source ∧ edge.choice ≠ "" then edge.choice :: scan.choicesBySource source
          else scan.choicesBySource source
        fallbacksBySource :=
          if edge.fallback then bump scan.fallbacksBySource else scan.fallbacksBySource }
    | _ => seen

def scanEdge (nodeIds : List String) (scan : EdgeScan) (edge : WorkflowEdge) : EdgeScan :=
  { noteEdge scan edge with errors := scan.errors ++ edgeErrors nodeIds scan edge }

def maxStepsErrors (maxSteps : Option JsNumber) : List String :=
  match maxSteps with
  | none => []
  | some (.finite value) =>
    if value.den = 1 ∧ 0 < value then [] else ["maxSteps must be a positive integer when set"]
  | some _ => ["maxSteps must be a positive integer when set"]

def validateWorkflowGraph (graph : WorkflowGraph) : List String :=
  let nodes := run scanNode {} graph.nodes
  let edges := run (scanEdge nodes.nodeIds) {} graph.edges
  nodes.errors ++ entryErrors nodes.nodeIds graph.entryNodeId ++ edges.errors ++
    maxStepsErrors graph.maxSteps

theorem mem_scanned_nodeIds {nodes : List WorkflowNode} {scan : NodeScan} {id : String}
    (member : id ∈ (run scanNode scan nodes).nodeIds) :
    id ∈ scan.nodeIds ∨ id ≠ "" ∧ ∃ node ∈ nodes, node.id = id := by
  induction nodes generalizing scan with
  | nil => exact Or.inl member
  | cons node rest ih =>
    rw [run_cons] at member
    rcases ih member with scanned | ⟨named, other, later, same⟩
    · unfold scanNode at scanned
      split at scanned
      · exact Or.inl scanned
      · rename_i named
        rcases mem_cons.mp scanned with rfl | earlier
        · exact Or.inr ⟨named, node, mem_cons_self, rfl⟩
        · exact Or.inl earlier
    · exact Or.inr ⟨named, other, mem_cons_of_mem _ later, same⟩

variable {nodeIds : List String}

variable {scan : EdgeScan}

theorem scanned_errors {edges : List WorkflowEdge} :
    (run (scanEdge nodeIds) scan edges).errors = [] ↔
      scan.errors = [] ∧
        Along (scanEdge nodeIds) (fun scan edge => edgeErrors nodeIds scan edge = []) scan edges := by
  induction edges generalizing scan with
  | nil => simp [Along]
  | cons edge rest ih =>
    rw [run_cons, ih, along_cons]
    show scan.errors ++ _ = [] ∧ _ ↔ _
    rw [append_eq_nil_iff, and_assoc]

theorem edgeErrors_nil {edge : WorkflowEdge}
    (clean : edgeErrors nodeIds scan edge = []) :
    edge.id ≠ "" ∧ edge.source ∈ nodeIds ∧ edge.target ∈ nodeIds ∧ kindErrors scan edge = [] := by
  unfold edgeErrors at clean
  split at clean
  · cases clean
  · rename_i named
    simp only [append_eq_nil_iff] at clean
    obtain ⟨-, clean⟩ := clean
    split at clean
    · cases clean
    · simp only [append_eq_nil_iff, ite_eq_right_iff, cons_ne_self, imp_false,
        not_not] at clean
      exact ⟨named, by simpa using clean.1.1.1, by simpa using clean.1.1.2, clean.1.2⟩

theorem sequentialBySource_scanEdge (nodeIds : List String) (scan : EdgeScan) {edge : WorkflowEdge}
    (named : edge.id ≠ "") (source : String) :
    (scanEdge nodeIds scan edge).sequentialBySource source =
      scan.sequentialBySource source +
        if edge.source = source ∧ edge.kind = .sequential then 1 else 0 := by
  unfold scanEdge noteEdge
  rw [if_neg named]
  cases kind : edge.kind <;> by_cases same : source = edge.source <;>
    simp [same, eq_comm]

theorem sequential_at_most_one {edges : List WorkflowEdge}
    {source : String}
    (clean : Along (scanEdge nodeIds) (fun scan edge => edgeErrors nodeIds scan edge = []) scan edges)
    (one : scan.sequentialBySource source ≤ 1) :
    scan.sequentialBySource source +
      (edges.filter fun edge => edge.source = source ∧ edge.kind = .sequential).length ≤ 1 := by
  induction edges generalizing scan with
  | nil => simpa using one
  | cons edge rest ih =>
    obtain ⟨named, -, -, kind⟩ := edgeErrors_nil clean.1
    have counted := sequentialBySource_scanEdge nodeIds scan named source
    have first : edge.source = source ∧ edge.kind = .sequential →
        scan.sequentialBySource source = 0 := by
      rintro ⟨rfl, sequential⟩
      simp only [kindErrors, sequential, ite_eq_right_iff, cons_ne_self, imp_false] at kind
      omega
    by_cases hit : edge.source = source ∧ edge.kind = .sequential
    · rw [if_pos hit] at counted
      have rest := ih clean.2 (by rw [counted, first hit])
      rw [filter_cons_of_pos (by simpa using hit), length_cons]
      omega
    · rw [if_neg hit] at counted
      have rest := ih clean.2 (by omega)
      rw [filter_cons_of_neg (by simpa using hit)]
      omega

structure WorkflowGraph.WellFormed (graph : WorkflowGraph) : Prop where
  entry : ∃ node ∈ graph.nodes, node.id = graph.entryNodeId
  targets : ∀ edge ∈ graph.edges,
    edge.target ≠ "" ∧ ∃ node ∈ graph.nodes, node.id = edge.target
  sequential : ∀ source, (outgoingWorkflowEdges graph source .sequential).length ≤ 1
  maxSteps : maxStepsErrors graph.maxSteps = []

theorem wellFormed_of_valid {graph : WorkflowGraph} (valid : validateWorkflowGraph graph = []) :
    graph.WellFormed := by
  unfold validateWorkflowGraph at valid
  simp only [append_eq_nil_iff] at valid
  obtain ⟨⟨⟨-, entry⟩, edges⟩, maxSteps⟩ := valid
  obtain ⟨-, clean⟩ := scanned_errors.mp edges
  have isNode : ∀ id ∈ (run scanNode {} graph.nodes).nodeIds,
      id ≠ "" ∧ ∃ node ∈ graph.nodes, node.id = id := by
    intro id member
    exact (mem_scanned_nodeIds member).resolve_left (by simp)
  refine ⟨?_, ?_, ?_, maxSteps⟩
  · unfold entryErrors at entry
    split at entry
    · cases entry
    · split at entry
      · cases entry
      · rename_i known
        exact (isNode _ (not_not.mp known)).2
  · refine forall_of_along ?_ clean
    intro scan edge clean
    obtain ⟨-, -, target, -⟩ := edgeErrors_nil clean
    exact isNode _ target
  · intro source
    have one : ({} : EdgeScan).sequentialBySource source ≤ 1 := by simp
    simpa [outgoingWorkflowEdges] using sequential_at_most_one clean one

end EverWorks.Workflow
