import EverWorks.Workflow.Executor

/-!
Every run of a valid graph is a walk of it: which edge may leave a visited node, which node it enters,
how many nodes are executed, and what the status says about the last of them.
-/

namespace EverWorks.Workflow
open Lib List

section Laws

variable (js : JsCoercions) (graph : WorkflowGraph)

def Visit.outgoing (visit : Visit) (kind : WorkflowEdgeKind) : List WorkflowEdge :=
  outgoingWorkflowEdges graph visit.node.id kind

def Visit.LeftBy (visit : Visit) (edge : WorkflowEdge) : Prop :=
  if visit.result.ok then
    match holdingEdge js graph visit.node visit.scope with
    | some holding => edge = holding
    | none =>
      edge ∈ visit.outgoing graph .llmDecide ∨
      visit.outgoing graph .llmDecide = [] ∧ visit.outgoing graph .sequential = [edge]
  else catchingEdge graph visit.node (nonEmpty visit.result.failureCode) = some edge

structure Visit.Final (visit : Visit) : Prop where
  green : visit.result.ok = true
  unheld : holdingEdge js graph visit.node visit.scope = none
  armless : visit.outgoing graph .llmDecide = []
  unfollowed : visit.outgoing graph .sequential = []

variable {js graph}

theorem mem_outgoing {nodeId : String} {kind : WorkflowEdgeKind} {edge : WorkflowEdge} :
    edge ∈ outgoingWorkflowEdges graph nodeId kind ↔
      edge ∈ graph.edges ∧ edge.source = nodeId ∧ edge.kind = kind := by
  unfold outgoingWorkflowEdges
  simp

theorem Visit.LeftBy.edge {visit : Visit} {edge : WorkflowEdge} (left : visit.LeftBy js graph edge) :
    edge ∈ graph.edges ∧ edge.source = visit.node.id := by
  unfold Visit.LeftBy at left
  have ofOutgoing : ∀ {kind}, edge ∈ visit.outgoing graph kind →
      edge ∈ graph.edges ∧ edge.source = visit.node.id := by
    intro kind member
    obtain ⟨present, source, -⟩ := mem_outgoing.mp member
    exact ⟨present, source⟩
  split at left
  · split at left
    · rename_i holding held
      rw [left]
      obtain ⟨present, source, -⟩ := mem_outgoing.mp (mem_of_find?_eq_some held)
      exact ⟨present, source⟩
    · rcases left with arm | ⟨-, only⟩
      · exact ofOutgoing arm
      · exact ofOutgoing (only ▸ mem_singleton_self edge)
  · exact ofOutgoing (mem_of_find?_eq_some left)

theorem Visit.LeftBy.not_final {visit : Visit} {edge : WorkflowEdge}
    (left : visit.LeftBy js graph edge) : ¬ visit.Final js graph := by
  intro final
  unfold Visit.LeftBy at left
  rw [if_pos final.green, final.unheld] at left
  rcases left with arm | ⟨-, only⟩
  · rw [final.armless] at arm
    cases arm
  · rw [final.unfollowed] at only
    cases only

end Laws

/-! ## One turn of the loop -/

section Turn

variable {js : JsCoercions} {runner : WorkflowNodeRunner} {decider : Option WorkflowDecisionPort}
  {graph : WorkflowGraph} {runId : String}

variable {decisions : List WorkflowDecisionTrace}

theorem degrade_edge {node : WorkflowNode} {decideEdges : List WorkflowEdge} {reason : String}
    {edge : WorkflowEdge}
    (selected : degrade node (decideEdges.find? (·.fallback)) reason = .edge edge decisions) :
    edge ∈ decideEdges := by
  unfold degrade at selected
  split at selected
  · cases selected
  · rename_i found
    cases selected
    exact mem_of_find?_eq_some found

variable {failure : Option (WorkflowRunFailureCode × String)}

variable {status : WorkflowRunStatus}

theorem degrade_stop {node : WorkflowNode} {fallback : Option WorkflowEdge} {reason : String}
    (selected : degrade node fallback reason = .stop status failure) :
    status ≠ .completed ∧ ∃ error, failure = some (.llmDecideUnavailable, error) := by
  unfold degrade at selected
  split at selected
  · cases selected
    exact ⟨by decide, _, rfl⟩
  · cases selected

variable {node : WorkflowNode} {scope : WorkflowScope} {stepIndex : Nat}
  {decideEdges : List WorkflowEdge}

theorem decideNextEdge_edge {edge : WorkflowEdge}
    (selected : decideNextEdge decider graph node scope runId stepIndex decideEdges =
      .edge edge decisions) : edge ∈ decideEdges := by
  unfold decideNextEdge at selected
  dsimp only at selected
  split at selected
  · exact degrade_edge selected
  · split at selected
    · exact degrade_edge selected
    · split at selected
      · rename_i chosen found
        cases selected
        exact mem_of_find?_eq_some found
      · split at selected
        · exact degrade_edge selected
        · cases selected

theorem decideNextEdge_stop
    (selected : decideNextEdge decider graph node scope runId stepIndex decideEdges =
      .stop status failure) :
    status ≠ .completed ∧ ∃ code error, failure = some (code, error) ∧
      (code = .llmDecideUnavailable ∨ code = .llmDecideUnknownChoice) := by
  have degraded : ∀ {fallback reason}, degrade node fallback reason = .stop status failure →
      status ≠ .completed ∧ ∃ code error, failure = some (code, error) ∧
        (code = .llmDecideUnavailable ∨ code = .llmDecideUnknownChoice) := by
    intro fallback reason stopped
    obtain ⟨incomplete, error, failed⟩ := degrade_stop stopped
    exact ⟨incomplete, _, error, failed, Or.inl rfl⟩
  unfold decideNextEdge at selected
  dsimp only at selected
  split at selected
  · exact degraded selected
  · split at selected
    · exact degraded selected
    · split at selected
      · cases selected
      · split at selected
        · exact degraded selected
        · cases selected
          exact ⟨by decide, _, _, rfl, Or.inr rfl⟩

variable {state : WalkState}

theorem visit_last : (state.visit runner graph runId stepIndex node).scope.last =
    some (node.id, (state.visit runner graph runId stepIndex node).result.state) := rfl

theorem selectNextEdge_edge (wellFormed : graph.WellFormed) {edge : WorkflowEdge}
    (selected : selectNextEdge js decider graph node
      (state.visit runner graph runId stepIndex node).scope
      (state.visit runner graph runId stepIndex node).result.ok runId stepIndex =
        .edge edge decisions) :
    (state.visit runner graph runId stepIndex node).LeftBy js graph edge := by
  unfold Visit.LeftBy
  unfold selectNextEdge at selected
  split at selected
  · rename_i green
    rw [if_pos green]
    split at selected
    · rename_i holding held
      cases selected
      rw [show holdingEdge js graph (state.visit runner graph runId stepIndex node).node
        (state.visit runner graph runId stepIndex node).scope = some edge from held]
    · rename_i unheld
      rw [show holdingEdge js graph (state.visit runner graph runId stepIndex node).node
        (state.visit runner graph runId stepIndex node).scope = none from unheld]
      dsimp only at selected ⊢
      split at selected
      · exact Or.inl (decideNextEdge_edge selected)
      · rename_i armless
        split at selected
        · rename_i first rest followed
          cases selected
          have single := wellFormed.sequential node.id
          rw [followed, length_cons] at single
          have alone : rest = [] := length_eq_zero_iff.mp (by omega)
          rw [alone] at followed
          exact Or.inr ⟨not_not.mp armless, followed⟩
        · cases selected
  · rename_i failed
    rw [if_neg failed]
    dsimp only at selected
    split at selected
    · rename_i caught
      cases selected
      rw [visit_last] at caught
      exact caught
    · cases selected

theorem selectNextEdge_stop
    (selected : selectNextEdge js decider graph node
      (state.visit runner graph runId stepIndex node).scope
      (state.visit runner graph runId stepIndex node).result.ok runId stepIndex =
        .stop status failure) :
    (status = .completed ↔ (state.visit runner graph runId stepIndex node).Final js graph) ∧
    (status = .completed → failure = none) ∧
    ∀ code error, failure = some (code, error) → code ≠ .nodeNotFound := by
  unfold selectNextEdge at selected
  split at selected
  · rename_i green
    split at selected
    · cases selected
    · rename_i unheld
      dsimp only at selected
      split at selected
      · rename_i arms
        obtain ⟨incomplete, code, error, failed, either⟩ := decideNextEdge_stop selected
        refine ⟨⟨fun done => absurd done incomplete, fun final => absurd final.armless arms⟩,
          fun done => absurd done incomplete, ?_⟩
        intro other message same
        rw [failed] at same
        cases same
        rcases either with rfl | rfl <;> decide
      · rename_i armless
        split at selected
        · cases selected
        · rename_i unfollowed
          cases selected
          exact ⟨⟨fun _ => ⟨green, unheld, not_not.mp armless, unfollowed⟩, fun _ => rfl⟩,
            fun _ => rfl, by simp⟩
  · rename_i failed
    dsimp only at selected
    split at selected
    · cases selected
    · cases selected
      refine ⟨⟨nofun, fun final => absurd final.green failed⟩, nofun, ?_⟩
      intro code error same
      cases same
      decide

theorem nodeById_some {nodeId : String} (found : nodeById graph nodeId = some node) :
    node ∈ graph.nodes ∧ node.id = nodeId := by
  unfold nodeById at found
  have named := find?_some found
  exact ⟨mem_reverse.mp (mem_of_find?_eq_some found), by simpa using named⟩

theorem nodeById_isSome {nodeId : String} (present : ∃ node ∈ graph.nodes, node.id = nodeId) :
    ∃ node, nodeById graph nodeId = some node := by
  obtain ⟨node, member, named⟩ := present
  apply Option.isSome_iff_exists.mp
  unfold nodeById
  rw [find?_isSome]
  exact ⟨node, mem_reverse.mpr member, by simpa using named⟩

variable (js runner decider runId stepIndex) in
theorem walkStep_cases (wellFormed : graph.WellFormed)
    (found : nodeById graph state.currentNodeId = some node) :
    let visit := state.visit runner graph runId stepIndex node
    (∃ edge next, walkStep js runner decider graph runId stepIndex state = .inl next ∧
      visit.LeftBy js graph edge ∧
      next.visited = state.visited ++ [node.id] ∧ next.nodes = state.nodes ++ [visit.trace] ∧
      next.traversedEdges = state.traversedEdges ++ [edge.id] ∧ next.scope = visit.scope ∧
      next.currentNodeId = edge.target ∧ next.viaEdgeId = some edge.id) ∨
    ∃ result, walkStep js runner decider graph runId stepIndex state = .inr result ∧
      result.visited = state.visited ++ [node.id] ∧ result.nodes = state.nodes ++ [visit.trace] ∧
      result.traversedEdges = state.traversedEdges ∧ result.failureCode ≠ some .nodeNotFound ∧
      (result.status = .completed ↔ visit.Final js graph) := by
  intro visit
  unfold walkStep
  rw [found]
  dsimp only
  cases selected : selectNextEdge js decider graph node visit.scope visit.result.ok runId stepIndex with
  | edge edge decisions =>
    have left := selectNextEdge_edge wellFormed selected
    dsimp only
    cases mapped : applyWorkflowInputMapping js edge.inputMapping visit.scope.toValue with
    | ok inputs => exact Or.inl ⟨edge, _, rfl, left, rfl, rfl, rfl, rfl, rfl, rfl⟩
    | error missing =>
      refine Or.inr ⟨_, rfl, rfl, rfl, rfl, by simp [WalkState.finish], ?_⟩
      exact ⟨nofun, fun final => absurd final left.not_final⟩
  | stop status failure =>
    obtain ⟨completed, -, code⟩ := selectNextEdge_stop selected
    cases failure with
    | none => exact Or.inr ⟨_, rfl, rfl, rfl, rfl, by simp [WalkState.finish], completed⟩
    | some failure =>
      refine Or.inr ⟨_, rfl, rfl, rfl, rfl, ?_, completed⟩
      simpa [WalkState.finish] using code failure.1 failure.2 rfl

end Turn

/-! ## Whole runs -/

section Whole

variable (js : JsCoercions) (runner : WorkflowNodeRunner) (graph : WorkflowGraph) (runId : String)

/-- The scope the visit at `i` starts from. -/
def scopeBefore (scope : WorkflowScope) (visits : List Visit) : Nat → WorkflowScope
  | 0 => scope
  | i + 1 => (visits[i]?.map (·.scope)).getD scope

def Executed (stepIndex : Nat) (scope : WorkflowScope) (visits : List Visit) : Prop :=
  ∀ i visit, visits[i]? = some visit →
    visit.node ∈ graph.nodes ∧
    visit.result = runNode runner visit.node visit.inputs
      ⟨graph.id, runId, visit.viaEdgeId, stepIndex + i, scope.context⟩ ∧
    visit.scope = (scopeBefore scope visits i).record visit.node visit.result

def Linked (result : WorkflowRunResult) (visits : List Visit) (edges : List WorkflowEdge) : Prop :=
  ∀ i edge, edges[i]? = some edge →
    (∃ visit, visits[i]? = some visit ∧ edge ∈ graph.edges ∧ edge.source = visit.node.id ∧
      visit.LeftBy js graph edge) ∧
    ((∃ next, visits[i + 1]? = some next ∧ edge.target = next.node.id ∧
        next.viaEdgeId = some edge.id) ∨
      visits.length = i + 1 ∧ result.failureCode = some .maxStepsExceeded ∧
        result.failedNodeId = some edge.target)

structure WalksFrom (remaining stepIndex : Nat) (state : WalkState) (result : WorkflowRunResult)
    (visits : List Visit) (edges : List WorkflowEdge) : Prop where
  visited : result.visited = state.visited ++ visits.map (·.node.id)
  traversed : result.traversedEdges = state.traversedEdges ++ edges.map (·.id)
  traces : result.nodes = state.nodes ++ visits.map Visit.trace
  bounded : visits.length ≤ remaining
  began : ∀ visit ∈ visits.head?,
    visit.node.id = state.currentNodeId ∧ visit.viaEdgeId = state.viaEdgeId
  halted : visits = [] → remaining = 0 ∧ result.failureCode = some .maxStepsExceeded ∧
    result.failedNodeId = nonEmpty (some state.currentNodeId)
  executed : Executed runner graph runId stepIndex state.scope visits
  linked : Linked js graph result visits edges
  followed : visits.length ≤ edges.length + 1
  found : result.failureCode ≠ some .nodeNotFound
  completed : result.status = .completed ↔
    ∃ visit, visits.getLast? = some visit ∧ visit.Final js graph

variable {js runner graph runId} {decider : Option WorkflowDecisionPort}

theorem executed_cons {stepIndex : Nat} {scope : WorkflowScope} {visit : Visit}
    {rest : List Visit}
    (first : visit.node ∈ graph.nodes ∧
      visit.result = runNode runner visit.node visit.inputs
        ⟨graph.id, runId, visit.viaEdgeId, stepIndex, scope.context⟩ ∧
      visit.scope = scope.record visit.node visit.result)
    (later : Executed runner graph runId (stepIndex + 1) visit.scope rest) :
    Executed runner graph runId stepIndex scope (visit :: rest) := by
  intro i other read
  cases i with
  | zero =>
    obtain rfl : visit = other := by simpa using read
    exact first
  | succ i =>
    have context : visit.scope.context = scope.context := by
      rw [first.2.2]
      rfl
    obtain ⟨present, answered, recorded⟩ := later i other (by simpa using read)
    refine ⟨present, ?_, ?_⟩
    · rw [answered, context]
      congr 2
      omega
    · rw [recorded]
      cases i with
      | zero => rfl
      | succ i =>
        have before : (rest[i]?).isSome = true := by
          have := (List.getElem?_eq_some_iff.mp (show rest[i + 1]? = some other by simpa using read)).1
          rw [getElem?_eq_getElem (by omega)]
          rfl
        obtain ⟨previous, at_⟩ := Option.isSome_iff_exists.mp before
        simp [scopeBefore, at_]

theorem linked_cons {result : WorkflowRunResult} {visit : Visit} {edge : WorkflowEdge}
    {visits : List Visit} {edges : List WorkflowEdge} (left : visit.LeftBy js graph edge)
    (target : edge.target ≠ "")
    (began : ∀ next ∈ visits.head?, next.node.id = edge.target ∧ next.viaEdgeId = some edge.id)
    (halted : visits = [] → result.failureCode = some .maxStepsExceeded ∧
      result.failedNodeId = nonEmpty (some edge.target))
    (later : Linked js graph result visits edges) :
    Linked js graph result (visit :: visits) (edge :: edges) := by
  intro i other read
  cases i with
  | zero =>
    obtain rfl : edge = other := by simpa using read
    refine ⟨⟨visit, rfl, left.edge.1, left.edge.2, left⟩, ?_⟩
    cases visits with
    | nil =>
      obtain ⟨code, failedAt⟩ := halted rfl
      exact Or.inr ⟨rfl, code, failedAt.trans (nonEmpty_some target)⟩
    | cons next rest =>
      obtain ⟨entered, via⟩ := began next rfl
      exact Or.inl ⟨next, rfl, entered.symm, via⟩
  | succ i =>
    obtain ⟨leaves, enters⟩ := later i other (by simpa using read)
    refine ⟨by simpa using leaves, ?_⟩
    rcases enters with ⟨next, read, entered, via⟩ | ⟨last, code, failedAt⟩
    · exact Or.inl ⟨next, by simpa using read, entered, via⟩
    · exact Or.inr ⟨by simp [last], code, failedAt⟩

variable (js runner runId decider) in
theorem walk_walksFrom (wellFormed : graph.WellFormed) (remaining stepIndex : Nat)
    (state : WalkState) (atNode : ∃ node ∈ graph.nodes, node.id = state.currentNodeId) :
    ∃ visits edges, WalksFrom js runner graph runId remaining stepIndex state
      (walk js runner decider graph runId remaining stepIndex state) visits edges := by
  induction remaining generalizing stepIndex state with
  | zero =>
    refine ⟨[], [], ?_⟩
    constructor <;> simp [walk, WalkState.finish, Executed, Linked]
  | succ remaining ih =>
    obtain ⟨node, found⟩ := nodeById_isSome atNode
    obtain ⟨present, named⟩ := nodeById_some found
    obtain ⟨edge, next, stepped, left, visited, traces, traversed, scope, current, via⟩ |
        ⟨result, stepped, visited, traces, traversed, code, completed⟩ :=
      walkStep_cases js runner decider runId stepIndex wellFormed found
    · obtain ⟨target, isNode⟩ := wellFormed.targets edge left.edge.1
      obtain ⟨visits, edges, later⟩ := ih (stepIndex + 1) next (by rw [current]; exact isNode)
      refine ⟨state.visit runner graph runId stepIndex node :: visits, edge :: edges, ?_⟩
      have walked : walk js runner decider graph runId (remaining + 1) stepIndex state =
          walk js runner decider graph runId remaining (stepIndex + 1) next := by
        rw [walk, stepped]
      rw [walked]
      constructor
      · rw [later.visited, visited, append_assoc]
        rfl
      · rw [later.traversed, traversed, append_assoc]
        rfl
      · rw [later.traces, traces, append_assoc]
        rfl
      · have := later.bounded
        simpa using this
      · rintro _ ⟨⟩
        exact ⟨named, rfl⟩
      · nofun
      · exact executed_cons ⟨present, rfl, rfl⟩ (scope ▸ later.executed)
      · refine linked_cons left target ?_ ?_ later.linked
        · intro other head
          obtain ⟨entered, entering⟩ := later.began other head
          exact ⟨entered.trans current, entering.trans via⟩
        · intro empty
          rw [← current]
          exact (later.halted empty).2
      · simpa using later.followed
      · exact later.found
      · rw [later.completed]
        cases visits with
        | nil =>
          constructor
          · rintro ⟨_, ⟨⟩, -⟩
          · rintro ⟨_, ⟨⟩, final⟩
            exact absurd final left.not_final
        | cons head rest => rw [getLast?_cons_cons]
    · refine ⟨[state.visit runner graph runId stepIndex node], [], ?_⟩
      have walked : walk js runner decider graph runId (remaining + 1) stepIndex state = result := by
        rw [walk, stepped]
      rw [walked]
      constructor
      · exact visited
      · rw [traversed]
        simp
      · exact traces
      · simp
      · rintro _ ⟨⟩
        exact ⟨named, rfl⟩
      · nofun
      · exact executed_cons ⟨present, rfl, rfl⟩ (by simp [Executed])
      · simp [Linked]
      · simp
      · exact code
      · rw [completed]
        simp

end Whole

theorem stepBound_eq {graph : WorkflowGraph} (valid : maxStepsErrors graph.maxSteps = []) :
    0 < stepBound graph ∧
      (stepBound graph : ℚ) = min (askedSteps graph) workflowMaxStepsCeiling := by
  have asked : ∃ steps : ℤ, 0 < steps ∧ askedSteps graph = steps := by
    unfold askedSteps
    cases steps : graph.maxSteps with
    | none => exact ⟨50, by omega, rfl⟩
    | some steps' =>
      rw [steps] at valid
      cases steps' with
      | nan => cases valid
      | infinite negative => cases valid
      | finite value =>
        unfold maxStepsErrors at valid
        dsimp only at valid
        split at valid
        · rename_i whole
          obtain ⟨integer, positive⟩ := whole
          have same := Rat.coe_int_num_of_den_eq_one integer
          exact ⟨value.num, Rat.num_pos.mpr positive, (if_pos positive).trans same.symm⟩
        · cases valid
  obtain ⟨steps, positive, asked⟩ := asked
  have clamped : min (askedSteps graph) workflowMaxStepsCeiling = ((min steps 500 : ℤ) : ℚ) := by
    rw [asked]
    unfold workflowMaxStepsCeiling
    push_cast
    rfl
  have bound : stepBound graph = (min steps 500).toNat := by
    unfold stepBound
    rw [clamped, Rat.ceil_intCast]
  refine ⟨by omega, ?_⟩
  rw [clamped, bound]
  have nonneg : ((min steps 500).toNat : ℤ) = min steps 500 := Int.toNat_of_nonneg (by omega)
  exact_mod_cast nonneg

/-- A run of a graph as a walk: the nodes executed, the edges between them, and the end. -/
structure LawfulRun (js : JsCoercions) (runner : WorkflowNodeRunner) (graph : WorkflowGraph)
    (runId : String) (options : WorkflowRunOptions) (result : WorkflowRunResult)
    (visits : List Visit) (edges : List WorkflowEdge) : Prop where
  visited : result.visited = visits.map (·.node.id)
  traversed : result.traversedEdges = edges.map (·.id)
  traces : result.nodes = visits.map Visit.trace
  bounded : (visits.length : ℚ) ≤ min (askedSteps graph) workflowMaxStepsCeiling
  entry : ∃ visit ∈ visits.head?, visit.node.id = graph.entryNodeId ∧ visit.viaEdgeId = none
  executed : Executed runner graph runId 0 { input := options.input, context := options.context }
    visits
  linked : Linked js graph result visits edges
  followed : visits.length ≤ edges.length + 1
  found : result.failureCode ≠ some .nodeNotFound
  completed : result.status = .completed ↔
    ∃ visit, visits.getLast? = some visit ∧ visit.Final js graph

def retryLoop : WorkflowGraph where
  id := "g"
  entryNodeId := "a"
  nodes := [{ id := "a", kind := "step" }]
  edges := [{ id := "again", kind := .sequential, source := "a", target := "a" }]
  maxSteps := some (.finite 1)

def coercions : JsCoercions := ⟨fun _ => .nan, fun _ => "", fun _ _ => false⟩

def greenRunner : WorkflowNodeRunner := fun _ _ _ => .ok { ok := true }

end EverWorks.Workflow
