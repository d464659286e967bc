import EverWorks.Policy.MergePolicy
import EverWorks.Tasks.Alone
import EverWorks.Tasks.TaskTemplates

/-!
# The tasks of a template

A template is expanded into one parent task and one sub-task for each of its steps; a sub-task waits for those of the steps
that its own depends on.
-/

namespace EverWorks.Tasks.Templates
open Lib List JsString

inductive TaskPriority where
  | p0 | p1 | p2 | p3 | p4
  deriving DecidableEq

structure TaskTemplate (Repo : Type) where
  name : String
  slug : String
  labels : Option (List String) := none
  steps : List (TaskTemplateStep Repo)

structure InstantiateTemplateInput where
  title : String
  description : Option String := none
  workId : Option String := none
  missionId : Option String := none
  ideaId : Option String := none
  branchName : Option String := none
  priority : Option TaskPriority := none

structure WorkRow where
  userId : String
  taskIsolationBaseBranch : Option String := none

/-- What a call reads and is given; a repository that is not wired is none. -/
structure TaskTemplatesService (Repo : Type) where
  userId : String
  case : JsString.LowerCase
  works : Option (String → Option WorkRow)
  ownsMission : Option (String → Bool)
  ownsIdea : Option (String → Bool)
  reachesAgent : Option (String → Bool)
  normalizeTaskExtraRepos : List Repo → Checked (List Repo)
  slugNumbers : ℕ → ℕ
  newId : ℕ → TaskId

/-- A task as it is created. -/
structure CreatedTask (Repo : Type) where
  id : TaskId
  userId : String
  slug : String
  title : String
  description : String
  status : TaskStatus
  priority : TaskPriority
  labels : Option (List String)
  workId : Option String
  missionId : Option String
  ideaId : Option String
  extraRepos : Option (List Repo)
  parentTaskId : Option TaskId
  createdById : String
  requireAllApprovers : Bool
  branchRef : Option String

/-- What a call ends with when it does not go through. -/
inductive Failure where
  | badRequest (message : String)
  | duplicateKey
  /-- `subtasks[dep].id` where there is no such sub-task. -/
  | undefinedSubtask
  deriving DecidableEq

structure Tree (Repo : Type) where
  tasks : List (CreatedTask Repo) := []
  blocks : List TaskBlock := []
  agentAssignees : List (TaskId × String) := []
  userApprovers : List (TaskId × String) := []

def truthy (text : Option String) : Option String := text.filter (· ≠ "")

variable {Repo : Type}

/-! ## The guards -/

section
variable (service : TaskTemplatesService Repo)

def assertWorkReachable (workId notFoundMessage : String) : Checked Unit :=
  match service.works with
  | none => .error "Work repository not wired in this context."
  | some find =>
    match find workId with
    | none => .error notFoundMessage
    | some work => if work.userId ≠ service.userId then .error notFoundMessage else .ok ()

def assertOwned (owns : Option (String → Bool)) (kind id : String) : Checked Unit :=
  match owns with
  | none => .error s!"{kind} repository not wired in this context."
  | some owns => if owns id then .ok () else .error s!"{kind} {id} not found."

def assertOwnersReachable (input : InstantiateTemplateInput) : Checked Unit := do
  (truthy input.workId).elim (.ok ()) fun workId => assertWorkReachable service workId s!"Work {workId} not found."
  (truthy input.missionId).elim (.ok ()) (assertOwned service.ownsMission "Mission")
  (truthy input.ideaId).elim (.ok ()) (assertOwned service.ownsIdea "Idea")

def stepScope (step : TaskTemplateStep Repo) : Checked (Option (List Repo)) := do
  (truthy step.workId).elim (.ok ()) fun workId =>
    assertWorkReachable service workId s!"Work {workId} on step {step.position} is not reachable for this user."
  match step.extraRepos with
  | none => return none
  | some repos =>
    match service.normalizeTaskExtraRepos repos with
    | .ok normalized => return some normalized
    | .error message => throw s!"Step {step.position}: {message}"

def assertStepScopesReachable : List (TaskTemplateStep Repo) → Checked (List (ℕ × Option (List Repo)))
  | [] => .ok []
  | step :: rest => do
    let normalized ← stepScope service step
    let later ← assertStepScopesReachable rest
    return (step.position, normalized) :: later

/-- `byPosition.get(position) ?? null`; the last entry of a position counts. -/
def extraReposAt (byPosition : List (ℕ × Option (List Repo))) (position : ℕ) : Option (List Repo) :=
  ((byPosition.reverse.find? fun entry => entry.1 = position).map (·.2)).join

def protectedTaskBranchReason (branch baseRef : Option String) : Option String :=
  match branch with
  | none => none
  | some branch =>
    let normalize := Policy.normalizeBranch service.case
    if trim branch = "" then none
    else if normalize branch ∈ Policy.platformDefaultMergePolicy.protectedBranches.map normalize then
      some s!"'{JsString.trim branch}' is a protected branch"
    else if (truthy baseRef).any fun baseRef => normalize baseRef = normalize branch then
      some s!"'{JsString.trim branch}' is this Work's base branch"
    else none

/-- `slice(0, n)`, in characters. -/
def firstOf (n : ℕ) (text : String) : String := String.ofList (text.toList.take n)

def branchRefOf (input : InstantiateTemplateInput) : Option String :=
  input.branchName.bind fun name => if trim name = "" then none else some (firstOf 200 (trim name))

def workBaseBranch (input : InstantiateTemplateInput) : Option String := do
  let _ ← truthy (branchRefOf input)
  let workId ← truthy input.workId
  let find ← service.works
  let work ← find workId
  work.taskIsolationBaseBranch

/-- The guards of an expansion, in order; what they leave are the repositories of each step. -/
def guards (template : TaskTemplate Repo) (input : InstantiateTemplateInput) :
    Checked (List (ℕ × Option (List Repo))) := do
  if length (trim input.title) = 0 then throw "title is required."
  if 200 < length input.title then throw "title exceeds 200 characters."
  if template.steps.length = 0 then throw "Template has no steps to instantiate."
  assertOwnersReachable service input
  let byPosition ← assertStepScopesReachable service template.steps
  match protectedTaskBranchReason service (branchRefOf input) (workBaseBranch service input) with
  | some reason => throw s!"branchName: {reason}. A Task branch must be a new working branch."
  | none => return byPosition

end

/-! ## The transaction -/

def joinLines (lines : List String) : String := trim (String.intercalate "\n" lines)

def describing (input : InstantiateTemplateInput) : List String :=
  (input.description.map trim).toList.filter (· ≠ "")

def buildParentDescription (template : TaskTemplate Repo) (input : InstantiateTemplateInput) : String :=
  joinLines (describing input ++ ["", s!"Instantiated from template: {template.name} ({template.slug})"])

def buildStepDescription (step : TaskTemplateStep Repo) (input : InstantiateTemplateInput) : String :=
  joinLines (describing input ++ match (step.prompt.map trim).filter (· ≠ "") with
    | none => []
    | some prompt => ["", "## Agent prompt", "", prompt])

section
variable (service : TaskTemplatesService Repo) (template : TaskTemplate Repo) (input : InstantiateTemplateInput)

def parentTask : CreatedTask Repo where
  id := service.newId 0
  userId := service.userId
  slug := s!"T-{service.slugNumbers 0}"
  title := trim input.title
  description := buildParentDescription template input
  status := .todo
  priority := input.priority.getD .p2
  labels := template.labels
  workId := input.workId
  missionId := input.missionId
  ideaId := input.ideaId
  extraRepos := none
  parentTaskId := none
  createdById := service.userId
  requireAllApprovers := true
  branchRef := branchRefOf input

def subtaskOf (byPosition : List (ℕ × Option (List Repo))) (i : ℕ) (step : TaskTemplateStep Repo) : CreatedTask Repo where
  id := service.newId (i + 1)
  userId := service.userId
  slug := s!"T-{service.slugNumbers (i + 1)}"
  title := step.title
  description := buildStepDescription step input
  status := .todo
  priority := input.priority.getD .p2
  labels := template.labels
  workId := step.workId.or input.workId
  missionId := input.missionId
  ideaId := input.ideaId
  extraRepos := extraReposAt byPosition step.position
  parentTaskId := some (service.newId 0)
  createdById := service.userId
  requireAllApprovers := true
  branchRef := none

def saveTask (tree : Tree Repo) (task : CreatedTask Repo) : Except Failure (Tree Repo) :=
  if tree.tasks.any (·.id = task.id) then .error .duplicateKey else .ok { tree with tasks := tree.tasks ++ [task] }

def saveBlock (tree : Tree Repo) (block : TaskBlock) : Except Failure (Tree Repo) :=
  if block ∈ tree.blocks then .error .duplicateKey else .ok { tree with blocks := tree.blocks ++ [block] }

def subtaskAt (subtasks : List (CreatedTask Repo)) (dep : JsNumber) : Except Failure (CreatedTask Repo) :=
  match dep.index.bind (subtasks[·]?) with
  | none => .error .undefinedSubtask
  | some subtask => .ok subtask

def saveDependency (subtasks : List (CreatedTask Repo)) (tree : Tree Repo) (edge : ℕ × JsNumber) :
    Except Failure (Tree Repo) := do
  let waiting ← subtaskAt subtasks edge.1
  let blocker ← subtaskAt subtasks edge.2
  saveBlock tree ⟨waiting.id, blocker.id⟩

def edges (steps : List (TaskTemplateStep Repo)) : List (ℕ × JsNumber) :=
  (List.range steps.length).flatMap fun i => (dependsOn steps i).map fun dep => (i, dep)

def assign (tree : Tree Repo) (step : TaskTemplateStep Repo) (subtask : CreatedTask Repo) : Tree Repo :=
  { tree with
    agentAssignees := tree.agentAssignees ++
      ((truthy step.agentId).filter fun agentId => service.reachesAgent.any (· agentId)).toList.map (subtask.id, ·)
    userApprovers := tree.userApprovers ++ if step.requiresApproval then [(subtask.id, service.userId)] else [] }

/-- The parent and the sub-tasks, and what the transaction has saved. -/
structure Instantiated (Repo : Type) where
  parentTask : CreatedTask Repo
  subtasks : List (CreatedTask Repo)
  tree : Tree Repo

def instantiateTemplate : Except Failure (Instantiated Repo) := do
  match guards service template input with
  | .error message => throw (.badRequest message)
  | .ok byPosition =>
    let parent := parentTask service template input
    let subtasks := template.steps.mapIdx (subtaskOf service template input byPosition)
    let saved ← (parent :: subtasks).foldlM saveTask {}
    let wired ← (edges template.steps).foldlM (saveDependency subtasks) saved
    return ⟨parent, subtasks, (template.steps.zip subtasks).foldl (fun tree pair => assign service tree pair.1 pair.2) wired⟩

end

/-! ## Saving -/

section
variable {service : TaskTemplatesService Repo} {template : TaskTemplate Repo} {input : InstantiateTemplateInput}

theorem saveTasks_eq (tree : Tree Repo) (tasks : List (CreatedTask Repo)) (distinct : (tree.tasks.map (·.id)).Nodup) :
    tasks.foldlM saveTask tree =
      if ((tree.tasks ++ tasks).map (·.id)).Nodup then .ok { tree with tasks := tree.tasks ++ tasks }
      else .error .duplicateKey := by
  induction tasks generalizing tree with
  | nil =>
    rw [append_nil, if_pos distinct]
    rfl
  | cons task rest ih =>
    rw [foldlM_cons, saveTask]
    by_cases taken : tree.tasks.any (·.id = task.id)
    · rw [if_pos taken, if_neg]
      · rfl
      · intro single
        obtain ⟨other, listed, same⟩ := any_eq_true.mp taken
        rw [map_append, map_cons] at single
        refine (nodup_append.mp single).2.2 _ (mem_map_of_mem listed) _ mem_cons_self ?_
        exact of_decide_eq_true same
    · rw [if_neg taken]
      have fresh : ((tree.tasks ++ [task]).map (·.id)).Nodup := by
        rw [map_append]
        refine distinct.append (nodup_singleton _) ?_
        intro id listed here
        obtain rfl := mem_singleton.mp here
        obtain ⟨other, present, same⟩ := mem_map.mp listed
        exact taken (any_eq_true.mpr ⟨other, present, decide_eq_true same⟩)
      show rest.foldlM saveTask { tree with tasks := tree.tasks ++ [task] } = _
      rw [ih _ fresh, append_assoc, singleton_append]

def blockOf (service : TaskTemplatesService Repo) (pair : ℕ × ℕ) : TaskBlock :=
  ⟨service.newId (pair.1 + 1), service.newId (pair.2 + 1)⟩

theorem saveDependencies_eq {subtasks : List (CreatedTask Repo)} {pairs : List (ℕ × ℕ)} (tree : Tree Repo)
    (known : ∀ pair ∈ pairs, ∃ waiting blocker, subtasks[pair.1]? = some waiting ∧ subtasks[pair.2]? = some blocker ∧
      (⟨waiting.id, blocker.id⟩ : TaskBlock) = blockOf service pair)
    (single : (tree.blocks ++ pairs.map (blockOf service)).Nodup) :
    (pairs.map fun pair => (pair.1, (pair.2 : JsNumber))).foldlM (saveDependency subtasks) tree =
      .ok { tree with blocks := tree.blocks ++ pairs.map (blockOf service) } := by
  induction pairs generalizing tree with
  | nil =>
    rw [map_nil, map_nil, append_nil]
    rfl
  | cons pair rest ih =>
    obtain ⟨waiting, blocker, first, second, block⟩ := known pair mem_cons_self
    have there (j : ℕ) : subtaskAt subtasks j = (subtasks[j]?).elim (.error .undefinedSubtask) .ok := by
      rw [subtaskAt, JsNumber.index_cast, Option.bind_some]
      cases subtasks[j]? with
      | none => rfl
      | some subtask => rfl
    rw [map_cons] at single
    have fresh : blockOf service pair ∉ tree.blocks :=
      fun again => (nodup_append.mp single).2.2 _ again _ mem_cons_self rfl
    have saved : saveDependency subtasks tree (pair.1, (pair.2 : JsNumber)) =
        .ok { tree with blocks := tree.blocks ++ [blockOf service pair] } := by
      rw [saveDependency, there, there, first, second]
      show saveBlock tree ⟨waiting.id, blocker.id⟩ = _
      rw [block, saveBlock, if_neg fresh]
    rw [map_cons, foldlM_cons, saved]
    show (rest.map _).foldlM (saveDependency subtasks) { tree with blocks := tree.blocks ++ [blockOf service pair] } = _
    rw [ih _ (fun pair listed => known pair (mem_cons_of_mem _ listed)) (by rwa [append_assoc]),
      append_assoc, map_cons, singleton_append]

theorem assign_kept (pairs : List (TaskTemplateStep Repo × CreatedTask Repo)) (tree : Tree Repo) :
    (pairs.foldl (fun tree pair => assign service tree pair.1 pair.2) tree).tasks = tree.tasks ∧
      (pairs.foldl (fun tree pair => assign service tree pair.1 pair.2) tree).blocks = tree.blocks := by
  induction pairs generalizing tree with
  | nil => exact ⟨rfl, rfl⟩
  | cons pair rest ih => exact ih (assign service tree pair.1 pair.2)

/-! ## The graph of a tree -/

def findStepsByTemplateId (rows : List (TaskTemplateStep Repo)) : List (TaskTemplateStep Repo) :=
  rows.mergeSort fun first second => first.position ≤ second.position

/-- The steps with their repositories as they were normalised when the template was written. -/
def withRepos (repos : ℕ → Option (List Repo)) (steps : List (TaskTemplateStep Repo)) : List (TaskTemplateStep Repo) :=
  steps.map fun step => { step with extraRepos := repos step.position }

/-- One sub-task for each step, below the parent, which waits for those of the steps it depends on and for no others. -/
structure Expands (inputs : List (TaskTemplateStepInput Repo)) (created : Instantiated Repo) : Prop where
  saved : created.tree.tasks = created.parentTask :: created.subtasks
  distinct : (created.tree.tasks.map (·.id)).Nodup
  length : created.subtasks.length = inputs.length
  titles : created.subtasks.map (·.title) = inputs.map fun step => trim step.title
  children : ∀ subtask ∈ created.subtasks, subtask.parentTaskId = some created.parentTask.id
  waits : ∀ (i j : ℕ) (waiting blocker : CreatedTask Repo), created.subtasks[i]? = some waiting →
    created.subtasks[j]? = some blocker → (⟨waiting.id, blocker.id⟩ ∈ created.tree.blocks ↔ DependsOn inputs i j)
  inside : ∀ block ∈ created.tree.blocks, block.taskId ∈ created.subtasks.map (·.id) ∧
    block.blockedByTaskId ∈ created.subtasks.map (·.id)
  single : created.tree.blocks.Nodup

section
variable {inputs : List (TaskTemplateStepInput Repo)} {steps : List (TaskTemplateStep Repo)}

def places (steps : List (TaskTemplateStep Repo)) : List (ℕ × ℕ) :=
  (List.range steps.length).flatMap fun i => (preds steps i).map fun j => (i, j)

theorem mem_places {i j : ℕ} : (i, j) ∈ places steps ↔ i < steps.length ∧ j ∈ preds steps i := by
  rw [places, mem_flatMap]
  constructor
  · rintro ⟨k, less, listed⟩
    obtain ⟨l, named, same⟩ := mem_map.mp listed
    obtain ⟨rfl, rfl⟩ := Prod.mk.inj same
    exact ⟨mem_range.mp less, named⟩
  · rintro ⟨less, named⟩
    exact ⟨i, mem_range.mpr less, mem_map_of_mem named⟩

theorem places_nodup (placed : Placed steps) : (places steps).Nodup := by
  refine nodup_flatMap.mpr ⟨fun i _ => (placed.single i).map fun a b same => (Prod.mk.inj same).2, ?_⟩
  refine nodup_range.imp fun {a b} apart => ?_
  intro pair first second
  obtain ⟨_, -, rfl⟩ := mem_map.mp first
  obtain ⟨_, -, same⟩ := mem_map.mp second
  exact apart (Prod.mk.inj same).1.symm

theorem edges_eq (placed : Placed steps) :
    edges steps = (places steps).map fun pair => (pair.1, (pair.2 : JsNumber)) := by
  rw [edges, places, map_flatMap]
  refine flatMap_congr fun i _ => ?_
  rw [placed.cast, List.map_map, List.map_map]
  rfl

theorem getElem?_withRepos (repos : ℕ → Option (List Repo)) (i : ℕ) : (withRepos repos steps)[i]? =
    steps[i]?.map fun step => { step with extraRepos := repos step.position } := getElem?_map

theorem dependsOn_withRepos (repos : ℕ → Option (List Repo)) (i : ℕ) :
    dependsOn (withRepos repos steps) i = dependsOn steps i := by
  rw [dependsOn, getElem?_withRepos, dependsOn]
  cases steps[i]? with
  | none => rfl
  | some step => rfl

theorem Placed.withRepos (placed : Placed steps) (repos : ℕ → Option (List Repo)) :
    Placed (withRepos repos steps) := by
  have same (i : ℕ) : preds (Templates.withRepos repos steps) i = preds steps i := by
    rw [preds, dependsOn_withRepos, preds]
  constructor
  · intro i
    rw [dependsOn_withRepos, same]
    exact placed.cast i
  · intro i j listed
    rw [same] at listed
    rw [Templates.withRepos, length_map]
    exact placed.inside i j listed
  · intro i
    rw [same]
    exact placed.single i

theorem findSteps_of_perm {repos : ℕ → Option (List Repo)} {rows : List (TaskTemplateStep Repo)}
    (stored : rows.Perm (withRepos repos (storedSteps inputs))) :
    findStepsByTemplateId rows = withRepos repos (storedSteps inputs) := by
  have positions (i : ℕ) (step : TaskTemplateStep Repo)
      (found : (withRepos repos (storedSteps inputs))[i]? = some step) : step.position = i := by
    rw [getElem?_withRepos, getElem?_storedSteps] at found
    cases input : inputs[i]? with
    | none =>
      rw [input] at found
      cases found
    | some given =>
      rw [input] at found
      obtain rfl := Option.some.inj found
      rfl
  have climbing : (withRepos repos (storedSteps inputs)).Pairwise fun first second => first.position < second.position := by
    rw [pairwise_iff_getElem]
    intro i j first second less
    rw [positions i _ (getElem?_eq_getElem first), positions j _ (getElem?_eq_getElem second)]
    exact less
  have sorted : (findStepsByTemplateId rows).Pairwise fun first second => first.position ≤ second.position := by
    have := @pairwise_mergeSort _
      (fun first second : TaskTemplateStep Repo => decide (first.position ≤ second.position)) (by intro a b c first second; simp at *; omega) (by intro a b; simp; omega) rows
    rw [findStepsByTemplateId]
    simpa using this
  have perm : (findStepsByTemplateId rows).Perm (withRepos repos (storedSteps inputs)) :=
    (mergeSort_perm _ _).trans stored
  refine perm.eq_of_pairwise ?_ sorted (climbing.imp fun less => less.le)
  intro first second inFirst inSecond le ge
  obtain ⟨i, less, rfl⟩ := mem_iff_getElem.mp (perm.subset inFirst)
  obtain ⟨j, less', rfl⟩ := mem_iff_getElem.mp inSecond
  rw [positions i _ (getElem?_eq_getElem less), positions j _ (getElem?_eq_getElem less')] at le ge
  obtain rfl : i = j := Nat.le_antisymm le ge
  rfl

theorem subtasks_ids (byPosition : List (ℕ × Option (List Repo))) (steps : List (TaskTemplateStep Repo)) :
    (steps.mapIdx (subtaskOf service template input byPosition)).map (·.id) =
      (List.range steps.length).map fun i => service.newId (i + 1) := by
  refine ext_getElem (by simp) fun i first second => ?_
  rw [getElem_map, getElem_mapIdx, getElem_map, getElem_range]
  rfl

theorem all_ids (byPosition : List (ℕ × Option (List Repo))) (steps : List (TaskTemplateStep Repo)) :
    (parentTask service template input :: steps.mapIdx (subtaskOf service template input byPosition)).map (·.id) =
      (List.range (steps.length + 1)).map service.newId := by
  rw [map_cons, subtasks_ids, range_succ_eq_map, map_cons, List.map_map]
  rfl

theorem getElem?_subtasks {byPosition : List (ℕ × Option (List Repo))} {steps : List (TaskTemplateStep Repo)} {i : ℕ}
    {subtask : CreatedTask Repo}
    (found : (steps.mapIdx (subtaskOf service template input byPosition))[i]? = some subtask) :
    ∃ step, steps[i]? = some step ∧ subtask = subtaskOf service template input byPosition i step := by
  rw [getElem?_mapIdx] at found
  obtain ⟨step, listed, same⟩ := Option.map_eq_some_iff.mp found
  exact ⟨step, listed, same.symm⟩

theorem blockOf_injOn (distinct : ((List.range (steps.length + 1)).map service.newId).Nodup) {first second : ℕ × ℕ}
    (inFirst : first.1 < steps.length ∧ first.2 < steps.length)
    (inSecond : second.1 < steps.length ∧ second.2 < steps.length)
    (same : blockOf service first = blockOf service second) : first = second := by
  have unique {i j : ℕ} (less : i < steps.length) (less' : j < steps.length)
      (same : service.newId (i + 1) = service.newId (j + 1)) : i = j :=
    Nat.succ_injective (inj_on_of_nodup_map distinct (mem_range.mpr (Nat.succ_lt_succ less))
      (mem_range.mpr (Nat.succ_lt_succ less')) same)
  have waiting := congrArg TaskBlock.taskId same
  have blocker := congrArg TaskBlock.blockedByTaskId same
  exact Prod.ext (unique inFirst.1 inSecond.1 waiting) (unique inFirst.2 inSecond.2 blocker)

theorem instantiateTemplate_eq (placed : Placed template.steps) :
    instantiateTemplate service template input =
      match guards service template input with
      | .error message => .error (.badRequest message)
      | .ok byPosition =>
        let subtasks := template.steps.mapIdx (subtaskOf service template input byPosition)
        if ((List.range (template.steps.length + 1)).map service.newId).Nodup then
          .ok ⟨parentTask service template input, subtasks,
            (template.steps.zip subtasks).foldl (fun tree pair => assign service tree pair.1 pair.2)
              { tasks := parentTask service template input :: subtasks
                blocks := (places template.steps).map (blockOf service) }⟩
        else .error .duplicateKey := by
  unfold instantiateTemplate
  cases guards service template input with
  | error message => rfl
  | ok byPosition =>
    dsimp only
    generalize same : template.steps.mapIdx (subtaskOf service template input byPosition) = subtasks
    have ids : (parentTask service template input :: subtasks).map (·.id) =
        (List.range (template.steps.length + 1)).map service.newId := same ▸ all_ids byPosition template.steps
    rw [saveTasks_eq {} _ nodup_nil, nil_append, ids]
    split
    · rename_i distinct
      have found {i : ℕ} (less : i < template.steps.length) : ∃ subtask, subtasks[i]? = some subtask ∧
          subtask.id = service.newId (i + 1) := by
        refine ⟨subtaskOf service template input byPosition i template.steps[i], ?_, rfl⟩
        rw [← same, getElem?_mapIdx, getElem?_eq_getElem less]
        rfl
      have known : ∀ pair ∈ places template.steps, ∃ waiting blocker, subtasks[pair.1]? = some waiting ∧
          subtasks[pair.2]? = some blocker ∧ (⟨waiting.id, blocker.id⟩ : TaskBlock) = blockOf service pair := by
        intro pair listed
        obtain ⟨less, named⟩ := mem_places.mp listed
        obtain ⟨waiting, first, id⟩ := found less
        obtain ⟨blocker, second, id'⟩ := found (placed.inside _ _ named)
        exact ⟨waiting, blocker, first, second, by rw [id, id', blockOf]⟩
      have inside : ∀ pair ∈ places template.steps, pair.1 < template.steps.length ∧ pair.2 < template.steps.length :=
        fun pair listed => ⟨(mem_places.mp listed).1, placed.inside _ _ (mem_places.mp listed).2⟩
      have single : ((places template.steps).map (blockOf service)).Nodup :=
        (places_nodup placed).map_on fun first inFirst second inSecond same =>
          blockOf_injOn distinct (inside first inFirst) (inside second inSecond) same
      show ((edges template.steps).foldlM (saveDependency subtasks) { tasks := parentTask service template input :: subtasks } >>=
        _) = _
      rw [edges_eq placed, saveDependencies_eq _ known (by simpa using single)]
      rfl
    · rfl

theorem expands (positions : PositionsOfOthers inputs) {repos : ℕ → Option (List Repo)}
    (read : template.steps = withRepos repos (storedSteps inputs)) {created : Instantiated Repo}
    (went : instantiateTemplate service template input = .ok created) : Expands inputs created := by
  have placed : Placed template.steps := read ▸ (placed_of_positions positions).withRepos repos
  have count : template.steps.length = inputs.length := by
    rw [read, withRepos, length_map, storedSteps, length_mapIdx]
  have named (i j : ℕ) : j ∈ preds template.steps i ↔ DependsOn inputs i j := by
    rw [← mem_preds_storedSteps positions, preds, read, dependsOn_withRepos, preds]
  rw [instantiateTemplate_eq placed] at went
  cases guarded : guards service template input with
  | error message =>
    rw [guarded] at went
    cases went
  | ok byPosition =>
    rw [guarded] at went
    dsimp only at went
    split at went
    case isFalse => cases went
    rename_i distinct
    obtain rfl := Except.ok.inj went
    have kept := @assign_kept Repo service
    have idOf {i : ℕ} {subtask : CreatedTask Repo}
        (found : (template.steps.mapIdx (subtaskOf service template input byPosition))[i]? = some subtask) :
        i < template.steps.length ∧ subtask.id = service.newId (i + 1) := by
      obtain ⟨step, listed, rfl⟩ := getElem?_subtasks found
      exact ⟨(List.getElem?_eq_some_iff.mp listed).1, rfl⟩
    have within {i : ℕ} (less : i < template.steps.length) : service.newId (i + 1) ∈
        (template.steps.mapIdx (subtaskOf service template input byPosition)).map (·.id) := by
      rw [subtasks_ids]
      exact mem_map.mpr ⟨i, mem_range.mpr less, rfl⟩
    refine ⟨(kept _ _).1, ?_, ?_, ?_, ?_, ?_, ?_, ?_⟩
    · rw [(kept _ _).1, all_ids]
      exact distinct
    · rw [length_mapIdx, count]
    · rw [read]
      refine ext_getElem (by simp [withRepos, storedSteps]) fun i first second => ?_
      simp only [withRepos, storedSteps, getElem_map, getElem_mapIdx]
      rfl
    · intro subtask listed
      obtain ⟨i, less, rfl⟩ := mem_iff_getElem.mp listed
      rw [getElem_mapIdx]
      rfl
    · intro i j waiting blocker first second
      obtain ⟨less, id⟩ := idOf first
      obtain ⟨less', id'⟩ := idOf second
      rw [(kept _ _).2, ← named, id, id', mem_map]
      constructor
      · rintro ⟨pair, listed, same⟩
        obtain ⟨inside, named⟩ := mem_places.mp listed
        obtain rfl := @blockOf_injOn Repo service template.steps distinct pair (i, j) ⟨inside, placed.inside _ _ named⟩ ⟨less, less'⟩ same
        exact named
      · exact fun named => ⟨(i, j), mem_places.mpr ⟨less, named⟩, rfl⟩
    · intro block listed
      rw [(kept _ _).2] at listed
      obtain ⟨pair, place, rfl⟩ := mem_map.mp listed
      obtain ⟨less, named⟩ := mem_places.mp place
      exact ⟨within less, within (placed.inside _ _ named)⟩
    · rw [(kept _ _).2]
      refine (places_nodup placed).map_on fun first inFirst second inSecond same => ?_
      obtain ⟨less, named⟩ := mem_places.mp inFirst
      obtain ⟨less', named'⟩ := mem_places.mp inSecond
      exact blockOf_injOn distinct ⟨less, placed.inside _ _ named⟩ ⟨less', placed.inside _ _ named'⟩ same

end

theorem Expands.start {created : Instantiated Repo} (expands : Expands inputs created)
    (acyclic : Acyclic (DependsOn inputs)) (around : Surroundings) (store : TaskStore)
    (wired : ∀ block ∈ store.blocks, block.taskId ∈ created.subtasks.map (·.id) →
      block.blockedByTaskId ∈ created.subtasks.map (·.id) → block ∈ created.tree.blocks)
    (unfinished : ∃ subtask ∈ created.subtasks, store.isOpen subtask.id = true) :
    ∃ subtask ∈ created.subtasks, store.isOpen subtask.id = true ∧
      ∀ id ∈ ((listOpenBlockerIds subtask.id).eval (serve around) store).value, id ∉ created.subtasks.map (·.id) := by
  let members : Set ℕ := {i | ∃ subtask, created.subtasks[i]? = some subtask ∧ store.isOpen subtask.id = true}
  have finite : members.Finite := by
    refine (Set.finite_lt_nat created.subtasks.length).subset ?_
    rintro i ⟨subtask, found, -⟩
    exact (List.getElem?_eq_some_iff.mp found).1
  obtain ⟨subtask, listed, still⟩ := unfinished
  obtain ⟨i, found⟩ := getElem?_of_mem listed
  obtain ⟨first, ⟨waiting, place, waits⟩, last⟩ := exists_last_of_acyclic acyclic finite ⟨i, subtask, found, still⟩
  refine ⟨waiting, mem_of_getElem? place, waits, fun id blocks inside => ?_⟩
  rw [eval_listOpenBlockerIds] at blocks
  obtain ⟨named, openId⟩ := mem_filter.mp blocks
  obtain ⟨block, row, rfl⟩ := mem_map.mp named
  obtain ⟨stored, mine⟩ := mem_filter.mp row
  have mine : block.taskId = waiting.id := of_decide_eq_true mine
  obtain ⟨blocker, there, same⟩ := mem_map.mp inside
  obtain ⟨j, found⟩ := getElem?_of_mem there
  have own : block ∈ created.tree.blocks :=
    wired block stored (mine ▸ mem_map_of_mem (mem_of_getElem? place)) inside
  have pair : block = ⟨waiting.id, blocker.id⟩ := by rw [← mine, same]
  rw [pair] at own
  exact last j ⟨blocker, found, same ▸ openId⟩ ((expands.waits first j waiting blocker place found).mp own)

end

/-! ## Templates -/

/-- A list of steps is accepted exactly if every dependency is the position of another step and they go round in no circle.
An accepted one, read back by its positions, expands unless a guard refuses or an id comes twice into its own graph, and
then some unfinished sub-task can always be worked on. -/
theorem template_expands (numberText : JsNumber → String) (maxTemplateSteps : ℕ)
    (inputs : List (TaskTemplateStepInput Repo)) (nonempty : inputs ≠ []) (few : inputs.length ≤ maxTemplateSteps)
    (titled : ValidTitles inputs) :
    ((∃ steps, normalizeSteps numberText maxTemplateSteps inputs = .ok steps) ↔
      PositionsOfOthers inputs ∧ Acyclic (DependsOn inputs)) ∧
    ∀ steps, normalizeSteps numberText maxTemplateSteps inputs = .ok steps →
      ∀ (rows : List (TaskTemplateStep Repo)) (repos : ℕ → Option (List Repo)), rows.Perm (withRepos repos steps) →
      ∀ (service : TaskTemplatesService Repo) (template : TaskTemplate Repo) (input : InstantiateTemplateInput),
        template.steps = findStepsByTemplateId rows →
        (∃ message, guards service template input = .error message ∧
          instantiateTemplate service template input = .error (.badRequest message)) ∨
        (¬ ((List.range (inputs.length + 1)).map service.newId).Nodup ∧
          instantiateTemplate service template input = .error .duplicateKey) ∨
        ∃ created, instantiateTemplate service template input = .ok created ∧ Expands inputs created ∧
          ∀ (around : Surroundings) (store : TaskStore),
            (∀ block ∈ store.blocks, block.taskId ∈ created.subtasks.map (·.id) →
              block.blockedByTaskId ∈ created.subtasks.map (·.id) → block ∈ created.tree.blocks) →
            (∃ subtask ∈ created.subtasks, store.isOpen subtask.id = true) →
            ∃ subtask ∈ created.subtasks, store.isOpen subtask.id = true ∧
              ∀ id ∈ ((listOpenBlockerIds subtask.id).eval (serve around) store).value,
                id ∉ created.subtasks.map (·.id) := by
  constructor
  · constructor
    · rintro ⟨steps, accepted⟩
      exact ((normalizeSteps_ok titled nonempty few).mp accepted).2
    · exact fun both => ⟨storedSteps inputs, (normalizeSteps_ok titled nonempty few).mpr ⟨rfl, both⟩⟩
  · intro steps accepted rows repos stored service template input read
    obtain ⟨rfl, positions, acyclic⟩ := (normalizeSteps_ok titled nonempty few).mp accepted
    rw [findSteps_of_perm stored] at read
    have count : template.steps.length = inputs.length := by
      rw [read, withRepos, length_map, storedSteps, length_mapIdx]
    have placed : Placed template.steps := read ▸ (placed_of_positions positions).withRepos repos
    have eq := @instantiateTemplate_eq Repo service template input placed
    rw [count] at eq
    cases guarded : guards service template input with
    | error message =>
      rw [guarded] at eq
      exact .inl ⟨message, rfl, eq⟩
    | ok byPosition =>
      rw [guarded] at eq
      dsimp only at eq
      split at eq
      · have grown := expands positions read eq
        exact .inr (.inr ⟨_, eq, grown, fun around store => grown.start acyclic around store⟩)
      · rename_i clash
        exact .inr (.inl ⟨clash, eq⟩)

def planThenBuild : List (TaskTemplateStepInput Unit) :=
  [{ title := "Plan" }, { title := "Build", dependsOn := some [(0 : ℕ), (0 : ℕ)] }]

theorem planThenBuild_accepted : PositionsOfOthers planThenBuild ∧ Acyclic (DependsOn planThenBuild) :=
  (template_expands (fun _ => "") 30 planThenBuild (cons_ne_nil _ _) (by decide)
    (by unfold ValidTitles; decide)).1.mp
    ⟨storedSteps planThenBuild, rfl⟩

end EverWorks.Tasks.Templates
