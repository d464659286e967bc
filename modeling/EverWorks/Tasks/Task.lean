import Mathlib.Data.List.Nodup
import EverWorks.Lib.Program
import EverWorks.Lib.Table

/-!
The rows a transition reads and writes: the tasks, and the pairs of a task and one that blocks it. Each repository
call is served at once against the store.
-/

namespace EverWorks.Tasks
open Lib List

inductive TaskStatus where
  | backlog | todo | inProgress | inReview | blocked | done | cancelled
  deriving DecidableEq

/-- `ALLOWED`, the legal moves of the state machine. -/
def allowed : TaskStatus → List TaskStatus
  | .backlog => [.todo, .cancelled]
  | .todo => [.inProgress, .blocked, .cancelled]
  | .inProgress => [.inReview, .blocked, .done, .cancelled]
  | .inReview => [.inProgress, .blocked, .done, .cancelled]
  | .blocked => [.todo, .inProgress, .cancelled]
  | .done => [.inProgress]
  | .cancelled => [.backlog, .todo]

def TaskStatus.resolved : TaskStatus → Bool
  | .done | .cancelled => true
  | _ => false

abbrev TaskId := String

structure Task where
  id : TaskId
  status : TaskStatus := .backlog
  previousStatus : Option TaskStatus := none
  labels : List String := []
  requireAllApprovers : Bool := false
  startedAt : Option Nat := none
  completedAt : Option Nat := none
  deriving DecidableEq

/-- `taskId` waits for `blockedByTaskId`. -/
structure TaskBlock where
  taskId : TaskId
  blockedByTaskId : TaskId
  deriving DecidableEq

structure TaskPatch where
  status : TaskStatus
  previousStatus : Option (Option TaskStatus) := none
  labels : Option (List String) := none
  startedAt : Option Nat := none
  completedAt : Option Nat := none

def TaskPatch.apply (patch : TaskPatch) (task : Task) : Task :=
  { task with
    status := patch.status
    previousStatus := patch.previousStatus.getD task.previousStatus
    labels := patch.labels.getD task.labels
    startedAt := patch.startedAt.or task.startedAt
    completedAt := patch.completedAt.or task.completedAt }

@[simp] theorem TaskPatch.apply_id (patch : TaskPatch) (task : Task) : (patch.apply task).id = task.id := rfl

@[simp] theorem TaskPatch.apply_status (patch : TaskPatch) (task : Task) :
    (patch.apply task).status = patch.status := rfl

/-- The two tables, the first with its primary key. -/
structure TaskStore where
  tasks : List Task
  unique : (tasks.map Task.id).Nodup
  blocks : List TaskBlock

namespace TaskStore

def findById (store : TaskStore) (id : TaskId) : Option Task := store.tasks.find? (·.id = id)

def findByTaskId (store : TaskStore) (id : TaskId) : List TaskBlock := store.blocks.filter (·.taskId = id)

def findTasksBlockedBy (store : TaskStore) (blockedByTaskId : TaskId) : List TaskId :=
  (store.blocks.filter (·.blockedByTaskId = blockedByTaskId)).map (·.taskId)

def updateTask (store : TaskStore) (id : TaskId) (patch : TaskPatch) : TaskStore :=
  { store with
    tasks := Table.update Task.id id patch.apply store.tasks
    unique := by rw [Table.map_update Task.id (TaskPatch.apply_id patch)]; exact store.unique }

/-- `UPDATE … WHERE id = ? AND status = ?`, and whether it found its row. -/
def casUpdateStatus (store : TaskStore) (id : TaskId) (expectedStatus : TaskStatus) (patch : TaskPatch) :
    Bool × TaskStore :=
  match store.findById id with
  | some task => if task.status = expectedStatus then (true, store.updateTask id patch) else (false, store)
  | none => (false, store)

variable {store : TaskStore}

theorem findById_mem {id : TaskId} {task : Task} (found : store.findById id = some task) :
    task ∈ store.tasks ∧ task.id = id :=
  ⟨mem_of_find?_eq_some found, by simpa using find?_some found⟩

theorem findById_of_mem {task : Task} (listed : task ∈ store.tasks) :
    store.findById task.id = some task := by
  obtain ⟨other, found⟩ : ∃ other, store.findById task.id = some other := by
    rw [← Option.isSome_iff_exists, findById, find?_isSome]
    exact ⟨task, listed, by simp⟩
  obtain ⟨listed', same⟩ := findById_mem found
  rw [found, inj_on_of_nodup_map store.unique listed' listed same]

theorem findById_eq_some {id : TaskId} {task : Task} :
    store.findById id = some task ↔ task ∈ store.tasks ∧ task.id = id := by
  refine ⟨findById_mem, ?_⟩
  rintro ⟨listed, rfl⟩
  exact findById_of_mem listed

@[simp] theorem blocks_updateTask (store : TaskStore) (id : TaskId) (patch : TaskPatch) :
    (store.updateTask id patch).blocks = store.blocks := rfl

theorem findById_updateTask (store : TaskStore) (id other : TaskId) (patch : TaskPatch) :
    (store.updateTask id patch).findById other =
      if other = id then (store.findById other).map patch.apply else store.findById other := by
  ext task
  simp only [findById_eq_some, updateTask, Table.mem_update]
  split
  · rename_i same
    subst same
    simp only [Option.map_eq_some_iff, findById_eq_some]
    constructor
    · rintro ⟨⟨old, listed, ⟨here, rfl⟩ | ⟨there, rfl⟩⟩, named⟩
      · exact ⟨old, ⟨listed, here⟩, rfl⟩
      · exact absurd named there
    · rintro ⟨old, ⟨listed, here⟩, rfl⟩
      exact ⟨⟨old, listed, .inl ⟨here, rfl⟩⟩, here⟩
  · rename_i different
    rw [findById_eq_some]
    constructor
    · rintro ⟨⟨old, listed, ⟨here, rfl⟩ | ⟨there, rfl⟩⟩, named⟩
      · exact absurd (named.symm.trans here) different
      · exact ⟨listed, named⟩
    · rintro ⟨listed, named⟩
      exact ⟨⟨task, listed, .inr ⟨named ▸ different, rfl⟩⟩, named⟩

end TaskStore

inductive RefusingGate where
  | red | skipped
  deriving DecidableEq

inductive TaskCall where
  | findById (id : TaskId)
  | findByTaskId (id : TaskId)
  | findTasksBlockedBy (blockedByTaskId : TaskId)
  | casUpdateStatus (id : TaskId) (expectedStatus : TaskStatus) (patch : TaskPatch)
  | allApproved (id : TaskId)
  | findRefusingGateStatus (id : TaskId)

abbrev TaskReply : TaskCall → Type
  | .findById _ => Option Task
  | .findByTaskId _ => List TaskBlock
  | .findTasksBlockedBy _ => List TaskId
  | .casUpdateStatus .. => Bool
  | .allApproved _ => Bool
  | .findRefusingGateStatus _ => Option RefusingGate

/-- What a transition finds beside the two tables. -/
structure Surroundings where
  allApproved : TaskId → Bool
  refusingGate : TaskId → Option RefusingGate
  agentTransitionsNoFanOut : Bool := true
  agentMayLiftBlock : Bool := false
  now : Nat := 0

def serve (around : Surroundings) : (request : TaskCall) → TaskStore → TaskReply request × TaskStore
  | .findById id, store => (store.findById id, store)
  | .findByTaskId id, store => (store.findByTaskId id, store)
  | .findTasksBlockedBy id, store => (store.findTasksBlockedBy id, store)
  | .casUpdateStatus id expectedStatus patch, store => store.casUpdateStatus id expectedStatus patch
  | .allApproved id, store => (around.allApproved id, store)
  | .findRefusingGateStatus id, store => (around.refusingGate id, store)

/-- A cascade a resolved task starts, with what its move suppressed. -/
structure Cascade where
  blockerTaskId : TaskId
  suppressAgentDispatch : Bool := false
  suppressAgentFanOut : Bool := false

abbrev TaskProgram := Program TaskCall TaskReply Cascade

end EverWorks.Tasks

/-!
## The shortest legal path

`shortestTransitionPath` searches the table breadth first; equally short paths resolve by its order.
-/

namespace EverWorks.Tasks

/-- The entries of `previous`, each status with the one it was reached from. -/
abbrev Previous := List (TaskStatus × TaskStatus)

/-- The path from the start to `cursor`, put before `path`. -/
def tracePath (previous : Previous) (source : TaskStatus) : Nat → TaskStatus → List TaskStatus → List TaskStatus
  | 0, _, path => path
  | steps + 1, cursor, path =>
    if cursor = source then path
    else tracePath previous source steps ((previous.lookup cursor).getD source) (cursor :: path)

/-- The statuses next to `current` that were not seen: the path, if the target is one of them, or what is
known and queued after them. -/
def visitNext (source target current : TaskStatus) :
    List TaskStatus → Previous × List TaskStatus → Except (List TaskStatus) (Previous × List TaskStatus)
  | [], found => .ok found
  | next :: rest, (previous, queue) =>
    if next = source || (previous.lookup next).isSome then visitNext source target current rest (previous, queue)
    else
      let previous := previous ++ [(next, current)]
      if next = target then .error (tracePath previous source previous.length current [target])
      else visitNext source target current rest (previous, queue ++ [next])

def searchPath (source target : TaskStatus) (table : TaskStatus → List TaskStatus) :
    Nat → Previous → List TaskStatus → Option (List TaskStatus)
  | 0, _, _ => none
  | _, _, [] => none
  | steps + 1, previous, current :: queue =>
    match visitNext source target current (table current) (previous, queue) with
    | .error path => some path
    | .ok (previous, queue) => searchPath source target table steps previous queue

def shortestTransitionPath (source target : TaskStatus) (table : TaskStatus → List TaskStatus) :
    Option (List TaskStatus) :=
  if source = target then some [] else searchPath source target table 7 [] [source]

theorem searchPath_enough {source target : TaskStatus} (different : source ≠ target) (more : Nat) :
    searchPath source target allowed (more + 7) [] [source] = searchPath source target allowed 7 [] [source] := by
  cases source <;> cases target <;> first | rfl | exact absurd rfl different

/-- A walk to an unresolved status meets a resolved one exactly on its way to the backlog. -/
theorem shortestTransitionPath_resolved {source target : TaskStatus} {path : List TaskStatus}
    (unresolved : target.resolved = false) (found : shortestTransitionPath source target allowed = some path) :
    (∃ hop ∈ path, hop.resolved = true) ↔ target = .backlog ∧ source ≠ .backlog ∧ source ≠ .cancelled := by
  cases source <;> cases target <;> first
    | exact absurd unresolved (by decide)
    | (obtain rfl := Option.some.inj found; decide)

def backlogPath (source : TaskStatus) : List TaskStatus :=
  if source = .done then [.inProgress, .cancelled, .backlog] else [.cancelled, .backlog]

theorem shortestTransitionPath_backlog {source : TaskStatus} (other : source ≠ .backlog)
    (uncancelled : source ≠ .cancelled) :
    shortestTransitionPath source .backlog allowed = some (backlogPath source) := by
  cases source <;> first | rfl | contradiction

theorem backlogPath_isEmpty (source : TaskStatus) : (backlogPath source).isEmpty = false := by
  cases source <;> rfl

theorem not_blocked_of_backlogPath {source hop : TaskStatus} (listed : hop ∈ backlogPath source) : hop ≠ .blocked := by
  rintro rfl
  cases source <;> exact absurd listed (by decide)

end EverWorks.Tasks
