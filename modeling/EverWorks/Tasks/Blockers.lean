import EverWorks.Lib.Acyclic
import EverWorks.Tasks.Task

/-!
The rows that say which task waits for which, the calls that add and remove them, and when the unfinished tasks never
wait for one another in a circle.
-/

namespace EverWorks.Tasks
open Lib Lib.Program Relation List

/-- What the calls read of a task. -/
structure OwnedTask where
  id : TaskId
  userId : String
  status : TaskStatus := .backlog
  deriving DecidableEq

/-- A row of `task_blocks`. -/
structure BlockRow where
  id : Nat
  taskId : TaskId
  blockedByTaskId : TaskId
  deriving DecidableEq

structure BlockerStore where
  tasks : List OwnedTask
  blocks : List BlockRow := []
  nextId : Nat := 0
  deriving DecidableEq

structure Caller where
  userId : String
  inScope : OwnedTask → Bool := fun _ => true

inductive BlockerCall where
  | findByIdAndUser (id : TaskId) (caller : Caller)
  | add (taskId blockedByTaskId : TaskId)
  | findByTaskId (taskId : TaskId)
  | removeForTask (taskId : TaskId) (blockId : Nat)

abbrev BlockerReply : BlockerCall → Type
  | .findByIdAndUser .. => Option OwnedTask
  | .add .. => Option BlockRow
  | .findByTaskId _ => List BlockRow
  | .removeForTask .. => Bool

namespace BlockerStore

def hasRow (store : BlockerStore) (taskId blockedByTaskId : TaskId) : Bool :=
  store.blocks.any fun row => row.taskId = taskId && row.blockedByTaskId = blockedByTaskId

def add (store : BlockerStore) (taskId blockedByTaskId : TaskId) : Option BlockRow × BlockerStore :=
  if store.hasRow taskId blockedByTaskId then (none, store)
  else
    let row : BlockRow := ⟨store.nextId, taskId, blockedByTaskId⟩
    (some row, { store with blocks := store.blocks ++ [row], nextId := store.nextId + 1 })

def removeForTask (store : BlockerStore) (taskId : TaskId) (blockId : Nat) : Bool × BlockerStore :=
  let named (row : BlockRow) : Bool := row.id = blockId && row.taskId = taskId
  (store.blocks.any named, { store with blocks := store.blocks.filter (!named ·) })

/-- A restored status of a task that was in `blocked`. -/
def restore (store : BlockerStore) (id : TaskId) (status : TaskStatus) : BlockerStore :=
  { store with
    tasks := store.tasks.map fun task => if task.id = id ∧ task.status = .blocked then { task with status } else task }

end BlockerStore

def serveBlocker : (request : BlockerCall) → BlockerStore → BlockerReply request × BlockerStore
  | .findByIdAndUser id caller, store =>
    (store.tasks.find? fun task => task.id = id && task.userId = caller.userId && caller.inScope task, store)
  | .add taskId blockedByTaskId, store => store.add taskId blockedByTaskId
  | .findByTaskId taskId, store => (store.blocks.filter (·.taskId = taskId), store)
  | .removeForTask taskId blockId, store => store.removeForTask taskId blockId

abbrev BlockerProgram := Program BlockerCall BlockerReply Empty

inductive BlockerError where
  | notFound (message : String)
  | badRequest (message : String)
  | conflict (message : String)
  deriving DecidableEq

def addBlocker (caller : Caller) (taskId blockedByTaskId : TaskId) : BlockerProgram (Except BlockerError BlockRow) := do
  match ← ask (BlockerCall.findByIdAndUser taskId caller) with
  | none => return .error (.notFound s!"Task {taskId} not found.")
  | some _ =>
    if taskId = blockedByTaskId then return .error (.badRequest "Task cannot block itself.")
    else
      match ← ask (BlockerCall.findByIdAndUser blockedByTaskId caller) with
      | none => return .error (.badRequest s!"Blocking Task {blockedByTaskId} not found.")
      | some _ =>
        match ← ask (BlockerCall.add taskId blockedByTaskId) with
        | none => return .error (.conflict s!"Task {taskId} is already blocked by {blockedByTaskId}.")
        | some row => return .ok row

def removeBlocker (caller : Caller) (taskId : TaskId) (blockId : Nat) : BlockerProgram (Except BlockerError Unit) := do
  match ← ask (BlockerCall.findByIdAndUser taskId caller) with
  | none => return .error (.notFound s!"Task {taskId} not found.")
  | some _ =>
    let _ ← ask (BlockerCall.findByTaskId taskId)
    if ← ask (BlockerCall.removeForTask taskId blockId) then return .ok ()
    else return .error (.notFound s!"Blocker {blockId} not found.")

inductive BlockerRequest where
  | add (caller : Caller) (taskId blockedByTaskId : TaskId)
  | remove (caller : Caller) (taskId : TaskId) (blockId : Nat)

def BlockerRequest.program : BlockerRequest → BlockerProgram Unit
  | add caller taskId blockedByTaskId => addBlocker caller taskId blockedByTaskId >>= fun _ => pure ()
  | remove caller taskId blockId => removeBlocker caller taskId blockId >>= fun _ => pure ()

abbrev BlockerPool := Pool BlockerStore BlockerCall BlockerReply Empty

/-- The next call of a request, or the restore of a blocked task, which a removal asks for and nobody waits for. -/
inductive BlockerEvent where
  | call (place : Nat)
  | restored (id : TaskId) (status : TaskStatus)

def blockerStep (pool : BlockerPool) : BlockerEvent → BlockerPool
  | .call place => pool.step serveBlocker Empty.elim place
  | .restored id status => { pool with state := pool.state.restore id status }

def blockerPool (tasks : List OwnedTask) (requests : List BlockerRequest) : BlockerPool :=
  ⟨{ tasks }, requests.map BlockerRequest.program⟩

namespace BlockerStore

def Unfinished (store : BlockerStore) (id : TaskId) : Prop :=
  ∃ task ∈ store.tasks, task.id = id ∧ task.status.resolved = false

/-- One unfinished task waits for another. -/
def Waits (store : BlockerStore) (taskId blockedByTaskId : TaskId) : Prop :=
  store.Unfinished taskId ∧ store.Unfinished blockedByTaskId ∧ store.hasRow taskId blockedByTaskId = true

/-- No unfinished tasks wait in a circle, and of those of any set one waits for none of the others. -/
structure Startable (store : BlockerStore) : Prop where
  acyclic : Acyclic store.Waits
  start : ∀ ids : Set TaskId, (∃ id ∈ ids, store.Unfinished id) →
    ∃ id ∈ ids, store.Unfinished id ∧ ∀ other ∈ ids, ¬ store.Waits id other

end BlockerStore

/-- The call adds a row between unfinished tasks of which the second already waits for the first, at once or through
others. -/
def Closes (pool : BlockerPool) : BlockerEvent → Prop
  | .call place => ∃ taskId blockedByTaskId next,
      pool.programs[place]? = some (.call (.add taskId blockedByTaskId) next) ∧
      pool.state.Unfinished taskId ∧ pool.state.Unfinished blockedByTaskId ∧
      ReflTransGen pool.state.Waits blockedByTaskId taskId
  | .restored .. => False

section
variable {store : BlockerStore} {pool : BlockerPool}

theorem finite_unfinished (store : BlockerStore) : {id | store.Unfinished id}.Finite := by
  refine (finite_toSet (store.tasks.map (·.id))).subset ?_
  rintro id ⟨task, listed, rfl, _⟩
  exact mem_map_of_mem listed

theorem startable_iff : store.Startable ↔ Acyclic store.Waits := by
  refine ⟨fun startable => startable.acyclic, fun acyclic => ⟨acyclic, ?_⟩⟩
  rintro ids ⟨id, inside, unfinished⟩
  have finite : {id | id ∈ ids ∧ store.Unfinished id}.Finite :=
    (finite_unfinished store).subset fun _ member => member.2
  obtain ⟨last, ⟨inside, unfinished⟩, free⟩ := exists_last_of_acyclic acyclic finite ⟨id, inside, unfinished⟩
  exact ⟨last, inside, unfinished, fun other member waits => free other ⟨member, waits.2.1⟩ waits⟩

theorem acyclic_add (acyclic : Acyclic store.Waits) (taskId blockedByTaskId : TaskId) :
    Acyclic (store.add taskId blockedByTaskId).2.Waits ↔
      ¬ (store.Unfinished taskId ∧ store.Unfinished blockedByTaskId ∧
        ReflTransGen store.Waits blockedByTaskId taskId) := by
  by_cases both : store.Unfinished taskId ∧ store.Unfinished blockedByTaskId
  · have grows : (store.add taskId blockedByTaskId).2.Waits =
        fun x y => store.Waits x y ∨ x = taskId ∧ y = blockedByTaskId := by
      funext x y
      rw [BlockerStore.add]
      split
      · rename_i had
        refine propext ⟨.inl, ?_⟩
        rintro (waits | ⟨rfl, rfl⟩)
        · exact waits
        · exact ⟨both.1, both.2, had⟩
      · simp only [BlockerStore.Waits, BlockerStore.Unfinished, BlockerStore.hasRow, any_append, any_cons,
          any_nil, Bool.or_false, Bool.or_eq_true, Bool.and_eq_true, decide_eq_true_eq]
        refine propext ⟨?_, ?_⟩
        · rintro ⟨first, second, row | ⟨same, same'⟩⟩
          · exact .inl ⟨first, second, row⟩
          · exact .inr ⟨same.symm, same'.symm⟩
        · rintro (⟨first, second, row⟩ | ⟨rfl, rfl⟩)
          · exact ⟨first, second, .inl row⟩
          · exact ⟨both.1, both.2, .inr ⟨rfl, rfl⟩⟩
    rw [grows, acyclic_insert acyclic]
    exact ⟨fun apart closes => apart closes.2.2, fun free back => free ⟨both.1, both.2, back⟩⟩
  · refine ⟨fun _ closes => both ⟨closes.1, closes.2.1⟩, fun _ => acyclic.mono fun x y waits => ?_⟩
    rw [BlockerStore.add] at waits
    split at waits
    · exact waits
    · refine ⟨waits.1, waits.2.1, ?_⟩
      have row := waits.2.2
      simp only [BlockerStore.hasRow, any_append, any_cons, any_nil, Bool.or_false, Bool.or_eq_true,
        Bool.and_eq_true, decide_eq_true_eq] at row
      rcases row with row | ⟨rfl, rfl⟩
      · exact row
      · exact absurd ⟨waits.1, waits.2.1⟩ both

theorem waits_remove {taskId x y : TaskId} {blockId : Nat} (waits : (store.removeForTask taskId blockId).2.Waits x y) :
    store.Waits x y := by
  refine ⟨waits.1, waits.2.1, ?_⟩
  obtain ⟨row, listed, named⟩ := any_eq_true.mp waits.2.2
  exact any_eq_true.mpr ⟨row, mem_of_mem_filter listed, named⟩

theorem unfinished_restore {id other : TaskId} {status : TaskStatus}
    (unfinished : (store.restore id status).Unfinished other) : store.Unfinished other := by
  obtain ⟨task, listed, named, waiting⟩ := unfinished
  obtain ⟨old, member, rfl⟩ := mem_map.mp listed
  split at named
  · rename_i blocked
    exact ⟨old, member, named, by rw [blocked.2]; rfl⟩
  · rename_i kept
    rw [if_neg kept] at waiting
    exact ⟨old, member, named, waiting⟩

theorem acyclic_step (acyclic : Acyclic pool.state.Waits) (event : BlockerEvent) :
    Acyclic (blockerStep pool event).state.Waits ↔ ¬ Closes pool event := by
  cases event with
  | restored id status =>
    refine ⟨fun _ closes => closes.elim, fun _ => acyclic.mono fun x y waits => ?_⟩
    exact ⟨unfinished_restore waits.1, unfinished_restore waits.2.1, waits.2.2⟩
  | call place =>
    have quiet (same : (blockerStep pool (.call place)).state = pool.state)
        (other : ∀ taskId blockedByTaskId next,
          pool.programs[place]? ≠ some (.call (.add taskId blockedByTaskId) next)) :
        Acyclic (blockerStep pool (.call place)).state.Waits ↔ ¬ Closes pool (.call place) := by
      rw [same]
      refine ⟨fun _ => ?_, fun _ => acyclic⟩
      rintro ⟨taskId, blockedByTaskId, next, found, _⟩
      exact other taskId blockedByTaskId next found
    cases found : pool.programs[place]? with
    | none => exact quiet (by rw [blockerStep, Pool.step, found]) (by simp [found])
    | some program =>
      cases program with
      | done value => exact quiet (by rw [blockerStep, Pool.step, found]) (by simp [found])
      | fork job next => exact job.elim
      | call request next =>
        have stepped : (blockerStep pool (.call place)).state = (serveBlocker request pool.state).2 := by
          rw [blockerStep, Pool.step, found]
        cases request with
        | findByIdAndUser id caller => exact quiet stepped (by simp [found])
        | findByTaskId taskId => exact quiet stepped (by simp [found])
        | add taskId blockedByTaskId =>
          have closes : Closes pool (.call place) ↔ pool.state.Unfinished taskId ∧
              pool.state.Unfinished blockedByTaskId ∧ ReflTransGen pool.state.Waits blockedByTaskId taskId := by
            refine ⟨?_, fun back => ⟨taskId, blockedByTaskId, next, found, back⟩⟩
            rintro ⟨taskId', blockedByTaskId', next', found', back⟩
            rw [found, Option.some.injEq, Program.call.injEq, BlockerCall.add.injEq] at found'
            rw [found'.1.1, found'.1.2]
            exact back
          rw [stepped, closes]
          exact acyclic_add acyclic taskId blockedByTaskId
        | removeForTask taskId blockId =>
          rw [stepped]
          refine ⟨fun _ => ?_, fun _ => acyclic.mono fun x y => waits_remove⟩
          rintro ⟨taskId', blockedByTaskId', next', found', _⟩
          rw [found, Option.some.injEq, Program.call.injEq] at found'
          cases found'.1

/-- The waiting stays startable at every point of a run exactly if no step of it closes a circle. -/
theorem startable_iff_never_closes (tasks : List OwnedTask) (requests : List BlockerRequest)
    (events : List BlockerEvent) :
    (∀ first, first <+: events → (run blockerStep (blockerPool tasks requests) first).state.Startable) ↔
      Along blockerStep (fun pool event => ¬ Closes pool event) (blockerPool tasks requests) events := by
  have start : Acyclic (blockerPool tasks requests).state.Waits := by
    have none (x y : TaskId) : ¬ (blockerPool tasks requests).state.Waits x y := fun waits => nomatch waits.2.2
    intro id cycle
    obtain ⟨next, first, _⟩ := TransGen.head'_iff.mp cycle
    exact none id next first
  simp only [startable_iff]
  exact @initial_iff_along BlockerPool BlockerEvent blockerStep (fun pool event => ¬ Closes pool event)
    (fun pool => Acyclic pool.state.Waits) (fun pool event acyclic => acyclic_step acyclic event) _ events start

end

/-- Each of two tasks is made to wait for the other. -/
theorem two_tasks_wait_for_each_other :
    ¬ ∀ first, first <+: [.call 0, .call 0, .call 0, .call 1, .call 1, .call 1] →
      (run blockerStep
        (blockerPool [{ id := "a", userId := "u" }, { id := "b", userId := "u" }]
          [.add { userId := "u" } "a" "b", .add { userId := "u" } "b" "a"])
        first).state.Startable := by
  intro startable
  have circle := (startable _ prefix_rfl).acyclic "a"
  have reached : (run blockerStep
      (blockerPool [{ id := "a", userId := "u" }, { id := "b", userId := "u" }]
        [.add { userId := "u" } "a" "b", .add { userId := "u" } "b" "a"])
      [.call 0, .call 0, .call 0, .call 1, .call 1, .call 1]).state =
        { tasks := [{ id := "a", userId := "u" }, { id := "b", userId := "u" }]
          blocks := [⟨0, "a", "b"⟩, ⟨1, "b", "a"⟩]
          nextId := 2 } := by
    decide
  rw [reached] at circle
  have unfinished : ∀ id ∈ ["a", "b"], BlockerStore.Unfinished
      { tasks := [{ id := "a", userId := "u" }, { id := "b", userId := "u" }]
        blocks := [⟨0, "a", "b"⟩, ⟨1, "b", "a"⟩]
        nextId := 2 } id := by
    intro id listed
    exact ⟨{ id, userId := "u" }, by simpa using listed, rfl, rfl⟩
  refine circle (TransGen.tail (TransGen.single ⟨unfinished "a" (by simp), unfinished "b" (by simp), ?_⟩)
    ⟨unfinished "b" (by simp), unfinished "a" (by simp), ?_⟩)
  · decide
  · decide

end EverWorks.Tasks
