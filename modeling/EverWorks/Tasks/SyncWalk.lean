import EverWorks.Tasks.Restored

/-!
`transitionSync` walks a task along the shortest legal path, one transition a hop, beside the cascades its hops
start. When it changes no other task, and when some order of their calls does.
-/

namespace EverWorks.Tasks
open Lib Lib.Program TaskStore List

inductive SyncRefusal where
  | noPath (source target : TaskStatus)
  | blocked (source target : TaskStatus) (path : List TaskStatus)
  | conflict (source target : TaskStatus) (path : List TaskStatus) (currentStatus : TaskStatus)
  | refused (reason : Refusal)

structure SyncTransitionResult where
  task : Task
  source : TaskStatus
  path : List TaskStatus

def hopOptions (opts : TransitionOptions) : TransitionOptions :=
  if opts.suppressAgentFanOut then { opts with suppressAgentFanOut := true }
  else { opts with suppressAgentDispatch := true }

def pathBlockerGate (task : Task) (path : List TaskStatus) : TaskProgram (List TaskId) :=
  if path.any fun hop => hop = .inProgress || hop = .done then listOpenBlockerIds task.id else pure []

def pathApproverGate (task : Task) (path : List TaskStatus) (opts : TransitionOptions) : TaskProgram Bool :=
  if path.contains .done && !opts.force && task.requireAllApprovers then ask (TaskCall.allApproved task.id)
  else pure true

def assertSyncPathOpen (task : Task) (source target : TaskStatus) (path : List TaskStatus)
    (opts : TransitionOptions) : TaskProgram (Option SyncRefusal) := do
  let openBlockers ← pathBlockerGate task path
  if openBlockers ≠ [] then
    let refused := path.findIdx fun hop => hop = .inProgress || hop = .done
    return some (.blocked source target (path.take (refused + 1)))
  else
    let approved ← pathApproverGate task path opts
    return if approved then none else some (.blocked source target (path.take (path.idxOf .done + 1)))

def hopRefused (current : Task) (source target : TaskStatus) (path : List TaskStatus) (reason : Refusal) :
    TaskProgram SyncRefusal := do
  if reason.isConflict then return .blocked source target path
  else
    match reason with
    | .cannotTransition .. =>
      match (← ask (.findById current.id) : Option Task) with
      | some latest =>
        return if latest.status ≠ current.status then .conflict source target path latest.status else .refused reason
      | none => return .refused reason
    | _ => return .refused reason

def walkHops (around : Surroundings) (opts : TransitionOptions) (source target : TaskStatus) :
    Task → List TaskStatus → List TaskStatus → TaskProgram (Except SyncRefusal SyncTransitionResult)
  | current, walked, [] => pure (.ok ⟨current, source, walked⟩)
  | current, walked, hop :: rest => do
    match ← transition around current hop (hopOptions opts) with
    | .error reason => return .error (← hopRefused current source target (walked ++ [hop]) reason)
    | .ok current =>
      if current.status ≠ hop then return .error (.conflict source target (walked ++ [hop]) current.status)
      else walkHops around opts source target current (walked ++ [hop]) rest

def transitionSync (around : Surroundings) (task : Task) (target : TaskStatus) (opts : TransitionOptions) :
    TaskProgram (Except SyncRefusal SyncTransitionResult) := do
  let opts := withoutAgentForce opts
  match shortestTransitionPath task.status target allowed with
  | none => return .error (.noPath task.status target)
  | some path =>
    if path.isEmpty then return .ok ⟨task, task.status, path⟩
    else
      match ← assertSyncPathOpen task task.status target path opts with
      | some refusal => return .error refusal
      | none => walkHops around opts task.status target task [] path

def detached {α : Type} (program : TaskProgram α) : TaskProgram Unit := program >>= fun _ => pure ()

def cascadeBody (around : Surroundings) (cascade : Cascade) : TaskProgram Unit :=
  detached (autoUnblockResolvedTasks around cascade)

def syncPool (around : Surroundings) (store : TaskStore) (task : Task) (target : TaskStatus)
    (opts : TransitionOptions) : Pool TaskStore TaskCall TaskReply Cascade :=
  ⟨store, [detached (transitionSync around task target opts)]⟩

/-- No order of the calls of the walk and its cascades changes the status of another task. -/
def ChangesOnlyItsTask (around : Surroundings) (store : TaskStore) (task : Task) (target : TaskStatus)
    (opts : TransitionOptions) : Prop :=
  ∀ schedule id, id ≠ task.id →
    (run (Pool.step (serve around) (cascadeBody around)) (syncPool around store task target opts) schedule).state.statusOf
      id = store.statusOf id

def AgentHeldBack (around : Surroundings) (task : Task) (opts : TransitionOptions) : Prop :=
  opts.actorType = some .agent ∧ (isAwaitingOwner task = true ∨
    task.status = .blocked ∧ opts.automaticRestore = false ∧ around.agentMayLiftBlock = false)

/-- The walk cancels the task on its way: it goes to the backlog from elsewhere, and nothing refuses it before. -/
structure PassesCancelled (around : Surroundings) (store : TaskStore) (task : Task) (target : TaskStatus)
    (opts : TransitionOptions) : Prop where
  target : target = .backlog
  elsewhere : task.status ≠ .backlog ∧ task.status ≠ .cancelled
  free : ¬ AgentHeldBack around task opts
  reopened : task.status = .done → store.openBlockerIds task.id = []

/-- Another task waits in `blocked` for this one alone, and may go back to what it was. -/
def HoldsUp (store : TaskStore) (task other : Task) : Prop :=
  other.id ≠ task.id ∧ WaitsOnlyFor store task.id other ∧ restoreTo other ∈ allowed .blocked

/-- The pairs of blockers are those of the store, and so are the tasks of some ids. -/
structure Pinned (pinned : TaskId → Prop) (store state : TaskStore) : Prop where
  blocks : state.blocks = store.blocks
  tasks : ∀ id, pinned id → state.findById id = store.findById id

section
variable {around : Surroundings} {store : TaskStore} {pinned : TaskId → Prop} {allowedJob : Cascade → Prop}

theorem keeps_openAmong (ids : List TaskId) :
    (openAmong ids).Keeps (serve around) (Pinned pinned store) allowedJob fun opens =>
      ∀ id ∈ ids, pinned id → store.isOpen id = true → id ∈ opens := by
  induction ids with
  | nil => exact nofun
  | cons first rest ih =>
    refine .read (fun _ => rfl) fun state holds => ih.bind fun later complete => ?_
    intro id listed pin isOpen
    rcases mem_cons.mp listed with rfl | listed
    · have here : ((state.findById id).any fun task => !task.status.resolved) = true := by
        rw [holds.tasks id pin]
        exact isOpen
      simp only [serve, here, if_true]
      exact mem_cons_self
    · split
      · exact mem_cons_of_mem _ (complete id listed pin isOpen)
      · exact complete id listed pin isOpen

theorem keeps_listOpenBlockerIds (taskId : TaskId) :
    (listOpenBlockerIds taskId).Keeps (serve around) (Pinned pinned store) allowedJob fun opens =>
      ∀ block ∈ store.blocks, block.taskId = taskId → pinned block.blockedByTaskId →
        store.isOpen block.blockedByTaskId = true → block.blockedByTaskId ∈ opens := by
  refine .read (fun _ => rfl) fun state holds => (keeps_openAmong _).mono fun opens complete => ?_
  intro block inside own pin isOpen
  refine complete _ (mem_map_of_mem (mem_filter.mpr ⟨?_, by simpa using own⟩)) pin isOpen
  rw [holds.blocks]
  exact inside

variable {opts : TransitionOptions}

theorem keeps_closedGate {task : Task} {target : TaskStatus} :
    (closedGate task target opts).Keeps (serve around) (Pinned pinned store) allowedJob fun _ => True := by
  have blockers : (blockerGate task target).Keeps (serve around) (Pinned pinned store) allowedJob fun _ => True := by
    rw [blockerGate]
    split
    · exact (keeps_listOpenBlockerIds _).mono fun _ _ => trivial
    · trivial
  have entry : (reviewEntryGate task target opts).Keeps (serve around) (Pinned pinned store) allowedJob
      fun _ => True := by
    rw [reviewEntryGate]
    split
    · exact .read (fun _ => rfl) fun _ _ => trivial
    · trivial
  have approvers : (approverGate task target opts).Keeps (serve around) (Pinned pinned store) allowedJob
      fun _ => True := by
    rw [approverGate]
    split
    · exact .read (fun _ => rfl) fun _ _ => trivial
    · trivial
  refine blockers.bind fun openBlockers _ => ?_
  split
  · trivial
  · refine entry.bind fun refusing _ => ?_
    split
    · trivial
    · exact approvers.bind fun _ _ => trivial

theorem pinned_casUpdateStatus {id : TaskId} (free : ¬ pinned id) {expected : TaskStatus} {patch : TaskPatch}
    {state : TaskStore} (holds : Pinned pinned store state) :
    Pinned pinned store (state.casUpdateStatus id expected patch).2 := by
  rw [casUpdateStatus]
  split
  · split
    · refine ⟨holds.blocks, fun other pin => ?_⟩
      have different : other ≠ id := fun same => free (same ▸ pin)
      rw [findById_updateTask, if_neg different, holds.tasks other pin]
    · exact holds
  · exact holds

theorem keeps_transition {task : Task} {target : TaskStatus} (free : ¬ pinned task.id)
    (own : target.resolved = true → ∀ cascade : Cascade, cascade.blockerTaskId = task.id → allowedJob cascade) :
    (transition around task target opts).Keeps (serve around) (Pinned pinned store) allowedJob fun result =>
      ∀ row, result = .ok row → row.id = task.id := by
  rw [transition]
  split
  · intro _ failed
    cases failed
  · refine keeps_closedGate.bind fun gate _ => ?_
    split
    · intro _ failed
      cases failed
    · rw [landing, ask_bind]
      refine fun state holds => ⟨pinned_casUpdateStatus free holds, ?_⟩
      dsimp only
      split
      · intro _ failed
        cases failed
      · refine .read_bind (fun _ => rfl) fun state holds => ?_
        dsimp only [serve]
        split
        · intro _ failed
          cases failed
        · rename_i refreshed found
          have named : refreshed.id = task.id := (findById_mem found).2
          have value : ∀ row, (Except.ok refreshed : Except Refusal Task) = .ok row → row.id = task.id := by
            intro row same
            rw [← Except.ok.inj same, named]
          rw [releaseDependents]
          split
          · exact ⟨own ‹_› _ named, value⟩
          · exact value

variable {source target : TaskStatus}

theorem keeps_hopRefused {current : Task} {path : List TaskStatus} {reason : Refusal} :
    (hopRefused current source target path reason).Keeps (serve around) (Pinned pinned store) allowedJob
      fun _ => True := by
  unfold hopRefused
  split
  · trivial
  · split
    · refine .read_bind (fun _ => rfl) fun state _ => ?_
      split <;> trivial
    · trivial

theorem keeps_walkHops (path walked : List TaskStatus)
    (current : Task) (free : ¬ pinned current.id)
    (own : (∃ hop ∈ path, hop.resolved = true) →
      ∀ cascade : Cascade, cascade.blockerTaskId = current.id → allowedJob cascade) :
    (walkHops around opts source target current walked path).Keeps (serve around) (Pinned pinned store) allowedJob
      fun _ => True := by
  induction path generalizing current walked with
  | nil => trivial
  | cons hop rest ih =>
    rw [walkHops]
    have move : (transition around current hop (hopOptions opts)).Keeps (serve around) (Pinned pinned store) allowedJob
        fun result => ∀ row, result = .ok row → row.id = current.id :=
      keeps_transition free fun resolved => own ⟨hop, mem_cons_self, resolved⟩
    refine move.bind fun result named => ?_
    split
    · exact keeps_hopRefused.bind fun _ _ => trivial
    · rename_i row
      have same : row.id = current.id := named row rfl
      split
      · trivial
      · refine ih _ row (same ▸ free) fun ⟨hop, listed, resolved⟩ => ?_
        rw [same]
        exact own ⟨hop, mem_cons_of_mem _ listed, resolved⟩

theorem keeps_assertSyncPathOpen {task : Task} {path : List TaskStatus}
    :
    (assertSyncPathOpen task source target path opts).Keeps (serve around) (Pinned pinned store) allowedJob
      fun _ => True := by
  have blockers : (pathBlockerGate task path).Keeps (serve around) (Pinned pinned store) allowedJob
      fun _ => True := by
    rw [pathBlockerGate]
    split
    · exact (keeps_listOpenBlockerIds _).mono fun _ _ => trivial
    · trivial
  have approvers : (pathApproverGate task path opts).Keeps (serve around) (Pinned pinned store) allowedJob
      fun _ => True := by
    rw [pathApproverGate]
    split
    · exact .read (fun _ => rfl) fun _ _ => trivial
    · trivial
  refine blockers.bind fun openBlockers _ => ?_
  split
  · trivial
  · exact approvers.bind fun _ _ => trivial

theorem Keeps.detached {α : Type} {program : TaskProgram α} {post : α → Prop} {inv : TaskStore → Prop}
    (keeps : program.Keeps (serve around) inv allowedJob post) :
    (detached program).Keeps (serve around) inv allowedJob fun _ => True :=
  keeps.bind fun _ _ => trivial

theorem keeps_transitionSync {task : Task} {target : TaskStatus} (free : ¬ pinned task.id)
    (own : ∀ path, shortestTransitionPath task.status target allowed = some path →
      (∃ hop ∈ path, hop.resolved = true) →
        ∀ cascade : Cascade, cascade.blockerTaskId = task.id → allowedJob cascade) :
    (transitionSync around task target opts).Keeps (serve around) (Pinned pinned store) allowedJob
      fun _ => True := by
  rw [transitionSync]
  split
  · trivial
  · rename_i path found
    split
    · trivial
    · refine keeps_assertSyncPathOpen.bind fun gate _ => ?_
      split
      · trivial
      · exact keeps_walkHops path [] task free (own path found)

end

section
variable {around : Surroundings} {store : TaskStore} {task : Task}

theorem keeps_tryUnblock (quiet : ∀ other ∈ store.tasks, ¬ HoldsUp store task other) {cascade : Cascade} {id : TaskId}
    (listed : id ∈ store.findTasksBlockedBy task.id) :
    (tryUnblockSingleTask around cascade id).Keeps (serve around) (Pinned (· ≠ task.id) store)
      (fun cascade => cascade.blockerTaskId = task.id) fun _ => True := by
  rw [tryUnblockSingleTask, ask_bind]
  refine .read (fun _ => rfl) fun state holds => ?_
  dsimp only [serve]
  split
  · trivial
  · rename_i blocked found
    obtain ⟨-, named⟩ := findById_mem found
    split
    · trivial
    · rename_i status
      refine (keeps_listOpenBlockerIds id).bind fun opens complete => ?_
      split
      · trivial
      · rename_i clear
        by_cases own : id = task.id
        · have mine : blocked.id = task.id := named.trans own
          refine (keeps_transition (fun pinned => pinned mine) fun _ cascade same => same.trans mine).bind
            fun result _ => ?_
          split <;> trivial
        · -- The row of another task is the one in the store, and the table lets it go nowhere.
          rw [holds.tasks id own] at found
          obtain ⟨inside, rfl⟩ := findById_mem found
          have blockedStatus : blocked.status = .blocked := not_not.mp status
          have illegal : restoreTo blocked ∉ allowed .blocked := by
            intro legal
            refine quiet blocked inside ⟨own, ⟨blockedStatus, listed, fun block member mine apart => ?_⟩, legal⟩
            by_contra isOpen
            have inside := complete block member mine apart (by simpa using isOpen)
            rw [not_not.mp clear] at inside
            cases inside
          rw [transition, restoreOptions_amended, refusedAtOnce_restore blockedStatus illegal]
          trivial

theorem keeps_cascadeBody (quiet : ∀ other ∈ store.tasks, ¬ HoldsUp store task other) {cascade : Cascade}
    (own : cascade.blockerTaskId = task.id) :
    (cascadeBody around cascade).Keeps (serve around) (Pinned (· ≠ task.id) store)
      (fun cascade => cascade.blockerTaskId = task.id) fun _ => True := by
  have each (ids : List TaskId) (listed : ∀ id ∈ ids, id ∈ store.findTasksBlockedBy task.id) :
      (unblockEach around cascade ids).Keeps (serve around) (Pinned (· ≠ task.id) store)
        (fun cascade => cascade.blockerTaskId = task.id) fun _ => True := by
    induction ids with
    | nil => trivial
    | cons id rest ih =>
      refine (keeps_tryUnblock quiet (listed id mem_cons_self)).bind fun _ _ => ?_
      exact (ih fun id later => listed id (mem_cons_of_mem _ later)).bind fun _ _ => trivial
  have whole : (autoUnblockResolvedTasks around cascade).Keeps (serve around) (Pinned (· ≠ task.id) store)
      (fun cascade => cascade.blockerTaskId = task.id) fun _ => True := by
    rw [autoUnblockResolvedTasks, ask_bind]
    refine .read (fun _ => rfl) fun state holds => each _ fun id listed => ?_
    rw [← own]
    rw [serve, findTasksBlockedBy, holds.blocks] at listed
    exact listed
  exact Keeps.detached whole

end

end EverWorks.Tasks
