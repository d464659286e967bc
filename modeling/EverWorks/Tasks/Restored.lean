import EverWorks.Tasks.Cascades

/-!
Over every history of moves, each with its cascades run to their end: which tasks a move releases, and where they
go.
-/

namespace EverWorks.Tasks
open Lib Lib.Program Option TaskStore

variable {around : Surroundings} {store : TaskStore} {cascade : Cascade}

/-! ## One cascade -/

def Tame (store : TaskStore) : Prop :=
  ∀ task ∈ store.tasks, task.status = .blocked → (restoreTo task).resolved = false

def afterRestore (around : Surroundings) (cascade : Cascade) (store : TaskStore) (ids : List TaskId) (task : Task) :
    Task :=
  if task.id ∈ ids ∧ Free store task ∧ restoreTo task ∈ allowed .blocked then
    (restorePatch around cascade task).apply task
  else task

theorem isOpen_updateTask {task : Task} {patch : TaskPatch} (present : store.findById task.id = some task)
    (same : patch.status.resolved = task.status.resolved) (id : TaskId) :
    (store.updateTask task.id patch).isOpen id = store.isOpen id := by
  rw [isOpen, isOpen, findById_updateTask]
  split
  · rename_i here
    rw [here, present]
    simp [same]
  · rfl

theorem tame_updateTask {id : TaskId} {patch : TaskPatch} (tame : Tame store) (leaves : patch.status ≠ .blocked) :
    Tame (store.updateTask id patch) := by
  intro other listed status
  rcases Table.mem_update.mp listed with ⟨old, member, ⟨-, rfl⟩ | ⟨-, rfl⟩⟩
  · exact absurd status leaves
  · exact tame _ member status

theorem afterRestore_of_kept {ids : List TaskId} {task : Task}
    (kept : ¬ (Free store task ∧ restoreTo task ∈ allowed .blocked)) :
    afterRestore around cascade store ids task = task :=
  if_neg fun restored => kept restored.2

theorem afterRestore_cons_of_ne {first : TaskId} {rest : List TaskId} {task : Task} (other : task.id ≠ first) :
    afterRestore around cascade store (first :: rest) task = afterRestore around cascade store rest task := by
  simp only [afterRestore, List.mem_cons, other, false_or]

variable (around cascade) in
theorem eval_unblockEach (tame : Tame store) (ids : List TaskId) :
    let outcome := (unblockEach around cascade ids).eval (serve around) store
    outcome.jobs = [] ∧ outcome.state.blocks = store.blocks ∧
      ∀ id, outcome.state.findById id = (store.findById id).map (afterRestore around cascade store ids) := by
  induction ids generalizing store with
  | nil =>
    refine ⟨rfl, rfl, fun id => ?_⟩
    have kept : afterRestore around cascade store [] = fun task => task := by
      funext task
      exact if_neg fun restored => List.not_mem_nil restored.1
    rw [kept]
    exact map_id'.symm
  | cons first rest ih =>
    simp only [unblockEach, eval_bind, eval_pure, List.append_nil]
    by_cases restores : ∃ task, store.findById first = some task ∧ Free store task ∧ restoreTo task ∈ allowed .blocked
    · obtain ⟨task, found, free, legal⟩ := restores
      obtain rfl := (findById_mem found).2
      have tameTask : (restoreTo task).resolved = false := tame task (findById_mem found).1 free.status
      have leaves : restoreTo task ≠ .blocked := by
        intro same
        rw [same] at legal
        revert legal
        decide
      have leaves' : (restorePatch around cascade task).status ≠ .blocked := leaves
      rw [eval_tryUnblock_restored found free legal, tameTask]
      obtain ⟨jobs, blocks, rows⟩ := ih (tame_updateTask tame leaves')
      refine ⟨by simpa using jobs, blocks, fun id => ?_⟩
      have opens : ∀ id, (store.updateTask task.id (restorePatch around cascade task)).isOpen id = store.isOpen id :=
        isOpen_updateTask found (by rw [restorePatch_status, tameTask, free.status]; rfl)
      dsimp only
      rw [rows, findById_updateTask]
      split
      · rename_i here
        subst here
        rw [found, map_some, map_some, map_some, afterRestore_of_kept fun free => leaves free.1.status]
        rw [afterRestore, if_pos ⟨List.mem_cons_self, free, legal⟩]
      · rename_i different
        refine Option.map_congr fun other member => ?_
        have named : other.id = id := (findById_mem member).2
        rw [afterRestore_cons_of_ne (named ▸ different)]
        have same : Free (store.updateTask task.id (restorePatch around cascade task)) other ↔ Free store other :=
          ⟨fun free => ⟨free.status, by rw [← free.clear, openBlockerIds_congr (by rfl) opens]⟩,
            fun free => ⟨free.status, by rw [← free.clear, openBlockerIds_congr (by rfl) opens]⟩⟩
        simp only [afterRestore, same]
    · have kept : ∀ task, store.findById first = some task → Free store task → restoreTo task ∉ allowed .blocked :=
        fun task found free legal => restores ⟨task, found, free, legal⟩
      rw [eval_tryUnblock_kept kept]
      obtain ⟨jobs, blocks, rows⟩ := ih tame
      refine ⟨by simpa using jobs, blocks, fun id => ?_⟩
      dsimp only
      rw [rows]
      refine Option.map_congr fun task member => ?_
      by_cases here : task.id = first
      · have named : task.id = id := (findById_mem member).2
        have away : ¬ (Free store task ∧ restoreTo task ∈ allowed .blocked) :=
          fun both => kept task (by rw [← here, named]; exact member) both.1 both.2
        rw [afterRestore_of_kept away, afterRestore_of_kept away]
      · rw [afterRestore_cons_of_ne here]

theorem settled_one (tame : Tame store) :
    settled around store [cascade] = (((autoUnblockResolvedTasks around cascade).eval (serve around) store).state, []) := by
  have jobs := (eval_unblockEach around cascade tame
    (store.findTasksBlockedBy cascade.blockerTaskId)).1
  rw [settled, List.length_singleton, Nat.add_comm, Function.iterate_succ_apply]
  simp only [round, eval_autoUnblock, jobs, List.append_nil]
  exact iterate_round_nil _

/-! ## Histories -/

structure Move where
  taskId : TaskId
  target : TaskStatus
  opts : TransitionOptions := {}
  around : Surroundings

def Move.made (move : Move) (store : TaskStore) (task : Task) : Outcome TaskStore Cascade (Except Refusal Task) :=
  (transition move.around task move.target move.opts).eval (serve move.around) store

def makeMove (store : TaskStore) (move : Move) : TaskStore :=
  match store.findById move.taskId with
  | none => store
  | some task => (settled move.around (move.made store task).state (move.made store task).jobs).1

def TaskStore.statusOf (store : TaskStore) (id : TaskId) : Option TaskStatus := (store.findById id).map (·.status)

/-- A store, with the status each task had when it was last blocked. -/
structure History where
  store : TaskStore
  blockedFrom : TaskId → Option TaskStatus := fun _ => none

def History.step (history : History) (move : Move) : History where
  store := makeMove history.store move
  blockedFrom id :=
    if (makeMove history.store move).statusOf id = some .blocked ∧ history.store.statusOf id ≠ some .blocked then
      history.store.statusOf id
    else history.blockedFrom id

/-- A blocked task with the blocker among its own, and none of them open. -/
def Released (store : TaskStore) (blocker : TaskId) (task : Task) : Prop :=
  task.id ∈ store.findTasksBlockedBy blocker ∧ Free store task

/-- After a move that lands, its cascades come to an end, each task it released is back in the status it had when
it was blocked, and every other task is as the move left it. -/
def CascadeRestores (history : History) (move : Move) : Prop :=
  ∀ task row, history.store.findById move.taskId = some task → (move.made history.store task).value = .ok row →
    (settled move.around (move.made history.store task).state (move.made history.store task).jobs).2 = [] ∧
    ∀ other ∈ (move.made history.store task).state.tasks,
      (Released (move.made history.store task).state move.taskId other →
        ∃ restored, (makeMove history.store move).findById other.id = some restored ∧
          restored.status = (history.blockedFrom other.id).getD .todo ∧ restored.previousStatus = none) ∧
      (¬ Released (move.made history.store task).state move.taskId other →
        (makeMove history.store move).findById other.id = some other)

/-- A blocked task with the blocker among its own, and no other of them open. -/
structure WaitsOnlyFor (store : TaskStore) (blocker : TaskId) (task : Task) : Prop where
  status : task.status = .blocked
  listed : task.id ∈ store.findTasksBlockedBy blocker
  others : ∀ block ∈ store.blocks, block.taskId = task.id → block.blockedByTaskId ≠ blocker →
    store.isOpen block.blockedByTaskId = false

/-- No task that a move into a resolved status releases was blocked in review. -/
def NoneBlockedInReview (history : History) (move : Move) : Prop :=
  ∀ task, history.store.findById move.taskId = some task →
    refusal move.around history.store task move.target move.opts = none → move.target.resolved = true →
    ∀ other ∈ history.store.tasks, other.id ≠ move.taskId → WaitsOnlyFor history.store move.taskId other →
      history.blockedFrom other.id ≠ some .inReview

/-- Every blocked task has on record the status it had when it was blocked, one that may be blocked. -/
def Recorded (history : History) : Prop :=
  ∀ task ∈ history.store.tasks, task.status = .blocked → task.previousStatus = history.blockedFrom task.id ∧
    ∀ source, task.previousStatus = some source → .blocked ∈ allowed source

/-! ## A move that lands -/

variable {history : History} {move : Move} {task : Task}

theorem legal_of_clear {target : TaskStatus} {opts : TransitionOptions}
    (clear : refusal around store task target opts = none) : target ∈ allowed task.status := by
  rw [refusal, or_eq_none_iff, refusedAtOnce] at clear
  by_contra illegal
  have atOnce := clear.1
  split at atOnce
  · cases atOnce
  · split at atOnce
    · cases atOnce
    · cases atOnce

def Move.patch (move : Move) (task : Task) : TaskPatch := movePatch move.around task move.target move.opts

@[simp] theorem Move.patch_status : (move.patch task).status = move.target := rfl

def Move.started (move : Move) (task : Task) : Cascade := moveCascade move.around task move.target move.opts

theorem made_landed (found : store.findById move.taskId = some task)
    (clear : refusal move.around store task move.target move.opts = none) :
    move.made store task = ⟨.ok ((move.patch task).apply task), store.updateTask move.taskId (move.patch task),
      if move.target.resolved then [move.started task] else []⟩ := by
  have named : task.id = move.taskId := (findById_mem found).2
  rw [← named] at found
  rw [Move.made, eval_transition_landed found clear, named]
  rfl

theorem clear_of_made {row : Task} (landed : (move.made store task).value = .ok row) :
    refusal move.around store task move.target move.opts = none := by
  cases refused : refusal move.around store task move.target move.opts with
  | none => rfl
  | some reason =>
    rw [Move.made, eval_transition_refused refused] at landed
    cases landed

theorem makeMove_refused {reason : Refusal} (found : store.findById move.taskId = some task)
    (refused : refusal move.around store task move.target move.opts = some reason) : makeMove store move = store := by
  have made : move.made store task = ⟨.error reason, store, []⟩ := eval_transition_refused refused
  simp only [makeMove, found, made, settled, iterate_round_nil]

theorem isOpen_of_found {id : TaskId} (found : store.findById id = some task) :
    store.isOpen id = !task.status.resolved := by
  simp [isOpen, found]

theorem not_free_of_open {blocker : TaskId} (listed : task.id ∈ store.findTasksBlockedBy blocker)
    (isOpen : store.isOpen blocker = true) : ¬ Free store task := by
  intro free
  simp only [findTasksBlockedBy, List.mem_map, List.mem_filter, decide_eq_true_eq] at listed
  obtain ⟨block, ⟨inside, rfl⟩, named⟩ := listed
  have := openBlockerIds_eq_nil.mp free.clear block inside named
  rw [isOpen] at this
  cases this

theorem moved_self (found : store.findById move.taskId = some task) :
    (store.updateTask move.taskId (move.patch task)).findById move.taskId = some ((move.patch task).apply task) := by
  rw [findById_updateTask, if_pos rfl, found, map_some]

theorem makeMove_rows (tame : Tame store) (found : store.findById move.taskId = some task)
    (clear : refusal move.around store task move.target move.opts = none) (id : TaskId) :
    let moved := store.updateTask move.taskId (move.patch task)
    (makeMove store move).findById id = (moved.findById id).map
      (afterRestore move.around (move.started task) moved (moved.findTasksBlockedBy move.taskId)) := by
  intro moved
  simp only [makeMove, found, made_landed found clear]
  by_cases resolved : move.target.resolved = true
  · have leaves : (move.patch task).status ≠ .blocked := by
      intro same
      rw [Move.patch_status] at same
      rw [same] at resolved
      cases resolved
    rw [if_pos resolved, settled_one (tame_updateTask tame leaves), eval_autoUnblock]
    have named : (move.started task).blockerTaskId = move.taskId := (findById_mem found).2
    rw [named]
    exact (eval_unblockEach _ _ (tame_updateTask tame leaves) _).2.2 id
  · rw [if_neg resolved, settled, iterate_round_nil]
    have kept : ∀ other, moved.findById id = some other →
        afterRestore move.around (move.started task) moved (moved.findTasksBlockedBy move.taskId) other = other := by
      intro other _
      refine if_neg fun restored => not_free_of_open restored.1 ?_ restored.2.1
      rw [isOpen_of_found (moved_self found), TaskPatch.apply_status, Move.patch_status]
      simpa using resolved
    cases present : moved.findById id with
    | none => rfl
    | some other => rw [map_some, kept other present]

/-! ## What is on record -/

theorem unresolved_of_blockable {source : TaskStatus} (blockable : .blocked ∈ allowed source) :
    source.resolved = false := by
  cases source <;> first | rfl | (revert blockable; decide)

theorem Recorded.tame (recorded : Recorded history) : Tame history.store := by
  intro task listed status
  obtain ⟨-, blockable⟩ := recorded task listed status
  rw [restoreTo]
  cases known : task.previousStatus with
  | none => rfl
  | some source => exact unresolved_of_blockable (blockable source known)

theorem statusOf_of_found {id : TaskId} (found : store.findById id = some task) :
    store.statusOf id = some task.status := by
  rw [statusOf, found, map_some]

theorem afterRestore_blocked {ids : List TaskId} (blocked : (afterRestore around cascade store ids task).status = .blocked) :
    afterRestore around cascade store ids task = task := by
  rw [afterRestore] at blocked ⊢
  split
  · rename_i restored
    rw [if_pos restored, TaskPatch.apply_status, restorePatch_status] at blocked
    rw [blocked] at restored
    exact absurd restored.2.2 (by decide)
  · rfl

theorem Recorded.step (recorded : Recorded history) (move : Move) : Recorded (history.step move) := by
  have kept (same : makeMove history.store move = history.store) : Recorded (history.step move) := by
    intro task listed status
    have found := findById_of_mem listed
    simp only [History.step, same] at listed found ⊢
    rw [statusOf_of_found found, status]
    simpa using recorded task listed status
  cases found : history.store.findById move.taskId with
  | none => exact kept (by simp only [makeMove, found])
  | some task =>
    cases clear : refusal move.around history.store task move.target move.opts with
    | some reason => exact kept (makeMove_refused found clear)
    | none =>
      intro row listed status
      have present := findById_of_mem listed
      have rows := makeMove_rows recorded.tame found clear row.id
      have after : (history.step move).store.findById row.id = (makeMove history.store move).findById row.id := rfl
      rw [after, rows, map_eq_some_iff] at present
      obtain ⟨old, there, whole⟩ := present
      have same : row = old := by
        rw [← whole]
        exact afterRestore_blocked (whole ▸ status)
      subst same
      have now : (makeMove history.store move).statusOf row.id = some .blocked := by
        rw [statusOf, rows, there, map_some, map_some, whole, status]
      rw [findById_updateTask] at there
      simp only [History.step, now, true_and]
      split at there
      · -- The task that moved is in `blocked` now, so it was not before.
        rename_i here
        rw [here] at there ⊢
        rw [found, map_some, some.injEq] at there
        have target : move.target = .blocked := by
          rw [← status, ← there, TaskPatch.apply_status, Move.patch_status]
        have legal : .blocked ∈ allowed task.status := target ▸ legal_of_clear clear
        have moved : task.status ≠ .blocked := by
          intro was
          rw [was] at legal
          revert legal
          decide
        have written : row.previousStatus = some task.status := by
          rw [← there]
          simp [TaskPatch.apply, Move.patch, movePatch, transitionPatch, moved, target]
        rw [statusOf_of_found found, if_pos (by simpa using moved), written]
        exact ⟨rfl, fun source known => some.inj known ▸ legal⟩
      · rw [statusOf_of_found there, status]
        simpa using recorded row (findById_mem there).1 status

/-! ## What a move releases -/

section
variable (found : history.store.findById move.taskId = some task)
  (clear : refusal move.around history.store task move.target move.opts = none)
include found

theorem released_resolved {other : Task}
    (released : Released (history.store.updateTask move.taskId (move.patch task)) move.taskId other) :
    move.target.resolved = true := by
  by_contra unresolved
  refine not_free_of_open released.1 ?_ released.2
  rw [isOpen_of_found (moved_self found), TaskPatch.apply_status, Move.patch_status]
  simpa using unresolved

theorem released_iff_waits {other : Task} (resolved : move.target.resolved = true) :
    Released (history.store.updateTask move.taskId (move.patch task)) move.taskId other ↔
      WaitsOnlyFor history.store move.taskId other := by
  have mover : (history.store.updateTask move.taskId (move.patch task)).isOpen move.taskId = false := by
    rw [isOpen_of_found (moved_self found), TaskPatch.apply_status, Move.patch_status, resolved]
    rfl
  have others (id : TaskId) (apart : id ≠ move.taskId) :
      (history.store.updateTask move.taskId (move.patch task)).isOpen id = history.store.isOpen id := by
    rw [isOpen, findById_updateTask, if_neg apart, isOpen]
  constructor
  · rintro ⟨listed, free⟩
    refine ⟨free.status, listed, fun block inside own apart => ?_⟩
    rw [← others _ apart]
    exact openBlockerIds_eq_nil.mp free.clear block inside own
  · intro waits
    refine ⟨waits.listed, waits.status, openBlockerIds_eq_nil.mpr fun block inside own => ?_⟩
    by_cases here : block.blockedByTaskId = move.taskId
    · rw [here, mover]
    · rw [others _ here]
      exact waits.others block inside own here

theorem released_other {other : Task}
    (listed : other ∈ (history.store.updateTask move.taskId (move.patch task)).tasks)
    (released : Released (history.store.updateTask move.taskId (move.patch task)) move.taskId other) :
    other.id ≠ move.taskId ∧ other ∈ history.store.tasks := by
  have present := findById_of_mem listed
  have different : other.id ≠ move.taskId := by
    intro here
    rw [here, moved_self found, some.injEq] at present
    have status : move.target = .blocked := by rw [← released.2.status, ← present]; rfl
    have resolved := released_resolved found released
    rw [status] at resolved
    cases resolved
  rw [findById_updateTask, if_neg different] at present
  exact ⟨different, (findById_mem present).1⟩

end

theorem cascadeRestores_iff (recorded : Recorded history) (move : Move) :
    CascadeRestores history move ↔ NoneBlockedInReview history move := by
  constructor
  · intro restores task found clear resolved other listed different waits review
    have made := made_landed found clear
    have released := (released_iff_waits found resolved).mpr waits
    have row : (move.made history.store task).value = .ok ((move.patch task).apply task) := by rw [made]
    have moved : (history.store.updateTask move.taskId (move.patch task)).findById other.id = some other := by
      rw [findById_updateTask, if_neg different, findById_of_mem listed]
    obtain ⟨-, effects⟩ := restores task _ found row
    rw [made] at effects
    obtain ⟨restored, after, status, -⟩ := (effects other (findById_mem moved).1).1 released
    -- The row is left as it is: review is no status a blocked task may go to.
    have kept : afterRestore move.around (move.started task) (history.store.updateTask move.taskId (move.patch task))
        ((history.store.updateTask move.taskId (move.patch task)).findTasksBlockedBy move.taskId) other = other := by
      refine afterRestore_of_kept fun both => ?_
      have legal := both.2
      rw [restoreTo, (recorded other listed waits.status).1, review] at legal
      revert legal
      decide
    rw [makeMove_rows recorded.tame found clear, moved, map_some, kept, some.injEq] at after
    rw [← after, waits.status, review] at status
    cases status
  · intro noneInReview task row found landed
    have clear := clear_of_made landed
    have made := made_landed found clear
    refine ⟨settled_end _, ?_⟩
    simp only [made]
    intro other listed
    have moved := findById_of_mem listed
    have rows := makeMove_rows recorded.tame found clear other.id
    dsimp only at rows
    rw [moved, map_some] at rows
    constructor
    · intro released
      obtain ⟨different, before⟩ := released_other found listed released
      have resolved := released_resolved found released
      have waits := (released_iff_waits found resolved).mp released
      have apart := noneInReview task found clear resolved other before different waits
      obtain ⟨known, blockable⟩ := recorded other before released.2.status
      have legal : restoreTo other ∈ allowed .blocked := by
        rw [restoreTo]
        rw [← known] at apart
        cases source : other.previousStatus with
        | none => decide
        | some source' =>
          rw [source] at apart
          have blockable := blockable source' source
          cases source' <;> first | decide | (revert blockable; decide) | exact absurd rfl apart
      refine ⟨_, rows, ?_⟩
      rw [afterRestore, if_pos ⟨released.1, released.2, legal⟩]
      refine ⟨?_, ?_⟩
      · rw [TaskPatch.apply_status, restorePatch_status, restoreTo, known]
      · simp [TaskPatch.apply, restorePatch, transitionPatch, released.2.status]
    · intro unreleased
      rw [rows, afterRestore, if_neg fun restored => unreleased ⟨restored.1, restored.2.1⟩]

/-! ## Every history -/

theorem recorded_created (created : ∀ task ∈ store.tasks, task.previousStatus = none) :
    Recorded ⟨store, fun _ => none⟩ := by
  intro task listed _
  have none_yet := created task listed
  exact ⟨none_yet, fun source known => by rw [none_yet] at known; cases known⟩

/-- Over a history of moves that starts with tasks as they are created, the cascades of every move do what they are
for exactly if no move releases a task that was blocked in review. -/
theorem cascades_restore_iff (store : TaskStore) (created : ∀ task ∈ store.tasks, task.previousStatus = none)
    (moves : List Move) :
    Along History.step CascadeRestores ⟨store, fun _ => none⟩ moves ↔
      Along History.step NoneBlockedInReview ⟨store, fun _ => none⟩ moves := by
  have start : Recorded ⟨store, fun _ => none⟩ := recorded_created created
  have always : Along History.step (fun _ _ => True) ⟨store, fun _ => none⟩ moves :=
    along_of_forall (p := fun _ => True) (fun _ _ => trivial) _
  have recorded : Along History.step (fun history _ => Recorded history) ⟨store, fun _ => none⟩ moves :=
    along_of_inv (fun history move recorded _ => recorded.step move) (fun _ _ recorded _ => recorded) start always
  exact along_congr (fun history move recorded => cascadeRestores_iff recorded move) recorded

def waitingIn (status : TaskStatus) : TaskStore where
  tasks := [{ id := "first", status := .todo }, { id := "second", status }]
  unique := by simp
  blocks := [⟨"second", "first"⟩]

def quietSurroundings : Surroundings where
  allApproved _ := false
  refusingGate _ := none

def blockThenCancel : List Move :=
  [{ taskId := "second", target := .blocked, around := quietSurroundings },
    { taskId := "first", target := .cancelled, around := quietSurroundings }]

theorem waitingIn_created (status : TaskStatus) : ∀ task ∈ (waitingIn status).tasks, task.previousStatus = none := by
  simp [waitingIn]

theorem blocked_in_progress_restored :
    Along History.step CascadeRestores ⟨waitingIn .inProgress, fun _ => none⟩ blockThenCancel := by
  refine (cascades_restore_iff _ (waitingIn_created _) _).mpr ⟨?_, ?_, trivial⟩
  · intro task found clear resolved
    cases resolved
  · have recorded : ∀ id ∈ ["first", "second"],
        (History.step ⟨waitingIn .inProgress, fun _ => none⟩
          { taskId := "second", target := .blocked, around := quietSurroundings }).blockedFrom id ≠ some .inReview := by
      decide
    have ids : ∀ other ∈ (History.step ⟨waitingIn .inProgress, fun _ => none⟩
        { taskId := "second", target := .blocked, around := quietSurroundings }).store.tasks,
        other.id ∈ ["first", "second"] := by
      decide
    intro task found clear resolved other listed different waits
    exact recorded other.id (ids other listed)

theorem blocked_in_review_stays_blocked :
    (∀ task ∈ (waitingIn .inReview).tasks, task.previousStatus = none) ∧
      ¬ Along History.step CascadeRestores ⟨waitingIn .inReview, fun _ => none⟩ blockThenCancel := by
  refine ⟨waitingIn_created _, fun restores => ?_⟩
  obtain ⟨-, second, -⟩ := restores
  have recorded : Recorded (History.step ⟨waitingIn .inReview, fun _ => none⟩
      { taskId := "second", target := .blocked, around := quietSurroundings }) :=
    (recorded_created (waitingIn_created .inReview)).step _
  have held := (cascadeRestores_iff recorded _).mp second
  let first : Task := { id := "first", status := .todo }
  let waiting : Task := { id := "second", status := .blocked, previousStatus := some .inReview }
  refine held first (by decide) (by decide) rfl waiting (by decide) (by decide)
    ⟨rfl, by decide, ?_⟩ (by decide)
  intro block inside _ apart
  have only : block = ⟨"second", "first"⟩ := List.mem_singleton.mp inside
  exact absurd (by rw [only]) apart

end EverWorks.Tasks
