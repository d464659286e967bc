import EverWorks.Goals.LoopAdvance

/-!
Advances one after another, with runs that start, cost and end, pull requests that open and close and Tasks that finish
in between: what becomes of the spend, of the concurrency and of the numbers of the iterations.
-/

namespace EverWorks.Goals
open Lib Lib.Utf16 Lib.Program List List

structure PullRequestColumns where
  prNumber : Option { number : Nat // number ≠ 0 }
  prUrl : Option { url : String // url ≠ "" }
  prState : Option String
  branchState : Option String

inductive LoopEvent
  | tick (answers : AdvanceAnswers)
  | advance (answers : AdvanceAnswers)
  | startRun (runId : Nat) (startedAt : Int)
  | endRun (runId : Nat) (completed : Bool)
  | costRun (runId : Nat) (costCents : Option Int)
  /-- Another run of a Task. -/
  | newRun (taskId : Nat)
  | pullRequest (taskId : Nat) (columns : PullRequestColumns)
  | moveTask (taskId : Nat) (status : Tasks.TaskStatus)

def changeTask (taskId : Nat) (change : IterationTask → IterationTask) (state : LoopState) : LoopState :=
  { state with tasks := state.tasks.map fun task => if task.id = taskId then change task else task }

def PullRequestColumns.on (columns : PullRequestColumns) (task : IterationTask) : IterationTask :=
  { task with
    prNumber := columns.prNumber.map (·.val)
    prUrl := columns.prUrl.map (·.val)
    prState := columns.prState
    branchState := columns.branchState }

def stepLoop (state : LoopState) : LoopEvent → LoopState
  | .tick answers => ((Goals.tick answers).eval serveLoop state).state
  | .advance answers => ((Goals.advance answers).eval serveLoop state).state
  | .startRun runId startedAt => (serveLoop (.startRun runId startedAt) state).2
  | .endRun runId completed => (serveLoop (.endRun runId completed) state).2
  | .costRun runId costCents => changeRun runId (fun run => { run with costCents }) state
  | .newRun taskId =>
    if taskId ∈ state.tasks.map (·.id) then (serveLoop (.createRun taskId .queued) state).2 else state
  | .pullRequest taskId columns => changeTask taskId columns.on state
  | .moveTask taskId status => changeTask taskId (fun task => { task with status }) state

/-- What an advance does to the ceilings: it files no Task where the spend of all runs has reached the cap, and it
leaves no more slots taken than the ceiling, or than there were. -/
def Ceilings (state : LoopState) : LoopEvent → Prop
  | event@(.tick _) | event@(.advance _) =>
    (spendCapReached state.goal.spendCapCents (spendOf state.runs) = true → (stepLoop state event).tasks = state.tasks) ∧
      slotsTaken (stepLoop state event) ≤ max (concurrencyCeiling state.goal) (slotsTaken state)
  | _ => True

/-- The oldest Tasks tell of all: no run of a later one is in flight, and the cap is not reached by their runs alone.
And no dispatch throws once it has filed its Task. -/
def WindowTells (state : LoopState) : LoopEvent → Prop
  | .tick answers | .advance answers =>
    (∀ run ∈ state.runs, run.isActive = true → run.taskId ∈ (state.tasks.take maxGoalTasks).map (·.id)) ∧
    (spendCapReached state.goal.spendCapCents (spendOf state.runs) = true →
      spendCapReached state.goal.spendCapCents (spendOf (windowRuns state)) = true) ∧
    ∀ index run, answers.slots index ≠ .filed run true
  | _ => True

section
variable {state after : LoopState} {slots : List DispatchSlot}

theorem concurrencyCeiling_le (goal : Goal) : concurrencyCeiling goal ≤ maxConcurrentIterationsCap := by
  rw [concurrencyCeiling, resolveMaxConcurrentIterations, maxConcurrentIterationsCap]
  cases goal.maxConcurrentIterations with
  | none => decide
  | some raw =>
    rw [Option.map_some, Option.getD_some]
    omega

theorem Advanced.tasks_eq (advanced : Advanced state after slots) : ∃ new, after.tasks = state.tasks ++ new ∧
    new.map (·.title) = slots.map (fun slot => iterationTitle state.title slot.iteration) ∧
    (new.map (·.id)).Nodup ∧
    ∀ task ∈ new, state.next ≤ task.id ∧ task.id < after.next ∧ task.prNumber = none ∧ task.prUrl = none :=
  advanced.filed.tasks

theorem Advanced.runs_eq (advanced : Advanced state after slots) : ∃ more, after.runs = state.runs ++ more ∧
    more.length ≤ slots.length ∧ ∀ run ∈ more, state.next ≤ run.taskId :=
  advanced.filed.runs

theorem Advanced.awaiting (advanced : Advanced state after slots) (books : LoopBooks state) :
    after.tasks.filter (awaitsMerge after) = state.tasks.filter (awaitsMerge state) := by
  obtain ⟨new, tasks, _, _, fresh⟩ := advanced.tasks_eq
  obtain ⟨more, runs, _, away⟩ := advanced.runs_eq
  have none : new.filter (awaitsMerge after) = [] := by
    refine filter_eq_nil_iff.mpr fun task listed awaits => ?_
    simp [awaitsMerge, openPullRequestWhere, (fresh task listed).2.2.1] at awaits
  rw [tasks, filter_append, none, append_nil]
  refine filter_congr fun task listed => ?_
  have idle : (more.any fun run => run.taskId == task.id && run.isActive) = false := by
    refine any_eq_false.mpr fun run started => ?_
    have later := away run started
    have below := books.below task listed
    rw [Bool.and_eq_true, beq_iff_eq]
    rintro ⟨same, _⟩
    omega
  rw [awaitsMerge, awaitsMerge, advanced.workId, advanced.filed.work, runs, any_append, idle, Bool.or_false]

theorem Advanced.ceilings (advanced : Advanced state after slots) (books : LoopBooks state)
    (tells : ∀ run ∈ state.runs, run.isActive = true → run.taskId ∈ (state.tasks.take maxGoalTasks).map (·.id))
    (cap : spendCapReached state.goal.spendCapCents (spendOf state.runs) = true →
      spendCapReached state.goal.spendCapCents (spendOf (windowRuns state)) = true) :
    (spendCapReached state.goal.spendCapCents (spendOf state.runs) = true → after.tasks = state.tasks) ∧
      slotsTaken after ≤ max (concurrencyCeiling state.goal) (slotsTaken state) := by
  obtain ⟨new, tasks, titles, _, _⟩ := advanced.tasks_eq
  obtain ⟨more, runs, few, _⟩ := advanced.runs_eq
  constructor
  · intro reached
    have nothing : slots = [] := by
      by_contra some
      exact absurd (cap reached) (by rw [(advanced.room some).1]; exact Bool.false_ne_true)
    rw [nothing, map_nil, map_eq_nil_iff] at titles
    rw [tasks, titles, append_nil]
  · have active : (after.runs.filter (·.isActive)).length ≤ (state.runs.filter (·.isActive)).length + slots.length := by
      rw [runs, filter_append, length_append]
      have less := length_filter_le (·.isActive) more
      omega
    have taken : slotsTaken after ≤ slotsTaken state + slots.length := by
      rw [slotsTaken, slotsTaken, advanced.awaiting books]
      omega
    by_cases some : slots = []
    · rw [some, length_nil, Nat.add_zero] at taken
      exact taken.trans (le_max_right _ _)
    · have fits := (advanced.room some).2
      have bound := concurrencyCeiling_le state.goal
      rw [windowRuns_active tells] at fits
      have scan := scanned_tells books (length_pos_of_ne_nil some) (fits.trans bound)
      rw [slotsTaken] at taken ⊢
      refine taken.trans (le_max_of_le_left ?_)
      rw [slotsTaken]
      omega

theorem Advanced.books (advanced : Advanced state after slots) (books : LoopBooks state) : LoopBooks after := by
  obtain ⟨new, tasks, titles, distinct, fresh⟩ := advanced.tasks_eq
  have next : state.next ≤ after.next := advanced.filed.next
  have numbers : iterationNumbers after =
      iterationNumbers state ++ (range slots.length).map (state.goal.iteration + 1 + ·) := by
    have filed : new.filterMap (fun task => iterationFromTitle task.title) = slots.map (·.iteration) := by
      have read := congrArg (filterMap iterationFromTitle) titles
      rw [filterMap_map, filterMap_map] at read
      refine read.trans ?_
      rw [← filterMap_eq_map]
      exact filterMap_congr fun slot _ => iterationFromTitle_title state.title slot.iteration
    rw [iterationNumbers, tasks, filterMap_append, filed, advanced.numbered, iterationNumbers]
  constructor
  · rw [tasks, map_append, nodup_append]
    refine ⟨books.tasks, distinct, fun first old second late same => ?_⟩
    obtain ⟨task, listed, rfl⟩ := mem_map.mp old
    obtain ⟨other, filed, rfl⟩ := mem_map.mp late
    have below := books.below task listed
    have above := (fresh other filed).1
    omega
  · intro task listed
    rcases mem_append.mp (tasks ▸ listed) with old | late
    · exact lt_of_lt_of_le (books.below task old) next
    · exact (fresh task late).2.1
  · rw [numbers, nodup_append]
    refine ⟨books.numbers, nodup_range.map fun one other same => Nat.add_left_cancel same, ?_⟩
    intro first old second late same
    obtain ⟨n, _, rfl⟩ := mem_map.mp late
    have counted := books.counted first old
    omega
  · intro n listed
    rw [numbers] at listed
    rw [advanced.iteration]
    rcases mem_append.mp listed with old | late
    · exact (books.counted n old).trans (Nat.le_add_right _ _)
    · obtain ⟨index, inside, rfl⟩ := mem_map.mp late
      have less := mem_range.mp inside
      omega
  · intro task listed
    rcases mem_append.mp (tasks ▸ listed) with old | late
    · exact books.genuine task old
    · rw [(fresh task late).2.2.1, (fresh task late).2.2.2]
      exact ⟨nofun, nofun⟩

theorem LoopBooks.same (books : LoopBooks state) (tasks : after.tasks = state.tasks) (next : state.next ≤ after.next)
    (goal : after.goal = state.goal) : LoopBooks after := by
  have numbers : iterationNumbers after = iterationNumbers state := by rw [iterationNumbers, tasks, iterationNumbers]
  exact ⟨tasks ▸ books.tasks, fun task listed => lt_of_lt_of_le (books.below task (tasks ▸ listed)) next,
    numbers ▸ books.numbers, fun n listed => goal ▸ books.counted n (numbers ▸ listed),
    fun task listed => books.genuine task (tasks ▸ listed)⟩

theorem LoopBooks.changed (books : LoopBooks state) (taskId : Nat) {change : IterationTask → IterationTask}
    (id : ∀ task, (change task).id = task.id) (title : ∀ task, (change task).title = task.title)
    (genuine : ∀ task, task.prNumber ≠ some 0 ∧ task.prUrl ≠ some "" →
      (change task).prNumber ≠ some 0 ∧ (change task).prUrl ≠ some "") :
    LoopBooks (changeTask taskId change state) := by
  have ids : (changeTask taskId change state).tasks.map (·.id) = state.tasks.map (·.id) := by
    rw [changeTask, map_map]
    refine map_congr_left fun task _ => ?_
    dsimp only [Function.comp]
    split
    · exact id task
    · rfl
  have numbers : iterationNumbers (changeTask taskId change state) = iterationNumbers state := by
    rw [iterationNumbers, changeTask, filterMap_map, iterationNumbers]
    refine filterMap_congr fun task _ => ?_
    dsimp only [Function.comp]
    split
    · rw [title task]
    · rfl
  refine ⟨ids ▸ books.tasks, ?_, numbers ▸ books.numbers, fun n listed => books.counted n (numbers ▸ listed), ?_⟩
  · intro task listed
    have there : task.id ∈ (changeTask taskId change state).tasks.map (·.id) := mem_map_of_mem listed
    rw [ids] at there
    obtain ⟨before, old, same⟩ := mem_map.mp there
    rw [← same]
    exact books.below before old
  · intro task listed
    obtain ⟨before, there, rfl⟩ := mem_map.mp listed
    split
    · exact genuine before (books.genuine before there)
    · exact books.genuine before there

theorem PullRequestColumns.genuine (columns : PullRequestColumns) (task : IterationTask) :
    (columns.on task).prNumber ≠ some 0 ∧ (columns.on task).prUrl ≠ some "" := by
  rw [PullRequestColumns.on]
  constructor
  · cases columns.prNumber with
    | none => nofun
    | some number => exact fun zero => number.2 (Option.some.inj zero)
  · cases columns.prUrl with
    | none => nofun
    | some url => exact fun empty => url.2 (Option.some.inj empty)

theorem step_books (books : LoopBooks state) (event : LoopEvent) (tells : WindowTells state event) :
    LoopBooks (stepLoop state event) := by
  cases event with
  | tick answers =>
    obtain ⟨filed, advanced⟩ := @eval_tick state answers tells.2.2
    exact advanced.books books
  | advance answers =>
    obtain ⟨filed, advanced⟩ := @eval_advance state answers tells.2.2
    exact advanced.books books
  | startRun | endRun | costRun => exact books.same rfl le_rfl rfl
  | newRun taskId =>
    rw [stepLoop]
    split
    · exact books.same rfl (Nat.le_succ _) rfl
    · exact books
  | pullRequest taskId columns =>
    exact books.changed taskId (fun _ => rfl) (fun _ => rfl) fun task _ => columns.genuine task
  | moveTask taskId status => exact books.changed taskId (fun _ => rfl) (fun _ => rfl) fun _ genuine => genuine

theorem step_ceilings (books : LoopBooks state) (event : LoopEvent) (tells : WindowTells state event) :
    Ceilings state event := by
  cases event with
  | tick answers =>
    obtain ⟨filed, advanced⟩ := @eval_tick state answers tells.2.2
    exact advanced.ceilings books tells.1 tells.2.1
  | advance answers =>
    obtain ⟨filed, advanced⟩ := @eval_advance state answers tells.2.2
    exact advanced.ceilings books tells.1 tells.2.1
  | startRun | endRun | costRun | newRun | pullRequest | moveTask => trivial

end

/-- Where the oldest Tasks tell of all at every advance, the loop stays inside its ceilings, and no two of its Tasks
carry one number. -/
theorem ceilings_of_windowTells {state : LoopState} {events : List LoopEvent} (books : LoopBooks state)
    (tells : Along stepLoop WindowTells state events) :
    Along stepLoop Ceilings state events ∧
      ∀ first, first <+: events → (iterationNumbers (run stepLoop state first)).Nodup := by
  have kept (state : LoopState) (event : LoopEvent) (books : LoopBooks state) (tells : WindowTells state event) :
      LoopBooks (stepLoop state event) := step_books books event tells
  refine ⟨along_of_inv kept (fun state event books tells => step_ceilings books event tells) books tells, ?_⟩
  exact fun first isPre => (initial_along kept books tells isPre).numbers

def cappedGoal : LoopState where
  goal := { loopStatus := some .running, maxConcurrentIterations := some 2, spendCapCents := some 50 }
  title := Utf16.ofString "Ship it"
  next := 1

theorem cappedGoal_books : LoopBooks cappedGoal where
  tasks := nodup_nil
  below := fun _ filed => absurd filed not_mem_nil
  numbers := nodup_nil
  counted := fun _ filed => absurd filed not_mem_nil
  genuine := fun _ filed => absurd filed not_mem_nil

def cappedEvents : List LoopEvent :=
  [.tick plainAnswers, .startRun 2 5, .costRun 2 (some 60), .endRun 2 true, .advance plainAnswers]

theorem capped_run : Along stepLoop WindowTells cappedGoal cappedEvents ∧
    Along stepLoop Ceilings cappedGoal cappedEvents ∧
      ∀ first, first <+: cappedEvents → (iterationNumbers (run stepLoop cappedGoal first)).Nodup := by
  have tells : Along stepLoop WindowTells cappedGoal cappedEvents :=
    ⟨⟨by decide, by decide, nofun⟩, trivial, trivial, trivial,
      ⟨by decide, by decide, nofun⟩, trivial⟩
  exact ⟨tells, ceilings_of_windowTells cappedGoal_books tells⟩

def filedTasks (count : Nat) : List IterationTask :=
  (range count).map fun n => { id := n, title := iterationTitle (Utf16.ofString "Ship it") (n + 1) }

/-- A Goal of so many iterations, the last of which is in flight and has cost more than the cap. -/
def longGoal (count : Nat) : LoopState where
  goal := {
    loopStatus := some .running
    maxConcurrentIterations := some 1
    spendCapCents := some 50
    iteration := count
    assignedAgentId := some 7 }
  title := Utf16.ofString "Ship it"
  tasks := filedTasks count
  runs := [⟨count, count - 1, .running, some 5, some 60⟩]
  next := count + 1

theorem longGoal_books (count : Nat) : LoopBooks (longGoal count) := by
  have numbers : iterationNumbers (longGoal count) = (range count).map (· + 1) := by
    rw [iterationNumbers, longGoal, filedTasks, filterMap_map, ← filterMap_eq_map]
    exact filterMap_congr fun n _ => iterationFromTitle_title _ _
  refine ⟨?_, ?_, ?_, ?_, ?_⟩
  · rw [longGoal, filedTasks, map_map]
    exact nodup_range.map fun _ _ same => same
  · intro task listed
    obtain ⟨n, inside, rfl⟩ := mem_map.mp listed
    exact Nat.lt_succ_of_lt (mem_range.mp inside)
  · rw [numbers]
    exact nodup_range.map fun _ _ same => Nat.succ.inj same
  · intro n listed
    obtain ⟨index, inside, rfl⟩ := mem_map.mp (numbers ▸ listed)
    exact mem_range.mp inside
  · intro task listed
    obtain ⟨n, inside, rfl⟩ := mem_map.mp listed
    exact ⟨nofun, nofun⟩

/-- An advance of a Goal with 501 iterations sees neither the cost nor the run: it files one more Task. -/
theorem long_goal_unseen : LoopBooks (longGoal 501) ∧
    ¬ Along stepLoop Ceilings (longGoal 501) [.advance plainAnswers] := by
  refine ⟨longGoal_books 501, fun along => ?_⟩
  have same := congrArg length (along.1.1 (by decide +kernel))
  have more : (stepLoop (longGoal 501) (.advance plainAnswers)).tasks.length = 502 := by decide +kernel
  have before : (longGoal 501).tasks.length = 501 := by decide +kernel
  omega

end EverWorks.Goals
