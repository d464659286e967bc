import EverWorks.Goals.Loop

/-!
What an advance reads of the rows, and what it files: the slots that it decides on, the Tasks and the runs that land, and
how far the counter of the iterations moves.
-/

namespace EverWorks.Goals
open Lib Lib.Utf16 Lib.Program List List

theorem isDigitUnit_repr {n : Nat} {unit : UInt16} (listed : unit ∈ ofString n.repr) : isDigitUnit unit = true := by
  obtain ⟨low, high⟩ := digit_of_mem_repr listed
  rw [isDigitUnit, decide_eq_true low, decide_eq_true high]
  rfl

theorem isWhiteSpace_digit {unit : UInt16} (digit : isDigitUnit unit = true) : isWhiteSpace unit = false := by
  rw [isDigitUnit, Bool.and_eq_true, decide_eq_true_eq, decide_eq_true_eq, UInt16.le_iff_toNat_le,
    UInt16.le_iff_toNat_le] at digit
  have low : 0x30 ≤ unit.toNat := digit.1
  have high : unit.toNat ≤ 0x39 := digit.2
  by_contra white
  simp only [isWhiteSpace, Bool.not_eq_false, Bool.or_eq_true, Bool.and_eq_true, decide_eq_true_eq, beq_iff_eq,
    UInt16.le_iff_toNat_le, ← UInt16.toNat_inj] at white
  simp at white
  omega

theorem iterationFromTitle_title (title : Utf16) (n : Nat) : iterationFromTitle (iterationTitle title n) = some n := by
  let word := (ofString "iteration").reverse
  let front := 0x20 :: (ofString " —").reverse ++ (ofString "[Goal] " ++ title).reverse
  let digits := (ofString n.repr).reverse
  have backwards : (iterationTitle title n).reverse = digits ++ (0x20 :: (word ++ front)) := by
    have middle : (ofString " — iteration ").reverse = 0x20 :: (word ++ 0x20 :: (ofString " —").reverse) := by decide
    rw [iterationTitle, reverse_append, reverse_append, middle]
    simp [front, digits]
  have isDigit : ∀ unit ∈ digits, isDigitUnit unit = true := fun unit listed =>
    isDigitUnit_repr (mem_reverse.mp listed)
  have solid : (digits ++ (0x20 :: (word ++ front))).dropWhile isWhiteSpace = digits ++ (0x20 :: (word ++ front)) := by
    cases split : digits with
    | nil => exact absurd (reverse_eq_nil_iff.mp split) (ofString_repr_ne_nil n)
    | cons unit rest =>
      have first := isWhiteSpace_digit (isDigit unit (split ▸ mem_cons_self))
      rw [cons_append, dropWhile_cons_of_neg (by rw [first]; exact Bool.false_ne_true)]
  have blank : isDigitUnit 0x20 = false := by decide
  have taken : (digits ++ (0x20 :: (word ++ front))).takeWhile isDigitUnit = digits := by
    rw [takeWhile_append_of_pos isDigit, takeWhile_cons_of_neg (by rw [blank]; exact Bool.false_ne_true),
      append_nil]
  have dropped : (digits ++ (0x20 :: (word ++ front))).dropWhile isDigitUnit = 0x20 :: (word ++ front) := by
    rw [dropWhile_append_of_pos isDigit, dropWhile_cons_of_neg (by rw [blank]; exact Bool.false_ne_true)]
  have after : (0x20 :: (word ++ front)).dropWhile isWhiteSpace = word ++ front := rfl
  have named : word.isPrefixOf (lowerUnits (word ++ front)) = true := by
    have lower : lowerUnits word = word := by decide
    rw [ isPrefixOf_iff_prefix, lowerUnits, map_append]
    exact ⟨_, congrArg (· ++ lowerUnits front) lower.symm⟩
  have some : digits ≠ [] := fun none => ofString_repr_ne_nil n (reverse_eq_nil_iff.mp none)
  rw [iterationFromTitle.eq_def]
  dsimp only
  rw [backwards, solid, taken, dropped, after, if_neg some]
  rw [if_neg (show ¬ ((0x20 :: (word ++ front)).takeWhile isWhiteSpace).isEmpty = true from nofun), if_pos named,
    reverse_reverse, map_ofString_repr, Nat.ofDigitChars_toDigits (by decide) (by decide)]

def awaitsMerge (state : LoopState) (task : IterationTask) : Bool :=
  state.goal.workId.isSome && state.work == .appWork && openPullRequestWhere state.goal.workId task &&
    hasOpenPullRequest task && !state.runs.any fun run => run.taskId == task.id && run.isActive

def slotsTaken (state : LoopState) : Nat :=
  (state.runs.filter (·.isActive)).length + (state.tasks.filter (awaitsMerge state)).length

def concurrencyCeiling (goal : Goal) : Nat :=
  resolveMaxConcurrentIterations (goal.maxConcurrentIterations.map (min · maxConcurrentIterationsCap))

def iterationNumbers (state : LoopState) : List Nat := state.tasks.filterMap fun task => iterationFromTitle task.title

def windowRuns (state : LoopState) : List AgentRun :=
  runsOf state ((state.tasks.take maxGoalTasks).map (·.id))

/-- The rows as the loop keeps them: numbers of their own, iterations each once and none that the counter has not
reached, pull requests with a number and a URL. -/
structure LoopBooks (state : LoopState) : Prop where
  tasks : (state.tasks.map (·.id)).Nodup
  below : ∀ task ∈ state.tasks, task.id < state.next
  numbers : (iterationNumbers state).Nodup
  counted : ∀ n ∈ iterationNumbers state, n ≤ state.goal.iteration
  genuine : ∀ task ∈ state.tasks, task.prNumber ≠ some 0 ∧ task.prUrl ≠ some ""

section
variable {state : LoopState} {answers : AdvanceAnswers}

theorem eval_loadGoalWork (inFlight : List Nat) : (loadGoalWork inFlight).eval serveLoop state =
    ⟨(state.tasks.take maxGoalTasks, windowRuns state), state, []⟩ := by
  rw [loadGoalWork, ask_bind, eval_call]
  by_cases none : state.tasks.take maxGoalTasks = []
  · refine (congrArg (fun program => eval serveLoop program state) (if_pos none)).trans ?_
    rw [windowRuns, none, runsOf]
    simp
  · exact congrArg (fun program => eval serveLoop program state) (if_neg none)

theorem windowRuns_perm (state : LoopState) : (windowRuns state).Perm
    (state.runs.filter (·.taskId ∈ (state.tasks.take maxGoalTasks).map (·.id))) :=
  perm_insertionSort _ _

def scanned (state : LoopState) : List IterationTask :=
  if state.goal.workId.isSome ∧ state.work = .appWork then
    (((state.tasks.filter (openPullRequestWhere state.goal.workId)).take goalAwaitingMergeScan).filter
      hasOpenPullRequest).filter fun task => !state.runs.any fun run => run.taskId == task.id && run.isActive
  else []

theorem eval_goalWorkState {goal : Goal} (same : goal.workId = state.goal.workId) :
    ∃ value, (goalWorkState answers goal).eval serveLoop state = ⟨value, state, []⟩ ∧
      (value.unavailable = false → value.unreadable = false → value.awaitingMerge = scanned state) := by
  rw [goalWorkState, same]
  by_cases none : state.goal.workId = none
  · rw [if_pos none]
    refine ⟨{}, rfl, fun _ _ => ?_⟩
    rw [scanned, none, if_neg nofun]
  rw [if_neg none, ask_bind, eval_call]
  by_cases readable : answers.workReadable = true
  swap
  · rw [eq_false_of_ne_true readable]
    exact ⟨{ unreadable := true }, rfl, nofun⟩
  rw [readable]
  have some : state.goal.workId.isSome = true := Option.isSome_iff_ne_none.mpr none
  cases work : state.work with
  | unavailable => exact ⟨{ unavailable := true }, by rw [serveLoop, work]; rfl, nofun⟩
  | other =>
    refine ⟨{}, by rw [serveLoop, work]; rfl, fun _ _ => ?_⟩
    rw [scanned, work, if_neg fun both => nomatch both.2]
  | appWork =>
    by_cases found : answers.pullRequestsReadable = true
    swap
    · exact ⟨{ unreadable := true }, by rw [serveLoop, work, eq_false_of_ne_true found]; rfl, nofun⟩
    refine ⟨{ awaitingMerge := scanned state }, ?_, fun _ _ => rfl⟩
    let candidates := ((state.tasks.filter (openPullRequestWhere state.goal.workId)).take goalAwaitingMergeScan).filter
      hasOpenPullRequest
    let running := (state.runs.filter fun run => run.taskId ∈ candidates.map (·.id) && run.isActive).map (·.taskId)
    have scan : scanned state = candidates.filter fun task =>
        !state.runs.any fun run => run.taskId == task.id && run.isActive := if_pos ⟨some, work⟩
    have kept : candidates.filter (·.id ∉ running) = scanned state := by
      rw [scan]
      refine filter_congr fun task listed => ?_
      have inside : task.id ∈ candidates.map (·.id) := mem_map_of_mem listed
      have either : task.id ∈ running ↔ (state.runs.any fun run => run.taskId == task.id && run.isActive) = true := by
        simp only [running, mem_map, mem_filter, any_eq_true, Bool.and_eq_true, decide_eq_true_eq,
          beq_iff_eq]
        constructor
        · rintro ⟨run, ⟨listed, _, active⟩, same⟩
          exact ⟨run, listed, same, active⟩
        · rintro ⟨run, listed, same, active⟩
          exact ⟨run, ⟨listed, mem_map.mp (same ▸ inside), active⟩, same⟩
      by_cases active : (state.runs.any fun run => run.taskId == task.id && run.isActive) = true
      · rw [active, decide_eq_false (not_not.mpr (either.mpr active))]
        rfl
      · rw [eq_false_of_ne_true active, decide_eq_true (mt either.mp active)]
        rfl
    rw [serveLoop, work, found]
    exact congrArg (fun awaitingMerge => (⟨{ awaitingMerge }, state, []⟩ : Outcome LoopState Empty GoalWorkState)) kept

theorem quiet_resolveCandidates {goal : Goal} : Quiet serveLoop (resolveCandidates answers goal) := by
  have load : Quiet serveLoop (loadGoalWork []) := fun state => by rw [eval_loadGoalWork]
  rw [resolveCandidates]
  split
  · exact .pure _
  refine .bind load fun work => ?_
  dsimp only
  split
  · exact .pure _
  · exact .pure _

theorem hasOpen_of_where {task : IterationTask} {workId : Option Nat} (opened : openPullRequestWhere workId task = true)
    (genuine : task.prNumber ≠ some 0 ∧ task.prUrl ≠ some "") : hasOpenPullRequest task = true := by
  simp only [openPullRequestWhere, Bool.and_eq_true] at opened
  obtain ⟨⟨⟨⟨⟨_, _⟩, number⟩, url⟩, state⟩, branch⟩ := opened
  obtain ⟨number, named⟩ := Option.isSome_iff_exists.mp number
  obtain ⟨url, linked⟩ := Option.isSome_iff_exists.mp url
  have number_ne : number ≠ 0 := fun zero => genuine.1 (zero ▸ named)
  have url_ne : url ≠ "" := fun empty => genuine.2 (empty ▸ linked)
  rw [hasOpenPullRequest, named, linked]
  cases there : task.prState <;> cases live : task.branchState <;> simp_all

theorem length_running_le {tasks : List IterationTask} (runs : List AgentRun) (distinct : (tasks.map (·.id)).Nodup) :
    (tasks.filter fun task => runs.any fun run => run.taskId == task.id && run.isActive).length ≤
      (runs.filter (·.isActive)).length := by
  have nodup : ((tasks.filter fun task => runs.any fun run => run.taskId == task.id && run.isActive).map
      (·.id)).Nodup := distinct.sublist (filter_sublist.map _)
  have inside : (tasks.filter fun task => runs.any fun run => run.taskId == task.id && run.isActive).map (·.id) ⊆
      (runs.filter (·.isActive)).map (·.taskId) := by
    intro id listed
    obtain ⟨task, there, rfl⟩ := mem_map.mp listed
    obtain ⟨run, found, both⟩ := any_eq_true.mp (mem_filter.mp there).2
    rw [Bool.and_eq_true, beq_iff_eq] at both
    exact mem_map.mpr ⟨run, mem_filter.mpr ⟨found, both.2⟩, both.1⟩
  simpa using (subperm_of_subset nodup inside).length_le

theorem scanned_tells (books : LoopBooks state) {free : Nat} (some : 0 < free)
    (room : free + ((state.runs.filter (·.isActive)).length + (scanned state).length) ≤ maxConcurrentIterationsCap) :
    (scanned state).length = (state.tasks.filter (awaitsMerge state)).length := by
  rw [scanned] at room ⊢
  split
  swap
  · rename_i away
    have nobody : state.tasks.filter (awaitsMerge state) = [] := by
      refine filter_eq_nil_iff.mpr fun task _ awaits => away ?_
      simp only [awaitsMerge, Bool.and_eq_true, beq_iff_eq] at awaits
      exact awaits.1.1.1
    rw [nobody]
  rename_i app
  rw [if_pos app] at room
  have genuine : ∀ task ∈ (state.tasks.filter (openPullRequestWhere state.goal.workId)).take goalAwaitingMergeScan,
      hasOpenPullRequest task = true := by
    intro task listed
    have there := mem_filter.mp (mem_of_mem_take listed)
    exact hasOpen_of_where there.2 (books.genuine task there.1)
  rw [filter_eq_self.mpr genuine] at room ⊢
  by_cases short : (state.tasks.filter (openPullRequestWhere state.goal.workId)).length ≤ goalAwaitingMergeScan
  · rw [take_of_length_le short, filter_filter]
    refine congrArg length (filter_congr fun task listed => ?_)
    rw [awaitsMerge, app.1, app.2]
    cases opened : openPullRequestWhere state.goal.workId task with
    | false => simp
    | true =>
      rw [hasOpen_of_where opened (books.genuine task listed)]
      simp
  · have full := length_take_of_le (Nat.le_of_not_le short)
    have distinct : (((state.tasks.filter (openPullRequestWhere state.goal.workId)).take
        goalAwaitingMergeScan).map (·.id)).Nodup :=
      books.tasks.sublist (((take_sublist _ _).trans filter_sublist).map _)
    have running := length_running_le state.runs distinct
    have parts := length_eq_length_filter_add (l := (state.tasks.filter (openPullRequestWhere
      state.goal.workId)).take goalAwaitingMergeScan) fun task =>
        state.runs.any fun run => run.taskId == task.id && run.isActive
    rw [full] at parts
    have scan : goalAwaitingMergeScan = 200 := rfl
    have cap : maxConcurrentIterationsCap = 10 := rfl
    omega

theorem windowRuns_active
    (tells : ∀ run ∈ state.runs, run.isActive = true → run.taskId ∈ (state.tasks.take maxGoalTasks).map (·.id)) :
    ((windowRuns state).filter (·.isActive)).length = (state.runs.filter (·.isActive)).length := by
  rw [((windowRuns_perm state).filter _).length_eq, filter_filter]
  refine congrArg length (filter_congr fun run listed => ?_)
  cases active : run.isActive with
  | false => rfl
  | true => exact decide_eq_true (tells run listed active)

structure Filed (slots : List DispatchSlot) (before after : LoopState) : Prop where
  tasks : ∃ new, after.tasks = before.tasks ++ new ∧
    new.map (·.title) = slots.map (fun slot => iterationTitle before.title slot.iteration) ∧
    (new.map (·.id)).Nodup ∧
    ∀ task ∈ new, before.next ≤ task.id ∧ task.id < after.next ∧ task.prNumber = none ∧ task.prUrl = none
  runs : ∃ more, after.runs = before.runs ++ more ∧ more.length ≤ slots.length ∧
    ∀ run ∈ more, before.next ≤ run.taskId
  goal : after.goal = before.goal
  title : after.title = before.title
  work : after.work = before.work
  next : before.next ≤ after.next

theorem Filed.nil (state : LoopState) : Filed [] state state :=
  ⟨⟨[], (append_nil _).symm, rfl, nodup_nil, by simp⟩, ⟨[], (append_nil _).symm, le_rfl, by simp⟩,
    rfl, rfl, rfl, le_rfl⟩

def fileSlot (copy : GoalCopy) (slot : DispatchSlot) (run : Option AgentRunStatus) (state : LoopState) : LoopState :=
  let filed := (serveLoop (.createTask copy slot) state).2
  match run with
  | some status => (serveLoop (.createRun state.next status) filed).2
  | none => filed

theorem Filed.cons {copy : GoalCopy} {slot : DispatchSlot} {rest : List DispatchSlot} {after : LoopState}
    (run : Option AgentRunStatus) (filed : Filed rest (fileSlot copy slot run state) after) :
    Filed (slot :: rest) state after := by
  let task : IterationTask := {
    id := state.next
    title := iterationTitle state.title slot.iteration
    agentId := some slot.agentId
    workId := copy.goal.workId }
  have whole {between : LoopState} {one : List AgentRun} (filed : Filed rest between after)
      (tasks : between.tasks = state.tasks ++ [task]) (runs : between.runs = state.runs ++ one)
      (few : one.length ≤ 1) (own : ∀ run ∈ one, run.taskId = state.next) (goal : between.goal = state.goal)
      (title : between.title = state.title) (work : between.work = state.work) (next : state.next < between.next) :
      Filed (slot :: rest) state after := by
    obtain ⟨new, listed, titles, distinct, fresh⟩ := filed.tasks
    obtain ⟨more, ran, less, away⟩ := filed.runs
    refine ⟨⟨task :: new, ?_, ?_, ?_, ?_⟩, ⟨one ++ more, ?_, ?_, ?_⟩, filed.goal.trans goal, filed.title.trans title,
      filed.work.trans work, next.le.trans filed.next⟩
    · rw [listed, tasks, append_assoc]
      rfl
    · rw [map_cons, map_cons, titles, title]
    · refine nodup_cons.mpr ⟨fun inside => ?_, distinct⟩
      obtain ⟨other, there, same⟩ := mem_map.mp inside
      exact absurd (fresh other there).1 (Nat.not_le.mpr (same ▸ next))
    · intro other there
      rcases mem_cons.mp there with rfl | later
      · exact ⟨le_rfl, lt_of_lt_of_le next filed.next, rfl, rfl⟩
      · exact ⟨next.le.trans (fresh other later).1, (fresh other later).2⟩
    · rw [ran, runs, append_assoc]
    · rw [length_append, length_cons]
      omega
    · intro other there
      rcases mem_append.mp there with first | later
      · exact (own other first).ge
      · exact next.le.trans (away other later)
  cases run with
  | none =>
    exact whole filed rfl (append_nil state.runs).symm (Nat.zero_le _) nofun rfl rfl rfl
      (Nat.lt_succ_self _)
  | some status => exact whole filed rfl rfl le_rfl (by simp) rfl rfl rfl (Nat.lt_succ_of_lt (Nat.lt_succ_self _))

theorem eval_dispatchSlots (lands : ∀ index run, answers.slots index ≠ .filed run true) (copy : GoalCopy)
    (slots : List DispatchSlot) (index : Nat) (state : LoopState) :
    ∃ n ≤ slots.length, ((dispatchSlots answers copy slots index).eval serveLoop state).value = slots.take n ∧
      Filed (slots.take n) state ((dispatchSlots answers copy slots index).eval serveLoop state).state := by
  induction slots generalizing index state with
  | nil => exact ⟨0, le_rfl, rfl, .nil state⟩
  | cons slot rest ih =>
    rw [dispatchSlots]
    cases outcome : answers.slots index with
    | createFails => exact ⟨0, Nat.zero_le _, rfl, .nil state⟩
    | filed run throws =>
      have stays : throws = false := by
        by_contra thrown
        exact lands index run (outcome.trans (by rw [eq_true_of_ne_false thrown]))
      subst stays
      have landed (ran : (dispatchSlots answers copy (slot :: rest) index).eval serveLoop state =
            (do
              let landed ← dispatchSlots answers copy rest (index + 1)
              pure (slot :: landed)).eval serveLoop (fileSlot copy slot run state)) :
          ∃ n ≤ (slot :: rest).length,
            ((dispatchSlots answers copy (slot :: rest) index).eval serveLoop state).value = (slot :: rest).take n ∧
              Filed ((slot :: rest).take n) state
                ((dispatchSlots answers copy (slot :: rest) index).eval serveLoop state).state := by
        obtain ⟨n, few, value, filed⟩ := ih (index + 1) (fileSlot copy slot run state)
        refine ⟨n + 1, Nat.succ_le_succ few, ?_⟩
        rw [ran, eval_bind]
        exact ⟨congrArg (slot :: ·) value, .cons run filed⟩
      rw [dispatchSlots, outcome] at landed
      cases run with
      | none => exact landed rfl
      | some status => exact landed rfl

structure Advanced (state after : LoopState) (slots : List DispatchSlot) : Prop where
  filed : Filed slots state { after with goal := state.goal }
  iteration : after.goal.iteration = state.goal.iteration + slots.length
  spendCap : after.goal.spendCapCents = state.goal.spendCapCents
  ceiling : after.goal.maxConcurrentIterations = state.goal.maxConcurrentIterations
  workId : after.goal.workId = state.goal.workId
  numbered : slots.map (·.iteration) = (range slots.length).map (state.goal.iteration + 1 + ·)
  room : slots ≠ [] → spendCapReached state.goal.spendCapCents (spendOf (windowRuns state)) = false ∧
    slots.length + (((windowRuns state).filter (·.isActive)).length + (scanned state).length) ≤
      concurrencyCeiling state.goal

theorem Advanced.nothing {goal : Goal} (iteration : goal.iteration = state.goal.iteration)
    (spendCap : goal.spendCapCents = state.goal.spendCapCents)
    (ceiling : goal.maxConcurrentIterations = state.goal.maxConcurrentIterations)
    (workId : goal.workId = state.goal.workId) : Advanced state { state with goal } [] :=
  ⟨.nil state, iteration, spendCap, ceiling, workId, rfl, fun some => absurd rfl some⟩

def spentState (state : LoopState) (cents : Nat) : LoopState :=
  { state with goal := { state.goal with spentCents := cents } }

variable {copy : GoalCopy}

theorem eval_applyTerminal {loopStatus : GoalLoopStatus} (cents : Nat) :
    Advanced state ((applyTerminal copy loopStatus).eval serveLoop (spentState state cents)).state [] := by
  rw [applyTerminal.eq_def]
  dsimp only
  split
  · exact .nothing rfl rfl rfl rfl
  · exact .nothing rfl rfl rfl rfl

theorem eval_applyDispatch {slots : List DispatchSlot} (cents : Nat)
    (lands : ∀ index run, answers.slots index ≠ .filed run true)
    (numbered : slots.map (·.iteration) = (range slots.length).map (state.goal.iteration + 1 + ·))
    (room : spendCapReached state.goal.spendCapCents (spendOf (windowRuns state)) = false ∧
      slots.length + (((windowRuns state).filter (·.isActive)).length + (scanned state).length) ≤
        concurrencyCeiling state.goal) :
    ∃ filed, Advanced state ((applyDispatch answers copy slots).eval serveLoop (spentState state cents)).state filed := by
  rw [applyDispatch]
  split
  · exact ⟨[], .nothing rfl rfl rfl rfl⟩
  obtain ⟨n, few, value, filed⟩ := eval_dispatchSlots lands copy slots 0 (spentState state cents)
  have length : (slots.take n).length = n := length_take_of_le few
  have numbers : (slots.take n).map (·.iteration) = (range n).map (state.goal.iteration + 1 + ·) := by
    rw [map_take, numbered, ← map_take, take_range, Nat.min_eq_left few]
  have own {after : LoopState} (filed : Filed (slots.take n) (spentState state cents) after) :
      Filed (slots.take n) state { after with goal := state.goal } :=
    ⟨filed.tasks, filed.runs, rfl, filed.title, filed.work, filed.next⟩
  have fits : spendCapReached state.goal.spendCapCents (spendOf (windowRuns state)) = false ∧
      (slots.take n).length + (((windowRuns state).filter (·.isActive)).length + (scanned state).length) ≤
        concurrencyCeiling state.goal := ⟨room.1, by omega⟩
  have column {α : Type} (field : Goal → α) (plain : field (spentState state cents).goal = field state.goal) :
      field ((dispatchSlots answers copy slots 0).eval serveLoop (spentState state cents)).state.goal =
        field state.goal := (congrArg field filed.goal).trans plain
  refine ⟨slots.take n, ?_⟩
  rw [eval_bind]
  dsimp only
  rw [value]
  cases last : (slots.take n).getLast? with
  | none =>
    rw [getLast?_eq_none_iff] at last
    rw [last] at own filed length ⊢
    obtain rfl : n = 0 := length.symm
    exact ⟨own filed, column Goal.iteration rfl, column Goal.spendCapCents rfl,
      column Goal.maxConcurrentIterations rfl, column Goal.workId rfl, rfl, fun some => absurd rfl some⟩
  | some slot =>
    have reached : slot.iteration = state.goal.iteration + (slots.take n).length := by
      have counted := congrArg getLast? numbers
      rw [getLast?_map, last, getLast?_map, getLast?_range] at counted
      cases n with
      | zero => cases counted
      | succ n =>
        have last : slot.iteration = state.goal.iteration + 1 + n := Option.some.inj counted
        rw [length, last]
        omega
    have mine := own filed
    exact ⟨mine, reached, column Goal.spendCapCents rfl, column Goal.maxConcurrentIterations rfl,
      column Goal.workId rfl, by rw [numbers, length], fun _ => fits⟩

theorem eval_advanceOn (cents : Nat) (same : copy.goal = state.goal)
    (lands : ∀ index run, answers.slots index ≠ .filed run true) : ∃ filed, Advanced state
      ((advanceOn answers copy (spendOf (windowRuns state))).eval serveLoop (spentState state cents)).state filed := by
  rw [advanceOn, eval_bind, eval_loadGoalWork]
  dsimp only
  obtain ⟨work, ran, scan⟩ := @eval_goalWorkState (spentState state cents) answers copy.goal
    (show copy.goal.workId = state.goal.workId from congrArg Goal.workId same)
  rw [eval_bind, ran]
  dsimp only
  rw [eval_bind, quiet_resolveCandidates (spentState state cents)]
  dsimp only
  generalize ((resolveCandidates answers copy.goal).eval serveLoop (spentState state cents)).value = candidates
  split
  · rename_i slots decided
    have given := dispatches_of_decide decided
    have scan : work.awaitingMerge = scanned state := scan given.available given.readable
    have free := given.free
    have numbered := given.numbered
    have cap := given.underCap
    simp only [loopInput, same] at free numbered cap
    rw [scan] at free
    exact eval_applyDispatch cents lands numbered ⟨cap, free.le⟩
  · exact ⟨[], eval_applyTerminal cents⟩
  · exact ⟨[], eval_applyTerminal cents⟩
  · exact ⟨[], eval_applyTerminal cents⟩
  · exact ⟨[], .nothing rfl rfl rfl rfl⟩
  · exact ⟨[], .nothing rfl rfl rfl rfl⟩

theorem eval_advanceOne (same : copy.goal = state.goal)
    (lands : ∀ index run, answers.slots index ≠ .filed run true) : ∃ filed, Advanced state
      ((advanceOne answers copy).eval serveLoop state).state filed := by
  rw [advanceOne, eval_bind, eval_loadGoalWork]
  dsimp only
  split
  · exact eval_advanceOn _ same lands
  · exact eval_advanceOn state.goal.spentCents same lands

theorem eval_advance (lands : ∀ index run, answers.slots index ≠ .filed run true) :
    ∃ filed, Advanced state ((advance answers).eval serveLoop state).state filed :=
  eval_advanceOne rfl lands

theorem eval_tick (lands : ∀ index run, answers.slots index ≠ .filed run true) :
    ∃ filed, Advanced state ((tick answers).eval serveLoop state).state filed := by
  rw [tick, eval_bind]
  dsimp only
  split
  · exact ⟨[], .nothing rfl rfl rfl rfl⟩
  rw [eval_bind]
  dsimp only
  split
  · exact ⟨[], .nothing rfl rfl rfl rfl⟩
  · exact eval_advanceOne rfl lands

end

end EverWorks.Goals
