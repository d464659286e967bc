import EverWorks.Tasks.SyncFrame

/-!
# A refused walk

Before its first hop a sync walk looks at the blockers and approvers on its path, but not at two gates that hold back
an agent only. Where one of them stands behind the first hop, the walk is refused after it has moved the task.
-/

namespace EverWorks.Tasks
open Lib Lib.Program List

variable {around : Surroundings} {store : TaskStore} {task : Task} {target : TaskStatus} {opts : TransitionOptions}

/-! ## What refuses a hop -/

theorem hopOptions_force : (hopOptions opts).force = opts.force := by
  rw [hopOptions]
  split <;> rfl

theorem withAgentFanOutSuppressed_force : (withAgentFanOutSuppressed around opts target).force = opts.force := by
  rw [withAgentFanOutSuppressed]
  split
  · rfl
  · split
    · rfl
    · split <;> rfl

theorem withoutAgentForce_force_agent (agent : opts.actorType = some .agent) : (withoutAgentForce opts).force = false := by
  rw [withoutAgentForce]
  split
  · rfl
  · rename_i unforced
    simpa [agent] using unforced

theorem judgedOptions_force (hop : TaskStatus) : (judgedOptions around opts hop).force = (withoutAgentForce opts).force := by
  rw [judgedOptions, withAgentFanOutSuppressed_force]
  by_cases agent : opts.actorType = some .agent
  · rw [withoutAgentForce_force_agent agent, withoutAgentForce_force_agent]
    rw [hopOptions_actorType, withoutAgentForce_actorType, agent]
  · rw [withoutAgentForce, if_neg, hopOptions_force]
    simp [hopOptions_actorType, withoutAgentForce_actorType, agent]

def HopRefused (around : Surroundings) (store : TaskStore) (task : Task) (opts : TransitionOptions)
    (source hop : TaskStatus) : Prop :=
  opts.actorType = some .agent ∧ (isAwaitingOwner task = true ∨
      source = .blocked ∧ hop ≠ .blocked ∧ opts.automaticRestore = false ∧ around.agentMayLiftBlock = false) ∨
    (hop = .inProgress ∨ hop = .done) ∧ store.openBlockerIds task.id ≠ [] ∨
    source = .inProgress ∧ hop = .inReview ∧ opts.actorType = some .agent ∧ around.refusingGate task.id ≠ none ∨
    hop = .done ∧ (withoutAgentForce opts).force = false ∧ task.requireAllApprovers = true ∧
      around.allApproved task.id = false

theorem eval_blockerGate : (blockerGate task target).eval (serve around) store =
    ⟨if target = .inProgress ∨ target = .done then store.openBlockerIds task.id else [], store, []⟩ := by
  rw [blockerGate]
  simp only [Bool.or_eq_true, decide_eq_true_eq]
  split
  · exact eval_listOpenBlockerIds _
  · rfl

theorem eval_reviewEntryGate : (reviewEntryGate task target opts).eval (serve around) store =
    ⟨if task.status = .inProgress ∧ target = .inReview ∧ opts.actorType = some .agent ∧ opts.force = false then
      around.refusingGate task.id else none, store, []⟩ := by
  rw [reviewEntryGate]
  simp only [Bool.and_eq_true, decide_eq_true_eq, Bool.not_eq_true', and_assoc]
  split <;> rfl

theorem eval_approverGate : (approverGate task target opts).eval (serve around) store =
    ⟨if target = .done ∧ opts.force = false ∧ task.requireAllApprovers = true then around.allApproved task.id
      else true, store, []⟩ := by
  rw [approverGate]
  simp only [Bool.and_eq_true, decide_eq_true_eq, Bool.not_eq_true', and_assoc]
  split <;> rfl

theorem gateRefusal_eq_none_iff : gateRefusal around store task target opts = none ↔
    (target = .inProgress ∨ target = .done → store.openBlockerIds task.id = []) ∧
      (task.status = .inProgress ∧ target = .inReview ∧ opts.actorType = some .agent ∧ opts.force = false →
        around.refusingGate task.id = none) ∧
      (target = .done ∧ opts.force = false ∧ task.requireAllApprovers = true → around.allApproved task.id = true) := by
  refine Iff.trans ?_ (and_congr ite_eq_right_iff (and_congr ite_eq_right_iff ite_eq_right_iff))
  rw [gateRefusal, closedGate, eval_bind, eval_blockerGate]
  generalize (if target = .inProgress ∨ target = .done then store.openBlockerIds task.id else []) = blockers
  cases blockers with
  | cons first rest => simp
  | nil =>
    simp only [ne_eq, not_true, if_false, eval_bind, eval_reviewEntryGate, true_and]
    generalize (if task.status = .inProgress ∧ target = .inReview ∧ opts.actorType = some .agent ∧
      opts.force = false then around.refusingGate task.id else none) = gate
    cases gate with
    | some gate => simp
    | none =>
      simp only [eval_bind, eval_approverGate, true_and]
      generalize (if target = .done ∧ opts.force = false ∧ task.requireAllApprovers = true then
        around.allApproved task.id else true) = approved
      cases approved <;> simp

theorem refusedAtOnce_eq_none_iff (legal : target ∈ allowed task.status) :
    refusedAtOnce around task target opts = none ↔
      ¬ (opts.actorType = some .agent ∧ (isAwaitingOwner task = true ∨
        task.status = .blocked ∧ target ≠ .blocked ∧ opts.automaticRestore = false ∧
          around.agentMayLiftBlock = false)) := by
  simp only [refusedAtOnce, legal, not_true, if_false]
  by_cases agent : opts.actorType = some .agent
  · cases isAwaitingOwner task <;> simp [agent]
  · simp [agent]

theorem refusal_eq_none_iff {hop : TaskStatus} (legal : hop ∈ allowed task.status) :
    refusal around store task hop (hopOptions (withoutAgentForce opts)) = none ↔
      ¬ HopRefused around store task opts task.status hop := by
  rw [refusal, ← judgedOptions, Option.or_eq_none_iff, refusedAtOnce_eq_none_iff legal, gateRefusal_eq_none_iff,
    judgedOptions_actorType, judgedOptions_automaticRestore, judgedOptions_force, HopRefused]
  have noForce : opts.actorType = some .agent → (withoutAgentForce opts).force = false := withoutAgentForce_force_agent
  constructor
  · rintro ⟨atOnce, blockers, review, approvers⟩ (held | ⟨gated, opens⟩ | ⟨source, entry, agent, gate⟩ | ⟨done, unforced, all, open'⟩)
    · exact atOnce held
    · exact opens (blockers gated)
    · exact gate (review ⟨source, entry, agent, noForce agent⟩)
    · rw [approvers ⟨done, unforced, all⟩] at open'
      cases open'
  · intro free
    simp only [not_or, not_and] at free
    obtain ⟨atOnce, blockers, review, approvers⟩ := free
    refine ⟨fun held => ?_, fun gated => ?_, ?_, ?_⟩
    · rcases held with ⟨agent, awaiting | ⟨source, leaves, manual, closed⟩⟩
      · exact (atOnce agent).1 awaiting
      · exact (atOnce agent).2 source leaves manual closed
    · exact not_not.mp (blockers gated)
    · rintro ⟨source, entry, agent, _⟩
      exact not_not.mp (review source entry agent)
    · rintro ⟨done, unforced, all⟩
      exact Bool.not_eq_false _ |>.mp (approvers done unforced all)

/-! ## The hops of a walk -/

def landedBefore (refused : TaskStatus → TaskStatus → Prop) [∀ source hop, Decidable (refused source hop)] :
    TaskStatus → List TaskStatus → Option (List TaskStatus)
  | _, [] => none
  | source, hop :: rest => if refused source hop then some [] else (landedBefore refused hop rest).map (hop :: ·)

def LegalPath : TaskStatus → List TaskStatus → Prop
  | _, [] => True
  | source, hop :: rest => hop ∈ allowed source ∧ LegalPath hop rest

instance decidableLegalPath : (source : TaskStatus) → (path : List TaskStatus) → Decidable (LegalPath source path)
  | _, [] => isTrue trivial
  | source, hop :: rest =>
    have := decidableLegalPath hop rest
    inferInstanceAs (Decidable (hop ∈ allowed source ∧ LegalPath hop rest))

instance (source hop : TaskStatus) : Decidable (HopRefused around store task opts source hop) :=
  inferInstanceAs (Decidable (_ ∨ _))

structure Walking (store : TaskStore) (task : Task) (opts : TransitionOptions) (state : TaskStore) (current : Task) :
    Prop where
  present : state.findById current.id = some current
  own : current.id = task.id
  blocks : state.blocks = store.blocks
  others : ∀ id, id ≠ task.id → state.findById id = store.findById id
  labels : opts.actorType = some .agent → current.labels = task.labels
  approvers : current.requireAllApprovers = task.requireAllApprovers

/-- The task is not among its own blockers. -/
def NotItsOwnBlocker (store : TaskStore) (task : Task) : Prop :=
  ∀ block ∈ store.blocks, block.taskId = task.id → block.blockedByTaskId ≠ task.id

theorem walking_start (present : store.findById task.id = some task) : Walking store task opts store task :=
  ⟨present, rfl, rfl, fun _ _ => rfl, fun _ => rfl, rfl⟩

variable {state : TaskStore}

variable {current : Task}

theorem Walking.openBlockerIds (walking : Walking store task opts state current)
    (apart : NotItsOwnBlocker store task) : state.openBlockerIds current.id = store.openBlockerIds task.id := by
  rw [walking.own, TaskStore.openBlockerIds, TaskStore.openBlockerIds, TaskStore.findByTaskId, walking.blocks,
    ← TaskStore.findByTaskId]
  apply filter_congr
  intro id member
  obtain ⟨block, inFilter, rfl⟩ := mem_map.mp member
  obtain ⟨inside, own⟩ := mem_filter.mp inFilter
  rw [TaskStore.isOpen, TaskStore.isOpen, walking.others _ (apart block inside (by simpa using own))]

theorem Walking.hopRefused_iff (walking : Walking store task opts state current)
    (apart : NotItsOwnBlocker store task) (source hop : TaskStatus) :
    HopRefused around state current opts source hop ↔ HopRefused around store task opts source hop := by
  have awaiting : opts.actorType = some .agent → isAwaitingOwner current = isAwaitingOwner task := fun agent => by
    rw [isAwaitingOwner, walking.labels agent, isAwaitingOwner]
  rw [HopRefused, HopRefused, walking.openBlockerIds apart, walking.own, walking.approvers]
  refine or_congr (and_congr_right fun agent => ?_) Iff.rfl
  rw [awaiting agent]

variable (around) in
theorem Walking.hop (walking : Walking store task opts state current)
    (hop : TaskStatus) :
    Walking store task opts
      (state.updateTask current.id (movePatch around current hop (hopOptions (withoutAgentForce opts))))
      ((movePatch around current hop (hopOptions (withoutAgentForce opts))).apply current) := by
  refine ⟨?_, walking.own, walking.blocks, ?_, ?_, walking.approvers⟩
  · rw [TaskPatch.apply_id, TaskStore.findById_updateTask, if_pos rfl, walking.present, Option.map_some]
  · intro id other
    rw [TaskStore.findById_updateTask, if_neg (walking.own ▸ other), walking.others id other]
  · intro agent
    have actor : (judgedOptions around opts hop).actorType = some .agent := by rw [judgedOptions_actorType, agent]
    rw [← walking.labels agent, movePatch, ← judgedOptions]
    simp [TaskPatch.apply, transitionPatch, actor]

theorem quiet_hopRefused {source : TaskStatus} {path : List TaskStatus} {reason : Refusal} :
    Quiet (serve around) (hopRefused current source target path reason) := by
  unfold hopRefused
  split
  · exact .pure _
  · split
    · refine Quiet.bind (.ask fun _ => rfl) fun found => ?_
      split <;> exact .pure _
    · exact .pure _

def WalkOutcome (id : TaskId) (state : TaskStore) (status : TaskStatus)
    (outcome : Outcome TaskStore Cascade (Except SyncRefusal SyncTransitionResult)) : Option (List TaskStatus) → Prop
  | none => ∃ result, outcome.value = .ok result
  | some landed => (∃ reason, outcome.value = .error reason) ∧
      outcome.state.statusOf id = some (landed.getLastD status) ∧ (landed = [] → outcome.state = state)

theorem eval_walkHops (apart : NotItsOwnBlocker store task) (source : TaskStatus) {path : List TaskStatus}
    (walked : List TaskStatus) (legal : LegalPath current.status path)
    (walking : Walking store task opts state current) :
    WalkOutcome task.id state current.status
      ((walkHops around (withoutAgentForce opts) source target current walked path).eval (serve around) state)
      (landedBefore (HopRefused around store task opts) current.status path) := by
  induction path generalizing state current walked with
  | nil => exact ⟨_, rfl⟩
  | cons hop rest ih =>
    rw [walkHops, eval_bind, landedBefore]
    by_cases refused : HopRefused around store task opts current.status hop
    · rw [if_pos refused]
      have here := (walking.hopRefused_iff apart current.status hop).mpr refused
      obtain ⟨reason, isReason⟩ := Option.ne_none_iff_exists'.mp fun clear =>
        (refusal_eq_none_iff legal.1).mp clear here
      rw [eval_transition_refused isReason]
      dsimp only
      rw [eval_bind, quiet_hopRefused state]
      refine ⟨⟨_, rfl⟩, ?_, fun _ => rfl⟩
      rw [TaskStore.statusOf, ← walking.own]
      dsimp only [eval_pure]
      rw [walking.present]
      rfl
    · rw [if_neg refused]
      have clear := (refusal_eq_none_iff legal.1).mpr fun here =>
        refused ((walking.hopRefused_iff apart current.status hop).mp here)
      have next := walking.hop around hop
      rw [eval_transition_landed walking.present clear]
      dsimp only
      have arrived : ¬ ((movePatch around current hop (hopOptions (withoutAgentForce opts))).apply current).status ≠ hop :=
        not_not.mpr rfl
      rw [if_neg arrived]
      have later := ih (walked ++ [hop]) legal.2 next
      cases stops : landedBefore (HopRefused around store task opts) hop rest with
      | none =>
        rw [TaskPatch.apply_status] at later
        have same : (movePatch around current hop (hopOptions (withoutAgentForce opts))).status = hop := rfl
        rw [same, stops] at later
        exact later
      | some landed =>
        have same : (movePatch around current hop (hopOptions (withoutAgentForce opts))).status = hop := rfl
        rw [TaskPatch.apply_status, same, stops] at later
        obtain ⟨isError, status, _⟩ := later
        refine ⟨isError, ?_, fun empty => by cases empty⟩
        rw [getLastD_cons]
        exact status

/-! ## What the pre-flight leaves out -/

def PreflightOpen (around : Surroundings) (store : TaskStore) (task : Task) (opts : TransitionOptions)
    (path : List TaskStatus) : Prop :=
  (.inProgress ∈ path ∨ .done ∈ path → store.openBlockerIds task.id = []) ∧
    (.done ∈ path ∧ opts.force = false ∧ task.requireAllApprovers = true → around.allApproved task.id = true)

/-- An agent's walk whose pre-flight passes, and that meets a gate left out of it behind its first hop: the quality
gate at the entry into review, or the way out of a block. -/
structure Overtaken (around : Surroundings) (store : TaskStore) (task : Task) (target : TaskStatus)
    (opts : TransitionOptions) : Prop where
  agent : opts.actorType = some .agent
  free : ¬ AgentHeldBack around task opts
  unblocked : target = .inReview ∨ task.status = .done → store.openBlockerIds task.id = []
  behind : target = .inReview ∧ task.status ≠ .inReview ∧ task.status ≠ .inProgress ∧ around.refusingGate task.id ≠ none ∨
    target = .todo ∧ (task.status = .inProgress ∨ task.status = .inReview ∨ task.status = .done) ∧
      opts.automaticRestore = false ∧ around.agentMayLiftBlock = false

def behindFirst (path : List TaskStatus) : List (TaskStatus × TaskStatus) := path.zip path.tail

section LandedBefore

variable {refused : TaskStatus → TaskStatus → Prop} [∀ source hop, Decidable (refused source hop)]

theorem landedBefore_isSome (source : TaskStatus) (path : List TaskStatus) :
    (landedBefore refused source path).isSome = true ↔ ∃ move ∈ (source :: path).zip path, refused move.1 move.2 := by
  induction path generalizing source with
  | nil => simp [landedBefore]
  | cons hop rest ih =>
    rw [landedBefore, zip_cons_cons]
    split
    case isTrue here => exact iff_of_true rfl ⟨_, mem_cons_self, here⟩
    case isFalse here =>
      rw [Option.isSome_map, ih]
      constructor
      · rintro ⟨move, later, isRefused⟩
        exact ⟨move, mem_cons_of_mem _ later, isRefused⟩
      · rintro ⟨move, member, isRefused⟩
        rcases mem_cons.mp member with rfl | later
        · exact absurd isRefused here
        · exact ⟨move, later, isRefused⟩

theorem landedBefore_subset {source : TaskStatus} {path landed : List TaskStatus}
    (isLanded : landedBefore refused source path = some landed) : ∀ hop ∈ landed, hop ∈ path := by
  induction path generalizing source landed with
  | nil => cases isLanded
  | cons first rest ih =>
    rw [landedBefore] at isLanded
    split at isLanded
    · cases isLanded
      exact nofun
    · obtain ⟨later, isLater, rfl⟩ := Option.map_eq_some_iff.mp isLanded
      intro hop member
      rcases mem_cons.mp member with rfl | inside
      · exact mem_cons_self
      · exact mem_cons_of_mem _ (ih isLater hop inside)

theorem landedBefore_behind {source hop : TaskStatus} {rest : List TaskStatus} :
    (∃ landed, landedBefore refused source (hop :: rest) = some landed ∧ landed ≠ []) ↔
      ¬ refused source hop ∧ ∃ move ∈ behindFirst (hop :: rest), refused move.1 move.2 := by
  rw [behindFirst, tail_cons, ← landedBefore_isSome, landedBefore]
  split
  case isTrue here =>
    constructor
    · rintro ⟨landed, isLanded, nonempty⟩
      exact absurd (Option.some.inj isLanded).symm nonempty
    · exact fun both => absurd here both.1
  case isFalse here =>
    rw [Option.isSome_iff_exists]
    constructor
    · rintro ⟨landed, isLanded, _⟩
      obtain ⟨later, isLater, _⟩ := Option.map_eq_some_iff.mp isLanded
      exact ⟨here, later, isLater⟩
    · rintro ⟨_, later, isLater⟩
      exact ⟨hop :: later, by rw [isLater]; rfl, cons_ne_nil _ _⟩

end LandedBefore

section Paths

variable {source : TaskStatus} {path : List TaskStatus}
  (found : shortestTransitionPath source target allowed = some path)

include found

theorem legalPath_of_shortest : LegalPath source path ∧ source ∉ path := by
  cases source <;> cases target <;>
  · obtain rfl := Option.some.inj found
    decide

theorem review_behindFirst : (.inProgress, .inReview) ∈ behindFirst path ↔
    target = .inReview ∧ source ≠ .inReview ∧ source ≠ .inProgress := by
  cases source <;> cases target <;>
  · obtain rfl := Option.some.inj found
    decide

theorem block_behindFirst : (∃ move ∈ behindFirst path, move.1 = .blocked) ↔
    target = .todo ∧ (source = .inProgress ∨ source = .inReview ∨ source = .done) := by
  cases source <;> cases target <;>
  · obtain rfl := Option.some.inj found
    decide

theorem not_blocked_behindFirst : ∀ move ∈ behindFirst path, move.1 = .blocked → move.2 ≠ .blocked := by
  cases source <;> cases target <;>
  · obtain rfl := Option.some.inj found
    decide

theorem inProgress_mem_path (leaves : source ≠ target) (elsewhere : source ≠ .inProgress)
    (review : target = .inReview ∨ source = .done) (further : source ≠ .inReview) : .inProgress ∈ path := by
  revert review
  cases source <;> cases target <;>
  · obtain rfl := Option.some.inj found
    first
      | contradiction
      | decide

theorem unfinished_path (elsewhere : target = .inReview ∨ target = .todo) : .done ∉ path := by
  revert elsewhere
  cases source <;> cases target <;>
  · obtain rfl := Option.some.inj found
    decide

theorem todo_path (back : target = .todo) (source_ : source = .inProgress ∨ source = .inReview) :
    .inProgress ∉ path := by
  revert source_
  subst back
  cases source <;>
  · obtain rfl := Option.some.inj found
    decide

theorem todo_unreviewed (back : target = .todo) : .inReview ∉ path := by
  subst back
  cases source <;>
  · obtain rfl := Option.some.inj found
    decide

end Paths

section Gates

variable {hop : TaskStatus} {rest : List TaskStatus}
  (found : shortestTransitionPath task.status target allowed = some (hop :: rest))

include found

theorem overtaken_of_refused (preflight : PreflightOpen around store task (withoutAgentForce opts) (hop :: rest))
    (lands : ¬ HopRefused around store task opts task.status hop) {move : TaskStatus × TaskStatus}
    (later : move ∈ behindFirst (hop :: rest)) (refused : HopRefused around store task opts move.1 move.2) :
    Overtaken around store task target opts := by
  have onPath : move.2 ∈ hop :: rest := mem_cons_of_mem _ (of_mem_zip later).2
  have held : opts.actorType = some .agent → isAwaitingOwner task ≠ true := fun agent awaiting =>
    lands (.inl ⟨agent, .inl awaiting⟩)
  have unlifted : opts.actorType = some .agent → ¬ (task.status = .blocked ∧ hop ≠ .blocked ∧
      opts.automaticRestore = false ∧ around.agentMayLiftBlock = false) := fun agent lifts =>
    lands (.inl ⟨agent, .inr lifts⟩)
  have legal := (legalPath_of_shortest found).1
  have leavesBlock : task.status = .blocked → hop ≠ .blocked := by
    rintro isBlocked rfl
    have illegal : .blocked ∈ allowed task.status := legal.1
    rw [isBlocked] at illegal
    revert illegal
    decide
  have free : opts.actorType = some .agent → ¬ AgentHeldBack around task opts := by
    rintro agent ⟨_, awaiting | ⟨status, manual, closed⟩⟩
    · exact held agent awaiting
    · exact unlifted agent ⟨status, leavesBlock status, manual, closed⟩
  rcases refused with ⟨agent, awaiting | ⟨isBlocked, leaves, manual, closed⟩⟩ | ⟨gated, opens⟩ |
    ⟨progress, entry, agent, gate⟩ | ⟨done, unforced, all, unapproved⟩
  · exact absurd awaiting (held agent)
  · obtain ⟨back, source⟩ := (block_behindFirst found).mp ⟨move, later, isBlocked⟩
    refine ⟨agent, free agent, ?_, .inr ⟨back, source, manual, closed⟩⟩
    rintro (review | done)
    · rw [back] at review
      cases review
    · refine preflight.1 (.inl (inProgress_mem_path found ?_ ?_ (.inr done) ?_)) <;> rw [done]
      · rw [back]; decide
      · decide
      · decide
  · refine absurd (preflight.1 ?_) opens
    rcases gated with progress | done
    · exact .inl (progress ▸ onPath)
    · exact .inr (done ▸ onPath)
  · have here : (.inProgress, .inReview) ∈ behindFirst (hop :: rest) := by
      rw [← progress, ← entry]
      exact later
    obtain ⟨review, further, elsewhere⟩ := (review_behindFirst found).mp here
    refine ⟨agent, free agent, fun _ => ?_, .inl ⟨review, further, elsewhere, gate⟩⟩
    exact preflight.1 (.inl (inProgress_mem_path found (review ▸ further) elsewhere (.inl review) further))
  · rw [preflight.2 ⟨done ▸ onPath, unforced, all⟩] at unapproved
    cases unapproved

theorem refused_of_overtaken (overtaken : Overtaken around store task target opts) :
    PreflightOpen around store task (withoutAgentForce opts) (hop :: rest) ∧
      ¬ HopRefused around store task opts task.status hop ∧
        ∃ move ∈ behindFirst (hop :: rest), HopRefused around store task opts move.1 move.2 := by
  obtain ⟨agent, free, unblocked, behind⟩ := overtaken
  have unfinished : .done ∉ hop :: rest := unfinished_path found (behind.imp (·.1) (·.1))
  have clear : .inProgress ∈ hop :: rest → store.openBlockerIds task.id = [] := by
    intro passes
    rcases behind with ⟨review, _⟩ | ⟨back, source, _⟩
    · exact unblocked (.inl review)
    · by_cases done : task.status = .done
      · exact unblocked (.inr done)
      · exact absurd passes (todo_path found back (source.imp_right fun either => either.resolve_right done))
  refine ⟨⟨fun gated => ?_, fun gated => absurd gated.1 unfinished⟩, ?_, ?_⟩
  · exact gated.elim clear fun done => absurd done unfinished
  · rintro (⟨_, awaiting | ⟨isBlocked, _, manual, closed⟩⟩ | ⟨gated, opens⟩ | ⟨progress, entry, _⟩ | ⟨done, _⟩)
    · exact free ⟨agent, .inl awaiting⟩
    · exact free ⟨agent, .inr ⟨isBlocked, manual, closed⟩⟩
    · rcases gated with rfl | rfl
      · exact opens (clear mem_cons_self)
      · exact unfinished mem_cons_self
    · rcases behind with ⟨_, _, elsewhere, _⟩ | ⟨back, _⟩
      · exact elsewhere progress
      · exact todo_unreviewed found back (entry ▸ mem_cons_self)
    · exact unfinished (done ▸ mem_cons_self)
  · rcases behind with ⟨review, further, elsewhere, gate⟩ | ⟨back, source, manual, closed⟩
    · exact ⟨_, (review_behindFirst found).mpr ⟨review, further, elsewhere⟩,
        .inr (.inr (.inl ⟨rfl, rfl, agent, gate⟩))⟩
    · obtain ⟨move, later, isBlocked⟩ := (block_behindFirst found).mpr ⟨back, source⟩
      exact ⟨move, later, .inl ⟨agent, .inr ⟨isBlocked, not_blocked_behindFirst found move later isBlocked, manual,
        closed⟩⟩⟩

end Gates

/-! ## The whole walk -/

theorem eval_pathBlockerGate (path : List TaskStatus) : (pathBlockerGate task path).eval (serve around) store =
    ⟨if .inProgress ∈ path ∨ .done ∈ path then store.openBlockerIds task.id else [], store, []⟩ := by
  have same : (path.any fun hop => hop = .inProgress || hop = .done) = true ↔ .inProgress ∈ path ∨ .done ∈ path := by
    simp only [any_eq_true, Bool.or_eq_true, decide_eq_true_eq]
    constructor
    · rintro ⟨hop, member, rfl | rfl⟩
      · exact .inl member
      · exact .inr member
    · rintro (member | member)
      · exact ⟨_, member, .inl rfl⟩
      · exact ⟨_, member, .inr rfl⟩
  rw [pathBlockerGate]
  by_cases gated : .inProgress ∈ path ∨ .done ∈ path
  · rw [if_pos gated, if_pos (same.mpr gated)]
    exact eval_listOpenBlockerIds _
  · rw [if_neg gated, if_neg fun listed => gated (same.mp listed)]
    rfl

theorem eval_pathApproverGate (path : List TaskStatus) :
    (pathApproverGate task path opts).eval (serve around) store =
      ⟨if .done ∈ path ∧ opts.force = false ∧ task.requireAllApprovers = true then around.allApproved task.id
        else true, store, []⟩ := by
  rw [pathApproverGate]
  simp only [Bool.and_eq_true, Bool.not_eq_true', and_assoc, contains_iff_mem]
  split <;> rfl

theorem eval_assertSyncPathOpen (source : TaskStatus) (path : List TaskStatus) :
    ∃ gate, (assertSyncPathOpen task source target path opts).eval (serve around) store = ⟨gate, store, []⟩ ∧
      (gate = none ↔ PreflightOpen around store task opts path) := by
  have form : PreflightOpen around store task opts path ↔
      (if .inProgress ∈ path ∨ .done ∈ path then store.openBlockerIds task.id else []) = [] ∧
        (if .done ∈ path ∧ opts.force = false ∧ task.requireAllApprovers = true then around.allApproved task.id
          else true) = true := and_congr ite_eq_right_iff.symm ite_eq_right_iff.symm
  rw [form, assertSyncPathOpen, eval_bind, eval_pathBlockerGate]
  generalize (if .inProgress ∈ path ∨ .done ∈ path then store.openBlockerIds task.id else []) = blockers
  cases blockers with
  | cons first rest => exact ⟨_, rfl, by simp⟩
  | nil =>
    simp only [ne_eq, not_true, if_false, eval_bind, eval_pathApproverGate, true_and]
    generalize (if .done ∈ path ∧ opts.force = false ∧ task.requireAllApprovers = true then
      around.allApproved task.id else true) = approved
    cases approved
    · exact ⟨_, rfl, by simp⟩
    · exact ⟨_, rfl, by simp⟩

def TaskStore.place (store : TaskStore) (id : TaskId) : Option (TaskStatus × Option TaskStatus × List String) :=
  (store.findById id).map fun task => (task.status, task.previousStatus, task.labels)

theorem statusOf_of_place {id : TaskId} (same : state.place id = store.place id) :
    state.statusOf id = store.statusOf id := by
  have mapped := congrArg (Option.map (·.1)) same
  simpa [TaskStore.place, TaskStore.statusOf, Function.comp_def] using mapped

/-- A walk that is refused leaves its task where it was. -/
def RefusedStays (around : Surroundings) (store : TaskStore) (task : Task) (target : TaskStatus)
    (opts : TransitionOptions) : Prop :=
  ∀ reason, ((transitionSync around task target opts).eval (serve around) store).value = .error reason →
    ((transitionSync around task target opts).eval (serve around) store).state.place task.id = store.place task.id

/-- A refused walk leaves its task where it was exactly if it is not an agent's that meets, behind its first hop, the
quality gate of review or a block that waits for a person. -/
theorem refused_walk_stays_iff (present : store.findById task.id = some task) (apart : NotItsOwnBlocker store task) :
    RefusedStays around store task target opts ↔ ¬ Overtaken around store task target opts := by
  obtain ⟨path, found⟩ : ∃ path, shortestTransitionPath task.status target allowed = some path := by
    cases task.status <;> cases target <;> exact ⟨_, rfl⟩
  rw [RefusedStays, transitionSync, found]
  dsimp only
  cases path with
  | nil =>
    have same : task.status = target := by
      revert found
      cases task.status <;> cases target <;> decide
    refine iff_of_true (fun _ failed => by cases failed) ?_
    rintro ⟨_, _, _, ⟨review, further, _⟩ | ⟨back, source, _⟩⟩
    · exact further (same.trans review)
    · rw [same, back] at source
      revert source
      decide
  | cons hop rest =>
    obtain ⟨gate, isGate, open_⟩ : ∃ gate, (assertSyncPathOpen task task.status target (hop :: rest)
        (withoutAgentForce opts)).eval (serve around) store = ⟨gate, store, []⟩ ∧
          (gate = none ↔ PreflightOpen around store task (withoutAgentForce opts) (hop :: rest)) :=
      eval_assertSyncPathOpen ..
    rw [if_neg (by simp), eval_bind, isGate]
    cases gate with
    | some refusal =>
      refine iff_of_true (fun _ _ => rfl) fun overtaken => ?_
      have preflight := (refused_of_overtaken found overtaken).1
      cases open_.mpr preflight
    | none =>
      have preflight := open_.mp rfl
      obtain ⟨legal, notSource⟩ := legalPath_of_shortest found
      have walk : WalkOutcome task.id store task.status
          ((walkHops around (withoutAgentForce opts) task.status target task [] (hop :: rest)).eval (serve around) store)
          (landedBefore (HopRefused around store task opts) task.status (hop :: rest)) :=
        eval_walkHops apart task.status [] legal (walking_start present)
      dsimp only
      constructor
      · intro stays overtaken
        obtain ⟨_, lands, later⟩ := refused_of_overtaken found overtaken
        obtain ⟨landed, isLanded, nonempty⟩ := landedBefore_behind.mpr ⟨lands, later⟩
        rw [isLanded] at walk
        obtain ⟨⟨reason, isError⟩, status, _⟩ := walk
        have before : store.statusOf task.id = some task.status := by rw [TaskStore.statusOf, present]; rfl
        have kept := statusOf_of_place (stays reason isError)
        rw [before] at kept
        have last : landed.getLastD task.status = task.status := Option.some.inj (status.symm.trans kept)
        rw [getLastD_eq_getLast? , getLast?_eq_some_getLast nonempty, Option.getD_some] at last
        exact notSource (last ▸ landedBefore_subset isLanded _ (getLast_mem nonempty))
      · intro stays reason isError
        cases stops : landedBefore (HopRefused around store task opts) task.status (hop :: rest) with
        | none =>
          rw [stops] at walk
          obtain ⟨result, isOk⟩ := walk
          rw [isOk] at isError
          cases isError
        | some landed =>
          rw [stops] at walk
          obtain ⟨_, _, unmoved⟩ := walk
          have nothing : landed = [] := by
            by_contra nonempty
            obtain ⟨lands, move, later, refused⟩ := landedBefore_behind.mp ⟨landed, stops, nonempty⟩
            exact stays (overtaken_of_refused found preflight lands later refused)
          exact congrArg (TaskStore.place · task.id) (unmoved nothing)

/-- A task in `todo`. -/
def oneTodo : TaskStore where
  tasks := [{ id := "first", status := .todo }]
  unique := by simp
  blocks := []

def redGate : Surroundings where
  allApproved _ := true
  refusingGate _ := some .red

def ownRunOptions : TransitionOptions := { actorType := some .agent, ownRunTask := true }

/-- A person's walk into review is not overtaken by the gate. -/
theorem person_walk_stays : RefusedStays redGate oneTodo { id := "first", status := .todo } .inReview {} := by
  refine (refused_walk_stays_iff (by decide) (by simp [NotItsOwnBlocker, oneTodo])).mpr ?_
  rintro ⟨agent, _⟩
  cases agent

/-- An agent's walk from `todo` into review leaves the task in progress. -/
theorem agent_walk_stops_halfway :
    (((transitionSync redGate { id := "first", status := .todo } .inReview ownRunOptions).eval (serve redGate)
        oneTodo).value = .error (.blocked .todo .inReview [.inProgress, .inReview])) ∧
      ((transitionSync redGate { id := "first", status := .todo } .inReview ownRunOptions).eval (serve redGate)
        oneTodo).state.statusOf "first" = some .inProgress ∧
      ¬ RefusedStays redGate oneTodo { id := "first", status := .todo } .inReview ownRunOptions := by
  have refused : ((transitionSync redGate { id := "first", status := .todo } .inReview ownRunOptions).eval
      (serve redGate) oneTodo).value = .error (.blocked .todo .inReview [.inProgress, .inReview]) := rfl
  have moved : ((transitionSync redGate { id := "first", status := .todo } .inReview ownRunOptions).eval
      (serve redGate) oneTodo).state.statusOf "first" = some .inProgress := rfl
  refine ⟨refused, moved, fun stays => ?_⟩
  have kept := statusOf_of_place (stays _ refused)
  rw [moved] at kept
  exact absurd kept (by decide)

end EverWorks.Tasks
