import EverWorks.Tasks.SyncWalk

/-!
An order of the calls that lets a cascade read the walked task while it is cancelled, and the exact condition under
which there is none.
-/

namespace EverWorks.Tasks
open Lib Lib.Program TaskStore List

variable {around : Surroundings} {store : TaskStore} {task : Task} {target : TaskStatus} {opts : TransitionOptions}

theorem hopOptions_actorType : (hopOptions opts).actorType = opts.actorType := by
  rw [hopOptions]
  split <;> rfl

theorem hopOptions_automaticRestore : (hopOptions opts).automaticRestore = opts.automaticRestore := by
  rw [hopOptions]
  split <;> rfl

def judgedOptions (around : Surroundings) (opts : TransitionOptions) (hop : TaskStatus) : TransitionOptions :=
  withAgentFanOutSuppressed around (withoutAgentForce (hopOptions (withoutAgentForce opts))) hop

theorem withoutAgentForce_actorType : (withoutAgentForce opts).actorType = opts.actorType := by
  rw [withoutAgentForce]
  split <;> rfl

theorem withoutAgentForce_automaticRestore :
    (withoutAgentForce opts).automaticRestore = opts.automaticRestore := by
  rw [withoutAgentForce]
  split <;> rfl

theorem withAgentFanOutSuppressed_actorType :
    (withAgentFanOutSuppressed around opts target).actorType = opts.actorType := by
  rw [withAgentFanOutSuppressed]
  split
  · rfl
  · split
    · rfl
    · split <;> rfl

theorem withAgentFanOutSuppressed_automaticRestore :
    (withAgentFanOutSuppressed around opts target).automaticRestore = opts.automaticRestore := by
  rw [withAgentFanOutSuppressed]
  split
  · rfl
  · split
    · rfl
    · split <;> rfl

theorem judgedOptions_actorType (hop : TaskStatus) : (judgedOptions around opts hop).actorType = opts.actorType := by
  rw [judgedOptions, withAgentFanOutSuppressed_actorType, withoutAgentForce_actorType, hopOptions_actorType,
    withoutAgentForce_actorType]

theorem judgedOptions_automaticRestore (hop : TaskStatus) :
    (judgedOptions around opts hop).automaticRestore = opts.automaticRestore := by
  rw [judgedOptions, withAgentFanOutSuppressed_automaticRestore, withoutAgentForce_automaticRestore,
    hopOptions_automaticRestore, withoutAgentForce_automaticRestore]

variable {hop : TaskStatus}

theorem refusedAtOnce_held (held : AgentHeldBack around task opts) (leaves : hop ≠ .blocked) :
    ∃ reason, refusedAtOnce around task hop (judgedOptions around opts hop) = some reason := by
  obtain ⟨agent, awaiting | ⟨status, manual, closed⟩⟩ := held
  · exact ⟨_, if_pos (by simp [awaiting, judgedOptions_actorType, agent])⟩
  · simp only [refusedAtOnce]
    split
    · exact ⟨_, rfl⟩
    · exact ⟨_, if_pos (by
        simp [status, leaves, judgedOptions_actorType, agent, judgedOptions_automaticRestore, manual, closed])⟩

theorem refusedAtOnce_free (free : ¬ AgentHeldBack around task opts)
    (legal : hop ∈ allowed task.status) :
    refusedAtOnce around task hop (judgedOptions around opts hop) = none := by
  rw [AgentHeldBack, not_and, not_or] at free
  simp only [refusedAtOnce, judgedOptions_actorType, judgedOptions_automaticRestore]
  rw [if_neg, if_neg, if_neg (not_not.mpr legal)]
  · intro gated
    simp only [Bool.and_eq_true, decide_eq_true_eq, Bool.not_eq_true'] at gated
    exact (free gated.1.1.2).2 ⟨gated.1.1.1.1, gated.1.2, gated.2⟩
  · intro gated
    simp only [Bool.and_eq_true, decide_eq_true_eq] at gated
    exact (free gated.2).1 gated.1

variable {source : TaskStatus}

theorem keeps_heldBack {pinned : TaskId → Prop} {path walked : List TaskStatus}
    (held : AgentHeldBack around task opts) (leaves : ∀ hop ∈ path, hop ≠ .blocked) :
    (walkHops around (withoutAgentForce opts) source target task walked path).Keeps (serve around)
      (Pinned pinned store) (fun _ => False) fun _ => True := by
  cases path with
  | nil => trivial
  | cons hop rest =>
    obtain ⟨reason, refused⟩ := refusedAtOnce_held held (leaves hop mem_cons_self)
    rw [judgedOptions] at refused
    rw [walkHops, transition, refused]
    exact keeps_hopRefused.bind fun _ _ => trivial

theorem keeps_reopenRefused {path : List TaskStatus}
    (gated : path.any fun hop => hop = .inProgress || hop = .done) (opens : store.openBlockerIds task.id ≠ []) :
    (assertSyncPathOpen task source target path opts).Keeps (serve around) (Pinned (fun _ => True) store)
      (fun _ => False) fun gate => gate ≠ none := by
  rw [assertSyncPathOpen, pathBlockerGate, if_pos gated]
  refine (keeps_listOpenBlockerIds task.id).bind fun blockers complete => ?_
  have found : blockers ≠ [] := by
    rintro rfl
    refine opens (openBlockerIds_eq_nil.mpr fun block inside own => ?_)
    by_contra isOpen
    exact not_mem_nil (complete block inside own trivial (by simpa using isOpen))
  rw [if_pos found]
  intro absent
  cases absent

theorem changesOnly_of_keeps {pinned : TaskId → Prop} {allowedJob : Cascade → Prop}
    (pins : ∀ id, id ≠ task.id → pinned id)
    (bodies : ∀ cascade, allowedJob cascade →
      (cascadeBody around cascade).Keeps (serve around) (Pinned pinned store) allowedJob fun _ => True)
    (walk : (transitionSync around task target opts).Keeps (serve around) (Pinned pinned store) allowedJob
      fun _ => True) : ChangesOnlyItsTask around store task target opts := by
  intro schedule id other
  have programs : ∀ program ∈ (syncPool around store task target opts).programs,
      program.Keeps (serve around) (Pinned pinned store) allowedJob fun _ => True := by
    intro program listed
    rw [mem_singleton.mp listed]
    exact Keeps.detached walk
  have start : Pinned pinned store (syncPool around store task target opts).state := ⟨rfl, fun _ _ => rfl⟩
  have pinned := Pool.run_keeps (serve around) (cascadeBody around) bodies programs start schedule
  rw [statusOf, pinned.tasks id (pins id other), statusOf]

theorem changesOnly_of_quiet (quiet : ∀ other ∈ store.tasks, ¬ HoldsUp store task other) :
    ChangesOnlyItsTask around store task target opts :=
  changesOnly_of_keeps (fun _ other => other) (fun _ own => keeps_cascadeBody quiet own)
    (keeps_transitionSync (fun pinned => pinned rfl) fun _ _ _ _ own => own)

theorem changesOnly_of_not_passes (unresolved : target.resolved = false)
    (stays : ¬ PassesCancelled around store task target opts) : ChangesOnlyItsTask around store task target opts := by
  by_cases backlog : target = .backlog ∧ task.status ≠ .backlog ∧ task.status ≠ .cancelled
  · obtain ⟨rfl, elsewhere⟩ := backlog
    have path := shortestTransitionPath_backlog elsewhere.1 elsewhere.2
    by_cases held : AgentHeldBack around task opts
    · refine changesOnly_of_keeps (fun _ other => other) (fun _ => False.elim) ?_
      rw [transitionSync, path]
      simp only [backlogPath_isEmpty, Bool.false_eq_true, if_false]
      refine keeps_assertSyncPathOpen.bind fun gate _ => ?_
      split
      · trivial
      · exact keeps_heldBack held fun hop => not_blocked_of_backlogPath
    · have reopened : task.status = .done ∧ store.openBlockerIds task.id ≠ [] := by
        by_contra neither
        exact stays ⟨rfl, elsewhere, held, fun done => by_contra fun opens => neither ⟨done, opens⟩⟩
      refine changesOnly_of_keeps (fun _ _ => trivial) (fun _ => False.elim) ?_
      rw [transitionSync, path]
      simp only [backlogPath_isEmpty, Bool.false_eq_true, if_false]
      refine (keeps_reopenRefused (by rw [reopened.1]; rfl) reopened.2).bind fun gate refused => ?_
      split
      · trivial
      · exact absurd rfl refused
  · refine changesOnly_of_keeps (fun _ other => other) (fun _ => False.elim)
      (keeps_transitionSync (fun pinned => pinned rfl) fun path found resolved => ?_)
    exact absurd ((shortestTransitionPath_resolved unresolved found).mp resolved) backlog

def Reaches (around : Surroundings) (pool pool' : Pool TaskStore TaskCall TaskReply Cascade) : Prop :=
  ∃ schedule, run (Pool.step (serve around) (cascadeBody around)) pool schedule = pool'

theorem Reaches.trans {first second third : Pool TaskStore TaskCall TaskReply Cascade}
    (start : Reaches around first second) (rest : Reaches around second third) : Reaches around first third := by
  obtain ⟨schedule, rfl⟩ := start
  obtain ⟨schedule', rfl⟩ := rest
  exact ⟨schedule ++ schedule', run_append _ _ _ _⟩

variable (around) in
theorem reaches_bind {α : Type} (state : TaskStore) (before after : List (TaskProgram Unit)) (first : TaskProgram α)
    (rest : α → TaskProgram Unit) :
    Reaches around ⟨state, before ++ (first >>= rest) :: after⟩
      ⟨(first.eval (serve around) state).state,
        before ++ rest (first.eval (serve around) state).value :: after ++
          (first.eval (serve around) state).jobs.map (cascadeBody around)⟩ :=
  Pool.exists_schedule_bind _ _ state before after first rest

theorem detached_bind {α β : Type} (first : TaskProgram α) (rest : α → TaskProgram β) :
    detached (first >>= rest) = first >>= fun value => detached (rest value) :=
  bind_assoc _ _ _

theorem reaches_hop (source target : TaskStatus) (rest walked : List TaskStatus) (after : List (TaskProgram Unit))
    {current : Task} {state : TaskStore} (present : state.findById current.id = some current)
    (clear : refusal around state current hop (hopOptions opts) = none) :
    let patch := movePatch around current hop (hopOptions opts)
    Reaches around ⟨state, detached (walkHops around opts source target current walked (hop :: rest)) :: after⟩
      ⟨state.updateTask current.id patch,
        detached (walkHops around opts source target (patch.apply current) (walked ++ [hop]) rest) :: after ++
          (if hop.resolved then [moveCascade around current hop (hopOptions opts)] else []).map
            (cascadeBody around)⟩ := by
  intro patch
  have reached (further : Except Refusal Task → TaskProgram Unit) :=
    reaches_bind around state [] after (transition around current hop (hopOptions opts)) further
  simp only [eval_transition_landed present clear, nil_append] at reached
  have arrived : ¬ (patch.apply current).status ≠ hop := not_not.mpr rfl
  rw [walkHops, detached_bind]
  refine cast (congrArg (Reaches around _) ?_) (reached _)
  dsimp only
  rw [if_neg arrived]

variable (around) in
theorem reaches_restore (cascade : Cascade) (ids : List TaskId) (state : TaskStore) (before : List (TaskProgram Unit))
    {other : Task} (present : state.findById other.id = some other) (listed : other.id ∈ ids)
    (free : Free state other) (legal : restoreTo other ∈ allowed .blocked) :
    ∃ pool restored, Reaches around ⟨state, before ++ [detached (unblockEach around cascade ids)]⟩ pool ∧
      state.statusOf restored = some .blocked ∧ pool.state.statusOf restored ≠ some .blocked := by
  induction ids with
  | nil => cases listed
  | cons first rest ih =>
    have reached := reaches_bind around state before [] (tryUnblockSingleTask around cascade first)
      fun unblocked => detached (do
        let later ← unblockEach around cascade rest
        return if unblocked then first :: later else later)
    by_cases restores : ∃ task, state.findById first = some task ∧ Free state task ∧ restoreTo task ∈ allowed .blocked
    · obtain ⟨task, found, free, legal⟩ := restores
      obtain rfl := (findById_mem found).2
      rw [eval_tryUnblock_restored found free legal] at reached
      rw [unblockEach, detached_bind]
      refine ⟨_, task.id, reached, ?_, ?_⟩
      · rw [statusOf_of_found found, free.status]
      · have now : (state.updateTask task.id (restorePatch around cascade task)).findById task.id =
            some ((restorePatch around cascade task).apply task) := by
          rw [findById_updateTask, if_pos rfl, found, Option.map_some]
        rw [statusOf_of_found now, TaskPatch.apply_status, restorePatch_status]
        intro same
        rw [Option.some.inj same] at legal
        revert legal
        decide
    · have kept : ∀ task, state.findById first = some task → Free state task → restoreTo task ∉ allowed .blocked :=
        fun task found free legal => restores ⟨task, found, free, legal⟩
      rw [eval_tryUnblock_kept kept] at reached
      have later : other.id ∈ rest := by
        rcases mem_cons.mp listed with here | later
        · exact absurd legal (kept other (here ▸ present) free)
        · exact later
      obtain ⟨pool, restored, more, was, now⟩ := ih later
      have same : detached (do
          let later ← unblockEach around cascade rest
          return if false then first :: later else later) = detached (unblockEach around cascade rest) :=
        detached_bind _ _
      simp only [same, map_nil, append_nil] at reached
      rw [unblockEach, detached_bind]
      exact ⟨pool, restored, reached.trans more, was, now⟩

theorem refusal_hop_free {state : TaskStore} (free : ¬ AgentHeldBack around task opts)
    (legal : hop ∈ allowed task.status) (clear : hop = .inProgress → state.openBlockerIds task.id = [])
    (review : hop ≠ .inReview) (done : hop ≠ .done) :
    refusal around state task hop (hopOptions (withoutAgentForce opts)) = none := by
  rw [refusal, ← judgedOptions, refusedAtOnce_free free legal]
  exact gateRefusal_eq_none clear review done

/-- A pool in which the walked task is cancelled, and the cascade of that has made no call yet. -/
def Cancelling (around : Surroundings) (store : TaskStore) (id : TaskId)
    (pool : Pool TaskStore TaskCall TaskReply Cascade) : Prop :=
  ∃ (walk : TaskProgram Unit) (cascade : Cascade), pool.programs = [walk, cascadeBody around cascade] ∧
    cascade.blockerTaskId = id ∧ pool.state.blocks = store.blocks ∧ pool.state.statusOf id = some .cancelled ∧
    ∀ other, other ≠ id → pool.state.findById other = store.findById other

theorem reaches_cancel_hop {rest walked : List TaskStatus}
    (present : store.findById task.id = some task) (free : ¬ AgentHeldBack around task opts)
    (legal : .cancelled ∈ allowed task.status) :
    ∃ pool, Reaches around
      ⟨store, [detached (walkHops around (withoutAgentForce opts) source target task walked (.cancelled :: rest))]⟩ pool ∧
      Cancelling around store task.id pool := by
  have clear : refusal around store task .cancelled (hopOptions (withoutAgentForce opts)) = none :=
    refusal_hop_free free legal nofun (by decide) (by decide)
  refine ⟨_, reaches_hop source target rest walked [] present clear, _, _, rfl, rfl, rfl, ?_, fun other different => ?_⟩
  · rw [statusOf, findById_updateTask, if_pos rfl, present]
    rfl
  · rw [findById_updateTask, if_neg different]

theorem not_held_moved (free : ¬ AgentHeldBack around task opts) (leaves : hop ≠ .blocked) :
    ¬ AgentHeldBack around ((movePatch around task hop (hopOptions (withoutAgentForce opts))).apply task) opts := by
  rintro ⟨agent, awaiting | blocked⟩
  · refine free ⟨agent, .inl ?_⟩
    have actor : (judgedOptions around opts hop).actorType = some .agent := by rw [judgedOptions_actorType, agent]
    have labels : ((movePatch around task hop (hopOptions (withoutAgentForce opts))).apply task).labels =
        task.labels := by
      rw [movePatch, ← judgedOptions]
      simp [TaskPatch.apply, transitionPatch, actor]
    rw [isAwaitingOwner, labels] at awaiting
    exact awaiting
  · exact leaves blocked.1

section
variable (passes : PassesCancelled around store task target opts) (present : store.findById task.id = some task)
include passes

theorem reaches_walk :
    Reaches around (syncPool around store task target opts)
      ⟨store, [detached (walkHops around (withoutAgentForce opts) task.status target task []
        (backlogPath task.status))]⟩ := by
  obtain ⟨rfl, elsewhere, -, reopened⟩ := passes
  have blockers : (pathBlockerGate task (backlogPath task.status)).eval (serve around) store = ⟨[], store, []⟩ := by
    rw [pathBlockerGate]
    split
    · rename_i gated
      have done : task.status = .done := by
        by_contra other
        rw [backlogPath, if_neg other] at gated
        revert gated
        decide
      rw [eval_listOpenBlockerIds, reopened done]
    · rfl
  have approvers : pathApproverGate task (backlogPath task.status) (withoutAgentForce opts) = pure true := by
    have unfinished : (backlogPath task.status).contains .done = false := by cases task.status <;> rfl
    rw [pathApproverGate, unfinished]
    rfl
  have opened : (assertSyncPathOpen task task.status .backlog (backlogPath task.status) (withoutAgentForce opts)).eval
      (serve around) store = ⟨none, store, []⟩ := by
    rw [assertSyncPathOpen, eval_bind, blockers, approvers]
    rfl
  have reached (further : Option SyncRefusal → TaskProgram Unit) := reaches_bind around store [] []
    (assertSyncPathOpen task task.status .backlog (backlogPath task.status) (withoutAgentForce opts)) further
  simp only [opened] at reached
  rw [syncPool, transitionSync, shortestTransitionPath_backlog elsewhere.1 elsewhere.2]
  simp only [backlogPath_isEmpty, Bool.false_eq_true, if_false]
  rw [detached_bind]
  exact reached _

include present

theorem reaches_cancelled : ∃ pool, Reaches around (syncPool around store task target opts) pool ∧
    Cancelling around store task.id pool := by
  have walk := reaches_walk passes
  obtain ⟨rfl, elsewhere, free, reopened⟩ := passes
  by_cases done : task.status = .done
  · rw [backlogPath, if_pos done] at walk
    have legal : .inProgress ∈ allowed task.status := by rw [done]; decide
    have open' : TaskStatus.inProgress = .inProgress → store.openBlockerIds task.id = [] := fun _ => reopened done
    have clear := refusal_hop_free free legal open' (by decide) (by decide)
    have hop := reaches_hop task.status .backlog [.cancelled, .backlog] [] [] present clear
    rw [if_neg (by decide)] at hop
    have now : (store.updateTask task.id (movePatch around task .inProgress
        (hopOptions (withoutAgentForce opts)))).findById task.id =
          some ((movePatch around task .inProgress (hopOptions (withoutAgentForce opts))).apply task) := by
      rw [findById_updateTask, if_pos rfl, present, Option.map_some]
    have cancel : .cancelled ∈ allowed .inProgress := by decide
    obtain ⟨pool, reached, cancelling⟩ := reaches_cancel_hop now (not_held_moved free (by decide)) cancel
    obtain ⟨walk', cascade, shape, own, blocks, status, others⟩ := cancelling
    refine ⟨pool, (walk.trans hop).trans reached, walk', cascade, shape, own, blocks, status, ?_⟩
    intro other different
    rw [others other different, findById_updateTask, if_neg different]
  · rw [backlogPath, if_neg done] at walk
    have legal : .cancelled ∈ allowed task.status := by
      revert elsewhere done
      cases task.status <;> decide
    obtain ⟨pool, reached, cancelling⟩ := reaches_cancel_hop present free legal
    exact ⟨pool, walk.trans reached, cancelling⟩

theorem released_by_walk {other : Task} (listed : other ∈ store.tasks) (holdsUp : HoldsUp store task other) :
    ¬ ChangesOnlyItsTask around store task target opts := by
  intro stays
  obtain ⟨⟨state, programs⟩, cancelled, walk, cascade, shape, own, blocks, status, others⟩ :=
    reaches_cancelled passes present
  dsimp only at shape blocks status others
  subst shape
  obtain ⟨different, waits, legal⟩ := holdsUp
  have found : state.findById other.id = some other := by
    rw [others _ different]
    exact findById_of_mem listed
  have resolved : state.isOpen task.id = false := by
    rw [statusOf, Option.map_eq_some_iff] at status
    obtain ⟨row, here, status⟩ := status
    rw [isOpen_of_found here, status]
    rfl
  have free : Free state other := by
    refine ⟨waits.status, openBlockerIds_eq_nil.mpr fun block inside mine => ?_⟩
    by_cases here : block.blockedByTaskId = task.id
    · rw [here, resolved]
    · rw [isOpen, others _ here]
      exact waits.others block (blocks ▸ inside) mine here
  have dependents : state.findTasksBlockedBy cascade.blockerTaskId = store.findTasksBlockedBy task.id := by
    rw [own, findTasksBlockedBy, blocks, findTasksBlockedBy]
  have read := reaches_bind around state [walk] [] (ask (.findTasksBlockedBy cascade.blockerTaskId))
    fun ids => detached (unblockEach around cascade ids)
  obtain ⟨pool, restored, restore, was, now⟩ :=
    reaches_restore around cascade (store.findTasksBlockedBy task.id) state [walk] found waits.listed free legal
  have reads : Reaches around ⟨state, [walk, cascadeBody around cascade]⟩
      ⟨state, [walk, detached (unblockEach around cascade (store.findTasksBlockedBy task.id))]⟩ := by
    rw [← dependents]
    exact read
  obtain ⟨schedule, ran⟩ := (cancelled.trans reads).trans restore
  have elsewhere : restored ≠ task.id := by
    rintro rfl
    rw [status] at was
    cases was
  have kept := stays schedule restored elsewhere
  have same : state.statusOf restored = store.statusOf restored := by
    rw [statusOf, others _ elsewhere, statusOf]
  rw [ran, ← same, was] at kept
  exact now kept

end

/-- Mirroring an unresolved status stays with its task exactly where the walk does not cancel it on its way, or no
other task waits in `blocked` for it alone. -/
theorem transitionSync_frame_iff (present : store.findById task.id = some task) (undone : target ≠ .done)
    (uncancelled : target ≠ .cancelled) :
    ChangesOnlyItsTask around store task target opts ↔
      ¬ (PassesCancelled around store task target opts ∧ ∃ other ∈ store.tasks, HoldsUp store task other) := by
  have unresolved : target.resolved = false := by
    cases target <;> first | rfl | contradiction
  constructor
  · rintro stays ⟨passes, other, listed, holdsUp⟩
    exact released_by_walk passes present listed holdsUp stays
  · intro apart
    by_cases passes : PassesCancelled around store task target opts
    · exact changesOnly_of_quiet fun other listed holdsUp => apart ⟨passes, other, listed, holdsUp⟩
    · exact changesOnly_of_not_passes unresolved passes

/-- One task in `todo`, and one that waits for it in `blocked`. -/
def oneWaiting : TaskStore where
  tasks := [{ id := "first", status := .todo }, { id := "second", status := .blocked, previousStatus := some .todo }]
  unique := by simp
  blocks := [⟨"second", "first"⟩]

theorem mirrored_progress_stays :
    ChangesOnlyItsTask quietSurroundings oneWaiting { id := "first", status := .todo } .inProgress {} := by
  refine (transitionSync_frame_iff (by decide) (by decide) (by decide)).mpr ?_
  rintro ⟨passes, -⟩
  cases passes.target

/-- On its way from `todo` to the backlog a task is cancelled, and the one that waits for it can go on. -/
theorem mirrored_backlog_releases :
    oneWaiting.findById "first" = some { id := "first", status := .todo } ∧
      ¬ ChangesOnlyItsTask quietSurroundings oneWaiting { id := "first", status := .todo } .backlog {} := by
  have passes : PassesCancelled quietSurroundings oneWaiting { id := "first", status := .todo } .backlog {} := by
    refine ⟨rfl, ⟨by decide, by decide⟩, ?_, by decide⟩
    rintro ⟨agent, -⟩
    cases agent
  refine ⟨by decide, released_by_walk passes (by decide) (mem_cons_of_mem _ mem_cons_self) ⟨by decide, ?_⟩⟩
  refine ⟨⟨rfl, by decide, fun block inside _ apart => ?_⟩, by decide⟩
  exact absurd (by rw [mem_singleton.mp inside]) apart

end EverWorks.Tasks
