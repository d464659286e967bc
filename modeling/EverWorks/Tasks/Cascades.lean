import EverWorks.Tasks.Alone

/-!
A move with the cascades it starts run to their end. Each cascade that starts another one takes a task out of
`blocked`, so that there is an end on every graph.
-/

namespace EverWorks.Tasks
open Lib Lib.Program List

variable {around : Surroundings} {store : TaskStore} {cascade : Cascade} {blocked : Task}

def restorePatch (around : Surroundings) (cascade : Cascade) (blocked : Task) : TaskPatch :=
  transitionPatch around blocked (restoreTo blocked) (restoreOptions cascade)

structure Free (store : TaskStore) (task : Task) : Prop where
  status : task.status = .blocked
  clear : store.openBlockerIds task.id = []

instance (store : TaskStore) (task : Task) : Decidable (Free store task) :=
  decidable_of_iff (task.status = .blocked ∧ store.openBlockerIds task.id = [])
    ⟨fun h => ⟨h.1, h.2⟩, fun h => ⟨h.1, h.2⟩⟩

theorem restoreOptions_amended (target : TaskStatus) :
    withAgentFanOutSuppressed around (withoutAgentForce (restoreOptions cascade)) target = restoreOptions cascade :=
  rfl

theorem refusal_restore (free : Free store blocked) (legal : restoreTo blocked ∈ allowed .blocked) :
    refusal around store blocked (restoreTo blocked) (restoreOptions cascade) = none := by
  have table : ∀ target ∈ allowed .blocked, target ≠ .inReview ∧ target ≠ .done := by decide
  have atOnce : refusedAtOnce around blocked (restoreTo blocked) (restoreOptions cascade) = none := by
    simp [refusedAtOnce, restoreOptions, free.status, legal]
  rw [refusal, restoreOptions_amended, atOnce]
  exact gateRefusal_eq_none (fun _ => free.clear) (table _ legal).1 (table _ legal).2

theorem refusedAtOnce_restore (status : blocked.status = .blocked) (illegal : restoreTo blocked ∉ allowed .blocked) :
    refusedAtOnce around blocked (restoreTo blocked) (restoreOptions cascade) =
      some (.cannotTransition .blocked (restoreTo blocked)) := by
  simp [refusedAtOnce, restoreOptions, status, illegal]

theorem refusal_restore_illegal (status : blocked.status = .blocked)
    (illegal : restoreTo blocked ∉ allowed .blocked) :
    refusal around store blocked (restoreTo blocked) (restoreOptions cascade) =
      some (.cannotTransition .blocked (restoreTo blocked)) := by
  rw [refusal, restoreOptions_amended, refusedAtOnce_restore status illegal]
  rfl

/-- A restore leaves a task that is not free, or that the table lets go nowhere, as it is. -/
theorem eval_tryUnblock_kept {id : TaskId}
    (kept : ∀ task, store.findById id = some task → Free store task → restoreTo task ∉ allowed .blocked) :
    (tryUnblockSingleTask around cascade id).eval (serve around) store = ⟨false, store, []⟩ := by
  rw [tryUnblockSingleTask, ask_bind, eval_call]
  simp only [serve]
  cases found : store.findById id with
  | none => rfl
  | some task =>
    dsimp only
    split
    · rfl
    · rename_i status
      rw [eval_bind, eval_listOpenBlockerIds]
      dsimp only
      split
      · rfl
      · rename_i clear
        have status : task.status = .blocked := not_not.mp status
        have named : task.id = id := (TaskStore.findById_mem found).2
        have illegal := kept task found ⟨status, by rw [named]; exact not_not.mp clear⟩
        rw [eval_bind, eval_transition_refused (refusal_restore_illegal status illegal)]
        rfl

theorem eval_tryUnblock_restored (present : store.findById blocked.id = some blocked) (free : Free store blocked)
    (legal : restoreTo blocked ∈ allowed .blocked) :
    (tryUnblockSingleTask around cascade blocked.id).eval (serve around) store =
      ⟨true, store.updateTask blocked.id (restorePatch around cascade blocked),
        if (restoreTo blocked).resolved then [{ cascade with blockerTaskId := blocked.id }] else []⟩ := by
  rw [tryUnblockSingleTask, ask_bind, eval_call]
  simp only [serve, present, free.status, ne_eq, not_true_eq_false, if_false]
  rw [eval_bind, eval_listOpenBlockerIds, free.clear]
  simp only [not_true_eq_false, if_false]
  rw [eval_bind, eval_transition_landed present (refusal_restore free legal)]
  simp only [eval_pure, append_nil, nil_append]
  rfl

/-- How many tasks are in `blocked`. -/
def blockedCount (store : TaskStore) : Nat := store.tasks.countP (·.status = .blocked)

theorem blockedCount_restored (present : store.findById blocked.id = some blocked) (status : blocked.status = .blocked)
    {patch : TaskPatch} (leaves : patch.status ≠ .blocked) :
    blockedCount (store.updateTask blocked.id patch) < blockedCount store :=
  Table.countP_update_lt (TaskStore.findById_mem present).1 rfl (by simpa using status)
    fun _ _ => decide_eq_false leaves

variable (around cascade) in
theorem restorePatch_status : (restorePatch around cascade blocked).status = restoreTo blocked := rfl

variable (around store cascade) in
theorem eval_tryUnblock_count (id : TaskId) :
    let outcome := (tryUnblockSingleTask around cascade id).eval (serve around) store
    blockedCount outcome.state + outcome.jobs.length ≤ blockedCount store := by
  by_cases restores : ∃ task, store.findById id = some task ∧ Free store task ∧ restoreTo task ∈ allowed .blocked
  · obtain ⟨task, found, free, legal⟩ := restores
    obtain rfl := (TaskStore.findById_mem found).2
    have leaves : restoreTo task ≠ .blocked := by
      intro same
      rw [same] at legal
      revert legal
      decide
    have fewer := blockedCount_restored found free.status
      (restorePatch_status around cascade ▸ leaves)
    rw [eval_tryUnblock_restored found free legal]
    dsimp only
    split
    · exact fewer
    · exact fewer.le
  · rw [eval_tryUnblock_kept fun task found free legal => restores ⟨task, found, free, legal⟩]
    exact le_rfl

variable (around cascade) in
theorem eval_unblockEach_count (ids : List TaskId) (store : TaskStore) :
    let outcome := (unblockEach around cascade ids).eval (serve around) store
    blockedCount outcome.state + outcome.jobs.length ≤ blockedCount store := by
  induction ids generalizing store with
  | nil => exact le_rfl
  | cons id rest ih =>
    have here := eval_tryUnblock_count around store cascade id
    have later := ih ((tryUnblockSingleTask around cascade id).eval (serve around) store).state
    simp only [unblockEach, eval_bind, eval_pure, length_append, append_nil] at here later ⊢
    omega

def round (around : Surroundings) : TaskStore × List Cascade → TaskStore × List Cascade
  | (store, []) => (store, [])
  | (store, cascade :: rest) =>
    let outcome := (autoUnblockResolvedTasks around cascade).eval (serve around) store
    (outcome.state, rest ++ outcome.jobs)

def settled (around : Surroundings) (store : TaskStore) (cascades : List Cascade) : TaskStore × List Cascade :=
  (round around)^[cascades.length + blockedCount store] (store, cascades)

theorem eval_autoUnblock :
    (autoUnblockResolvedTasks around cascade).eval (serve around) store =
      (unblockEach around cascade (store.findTasksBlockedBy cascade.blockerTaskId)).eval (serve around) store := rfl

theorem round_nil : round around (store, []) = (store, []) := rfl

variable (around store) in
theorem round_count (cascades : List Cascade) (some_cascade : cascades ≠ []) :
    blockedCount (round around (store, cascades)).1 + (round around (store, cascades)).2.length + 1 ≤
      blockedCount store + cascades.length := by
  obtain ⟨cascade, rest, rfl⟩ := exists_cons_of_ne_nil some_cascade
  have fewer := eval_unblockEach_count around cascade
    (store.findTasksBlockedBy cascade.blockerTaskId) store
  simp only [round, eval_autoUnblock, length_append, length_cons] at fewer ⊢
  omega

theorem iterate_round_nil (rounds : Nat) : (round around)^[rounds] (store, []) = (store, []) :=
  Function.iterate_fixed round_nil rounds

theorem rounds_end (rounds : Nat) (store : TaskStore) (cascades : List Cascade)
    (enough : blockedCount store + cascades.length ≤ rounds) :
    ((round around)^[rounds] (store, cascades)).2 = [] := by
  induction rounds generalizing store cascades with
  | zero => exact length_eq_zero_iff.mp (by simp only [Function.iterate_zero, id_eq]; omega)
  | succ rounds ih =>
    by_cases none_left : cascades = []
    · rw [none_left, iterate_round_nil]
    · have fewer := round_count around store cascades none_left
      rw [Function.iterate_succ_apply]
      exact ih (round around (store, cascades)).1 (round around (store, cascades)).2 (by omega)

theorem settled_end (cascades : List Cascade) : (settled around store cascades).2 = [] :=
  rounds_end _ store cascades (Nat.add_comm _ _).le

end EverWorks.Tasks
