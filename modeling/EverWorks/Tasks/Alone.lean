import EverWorks.Tasks.Transition

/-!
What the programs of a transition and of its cascade come to when no other program runs between their calls.
-/

namespace EverWorks.Tasks
open Lib Lib.Program List

variable {around : Surroundings} {store : TaskStore} {task : Task} {target : TaskStatus} {opts : TransitionOptions}

namespace TaskStore

def isOpen (store : TaskStore) (id : TaskId) : Bool := (store.findById id).any (!·.status.resolved)

def openBlockerIds (store : TaskStore) (id : TaskId) : List TaskId :=
  ((store.findByTaskId id).map (·.blockedByTaskId)).filter store.isOpen

theorem openBlockerIds_congr {store' : TaskStore} (blocks : store'.blocks = store.blocks)
    (opens : ∀ id, store'.isOpen id = store.isOpen id) (id : TaskId) :
    store'.openBlockerIds id = store.openBlockerIds id := by
  rw [openBlockerIds, openBlockerIds, findByTaskId, findByTaskId, blocks, funext opens]

theorem openBlockerIds_eq_nil {id : TaskId} :
    store.openBlockerIds id = [] ↔ ∀ block ∈ store.blocks, block.taskId = id →
      store.isOpen block.blockedByTaskId = false := by
  simp only [openBlockerIds, findByTaskId, filter_eq_nil_iff, forall_mem_map, mem_filter,
    decide_eq_true_eq, Bool.not_eq_true, and_imp]

end TaskStore

theorem eval_openAmong (ids : List TaskId) :
    (openAmong ids).eval (serve around) store = ⟨ids.filter store.isOpen, store, []⟩ := by
  induction ids with
  | nil => rfl
  | cons id rest ih =>
    rw [openAmong, ask_bind, eval_call, eval_bind]
    simp only [serve, ih, filter_cons]
    rfl

theorem eval_listOpenBlockerIds (id : TaskId) :
    (listOpenBlockerIds id).eval (serve around) store = ⟨store.openBlockerIds id, store, []⟩ := by
  rw [listOpenBlockerIds, ask_bind, eval_call]
  exact eval_openAmong _

theorem quiet_blockerGate : Quiet (serve around) (blockerGate task target) := by
  rw [blockerGate]
  split
  · intro state
    rw [eval_listOpenBlockerIds]
  · exact .pure _

theorem quiet_closedGate : Quiet (serve around) (closedGate task target opts) := by
  have entry : Quiet (serve around) (reviewEntryGate task target opts) := by
    rw [reviewEntryGate]
    split
    · exact .ask fun _ => rfl
    · exact .pure _
  have approvers : Quiet (serve around) (approverGate task target opts) := by
    rw [approverGate]
    split
    · exact .ask fun _ => rfl
    · exact .pure _
  refine quiet_blockerGate.bind fun openBlockers => ?_
  split
  · exact .pure _
  · refine entry.bind fun refusing => ?_
    split
    · exact .pure _
    · exact approvers.bind fun approved => .pure _

def gateRefusal (around : Surroundings) (store : TaskStore) (task : Task) (target : TaskStatus)
    (opts : TransitionOptions) : Option Refusal :=
  ((closedGate task target opts).eval (serve around) store).value

theorem eval_closedGate :
    (closedGate task target opts).eval (serve around) store =
      ⟨gateRefusal around store task target opts, store, []⟩ :=
  quiet_closedGate store

/-- Blockers alone hold back a move into a status other than review and done, and only one into progress. -/
theorem gateRefusal_eq_none (clear : target = .inProgress → store.openBlockerIds task.id = [])
    (review : target ≠ .inReview) (done : target ≠ .done) : gateRefusal around store task target opts = none := by
  have blockers : (blockerGate task target).eval (serve around) store = ⟨[], store, []⟩ := by
    rw [blockerGate]
    split
    · rename_i gated
      rw [eval_listOpenBlockerIds, clear (by simpa [done] using gated)]
    · rfl
  rw [gateRefusal, closedGate, eval_bind, blockers]
  simp [reviewEntryGate, approverGate, review, done]

def refusal (around : Surroundings) (store : TaskStore) (task : Task) (target : TaskStatus)
    (opts : TransitionOptions) : Option Refusal :=
  let opts := withAgentFanOutSuppressed around (withoutAgentForce opts) target
  (refusedAtOnce around task target opts).or (gateRefusal around store task target opts)

def movePatch (around : Surroundings) (task : Task) (target : TaskStatus) (opts : TransitionOptions) : TaskPatch :=
  transitionPatch around task target (withAgentFanOutSuppressed around (withoutAgentForce opts) target)

def moveCascade (around : Surroundings) (task : Task) (target : TaskStatus) (opts : TransitionOptions) : Cascade :=
  let opts := withAgentFanOutSuppressed around (withoutAgentForce opts) target
  { blockerTaskId := task.id
    suppressAgentDispatch := opts.suppressAgentDispatch
    suppressAgentFanOut := opts.suppressAgentFanOut }

theorem eval_transition_refused {reason : Refusal} (refused : refusal around store task target opts = some reason) :
    (transition around task target opts).eval (serve around) store = ⟨.error reason, store, []⟩ := by
  rw [refusal, Option.or_eq_some_iff] at refused
  rw [transition]
  rcases refused with atOnce | ⟨later, gate⟩
  · simp only [atOnce]
    rfl
  · simp only [later, eval_bind, eval_closedGate, gate]
    rfl

theorem eval_transition_landed (present : store.findById task.id = some task)
    (clear : refusal around store task target opts = none) :
    (transition around task target opts).eval (serve around) store =
      ⟨.ok ((movePatch around task target opts).apply task),
        store.updateTask task.id (movePatch around task target opts),
        if target.resolved then [moveCascade around task target opts] else []⟩ := by
  rw [refusal, Option.or_eq_none_iff] at clear
  have refreshed : (store.updateTask task.id (movePatch around task target opts)).findById task.id =
      some ((movePatch around task target opts).apply task) := by
    rw [TaskStore.findById_updateTask, if_pos rfl, present, Option.map_some]
  rw [transition]
  simp only [clear.1, eval_bind, eval_closedGate, clear.2, landing, ask_bind, eval_call, serve,
    TaskStore.casUpdateStatus, present, if_pos, Bool.not_true, Bool.false_eq_true, if_false, nil_append]
  rw [← movePatch, refreshed]
  simp only [releaseDependents]
  split <;> rfl

end EverWorks.Tasks
