import EverWorks.Fleet.LeaseFencing

/-!
A job that waits in the queue with a cancellation on it can neither be claimed nor expire. The three updates that put
a claimed job back do not look at the flag.
-/

namespace EverWorks.Fleet
open Lib List

namespace FleetJobBoard

variable {board after : FleetJobBoard} {hit : String → Prop}

def NoLimbo (board : FleetJobBoard) : Prop :=
  ∀ id job, board.jobs id = some job → job.status = .queued → job.cancelRequestedAt = none

/-- A job `cancel` answered for is settled, or held by a claim and flagged. -/
def CancelsSettle (board : FleetJobBoard) : Prop :=
  ∀ id ∈ board.cancelled, ∃ job, board.jobs id = some job ∧
    (job.isTerminal = true ∨ job.isActive = true ∧ job.cancelRequestedAt.isSome)

/-- A job `cancel` answered for is settled or flagged. -/
def Flagged (board : FleetJobBoard) : Prop :=
  ∀ id ∈ board.cancelled, ∃ job, board.jobs id = some job ∧
    (job.isTerminal = true ∨ job.cancelRequestedAt.isSome)

theorem Flagged.settle (flagged : board.Flagged) (clear : board.NoLimbo) : board.CancelsSettle := by
  intro id member
  obtain ⟨job, row, closed | flag⟩ := flagged id member
  · exact ⟨job, row, Or.inl closed⟩
  · refine ⟨job, row, ?_⟩
    cases status : job.status with
    | queued =>
      rw [clear id job row status] at flag
      cases flag
    | leased | running => exact Or.inr ⟨isActive_iff.mpr (by simp [status]), flag⟩
    | done | failed => exact Or.inl (isTerminal_iff.mpr (by simp [status]))

theorem Move.flagged (sound : board.Sound) (flagged : board.Flagged) (move : board.Move hit after) :
    after.Flagged := by
  have kept : ∀ id ∈ board.cancelled, ∃ job, after.jobs id = some job ∧
      (job.isTerminal = true ∨ job.cancelRequestedAt.isSome) := by
    intro id member
    obtain ⟨old, row, closed | flag⟩ := flagged id member
    · exact ⟨old, move.terminal row closed, Or.inl closed⟩
    · obtain ⟨new, _, there, rowMove, -⟩ := move.at sound.keyed row
      exact ⟨new, there, Or.inr (rowMove.spec.2.2 flag)⟩
  intro id member
  cases move with
  | stay cancelled answers =>
    rcases answers id member with before | ⟨job, row, flag⟩
    · exact kept id before
    · exact ⟨job, row, Or.inr flag⟩
  | @keep key _ new _ answers =>
    rcases answers id member with before | ⟨rfl, flag⟩
    · exact kept id before
    · exact ⟨new, Function.update_self .., Or.inr flag⟩
  | @settle key _ new _ _ answers =>
    rcases answers id member with before | ⟨rfl, flag⟩
    · exact kept id before
    · exact ⟨new, Function.update_self .., Or.inr flag⟩
  | claim => exact kept id member
  | requeue => exact kept id member

theorem Move.noLimbo_iff (clear : board.NoLimbo) (move : board.Move hit after) :
    after.NoLimbo ↔ ∀ id row, hit id → board.jobs id = some row → row.cancelRequestedAt = none := by
  have written : ∀ {key : String} {new : FleetJob}, new.status ≠ .queued →
      ∀ id job, Function.update board.jobs key (some new) id = some job → job.status = .queued →
        job.cancelRequestedAt = none := by
    intro key new busy id job there queued
    by_cases touched : id = key
    · subst touched
      rw [Function.update_self, Option.some.injEq] at there
      exact absurd (there ▸ queued) busy
    · rw [Function.update_of_ne touched] at there
      exact clear id job there queued
  cases move with
  | stay => exact iff_of_true clear fun _ _ none => none.elim
  | claim _ _ _ leased => exact iff_of_true (written (by simp [leased])) fun _ _ none => none.elim
  | @keep _ _ new _ _ _ _ still =>
    refine iff_of_true (written ?_) fun _ _ none => none.elim
    rcases isActive_iff.mp still with here | here <;> simp [here]
  | settle _ _ _ _ closed =>
    refine iff_of_true (written ?_) fun _ _ none => none.elim
    rcases isTerminal_iff.mp closed with here | here <;> simp [here]
  | requeue _ others rows =>
    constructor
    · intro after id row touched here
      obtain ⟨old, new, there, -, put, queued, -, -, flag, -⟩ := rows id touched
      obtain rfl := Option.some.inj (here.symm.trans there)
      rw [← flag]
      exact after id new put queued
    · intro unflagged id job there queued
      by_cases touched : hit id
      · obtain ⟨old, new, here, -, put, -, -, -, flag, -⟩ := rows id touched
        obtain rfl := Option.some.inj (there.symm.trans put)
        rw [flag]
        exact unflagged id old touched here
      · exact clear id job ((others id touched).1.symm.trans there) queued

end FleetJobBoard

namespace FleetJobPlatform

variable {deps : FleetJobDeps} {platform : FleetJobPlatform}

def RequeuesUnflagged (platform : FleetJobPlatform) : FleetJobEvent → Prop
  | .advance call _ => ∀ task, (platform.calls call).head? = some task → ∀ id row,
      task.requeues platform.board id → platform.board.jobs id = some row → row.cancelRequestedAt = none
  | _ => True

/-- Nothing waits in limbo, and what was cancelled is settled or will be by its claim. -/
structure Clear (platform : FleetJobPlatform) : Prop where
  sound : platform.Sound
  flagged : platform.board.Flagged
  noLimbo : platform.board.NoLimbo

theorem step_flagged (sound : platform.Sound) (flagged : platform.board.Flagged) (event : FleetJobEvent) :
    (platform.step deps event).board.Flagged := by
  cases event with
  | enqueue job now =>
    intro id member
    obtain ⟨row, here, settled⟩ := flagged id member
    exact ⟨row, FleetJobBoard.create_of_some here job now, settled⟩
  | begin id call =>
    dsimp only [step]
    split <;> exact flagged
  | advance call env =>
    dsimp only [step]
    split
    · exact flagged
    · next task rest calls =>
      have known : task.Sound := sound.tasks call task (calls ▸ mem_cons_self)
      exact (FleetJobBoard.perform_move sound.board known).flagged sound.board flagged

theorem run_flagged (sound : platform.Sound) (flagged : platform.board.Flagged) (events : List FleetJobEvent) :
    (run (step deps) platform events).board.Flagged := by
  induction events generalizing platform with
  | nil => exact flagged
  | cons event rest ih => exact ih (step_sound sound event) (step_flagged sound flagged event)

theorem step_noLimbo (sound : platform.Sound) (clear : platform.board.NoLimbo) (event : FleetJobEvent) :
    (platform.step deps event).board.NoLimbo ↔ platform.RequeuesUnflagged event := by
  cases event with
  | enqueue job now =>
    refine iff_of_true (fun id row there queued => ?_) trivial
    rcases FleetJobBoard.create_cases there with old | ⟨-, -, -, -, -, unflagged⟩
    · exact clear id row old queued
    · exact unflagged
  | begin id call =>
    refine iff_of_true ?_ trivial
    dsimp only [step]
    split <;> exact clear
  | advance call env =>
    cases calls : platform.calls call with
    | nil =>
      refine iff_of_true ?_ fun task head => by simp [calls] at head
      simpa only [step, calls] using clear
    | cons task rest =>
      have known : task.Sound := sound.tasks call task (calls ▸ mem_cons_self)
      have move : platform.board.Move _ (platform.board.perform deps env task).1 :=
        FleetJobBoard.perform_move sound.board known
      simp only [RequeuesUnflagged, step, calls, head?_cons, Option.some.injEq, forall_eq']
      exact move.noLimbo_iff clear

theorem step_clear (clear : platform.Clear) (event : FleetJobEvent) :
    (platform.step deps event).Clear ↔ platform.RequeuesUnflagged event := by
  have exact_ : (platform.step deps event).board.NoLimbo ↔ platform.RequeuesUnflagged event :=
    step_noLimbo clear.sound clear.noLimbo event
  refine ⟨fun after => exact_.mp after.noLimbo, fun unflagged => ?_⟩
  exact ⟨step_sound clear.sound event, step_flagged clear.sound clear.flagged event, exact_.mpr unflagged⟩

theorem start_clear : Clear {} where
  sound := start_sound
  flagged := by simp [FleetJobBoard.Flagged]
  noLimbo := by simp [FleetJobBoard.NoLimbo]

end FleetJobPlatform

open FleetJobPlatform

/-- Along every interleaving, no job waits in the queue with a cancellation on it, and every job `cancel` answered
for is settled or flagged under a claim, exactly if no update of the run puts a flagged row back in the queue. -/
theorem cancelled_never_in_limbo (deps : FleetJobDeps) (events : List FleetJobEvent) :
    (∀ first, first <+: events →
      (run (step deps) {} first).board.NoLimbo ∧ (run (step deps) {} first).board.CancelsSettle) ↔
    Along (step deps) RequeuesUnflagged {} events := by
  have steps : ∀ (platform : FleetJobPlatform) (event : FleetJobEvent), platform.Clear →
      ((platform.step deps event).Clear ↔ platform.RequeuesUnflagged event) :=
    fun _ event clear => step_clear clear event
  rw [← initial_iff_along steps start_clear]
  constructor
  · intro all first isPre
    have flagged : (run (step deps) {} first).board.Flagged :=
      run_flagged start_sound start_clear.flagged first
    exact ⟨run_sound start_sound first, flagged, (all first isPre).1⟩
  · intro all first isPre
    have clear := all first isPre
    exact ⟨clear.noLimbo, clear.flagged.settle clear.noLimbo⟩

def noDeps : FleetJobDeps where
  getQueuedMaxAgeSeconds _ := 0
  readModelUsageLimit _ _ := none
  jsonBytes _ := 0

def laptop : AuthenticatedFleetNode := ⟨"laptop", "owner", [], []⟩

def drainedAfterCancel : List FleetJobEvent :=
  [.enqueue ⟨"job", "owner", .agentTask, none, none, .queued, none, [], none, 0, 3, 0, none, none, none, none,
      none, none, none, 0⟩ 0,
    .begin 0 (.lease laptop {})] ++
  replicate 15 (.advance 0 { found := ["job"] }) ++
  [.begin 1 (.cancel "job"), .advance 1 {}, .advance 1 {},
    .begin 2 (.releaseClaimsForNode "owner" "laptop"), .advance 2 {}]

theorem cancelled_job_in_limbo :
    ¬∀ first, first <+: drainedAfterCancel →
      (run (step noDeps) {} first).board.NoLimbo ∧ (run (step noDeps) {} first).board.CancelsSettle := by
  intro all
  have clear := (all drainedAfterCancel (prefix_refl _)).1
  have row : ((run (step noDeps) {} drainedAfterCancel).board.jobs "job").map
      (fun job => (job.status, job.cancelRequestedAt)) = some (.queued, some 0) := by decide
  obtain ⟨job, here, both⟩ := Option.map_eq_some_iff.mp row
  obtain ⟨queued, flag⟩ := Prod.mk.inj both
  rw [clear "job" job here queued] at flag
  cases flag

end EverWorks.Fleet
