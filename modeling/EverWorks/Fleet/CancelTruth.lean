import EverWorks.Fleet.CancelLimbo

/-!
A `cancel` call reads the row, tries one conditional update and reads again where that missed. The flagging of a
claimed job also misses a job that went back to the queue.
-/

namespace EverWorks.Fleet
open Lib List Option FleetJobBoard

namespace FleetJobBoard

variable {deps : FleetJobDeps} {board after : FleetJobBoard} {env : FleetJobEnv} {hit : String → Prop}

/-- What a `cancel` call returns at a task, where it returns there. -/
def cancelAnswer (board : FleetJobBoard) : FleetJobTask → Option CancelFleetJobOutcome
  | .cancel jobId =>
    match board.jobs jobId with
    | none => some ⟨false, .notFound⟩
    | some job =>
      if job.isTerminal then some ⟨false, .terminal⟩
      else if job.status = .queued then none
      else if job.cancelRequestedAt.isSome then some ⟨true, .cancelRequested⟩ else none
  | .cancelQueued job now =>
    if (board.jobs.cancelQueued job.id fleetJobCancelledError now).isSome then some ⟨true, .queuedDropped⟩
    else none
  | .cancelClaimed jobId _ =>
    match board.jobs jobId with
    | none => some ⟨false, .terminal⟩
    | some fresh =>
      if fresh.isTerminal then some ⟨false, .terminal⟩
      else if fresh.cancelRequestedAt.isSome then some ⟨true, .cancelRequested⟩ else none
  | .requestCancel job now =>
    if (board.jobs.requestCancel job.id now).isSome then some ⟨true, .cancelRequested⟩ else none
  | .readCancelled jobId =>
    match board.jobs jobId with
    | some fresh => if fresh.cancelRequestedAt.isSome then some ⟨true, .cancelRequested⟩ else some ⟨false, .terminal⟩
    | none => some ⟨false, .terminal⟩
  | _ => none

def closed (board : FleetJobBoard) (id : String) : Bool := (board.jobs id).all FleetJob.isTerminal

def marked (board : FleetJobBoard) (id : String) : Bool :=
  (board.jobs id).any fun job => job.cancelRequestedAt.isSome

def Stopped (board : FleetJobBoard) (id : String) : Prop :=
  ∃ job, board.jobs id = some job ∧ (job.isTerminal = true ∨ job.cancelRequestedAt.isSome)

theorem marked_iff {id : String} :
    board.marked id = true ↔ ∃ job, board.jobs id = some job ∧ job.cancelRequestedAt.isSome = true := by
  simp [marked, Option.any_eq_true]

theorem Move.marked (sound : board.Sound) (move : board.Move hit after) {id : String}
    (flag : board.marked id = true) : after.marked id = true := by
  obtain ⟨old, row, flagged⟩ := marked_iff.mp flag
  obtain ⟨new, _, there, rowMove, -⟩ := move.at sound.keyed row
  exact marked_iff.mpr ⟨new, there, rowMove.spec.2.2 flagged⟩

theorem Move.stopped (sound : board.Sound) (move : board.Move hit after) {id : String}
    (stopped : board.Stopped id) : after.Stopped id := by
  obtain ⟨old, row, closed | flagged⟩ := stopped
  · exact ⟨old, move.terminal row closed, Or.inl closed⟩
  · obtain ⟨new, _, there, rowMove, -⟩ := move.at sound.keyed row
    exact ⟨new, there, Or.inr (rowMove.spec.2.2 flagged)⟩

theorem Move.handed_stopped (move : board.Move hit after) {id : String} (stopped : board.Stopped id) :
    ∃ added, after.handed = board.handed ++ added ∧ ∀ view ∈ added, view.id ≠ id := by
  have quiet : ∃ added, board.handed = board.handed ++ added ∧ ∀ view ∈ added, view.id ≠ id :=
    ⟨[], (append_nil _).symm, by simp⟩
  cases move with
  | @claim key old _ view row queued unflagged _ _ _ named =>
    refine ⟨[view], rfl, fun other member => ?_⟩
    obtain rfl := mem_singleton.mp member
    rw [named]
    rintro rfl
    obtain ⟨job, here, closed | flagged⟩ := stopped
    · obtain rfl := some.inj (row.symm.trans here)
      rw [not_terminal_of_queued queued] at closed
      cases closed
    · obtain rfl := some.inj (row.symm.trans here)
      rw [unflagged] at flagged
      cases flagged
  | _ => exact quiet

end FleetJobBoard

/-- The tasks of a `cancel` call for the job. -/
inductive FleetJobTask.Cancels (id : String) : FleetJobTask → Prop
  | cancel : Cancels id (.cancel id)
  | cancelQueued {job : FleetJob} (now : Nat) (named : job.id = id) : Cancels id (.cancelQueued job now)
  | cancelClaimed (now : Nat) : Cancels id (.cancelClaimed id now)
  | requestCancel {job : FleetJob} (now : Nat) (named : job.id = id) : Cancels id (.requestCancel job now)
  | readCancelled : Cancels id (.readCancelled id)

namespace FleetJobBoard

variable {deps : FleetJobDeps} {board after : FleetJobBoard} {env : FleetJobEnv} {id : String}
  {task next : FleetJobTask}

theorem answered_marks {jobId : String} {state : CancelFleetJobState} :
    jobId ∈ (board.answered jobId ⟨true, state⟩).cancelled := by
  simp [answered]

theorem requestCancelOnActive_marks {job : FleetJob} {now : Nat} (flagged : job.cancelRequestedAt.isSome = true) :
    job.id ∈ (board.requestCancelOnActive job now).1.cancelled := by
  simp only [requestCancelOnActive, flagged, if_true]
  exact answered_marks

theorem perform_cancelled (keyed : ∀ id job, board.jobs id = some job → job.id = id) (cancels : task.Cancels id)
    {outcome : CancelFleetJobOutcome} (answer : board.cancelAnswer task = some outcome)
    (cancelled : outcome.cancelled = true) : id ∈ (board.perform deps env task).1.cancelled := by
  cases cancels with
  | cancel =>
    cases row : board.jobs id with
    | none =>
      simp only [cancelAnswer, row, some.injEq] at answer
      rw [← answer] at cancelled
      cases cancelled
    | some job =>
      have named : job.id = id := keyed id job row
      by_cases terminal : job.isTerminal = true
      · simp only [cancelAnswer, row, terminal, if_true, some.injEq] at answer
        rw [← answer] at cancelled
        cases cancelled
      by_cases queued : job.status = .queued
      · simp [cancelAnswer, row, terminal, queued] at answer
      by_cases flagged : job.cancelRequestedAt.isSome = true
      · simp only [perform, row, if_neg terminal, if_neg queued]
        exact named ▸ requestCancelOnActive_marks flagged
      · simp [cancelAnswer, row, terminal, queued, flagged] at answer
  | @cancelQueued job now named =>
    cases dropped : board.jobs.cancelQueued job.id fleetJobCancelledError now with
    | none => simp [cancelAnswer, dropped] at answer
    | some jobs =>
      simp only [perform, dropped]
      exact named ▸ answered_marks
  | cancelClaimed now =>
    cases row : board.jobs id with
    | none =>
      simp only [cancelAnswer, row, some.injEq] at answer
      rw [← answer] at cancelled
      cases cancelled
    | some fresh =>
      by_cases terminal : fresh.isTerminal = true
      · simp only [cancelAnswer, row, terminal, if_true, some.injEq] at answer
        rw [← answer] at cancelled
        cases cancelled
      by_cases flagged : fresh.cancelRequestedAt.isSome = true
      · simp only [perform, row, if_neg terminal]
        exact keyed id fresh row ▸ requestCancelOnActive_marks flagged
      · simp [cancelAnswer, row, terminal, flagged] at answer
  | @requestCancel job now named =>
    cases flagged : board.jobs.requestCancel job.id now with
    | none => simp [cancelAnswer, flagged] at answer
    | some jobs =>
      simp only [perform, flagged]
      exact named ▸ answered_marks
  | readCancelled =>
    cases row : board.jobs id with
    | none =>
      simp only [cancelAnswer, row, some.injEq] at answer
      rw [← answer] at cancelled
      cases cancelled
    | some fresh =>
      by_cases flagged : fresh.cancelRequestedAt.isSome = true
      · simp only [perform, row, flagged, if_true]
        exact answered_marks
      · simp only [cancelAnswer, row, if_neg flagged, some.injEq] at answer
        rw [← answer] at cancelled
        cases cancelled

theorem cancelAnswer_otherwise (cancels : task.Cancels id) {outcome : CancelFleetJobOutcome}
    (answer : board.cancelAnswer task = some outcome)
    (state : outcome.state = .terminal ∨ outcome.state = .notFound) :
    board.closed id = true ∨ task = .readCancelled id ∧ board.marked id = false := by
  cases cancels with
  | cancel =>
    left
    cases row : board.jobs id with
    | none => simp [closed, row]
    | some job =>
      by_cases terminal : job.isTerminal = true
      · simp [closed, row, terminal]
      by_cases queued : job.status = .queued
      · simp [cancelAnswer, row, terminal, queued] at answer
      by_cases flagged : job.cancelRequestedAt.isSome = true
      · simp only [cancelAnswer, row, if_neg terminal, if_neg queued, if_pos flagged, some.injEq] at answer
        subst answer
        rcases state with state | state <;> cases state
      · simp [cancelAnswer, row, terminal, queued, flagged] at answer
  | @cancelQueued job now =>
    cases dropped : board.jobs.cancelQueued job.id fleetJobCancelledError now with
    | none => simp [cancelAnswer, dropped] at answer
    | some jobs =>
      simp only [cancelAnswer, dropped, isSome_some, if_true, some.injEq] at answer
      subst answer
      rcases state with state | state <;> cases state
  | cancelClaimed now =>
    left
    cases row : board.jobs id with
    | none => simp [closed, row]
    | some fresh =>
      by_cases terminal : fresh.isTerminal = true
      · simp [closed, row, terminal]
      by_cases flagged : fresh.cancelRequestedAt.isSome = true
      · simp only [cancelAnswer, row, if_neg terminal, if_pos flagged, some.injEq] at answer
        subst answer
        rcases state with state | state <;> cases state
      · simp [cancelAnswer, row, terminal, flagged] at answer
  | @requestCancel job now =>
    cases flagged : board.jobs.requestCancel job.id now with
    | none => simp [cancelAnswer, flagged] at answer
    | some jobs =>
      simp only [cancelAnswer, flagged, isSome_some, if_true, some.injEq] at answer
      subst answer
      rcases state with state | state <;> cases state
  | readCancelled =>
    cases row : board.jobs id with
    | none => simp [closed, row]
    | some fresh =>
      by_cases flagged : fresh.cancelRequestedAt.isSome = true
      · simp only [cancelAnswer, row, if_pos flagged, some.injEq] at answer
        subst answer
        rcases state with state | state <;> cases state
      · exact Or.inr ⟨rfl, by simp [marked, row, flagged]⟩

theorem perform_cancels (keyed : ∀ id job, board.jobs id = some job → job.id = id) (cancels : task.Cancels id)
    (more : (board.perform deps env task).2 ≠ []) :
    ∃ next, (board.perform deps env task).2 = [next] ∧ next.Cancels id ∧
      (next = .readCancelled id → (board.perform deps env task).1 = board ∧
        ∃ job now, task = .requestCancel job now ∧ job.id = id ∧ board.jobs.requestCancel id now = none) := by
  cases cancels with
  | cancel =>
    cases row : board.jobs id with
    | none => simp [perform, row] at more
    | some job =>
      have named : job.id = id := keyed id job row
      by_cases terminal : job.isTerminal = true
      · simp [perform, row, terminal] at more
      by_cases queued : job.status = .queued
      · simp only [perform, row, if_neg terminal, if_pos queued]
        exact ⟨_, rfl, .cancelQueued _ named, by simp⟩
      by_cases flagged : job.cancelRequestedAt.isSome = true
      · simp [perform, row, terminal, queued, requestCancelOnActive, flagged] at more
      · simp only [perform, row, if_neg terminal, if_neg queued, requestCancelOnActive, if_neg flagged]
        exact ⟨_, rfl, .requestCancel _ named, by simp⟩
  | @cancelQueued job now named =>
    subst named
    cases dropped : board.jobs.cancelQueued job.id fleetJobCancelledError now with
    | some jobs => simp [perform, dropped] at more
    | none =>
      simp only [perform, dropped]
      exact ⟨_, rfl, .cancelClaimed now, by simp⟩
  | cancelClaimed now =>
    cases row : board.jobs id with
    | none => simp [perform, row] at more
    | some fresh =>
      by_cases terminal : fresh.isTerminal = true
      · simp [perform, row, terminal] at more
      by_cases flagged : fresh.cancelRequestedAt.isSome = true
      · simp [perform, row, terminal, requestCancelOnActive, flagged] at more
      · simp only [perform, row, if_neg terminal, requestCancelOnActive, if_neg flagged]
        exact ⟨_, rfl, .requestCancel _ (keyed id fresh row), by simp⟩
  | @requestCancel job now named =>
    cases flagged : board.jobs.requestCancel job.id now with
    | some jobs => simp [perform, flagged] at more
    | none =>
      simp only [perform, flagged]
      refine ⟨_, rfl, named ▸ .readCancelled, fun _ => ⟨trivial, job, now, rfl, named, named ▸ flagged⟩⟩
  | readCancelled =>
    refine absurd ?_ more
    simp only [perform]
    split
    · split <;> rfl
    · rfl

theorem requestCancel_missed {now : Nat} (missed : board.jobs.requestCancel id now = none)
    (reach : ∀ row, board.jobs id = some row → row.status = .queued → row.cancelRequestedAt.isSome = true) :
    board.closed id = true ∨ board.marked id = true := by
  cases row : board.jobs id with
  | none => simp [closed, row]
  | some job =>
    have missed := FleetJobs.updateWhere_none.mp missed job row
    simp only [Bool.and_eq_false_iff, isNone_eq_false_iff] at missed
    rcases missed with inactive | flagged
    · cases status : job.status with
      | queued => exact Or.inr (marked_iff.mpr ⟨job, row, reach job row status⟩)
      | leased | running => simp [isActive_iff.mpr, status] at inactive
      | done | failed => exact Or.inl (by simp [closed, row, isTerminal_iff.mpr, status])
    · exact Or.inr (marked_iff.mpr ⟨job, row, flagged⟩)

end FleetJobBoard

/-! ## Runs -/

namespace FleetJobPlatform

variable {deps : FleetJobDeps} {platform : FleetJobPlatform} {id : String}

/-- What the `cancel` call answers at its next task. -/
def answer (platform : FleetJobPlatform) (call : Nat) : Option CancelFleetJobOutcome :=
  (platform.calls call).head?.bind platform.board.cancelAnswer

def flagsReach (platform : FleetJobPlatform) : FleetJobEvent → Bool
  | .advance call _ =>
    match (platform.calls call).head? with
    | some (.requestCancel job _) =>
      (platform.board.jobs job.id).all fun row => row.status ≠ .queued || row.cancelRequestedAt.isSome
    | _ => true
  | _ => true

theorem step_marked (sound : platform.Sound) (event : FleetJobEvent)
    (flag : platform.board.marked id = true) : (platform.step deps event).board.marked id = true := by
  cases event with
  | enqueue job now =>
    obtain ⟨row, here, flagged⟩ := marked_iff.mp flag
    exact marked_iff.mpr ⟨row, create_of_some here job now, flagged⟩
  | begin call input =>
    dsimp only [step]
    split <;> exact flag
  | advance call env =>
    dsimp only [step]
    split
    · exact flag
    · next task rest calls =>
      have known : task.Sound := sound.tasks call task (calls ▸ mem_cons_self)
      exact (perform_move sound.board known).marked sound.board flag

theorem step_stopped (sound : platform.Sound) (event : FleetJobEvent) (stopped : platform.board.Stopped id) :
    (platform.step deps event).board.Stopped id ∧
      ∃ added, (platform.step deps event).board.handed = platform.board.handed ++ added ∧
        ∀ view ∈ added, view.id ≠ id := by
  have quiet : ∃ added, platform.board.handed = platform.board.handed ++ added ∧
      ∀ view ∈ added, view.id ≠ id := ⟨[], (append_nil _).symm, by simp⟩
  cases event with
  | enqueue job now =>
    obtain ⟨row, here, settled⟩ := stopped
    exact ⟨⟨row, create_of_some here job now, settled⟩, quiet⟩
  | begin call input =>
    dsimp only [step]
    split <;> exact ⟨stopped, quiet⟩
  | advance call env =>
    dsimp only [step]
    split
    · exact ⟨stopped, quiet⟩
    · next task rest calls =>
      have known : task.Sound := sound.tasks call task (calls ▸ mem_cons_self)
      have move : platform.board.Move _ (platform.board.perform deps env task).1 :=
        perform_move sound.board known
      exact ⟨move.stopped sound.board stopped, move.handed_stopped stopped⟩

theorem run_stopped (sound : platform.Sound) (events : List FleetJobEvent) (stopped : platform.board.Stopped id) :
    ∃ added, (run (step deps) platform events).board.handed = platform.board.handed ++ added ∧
      ∀ view ∈ added, view.id ≠ id := by
  induction events generalizing platform with
  | nil => exact ⟨[], (append_nil _).symm, by simp⟩
  | cons event rest ih =>
    have next : (platform.step deps event).board.Stopped id ∧
        ∃ added, (platform.step deps event).board.handed = platform.board.handed ++ added ∧
          ∀ view ∈ added, view.id ≠ id := step_stopped sound event stopped
    obtain ⟨still, here, first, apart⟩ := next
    obtain ⟨later, handed, apart'⟩ := ih (step_sound sound event) still
    refine ⟨here ++ later, ?_, fun view member => ?_⟩
    · rw [run_cons, handed, first, append_assoc]
    · rcases mem_append.mp member with inside | inside
      · exact apart view inside
      · exact apart' view inside

/-- The call is a `cancel` of the job that has not answered, and reads the row for the last time only where the
job was seen closed or is flagged. -/
def Cancelling (platform : FleetJobPlatform) (call : Nat) (id : String) (seen : Prop) : Prop :=
  ∃ task, platform.calls call = [task] ∧ task.Cancels id ∧
    (task = .readCancelled id → seen ∨ platform.board.marked id = true)

theorem step_cancelling (sound : platform.Sound) {call : Nat} {seen : Prop} (event : FleetJobEvent)
    (reach : platform.flagsReach event = true) (cancelling : platform.Cancelling call id seen)
    (more : (platform.step deps event).calls call ≠ []) :
    (platform.step deps event).Cancelling call id (seen ∨ platform.board.closed id = true) := by
  obtain ⟨task, calls, cancels, read⟩ := cancelling
  have others : (platform.step deps event).calls call = platform.calls call →
      (platform.step deps event).Cancelling call id (seen ∨ platform.board.closed id = true) := by
    intro same
    refine ⟨task, same.trans calls, cancels, fun last => ?_⟩
    rcases read last with before | flag
    · exact Or.inl (Or.inl before)
    · exact Or.inr (step_marked sound event flag)
  cases event with
  | enqueue job now => exact others rfl
  | begin other input =>
    refine others ?_
    dsimp only [step]
    split
    · next idle =>
      have apart : call ≠ other := by
        rintro rfl
        simp [calls] at idle
      exact Function.update_of_ne apart ..
    · rfl
  | advance other env =>
    by_cases mine : call = other
    · subst mine
      have head : (platform.calls call).head? = some task := by rw [calls]; rfl
      have stepped : platform.step deps (.advance call env) =
          ⟨(platform.board.perform deps env task).1,
            Function.update platform.calls call ((platform.board.perform deps env task).2 ++ [])⟩ := by
        simp only [step, calls]
      rw [stepped] at more ⊢
      simp only [Function.update_self, append_nil] at more ⊢
      obtain ⟨next, onward, still, last⟩ := perform_cancels sound.board.keyed cancels more
      refine ⟨next, by simp [onward], still, fun reads => ?_⟩
      obtain ⟨same, job, now, rfl, named, missed⟩ := last reads
      have waits : ∀ row, platform.board.jobs id = some row → row.status = .queued →
          row.cancelRequestedAt.isSome = true := by
        intro row here queued
        simpa [flagsReach, head, named, here, queued] using reach
      rcases requestCancel_missed missed waits with closed | flag
      · exact Or.inl (Or.inr closed)
      · exact Or.inr ((congrArg (·.marked id) same).trans flag)
    · refine others ?_
      dsimp only [step]
      split
      · rfl
      · exact Function.update_of_ne mine ..

end FleetJobPlatform

open FleetJobPlatform

/-- A `cancel` call of a run: it begins after `before`, and answers after `during` more events. -/
structure CancelRun (deps : FleetJobDeps) (before during : List FleetJobEvent) (call : Nat) (id : String)
    (outcome : CancelFleetJobOutcome) : Prop where
  idle : (run (step deps) {} before).calls call = []
  runs : ∀ part, part <+: during →
    (run (step deps) {} (before ++ .begin call (.cancel id) :: part)).calls call ≠ []
  answers : (run (step deps) {} (before ++ .begin call (.cancel id) :: during)).answer call = some outcome

/-- Every `cancel` call of the run tells the truth: the job it calls settled or missing was so at a moment of the
call, and the job it calls cancelled is handed to no poll after the answer. -/
def CancelsTruthful (deps : FleetJobDeps) (events : List FleetJobEvent) : Prop :=
  ∀ before call id during env later outcome,
    events = (before ++ .begin call (.cancel id) :: during) ++ .advance call env :: later →
    CancelRun deps before during call id outcome →
    (outcome.state = .terminal ∨ outcome.state = .notFound → ∃ part, part <+: during ∧
      (run (step deps) {} (before ++ .begin call (.cancel id) :: part)).board.closed id = true) ∧
    (outcome.cancelled = true →
      ∀ view ∈ (run (step deps) {} events).board.handed.drop (run (step deps) {}
        ((before ++ .begin call (.cancel id) :: during) ++ [.advance call env])).board.handed.length,
        view.id ≠ id)

section

variable {deps : FleetJobDeps} {before during : List FleetJobEvent} {call : Nat} {id : String}
  {outcome : CancelFleetJobOutcome}

theorem CancelRun.cancelling (cancel : CancelRun deps before during call id outcome)
    (along : Along (step deps) (fun platform event => platform.flagsReach event) {} (before ++ .begin call (.cancel id) :: during))
    (part : List FleetJobEvent) (isPre : part <+: during) :
    (run (step deps) {} (before ++ .begin call (.cancel id) :: part)).Cancelling call id
      (∃ first, first <+: part ∧
        (run (step deps) {} (before ++ .begin call (.cancel id) :: first)).board.closed id = true) := by
  induction part using List.reverseRecOn with
  | nil =>
    refine ⟨.cancel id, ?_, .cancel, by simp⟩
    rw [run_append, run_cons, run_nil]
    simp [step, cancel.idle, FleetJobCall.tasks]
  | append_singleton part event ih =>
    have shorter : part <+: during := (prefix_append part [event]).trans isPre
    have sound : (run (step deps) {} (before ++ .begin call (.cancel id) :: part)).Sound :=
      run_sound start_sound _
    have split : before ++ .begin call (.cancel id) :: (part ++ [event]) =
        (before ++ .begin call (.cancel id) :: part) ++ [event] := by simp
    have reach : (run (step deps) {} (before ++ .begin call (.cancel id) :: part)).flagsReach event = true := by
      obtain ⟨rest, rfl⟩ := isPre
      refine along_iff_split.mp along (before ++ .begin call (.cancel id) :: part) event rest ?_
      simp
    have more := cancel.runs _ isPre
    rw [split, run_append, run_cons, run_nil] at more ⊢
    obtain ⟨task, calls, cancels, read⟩ := step_cancelling sound event reach (ih shorter) more
    refine ⟨task, calls, cancels, fun last => ?_⟩
    rcases read last with (⟨first, isFirst, closed⟩ | closed) | flag
    · exact Or.inl ⟨first, isFirst.trans (prefix_append part [event]), closed⟩
    · exact Or.inl ⟨part, prefix_append part [event], closed⟩
    · exact Or.inr flag

theorem CancelRun.stopped (cancel : CancelRun deps before during call id outcome)
    (along : Along (step deps) (fun platform event => platform.flagsReach event) {} (before ++ .begin call (.cancel id) :: during))
    (cancelled : outcome.cancelled = true) (env : FleetJobEnv) :
    (run (step deps) {} ((before ++ .begin call (.cancel id) :: during) ++ [.advance call env])).board.Stopped
      id := by
  obtain ⟨task, calls, cancels, -⟩ := cancel.cancelling along during (prefix_refl _)
  have sound : (run (step deps) {} (before ++ .begin call (.cancel id) :: during)).Sound :=
    run_sound start_sound _
  have answer := cancel.answers
  simp only [FleetJobPlatform.answer, calls, head?_cons, bind_some] at answer
  have noted : id ∈ (run (step deps) {}
      ((before ++ .begin call (.cancel id) :: during) ++ [.advance call env])).board.cancelled := by
    rw [run_append, run_cons, run_nil]
    simp only [step, calls]
    exact perform_cancelled sound.board.keyed cancels answer cancelled
  exact run_flagged start_sound start_clear.flagged _ id noted

end

/-- Along every interleaving in which no job waits unflagged in the queue when a `cancel` call writes its flag,
every `cancel` call tells the truth. -/
theorem cancel_tells_truth (deps : FleetJobDeps) (events : List FleetJobEvent)
    (reach : Along (step deps) (fun platform event => platform.flagsReach event) {} events) : CancelsTruthful deps events := by
  rintro before call id during env later outcome rfl cancel
  have along : Along (step deps) (fun platform event => platform.flagsReach event) {} (before ++ .begin call (.cancel id) :: during) :=
    along_initial (prefix_append _ _) reach
  constructor
  · intro state
    obtain ⟨task, calls, cancels, read⟩ := cancel.cancelling along during (prefix_refl _)
    have answer := cancel.answers
    simp only [FleetJobPlatform.answer, calls, head?_cons, bind_some] at answer
    rcases cancelAnswer_otherwise cancels answer state with closed | ⟨last, unmarked⟩
    · exact ⟨during, prefix_refl _, closed⟩
    · rcases read last with seen | flag
      · exact seen
      · rw [unmarked] at flag
        cases flag
  · intro cancelled view member
    have whole : (before ++ .begin call (.cancel id) :: during) ++ .advance call env :: later =
        ((before ++ .begin call (.cancel id) :: during) ++ [.advance call env]) ++ later := by simp
    rw [whole, run_append _ _ (_ ++ [_]) later] at member
    have stopped := cancel.stopped along cancelled env
    have sound : (run (step deps) {}
        ((before ++ .begin call (.cancel id) :: during) ++ [.advance call env])).Sound := run_sound start_sound _
    generalize run (step deps) {} ((before ++ .begin call (.cancel id) :: during) ++ [.advance call env]) =
      answered at member stopped sound
    obtain ⟨added, handed, apart⟩ : ∃ added, (run (step deps) answered later).board.handed =
        answered.board.handed ++ added ∧ ∀ view ∈ added, view.id ≠ id := run_stopped sound later stopped
    rw [handed, drop_left] at member
    exact apart view member

/-- The laptop takes the job, and the operator's `cancel` reads the row. -/
def cancelBegun : List FleetJobEvent :=
  [.enqueue ⟨"job", "owner", .agentTask, none, none, .queued, none, [], none, 0, 3, 0, none, none, none, none,
      none, none, none, 0⟩ 0,
    .begin 0 (.lease laptop {})] ++
  List.replicate 15 (.advance 0 { found := ["job"] })

theorem flagged_cancel_tells_truth :
    CancelsTruthful noDeps (cancelBegun ++ [.begin 1 (.cancel "job"), .advance 1 {}, .advance 1 {}]) := by
  refine cancel_tells_truth noDeps _ ?_
  decide

def drainedDuringCancel : List FleetJobEvent :=
  [.advance 1 {}, .begin 2 (.releaseClaimsForNode "owner" "laptop"), .advance 2 {}, .advance 1 {}]

theorem requeued_job_called_terminal :
    ¬CancelsTruthful noDeps
      ((cancelBegun ++ .begin 1 (.cancel "job") :: drainedDuringCancel) ++ [.advance 1 {}]) := by
  intro truthful
  have busy : ∀ part ∈ drainedDuringCancel.inits,
      ((run (step noDeps) {} (cancelBegun ++ .begin 1 (.cancel "job") :: part)).calls 1).isEmpty = false := by
    decide
  have opened : ∀ part ∈ drainedDuringCancel.inits,
      (run (step noDeps) {} (cancelBegun ++ .begin 1 (.cancel "job") :: part)).board.closed "job" = false := by
    decide
  have cancel : CancelRun noDeps cancelBegun drainedDuringCancel 1 "job" ⟨false, .terminal⟩ := by
    refine ⟨List.isEmpty_iff.mp (by decide), fun part isPre => ?_, by decide⟩
    exact isEmpty_eq_false_iff.mp (busy part ((mem_inits ..).mpr isPre))
  obtain ⟨part, isPre, closed⟩ := (truthful _ 1 "job" _ {} [] _ rfl cancel).1 (Or.inl rfl)
  rw [opened part ((mem_inits ..).mpr isPre)] at closed
  cases closed

end EverWorks.Fleet
