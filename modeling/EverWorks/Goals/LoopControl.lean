import EverWorks.Goals.Loop
import EverWorks.Lib.Guarantee

/-!
# The controls of a Goal's loop

What holds of a Goal whose loop an operator pauses, cancels or archives beside ticks and advances, in every order of
the single reads and saves in which none is made on a copy that is out of date.
-/

namespace EverWorks.Goals
open Lib Lib.Program List Option

/-- A save of the loop's status finds the one its copy was read with, and so does, where `strict`, the save of a
dispatch. Of the runs that were in flight when a cancel was called, no more are in flight when it looks for them than
the one it finds first. -/
def InOrder (strict : Bool) (state : LoopState) : LoopCall → Prop
  | .save copy (.terminal _ _ _ _) | .save copy .paused | .save copy (.archived _ _) =>
    state.goal.loopStatus = copy.goal.loopStatus
  | .save copy (.dispatched _ _) => strict = true → state.goal.loopStatus = copy.goal.loopStatus
  | .findRuns taskIds inFlight => ∀ run ∈ state.runs, run.id ∈ inFlight → run.isActive = true →
    (runsOf state taskIds).find? (·.isActive) = some run
  | _ => True

instance (strict : Bool) (state : LoopState) : (request : LoopCall) → Decidable (InOrder strict state request)
  | .save copy (.terminal _ _ _ _) | .save copy .paused | .save copy (.archived _ _) =>
    inferInstanceAs (Decidable (state.goal.loopStatus = copy.goal.loopStatus))
  | .save copy (.dispatched _ _) =>
    inferInstanceAs (Decidable (strict = true → state.goal.loopStatus = copy.goal.loopStatus))
  | .findRuns taskIds inFlight => inferInstanceAs (Decidable (∀ run ∈ state.runs, run.id ∈ inFlight →
    run.isActive = true → (runsOf state taskIds).find? (·.isActive) = some run))
  | .save _ (.spent _) | .save _ (.cancelled _) | .findDue | .findGoal | .findGoalToCancel | .findTasks | .findWork
  | .findOpenPullRequests _ | .findRunsInFlight _ | .createTask _ _ | .createRun _ _ | .findRun _ | .cancelRun _
  | .startRun _ _ | .endRun _ _ => isTrue trivial

def Ended (state : LoopState) (runId : Nat) : Prop := ∀ run ∈ state.runs, run.id = runId → run.isActive = false

/-- What the operator's controls are for: what a cancel found in flight has ended, no copy that was read after it has
started anything, and the loop stays as the last control left it. -/
structure LoopKept (strict : Bool) (state : LoopState) : Prop where
  ended : ∀ inFlight ∈ state.returned, ∀ runId ∈ inFlight, Ended state runId
  started : ∀ copy ∈ state.started, copy.afterCancel = false
  cancelled : state.returned ≠ [] →
    state.goal.loopStatus = some .cancelled ∧ (strict = true → state.goal.activeAgentId = none)
  control : ∀ control ∈ state.control,
    state.goal.loopStatus = control.loopStatus ∧ state.goal.archivedAt = control.archivedAt

structure LoopRows (state : LoopState) : Prop where
  numbered : ∀ run ∈ state.runs, run.id < state.next
  distinct : (state.runs.map (·.id)).Nodup
  filed : state.runs ≠ [] → state.tasks ≠ []

structure LoopSound (strict : Bool) (state : LoopState) : Prop extends LoopKept strict state, LoopRows state where
  returned : ∀ inFlight ∈ state.returned, ∀ runId ∈ inFlight, runId < state.next
  stopped : ∀ control ∈ state.control, control.loopStatus ≠ some .running

structure Later (before after : LoopState) : Prop where
  next : before.next ≤ after.next
  ended : ∀ runId < before.next, Ended before runId → Ended after runId
  filed : before.tasks ≠ [] → after.tasks ≠ []

theorem Later.refl (state : LoopState) : Later state state := ⟨le_rfl, fun _ _ => id, id⟩

theorem Later.trans {a b c : LoopState} (first : Later a b) (second : Later b c) : Later a c where
  next := first.next.trans second.next
  ended runId below ended := second.ended runId (lt_of_lt_of_le below first.next) (first.ended runId below ended)
  filed := second.filed ∘ first.filed

def Within (strict : Bool) (before after : LoopState) : Prop :=
  LoopSound strict before → LoopSound strict after ∧ Later before after

theorem Within.refl (strict : Bool) (state : LoopState) : Within strict state state := fun sound => ⟨sound, .refl state⟩

theorem Within.trans {strict : Bool} {a b c : LoopState} (first : Within strict a b) (second : Within strict b c) :
    Within strict a c := by
  intro sound
  obtain ⟨sound, one⟩ := first sound
  obtain ⟨sound, two⟩ := second sound
  exact ⟨sound, one.trans two⟩

/-! ## What each call keeps -/

section
variable {strict : Bool} {state : LoopState}

variable {runId : Nat}

theorem ended_of_runs {before after : LoopState} (ended : Ended before runId)
    (from' : ∀ run ∈ after.runs, run.isActive = true → ∃ old ∈ before.runs, old.id = run.id ∧ old.isActive = true) :
    Ended after runId := by
  rintro run listed rfl
  by_contra active
  obtain ⟨old, there, same, wasActive⟩ := from' run listed (eq_true_of_ne_false active)
  rw [ended old there same] at wasActive
  cases wasActive

structure Settles (change : AgentRun → AgentRun) : Prop where
  id : ∀ run, (change run).id = run.id
  active : ∀ run, (change run).isActive = true → run.isActive = true

variable {change : AgentRun → AgentRun}

theorem changeRun_active (settles : Settles change) {run : AgentRun}
    (listed : run ∈ (changeRun runId change state).runs) :
    ∃ old ∈ state.runs, old.id = run.id ∧ (run.isActive = true → old.isActive = true) := by
  obtain ⟨old, there, rfl⟩ := mem_map.mp listed
  refine ⟨old, there, ?_⟩
  split
  · exact ⟨(settles.id old).symm, settles.active old⟩
  · exact ⟨rfl, fun active => active⟩

theorem changeRun_ids (settles : Settles change) :
    (changeRun runId change state).runs.map (·.id) = state.runs.map (·.id) := by
  rw [changeRun, List.map_map]
  refine map_congr_left fun run _ => ?_
  rw [Function.comp_apply]
  split
  · exact settles.id run
  · rfl

theorem within_changeRun (settles : Settles change) :
    Within strict state (changeRun runId change state) := by
  intro sound
  have later : ∀ id, Ended state id → Ended (changeRun runId change state) id := fun id ended =>
    ended_of_runs ended fun run listed active => by
      obtain ⟨old, there, same, was⟩ := changeRun_active settles listed
      exact ⟨old, there, same, was active⟩
  refine ⟨{ sound with
    ended := fun inFlight listed id inside => later id (sound.ended inFlight listed id inside)
    numbered := fun run listed => ?_
    distinct := (changeRun_ids settles).symm ▸ sound.distinct
    filed := fun some => sound.filed fun none => some (by rw [changeRun, none]; rfl) }, le_rfl, fun id _ => later id, id⟩
  obtain ⟨old, there, same, _⟩ := changeRun_active settles listed
  exact same ▸ sound.numbered old there

theorem settles_cancel :
    Settles fun run : AgentRun => if run.isActive then { run with status := .cancelled } else run where
  id run := by split <;> rfl
  active run active := by
    split at active
    · cases active
    · assumption

theorem settles_start (startedAt : Int) : Settles fun run : AgentRun =>
    if run.status = .queued then { run with status := .running, startedAt := some startedAt } else run where
  id run := by split <;> rfl
  active run active := by
    split at active
    · rename_i queued
      rw [AgentRun.isActive, queued]
      rfl
    · exact active

theorem settles_end (completed : Bool) : Settles fun run : AgentRun =>
    if run.isActive then { run with status := if completed then .completed else .failed } else run where
  id run := by split <;> rfl
  active run active := by
    split at active
    · cases completed <;> cases active
    · exact active

theorem within_goal {goal : Goal} (status : goal.loopStatus = state.goal.loopStatus)
    (archived : goal.archivedAt = state.goal.archivedAt)
    (agent : strict = true → state.returned ≠ [] → goal.activeAgentId = state.goal.activeAgentId) :
    Within strict state { state with goal } := by
  intro sound
  refine ⟨{ sound with
    cancelled := fun some => ?_
    control := fun control there => ?_ }, le_rfl, fun _ _ => id, id⟩
  · obtain ⟨cancelled, idle⟩ := sound.cancelled some
    exact ⟨status.trans cancelled, fun isStrict => (agent isStrict some).trans (idle isStrict)⟩
  · obtain ⟨same, mark⟩ := sound.control control there
    exact ⟨status.trans same, archived.trans mark⟩

theorem LoopSound.untouched (sound : LoopSound strict state) (running : state.goal.loopStatus = some .running) :
    state.returned = [] ∧ state.control = none := by
  constructor
  · by_contra some
    rw [(sound.cancelled some).1] at running
    cases running
  · cases there : state.control with
    | none => rfl
    | some control =>
      rw [(sound.control control there).1] at running
      exact (sound.stopped control there running).elim

def serveKept (strict : Bool) : (request : LoopCall) → LoopState → LoopReply request × LoopState
  | .save copy write, state =>
    if InOrder strict state (.save copy write) then serveLoop (.save copy write) state else ((), state)
  | .findRuns taskIds inFlight, state =>
    if InOrder strict state (.findRuns taskIds inFlight) then serveLoop (.findRuns taskIds inFlight) state
    else ([], { state with runs := state.runs.map fun run =>
      if run.isActive && run.id ∈ inFlight then { run with status := .cancelled } else run })
  | request, state => serveLoop request state

variable {request : LoopCall}

theorem serve_kept (inOrder : InOrder strict state request) :
    serveKept strict request state = serveLoop request state := by
  cases request with
  | save copy write => exact if_pos inOrder
  | findRuns taskIds inFlight => exact if_pos inOrder
  | _ => rfl

variable {copy : GoalCopy}

theorem within_createTask {slot : DispatchSlot} (before : copy.afterCancel = false) :
    Within strict state (serveKept strict (.createTask copy slot) state).2 := by
  intro sound
  refine ⟨{ sound with
    started := fun one listed => ?_
    numbered := fun run listed => Nat.lt_succ_of_lt (sound.numbered run listed)
    filed := fun _ => by simp [serveKept, serveLoop]
    returned := fun inFlight listed id inside => Nat.lt_succ_of_lt (sound.returned inFlight listed id inside) },
    Nat.le_succ _, fun _ _ => id, fun _ => by simp [serveKept, serveLoop]⟩
  rcases mem_cons.mp listed with rfl | old
  · exact before
  · exact sound.started one old

theorem within_createRun {taskId : Nat} {status : AgentRunStatus} (filed : state.tasks ≠ []) :
    Within strict state (serveKept strict (.createRun taskId status) state).2 := by
  intro sound
  let run : AgentRun := ⟨state.next, taskId, status, none, none⟩
  have later : ∀ id < state.next, Ended state id → Ended (serveKept strict (.createRun taskId status) state).2 id := by
    rintro id below ended run listed rfl
    rcases mem_append.mp listed with old | fresh
    · exact ended run old rfl
    · rw [mem_singleton.mp fresh] at below
      exact absurd below (Nat.lt_irrefl _)
  refine ⟨{ sound with
    ended := fun inFlight listed id inside =>
      later id (sound.returned inFlight listed id inside) (sound.ended inFlight listed id inside)
    numbered := fun one listed => ?_
    distinct := ?_
    filed := fun _ => filed
    returned := fun inFlight listed id inside => Nat.lt_succ_of_lt (sound.returned inFlight listed id inside) },
    Nat.le_succ _, later, id⟩
  · rcases mem_append.mp listed with old | fresh
    · exact Nat.lt_succ_of_lt (sound.numbered one old)
    · rw [mem_singleton.mp fresh]
      exact Nat.lt_succ_self _
  · change ((state.runs ++ [run]).map (·.id)).Nodup
    rw [map_append, nodup_append]
    refine ⟨sound.distinct, nodup_singleton _, fun id listed other fresh same => ?_⟩
    obtain ⟨old, there, rfl⟩ := mem_map.mp listed
    exact absurd (same.trans (mem_singleton.mp fresh)) (Nat.ne_of_lt (sound.numbered old there))

def Fits (state : LoopState) (copy : GoalCopy) : GoalWrite → Prop
  | .spent _ => True
  | .dispatched _ _ | .terminal _ _ _ _ | .paused => copy.goal.loopStatus = some .running
  | .archived _ loopStatus =>
    loopStatus = if copy.goal.loopStatus = some .running then some .paused else copy.goal.loopStatus
  | .cancelled inFlight => ∀ runId ∈ inFlight, runId < state.next ∧ Ended state runId

theorem within_save {write : GoalWrite} (fits : Fits state copy write) :
    Within strict state (serveKept strict (.save copy write) state).2 := by
  by_cases inOrder : InOrder strict state (.save copy write)
  swap
  · rw [serveKept, if_neg inOrder]
    exact .refl strict state
  rw [serveKept, if_pos inOrder]
  cases write with
  | spent cents => exact within_goal rfl rfl fun _ _ => rfl
  | dispatched iteration agentId =>
    intro sound
    refine within_goal rfl rfl (fun isStrict some => ?_) sound
    have running : state.goal.loopStatus = _ := (inOrder isStrict).trans fits
    exact absurd (sound.untouched running).1 some
  | terminal loopStatus status outcome nextCheckAt =>
    intro sound
    obtain ⟨none, free⟩ := sound.untouched (Eq.trans inOrder fits)
    refine ⟨{ sound with
      cancelled := fun some => absurd none some
      control := fun control there => ?_ }, le_rfl, fun _ _ => id, id⟩
    cases free.symm.trans there
  | paused =>
    intro sound
    obtain ⟨none, _⟩ := sound.untouched (Eq.trans inOrder fits)
    refine ⟨{ sound with
      cancelled := fun some => absurd none some
      control := fun control there => ?_
      stopped := fun control there => ?_ }, le_rfl, fun _ _ => id, id⟩
    · obtain rfl := some.inj there
      exact ⟨rfl, rfl⟩
    · obtain rfl := some.inj there
      exact nofun
  | cancelled inFlight =>
    intro sound
    refine ⟨{ sound with
      ended := fun listed there => ?_
      cancelled := fun _ => ⟨rfl, fun _ => rfl⟩
      control := fun control there => ?_
      returned := fun listed there => ?_
      stopped := fun control there => ?_ }, le_rfl, fun _ _ => id, id⟩
    · rcases mem_cons.mp there with rfl | old
      · exact fun id inside => (fits id inside).2
      · exact sound.ended listed old
    · obtain rfl := some.inj there
      exact ⟨rfl, rfl⟩
    · rcases mem_cons.mp there with rfl | old
      · exact fun id inside => (fits id inside).1
      · exact sound.returned listed old
    · obtain rfl := some.inj there
      exact nofun
  | archived archivedAt loopStatus =>
    intro sound
    have same : state.goal.loopStatus = copy.goal.loopStatus := inOrder
    have fits : loopStatus = if copy.goal.loopStatus = some .running then some .paused else copy.goal.loopStatus := fits
    rw [← same] at fits
    refine ⟨{ sound with
      cancelled := fun some => ?_
      control := fun control there => ?_
      stopped := fun control there => ?_ }, le_rfl, fun _ _ => id, id⟩
    · obtain ⟨cancelled, idle⟩ := sound.cancelled some
      rw [cancelled] at fits
      exact ⟨fits, idle⟩
    · obtain rfl := some.inj there
      exact ⟨rfl, rfl⟩
    · obtain rfl := some.inj there
      rw [fits]
      dsimp only
      split
      · exact nofun
      · assumption

theorem within_findRuns {taskIds inFlight : List Nat} :
    Within strict state (serveKept strict (.findRuns taskIds inFlight) state).2 ∧
      ∀ runId ∈ inFlight, (((serveKept strict (.findRuns taskIds inFlight) state).1 : List AgentRun).find?
        (·.isActive)).map (·.id) ≠ some runId → Ended (serveKept strict (.findRuns taskIds inFlight) state).2 runId := by
  by_cases inOrder : InOrder strict state (.findRuns taskIds inFlight)
  · rw [serveKept, if_pos inOrder]
    refine ⟨.refl strict state, fun runId listed other run there same => ?_⟩
    by_contra active
    have first := inOrder run there (same ▸ listed) (eq_true_of_ne_false active)
    refine other ?_
    change ((runsOf state taskIds).find? (·.isActive)).map (·.id) = _
    rw [first, map_some, same]
  · rw [serveKept, if_neg inOrder]
    let change (run : AgentRun) : AgentRun :=
      if run.isActive && run.id ∈ inFlight then { run with status := .cancelled } else run
    have change_id (run : AgentRun) : (change run).id = run.id := by
      dsimp only [change]
      split <;> rfl
    have settled {run : AgentRun} (listed : run ∈ state.runs.map change) :
        ∃ old ∈ state.runs, old.id = run.id ∧ (run.isActive = true → old.isActive = true ∧ run.id ∉ inFlight) := by
      obtain ⟨old, there, rfl⟩ := mem_map.mp listed
      refine ⟨old, there, (change_id old).symm, fun active => ?_⟩
      dsimp only [change] at active ⊢
      split at active
      · cases active
      · rename_i apart
        rw [if_neg apart]
        rw [active, Bool.true_and, decide_eq_true_eq] at apart
        exact ⟨active, apart⟩
    have later (id : Nat) (ended : Ended state id) : Ended { state with runs := state.runs.map change } id :=
      ended_of_runs ended fun run listed active => by
        obtain ⟨old, there, same, was⟩ := settled listed
        exact ⟨old, there, same, (was active).1⟩
    refine ⟨fun sound => ⟨{ sound with
      ended := fun listed there id inside => later id (sound.ended listed there id inside)
      numbered := fun run listed => ?_
      distinct := ?_
      filed := fun some => sound.filed fun none => some (by rw [none]; rfl) }, le_rfl, fun id _ => later id, id⟩,
      fun runId inside _ run listed same => ?_⟩
    · obtain ⟨old, there, same, _⟩ := settled listed
      exact same ▸ sound.numbered old there
    · have ids : (state.runs.map change).map (·.id) = state.runs.map (·.id) := by
        rw [List.map_map]
        exact map_congr_left fun run _ => change_id run
      exact ids.symm ▸ sound.distinct
    · by_contra active
      obtain ⟨_, _, _, was⟩ := settled listed
      exact (was (eq_true_of_ne_false active)).2 (same ▸ inside)

/-! ## What each program keeps -/

/-- From every sound state a program stays within what is sound, and its value is as asked. -/
def Safe (strict : Bool) {α : Type} (program : LoopProgram α) (post : α → Prop) : Prop :=
  ∀ state, LoopSound strict state → program.Holds (serveKept strict) (Within strict) (Within strict)
    (fun value state => LoopSound strict state ∧ post value) state

section
variable {α β : Type} {post : α → Prop} {post' : β → Prop}

theorem Safe.pure {value : α} (meets : post value) : Safe strict (Pure.pure value : LoopProgram α) post :=
  fun _ sound _ step => ⟨(step sound).1, meets⟩

theorem Safe.bind {program : LoopProgram α} {f : α → LoopProgram β} (first : Safe strict program post)
    (rest : ∀ value, post value → Safe strict (f value) post') : Safe strict (program >>= f) post' := fun state sound =>
  (first state sound).bind (fun state => .refl strict state) fun value state both => rest value both.2 state both.1

theorem Safe.ask {post : LoopReply request → Prop}
    (within : ∀ state, Within strict state (serveKept strict request state).2)
    (meets : ∀ state, LoopSound strict state → post (serveKept strict request state).1) :
    Safe strict (Program.ask request) post := by
  intro state sound state' step
  obtain ⟨sound', _⟩ := step sound
  refine ⟨within state', fun state'' step' => ?_⟩
  obtain ⟨after, _⟩ := within state' sound'
  exact ⟨(step' after).1, meets state' sound'⟩

theorem Safe.ite {c : Prop} [Decidable c] {first second : LoopProgram α} (yes : c → Safe strict first post)
    (no : ¬ c → Safe strict second post) : Safe strict (if c then first else second) post :=
  fun state sound => .ite (yes · state sound) (no · state sound)

theorem Safe.read (reads : ∀ state, (serveKept strict request state).2 = state) :
    Safe strict (Program.ask request) fun _ => True :=
  .ask (fun state => (reads state).symm ▸ .refl strict state) fun _ _ => trivial

end

variable {inFlight : List Nat}

theorem safe_loadGoalWork : Safe strict (loadGoalWork inFlight) fun _ => True := by
  refine .bind (.read fun _ => rfl) fun tasks _ => ?_
  split
  · exact .pure trivial
  · have found : Safe strict (Program.ask (.findRuns (tasks.map (·.id)) inFlight)) fun _ => True :=
      .ask (fun _ => within_findRuns.1) fun _ _ => trivial
    exact .bind found fun _ _ => .pure trivial

variable {answers : AdvanceAnswers}

theorem safe_goalWorkState {goal : Goal} :
    Safe strict (goalWorkState answers goal) fun _ => True := by
  rw [goalWorkState]
  split
  · exact .pure trivial
  refine .bind (.read fun _ => rfl) fun work _ => ?_
  split
  · exact .pure trivial
  split
  · exact .pure trivial
  · exact .pure trivial
  refine .bind (.read fun _ => rfl) fun found _ => ?_
  split
  · exact .pure trivial
  · exact .bind (.read fun _ => rfl) fun _ _ => .pure trivial

theorem safe_resolveCandidates {goal : Goal} :
    Safe strict (resolveCandidates answers goal) fun _ => True := by
  rw [resolveCandidates]
  split
  · exact .pure trivial
  refine .bind safe_loadGoalWork fun work _ => ?_
  dsimp only
  split
  · exact .pure trivial
  · exact .pure trivial

theorem safe_dispatchSlots (before : copy.afterCancel = false)
    (slots : List DispatchSlot) (index : Nat) : Safe strict (dispatchSlots answers copy slots index) fun _ => True := by
  induction slots generalizing index with
  | nil => exact .pure trivial
  | cons slot rest ih =>
    rw [dispatchSlots]
    split
    · exact .pure trivial
    rename_i run throws _
    intro state sound
    refine .ask fun state' step => ⟨within_createTask before, ?_⟩
    have within : Within strict state' (serveKept strict (.createTask copy slot) state').2 := within_createTask before
    obtain ⟨filed, _⟩ := within (step sound).1
    have some : (serveKept strict (.createTask copy slot) state').2.tasks ≠ [] := by simp [serveKept, serveLoop]
    have ends : Safe strict (if throws then Pure.pure [] else do
        let landed ← dispatchSlots answers copy rest (index + 1)
        Pure.pure (slot :: landed)) fun _ => True := by
      split
      · exact .pure trivial
      · exact .bind (ih _) fun _ _ => .pure trivial
    cases run with
    | none => exact ends _ filed
    | some status =>
      refine .ask fun later step' => ?_
      obtain ⟨sound', went⟩ := step' filed
      have within : Within strict later (serveKept strict
          (.createRun (serveKept strict (.createTask copy slot) state').1 status) later).2 :=
        within_createRun (went.filed some)
      exact ⟨within, ends _ (within sound').1⟩

theorem safe_save {write : GoalWrite} (fits : ∀ state, Fits state copy write) :
    Safe strict (Program.ask (.save copy write)) fun _ => True :=
  .ask (fun state => within_save (fits state)) fun _ _ => trivial

theorem safe_applyDispatch {slots : List DispatchSlot}
    (before : copy.afterCancel = false) (running : copy.goal.loopStatus = some .running) :
    Safe strict (applyDispatch answers copy slots) fun _ => True := by
  rw [applyDispatch]
  split
  · exact .pure trivial
  refine .bind (safe_dispatchSlots before slots 0) fun landed _ => ?_
  split
  · exact .pure trivial
  · exact safe_save fun _ => running

theorem safe_applyTerminal {loopStatus : GoalLoopStatus}
    (running : copy.goal.loopStatus = some .running) : Safe strict (applyTerminal copy loopStatus) fun _ => True := by
  exact .ite (fun _ => safe_save fun _ => running) fun _ => safe_save fun _ => running

def Faithful (copy : GoalCopy) : Prop := copy.afterCancel = true → copy.goal.loopStatus = some .cancelled

theorem decide_idle {input : GoalLoopInput} (idle : input.loopStatus ≠ some .running) :
    (decideGoalLoop input).action = .noop := by
  rw [decideGoalLoop, if_pos idle]

theorem safe_advanceOn {spent : Nat} (faithful : Faithful copy) :
    Safe strict (advanceOn answers copy spent) fun _ => True := by
  refine .bind safe_loadGoalWork fun runs _ => ?_
  refine .bind safe_goalWorkState fun work _ => ?_
  refine .bind safe_resolveCandidates fun candidates _ => ?_
  by_cases running : copy.goal.loopStatus = some .running
  · have before : copy.afterCancel = false := by
      by_contra after
      have cancelled := faithful (eq_true_of_ne_false after)
      rw [running] at cancelled
      cases cancelled
    split
    · exact safe_applyDispatch before running
    · exact safe_applyTerminal running
    · exact safe_applyTerminal running
    · exact safe_applyTerminal running
    · exact .pure trivial
    · exact .pure trivial
  · rw [decide_idle running]
    exact .pure trivial

theorem safe_advanceOne (faithful : Faithful copy) :
    Safe strict (advanceOne answers copy) fun _ => True := by
  refine .bind safe_loadGoalWork fun spending _ => ?_
  dsimp only
  split
  · exact .bind (safe_save fun _ => trivial) fun _ _ => safe_advanceOn faithful
  · exact safe_advanceOn faithful

theorem safe_findGoal : Safe strict (Program.ask LoopCall.findGoal) Faithful := by
  refine .ask (fun state => .refl strict state) fun state sound after => ?_
  exact (sound.cancelled (of_decide_eq_true after)).1

theorem safe_advance : Safe strict (advance answers) fun _ => True :=
  .bind safe_findGoal fun _ faithful => safe_advanceOne faithful

theorem safe_tick : Safe strict (tick answers) fun _ => True := by
  refine .bind (.read fun _ => rfl) fun due _ => ?_
  split
  · exact .pure trivial
  refine .bind safe_findGoal fun copy faithful => ?_
  split
  · exact .pure trivial
  · exact safe_advanceOne faithful

theorem safe_pauseLoop : Safe strict pauseLoop fun _ => True := by
  refine .bind safe_findGoal fun copy _ => ?_
  exact .ite (fun _ => .pure trivial) fun running => safe_save fun _ => of_not_not running

theorem safe_archive {now : Int} : Safe strict (archive now) fun _ => True := by
  refine .bind safe_findGoal fun copy _ => ?_
  exact .ite (fun _ => .pure trivial) fun _ => safe_save fun _ => rfl

/-! ## A cancel -/

/-- The runs that were in flight when a cancel was called have ended, but for one that it has found. -/
def Gone (inFlight : List Nat) (found : Option Nat) (state : LoopState) : Prop :=
  ∀ runId ∈ inFlight, runId < state.next ∧ (found ≠ some runId → Ended state runId)

theorem Gone.later {found : Option Nat} {before after : LoopState} (gone : Gone inFlight found before)
    (later : Later before after) : Gone inFlight found after := fun runId listed =>
  ⟨lt_of_lt_of_le (gone runId listed).1 later.next,
    fun other => later.ended runId (gone runId listed).1 ((gone runId listed).2 other)⟩

theorem ended_changeRun (runId : Nat) :
    Ended (serveKept strict (.cancelRun runId) state).2 runId := by
  rintro run listed rfl
  obtain ⟨old, _, same⟩ := mem_map.mp listed
  dsimp only at same
  split at same
  · rw [← same]
    split
    · rfl
    · rename_i idle
      exact eq_false_of_ne_true idle
  · rename_i other
    rw [same] at other
    exact absurd rfl other

theorem holds_loadGoalWork (sound : LoopSound strict state)
    (below : ∀ runId ∈ inFlight, runId < state.next) (filed : inFlight ≠ [] → state.tasks ≠ []) :
    (loadGoalWork inFlight).Holds (serveKept strict) (Within strict) (Within strict)
      (fun work state => LoopSound strict state ∧ Gone inFlight ((work.2.find? (·.isActive)).map (·.id)) state) state := by
  refine .ask fun first went => ⟨.refl strict first, ?_⟩
  obtain ⟨sound, later⟩ := went sound
  dsimp only [serveKept, serveLoop]
  refine .ite (fun none => ?_) fun _ => ?_
  · have empty : inFlight = [] := by
      by_contra some
      have tasks := later.filed (filed some)
      cases there : first.tasks with
      | nil => exact tasks there
      | cons task rest =>
        rw [there] at none
        cases none
    intro second went
    refine ⟨(went sound).1, fun runId listed => ?_⟩
    rw [empty] at listed
    exact absurd listed not_mem_nil
  · refine .ask fun second went => ⟨within_findRuns.1, fun third step => ?_⟩
    obtain ⟨sound, more⟩ := went sound
    obtain ⟨within, ended⟩ := @within_findRuns strict second ((first.tasks.take maxGoalTasks).map (·.id)) inFlight
    obtain ⟨sound, same⟩ := within sound
    obtain ⟨sound, rest⟩ := step sound
    have gone : Gone inFlight _ _ := fun runId listed =>
      ⟨lt_of_lt_of_le (below runId listed) ((later.next.trans more.next).trans same.next), ended runId listed⟩
    exact ⟨sound, gone.later rest⟩

theorem holds_cancelActiveRun {canCancel : Bool} (sound : LoopSound strict state)
    (below : ∀ runId ∈ inFlight, runId < state.next) (filed : inFlight ≠ [] → state.tasks ≠ []) :
    (cancelActiveRun canCancel inFlight).Holds (serveKept strict) (Within strict) (Within strict)
      (fun went state => LoopSound strict state ∧ (went = true → Gone inFlight none state)) state := by
  refine (holds_loadGoalWork sound below filed).bind (fun state => .refl strict state) ?_
  rintro ⟨tasks, runs⟩ first ⟨sound, gone⟩
  dsimp only at gone ⊢
  cases active : runs.find? (·.isActive) with
  | none =>
    rw [active] at gone
    intro second step
    obtain ⟨sound, later⟩ := step sound
    exact ⟨sound, fun _ => gone.later later⟩
  | some active' =>
    rw [active, map_some] at gone
    -- Once the run that was found has ended too, all have.
    have whole {state : LoopState} (gone : Gone inFlight (some active'.id) state) (ended : Ended state active'.id) :
        Gone inFlight none state := by
      refine fun runId listed => ⟨(gone runId listed).1, fun _ => ?_⟩
      by_cases same : active'.id = runId
      · exact same ▸ ended
      · exact (gone runId listed).2 fun found => same (some.inj found)
    dsimp only
    refine .ite (fun _ second step => ⟨(step sound).1, nofun⟩) fun _ => ?_
    refine .ask fun second step => ⟨.refl strict second, ?_⟩
    obtain ⟨sound, later⟩ := step sound
    have gone := gone.later later
    dsimp only [serveKept, serveLoop]
    refine .ite (fun _ => ?_) fun idle => ?_
    · refine .ask fun third step => ?_
      obtain ⟨sound, later⟩ := step sound
      have within : Within strict third (serveKept strict (.cancelRun active'.id) third).2 :=
        within_changeRun settles_cancel
      refine ⟨within, fun fourth step => ?_⟩
      obtain ⟨sound, more⟩ := within sound
      obtain ⟨sound, rest⟩ := step sound
      exact ⟨sound, fun _ => (whole ((gone.later later).later more) (ended_changeRun _)).later rest⟩
    · intro third step
      obtain ⟨after, later⟩ := step sound
      refine ⟨after, fun _ => (whole gone fun run listed same => ?_).later later⟩
      by_contra active
      have first : second.runs.find? (·.id = active'.id) = some run := by
        rw [find?_eq_some_iff_append]
        obtain ⟨front, back, split⟩ := append_of_mem listed
        refine ⟨decide_eq_true same, front, back, split, fun other before => ?_⟩
        have distinct := sound.distinct
        rw [split, map_append, nodup_append] at distinct
        have apart := distinct.2.2 _ (mem_map_of_mem before) _ mem_cons_self
        simpa [same] using apart
      rw [first] at idle
      exact idle (eq_true_of_ne_false active)

theorem safe_cancelLoop {canCancel : Bool} : Safe strict (cancelLoop canCancel) fun _ => True := by
  intro state sound
  refine .ask fun first step => ⟨.refl strict first, ?_⟩
  obtain ⟨sound, _⟩ := step sound
  have below : ∀ runId ∈ first.inFlight, runId < first.next := by
    intro runId listed
    obtain ⟨run, there, rfl⟩ := mem_map.mp listed
    exact sound.numbered run (mem_filter.mp there).1
  have filed : first.inFlight ≠ [] → first.tasks ≠ [] := by
    refine fun some => sound.filed fun none => some ?_
    rw [LoopState.inFlight, none]
    rfl
  refine (holds_cancelActiveRun sound below filed).bind (fun state => .refl strict state) ?_
  rintro went second ⟨sound, gone⟩
  cases went with
  | false => exact fun third step => ⟨(step sound).1, trivial⟩
  | true =>
    refine fun third step => ?_
    obtain ⟨sound, later⟩ := step sound
    have within : Within strict third
        (serveKept strict (.save (serveLoop .findGoalToCancel first).1.1 (.cancelled first.inFlight)) third).2 :=
      within_save fun runId listed =>
        ⟨(((gone rfl).later later) runId listed).1, (((gone rfl).later later) runId listed).2 nofun⟩
    exact ⟨within, fun fourth step => ⟨(step (within sound).1).1, trivial⟩⟩

theorem safe_run (job : LoopJob) : Safe strict job.run fun _ => True := by
  cases job with
  | tick answers => exact safe_tick
  | advance answers => exact safe_advance
  | pauseLoop => exact safe_pauseLoop
  | cancelLoop canCancel => exact safe_cancelLoop
  | archive now => exact safe_archive
  | startRun runId startedAt => exact .ask (fun _ => within_changeRun (settles_start startedAt)) fun _ _ => trivial
  | endRun runId completed => exact .ask (fun _ => within_changeRun (settles_end completed)) fun _ _ => trivial

end

/-! ## Runs -/

abbrev LoopPool := Pool LoopState LoopCall LoopReply Empty

def loopPool (state : LoopState) (jobs : List LoopJob) : LoopPool := ⟨state, jobs.map (·.run)⟩

def afterLoop (state : LoopState) (jobs : List LoopJob) (schedule : List Nat) : LoopPool :=
  run (Pool.step serveLoop Empty.elim) (loopPool state jobs) schedule

/-- The next call of a program is in order. -/
def NextInOrder (strict : Bool) (pool : LoopPool) (place : Nat) : Prop :=
  match pool.programs[place]? with
  | some (.call request _) => InOrder strict pool.state request
  | _ => True

instance (strict : Bool) (pool : LoopPool) (place : Nat) : Decidable (NextInOrder strict pool place) := by
  unfold NextInOrder
  split <;> infer_instance

/-- A Goal before any of the jobs has run. -/
structure Unstarted (state : LoopState) : Prop extends LoopRows state where
  started : state.started = []
  returned : state.returned = []
  control : state.control = none

theorem Unstarted.sound {state : LoopState} (unstarted : Unstarted state) (strict : Bool) : LoopSound strict state where
  toLoopRows := unstarted.toLoopRows
  ended := by simp [unstarted.returned]
  started := by simp [unstarted.started]
  cancelled some := absurd unstarted.returned some
  control := by simp [unstarted.control]
  returned := by simp [unstarted.returned]
  stopped := by simp [unstarted.control]

/-- In every order of the calls in which the status is saved on copies that are not out of date and no cancel has more
than one run to end, what was in flight at a cancel ends, nothing starts on a copy that was read after it, and the loop
stays as the operator left it. -/
theorem loopKept_of_inOrder (strict : Bool) (state : LoopState) (jobs : List LoopJob) (schedule : List Nat)
    (unstarted : Unstarted state)
    (inOrder : Along (Pool.step serveLoop Empty.elim) (NextInOrder strict) (loopPool state jobs) schedule) :
    LoopKept strict (afterLoop state jobs schedule).state := by
  have start : Pool.InStep (serveKept strict) (fun _ => Within strict) (fun _ => Within strict) (loopPool state jobs) := by
    intro place program there
    obtain ⟨job, _, rfl⟩ := mem_map.mp (mem_of_getElem? there)
    exact (safe_run job state (unstarted.sound strict)).weaken fun _ _ _ => trivial
  have same : run (Pool.step (serveKept strict) Empty.elim) (loopPool state jobs) schedule =
      run (Pool.step serveLoop Empty.elim) (loopPool state jobs) schedule := by
    refine Pool.run_congr (along_mono (fun pool place next request rest found => ?_) inOrder)
    rw [NextInOrder, found] at next
    exact serve_kept next
  have ran : Pool.InStep (serveKept strict) (fun _ => Within strict) (fun _ => Within strict)
        (run (Pool.step (serveKept strict) Empty.elim) (loopPool state jobs) schedule) ∧
      LoopSound strict (run (Pool.step (serveKept strict) Empty.elim) (loopPool state jobs) schedule).state :=
    Pool.run_inStep (fun _ state => Within.refl strict state) (fun _ _ _ _ => Within.trans) (fun _ _ _ _ _ => id)
      (fun _ _ _ _ sound step => (step sound).1) start (unstarted.sound strict)
  rw [same] at ran
  exact ran.2.toLoopKept

/-! ## A pause, a cancel and an archive -/

def startedLoop : LoopState where
  goal := { loopStatus := some .running, maxConcurrentIterations := some 2 }
  title := Utf16.ofString "Ship it"
  next := 1

theorem startedLoop_unstarted : Unstarted startedLoop := ⟨⟨by decide, by decide, by decide⟩, rfl, rfl, rfl⟩

/-- A tick starts two iterations, one of which ends; the loop is cancelled, advanced in vain and archived. -/
def controlJobs : List LoopJob :=
  [.tick plainAnswers, .startRun 2 5, .endRun 2 true, .cancelLoop true, .advance plainAnswers, .archive 9]

def controlSchedule : List Nat :=
  List.replicate 10 0 ++ [1, 2] ++ List.replicate 6 3 ++ List.replicate 8 4 ++ [5, 5]

theorem control_in_turn : LoopKept true (afterLoop startedLoop controlJobs controlSchedule).state := by
  have inOrder : Along (Pool.step serveLoop Empty.elim) (NextInOrder true) (loopPool startedLoop controlJobs)
      controlSchedule := by
    decide
  exact loopKept_of_inOrder true startedLoop controlJobs controlSchedule startedLoop_unstarted inOrder

def twoInFlight : LoopState where
  goal := { loopStatus := some .running, maxConcurrentIterations := some 2, iteration := 2, activeAgentId := some 7 }
  title := Utf16.ofString "Ship it"
  tasks := [
    { id := 1, title := iterationTitle (Utf16.ofString "Ship it") 1 },
    { id := 2, title := iterationTitle (Utf16.ofString "Ship it") 2 }]
  runs := [⟨3, 1, .running, some 1, none⟩, ⟨4, 2, .running, some 2, none⟩]
  next := 5

def finishedGoal : LoopState where
  goal := {
    loopStatus := some .running
    dodCriteria := some [{ id := Utf16.ofString "a", text := Utf16.ofString "The page loads", status := .done }] }
  title := Utf16.ofString "Ship it"
  next := 1

/-- A cancel ends the first of two runs and returns with the other still in flight; and one that returns between an
advance's read and its save leaves the loop done, not cancelled. -/
theorem cancel_undone :
    (Unstarted twoInFlight ∧ ¬ LoopKept false (afterLoop twoInFlight [.cancelLoop true] (List.replicate 6 0)).state) ∧
    (Unstarted finishedGoal ∧
      ¬ LoopKept false (afterLoop finishedGoal [.advance plainAnswers, .cancelLoop true]
        ([0, 1, 1, 1] ++ List.replicate 4 0)).state) := by
  have left : (afterLoop twoInFlight [.cancelLoop true] (List.replicate 6 0)).state.returned = [[3, 4]] ∧
      ⟨4, 2, .running, some 2, none⟩ ∈ (afterLoop twoInFlight [.cancelLoop true] (List.replicate 6 0)).state.runs := by
    decide
  have undone : (afterLoop finishedGoal [.advance plainAnswers, .cancelLoop true]
        ([0, 1, 1, 1] ++ List.replicate 4 0)).state.returned ≠ [] ∧
      (afterLoop finishedGoal [.advance plainAnswers, .cancelLoop true]
        ([0, 1, 1, 1] ++ List.replicate 4 0)).state.goal.loopStatus = some .done := by
    decide
  refine ⟨⟨⟨⟨by decide, by decide, by decide⟩, rfl, rfl, rfl⟩, fun kept => ?_⟩,
    ⟨⟨by decide, by decide, by decide⟩, rfl, rfl, rfl⟩, fun kept => ?_⟩
  · have ended := kept.ended [3, 4] (left.1 ▸ mem_cons_self) 4 (by decide) _ left.2 rfl
    cases ended
  · have cancelled := (kept.cancelled undone.1).1
    rw [undone.2] at cancelled
    cases cancelled

end EverWorks.Goals
