import EverWorks.Agents.RunAdmission

/-!
# The fan-out over the task graph

A pass over the tasks that wait to be done, which starts those that nothing blocks, that some agent can run and that
were never run, as far as they are admitted.
-/

namespace EverWorks.Tasks.Fanout
open Agents.Dispatch List

/-! ## The pass -/

inductive SkipReason where
  | blocked | noAgent | alreadyRun | inFlight | ownerBound | ownerRefused | claimLost
  deriving DecidableEq

/-- The columns of a task that the pass reads. -/
structure FanoutTask where
  id : String
  slug : String
  userId : String
  workId : Option String := none
  organizationId : Option String := none
  deriving DecidableEq

inductive EntryOutcome where
  | started
  | skipped (reason : SkipReason) (message : Option String)
  | failed (message : String)
  deriving DecidableEq

structure TaskFanoutEntry where
  taskId : String
  taskSlug : String
  outcome : EntryOutcome
  deriving DecidableEq

structure TaskFanoutSummary where
  limit : ℕ
  candidateCount : ℕ := 0
  started : ℕ := 0
  skipped : ℕ := 0
  failed : ℕ := 0
  halted : Bool := false
  disabled : Bool := false
  maxStartsPerOwner : ℤ
  entries : List TaskFanoutEntry := []
  deriving DecidableEq

structure Thrown where
  claimLost : Bool
  message : String

abbrev Call (α : Type) := Except Thrown α

structure AgentRunRepository where
  findLatestForTask : Option (String → Call Bool)
  findInFlightForTaskAgent : Option (String → String → String → Call Bool)

structure TaskTransitionService where
  listOpenBlockerIds : String → Call (List String)
  resolveDispatchAgentIds : FanoutTask → Call (List String)
  transition : FanoutTask → Call Unit

/-- What the pass is given: a service that is not bound is none. -/
structure TaskGraphFanoutService where
  maxPerOwner : ℤ
  findFanoutCandidates : ℕ → List FanoutTask
  transitions : Option TaskTransitionService
  dispatchGate : Option (RunAdmissionInput → Call RunAdmissionVerdict)
  runs : Option AgentRunRepository
  killSwitch : Option (Call Bool)

def queuedReasonText : QueuedReason → String
  | .concurrencyLimit => "concurrency-limit"
  | .insufficientCredits => "insufficient-credits"
  | .killSwitch => "kill-switch"
  | .agentPaused => "agent-paused"
  | .workBudget => "work-budget"
  | .appChangesPaused => "app-changes-paused"

/-- What the probe of a task says. -/
inductive Probe where
  | admitted
  | refused (queuedReason : Option String)
  | stopped
  deriving DecidableEq

inductive Visit where
  | skip (reason : SkipReason) (message : Option String)
  | refuse (queuedReason : Option String)
  | stop
  | start
  deriving DecidableEq

/-- The pass under way; `claimed` are the tasks that were moved on. -/
structure Tick where
  summary : TaskFanoutSummary
  startsByOwner : String → ℕ := fun _ => 0
  refusedOwners : List String := []
  claimed : List FanoutTask := []

section
variable (service : TaskGraphFanoutService)

def isHalted : Bool :=
  match service.killSwitch with
  | none => false
  | some (.ok halted) => halted
  | some (.error _) => true

def allAgentsBusy (find : String → String → String → Call Bool) (task : FanoutTask) : List String → Call Bool
  | [] => .ok true
  | agentId :: rest => do
    if ← find task.id agentId task.userId then allAgentsBusy find task rest else return false

def priorRunSkipReason (task : FanoutTask) (agentIds : List String) : Call (Option SkipReason) :=
  match service.runs with
  | none => .ok none
  | some runs => do
    let latest ← runs.findLatestForTask.elim (.ok false) fun find => find task.id
    if latest then return some .alreadyRun
    else
      let busy ← runs.findInFlightForTaskAgent.elim (.ok false) fun find => allAgentsBusy find task agentIds
      return if busy then some .inFlight else none

def probeAdmission (task : FanoutTask) : Probe :=
  match service.dispatchGate with
  | none => .admitted
  | some admits =>
    match admits ⟨task.userId, task.workId, task.organizationId, none⟩ with
    | .error _ => .refused (some "admission-probe-failed")
    | .ok verdict =>
      if verdict.admitted then .admitted
      else if verdict.queuedReason = some .killSwitch then .stopped
      else .refused (verdict.queuedReason.map queuedReasonText)

def visit (transitions : TaskTransitionService) (task : FanoutTask) : Call Visit := do
  let openBlockers ← transitions.listOpenBlockerIds task.id
  if 0 < openBlockers.length then return .skip .blocked (some s!"{openBlockers.length} open blocker(s)")
  else
    let agentIds ← transitions.resolveDispatchAgentIds task
    if agentIds.length = 0 then return .skip .noAgent none
    else
      match ← priorRunSkipReason service task agentIds with
      | some priorRun => return .skip priorRun none
      | none =>
        match probeAdmission service task with
        | .stopped => return .stop
        | .refused queuedReason => return .refuse queuedReason
        | .admitted => do
          transitions.transition task
          return .start

def skip (tick : Tick) (task : FanoutTask) (reason : SkipReason) (message : Option String) : Tick :=
  { tick with summary := { tick.summary with
      skipped := tick.summary.skipped + 1
      entries := tick.summary.entries ++ [⟨task.id, task.slug, .skipped reason (message.filter (· ≠ ""))⟩] } }

def start (tick : Tick) (task : FanoutTask) : Tick :=
  { tick with
    startsByOwner := fun owner => if owner = task.userId then tick.startsByOwner owner + 1 else tick.startsByOwner owner
    claimed := tick.claimed ++ [task]
    summary := { tick.summary with
      started := tick.summary.started + 1
      entries := tick.summary.entries ++ [⟨task.id, task.slug, .started⟩] } }

def fail (tick : Tick) (task : FanoutTask) (message : String) : Tick :=
  { tick with summary := { tick.summary with
      failed := tick.summary.failed + 1
      entries := tick.summary.entries ++ [⟨task.id, task.slug, .failed message⟩] } }

/-- One turn of the loop; `none` where the pass is aborted. -/
def turn (transitions : TaskTransitionService) (tick : Tick) (task : FanoutTask) : Option Tick :=
  if task.userId ∈ tick.refusedOwners then some (skip tick task .ownerRefused none)
  else if service.maxPerOwner ≤ tick.startsByOwner task.userId then some (skip tick task .ownerBound none)
  else
    match visit service transitions task with
    | .ok (.skip reason message) => some (skip tick task reason message)
    | .ok (.refuse queuedReason) =>
      some (skip { tick with refusedOwners := task.userId :: tick.refusedOwners } task .ownerRefused queuedReason)
    | .ok .stop => none
    | .ok .start => some (start tick task)
    | .error thrown =>
      if thrown.claimLost then some (skip tick task .claimLost (some thrown.message))
      else some (fail tick task thrown.message)

def fanOut (transitions : TaskTransitionService) (tick : Tick) : List FanoutTask → Tick
  | [] => tick
  | task :: rest =>
    match turn service transitions tick task with
    | none => { tick with summary := { tick.summary with halted := true } }
    | some next => fanOut transitions next rest

def emptySummary (limit : ℕ) : TaskFanoutSummary := { limit, maxStartsPerOwner := service.maxPerOwner }

def dispatchUnblocked (scanLimit : ℕ) : TaskFanoutSummary × List FanoutTask :=
  if service.maxPerOwner ≤ 0 then ({ emptySummary service scanLimit with disabled := true }, [])
  else
    match service.transitions with
    | none => (emptySummary service scanLimit, [])
    | some transitions =>
      if isHalted service then ({ emptySummary service scanLimit with halted := true }, [])
      else
        let candidates := service.findFanoutCandidates scanLimit
        let tick := fanOut service transitions
          { summary := { emptySummary service scanLimit with candidateCount := candidates.length } } candidates
        (tick.summary, tick.claimed)

/-! ## What a pass starts -/

/-- Nothing fails and nobody else writes: every call has an answer. -/
structure Quiet (transitions : TaskTransitionService) : Prop where
  blockers : ∀ id, ∃ ids, transitions.listOpenBlockerIds id = .ok ids
  agents : ∀ task, ∃ ids, transitions.resolveDispatchAgentIds task = .ok ids
  claims : ∀ task, transitions.transition task = .ok ()
  latest : ∀ runs ∈ service.runs, ∀ find ∈ runs.findLatestForTask, ∀ id, ∃ found, find id = .ok found
  inFlight : ∀ runs ∈ service.runs, ∀ find ∈ runs.findInFlightForTaskAgent, ∀ task agent user,
    ∃ found, find task agent user = .ok found
  gate : ∀ admits ∈ service.dispatchGate, ∀ input, ∃ verdict, admits input = .ok verdict

def Startable (transitions : TaskTransitionService) (task : FanoutTask) : Bool :=
  match transitions.listOpenBlockerIds task.id, transitions.resolveDispatchAgentIds task with
  | .ok [], .ok (agent :: agents) =>
    match priorRunSkipReason service task (agent :: agents) with
    | .ok none => true
    | _ => false
  | _, _ => false

variable {service} {transitions : TaskTransitionService} {task : FanoutTask}

theorem allAgentsBusy_ok {find : String → String → String → Call Bool}
    (answers : ∀ task agent user, ∃ found, find task agent user = .ok found) (agentIds : List String) :
    ∃ busy, allAgentsBusy find task agentIds = .ok busy := by
  induction agentIds with
  | nil => exact ⟨true, rfl⟩
  | cons agentId rest ih =>
    obtain ⟨found, answer⟩ := answers task.id agentId task.userId
    cases found with
    | false => exact ⟨false, by rw [allAgentsBusy, answer]; rfl⟩
    | true =>
      obtain ⟨busy, later⟩ := ih
      exact ⟨busy, by rw [allAgentsBusy, answer]; exact later⟩

theorem priorRun_ok (quiet : Quiet service transitions) (agentIds : List String) :
    ∃ reason, priorRunSkipReason service task agentIds = .ok reason := by
  unfold priorRunSkipReason
  split
  · exact ⟨none, rfl⟩
  · rename_i runs bound
    obtain ⟨latest, first⟩ : ∃ latest, runs.findLatestForTask.elim (.ok false) (fun find => find task.id) = .ok latest := by
      cases known : runs.findLatestForTask with
      | none => exact ⟨false, rfl⟩
      | some find => exact quiet.latest runs bound find known task.id
    obtain ⟨busy, second⟩ : ∃ busy, runs.findInFlightForTaskAgent.elim (.ok false)
        (fun find => allAgentsBusy find task agentIds) = .ok busy := by
      cases known : runs.findInFlightForTaskAgent with
      | none => exact ⟨false, rfl⟩
      | some find => exact allAgentsBusy_ok (quiet.inFlight runs bound find known) agentIds
    rw [first, second]
    cases latest with
    | true => exact ⟨_, rfl⟩
    | false => exact ⟨_, rfl⟩

theorem visit_of_not (quiet : Quiet service transitions) (not : Startable service transitions task = false) :
    ∃ reason message, visit service transitions task = .ok (.skip reason message) := by
  obtain ⟨blockers, listed⟩ := quiet.blockers task.id
  obtain ⟨agents, resolved⟩ := quiet.agents task
  unfold Startable at not
  unfold visit
  rw [listed, resolved] at not
  rw [listed, resolved]
  cases blockers with
  | cons blocker blockers => exact ⟨_, _, rfl⟩
  | nil =>
    cases agents with
    | nil => exact ⟨_, _, rfl⟩
    | cons agent agents =>
      obtain ⟨reason, prior⟩ := @priorRun_ok _ _ task quiet (agent :: agents)
      dsimp only at not
      rw [prior] at not
      cases reason with
      | none => exact absurd not (by decide)
      | some reason =>
        refine ⟨reason, none, ?_⟩
        show (do
          let priorRun ← priorRunSkipReason service task (agent :: agents)
          match priorRun with
          | some priorRun => return .skip priorRun none
          | none => _ : Call Visit) = _
        rw [prior]
        rfl

theorem visit_of_startable (quiet : Quiet service transitions) (startable : Startable service transitions task = true) :
    visit service transitions task = .ok (match probeAdmission service task with
      | .stopped => .stop
      | .refused queuedReason => .refuse queuedReason
      | .admitted => .start) := by
  unfold Startable at startable
  split at startable
  · rename_i agent agents listed resolved
    split at startable
    · rename_i prior
      unfold visit
      rw [listed, resolved]
      show (do
        let priorRun ← priorRunSkipReason service task (agent :: agents)
        match priorRun with
        | some priorRun => return .skip priorRun none
        | none => _ : Call Visit) = _
      rw [prior]
      cases probed : probeAdmission service task with
      | admitted =>
        show (do
          transitions.transition task
          return .start : Call Visit) = _
        rw [quiet.claims task]
        rfl
      | refused queuedReason => rfl
      | stopped => rfl
    · cases startable
  · cases startable

/-! ## Runs of the loop -/

def Admitted (service : TaskGraphFanoutService) (task : FanoutTask) : Bool := probeAdmission service task = .admitted

def startableOf (service : TaskGraphFanoutService) (transitions : TaskTransitionService) (owner : String)
    (tasks : List FanoutTask) : List FanoutTask :=
  tasks.filter fun task => task.userId = owner ∧ Startable service transitions task

def untilRefusal (service : TaskGraphFanoutService) (transitions : TaskTransitionService) (owner : String)
    (tasks : List FanoutTask) : List FanoutTask :=
  (startableOf service transitions owner tasks).takeWhile (Admitted service)

def startedEntry (task : FanoutTask) : TaskFanoutEntry := ⟨task.id, task.slug, .started⟩

structure Through (service : TaskGraphFanoutService) (transitions : TaskTransitionService) (seen : List FanoutTask)
    (tick : Tick) : Prop where
  order : tick.claimed.Sublist seen
  starts : ∀ owner, tick.claimed.filter (fun task => task.userId = owner) =
    (untilRefusal service transitions owner seen).take service.maxPerOwner.toNat
  counted : ∀ owner, tick.startsByOwner owner = ((untilRefusal service transitions owner seen).take
    service.maxPerOwner.toNat).length
  told : tick.summary.entries.filter (·.outcome = .started) = tick.claimed.map startedEntry
  remembered : ∀ owner, owner ∈ tick.refusedOwners ↔
    ((untilRefusal service transitions owner seen).length < service.maxPerOwner.toNat ∧
      untilRefusal service transitions owner seen ≠ startableOf service transitions owner seen)
  running : tick.summary.halted = false

section
variable {transitions : TaskTransitionService} {seen : List FanoutTask} {tick : Tick} {owner : String}

theorem through_nil (claimed : tick.claimed = []) (starts : tick.startsByOwner = fun _ => 0)
    (refused : tick.refusedOwners = []) (entries : tick.summary.entries = []) (running : tick.summary.halted = false) :
    Through service transitions [] tick where
  order := by rw [claimed]
  starts owner := by
    rw [claimed]
    exact take_nil.symm
  counted owner := by
    rw [starts]
    exact (congrArg List.length take_nil).symm
  told := by
    rw [claimed, entries]
    rfl
  remembered owner := by
    rw [refused]
    exact iff_of_false not_mem_nil fun both => both.2 rfl
  running := running

theorem startableOf_append (task : FanoutTask) : startableOf service transitions owner (seen ++ [task]) =
    startableOf service transitions owner seen ++
      if task.userId = owner ∧ Startable service transitions task = true then [task] else [] := by
  rw [startableOf, filter_append, startableOf]
  congr 1
  split
  · rename_i both
    exact filter_cons_of_pos (decide_eq_true both)
  · rename_i neither
    exact filter_cons_of_neg (by simpa using neither)

theorem startableOf_joins {task : FanoutTask} (startable : Startable service transitions task = true) :
    startableOf service transitions task.userId (seen ++ [task]) =
      startableOf service transitions task.userId seen ++ [task] := by
  rw [startableOf_append, if_pos ⟨rfl, startable⟩]

theorem untilRefusal_append (task : FanoutTask) (mine : task.userId = owner)
    (startable : Startable service transitions task = true) :
    untilRefusal service transitions owner (seen ++ [task]) =
      if untilRefusal service transitions owner seen = startableOf service transitions owner seen then
        startableOf service transitions owner seen ++ [task].takeWhile (Admitted service)
      else untilRefusal service transitions owner seen := by
  rw [untilRefusal, startableOf_append, if_pos ⟨mine, startable⟩, takeWhile_append]
  have same : ((startableOf service transitions owner seen).takeWhile (Admitted service)).length =
      (startableOf service transitions owner seen).length ↔
        untilRefusal service transitions owner seen = startableOf service transitions owner seen :=
    ⟨( takeWhile_prefix _).eq_of_length, congrArg List.length⟩
  simp only [same]
  rfl

theorem untilRefusal_other (task : FanoutTask)
    (other : ¬ (task.userId = owner ∧ Startable service transitions task = true)) :
    startableOf service transitions owner (seen ++ [task]) = startableOf service transitions owner seen ∧
      untilRefusal service transitions owner (seen ++ [task]) = untilRefusal service transitions owner seen := by
  have same : startableOf service transitions owner (seen ++ [task]) = startableOf service transitions owner seen := by
    rw [startableOf_append, if_neg other, append_nil]
  exact ⟨same, by rw [untilRefusal, same, untilRefusal]⟩

theorem Through.pass {next : Tick} {task : FanoutTask} (through : Through service transitions seen tick)
    (claimed : next.claimed = tick.claimed) (starts : next.startsByOwner = tick.startsByOwner)
    (refused : ∀ owner, owner ∈ next.refusedOwners ↔
      ((untilRefusal service transitions owner (seen ++ [task])).length < service.maxPerOwner.toNat ∧
        untilRefusal service transitions owner (seen ++ [task]) ≠
          startableOf service transitions owner (seen ++ [task])))
    {outcome : EntryOutcome} (skipped : outcome ≠ .started)
    (entries : next.summary.entries = tick.summary.entries ++ [⟨task.id, task.slug, outcome⟩])
    (running : next.summary.halted = false)
    (same : ∀ owner, (untilRefusal service transitions owner (seen ++ [task])).take service.maxPerOwner.toNat =
      (untilRefusal service transitions owner seen).take service.maxPerOwner.toNat) :
    Through service transitions (seen ++ [task]) next where
  order := by
    rw [claimed]
    exact through.order.trans (sublist_append_left _ _)
  starts owner := by
    rw [claimed, same]
    exact through.starts owner
  counted owner := by
    rw [starts, same]
    exact through.counted owner
  told := by
    rw [entries, filter_append, through.told, claimed, filter_cons_of_neg (by simpa using skipped),
      filter_nil, append_nil]
  remembered := refused
  running := running

theorem untilRefusal_ne {task : FanoutTask} : untilRefusal service transitions owner seen ≠
    startableOf service transitions owner seen ++ [task] := by
  intro same
  have short := ( takeWhile_prefix (l := startableOf service transitions owner seen) (Admitted service)).length_le
  have length := congrArg List.length same
  rw [untilRefusal, length_append, length_singleton] at length
  omega

theorem length_take_lt {items : List FanoutTask} {bound : ℕ} (short : (items.take bound).length < bound) :
    items.length < bound ∧ items.take bound = items := by
  rw [length_take] at short
  exact ⟨by omega, take_of_length_le (by omega)⟩

variable {message : Option String}

variable {reason : SkipReason}

theorem Through.closed {task : FanoutTask}
    (through : Through service transitions seen tick)
    (spent : task.userId ∈ tick.refusedOwners ∨ service.maxPerOwner ≤ tick.startsByOwner task.userId) :
    Through service transitions (seen ++ [task]) (skip tick task reason message) := by
  have full : task.userId ∉ tick.refusedOwners →
      service.maxPerOwner.toNat ≤ (untilRefusal service transitions task.userId seen).length := by
    intro open_
    have starts := spent.resolve_left open_
    rw [through.counted, length_take] at starts
    omega
  have grown (owner : String) : (untilRefusal service transitions owner (seen ++ [task])).take service.maxPerOwner.toNat =
      (untilRefusal service transitions owner seen).take service.maxPerOwner.toNat ∧
      (owner ∈ tick.refusedOwners ↔
        ((untilRefusal service transitions owner (seen ++ [task])).length < service.maxPerOwner.toNat ∧
          untilRefusal service transitions owner (seen ++ [task]) ≠
            startableOf service transitions owner (seen ++ [task]))) := by
    have before := through.remembered owner
    by_cases joins : task.userId = owner ∧ Startable service transitions task = true
    · obtain ⟨rfl, startable⟩ := joins
      have joined := @untilRefusal_append service transitions seen task.userId task rfl startable
      rw [startableOf_joins startable]
      by_cases refused : task.userId ∈ tick.refusedOwners
      · obtain ⟨short, differs⟩ := before.mp refused
        rw [if_neg differs] at joined
        rw [joined]
        exact ⟨rfl, iff_of_true refused ⟨short, untilRefusal_ne⟩⟩
      · have enough := full refused
        by_cases whole : untilRefusal service transitions task.userId seen =
            startableOf service transitions task.userId seen
        · rw [if_pos whole] at joined
          rw [whole] at enough
          rw [joined, whole]
          refine ⟨take_append_of_le_length enough, iff_of_false refused fun both => ?_⟩
          rw [length_append] at both
          omega
        · rw [if_neg whole] at joined
          rw [joined]
          exact ⟨rfl, iff_of_false refused fun both => absurd both.1 (by omega)⟩
    · obtain ⟨same, same'⟩ := @untilRefusal_other service transitions seen owner task joins
      rw [same, same']
      exact ⟨rfl, before⟩
  exact through.pass rfl rfl (fun owner => (grown owner).2) EntryOutcome.noConfusion rfl through.running fun owner => (grown owner).1

section
variable {task : FanoutTask} (through : Through service transitions seen tick)
  (open_ : task.userId ∉ tick.refusedOwners) (room : tick.startsByOwner task.userId < service.maxPerOwner)
include through open_ room

theorem Through.whole : (untilRefusal service transitions task.userId seen).length < service.maxPerOwner.toNat ∧
    (untilRefusal service transitions task.userId seen).take service.maxPerOwner.toNat =
      untilRefusal service transitions task.userId seen ∧
    untilRefusal service transitions task.userId seen = startableOf service transitions task.userId seen := by
  have short : ((untilRefusal service transitions task.userId seen).take service.maxPerOwner.toNat).length <
      service.maxPerOwner.toNat := by
    rw [through.counted] at room
    omega
  obtain ⟨less, all⟩ := length_take_lt short
  refine ⟨less, all, ?_⟩
  by_contra differs
  exact open_ ((through.remembered _).mpr ⟨less, differs⟩)

theorem Through.start (startable : Startable service transitions task = true) (admitted : Admitted service task = true) :
    Through service transitions (seen ++ [task]) (start tick task) := by
  obtain ⟨less, all, same⟩ := through.whole open_ room
  have joined : untilRefusal service transitions task.userId (seen ++ [task]) =
      untilRefusal service transitions task.userId seen ++ [task] := by
    rw [untilRefusal_append task rfl startable, if_pos same, ← same, takeWhile_cons_of_pos admitted,
      takeWhile_nil]
  have taken : (untilRefusal service transitions task.userId (seen ++ [task])).take service.maxPerOwner.toNat =
      (untilRefusal service transitions task.userId seen).take service.maxPerOwner.toNat ++ [task] := by
    rw [joined, all]
    refine take_of_length_le ?_
    rw [length_append, length_singleton]
    omega
  constructor
  · exact through.order.append (List.Sublist.refl _)
  · intro owner
    show (tick.claimed ++ [task]).filter _ = _
    rw [filter_append, through.starts]
    by_cases mine : task.userId = owner
    · rw [← mine, taken, filter_cons_of_pos (by simp), filter_nil]
    · obtain ⟨-, same'⟩ := @untilRefusal_other service transitions seen owner task fun both => mine both.1
      rw [same', filter_cons_of_neg (by simpa using mine), filter_nil, append_nil]
  · intro owner
    show (if owner = task.userId then _ else _) = _
    by_cases mine : owner = task.userId
    · rw [if_pos mine, mine, taken, through.counted, length_append, length_singleton]
    · obtain ⟨-, same'⟩ := @untilRefusal_other service transitions seen owner task fun both => mine both.1.symm
      rw [if_neg mine, same', through.counted]
  · show (tick.summary.entries ++ [startedEntry task]).filter _ = (tick.claimed ++ [task]).map _
    rw [filter_append, through.told, map_append, filter_cons_of_pos (by simp [startedEntry])]
    rfl
  · intro owner
    show owner ∈ tick.refusedOwners ↔ _
    by_cases mine : task.userId = owner
    · rw [← mine, joined, startableOf_joins startable, same]
      exact iff_of_false open_ fun both => both.2 rfl
    · obtain ⟨same', same''⟩ := @untilRefusal_other service transitions seen owner task fun both => mine both.1
      rw [same', same'']
      exact through.remembered owner
  · exact through.running

theorem Through.refuse (startable : Startable service transitions task = true) (refused : Admitted service task = false)
    : Through service transitions (seen ++ [task])
      (skip { tick with refusedOwners := task.userId :: tick.refusedOwners } task reason message) := by
  obtain ⟨less, all, same⟩ := through.whole open_ room
  have stays : untilRefusal service transitions task.userId (seen ++ [task]) =
      untilRefusal service transitions task.userId seen := by
    rw [untilRefusal_append task rfl startable, if_pos same, takeWhile_cons_of_neg (by simp [refused]),
      append_nil, same]
  refine through.pass rfl rfl (fun owner => ?_) EntryOutcome.noConfusion rfl through.running fun owner => ?_
  · show owner ∈ task.userId :: tick.refusedOwners ↔ _
    by_cases mine : task.userId = owner
    · rw [← mine, stays, startableOf_append, if_pos ⟨rfl, startable⟩]
      exact iff_of_true mem_cons_self ⟨less, untilRefusal_ne⟩
    · obtain ⟨same', same''⟩ := @untilRefusal_other service transitions seen owner task fun both => mine both.1
      rw [same', same'', mem_cons, or_iff_right (Ne.symm mine)]
      exact through.remembered owner
  · by_cases mine : task.userId = owner
    · rw [← mine, stays]
    · obtain ⟨-, same'⟩ := @untilRefusal_other service transitions seen owner task fun both => mine both.1
      rw [same']

end

theorem Through.skip {task : FanoutTask} (through : Through service transitions seen tick)
    (not : Startable service transitions task = false) :
    Through service transitions (seen ++ [task]) (skip tick task reason message) := by
  have same (owner : String) := @untilRefusal_other service transitions seen owner task fun both => by
    rw [not] at both
    exact absurd both.2 Bool.false_ne_true
  refine through.pass rfl rfl (fun owner => ?_) EntryOutcome.noConfusion rfl through.running fun owner => ?_
  · rw [(same owner).1, (same owner).2]
    exact through.remembered owner
  · rw [(same owner).2]

theorem through_turn (quiet : Quiet service transitions) {task : FanoutTask}
    (through : Through service transitions seen tick) :
    (∃ next, turn service transitions tick task = some next ∧ Through service transitions (seen ++ [task]) next) ∨
      turn service transitions tick task = none ∧ Startable service transitions task = true ∧
        probeAdmission service task = .stopped := by
  unfold turn
  split
  · rename_i refused
    exact .inl ⟨_, rfl, through.closed (.inl refused)⟩
  · rename_i open_
    split
    · rename_i full
      exact .inl ⟨_, rfl, through.closed (.inr full)⟩
    · rename_i room
      cases startable : Startable service transitions task with
      | false =>
        obtain ⟨reason, message, visited⟩ := visit_of_not quiet startable
        rw [visited]
        exact .inl ⟨_, rfl, through.skip startable⟩
      | true =>
        rw [visit_of_startable quiet startable]
        cases probed : probeAdmission service task with
        | admitted =>
          exact .inl ⟨_, rfl, through.start open_ (Int.not_le.mp room) startable (decide_eq_true probed)⟩
        | refused queuedReason =>
          have refused : Admitted service task = false := decide_eq_false (by simp [probed])
          exact .inl ⟨_, rfl, through.refuse open_ (Int.not_le.mp room) startable refused⟩
        | stopped => exact .inr ⟨rfl, rfl, rfl⟩

theorem through_fanOut (quiet : Quiet service transitions) (through : Through service transitions seen tick)
    (tasks : List FanoutTask) : ∃ front rest last, tasks = front ++ rest ∧
      Through service transitions (seen ++ front) last ∧
      ((fanOut service transitions tick tasks).claimed = last.claimed ∧
        (fanOut service transitions tick tasks).summary.entries = last.summary.entries) ∧
      (rest = [] ∧ (fanOut service transitions tick tasks).summary.halted = false ∨
        (∃ task later, rest = task :: later ∧ Startable service transitions task = true ∧
          probeAdmission service task = .stopped) ∧ (fanOut service transitions tick tasks).summary.halted = true) := by
  induction tasks generalizing seen tick with
  | nil =>
    refine ⟨[], [], tick, rfl, ?_, ⟨rfl, rfl⟩, .inl ⟨rfl, through.running⟩⟩
    rw [append_nil]
    exact through
  | cons task tasks ih =>
    unfold fanOut
    rcases @through_turn service transitions seen tick quiet task through with ⟨next, went, after⟩ | ⟨ended, startable, stopped⟩
    · obtain ⟨front, rest, last, split_, kept, claimed, settled⟩ := ih after
      rw [went]
      refine ⟨task :: front, rest, last, by rw [split_, cons_append], ?_, claimed, settled⟩
      rw [append_assoc, singleton_append] at kept
      exact kept
    · rw [ended]
      refine ⟨[], task :: tasks, tick, rfl, ?_, ⟨rfl, rfl⟩, .inr ⟨⟨task, tasks, rfl, startable, stopped⟩, rfl⟩⟩
      rw [append_nil]
      exact through

end

end

def chainGate (context : RunAdmissionContext) (input : RunAdmissionInput) : Call RunAdmissionVerdict :=
  match composeRunAdmission defaultRunAdmissionChain context input with
  | .ok verdict => .ok verdict
  | .error _ => .ok runAdmissionAdmitted

def oneRunPerWork : RunAdmissionContext where
  countInFlightForWork workId := .ok (if workId = "website" then 1 else 0)
  countInFlightForOrganization _ := .ok 1
  countInFlightForUser _ := .ok 1
  resolveWorkLimit := 1
  resolveOrgLimit := 25
  isCreditsEnforcementEnabled := false
  creditsPrecheck := none
  isPlanConcurrencyEnabled := false
  planLimits := none
  killSwitch := none
  agentBrake := none

def unblocked : TaskTransitionService where
  listOpenBlockerIds _ := .ok []
  resolveDispatchAgentIds _ := .ok ["agent"]
  transition _ := .ok ()

def websiteTask : FanoutTask := { id := "a", slug := "T-1", userId := "owner", workId := some "website" }

def blogTask : FanoutTask := { id := "b", slug := "T-2", userId := "owner", workId := some "blog" }

def twoWorks (candidates : List FanoutTask) : TaskGraphFanoutService where
  maxPerOwner := 5
  findFanoutCandidates limit := candidates.take limit
  transitions := some unblocked
  dispatchGate := some (chainGate oneRunPerWork)
  runs := none
  killSwitch := none

theorem twoWorks_quiet (candidates : List FanoutTask) : Quiet (twoWorks candidates) unblocked where
  blockers _ := ⟨[], rfl⟩
  agents _ := ⟨["agent"], rfl⟩
  claims _ := rfl
  latest _ none := nomatch none
  inFlight _ none := nomatch none
  gate admits bound input := by
    obtain rfl : chainGate oneRunPerWork = admits := Option.some.inj bound
    unfold chainGate
    split
    · exact ⟨_, rfl⟩
    · exact ⟨_, rfl⟩

end EverWorks.Tasks.Fanout
