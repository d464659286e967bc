import EverWorks.Goals.Goal

/-!
What a loop does next, from the counts it is given: the branches in the order of the source, and what a decision to
dispatch says of the counts.
-/

namespace EverWorks.Goals
open List

inductive CandidateSource
  | assigned
  | history
  | scope
  deriving DecidableEq

structure GoalRoutingCandidate where
  agentId : Nat
  source : CandidateSource
  deriving DecidableEq

inductive GoalLoopReasonCode
  | loopNotRunning
  | dodComplete
  | spendCapExceeded
  | wallClockExceeded
  | noProgress
  | runInFlight
  | awaitingMerge
  | workUnavailable
  | workUnreadable
  | gracePeriod
  | noCandidateAgent
  | routedAssignedAgent
  | routedRoundRobin
  | routedScopeFallback
  deriving DecidableEq

structure DispatchSlot where
  iteration : Nat
  agentId : Nat
  deriving DecidableEq

inductive GoalLoopAction
  | dispatch (slots : List DispatchSlot)
  | complete
  | pause
  | stuck
  | wait
  | noop
  deriving DecidableEq

structure GoalLoopDecision where
  action : GoalLoopAction
  reasonCode : GoalLoopReasonCode
  deriving DecidableEq

structure GoalLoopInput where
  loopStatus : Option GoalLoopStatus
  dod : GoalDoDSummary
  iteration : Nat
  lastProgressIteration : Nat
  stuckThresholdIterations : Option Nat
  spendCapCents : Option Nat
  spentCents : Nat
  wallClockLimitHours : Option Nat
  loopStartedAt : Option Int
  gracePeriodMinutes : Option Nat
  hasRunInFlight : Bool
  runsInFlight : Nat
  maxConcurrentIterations : Option Nat
  pullRequestsAwaitingMerge : Nat
  workUnavailable : Bool
  workUnreadable : Bool
  candidates : List GoalRoutingCandidate
  now : Int

def msPerHour : Int := 3600000
def msPerMinute : Int := 60000

def resolveMaxConcurrentIterations (raw : Option Nat) : Nat := max 1 (raw.getD 1)

def spendCapReached (spendCapCents : Option Nat) (spentCents : Nat) : Bool :=
  spendCapCents.any fun cap => decide (cap ≤ spentCents)

def wallClockReached (input : GoalLoopInput) : Option (Int × Int) :=
  match input.loopStartedAt, input.wallClockLimitHours with
  | some started, some hours =>
    if 0 < hours ∧ hours * msPerHour ≤ input.now - started then some (input.now - started, hours * msPerHour) else none
  | _, _ => none

def roundRobin (first : GoalRoutingCandidate) (rest : List GoalRoutingCandidate) (iteration : Nat) :
    GoalRoutingCandidate :=
  (first :: rest).get ⟨iteration % (rest.length + 1), Nat.mod_lt _ (Nat.succ_pos _)⟩

def routeSlots (first : GoalRoutingCandidate) (rest : List GoalRoutingCandidate) (iterations : List Nat) :
    GoalLoopDecision :=
  match (first :: rest).find? (·.source = .assigned) with
  | some pinned => ⟨.dispatch (iterations.map (⟨·, pinned.agentId⟩)), .routedAssignedAgent⟩
  | none =>
    ⟨.dispatch (iterations.map fun iteration => ⟨iteration, (roundRobin first rest iteration).agentId⟩),
      if (roundRobin first rest (iterations.headD 0)).source = .scope then .routedScopeFallback
      else .routedRoundRobin⟩

def decideGoalLoop (input : GoalLoopInput) : GoalLoopDecision :=
  if input.loopStatus ≠ some .running then ⟨.noop, .loopNotRunning⟩
  else if input.dod.complete then ⟨.complete, .dodComplete⟩
  else if input.workUnavailable then ⟨.pause, .workUnavailable⟩
  else if input.workUnreadable then ⟨.wait, .workUnreadable⟩
  else if spendCapReached input.spendCapCents input.spentCents then ⟨.pause, .spendCapExceeded⟩
  else
    match wallClockReached input with
    | some (elapsed, limit) =>
      let grace := (input.gracePeriodMinutes.getD 0 : Int) * msPerMinute
      if 0 < grace ∧ input.hasRunInFlight ∧ elapsed < limit + grace then ⟨.wait, .gracePeriod⟩
      else ⟨.pause, .wallClockExceeded⟩
    | none =>
      if input.stuckThresholdIterations.any fun threshold =>
          0 < threshold && (threshold : Int) ≤ (input.iteration : Int) - input.lastProgressIteration then
        ⟨.stuck, .noProgress⟩
      else
        let maxConcurrent := resolveMaxConcurrentIterations input.maxConcurrentIterations
        let taken := input.runsInFlight + input.pullRequestsAwaitingMerge
        if input.runsInFlight < maxConcurrent ∧ maxConcurrent ≤ taken then ⟨.wait, .awaitingMerge⟩
        else if maxConcurrent ≤ input.runsInFlight then ⟨.wait, .runInFlight⟩
        else
          match input.candidates with
          | [] => ⟨.stuck, .noCandidateAgent⟩
          | first :: rest => routeSlots first rest ((range (maxConcurrent - taken)).map (input.iteration + 1 + ·))

theorem routeSlots_dispatches (first : GoalRoutingCandidate) (rest : List GoalRoutingCandidate) (iterations : List Nat) :
    ∃ slots, (routeSlots first rest iterations).action = .dispatch slots ∧ slots.map (·.iteration) = iterations := by
  rw [routeSlots]
  split
  · refine ⟨_, rfl, ?_⟩
    rw [map_map]
    exact map_id _
  · refine ⟨_, rfl, ?_⟩
    rw [map_map]
    exact map_id _

structure Dispatches (input : GoalLoopInput) (slots : List DispatchSlot) : Prop where
  running : input.loopStatus = some .running
  available : input.workUnavailable = false
  readable : input.workUnreadable = false
  underCap : spendCapReached input.spendCapCents input.spentCents = false
  free : slots.length + (input.runsInFlight + input.pullRequestsAwaitingMerge) =
    resolveMaxConcurrentIterations input.maxConcurrentIterations
  some : slots ≠ []
  numbered : slots.map (·.iteration) = (range slots.length).map (input.iteration + 1 + ·)

theorem dispatches_of_decide {input : GoalLoopInput} {slots : List DispatchSlot}
    (decided : (decideGoalLoop input).action = .dispatch slots) : Dispatches input slots := by
  unfold decideGoalLoop at decided
  by_cases idle : input.loopStatus ≠ some .running
  · rw [if_pos idle] at decided
    cases decided
  by_cases complete : input.dod.complete = true
  · rw [if_neg idle, if_pos complete] at decided
    cases decided
  by_cases unavailable : input.workUnavailable = true
  · rw [if_neg idle, if_neg complete, if_pos unavailable] at decided
    cases decided
  by_cases unreadable : input.workUnreadable = true
  · rw [if_neg idle, if_neg complete, if_neg unavailable, if_pos unreadable] at decided
    cases decided
  by_cases cap : spendCapReached input.spendCapCents input.spentCents = true
  · rw [if_neg idle, if_neg complete, if_neg unavailable, if_neg unreadable, if_pos cap] at decided
    cases decided
  rw [if_neg idle, if_neg complete, if_neg unavailable, if_neg unreadable, if_neg cap] at decided
  cases clock : wallClockReached input with
  | some passed =>
    rw [clock] at decided
    dsimp only at decided
    split at decided <;> cases decided
  | none =>
  rw [clock] at decided
  dsimp only at decided
  split at decided
  · cases decided
  split at decided
  · cases decided
  rename_i awaiting
  split at decided
  · cases decided
  rename_i flight
  split at decided
  · cases decided
  rename_i first rest candidates
  obtain ⟨routed, same, numbers⟩ := routeSlots_dispatches first rest
    ((range (resolveMaxConcurrentIterations input.maxConcurrentIterations -
      (input.runsInFlight + input.pullRequestsAwaitingMerge))).map (input.iteration + 1 + ·))
  obtain rfl : routed = slots := GoalLoopAction.dispatch.inj (same.symm.trans decided)
  have length := congrArg length numbers
  rw [length_map, length_map, length_range] at length
  refine ⟨Decidable.not_not.mp idle, eq_false_of_ne_true unavailable, eq_false_of_ne_true unreadable,
    eq_false_of_ne_true cap, by omega, ?_, by rw [numbers, length]⟩
  rintro rfl
  rw [length_nil] at length
  omega

end EverWorks.Goals
