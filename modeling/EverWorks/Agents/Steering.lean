import EverWorks.Delegation.Scope

/-!
A run's queue of steering messages is one column of its row. The sender and the executor each read the row and then
write it; either may come between the other's read and write.
-/

namespace EverWorks.Agents
open List

open Lib Delegation

inductive AgentRunStatus where
  | queued | running | completed | failed | cancelled
  deriving DecidableEq

/-- `NON_TERMINAL` -/
def nonTerminal : List AgentRunStatus := [.queued, .running]

/-- The columns of a run's row that steering reads or writes. -/
structure AgentRun where
  status : AgentRunStatus
  pendingInput : Option (List String)
  awaitingInput : Bool
  interruptRequested : Bool
  delegationScope : Option SubAgentScope
  deriving DecidableEq

def AgentRun.queue (run : AgentRun) : List String := run.pendingInput.getD []

def agentReviewRunAllowedTools : List String := ["submitTaskReview"]

def isAgentReviewRunScope (scope : Option SubAgentScope) : Bool :=
  scope.bind (·.allowedTools) = some agentReviewRunAllowedTools

/-- The row, and both methods between their reads and their writes. -/
structure Steering where
  row : AgentRun
  /-- `appendPendingInput` after its read: the queue it read and the message it was given. -/
  appending : Option (List String × String)
  /-- `takeSteeringSignals` after its read: what it will answer. -/
  taking : Option (List String × Bool)
  /-- What the queue held at first, then the messages `appendPendingInput` answered true for. -/
  accepted : List String
  /-- The answers of `takeSteeringSignals`. -/
  taken : List (List String × Bool)
  deriving DecidableEq

inductive SteeringEvent where
  | appendReads (message : String)
  | appendWrites
  | takeReads
  | takeWrites
  /-- The run moves on, asks its human something, or is asked to stop. -/
  | becomes (status : AgentRunStatus)
  | asks
  | interrupt
  deriving DecidableEq

namespace Steering

def start (row : AgentRun) : Steering := ⟨row, none, none, row.queue, []⟩

/-- The read of `appendPendingInput`. One sender, one call at a time. -/
def appendReads (steering : Steering) (message : String) : Steering :=
  if steering.appending.isSome then steering
  else if steering.row.status ∉ nonTerminal then steering
  else if isAgentReviewRunScope steering.row.delegationScope then steering
  else { steering with appending := some (steering.row.queue, message) }

/-- The conditional update of `appendPendingInput`, and its answer. -/
def appendWrites (steering : Steering) : Steering :=
  match steering.appending with
  | none => steering
  | some (queue, message) =>
    if steering.row.status ∈ nonTerminal then
      { steering with
        row := { steering.row with pendingInput := some (queue ++ [message]), awaitingInput := false }
        appending := none
        accepted := steering.accepted ++ [message] }
    else { steering with appending := none }

/-- The read of `takeSteeringSignals`, which answers at once when nothing is queued. -/
def takeReads (steering : Steering) : Steering :=
  if steering.taking.isSome then steering
  else if steering.row.queue = [] then
    { steering with taken := steering.taken ++ [([], steering.row.interruptRequested)] }
  else { steering with taking := some (steering.row.queue, steering.row.interruptRequested) }

/-- The update of `takeSteeringSignals`, and its answer. -/
def takeWrites (steering : Steering) : Steering :=
  match steering.taking with
  | none => steering
  | some answer =>
    { steering with
      row := { steering.row with pendingInput := none }
      taking := none
      taken := steering.taken ++ [answer] }

def step (steering : Steering) : SteeringEvent → Steering
  | .appendReads message => steering.appendReads message
  | .appendWrites => steering.appendWrites
  | .takeReads => steering.takeReads
  | .takeWrites => steering.takeWrites
  | .becomes status => { steering with row := { steering.row with status } }
  | .asks => { steering with row := { steering.row with awaitingInput := true } }
  | .interrupt => { steering with row := { steering.row with interruptRequested := true } }

/-- The messages taken, in the order of the calls, and then those still queued are the accepted ones, each
once and in order. -/
def Kept (steering : Steering) : Prop :=
  (steering.taken.map (·.1)).flatten ++ steering.row.queue = steering.accepted

def FindsWhatItRead (steering : Steering) : SteeringEvent → Prop
  | .appendWrites => ∀ queue message, steering.appending = some (queue, message) →
      steering.row.status ∈ nonTerminal → steering.row.queue = queue
  | .takeWrites => ∀ queue interrupted, steering.taking = some (queue, interrupted) →
      steering.row.queue = queue
  | _ => True

theorem start_kept (row : AgentRun) : (start row).Kept := by
  simp [Kept, start]

variable {steering : Steering}

theorem appendWrites_kept (kept : steering.Kept) :
    steering.appendWrites.Kept ↔ steering.FindsWhatItRead .appendWrites := by
  unfold appendWrites FindsWhatItRead
  cases held : steering.appending with
  | none => simpa using kept
  | some call =>
    obtain ⟨queue, message⟩ := call
    by_cases live : steering.row.status ∈ nonTerminal
    · have written : Kept { steering with
          row := { steering.row with pendingInput := some (queue ++ [message]), awaitingInput := false }
          appending := none
          accepted := steering.accepted ++ [message] } ↔
          (steering.taken.map (·.1)).flatten ++ (queue ++ [message]) = steering.accepted ++ [message] := Iff.rfl
      simp only [live, if_true]
      rw [written, ← kept, ← append_assoc, append_left_inj, append_right_inj]
      constructor
      · intro same _ _ found _
        cases found
        exact same.symm
      · intro finds
        exact (finds queue message rfl trivial).symm
    · simp only [live, if_false]
      exact ⟨fun _ _ _ _ here => here.elim, fun _ => kept⟩

theorem takeWrites_kept (kept : steering.Kept) :
    steering.takeWrites.Kept ↔ steering.FindsWhatItRead .takeWrites := by
  unfold takeWrites FindsWhatItRead
  cases held : steering.taking with
  | none => simpa using kept
  | some answer =>
    obtain ⟨queue, interrupted⟩ := answer
    have written : Kept { steering with
        row := { steering.row with pendingInput := none }
        taking := none
        taken := steering.taken ++ [(queue, interrupted)] } ↔
        (steering.taken.map (·.1)).flatten ++ queue = steering.accepted := by
      simp [Kept, AgentRun.queue]
    simp only []
    rw [written, ← kept, append_right_inj]
    constructor
    · intro same _ _ found
      cases found
      exact same.symm
    · intro finds
      exact (finds queue interrupted rfl).symm

theorem step_kept (kept : steering.Kept) (event : SteeringEvent) :
    (steering.step event).Kept ↔ steering.FindsWhatItRead event := by
  cases event with
  | appendReads message =>
    refine iff_of_true ?_ trivial
    unfold step appendReads
    split_ifs <;> exact kept
  | appendWrites => exact appendWrites_kept kept
  | takeReads =>
    refine iff_of_true ?_ trivial
    unfold step takeReads
    split_ifs
    · exact kept
    · simpa [Kept] using kept
    · exact kept
  | takeWrites => exact takeWrites_kept kept
  | becomes status => exact iff_of_true kept trivial
  | asks => exact iff_of_true kept trivial
  | interrupt => exact iff_of_true kept trivial

end Steering

open Steering

/-- Over every interleaving, no message is lost, returned twice or out of order at any point exactly if
every write finds the queue its read found. -/
theorem steering_kept (row : AgentRun) (events : List SteeringEvent) :
    (∀ first, first <+: events → (run Steering.step (start row) first).Kept) ↔
      Along Steering.step FindsWhatItRead (start row) events := by
  have steps : ∀ (steering : Steering) (event : SteeringEvent), steering.Kept →
      ((steering.step event).Kept ↔ steering.FindsWhatItRead event) :=
    fun _ event kept => step_kept kept event
  exact initial_iff_along steps (start_kept row)

/-- A message comes between the executor's read and its write, and is gone. -/
theorem message_lost :
    ¬ (run Steering.step (start ⟨.running, some ["first"], false, false, none⟩)
      [.takeReads, .appendReads "second", .appendWrites, .takeWrites]).Kept := by
  unfold Kept
  decide

end EverWorks.Agents
