import EverWorks.Sessions.Status

/-!
The row of a session, and what the reports of its machine make of it.
-/

namespace EverWorks.Sessions
open Lib

/-- The evidence of a report, with the report's sequence. -/
structure FleetSessionLastEvidence where
  source : FleetSessionEvidenceSource
  time : Int
  event : FleetSessionEvidenceEvent
  seq : Int
  rule : Option Utf16
  userLine : Option Utf16
  agentLine : Option Utf16
deriving DecidableEq

/-- `session.status` -/
structure FleetSessionStatusMessage where
  seq : Int
  state : FleetSessionState
  outcome : Option FleetSessionOutcome
  stateChangedAt : Int
  lastEvidence : FleetSessionLastEvidence
  boundaryUntil : Option Int
deriving DecidableEq

/-- `session.attention` -/
structure FleetSessionAttentionMessage where
  seq : Int
  attention : Option FleetSessionAttention
  finished : Bool
deriving DecidableEq

inductive FleetSessionMessage where
  | status (message : FleetSessionStatusMessage)
  | attention (message : FleetSessionAttentionMessage)
deriving DecidableEq

/-- The columns of a session that its status writes. -/
structure FleetSession where
  provider : FleetSessionProvider
  state : FleetSessionState
  outcome : Option FleetSessionOutcome
  stateChangedAt : Option Int
  startedAt : Option Int
  lastActivityAt : Option Int
  lastEvidence : Option FleetSessionLastEvidence
  boundaryUntil : Option Int
  attention : Option FleetSessionAttention
deriving DecidableEq

def isFleetSessionLive (state : FleetSessionState) : Bool := state != .ended

/-- The attention to store: the same key keeps when it was raised and acknowledged; a new key replaces the old one. -/
def nextAttention (current reported : Option FleetSessionAttention) : Option FleetSessionAttention :=
  match reported with
  | none => none
  | some reported =>
    match current with
    | some current =>
      if current.key = reported.key then
        some { reported with raisedAt := current.raisedAt, acknowledgedAt := current.acknowledgedAt }
      else some { reported with acknowledgedAt := none }
    | none => some { reported with acknowledgedAt := none }

def applyStatus (now : Int) (message : FleetSessionStatusMessage) (row : FleetSession) : FleetSession :=
  if !isFleetSessionLive row.state then row
  else if row.lastEvidence.any (message.seq ≤ ·.seq) then row
  else if row.provider = .shell ∧ (message.state = .needsYou ∨ message.state = .done) then row
  else
    let moved := message.state ≠ row.state
    { row with
      lastEvidence := some message.lastEvidence
      boundaryUntil := message.boundaryUntil
      lastActivityAt := some now
      state := message.state
      stateChangedAt := if moved then some now else row.stateChangedAt
      startedAt := if moved ∧ row.state = .starting ∧ row.startedAt = none then some now else row.startedAt
      outcome := message.outcome }

def applyAttention (message : FleetSessionAttentionMessage) (row : FleetSession) : FleetSession :=
  if !isFleetSessionLive row.state then row
  else if row.provider = .shell ∧ message.attention.isSome then row
  else { row with attention := nextAttention row.attention message.attention }

def applyMessage (now : Int) (message : FleetSessionMessage) (row : FleetSession) : FleetSession :=
  match message with
  | .status message => applyStatus now message row
  | .attention message => applyAttention message row

theorem nextAttention_flagged {current reported : FleetSessionAttention} (apart : current.key ≠ reported.key) :
    nextAttention (some current) (some reported) = some { reported with acknowledgedAt := none } :=
  if_neg apart

theorem nextAttention_key (current reported : Option FleetSessionAttention) :
    (nextAttention current reported).map (·.key) = reported.map (·.key) := by
  rw [nextAttention.eq_def]
  cases reported with
  | none => rfl
  | some reported =>
    cases current with
    | none => rfl
    | some current =>
      dsimp only
      split <;> rfl

end EverWorks.Sessions

/-!
## What the node reports of a session

One session of the pipeline: evidence is merged as it arrives, what changed is sent while the link is up, and every
connection is told where the session stands.
-/

namespace EverWorks.Sessions
open Lib

/-- A session the pipeline follows. Its report's sequence is 0 until it has reported. -/
structure TrackedSession where
  snapshot : FleetSessionStatusSnapshot
  statusSeq : Int
deriving DecidableEq

structure SessionStatusPipeline where
  tracked : TrackedSession
  lastSeq : Int
  connected : Bool
  sent : List FleetSessionMessage
deriving DecidableEq

def ensureTracked (now : Int) : TrackedSession := ⟨initialFleetSessionStatus now, 0⟩

namespace SessionStatusPipeline

def send (message : FleetSessionMessage) (pipeline : SessionStatusPipeline) : SessionStatusPipeline :=
  if pipeline.connected then { pipeline with sent := pipeline.sent ++ [message] } else pipeline

def nextSeq (now : Int) (pipeline : SessionStatusPipeline) : Int := max (pipeline.lastSeq + 1) now

def writable (snapshot : FleetSessionStatusSnapshot) : Bool :=
  isDateTime snapshot.stateChangedAt && snapshot.lastEvidence.all (isDateTime ·.time) &&
    snapshot.boundaryUntil.all isDateTime

def statusMessage (tracked : TrackedSession) : Option FleetSessionStatusMessage :=
  match tracked.snapshot.lastEvidence with
  | none => none
  | some last =>
    if tracked.snapshot.state = .ended then none
    else some {
      seq := tracked.statusSeq
      state := tracked.snapshot.state
      outcome := tracked.snapshot.outcome
      stateChangedAt := tracked.snapshot.stateChangedAt
      lastEvidence := {
        source := last.source
        time := last.time
        event := last.event
        seq := tracked.statusSeq
        rule := last.rule
        userLine := tracked.snapshot.userLine
        agentLine := tracked.snapshot.agentLine }
      boundaryUntil := tracked.snapshot.boundaryUntil }

def tell (pipeline : SessionStatusPipeline) : SessionStatusPipeline :=
  match statusMessage pipeline.tracked with
  | some message => pipeline.send (.status message)
  | none => pipeline

def sendStatus (now : Int) (pipeline : SessionStatusPipeline) : SessionStatusPipeline :=
  let seq := pipeline.nextSeq now
  tell { pipeline with lastSeq := seq, tracked := { pipeline.tracked with statusSeq := seq } }

def sendAttention (now : Int) (finished : Bool) (pipeline : SessionStatusPipeline) : SessionStatusPipeline :=
  let seq := pipeline.nextSeq now
  send (.attention ⟨seq, pipeline.tracked.snapshot.attention, finished⟩) { pipeline with lastSeq := seq }

/-- A piece of evidence. A status that cannot be written has its sequence, and nothing is sent. -/
def apply (ctx : FleetSessionMergeContext) (now : Int) (evidence : FleetSessionEvidence)
    (pipeline : SessionStatusPipeline) : SessionStatusPipeline :=
  match mergeFleetSessionEvidence pipeline.tracked.snapshot evidence ctx with
  | none => pipeline
  | some result =>
    let pipeline := { pipeline with tracked := { pipeline.tracked with snapshot := result.next } }
    let reports := result.changed || (result.attentionChanged && pipeline.tracked.statusSeq == 0)
    if reports && !writable result.next then
      let seq := pipeline.nextSeq now
      { pipeline with lastSeq := seq, tracked := { pipeline.tracked with statusSeq := seq } }
    else
      let pipeline := if reports then pipeline.sendStatus now else pipeline
      if result.attentionChanged then pipeline.sendAttention now result.finished else pipeline

def resendAll (now : Int) (pipeline : SessionStatusPipeline) : SessionStatusPipeline :=
  if pipeline.tracked.statusSeq = 0 ∨ !writable pipeline.tracked.snapshot then pipeline
  else
    let pipeline := pipeline.tell
    if pipeline.tracked.snapshot.attention.isSome then pipeline.sendAttention now false else pipeline

end SessionStatusPipeline

end EverWorks.Sessions
