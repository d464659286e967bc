import Mathlib.Algebra.Group.Nat.Defs
import EverWorks.Lib.Utf16

/-!
What a piece of evidence makes of a session's state and of the prompt that waits for its owner.
-/

namespace EverWorks.Sessions
open Lib

def FLEET_SESSION_IDLE_AFTER_MS : Int := 30 * 60000

def FLEET_SESSION_PRECEDENCE_GUARD_MS : Int := 10000

def FLEET_SESSION_BOUNDARY_MS : Int := 5000

def FLEET_SESSION_LINE_MAX_CHARS : Nat := 200

def FLEET_SESSION_PROMPT_MAX_CHARS : Nat := 500

def FLEET_SESSION_ATTENTION_MAX_OPTIONS : Nat := 9

def FLEET_SESSION_OPTION_LABEL_MAX_CHARS : Nat := 120

inductive FleetSessionState where
  | starting | working | needsYou | done | idle | ended
deriving DecidableEq

inductive FleetSessionOutcome where
  | success | failure | cancelled | interrupted | unconfirmed
deriving DecidableEq

inductive FleetSessionProvider where
  | shell | claudeCode | codex
  | other (name : Utf16)
deriving DecidableEq

inductive FleetSessionAttentionReason where
  | question | permission | blocked | failed | finished
deriving DecidableEq

inductive FleetSessionEvidenceSource where
  | hook | structured | rules | exit
deriving DecidableEq

inductive FleetSessionEvidenceEvent where
  | sessionStart | prompt | permission | question | stop | idlePrompt | sessionEnd
  | blocked | working | idleWeak
  | activity | interrupt | answered | silence | exit | lost
deriving DecidableEq

def FleetSessionAttentionReason.text : FleetSessionAttentionReason → Utf16
  | question => Utf16.ofString "question"
  | permission => Utf16.ofString "permission"
  | blocked => Utf16.ofString "blocked"
  | failed => Utf16.ofString "failed"
  | finished => Utf16.ofString "finished"

def FleetSessionEvidenceSource.precedence : FleetSessionEvidenceSource → Nat
  | hook => 4
  | structured => 3
  | rules => 2
  | exit => 1

structure FleetSessionAttentionOption where
  id : Utf16
  label : Utf16
  primary : Bool := false
  deny : Bool := false
deriving DecidableEq

structure FleetSessionAttention where
  key : Utf16
  reason : FleetSessionAttentionReason
  prompt : Utf16
  options : List FleetSessionAttentionOption
  raisedAt : Int
  acknowledgedAt : Option Int
  allowsText : Bool := false
  tool : Option Utf16 := none
deriving DecidableEq

/-- A piece of evidence. Its time is in milliseconds, and none where it is no finite number. -/
structure FleetSessionEvidence where
  source : FleetSessionEvidenceSource
  event : FleetSessionEvidenceEvent
  time : Option Int
  promptId : Option Utf16 := none
  prompt : Option Utf16 := none
  options : List FleetSessionAttentionOption := []
  allowsText : Bool := false
  tool : Option Utf16 := none
  userLine : Option Utf16 := none
  agentLine : Option Utf16 := none
  rule : Option Utf16 := none
  confirmOnly : Bool := false
deriving DecidableEq

structure LastEvidence where
  source : FleetSessionEvidenceSource
  event : FleetSessionEvidenceEvent
  time : Int
  rule : Option Utf16
deriving DecidableEq

structure FleetSessionStatusSnapshot where
  state : FleetSessionState
  outcome : Option FleetSessionOutcome
  stateChangedAt : Int
  lastEvidenceAt : Int
  lastEvidence : Option LastEvidence
  stateSource : Option FleetSessionEvidenceSource
  stateSourceAt : Int
  attention : Option FleetSessionAttention
  boundaryUntil : Option Int
  promptSinceStart : Bool
  turn : Nat
  edges : Nat
  userLine : Option Utf16
  agentLine : Option Utf16
deriving DecidableEq

def initialFleetSessionStatus (time : Int) (state : FleetSessionState := .working) : FleetSessionStatusSnapshot where
  state := state
  outcome := none
  stateChangedAt := time
  lastEvidenceAt := time
  lastEvidence := none
  stateSource := none
  stateSourceAt := 0
  attention := none
  boundaryUntil := none
  promptSinceStart := false
  turn := 0
  edges := 0
  userLine := none
  agentLine := none

structure FleetSessionMergeContext where
  sessionId : Utf16
  provider : FleetSessionProvider

structure FleetSessionMergeResult where
  next : FleetSessionStatusSnapshot
  changed : Bool
  attentionChanged : Bool
  guarded : Bool
  finished : Bool

/-- `[\u0000-\u0008\u000b-\u001f\u007f]` -/
def isControl (unit : UInt16) : Bool :=
  unit ≤ 8 || (0x0b ≤ unit && unit ≤ 0x1f) || unit == 0x7f

def boundText (value : Option Utf16) (max : Nat) : Option Utf16 :=
  value.map fun value =>
    let flat := Utf16.trim (value.map fun unit => if isControl unit then 0x20 else unit)
    if max < flat.length then flat.take (max - 1) ++ [0x2026] else flat

/-- `[A-Za-z0-9._-]` -/
def isIdUnit (unit : UInt16) : Bool :=
  (0x41 ≤ unit && unit ≤ 0x5a) || (0x61 ≤ unit && unit ≤ 0x7a) || (0x30 ≤ unit && unit ≤ 0x39) ||
    unit == 0x2e || unit == 0x5f || unit == 0x2d

/-- `^[A-Za-z0-9._-]{1,64}$` -/
def isPromptId (text : Utf16) : Bool :=
  1 ≤ text.length && text.length ≤ 64 && text.all isIdUnit

def parseOption (option : FleetSessionAttentionOption) : Option FleetSessionAttentionOption :=
  if isPromptId option.id then
    match boundText (some option.label) FLEET_SESSION_OPTION_LABEL_MAX_CHARS with
    | some (unit :: rest) => some { option with label := unit :: rest }
    | _ => none
  else none

def fleetSessionAttentionKey (sessionId : Utf16) (reason : FleetSessionAttentionReason) (promptId : Utf16) : Utf16 :=
  let kept := (promptId.filter isIdUnit).take 64
  let id := if kept = [] then [0x30] else kept
  Utf16.ofString "fleet-session:" ++ sessionId ++ 0x3a :: reason.text ++ 0x3a :: id

def increment (count : Nat) : Nat := if count < 2 ^ 53 then count + 1 else count

def edgeId (turn edges : Nat) : Utf16 :=
  0x74 :: Utf16.ofString turn.repr ++ 0x65 :: Utf16.ofString edges.repr

/-- The times that `toISOString` writes. -/
def isDateTime (time : Int) : Bool := -8640000000000000 ≤ time && time ≤ 8640000000000000

def usableId (promptId : Option Utf16) : Option Utf16 := promptId.filter isPromptId

def attentionFor (ctx : FleetSessionMergeContext) (prev : FleetSessionStatusSnapshot)
    (reason : FleetSessionAttentionReason) (evidence : FleetSessionEvidence) (edges : Nat) :
    Option FleetSessionAttention :=
  match evidence.time.filter isDateTime with
  | none => none
  | some time => some {
      key := fleetSessionAttentionKey ctx.sessionId reason
        ((usableId evidence.promptId).getD (edgeId prev.turn edges))
      reason := reason
      prompt := (boundText evidence.prompt FLEET_SESSION_PROMPT_MAX_CHARS).getD []
      options := (evidence.options.filterMap parseOption).take FLEET_SESSION_ATTENTION_MAX_OPTIONS
      raisedAt := time
      acknowledgedAt := none
      allowsText := evidence.allowsText
      tool := (boundText evidence.tool 64).filter (· ≠ []) }

structure Merging where
  next : FleetSessionStatusSnapshot
  changed : Bool := false
  attentionChanged : Bool := false
  finished : Bool := false

def Merging.move (time : Int) (state : FleetSessionState) (merging : Merging) : Merging :=
  if merging.next.state = state then merging
  else { merging with next := { merging.next with state := state, stateChangedAt := time }, changed := true }

def Merging.setOutcome : Option (Option FleetSessionOutcome) → Merging → Merging
  | none, merging => merging
  | some outcome, merging =>
    if merging.next.outcome = outcome then merging
    else { merging with next := { merging.next with outcome := outcome }, changed := true }

def takesGuard (prev : FleetSessionStatusSnapshot) (source : FleetSessionEvidenceSource) : Bool :=
  match prev.stateSource with
  | none => true
  | some holder => holder.precedence ≤ source.precedence

def Merging.setState (prev : FleetSessionStatusSnapshot) (source : FleetSessionEvidenceSource) (time : Int)
    (state : FleetSessionState) (outcome : Option (Option FleetSessionOutcome)) (merging : Merging) : Merging :=
  let moved := merging.next.state ≠ state
  let merging := (merging.move time state).setOutcome outcome
  if moved ∨ takesGuard prev source then
    { merging with next := { merging.next with stateSource := some source, stateSourceAt := time } }
  else merging

def Merging.setAttention (attention : Option FleetSessionAttention) (merging : Merging) : Merging :=
  match merging.next.attention, attention with
  | none, none => merging
  | some current, some reported =>
    if current.key = reported.key then
      let merged := { reported with raisedAt := current.raisedAt, acknowledgedAt := current.acknowledgedAt }
      if merged = current then merging
      else { merging with next := { merging.next with attention := some merged }, attentionChanged := true }
    else { merging with next := { merging.next with attention := some reported }, attentionChanged := true }
  | _, attention => { merging with next := { merging.next with attention := attention }, attentionChanged := true }

def Merging.clearPrompt (merging : Merging) : Merging :=
  if merging.next.attention.isSome then merging.setAttention none else merging

def Merging.finishTurn (ctx : FleetSessionMergeContext) (prev : FleetSessionStatusSnapshot)
    (evidence : FleetSessionEvidence) (line : Utf16) (merging : Merging) : Option Merging :=
  let edges := increment prev.edges
  let evidence := { evidence with prompt := some line, options := [], promptId := none }
  (attentionFor ctx prev .finished evidence edges).map fun attention =>
    Merging.setAttention (some attention)
      { merging with next := { merging.next with edges := edges }, finished := true }

def Merging.raise (ctx : FleetSessionMergeContext) (prev : FleetSessionStatusSnapshot)
    (evidence : FleetSessionEvidence) (time : Int) (reason : FleetSessionAttentionReason) (merging : Merging) :
    Option Merging :=
  let edges := increment prev.edges
  (attentionFor ctx prev reason evidence edges).map fun attention =>
    ({ merging with next := { merging.next with edges := edges } }.setState prev evidence.source time .needsYou
      (some none)).setAttention (some attention)

/-- `permission`, `question` and `blocked`. -/
def Merging.ask (ctx : FleetSessionMergeContext) (prev : FleetSessionStatusSnapshot)
    (evidence : FleetSessionEvidence) (time : Int) (reason : FleetSessionAttentionReason) (merging : Merging) :
    Option Merging :=
  match prev.attention with
  | some shown =>
    if prev.state = .needsYou ∧ shown.reason = reason then
      if evidence.confirmOnly then
        some { merging with next := { merging.next with
          stateSource := prev.stateSource, stateSourceAt := prev.stateSourceAt } }
      else
        match attentionFor ctx prev reason evidence prev.edges with
        | none => none
        | some fresh =>
          let richer := (0 < fresh.options.length ∧ shown.options.length = 0) ∨
            (0 < fresh.prompt.length ∧ shown.prompt.length = 0)
          let samePrompt := fresh.prompt = shown.prompt ∨ fresh.prompt.length = 0
          if richer ∨ samePrompt then
            let merging := if richer then merging.setAttention (some { fresh with key := shown.key }) else merging
            some (merging.setState prev evidence.source time .needsYou none)
          else merging.raise ctx prev evidence time reason
    else merging.raise ctx prev evidence time reason
  | none => merging.raise ctx prev evidence time reason

def nonEmpty (text : Utf16) : Option Utf16 := if text = [] then none else some text

def isFleetSessionBoundaryDone (snapshot : FleetSessionStatusSnapshot) (time : Int) : Bool :=
  !snapshot.promptSinceStart || snapshot.boundaryUntil.any (time ≤ ·)

def transition (ctx : FleetSessionMergeContext) (prev : FleetSessionStatusSnapshot) (evidence : FleetSessionEvidence)
    (time : Int) (merging : Merging) : Option Merging :=
  let userLine := boundText evidence.userLine FLEET_SESSION_LINE_MAX_CHARS
  let agentLine := boundText evidence.agentLine FLEET_SESSION_LINE_MAX_CHARS
  let inBoundary := isFleetSessionBoundaryDone prev time
  let setState := Merging.setState prev evidence.source time
  match evidence.event with
  | .sessionStart =>
    let merging := setState .working (some none) merging
    some { merging with
      next := { merging.next with
        boundaryUntil := some (time + FLEET_SESSION_BOUNDARY_MS), promptSinceStart := false }
      changed := true }.clearPrompt
  | .prompt =>
    let merging := setState .working (some none) merging
    some { merging with
      next := { merging.next with
        promptSinceStart := true
        boundaryUntil := none
        turn := increment prev.turn
        userLine := match userLine with
          | some line => if merging.next.userLine = some line then merging.next.userLine else nonEmpty line
          | none => merging.next.userLine
        agentLine := none }
      changed := true }.clearPrompt
  | .permission => merging.ask ctx prev evidence time .permission
  | .question => merging.ask ctx prev evidence time .question
  | .blocked => merging.ask ctx prev evidence time .blocked
  | .stop =>
    let merging := match agentLine with
      | some line =>
        if nonEmpty line = prev.agentLine then merging
        else { merging with next := { merging.next with agentLine := nonEmpty line }, changed := true }
      | none => merging
    -- a second stop of a turn is no new news
    if prev.state = .done then some merging
    else
      let merging := setState .done (some (some .success)) merging
      if inBoundary then some merging.clearPrompt
      else merging.finishTurn ctx prev evidence ((agentLine.or prev.agentLine).getD [])
  | .idlePrompt =>
    if prev.state = .working then
      let merging := setState .done (some (some .success)) merging
      if inBoundary then some merging.clearPrompt
      else merging.finishTurn ctx prev evidence (prev.agentLine.getD [])
    else some merging
  | .sessionEnd =>
    some (if prev.state = .needsYou then setState .working none merging else merging).clearPrompt
  | .working =>
    if prev.state = .working then some merging
    else some (setState .working (some none) merging).clearPrompt
  | .idleWeak =>
    some (if prev.state = .working ∧ prev.stateSource ≠ some .hook then setState .idle none merging else merging)
  | .activity =>
    some (if prev.state = .idle ∨ prev.state = .starting then setState .working (some none) merging else merging)
  | .interrupt =>
    some (if prev.state = .working ∨ prev.state = .needsYou then
      (setState .done (some (some .interrupted)) merging).clearPrompt else merging)
  | .answered =>
    let merging := merging.clearPrompt
    some (if prev.state = .needsYou then setState .working (some none) merging else merging)
  | .silence =>
    if (prev.state = .working ∨ prev.state = .done ∨ prev.state = .starting) ∧
        FLEET_SESSION_IDLE_AFTER_MS ≤ time - prev.lastEvidenceAt then
      let merging := setState .idle none merging
      some (if merging.next.attention.any (·.reason ≠ .finished) then merging.clearPrompt else merging)
    else some merging
  | .exit | .lost => some merging

def shellTransition (prev : FleetSessionStatusSnapshot) (evidence : FleetSessionEvidence) (time : Int)
    (merging : Merging) : Merging :=
  let setState := Merging.setState prev evidence.source time
  match evidence.event with
  | .activity => if prev.state = .idle ∨ prev.state = .starting then setState .working none merging else merging
  | .silence =>
    if prev.state ≠ .idle ∧ FLEET_SESSION_IDLE_AFTER_MS ≤ time - prev.lastEvidenceAt then
      setState .idle none merging
    else merging
  | _ => merging

def UNGUARDED_EVENTS : List FleetSessionEvidenceEvent := [.interrupt, .answered, .silence]

def isGuarded (prev : FleetSessionStatusSnapshot) (evidence : FleetSessionEvidence) (time : Int) : Bool :=
  evidence.event ∉ UNGUARDED_EVENTS && prev.stateSource.any (evidence.source.precedence < ·.precedence) &&
    time - prev.stateSourceAt < FLEET_SESSION_PRECEDENCE_GUARD_MS

def Merging.finish (evidence : FleetSessionEvidence) (time : Int) (merging : Merging) : FleetSessionMergeResult where
  next :=
    if merging.changed || merging.attentionChanged then
      let rule := evidence.rule.filter (· ≠ [])
      { merging.next with lastEvidence := some ⟨evidence.source, evidence.event, time, rule⟩ }
    else merging.next
  changed := merging.changed
  attentionChanged := merging.attentionChanged
  guarded := false
  finished := merging.finished

def FleetSessionEvidence.happenedAt (evidence : FleetSessionEvidence) (prev : FleetSessionStatusSnapshot) : Int :=
  evidence.time.getD prev.lastEvidenceAt

def idleClock (prev : FleetSessionStatusSnapshot) (evidence : FleetSessionEvidence) : Int :=
  if evidence.event = .silence then prev.lastEvidenceAt else max prev.lastEvidenceAt (evidence.happenedAt prev)

/-- The next snapshot and what changed, or none where the time of a prompt cannot be written. -/
def mergeFleetSessionEvidence (prev : FleetSessionStatusSnapshot) (evidence : FleetSessionEvidence)
    (ctx : FleetSessionMergeContext) : Option FleetSessionMergeResult :=
  let unchanged : FleetSessionMergeResult := ⟨prev, false, false, false, false⟩
  if prev.state = .ended then some unchanged
  else
    let time := evidence.happenedAt prev
    let next := { prev with lastEvidenceAt := idleClock prev evidence }
    if ctx.provider = .shell then
      some ((shellTransition prev evidence time { next := next }).finish evidence time)
    else if isGuarded prev evidence time then some { unchanged with next := next, guarded := true }
    else (transition ctx prev evidence time { next := next }).map (·.finish evidence time)

end EverWorks.Sessions
