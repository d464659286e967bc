import EverWorks.Sessions.Status
import Mathlib.Logic.Relation

/-!
# What a merge can do

Each write of a merge by the fields it leaves alone, and from them what one piece of evidence makes of a snapshot.
-/

namespace EverWorks.Sessions
open Lib Option

section
variable {ctx : FleetSessionMergeContext} {prev : FleetSessionStatusSnapshot} {evidence : FleetSessionEvidence}
  {source : FleetSessionEvidenceSource} {time : Int} {state : FleetSessionState}
  {outcome : Option (Option FleetSessionOutcome)} {attention : Option FleetSessionAttention} {merging : Merging}

/-! ## A state that is set -/

structure SameStory (before after : Merging) : Prop where
  attention : after.next.attention = before.next.attention
  boundaryUntil : after.next.boundaryUntil = before.next.boundaryUntil
  promptSinceStart : after.next.promptSinceStart = before.next.promptSinceStart
  turn : after.next.turn = before.next.turn
  edges : after.next.edges = before.next.edges
  lastEvidenceAt : after.next.lastEvidenceAt = before.next.lastEvidenceAt
  lastEvidence : after.next.lastEvidence = before.next.lastEvidence
  attentionChanged : after.attentionChanged = before.attentionChanged
  finished : after.finished = before.finished

theorem SameStory.refl (merging : Merging) : SameStory merging merging :=
  ⟨rfl, rfl, rfl, rfl, rfl, rfl, rfl, rfl, rfl⟩

theorem SameStory.trans {a b c : Merging} (first : SameStory a b) (second : SameStory b c) : SameStory a c :=
  ⟨second.1.trans first.1, second.2.trans first.2, second.3.trans first.3, second.4.trans first.4,
    second.5.trans first.5, second.6.trans first.6, second.7.trans first.7, second.8.trans first.8,
    second.9.trans first.9⟩

theorem move_story : SameStory merging (merging.move time state) := by
  rw [Merging.move]
  split
  · exact .refl merging
  · exact ⟨rfl, rfl, rfl, rfl, rfl, rfl, rfl, rfl, rfl⟩

theorem setOutcome_story : SameStory merging (merging.setOutcome outcome) := by
  cases outcome with
  | none => exact .refl merging
  | some outcome =>
    rw [Merging.setOutcome]
    split
    · exact .refl merging
    · exact ⟨rfl, rfl, rfl, rfl, rfl, rfl, rfl, rfl, rfl⟩

theorem setState_story : SameStory merging (merging.setState prev source time state outcome) := by
  have outcomes : SameStory merging ((merging.move time state).setOutcome outcome) := move_story.trans setOutcome_story
  rw [Merging.setState]
  dsimp only
  split
  · exact outcomes.trans ⟨rfl, rfl, rfl, rfl, rfl, rfl, rfl, rfl, rfl⟩
  · exact outcomes

@[simp] theorem setState_attention :
    (merging.setState prev source time state outcome).next.attention = merging.next.attention :=
  SameStory.attention setState_story

@[simp] theorem setState_boundaryUntil :
    (merging.setState prev source time state outcome).next.boundaryUntil = merging.next.boundaryUntil :=
  SameStory.boundaryUntil setState_story

@[simp] theorem setState_promptSinceStart :
    (merging.setState prev source time state outcome).next.promptSinceStart = merging.next.promptSinceStart :=
  SameStory.promptSinceStart setState_story

@[simp] theorem setState_turn :
    (merging.setState prev source time state outcome).next.turn = merging.next.turn :=
  SameStory.turn setState_story

@[simp] theorem setState_edges :
    (merging.setState prev source time state outcome).next.edges = merging.next.edges :=
  SameStory.edges setState_story

@[simp] theorem setState_lastEvidenceAt :
    (merging.setState prev source time state outcome).next.lastEvidenceAt = merging.next.lastEvidenceAt :=
  SameStory.lastEvidenceAt setState_story

@[simp] theorem setState_finished :
    (merging.setState prev source time state outcome).finished = merging.finished :=
  SameStory.finished setState_story

@[simp] theorem setState_attentionChanged :
    (merging.setState prev source time state outcome).attentionChanged = merging.attentionChanged :=
  SameStory.attentionChanged setState_story

@[simp] theorem move_state : (merging.move time state).next.state = state := by
  rw [Merging.move]
  split
  · assumption
  · rfl

@[simp] theorem setOutcome_state : (merging.setOutcome outcome).next.state = merging.next.state := by
  cases outcome with
  | none => rfl
  | some outcome =>
    rw [Merging.setOutcome]
    split <;> rfl

@[simp] theorem setState_state : (merging.setState prev source time state outcome).next.state = state := by
  rw [Merging.setState]
  dsimp only
  split <;> simp

/-- A source that sets a state is noted, unless it only confirms the state of a higher one. -/
theorem setState_source :
    ((merging.setState prev source time state outcome).next.stateSource = some source ∧
      (merging.setState prev source time state outcome).next.stateSourceAt = time) ∨
    (merging.next.state = state ∧
      (merging.setState prev source time state outcome).next.stateSource = merging.next.stateSource ∧
      (merging.setState prev source time state outcome).next.stateSourceAt = merging.next.stateSourceAt) := by
  rw [Merging.setState]
  dsimp only
  split
  · exact .inl ⟨rfl, rfl⟩
  · rename_i neither
    have stayed : merging.next.state = state := by
      by_contra moved
      exact neither (.inl moved)
    have fixed : merging.move time state = merging := by rw [Merging.move, if_pos stayed]
    refine .inr ⟨stayed, ?_⟩
    rw [fixed]
    cases outcome with
    | none => exact ⟨rfl, rfl⟩
    | some outcome =>
      rw [Merging.setOutcome]
      split <;> exact ⟨rfl, rfl⟩

/-! ## An attention that is set -/

structure SameState (before after : Merging) : Prop where
  state : after.next.state = before.next.state
  outcome : after.next.outcome = before.next.outcome
  stateSource : after.next.stateSource = before.next.stateSource
  stateSourceAt : after.next.stateSourceAt = before.next.stateSourceAt
  boundaryUntil : after.next.boundaryUntil = before.next.boundaryUntil
  promptSinceStart : after.next.promptSinceStart = before.next.promptSinceStart
  turn : after.next.turn = before.next.turn
  edges : after.next.edges = before.next.edges
  lastEvidenceAt : after.next.lastEvidenceAt = before.next.lastEvidenceAt
  lastEvidence : after.next.lastEvidence = before.next.lastEvidence
  changed : after.changed = before.changed
  finished : after.finished = before.finished

theorem SameState.refl (merging : Merging) : SameState merging merging :=
  ⟨rfl, rfl, rfl, rfl, rfl, rfl, rfl, rfl, rfl, rfl, rfl, rfl⟩

theorem setAttention_keeps : SameState merging (merging.setAttention attention) := by
  rw [Merging.setAttention.eq_def]
  cases shown : merging.next.attention <;> cases attention <;> dsimp only
  case none.none => exact .refl merging
  case some.some =>
    split
    · split
      · exact .refl merging
      · exact ⟨rfl, rfl, rfl, rfl, rfl, rfl, rfl, rfl, rfl, rfl, rfl, rfl⟩
    · exact ⟨rfl, rfl, rfl, rfl, rfl, rfl, rfl, rfl, rfl, rfl, rfl, rfl⟩
  all_goals exact ⟨rfl, rfl, rfl, rfl, rfl, rfl, rfl, rfl, rfl, rfl, rfl, rfl⟩

theorem clearPrompt_keeps : SameState merging merging.clearPrompt := by
  rw [Merging.clearPrompt]
  split
  · exact setAttention_keeps
  · exact .refl merging

theorem setAttention_shows : (merging.setAttention attention).next.attention.map (fun a => (a.key, a.reason)) =
    attention.map fun a => (a.key, a.reason) := by
  rw [Merging.setAttention.eq_def]
  cases shown : merging.next.attention <;> cases attention <;> dsimp only
  case none.none => rw [shown]
  case some.some =>
    split
    · split
      · rename_i same unchanged
        rw [shown, ← unchanged]
        rfl
      · rfl
    · rfl

@[simp] theorem clearPrompt_attention : merging.clearPrompt.next.attention = none := by
  rw [Merging.clearPrompt]
  split
  · exact map_eq_none_iff.mp setAttention_shows
  · rename_i absent
    simpa using absent

/-! ## Edges -/

/-- Reasons that put a session in `needs_you`. -/
def FleetSessionAttentionReason.waits (reason : FleetSessionAttentionReason) : Bool := reason != .finished

def FleetSessionStatusSnapshot.waits (snapshot : FleetSessionStatusSnapshot) : Bool :=
  snapshot.attention.any (·.reason.waits)

variable {snapshot : FleetSessionStatusSnapshot}

theorem waits_of_reason (reason : FleetSessionAttentionReason)
    (shown : snapshot.attention.map (·.reason) = some reason) : snapshot.waits = reason.waits := by
  obtain ⟨attention, found, rfl⟩ := map_eq_some_iff.mp shown
  rw [FleetSessionStatusSnapshot.waits, found, any_some]

theorem waits_of_none (nothing : snapshot.attention = none) :
    snapshot.waits = false := by
  rw [FleetSessionStatusSnapshot.waits, nothing, any_none]

variable {reason : FleetSessionAttentionReason}

theorem attentionFor_reason {edges : Nat} {raised : FleetSessionAttention}
    (written : attentionFor ctx prev reason evidence edges = some raised) : raised.reason = reason := by
  rw [attentionFor] at written
  split at written
  · cases written
  · rw [← some.inj written]

theorem setAttention_reason :
    (merging.setAttention attention).next.attention.map (·.reason) = attention.map (·.reason) := by
  have shows : (merging.setAttention attention).next.attention.map (fun a => (a.key, a.reason)) = _ :=
    setAttention_shows
  replace shows := congrArg (Option.map Prod.snd) shows
  rw [Option.map_map, Option.map_map] at shows
  exact shows

theorem setAttention_key :
    (merging.setAttention attention).next.attention.map (·.key) = attention.map (·.key) := by
  have shows : (merging.setAttention attention).next.attention.map (fun a => (a.key, a.reason)) = _ :=
    setAttention_shows
  replace shows := congrArg (Option.map Prod.fst) shows
  rw [Option.map_map, Option.map_map] at shows
  exact shows

variable {merged : Merging}

theorem finishTurn_shows {line : Utf16}
    (finished : merging.finishTurn ctx prev evidence line = some merged) :
    merged.next.state = merging.next.state ∧ merged.next.attention.map (·.reason) = some .finished := by
  obtain ⟨raised, written, rfl⟩ := map_eq_some_iff.mp finished
  refine ⟨setAttention_keeps.state, ?_⟩
  rw [setAttention_reason, map_some, attentionFor_reason written]

theorem raise_shows
    (raised : merging.raise ctx prev evidence time reason = some merged) :
    merged.next.state = .needsYou ∧ merged.next.attention.map (·.reason) = some reason := by
  obtain ⟨attention, written, rfl⟩ := map_eq_some_iff.mp raised
  refine ⟨setAttention_keeps.state.trans setState_state, ?_⟩
  rw [setAttention_reason, map_some, attentionFor_reason written]

theorem ask_cases
    (asked : merging.ask ctx prev evidence time reason = some merged) :
    merging.raise ctx prev evidence time reason = some merged ∨
    prev.state = .needsYou ∧ ∃ shown, prev.attention = some shown ∧ shown.reason = reason ∧
      (merged = { merging with next := { merging.next with
          stateSource := prev.stateSource, stateSourceAt := prev.stateSourceAt } } ∨
        merged = merging.setState prev evidence.source time .needsYou none ∨
        ∃ fresh : FleetSessionAttention, fresh.reason = reason ∧ merged =
          (merging.setAttention (some { fresh with key := shown.key })).setState prev evidence.source time
            .needsYou none) := by
  rw [Merging.ask.eq_def] at asked
  split at asked
  · rename_i shown there
    split at asked
    · rename_i waiting
      split at asked
      · exact .inr ⟨waiting.1, shown, there, waiting.2, .inl (some.inj asked).symm⟩
      · split at asked
        · cases asked
        · rename_i fresh written
          dsimp only at asked
          split at asked
          · refine .inr ⟨waiting.1, shown, there, waiting.2, .inr ?_⟩
            split at asked
            · exact .inr ⟨fresh, attentionFor_reason written, (some.inj asked).symm⟩
            · exact .inl (some.inj asked).symm
          · exact .inl asked
    · exact .inl asked
  · exact .inl asked

/-! ## One transition -/

def Asks (snapshot : FleetSessionStatusSnapshot) : Prop := snapshot.state = .needsYou ↔ snapshot.waits = true

theorem asks_of_none (state : snapshot.state ≠ .needsYou)
    (nothing : snapshot.attention = none) : Asks snapshot := by
  rw [Asks, waits_of_none nothing]
  exact ⟨fun waits => absurd waits state, nofun⟩

theorem asks_of_reason
    (state : snapshot.state = .needsYou ↔ reason.waits = true)
    (shown : snapshot.attention.map (·.reason) = some reason) : Asks snapshot := by
  rw [Asks, waits_of_reason reason shown]
  exact state

theorem asks_of_same {before after : FleetSessionStatusSnapshot} (asks : Asks before)
    (state : before.state = .needsYou ↔ after.state = .needsYou) (attention : after.attention = before.attention) :
    Asks after := by
  rw [Asks, FleetSessionStatusSnapshot.waits, attention, ← state]
  exact asks

theorem ask_asks {clock : Int} (waits : reason.waits = true)
    (asked : Merging.ask ctx prev evidence time reason { next := { prev with lastEvidenceAt := clock } } =
      some merged) : merged.next.state = .needsYou ∧ merged.next.waits = true := by
  rcases ask_cases asked with raised | ⟨needs, shown, there, same, rfl | rfl | ⟨fresh, again, rfl⟩⟩
  · obtain ⟨state, reason⟩ := raise_shows raised
    exact ⟨state, (waits_of_reason _ reason).trans waits⟩
  · refine ⟨needs, (waits_of_reason reason ?_).trans waits⟩
    rw [there, map_some, same]
  · refine ⟨setState_state, (waits_of_reason reason ?_).trans waits⟩
    rw [setState_attention, there, map_some, same]
  · refine ⟨setState_state, (waits_of_reason reason ?_).trans waits⟩
    rw [setState_attention, setAttention_reason, map_some, ← again]

theorem transition_asks {clock : Int} (asks : Asks prev)
    (moved : transition ctx prev evidence time { next := { prev with lastEvidenceAt := clock } } = some merged) :
    Asks merged.next := by
  have open' {reason : FleetSessionAttentionReason} (waits : reason.waits = true)
      (asked : Merging.ask ctx prev evidence time reason { next := { prev with lastEvidenceAt := clock } } =
        some merged) : Asks merged.next := by
    obtain ⟨state, shown⟩ := ask_asks waits asked
    exact ⟨fun _ => shown, fun _ => state⟩
  have unasked (other : prev.state ≠ .needsYou) : prev.waits = false := by
    rw [← Bool.not_eq_true]
    exact fun waits => other (asks.mpr waits)
  rw [transition.eq_def] at moved
  dsimp only at moved
  cases event : evidence.event <;> rw [event] at moved <;> dsimp only at moved
  case sessionStart =>
    rw [← some.inj moved]
    refine asks_of_none ?_ clearPrompt_attention
    rw [clearPrompt_keeps.state]
    simp
  case prompt =>
    rw [← some.inj moved]
    refine asks_of_none ?_ clearPrompt_attention
    rw [clearPrompt_keeps.state]
    simp
  case permission => exact open' rfl moved
  case question => exact open' rfl moved
  case blocked => exact open' rfl moved
  case stop =>
    split at moved
    · rename_i already
      rw [← some.inj moved]
      split
      · split <;> exact asks
      · exact asks
    · split at moved
      · rw [← some.inj moved]
        refine asks_of_none ?_ clearPrompt_attention
        rw [clearPrompt_keeps.state]
        simp
      · obtain ⟨state, shown⟩ := finishTurn_shows moved
        refine asks_of_reason ?_ shown
        rw [state, setState_state]
        decide
  case idlePrompt =>
    split at moved
    · split at moved
      · rw [← some.inj moved]
        refine asks_of_none ?_ clearPrompt_attention
        rw [clearPrompt_keeps.state]
        simp
      · obtain ⟨state, shown⟩ := finishTurn_shows moved
        refine asks_of_reason ?_ shown
        rw [state, setState_state]
        decide
    · rw [← some.inj moved]
      exact asks
  case sessionEnd =>
    rw [← some.inj moved]
    refine asks_of_none ?_ clearPrompt_attention
    rw [clearPrompt_keeps.state]
    split
    · simp
    · assumption
  case working =>
    split at moved
    · rw [← some.inj moved]
      exact asks
    · rw [← some.inj moved]
      refine asks_of_none ?_ clearPrompt_attention
      rw [clearPrompt_keeps.state]
      simp
  case idleWeak =>
    rw [← some.inj moved]
    split
    · rename_i worked
      refine asks_of_same asks ?_ setState_attention
      rw [worked.1, setState_state]
      decide
    · exact asks
  case activity =>
    rw [← some.inj moved]
    split
    · rename_i quiet
      refine asks_of_same asks ?_ setState_attention
      rw [setState_state]
      rcases quiet with quiet | quiet <;> rw [quiet] <;> decide
    · exact asks
  case interrupt =>
    rw [← some.inj moved]
    split
    · refine asks_of_none ?_ clearPrompt_attention
      rw [clearPrompt_keeps.state]
      simp
    · exact asks
  case answered =>
    rw [← some.inj moved]
    split
    · refine asks_of_none ?_ ?_
      · simp
      · rw [setState_attention, clearPrompt_attention]
    · rename_i other
      refine asks_of_none ?_ clearPrompt_attention
      rw [clearPrompt_keeps.state]
      exact other
  case silence =>
    split at moved
    · rename_i quiet
      rw [← some.inj moved]
      have silent := unasked (by rcases quiet.1 with working | done | starting <;> simp [*])
      have still : (Merging.setState prev evidence.source time .idle none
          { next := { prev with lastEvidenceAt := clock } }).next.waits = false := by
        rw [FleetSessionStatusSnapshot.waits, setState_attention]
        exact silent
      split
      · refine asks_of_none ?_ clearPrompt_attention
        rw [clearPrompt_keeps.state]
        simp
      · rw [Asks, still, setState_state]
        decide
    · rw [← some.inj moved]
      exact asks
  case exit =>
    rw [← some.inj moved]
    exact asks
  case lost =>
    rw [← some.inj moved]
    exact asks

/-! ## What a transition writes -/

def MayEnter (prev : FleetSessionStatusSnapshot) (evidence : FleetSessionEvidence) (time : Int) :
    FleetSessionState → Prop
  | .done => evidence.event = .stop ∨ evidence.event = .idlePrompt ∨ evidence.event = .interrupt
  | .idle => evidence.event = .silence → FLEET_SESSION_IDLE_AFTER_MS ≤ time - prev.lastEvidenceAt
  | .starting | .ended => False
  | .working | .needsYou => True

inductive Write (prev : FleetSessionStatusSnapshot) (evidence : FleetSessionEvidence) (time : Int) :
    Merging → Merging → Prop where
  | setState (merging : Merging) (state : FleetSessionState) (outcome : Option (Option FleetSessionOutcome))
      (may : MayEnter prev evidence time state) :
      Write prev evidence time merging (merging.setState prev evidence.source time state outcome)
  | setAttention (merging : Merging) (attention : Option FleetSessionAttention) :
      Write prev evidence time merging (merging.setAttention attention)
  | count (merging : Merging) :
      Write prev evidence time merging { merging with next := { merging.next with edges := increment prev.edges } }
  | finish (merging : Merging) (news : isFleetSessionBoundaryDone prev time = false) :
      Write prev evidence time merging
        { merging with next := { merging.next with edges := increment prev.edges }, finished := true }
  | speak (merging : Merging) (line : Option Utf16) :
      Write prev evidence time merging { merging with next := { merging.next with agentLine := line }, changed := true }

abbrev Writes (prev : FleetSessionStatusSnapshot) (evidence : FleetSessionEvidence) (time : Int) :
    Merging → Merging → Prop :=
  Relation.ReflTransGen (Write prev evidence time)

theorem setState_writes (may : MayEnter prev evidence time state) : Writes prev evidence time merging
    (merging.setState prev evidence.source time state outcome) :=
  .single (.setState merging state outcome may)

theorem working_writes : Writes prev evidence time merging
    (merging.setState prev evidence.source time .working outcome) :=
  setState_writes trivial

theorem needsYou_writes : Writes prev evidence time merging
    (merging.setState prev evidence.source time .needsYou outcome) :=
  setState_writes trivial

theorem done_writes (ends : MayEnter prev evidence time .done) : Writes prev evidence time merging
    (merging.setState prev evidence.source time .done outcome) :=
  setState_writes ends

theorem idle_writes (quiet : MayEnter prev evidence time .idle) : Writes prev evidence time merging
    (merging.setState prev evidence.source time .idle outcome) :=
  setState_writes quiet

theorem clearPrompt_writes : Writes prev evidence time merging merging.clearPrompt := by
  rw [Merging.clearPrompt]
  split
  · exact .single (.setAttention merging none)
  · exact .refl

theorem finishTurn_writes {line : Utf16} (news : isFleetSessionBoundaryDone prev time = false)
    (finished : merging.finishTurn ctx prev evidence line = some merged) :
    Writes prev evidence time merging merged := by
  obtain ⟨raised, written, rfl⟩ := map_eq_some_iff.mp finished
  exact (Relation.ReflTransGen.single (.finish merging news)).tail (.setAttention _ (some raised))

theorem ask_writes (same : merging.next.stateSource =
      prev.stateSource) (sameAt : merging.next.stateSourceAt = prev.stateSourceAt)
    (asked : merging.ask ctx prev evidence time reason = some merged) : Writes prev evidence time merging merged := by
  rcases ask_cases asked with raised | ⟨_, shown, _, _, rfl | rfl | ⟨fresh, _, rfl⟩⟩
  · obtain ⟨attention, written, rfl⟩ := map_eq_some_iff.mp raised
    exact ((Relation.ReflTransGen.single (.count merging)).tail
      (.setState _ _ _ trivial)).tail (.setAttention _ (some attention))
  · rw [← same, ← sameAt]
  · exact needsYou_writes
  · exact (Relation.ReflTransGen.single (.setAttention merging _)).tail (.setState _ _ _ trivial)

/-- What a stop leaves of the agent's last line. -/
def speaks (prev : FleetSessionStatusSnapshot) (merging : Merging) : Option Utf16 → Merging
  | some line =>
    if nonEmpty line = prev.agentLine then merging
    else { merging with next := { merging.next with agentLine := nonEmpty line }, changed := true }
  | none => merging

theorem speaks_writes (line : Option Utf16) : Writes prev evidence time merging (speaks prev merging line) := by
  cases line with
  | none => exact .refl
  | some line =>
    rw [speaks]
    split
    · exact .refl
    · exact .single (.speak merging _)

theorem transition_writes (same : merging.next.stateSource = prev.stateSource)
    (sameAt : merging.next.stateSourceAt = prev.stateSourceAt) (started : evidence.event ≠ .sessionStart)
    (prompted : evidence.event ≠ .prompt) (moved : transition ctx prev evidence time merging = some merged) :
    Writes prev evidence time merging merged := by
  rw [transition.eq_def] at moved
  dsimp only at moved
  cases event : evidence.event <;> rw [event] at moved <;> dsimp only at moved
  case sessionStart => exact absurd event started
  case prompt => exact absurd event prompted
  case permission => exact ask_writes same sameAt moved
  case question => exact ask_writes same sameAt moved
  case blocked => exact ask_writes same sameAt moved
  case stop =>
    have spoken : Writes prev evidence time merging
        (speaks prev merging (boundText evidence.agentLine FLEET_SESSION_LINE_MAX_CHARS)) := speaks_writes _
    split at moved
    · rw [← some.inj moved]
      exact spoken
    · split at moved
      · rw [← some.inj moved]
        exact (spoken.trans (done_writes (.inl event))).trans clearPrompt_writes
      · rename_i news
        exact (spoken.trans (done_writes (.inl event))).trans
          (finishTurn_writes (Bool.eq_false_iff.mpr news) moved)
  case idlePrompt =>
    split at moved
    · split at moved
      · rw [← some.inj moved]
        exact (done_writes (.inr (.inl event))).trans clearPrompt_writes
      · rename_i news
        exact (done_writes (.inr (.inl event))).trans (finishTurn_writes (Bool.eq_false_iff.mpr news) moved)
    · rw [← some.inj moved]
  case working =>
    split at moved
    · rw [← some.inj moved]
    · rw [← some.inj moved]
      exact working_writes.trans clearPrompt_writes
  case silence =>
    split at moved
    · rename_i quiet
      rw [← some.inj moved]
      split
      · exact (idle_writes fun _ => quiet.2).trans clearPrompt_writes
      · exact idle_writes fun _ => quiet.2
    · rw [← some.inj moved]
  case answered =>
    rw [← some.inj moved]
    split
    · exact clearPrompt_writes.trans working_writes
    · exact clearPrompt_writes
  case sessionEnd =>
    rw [← some.inj moved]
    split
    · exact working_writes.trans clearPrompt_writes
    · exact clearPrompt_writes
  case interrupt =>
    rw [← some.inj moved]
    split
    · exact (done_writes (.inr (.inr event))).trans clearPrompt_writes
    · exact .refl
  case idleWeak =>
    rw [← some.inj moved]
    split
    · exact idle_writes fun silent => absurd (event.symm.trans silent) (by decide)
    · exact .refl
  case activity =>
    rw [← some.inj moved]
    split
    · exact working_writes
    · exact .refl
  case exit => rw [← some.inj moved]
  case lost => rw [← some.inj moved]

theorem transition_begins (event : evidence.event = .sessionStart ∨ evidence.event = .prompt)
    (moved : transition ctx prev evidence time merging = some merged) :
    ∃ told : Merging, merged = told.clearPrompt ∧ told.changed = true ∧
      told.next.state = .working ∧ told.next.lastEvidenceAt = merging.next.lastEvidenceAt ∧
      told.finished = merging.finished ∧ told.next.edges = merging.next.edges ∧
      told.next.stateSource = (merging.setState prev evidence.source time .working (some none)).next.stateSource ∧
      told.next.stateSourceAt = (merging.setState prev evidence.source time .working (some none)).next.stateSourceAt ∧
      (evidence.event = .sessionStart ∧ told.next.promptSinceStart = false ∧ told.next.turn = merging.next.turn ∨
        evidence.event = .prompt ∧ told.next.promptSinceStart = true ∧ told.next.boundaryUntil = none ∧
          told.next.turn = increment prev.turn) := by
  rw [transition.eq_def] at moved
  dsimp only at moved
  rcases event with event | event <;> rw [event] at moved <;> dsimp only at moved
  · refine ⟨_, (some.inj moved).symm, rfl, ?_, ?_, ?_, ?_, rfl, rfl, .inl ⟨event, rfl, ?_⟩⟩ <;> simp
  · refine ⟨_, (some.inj moved).symm, rfl, ?_, ?_, ?_, ?_, rfl, rfl, .inr ⟨event, rfl, rfl, rfl⟩⟩ <;> simp

/-! ## What writes leave alone -/

structure SameTurn (before after : Merging) : Prop where
  boundaryUntil : after.next.boundaryUntil = before.next.boundaryUntil
  promptSinceStart : after.next.promptSinceStart = before.next.promptSinceStart
  turn : after.next.turn = before.next.turn
  lastEvidenceAt : after.next.lastEvidenceAt = before.next.lastEvidenceAt
  lastEvidence : after.next.lastEvidence = before.next.lastEvidence

variable {before after : Merging}

theorem Writes.turn (writes : Writes prev evidence time before after) :
    SameTurn before after := by
  induction writes with
  | refl => exact ⟨rfl, rfl, rfl, rfl, rfl⟩
  | tail _ write same =>
    cases write with
    | setState state outcome may =>
      exact ⟨by simp [same.1], by simp [same.2], by simp [same.3], by simp [same.4],
        setState_story.lastEvidence.trans same.5⟩
    | setAttention attention =>
      exact ⟨setAttention_keeps.boundaryUntil.trans same.1, setAttention_keeps.promptSinceStart.trans same.2,
        setAttention_keeps.turn.trans same.3, setAttention_keeps.lastEvidenceAt.trans same.4,
        setAttention_keeps.lastEvidence.trans same.5⟩
    | count => exact ⟨same.1, same.2, same.3, same.4, same.5⟩
    | finish news => exact ⟨same.1, same.2, same.3, same.4, same.5⟩
    | speak line => exact ⟨same.1, same.2, same.3, same.4, same.5⟩

/-- A state that a merge leaves is the one it found, or one that the evidence may set. -/
theorem Writes.enters (writes : Writes prev evidence time before after) :
    after.next.state = before.next.state ∨ MayEnter prev evidence time after.next.state := by
  induction writes with
  | refl => exact .inl rfl
  | tail _ write entered =>
    cases write with
    | setState state outcome may =>
      rw [setState_state]
      exact .inr may
    | setAttention attention =>
      rw [setAttention_keeps.state]
      exact entered
    | count => exact entered
    | finish news => exact entered
    | speak line => exact entered

theorem Writes.news (writes : Writes prev evidence time before after)
    (unsaid : before.finished = false) :
    after.finished = true → isFleetSessionBoundaryDone prev time = false := by
  induction writes with
  | refl => exact fun said => absurd (unsaid.symm.trans said) Bool.false_ne_true
  | tail _ write news =>
    cases write with
    | setState state outcome may =>
      rw [setState_finished]
      exact news
    | setAttention attention =>
      rw [setAttention_keeps.finished]
      exact news
    | count => exact news
    | finish outside => exact fun _ => outside
    | speak line => exact news

/-- Who set the state is as before, and then the state too, or it is the evidence's own source. -/
theorem Writes.setBy (writes : Writes prev evidence time before after) :
    (after.next.state = before.next.state ∧ after.next.stateSource = before.next.stateSource ∧
      after.next.stateSourceAt = before.next.stateSourceAt) ∨
    (after.next.stateSource = some evidence.source ∧ after.next.stateSourceAt = time) := by
  induction writes with
  | refl => exact .inl ⟨rfl, rfl, rfl⟩
  | tail _ write held =>
    cases write with
    | setState state outcome may =>
      rcases setState_source with own | ⟨stayed, same, sameAt⟩
      · exact .inr own
      · rw [same, sameAt, setState_state, ← stayed]
        exact held
    | setAttention attention =>
      rw [setAttention_keeps.state, setAttention_keeps.stateSource, setAttention_keeps.stateSourceAt]
      exact held
    | count => exact held
    | finish news => exact held
    | speak line => exact held

theorem setState_unchanged (unchanged : (merging.setState prev source time state outcome).changed = false) :
    merging.changed = false ∧
      (merging.setState prev source time state outcome).next.state = merging.next.state ∧
      (merging.setState prev source time state outcome).next.outcome = merging.next.outcome := by
  have moves : (merging.setState prev source time state outcome).changed =
      ((merging.move time state).setOutcome outcome).changed ∧
      (merging.setState prev source time state outcome).next.outcome =
        ((merging.move time state).setOutcome outcome).next.outcome := by
    rw [Merging.setState]
    dsimp only
    split <;> exact ⟨rfl, rfl⟩
  have outcomes {merging : Merging} (unchanged : (merging.setOutcome outcome).changed = false) :
      merging.setOutcome outcome = merging := by
    cases outcome with
    | none => rfl
    | some outcome =>
      rw [Merging.setOutcome] at unchanged ⊢
      split
      · rfl
      · rename_i other
        rw [if_neg other] at unchanged
        cases unchanged
  rw [moves.1] at unchanged
  have fixed := outcomes unchanged
  rw [fixed, Merging.move] at unchanged
  rw [setState_state, moves.2, fixed, Merging.move]
  split at unchanged
  · rename_i same
    exact ⟨unchanged, same.symm, by rw [if_pos same]⟩
  · cases unchanged

theorem setAttention_unchanged (unchanged : (merging.setAttention attention).attentionChanged = false) :
    merging.setAttention attention = merging := by
  rw [Merging.setAttention.eq_def] at unchanged ⊢
  cases shown : merging.next.attention <;> cases attention <;> rw [shown] at unchanged <;>
    dsimp only at unchanged ⊢
  case none.some => cases unchanged
  case some.none => cases unchanged
  case some.some =>
    split at unchanged
    · rename_i same
      rw [if_pos same]
      split at unchanged
      · rename_i alike
        rw [if_pos alike]
      · cases unchanged
    · cases unchanged

theorem Writes.changes (writes : Writes prev evidence time before after) :
    (after.changed = false → before.changed = false ∧ after.next.state = before.next.state ∧
      after.next.outcome = before.next.outcome) ∧
    (after.attentionChanged = false → before.attentionChanged = false ∧
      after.next.attention = before.next.attention) := by
  induction writes with
  | refl => exact ⟨fun unchanged => ⟨unchanged, rfl, rfl⟩, fun unchanged => ⟨unchanged, rfl⟩⟩
  | tail _ write ih =>
    obtain ⟨ofState, ofAttention⟩ := ih
    cases write with
    | setState state outcome may =>
      refine ⟨fun unchanged => ?_, fun unchanged => ?_⟩
      · obtain ⟨quiet, state, outcome⟩ := setState_unchanged unchanged
        rw [state, outcome]
        exact ofState quiet
      · rw [setState_attentionChanged] at unchanged
        rw [setState_attention]
        exact ofAttention unchanged
    | setAttention attention =>
      refine ⟨fun unchanged => ?_, fun unchanged => ?_⟩
      · rw [setAttention_keeps.changed] at unchanged
        rw [setAttention_keeps.state, setAttention_keeps.outcome]
        exact ofState unchanged
      · have fixed := setAttention_unchanged unchanged
        rw [fixed] at unchanged ⊢
        exact ofAttention unchanged
    | count => exact ⟨ofState, ofAttention⟩
    | finish news => exact ⟨ofState, ofAttention⟩
    | speak line => exact ⟨nofun, ofAttention⟩

theorem Writes.counts (writes : Writes prev evidence time before after) :
    after.next.edges = before.next.edges ∨ after.next.edges = increment prev.edges := by
  induction writes with
  | refl => exact .inl rfl
  | tail _ write counted =>
    cases write with
    | setState state outcome may =>
      rw [setState_edges]
      exact counted
    | setAttention attention =>
      rw [setAttention_keeps.edges]
      exact counted
    | count => exact .inr rfl
    | finish news => exact .inr rfl
    | speak line => exact counted

theorem clearPrompt_unchanged (unchanged : merging.clearPrompt.attentionChanged = false) :
    merging.clearPrompt = merging := by
  rw [Merging.clearPrompt] at unchanged ⊢
  split
  · rename_i shown
    rw [if_pos shown] at unchanged
    exact setAttention_unchanged unchanged
  · rfl

theorem begins_unchanged (event : evidence.event = .sessionStart ∨ evidence.event = .prompt)
    (moved : transition ctx prev evidence time merging = some merged) :
    merged.changed = true ∧ (merged.attentionChanged = false → merged.next.attention = merging.next.attention) := by
  rw [transition.eq_def] at moved
  dsimp only at moved
  rcases event with event | event <;> rw [event] at moved <;> dsimp only at moved <;> rw [← some.inj moved] <;>
    refine ⟨clearPrompt_keeps.changed, fun unchanged => ?_⟩ <;> rw [clearPrompt_unchanged unchanged] <;>
    exact setState_attention

end

end EverWorks.Sessions
