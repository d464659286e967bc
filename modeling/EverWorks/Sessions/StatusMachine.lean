import EverWorks.Sessions.Merge
import EverWorks.Lib.Run
import Mathlib.Data.Int.Order.Basic

/-!
# What the status machine promises

Every run of the merge over a session's evidence, from the first sight of the session.
-/

namespace EverWorks.Sessions
open Lib List Option

def mergeStep (ctx : FleetSessionMergeContext) (snapshot : FleetSessionStatusSnapshot)
    (evidence : FleetSessionEvidence) : FleetSessionStatusSnapshot :=
  match mergeFleetSessionEvidence snapshot evidence ctx with
  | some result => result.next
  | none => snapshot

def snapshotAfter (ctx : FleetSessionMergeContext) (time : Int) (state : FleetSessionState)
    (history : List FleetSessionEvidence) : FleetSessionStatusSnapshot :=
  run (mergeStep ctx) (initialFleetSessionStatus time state) history

def Accepts (ctx : FleetSessionMergeContext) (snapshot : FleetSessionStatusSnapshot)
    (evidence : FleetSessionEvidence) : Prop :=
  ∃ result, mergeFleetSessionEvidence snapshot evidence ctx = some result ∧ result.guarded = false

section
variable {ctx : FleetSessionMergeContext} {prev : FleetSessionStatusSnapshot} {evidence : FleetSessionEvidence}
  {result : FleetSessionMergeResult} {time : Int} {merging : Merging}

/-! ## One merge -/

@[simp] theorem finish_state : (merging.finish evidence time).next.state = merging.next.state := by
  rw [Merging.finish]
  dsimp only
  split <;> rfl

@[simp] theorem finish_attention : (merging.finish evidence time).next.attention = merging.next.attention := by
  rw [Merging.finish]
  dsimp only
  split <;> rfl

theorem finish_keeps : (merging.finish evidence time).next.boundaryUntil = merging.next.boundaryUntil ∧
    (merging.finish evidence time).next.promptSinceStart = merging.next.promptSinceStart ∧
    (merging.finish evidence time).next.lastEvidenceAt = merging.next.lastEvidenceAt ∧
    (merging.finish evidence time).next.stateSource = merging.next.stateSource ∧
    (merging.finish evidence time).next.stateSourceAt = merging.next.stateSourceAt := by
  rw [Merging.finish]
  dsimp only
  split <;> exact ⟨rfl, rfl, rfl, rfl, rfl⟩

theorem finish_counts : (merging.finish evidence time).next.edges = merging.next.edges ∧
    (merging.finish evidence time).next.turn = merging.next.turn := by
  rw [Merging.finish]
  dsimp only
  split <;> exact ⟨rfl, rfl⟩

@[simp] theorem finish_outcome : (merging.finish evidence time).next.outcome = merging.next.outcome := by
  rw [Merging.finish]
  dsimp only
  split <;> rfl

theorem finish_notes (noted : (merging.changed || merging.attentionChanged) = true ∨ merging.next.lastEvidence ≠ none) :
    (merging.finish evidence time).next.lastEvidence ≠ none := by
  rw [Merging.finish]
  dsimp only
  split
  · exact nofun
  · rename_i unchanged
    exact noted.resolve_left unchanged

def Merging.start (prev : FleetSessionStatusSnapshot) (evidence : FleetSessionEvidence) : Merging :=
  { next := { prev with lastEvidenceAt := idleClock prev evidence } }

theorem shell_writes : Writes prev evidence time merging (shellTransition prev evidence time merging) := by
  rw [shellTransition.eq_def]
  dsimp only
  cases event : evidence.event <;> dsimp only
  case activity =>
    split
    · exact working_writes
    · exact .refl
  case silence =>
    split
    · rename_i quiet
      exact idle_writes fun _ => quiet.2
    · exact .refl
  all_goals exact .refl

/-- A merge is the one of a shell, refused by the guard, or the event's own transition. -/
theorem merge_cases (live : prev.state ≠ .ended) (merged : mergeFleetSessionEvidence prev evidence ctx = some result) :
    (ctx.provider = .shell ∧ result = (shellTransition prev evidence (evidence.happenedAt prev)
      (.start prev evidence)).finish evidence (evidence.happenedAt prev)) ∨
    (ctx.provider ≠ .shell ∧ isGuarded prev evidence (evidence.happenedAt prev) = true ∧
      result = ⟨{ prev with lastEvidenceAt := idleClock prev evidence }, false, false, true, false⟩) ∨
    (ctx.provider ≠ .shell ∧ isGuarded prev evidence (evidence.happenedAt prev) = false ∧
      ∃ done, transition ctx prev evidence (evidence.happenedAt prev) (.start prev evidence) = some done ∧
        result = done.finish evidence (evidence.happenedAt prev)) := by
  rw [mergeFleetSessionEvidence] at merged
  dsimp only at merged
  rw [if_neg live] at merged
  split at merged
  · rename_i shell
    exact .inl ⟨shell, (some.inj merged).symm⟩
  · rename_i agent
    split at merged
    · rename_i guarded
      exact .inr (.inl ⟨agent, guarded, (some.inj merged).symm⟩)
    · rename_i free
      obtain ⟨done, moved, rfl⟩ := map_eq_some_iff.mp merged
      exact .inr (.inr ⟨agent, Bool.eq_false_iff.mpr free, done, moved, rfl⟩)

theorem transition_cases {done : Merging}
    (moved : transition ctx prev evidence time (.start prev evidence) = some done) :
    Writes prev evidence time (.start prev evidence) done ∨
      evidence.event = .sessionStart ∨ evidence.event = .prompt := by
  by_cases started : evidence.event = .sessionStart
  · exact .inr (.inl started)
  · by_cases prompted : evidence.event = .prompt
    · exact .inr (.inr prompted)
    · exact .inl (transition_writes rfl rfl started prompted moved)

theorem merge_enters (live : prev.state ≠ .ended) (merged : mergeFleetSessionEvidence prev evidence ctx = some result) :
    result.next.state = prev.state ∨ MayEnter prev evidence (evidence.happenedAt prev) result.next.state := by
  rcases merge_cases live merged with ⟨_, rfl⟩ | ⟨_, _, rfl⟩ | ⟨_, _, done, moved, rfl⟩
  · rw [finish_state]
    exact Writes.enters shell_writes
  · exact .inl rfl
  · rw [finish_state]
    rcases transition_cases moved with writes | begins
    · exact writes.enters
    · obtain ⟨told, rfl, _, working, _⟩ := transition_begins begins moved
      rw [clearPrompt_keeps.state, working]
      exact .inr trivial

theorem merge_clock (live : prev.state ≠ .ended) (merged : mergeFleetSessionEvidence prev evidence ctx = some result) :
    result.next.lastEvidenceAt = idleClock prev evidence := by
  rcases merge_cases live merged with ⟨_, rfl⟩ | ⟨_, _, rfl⟩ | ⟨_, _, done, moved, rfl⟩
  · rw [finish_keeps.2.2.1]
    exact (Writes.turn shell_writes).lastEvidenceAt
  · rfl
  · rw [finish_keeps.2.2.1]
    rcases transition_cases moved with writes | begins
    · exact writes.turn.lastEvidenceAt
    · obtain ⟨told, rfl, _, _, clock, _⟩ := transition_begins begins moved
      rw [clearPrompt_keeps.lastEvidenceAt, clock]
      rfl

theorem merge_news (live : prev.state ≠ .ended) (merged : mergeFleetSessionEvidence prev evidence ctx = some result)
    (finished : result.finished = true) :
    isFleetSessionBoundaryDone prev (evidence.happenedAt prev) = false := by
  rcases merge_cases live merged with ⟨_, rfl⟩ | ⟨_, _, rfl⟩ | ⟨_, _, done, moved, rfl⟩
  · exact Writes.news shell_writes rfl finished
  · cases finished
  · rcases transition_cases moved with writes | begins
    · exact writes.news rfl finished
    · obtain ⟨told, rfl, _, _, _, silent, _⟩ := transition_begins begins moved
      rw [Merging.finish, clearPrompt_keeps.finished, silent] at finished
      cases finished

theorem merge_setBy (live : prev.state ≠ .ended) (merged : mergeFleetSessionEvidence prev evidence ctx = some result) :
    (result.next.state = prev.state ∧ result.next.stateSource = prev.stateSource ∧
      result.next.stateSourceAt = prev.stateSourceAt) ∨
    (result.next.stateSource = some evidence.source ∧ result.next.stateSourceAt = evidence.happenedAt prev) := by
  rcases merge_cases live merged with ⟨_, rfl⟩ | ⟨_, _, rfl⟩ | ⟨_, _, done, moved, rfl⟩
  · rw [finish_state, finish_keeps.2.2.2.1, finish_keeps.2.2.2.2]
    exact Writes.setBy shell_writes
  · exact .inl ⟨rfl, rfl, rfl⟩
  · rw [finish_state, finish_keeps.2.2.2.1, finish_keeps.2.2.2.2]
    rcases transition_cases moved with writes | begins
    · exact writes.setBy
    · obtain ⟨told, rfl, _, working, _, _, _, source, sourceAt, _⟩ := transition_begins begins moved
      rw [clearPrompt_keeps.state, clearPrompt_keeps.stateSource, clearPrompt_keeps.stateSourceAt, working, source,
        sourceAt]
      rcases setState_source with own | ⟨stayed, same, sameAt⟩
      · exact .inr own
      · rw [same, sameAt]
        exact .inl ⟨stayed.symm, rfl, rfl⟩

theorem merge_prompted (live : prev.state ≠ .ended) (agent : ctx.provider ≠ .shell)
    (merged : mergeFleetSessionEvidence prev evidence ctx = some result)
    (prompted : result.next.promptSinceStart = true) :
    (evidence.event = .prompt ∧ result.guarded = false ∧ result.next.boundaryUntil = none) ∨
    (prev.promptSinceStart = true ∧ result.next.boundaryUntil = prev.boundaryUntil ∧
      (evidence.event = .sessionStart → result.guarded = true)) := by
  rcases merge_cases live merged with ⟨shell, _⟩ | ⟨_, _, rfl⟩ | ⟨_, _, done, moved, rfl⟩
  · exact absurd shell agent
  · exact .inr ⟨prompted, rfl, fun _ => rfl⟩
  · rw [finish_keeps.2.1] at prompted
    rw [finish_keeps.1]
    by_cases begins : evidence.event = .sessionStart ∨ evidence.event = .prompt
    · obtain ⟨told, rfl, _, _, _, _, _, _, _, ⟨_, none, _⟩ | ⟨event, _, boundary, _⟩⟩ :=
        transition_begins begins moved
      · rw [clearPrompt_keeps.promptSinceStart, none] at prompted
        cases prompted
      · rw [clearPrompt_keeps.boundaryUntil, boundary]
        exact .inl ⟨event, rfl, rfl⟩
    · have turn := ((transition_cases moved).resolve_right begins).turn
      rw [turn.promptSinceStart] at prompted
      rw [turn.boundaryUntil]
      exact .inr ⟨prompted, rfl, fun event => absurd (.inl event) begins⟩

structure Plain (snapshot : FleetSessionStatusSnapshot) : Prop where
  attention : snapshot.attention = none
  promptSinceStart : snapshot.promptSinceStart = false

theorem merge_plain (live : prev.state ≠ .ended) (shell : ctx.provider = .shell)
    (merged : mergeFleetSessionEvidence prev evidence ctx = some result) (plain : Plain prev) :
    Plain result.next ∧ (result.next.state = prev.state ∨ result.next.state = .working ∨
      result.next.state = .idle) := by
  rcases merge_cases live merged with ⟨_, rfl⟩ | ⟨agent, _⟩ | ⟨agent, _⟩
  · refine ⟨⟨?_, ?_⟩, ?_⟩
    · rw [finish_attention, shellTransition.eq_def]
      dsimp only
      split
      · split <;> simp [Merging.start, plain.attention]
      · split <;> simp [Merging.start, plain.attention]
      · exact plain.attention
    · rw [finish_keeps.2.1, (Writes.turn shell_writes).promptSinceStart]
      exact plain.promptSinceStart
    · rw [finish_state, shellTransition.eq_def]
      dsimp only
      split
      · split
        · exact .inr (.inl setState_state)
        · exact .inl rfl
      · split
        · exact .inr (.inr setState_state)
        · exact .inl rfl
      · exact .inl rfl
  · exact absurd shell agent
  · exact absurd shell agent

theorem merge_asks (live : prev.state ≠ .ended) (agent : ctx.provider ≠ .shell)
    (merged : mergeFleetSessionEvidence prev evidence ctx = some result) (asks : Asks prev) : Asks result.next := by
  rcases merge_cases live merged with ⟨shell, _⟩ | ⟨_, _, rfl⟩ | ⟨_, _, done, moved, rfl⟩
  · exact absurd shell agent
  · exact asks
  · rw [Asks, FleetSessionStatusSnapshot.waits, finish_state, finish_attention]
    exact transition_asks asks moved

/-! ## Evidence that cannot be merged -/

theorem attentionFor_total {reason : FleetSessionAttentionReason} {edges : Nat}
    (stuck : attentionFor ctx prev reason evidence edges = none) : evidence.time.filter isDateTime = none := by
  rw [attentionFor] at stuck
  split at stuck
  · assumption
  · cases stuck

theorem ask_total {reason : FleetSessionAttentionReason} (stuck : merging.ask ctx prev evidence time reason = none) :
    evidence.time.filter isDateTime = none := by
  have raises (stuck : merging.raise ctx prev evidence time reason = none) : evidence.time.filter isDateTime = none :=
    attentionFor_total (map_eq_none_iff.mp stuck)
  rw [Merging.ask.eq_def] at stuck
  split at stuck
  · split at stuck
    · split at stuck
      · cases stuck
      · split at stuck
        · exact attentionFor_total (by assumption)
        · dsimp only at stuck
          split at stuck
          · cases stuck
          · exact raises stuck
    · exact raises stuck
  · exact raises stuck

theorem finishTurn_total {line : Utf16} (stuck : merging.finishTurn ctx prev evidence line = none) :
    evidence.time.filter isDateTime = none :=
  by
  rw [Merging.finishTurn] at stuck
  dsimp only at stuck
  have unwritten := attentionFor_total (map_eq_none_iff.mp stuck)
  exact unwritten

theorem merge_total (stuck : mergeFleetSessionEvidence prev evidence ctx = none) :
    evidence.time.filter isDateTime = none := by
  rw [mergeFleetSessionEvidence] at stuck
  dsimp only at stuck
  split at stuck
  · cases stuck
  · split at stuck
    · cases stuck
    · split at stuck
      · cases stuck
      · replace stuck := map_eq_none_iff.mp stuck
        rw [transition.eq_def] at stuck
        dsimp only at stuck
        cases event : evidence.event <;> rw [event] at stuck <;> dsimp only at stuck
        case permission => exact ask_total stuck
        case question => exact ask_total stuck
        case blocked => exact ask_total stuck
        case stop =>
          split at stuck
          · cases stuck
          · split at stuck
            · cases stuck
            · exact finishTurn_total stuck
        case idlePrompt =>
          split at stuck
          · split at stuck
            · cases stuck
            · exact finishTurn_total stuck
          · cases stuck
        case working => split at stuck <;> cases stuck
        case silence => split at stuck <;> cases stuck
        all_goals cases stuck

end

/-! ## Every history -/

section
variable {ctx : FleetSessionMergeContext} {start : Int} {state : FleetSessionState}
  {history : List FleetSessionEvidence} {evidence : FleetSessionEvidence}

theorem snapshotAfter_append (rest : List FleetSessionEvidence) :
    snapshotAfter ctx start state (history ++ rest) = run (mergeStep ctx) (snapshotAfter ctx start state history) rest :=
  run_append _ _ _ _

def PromptedSince (ctx : FleetSessionMergeContext) (start : Int) (state : FleetSessionState)
    (history : List FleetSessionEvidence) : Prop :=
  ∃ before prompt after, history = before ++ prompt :: after ∧ prompt.event = .prompt ∧
    Accepts ctx (snapshotAfter ctx start state before) prompt ∧
    ∀ first begins rest, after = first ++ begins :: rest → begins.event = .sessionStart →
      ¬ Accepts ctx (snapshotAfter ctx start state (before ++ prompt :: first)) begins

def SetBy (ctx : FleetSessionMergeContext) (start : Int) (state : FleetSessionState)
    (history : List FleetSessionEvidence) (source : FleetSessionEvidenceSource) (time : Int) : Prop :=
  ∃ before setter after, history = before ++ setter :: after ∧ setter.source = source ∧
    setter.happenedAt (snapshotAfter ctx start state before) = time ∧
    ∀ rest, rest <+: after → (snapshotAfter ctx start state (before ++ setter :: rest)).state =
      (snapshotAfter ctx start state history).state

variable (ctx start state history) in
structure Kept : Prop where
  live : (snapshotAfter ctx start state history).state ≠ .ended
  asks : state ≠ .needsYou → Asks (snapshotAfter ctx start state history)
  plain : ctx.provider = .shell → Plain (snapshotAfter ctx start state history) ∧
    ((snapshotAfter ctx start state history).state = state ∨
      (snapshotAfter ctx start state history).state = .working ∨
      (snapshotAfter ctx start state history).state = .idle)
  clock : start ≤ (snapshotAfter ctx start state history).lastEvidenceAt ∧
    ∀ earlier ∈ history, earlier.event ≠ .silence → ∀ time ∈ earlier.time, isDateTime time = true →
      time ≤ (snapshotAfter ctx start state history).lastEvidenceAt
  prompted : (snapshotAfter ctx start state history).promptSinceStart = true →
    (snapshotAfter ctx start state history).boundaryUntil = none ∧ PromptedSince ctx start state history
  setBy : ∀ source ∈ (snapshotAfter ctx start state history).stateSource,
    SetBy ctx start state history source (snapshotAfter ctx start state history).stateSourceAt

theorem snapshotAfter_concat : snapshotAfter ctx start state (history ++ [evidence]) =
    mergeStep ctx (snapshotAfter ctx start state history) evidence :=
  snapshotAfter_append [evidence]

theorem Kept.nil (live : state ≠ .ended) : Kept ctx start state [] := by
  have first : snapshotAfter ctx start state [] = initialFleetSessionStatus start state := rfl
  constructor <;> rw [first]
  · exact live
  · exact fun calm => asks_of_none calm rfl
  · exact fun _ => ⟨⟨rfl, rfl⟩, .inl rfl⟩
  · exact ⟨le_refl start, fun _ listed => absurd listed not_mem_nil⟩
  · exact fun prompted => absurd prompted Bool.false_ne_true
  · exact fun source held => absurd held (not_mem_none source)

theorem PromptedSince.concat (prompted : PromptedSince ctx start state history)
    (other : evidence.event = .sessionStart → ¬ Accepts ctx (snapshotAfter ctx start state history) evidence) :
    PromptedSince ctx start state (history ++ [evidence]) := by
  obtain ⟨before, prompt, after, rfl, event, accepted, since⟩ := prompted
  refine ⟨before, prompt, after ++ [evidence], by simp, event, accepted, ?_⟩
  intro first begins rest split event'
  rcases eq_nil_or_concat rest with rfl | ⟨front, last, rfl⟩
  · obtain ⟨rfl, same⟩ := append_inj' split rfl
    rw [List.cons.injEq] at same
    rw [← same.1] at event' ⊢
    exact other event'
  · rw [concat_eq_append, ← cons_append, ← append_assoc] at split
    exact since first begins front (append_inj' split rfl).1 event'

theorem SetBy.concat {source : FleetSessionEvidenceSource} {time : Int}
    (setBy : SetBy ctx start state history source time)
    (same : (snapshotAfter ctx start state (history ++ [evidence])).state =
      (snapshotAfter ctx start state history).state) :
    SetBy ctx start state (history ++ [evidence]) source time := by
  obtain ⟨before, setter, after, rfl, named, timed, since⟩ := setBy
  refine ⟨before, setter, after ++ [evidence], by simp, named, timed, fun rest isPre => ?_⟩
  rcases prefix_concat_iff.mp isPre with rfl | shorter
  · rw [append_assoc, cons_append]
  · rw [same]
    exact since rest shorter

theorem Kept.stuck (kept : Kept ctx start state history)
    (none : mergeFleetSessionEvidence (snapshotAfter ctx start state history) evidence ctx = none) :
    Kept ctx start state (history ++ [evidence]) := by
  have same : snapshotAfter ctx start state (history ++ [evidence]) = snapshotAfter ctx start state history := by
    rw [snapshotAfter_concat, mergeStep, none]
  have refused : ¬ Accepts ctx (snapshotAfter ctx start state history) evidence := by
    rintro ⟨result, merged, _⟩
    rw [none] at merged
    cases merged
  constructor <;> rw [same]
  · exact kept.live
  · exact kept.asks
  · exact kept.plain
  · refine ⟨kept.clock.1, fun earlier listed loud time happened written => ?_⟩
    rcases mem_append.mp listed with old | new
    · exact kept.clock.2 earlier old loud time happened written
    · rw [mem_singleton.mp new] at happened
      have unwritten := filter_eq_none_iff.mp (merge_total none) time happened
      exact absurd written unwritten
  · intro prompted
    exact ⟨(kept.prompted prompted).1, (kept.prompted prompted).2.concat fun _ => refused⟩
  · intro source held
    exact (kept.setBy source held).concat (by rw [same])

theorem Kept.merged {result : FleetSessionMergeResult} (kept : Kept ctx start state history)
    (merged : mergeFleetSessionEvidence (snapshotAfter ctx start state history) evidence ctx = some result) :
    Kept ctx start state (history ++ [evidence]) := by
  have next : snapshotAfter ctx start state (history ++ [evidence]) = result.next := by
    rw [snapshotAfter_concat, mergeStep, merged]
  have clock := merge_clock kept.live merged
  constructor
  · rw [next]
    rcases merge_enters kept.live merged with same | may
    · rw [same]
      exact kept.live
    · intro ended
      rw [ended] at may
      exact may
  · intro calm
    rw [next]
    by_cases shell : ctx.provider = .shell
    · obtain ⟨plain, states⟩ := kept.plain shell
      obtain ⟨plain', states'⟩ := merge_plain kept.live shell merged plain
      refine asks_of_none ?_ plain'.attention
      rcases states' with same | working | idle
      · rw [same]
        rcases states with first | working | idle <;> simp [*]
      · simp [working]
      · simp [idle]
    · exact merge_asks kept.live shell merged (kept.asks calm)
  · intro shell
    rw [next]
    obtain ⟨plain, states⟩ := kept.plain shell
    obtain ⟨plain', states'⟩ := merge_plain kept.live shell merged plain
    refine ⟨plain', ?_⟩
    rcases states' with same | moved
    · rw [same]
      exact states
    · exact .inr moved
  · rw [next, clock]
    have grows : (snapshotAfter ctx start state history).lastEvidenceAt ≤
        idleClock (snapshotAfter ctx start state history) evidence := by
      rw [idleClock]
      split
      · exact le_refl _
      · exact le_max_left _ _
    refine ⟨le_trans kept.clock.1 grows, fun earlier listed loud time happened written => ?_⟩
    rcases mem_append.mp listed with old | new
    · exact le_trans (kept.clock.2 earlier old loud time happened written) grows
    · rw [mem_singleton.mp new] at happened loud
      rw [idleClock, if_neg loud, FleetSessionEvidence.happenedAt, mem_def.mp happened, getD_some]
      exact le_max_right _ _
  · rw [next]
    intro prompted
    have agent : ctx.provider ≠ .shell := by
      intro shell
      rw [(merge_plain kept.live shell merged (kept.plain shell).1).1.promptSinceStart] at prompted
      cases prompted
    rcases merge_prompted kept.live agent merged prompted with ⟨event, free, boundary⟩ | ⟨before, boundary, refused⟩
    · refine ⟨boundary, history, evidence, [], rfl, event, ⟨result, merged, free⟩, ?_⟩
      intro first begins rest split
      simp at split
    · rw [boundary]
      refine ⟨(kept.prompted before).1, (kept.prompted before).2.concat fun event => ?_⟩
      rintro ⟨other, merged', free⟩
      rw [merged] at merged'
      rw [← some.inj merged', refused event] at free
      cases free
  · rw [next]
    intro source held
    rcases merge_setBy kept.live merged with ⟨same, sameSource, sameAt⟩ | ⟨own, ownAt⟩
    · rw [sameSource] at held
      rw [sameAt]
      exact (kept.setBy source held).concat (by rw [next, same])
    · rw [own] at held
      rw [ownAt]
      refine ⟨history, evidence, [], rfl, some.inj held, rfl, fun rest isPre => ?_⟩
      rw [prefix_nil.mp isPre]

theorem kept_of_live (live : state ≠ .ended) : Kept ctx start state history := by
  induction history using List.reverseRecOn with
  | nil => exact .nil live
  | append_singleton history evidence ih =>
    cases merged : mergeFleetSessionEvidence (snapshotAfter ctx start state history) evidence ctx with
    | none => exact ih.stuck merged
    | some result => exact ih.merged merged

end

/-! ## The promises -/

/-- What the status machine promises of a session first seen at a time and in a state, after every history. -/
structure KeepsPromises (ctx : FleetSessionMergeContext) (start : Int) (state : FleetSessionState) : Prop where
  needsYou : state ≠ .needsYou → ∀ history, (snapshotAfter ctx start state history).state = .needsYou ↔
    ∃ attention ∈ (snapshotAfter ctx start state history).attention, attention.reason ≠ .finished
  done : ∀ history evidence result,
    mergeFleetSessionEvidence (snapshotAfter ctx start state history) evidence ctx = some result →
    (snapshotAfter ctx start state history).state ≠ .done → result.next.state = .done →
      evidence.event = .stop ∨ evidence.event = .idlePrompt ∨ evidence.event = .interrupt
  finished : ∀ history evidence result,
    mergeFleetSessionEvidence (snapshotAfter ctx start state history) evidence ctx = some result →
    result.finished = true → PromptedSince ctx start state history ∧
      isFleetSessionBoundaryDone (snapshotAfter ctx start state history)
        (evidence.happenedAt (snapshotAfter ctx start state history)) = false
  setBy : ∀ history, ∀ source ∈ (snapshotAfter ctx start state history).stateSource,
    SetBy ctx start state history source (snapshotAfter ctx start state history).stateSourceAt
  guard : ctx.provider ≠ .shell → ∀ history evidence result,
    mergeFleetSessionEvidence (snapshotAfter ctx start state history) evidence ctx = some result →
    evidence.event ≠ .interrupt → evidence.event ≠ .answered → evidence.event ≠ .silence →
    ∀ higher ∈ (snapshotAfter ctx start state history).stateSource,
      evidence.source.precedence < higher.precedence →
      evidence.happenedAt (snapshotAfter ctx start state history) -
        (snapshotAfter ctx start state history).stateSourceAt < FLEET_SESSION_PRECEDENCE_GUARD_MS →
      result.changed = false ∧ result.attentionChanged = false ∧ result.finished = false ∧
        result.next = { snapshotAfter ctx start state history with lastEvidenceAt := result.next.lastEvidenceAt }
  silence : ∀ history evidence result,
    mergeFleetSessionEvidence (snapshotAfter ctx start state history) evidence ctx = some result →
    evidence.event = .silence → (snapshotAfter ctx start state history).state ≠ .idle →
    result.next.state = .idle → ∃ time ∈ evidence.time, FLEET_SESSION_IDLE_AFTER_MS ≤ time - start ∧
      ∀ earlier ∈ history, earlier.event ≠ .silence → ∀ before ∈ earlier.time, isDateTime before = true →
        FLEET_SESSION_IDLE_AFTER_MS ≤ time - before
  shell : ctx.provider = .shell → state = .working ∨ state = .idle → ∀ history,
    (snapshotAfter ctx start state history).state = .working ∨ (snapshotAfter ctx start state history).state = .idle

/-- The promises are kept in every session that has not ended. -/
theorem keepsPromises (ctx : FleetSessionMergeContext) (start : Int) (state : FleetSessionState)
    (live : state ≠ .ended) : KeepsPromises ctx start state where
  needsYou calm history := by
    have asks : Asks (snapshotAfter ctx start state history) := (kept_of_live live).asks calm
    refine asks.trans ?_
    rw [FleetSessionStatusSnapshot.waits, Option.any_eq_true]
    refine exists_congr fun attention => and_congr_right fun _ => ?_
    rw [FleetSessionAttentionReason.waits, bne_iff_ne]
  done history evidence result merged other done := by
    rcases merge_enters (kept_of_live live).live merged with same | may
    · exact absurd (same.symm.trans done) other
    · rw [done] at may
      exact may
  finished history evidence result merged finished := by
    have kept : Kept ctx start state history := kept_of_live live
    have news := merge_news kept.live merged finished
    refine ⟨(kept.prompted ?_).2, news⟩
    rw [isFleetSessionBoundaryDone, Bool.or_eq_false_iff] at news
    simpa using news.1
  setBy history := (kept_of_live live).setBy
  guard agent history evidence result merged noInterrupt noAnswer loud higher held lower recent := by
    have guarded : isGuarded (snapshotAfter ctx start state history) evidence
        (evidence.happenedAt (snapshotAfter ctx start state history)) = true := by
      rw [isGuarded, mem_def.mp held]
      simp [UNGUARDED_EVENTS, noInterrupt, noAnswer, loud, lower, recent]
    rcases merge_cases (kept_of_live live).live merged with ⟨shell, _⟩ | ⟨_, _, rfl⟩ | ⟨_, free, _⟩
    · exact absurd shell agent
    · exact ⟨rfl, rfl, rfl, rfl⟩
    · rw [guarded] at free
      cases free
  silence history evidence result merged silent other idle := by
    have kept : Kept ctx start state history := kept_of_live live
    rcases merge_enters kept.live merged with same | may
    · exact absurd (same.symm.trans idle) other
    · rw [idle] at may
      have quiet := may silent
      rw [FleetSessionEvidence.happenedAt] at quiet
      cases happened : evidence.time with
      | none =>
        rw [happened, getD_none, Int.sub_self] at quiet
        exact absurd quiet (by decide)
      | some time =>
        rw [happened, getD_some] at quiet
        refine ⟨time, rfl, ?_, fun earlier listed loud before written date => ?_⟩
        · have := kept.clock.1
          omega
        · have := kept.clock.2 earlier listed loud before written date
          omega
  shell shell begins history := by
    rcases ((kept_of_live live).plain shell).2 with same | moved
    · rw [same]
      exact begins
    · exact moved

theorem keepsPromises_of_shell : KeepsPromises ⟨Utf16.ofString "s", .shell⟩ 0 .working :=
  keepsPromises ⟨Utf16.ofString "s", .shell⟩ 0 .working (by decide)

def bare (source : FleetSessionEvidenceSource) (event : FleetSessionEvidenceEvent) (time : Int) :
    FleetSessionEvidence where
  source := source
  event := event
  time := some time

/-- The output that moves a shell although a hook set its state a moment before, the turn that is news although a start
came after its prompt, because the guard refused the start, and the states in which a session can be first seen. -/
theorem shell_is_not_guarded :
    ((snapshotAfter ⟨Utf16.ofString "s", .shell⟩ 0 .working [bare .hook .silence 1800000]).stateSource =
        some .hook ∧
      (snapshotAfter ⟨Utf16.ofString "s", .shell⟩ 0 .working [bare .hook .silence 1800000]).stateSourceAt =
        1800000 ∧
      (mergeFleetSessionEvidence
        (snapshotAfter ⟨Utf16.ofString "s", .shell⟩ 0 .working [bare .hook .silence 1800000])
        (bare .exit .activity 1800001) ⟨Utf16.ofString "s", .shell⟩).map (·.changed) = some true) ∧
    (mergeFleetSessionEvidence (snapshotAfter ⟨Utf16.ofString "s", .codex⟩ 0 .working
        [bare .hook .prompt 0, bare .rules .sessionStart 1])
      (bare .hook .stop 2) ⟨Utf16.ofString "s", .codex⟩).map (·.finished) = some true ∧
    ((snapshotAfter ⟨Utf16.ofString "s", .codex⟩ 0 .needsYou []).state = .needsYou ∧
      (snapshotAfter ⟨Utf16.ofString "s", .codex⟩ 0 .needsYou []).attention = none) ∧
    (snapshotAfter ⟨Utf16.ofString "s", .shell⟩ 0 .starting []).state = .starting := by
  decide

end EverWorks.Sessions
