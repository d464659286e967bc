import EverWorks.Sessions.StateService
import EverWorks.Sessions.StatusMachine
import Mathlib.Data.Nat.Digits.Defs

/-!
The edges of a session over the lives of the node's process, and when two of them have the same key.
-/

namespace EverWorks.Sessions
open Lib List

/-- What happens to the session's status on the node. After a restart the session is followed anew. -/
inductive NodeEvent where
  | evidence (evidence : FleetSessionEvidence)
  | restart (now : Int)

/-- An edge into `needs_you`, with the process that raised it, its CLI's id and the counters of its snapshot. -/
structure Edge where
  life : Nat
  reason : FleetSessionAttentionReason
  promptId : Option Utf16
  turn : Nat
  edges : Nat
  attention : FleetSessionAttention

structure NodeHistory where
  snapshot : FleetSessionStatusSnapshot
  life : Nat
  raised : List Edge

def FleetSessionEvidenceEvent.asks : FleetSessionEvidenceEvent → Option FleetSessionAttentionReason
  | permission => some .permission
  | question => some .question
  | blocked => some .blocked
  | _ => none

def isNewEdge (ctx : FleetSessionMergeContext) (prev : FleetSessionStatusSnapshot) (evidence : FleetSessionEvidence)
    (reason : FleetSessionAttentionReason) : Bool :=
  match prev.attention with
  | some shown =>
    if prev.state = .needsYou ∧ shown.reason = reason then
      if evidence.confirmOnly then false
      else
        match attentionFor ctx prev reason evidence prev.edges with
        | none => false
        | some fresh =>
          !decide (((0 < fresh.options.length ∧ shown.options.length = 0) ∨
            (0 < fresh.prompt.length ∧ shown.prompt.length = 0)) ∨
            (fresh.prompt = shown.prompt ∨ fresh.prompt.length = 0))
    else true
  | none => true

def edgeOf (ctx : FleetSessionMergeContext) (life : Nat) (prev : FleetSessionStatusSnapshot)
    (evidence : FleetSessionEvidence) (result : FleetSessionMergeResult) : Option Edge :=
  match evidence.event.asks with
  | none => none
  | some reason =>
    if ctx.provider ≠ .shell ∧ prev.state ≠ .ended ∧ result.guarded = false ∧
        isNewEdge ctx prev evidence reason = true then
      result.next.attention.map fun attention =>
        ⟨life, reason, evidence.promptId.filter (· ≠ []), prev.turn, increment prev.edges, attention⟩
    else none

def nodeStep (ctx : FleetSessionMergeContext) (node : NodeHistory) : NodeEvent → NodeHistory
  | .evidence evidence =>
    match mergeFleetSessionEvidence node.snapshot evidence ctx with
    | none => node
    | some result => { node with
        snapshot := result.next
        raised := node.raised ++ (edgeOf ctx node.life node.snapshot evidence result).toList }
  | .restart now => { node with snapshot := initialFleetSessionStatus now, life := node.life + 1 }

def edgesOf (ctx : FleetSessionMergeContext) (start : Int) (events : List NodeEvent) : List Edge :=
  (run (nodeStep ctx) ⟨initialFleetSessionStatus start, 0, []⟩ events).raised

section
variable {turn turn' edges edges' : Nat} {id id' sessionId : Utf16} {reason reason' : FleetSessionAttentionReason}

theorem not_mem_repr {unit : UInt16} {n : Nat} (letter : 0x39 < unit) : unit ∉ Utf16.ofString n.repr :=
  fun listed => absurd (Utf16.digit_of_mem_repr listed).2 (UInt16.not_le.mpr letter)

theorem edgeId_inj : edgeId turn edges = edgeId turn' edges' ↔ turn = turn' ∧ edges = edges' := by
  refine ⟨fun same => ?_, by rintro ⟨rfl, rfl⟩; rfl⟩
  rw [edgeId, edgeId, cons_append, cons_append, List.cons.injEq] at same
  have parts := (append_cons_inj_of_notMem (not_mem_repr (by decide)) (not_mem_repr (by decide))).mp same.2
  exact ⟨Utf16.ofString_repr_inj.mp parts.1, Utf16.ofString_repr_inj.mp parts.2.2⟩

theorem isIdUnit_digit {unit : UInt16} (digit : 0x30 ≤ unit ∧ unit ≤ 0x39) : isIdUnit unit = true := by
  rw [isIdUnit, decide_eq_true digit.1, decide_eq_true digit.2]
  simp

theorem length_repr {n : Nat} (small : n ≤ 2 ^ 53) : (Utf16.ofString n.repr).length ≤ 16 := by
  rw [Utf16.ofString_repr, length_map]
  exact Nat.toDigits_length 10 n 16 (by decide) (lt_of_le_of_lt small (by norm_num))

theorem isPromptId_edgeId (few : turn ≤ 2 ^ 53) (few' : edges ≤ 2 ^ 53) : isPromptId (edgeId turn edges) = true := by
  have left := length_repr few
  have right := length_repr few'
  rw [isPromptId, edgeId, Bool.and_eq_true, Bool.and_eq_true, decide_eq_true_eq, decide_eq_true_eq]
  refine ⟨⟨by simp, by simp; omega⟩, ?_⟩
  rw [all_eq_true]
  intro unit listed
  simp only [mem_cons, mem_append, cons_append] at listed
  rcases listed with rfl | digit | rfl | digit
  · decide
  · exact isIdUnit_digit (Utf16.digit_of_mem_repr digit)
  · decide
  · exact isIdUnit_digit (Utf16.digit_of_mem_repr digit)

theorem key_of_isPromptId (usable : isPromptId id = true) : fleetSessionAttentionKey sessionId reason id =
    Utf16.ofString "fleet-session:" ++ (sessionId ++ 0x3a :: (reason.text ++ 0x3a :: id)) := by
  rw [isPromptId, Bool.and_eq_true, Bool.and_eq_true, decide_eq_true_eq, decide_eq_true_eq] at usable
  have whole : (id.filter isIdUnit).take 64 = id := by
    rw [filter_eq_self.mpr (all_eq_true.mp usable.2), take_of_length_le usable.1.2]
  rw [fleetSessionAttentionKey, whole, if_neg (ne_nil_of_length_pos usable.1.1), append_assoc,
    append_assoc, cons_append]

theorem text_inj (same : reason.text = reason'.text) : reason = reason' := by
  cases reason <;> cases reason' <;> first | rfl | exact absurd same (by decide)

theorem key_inj (usable : isPromptId id = true) (usable' : isPromptId id' = true) :
    fleetSessionAttentionKey sessionId reason id = fleetSessionAttentionKey sessionId reason' id' ↔
      reason = reason' ∧ id = id' := by
  have colon : (0x3a : UInt16) ∉ id := by
    intro listed
    have units := usable
    rw [isPromptId, Bool.and_eq_true] at units
    exact absurd (all_eq_true.mp units.2 _ listed) (by decide)
  have colon' : (0x3a : UInt16) ∉ reason.text := by cases reason <;> decide
  refine ⟨fun same => ?_, by rintro ⟨rfl, rfl⟩; rfl⟩
  rw [key_of_isPromptId usable, key_of_isPromptId usable'] at same
  have texts := (List.cons.inj (append_cancel_left (append_cancel_left same))).2
  obtain ⟨reasons, _, ids⟩ := (append_cons_inj_of_notMem colon' colon).mp texts
  exact ⟨text_inj reasons, ids⟩

end

section
variable {ctx : FleetSessionMergeContext} {prev : FleetSessionStatusSnapshot} {evidence : FleetSessionEvidence}
  {result : FleetSessionMergeResult} {reason : FleetSessionAttentionReason}

theorem ask_raises {time : Int} {merging merged : Merging} (new : isNewEdge ctx prev evidence reason = true)
    (asked : merging.ask ctx prev evidence time reason = some merged) :
    merging.raise ctx prev evidence time reason = some merged := by
  rw [Merging.ask.eq_def] at asked
  rw [isNewEdge.eq_def] at new
  split at asked
  · rename_i shown there
    rw [there] at new
    dsimp only at new
    split at asked
    · rename_i waiting
      rw [if_pos waiting] at new
      split at asked
      · rename_i confirms
        rw [if_pos confirms] at new
        cases new
      · rename_i speaks
        rw [if_neg speaks] at new
        split at asked
        · cases asked
        · rename_i fresh written
          rw [written] at new
          dsimp only at asked new
          rw [Bool.not_eq_true', decide_eq_false_iff_not] at new
          rw [if_neg new] at asked
          exact asked
    · exact asked
  · exact asked

def nameOf (promptId : Option Utf16) (turn edges : Nat) : Utf16 := (usableId promptId).getD (edgeId turn edges)

theorem attentionFor_key {edges : Nat} {raised : FleetSessionAttention}
    (written : attentionFor ctx prev reason evidence edges = some raised) :
    raised.key = fleetSessionAttentionKey ctx.sessionId reason (nameOf evidence.promptId prev.turn edges) := by
  rw [attentionFor] at written
  split at written
  · cases written
  · rw [← Option.some.inj written, nameOf]

theorem raise_key {time : Int} {merging merged : Merging}
    (raised : merging.raise ctx prev evidence time reason = some merged) :
    merged.next.edges = increment prev.edges ∧ merged.next.attention.map (·.key) =
      some (fleetSessionAttentionKey ctx.sessionId reason
        (nameOf evidence.promptId prev.turn (increment prev.edges))) := by
  obtain ⟨attention, written, rfl⟩ := Option.map_eq_some_iff.mp raised
  refine ⟨setAttention_keeps.edges.trans setState_edges, ?_⟩
  rw [setAttention_key, Option.map_some, attentionFor_key written]

theorem usableId_filter (promptId : Option Utf16) : usableId (promptId.filter (· ≠ [])) = usableId promptId := by
  cases promptId with
  | none => rfl
  | some id => cases id <;> simp [usableId, Option.filter, isPromptId]

theorem increment_le {count : Nat} (few : count ≤ 2 ^ 53) : increment count ≤ 2 ^ 53 := by
  rw [increment]
  split <;> omega

theorem le_increment (count : Nat) : count ≤ increment count := by
  rw [increment]
  split <;> omega

theorem merge_counts (merged : mergeFleetSessionEvidence prev evidence ctx = some result) :
    (result.next.edges = prev.edges ∨ result.next.edges = increment prev.edges) ∧
      (result.next.turn = prev.turn ∨ result.next.turn = increment prev.turn) := by
  by_cases live : prev.state = .ended
  · rw [mergeFleetSessionEvidence] at merged
    dsimp only at merged
    rw [if_pos live] at merged
    rw [← Option.some.inj merged]
    exact ⟨.inl rfl, .inl rfl⟩
  rcases merge_cases live merged with ⟨_, rfl⟩ | ⟨_, _, rfl⟩ | ⟨_, _, done, moved, rfl⟩
  · rw [finish_counts.1, finish_counts.2]
    exact ⟨shell_writes.counts, .inl shell_writes.turn.turn⟩
  · exact ⟨.inl rfl, .inl rfl⟩
  · rw [finish_counts.1, finish_counts.2]
    rcases transition_cases moved with writes | begins
    · exact ⟨writes.counts, .inl writes.turn.turn⟩
    · obtain ⟨told, rfl, _, _, _, _, edges, _, _, ⟨_, _, turn⟩ | ⟨_, _, _, turn⟩⟩ := transition_begins begins moved
      · rw [clearPrompt_keeps.edges, clearPrompt_keeps.turn, edges, turn]
        exact ⟨.inl rfl, .inl rfl⟩
      · rw [clearPrompt_keeps.edges, clearPrompt_keeps.turn, edges, turn]
        exact ⟨.inl rfl, .inr rfl⟩

theorem edgeOf_spec {life : Nat} {edge : Edge} (merged : mergeFleetSessionEvidence prev evidence ctx = some result)
    (raised : edgeOf ctx life prev evidence result = some edge) :
    edge.life = life ∧ edge.turn = prev.turn ∧ edge.edges = increment prev.edges ∧
      result.next.edges = increment prev.edges ∧ edge.attention.key =
        fleetSessionAttentionKey ctx.sessionId edge.reason (nameOf edge.promptId edge.turn edge.edges) := by
  rw [edgeOf.eq_def] at raised
  split at raised
  · cases raised
  · rename_i reason asks
    split at raised
    · rename_i accepted
      obtain ⟨agent, live, free, new⟩ := accepted
      obtain ⟨attention, shown, rfl⟩ := Option.map_eq_some_iff.mp raised
      rcases merge_cases live merged with ⟨shell, _⟩ | ⟨_, _, rfl⟩ | ⟨_, _, done, moved, rfl⟩
      · exact absurd shell agent
      · cases free
      · have asked : Merging.ask ctx prev evidence (evidence.happenedAt prev) reason (.start prev evidence) =
            some done := by
          rw [transition.eq_def] at moved
          dsimp only at moved
          cases event : evidence.event <;> rw [event] at moved asks <;> dsimp only at moved <;> cases asks <;>
            exact moved
        have counted := raise_key (ask_raises new asked)
        rw [finish_attention] at shown
        rw [shown, Option.map_some] at counted
        refine ⟨rfl, rfl, rfl, finish_counts.1.trans counted.1, (Option.some.inj counted.2).trans ?_⟩
        rw [nameOf, nameOf, usableId_filter]
    · cases raised

end

/-- The CLI gave both edges one id. -/
def SamePrompt (first second : Edge) : Prop :=
  first.promptId.isSome = true ∧ first.promptId = second.promptId

instance (first second : Edge) : Decidable (SamePrompt first second) :=
  inferInstanceAs (Decidable (_ ∧ _))

/-- Edges of different prompts have different keys, so that the platform flags the later one whatever became of the
other. -/
def KeysApart (first second : Edge) : Prop :=
  ¬ SamePrompt first second → first.attention.key ≠ second.attention.key ∧
    ∀ stored : FleetSessionAttention, stored.key = first.attention.key →
      nextAttention (some stored) (some second.attention) = some { second.attention with acknowledgedAt := none }

/-- Edges for one reason whose CLI gave no id that can be used come from different counters, where the counters cannot
tell them apart by themselves, and no id of the CLI spells the counters of such an edge. -/
def NamesApart (first second : Edge) : Prop :=
  ¬ SamePrompt first second → first.reason = second.reason →
    (usableId first.promptId = none → usableId second.promptId = none →
      first.life ≠ second.life ∨ first.edges = 2 ^ 53 → ¬ (first.turn = second.turn ∧ first.edges = second.edges)) ∧
    (usableId second.promptId = none → usableId first.promptId ≠ some (edgeId second.turn second.edges)) ∧
    (usableId first.promptId = none → usableId second.promptId ≠ some (edgeId first.turn first.edges))

section
variable {ctx : FleetSessionMergeContext} {start : Int} {events : List NodeEvent} {node : NodeHistory}
  {first second edge : Edge}

structure IsEdge (ctx : FleetSessionMergeContext) (edge : Edge) : Prop where
  turn : edge.turn ≤ 2 ^ 53
  edges : edge.edges ≤ 2 ^ 53
  key : edge.attention.key =
    fleetSessionAttentionKey ctx.sessionId edge.reason (nameOf edge.promptId edge.turn edge.edges)

theorem isPromptId_nameOf (isEdge : IsEdge ctx edge) :
    isPromptId (nameOf edge.promptId edge.turn edge.edges) = true := by
  rw [nameOf]
  cases usable : usableId edge.promptId with
  | none => exact isPromptId_edgeId isEdge.turn isEdge.edges
  | some id => exact (Option.filter_eq_some_iff.mp usable).2

theorem keys_eq_iff (isFirst : IsEdge ctx first) (isSecond : IsEdge ctx second) :
    first.attention.key = second.attention.key ↔ first.reason = second.reason ∧
      nameOf first.promptId first.turn first.edges = nameOf second.promptId second.turn second.edges := by
  rw [isFirst.key, isSecond.key]
  exact key_inj (isPromptId_nameOf isFirst) (isPromptId_nameOf isSecond)

def CountedApart (first second : Edge) : Prop :=
  first.life = second.life → first.edges = second.edges → first.edges = 2 ^ 53

theorem keysApart_iff (isFirst : IsEdge ctx first) (isSecond : IsEdge ctx second)
    (counted : CountedApart first second) : KeysApart first second ↔ NamesApart first second := by
  have flags (apart : first.attention.key ≠ second.attention.key) (stored : FleetSessionAttention)
      (same : stored.key = first.attention.key) : nextAttention (some stored) (some second.attention) =
        some { second.attention with acknowledgedAt := none } :=
    nextAttention_flagged (by rw [same]; exact apart)
  constructor
  · intro keys other reasons
    have apart := (keys other).1
    rw [Ne, keys_eq_iff isFirst isSecond] at apart
    have names := fun same => apart ⟨reasons, same⟩
    refine ⟨fun none none' _ => ?_, fun none spelled => ?_, fun none spelled => ?_⟩
    · rw [nameOf, nameOf, none, none', Option.getD_none, Option.getD_none, edgeId_inj] at names
      exact names
    · rw [nameOf, nameOf, none, spelled] at names
      exact names rfl
    · rw [nameOf, nameOf, none, spelled] at names
      exact names rfl
  · intro names other
    have apart : first.attention.key ≠ second.attention.key := by
      rw [Ne, keys_eq_iff isFirst isSecond]
      rintro ⟨reasons, same⟩
      obtain ⟨counters, spelled, spelled'⟩ := names other reasons
      rw [nameOf, nameOf] at same
      cases usable : usableId first.promptId with
      | none =>
        cases usable' : usableId second.promptId with
        | none =>
          rw [usable, usable', Option.getD_none, Option.getD_none, edgeId_inj] at same
          refine counters usable usable' ?_ same
          by_cases lives : first.life = second.life
          · exact .inr (counted lives same.2)
          · exact .inl lives
        | some id =>
          rw [usable, usable', Option.getD_none, Option.getD_some] at same
          exact spelled' usable (by rw [usable', same])
      | some id =>
        cases usable' : usableId second.promptId with
        | none =>
          rw [usable, usable', Option.getD_none, Option.getD_some] at same
          exact spelled usable' (by rw [usable, same])
        | some id' =>
          rw [usable, usable', Option.getD_some, Option.getD_some] at same
          have given := (Option.filter_eq_some_iff.mp usable).1
          have given' := (Option.filter_eq_some_iff.mp usable').1
          exact other ⟨by rw [given]; rfl, by rw [given, given', same]⟩
    exact ⟨apart, flags apart⟩

variable (ctx) in
structure Counted (node : NodeHistory) : Prop where
  turn : node.snapshot.turn ≤ 2 ^ 53
  edges : node.snapshot.edges ≤ 2 ^ 53
  each : ∀ edge ∈ node.raised, IsEdge ctx edge ∧ edge.life ≤ node.life ∧
    (edge.life = node.life → edge.edges ≤ node.snapshot.edges)
  apart : node.raised.Pairwise CountedApart

theorem Counted.step (counted : Counted ctx node) (event : NodeEvent) : Counted ctx (nodeStep ctx node event) := by
  cases event with
  | restart now =>
    refine ⟨Nat.zero_le _, Nat.zero_le _, fun edge listed => ?_, counted.apart⟩
    obtain ⟨isEdge, before, _⟩ := counted.each edge listed
    refine ⟨isEdge, Nat.le_succ_of_le before, fun same => ?_⟩
    exact absurd same (Nat.ne_of_lt (Nat.lt_succ_of_le before))
  | evidence evidence =>
    rw [nodeStep.eq_def]
    dsimp only
    split
    · exact counted
    · rename_i result merged
      obtain ⟨edges, turn⟩ := merge_counts merged
      have grows : node.snapshot.edges ≤ result.next.edges := by
        rcases edges with same | more
        · exact same.ge
        · rw [more]
          exact le_increment _
      have few : result.next.edges ≤ 2 ^ 53 := by
        rcases edges with same | more
        · exact same.le.trans counted.edges
        · rw [more]
          exact increment_le counted.edges
      have few' : result.next.turn ≤ 2 ^ 53 := by
        rcases turn with same | more
        · exact same.le.trans counted.turn
        · rw [more]
          exact increment_le counted.turn
      have old : ∀ edge ∈ node.raised, IsEdge ctx edge ∧ edge.life ≤ node.life ∧
          (edge.life = node.life → edge.edges ≤ result.next.edges) := by
        intro edge listed
        obtain ⟨isEdge, before, below⟩ := counted.each edge listed
        exact ⟨isEdge, before, fun same => (below same).trans grows⟩
      cases raised : edgeOf ctx node.life node.snapshot evidence result with
      | none =>
        rw [Option.toList_none, append_nil]
        exact ⟨few', few, old, counted.apart⟩
      | some new =>
        obtain ⟨life, sameTurn, sameEdges, next, key⟩ := edgeOf_spec merged raised
        rw [Option.toList_some]
        refine ⟨few', few, fun edge listed => ?_, ?_⟩
        · rcases mem_append.mp listed with before | own
          · exact old edge before
          · rw [mem_singleton.mp own]
            refine ⟨⟨?_, ?_, key⟩, life.le, fun _ => ?_⟩
            · rw [sameTurn]
              exact counted.turn
            · rw [sameEdges]
              exact increment_le counted.edges
            · rw [sameEdges]
              exact next.ge
        · refine pairwise_append.mpr ⟨counted.apart, pairwise_singleton _ _, fun edge before own inside => ?_⟩
          rw [mem_singleton.mp inside]
          intro lives same
          have below := (counted.each edge before).2.2 (lives.trans life)
          rw [sameEdges, increment] at same
          split at same
          · omega
          · have := counted.edges
            omega

theorem counted_run : Counted ctx (run (nodeStep ctx) ⟨initialFleetSessionStatus start, 0, []⟩ events) := by
  have begins : Counted ctx ⟨initialFleetSessionStatus start, 0, []⟩ :=
    ⟨Nat.zero_le _, Nat.zero_le _, fun _ raised => absurd raised not_mem_nil, List.Pairwise.nil⟩
  have steps : ∀ node event, Counted ctx node → True → Counted ctx (nodeStep ctx node event) :=
    fun node event counted _ => counted.step event
  exact run_along steps begins (along_of_forall (fun _ _ => trivial) _)

end

/-- Prompts keep their keys apart exactly in the runs whose edges' names are apart. -/
theorem keysApart_iff_namesApart (ctx : FleetSessionMergeContext) (start : Int) (events : List NodeEvent) :
    (edgesOf ctx start events).Pairwise KeysApart ↔ (edgesOf ctx start events).Pairwise NamesApart := by
  have counted : Counted ctx (run (nodeStep ctx) ⟨initialFleetSessionStatus start, 0, []⟩ events) := counted_run
  constructor
  · intro keys
    refine List.Pairwise.imp_of_mem (fun first second both => ?_) (keys.and counted.apart)
    exact (keysApart_iff (counted.each _ first).1 (counted.each _ second).1 both.2).mp both.1
  · intro names
    refine List.Pairwise.imp_of_mem (fun first second both => ?_) (names.and counted.apart)
    exact (keysApart_iff (counted.each _ first).1 (counted.each _ second).1 both.2).mpr both.1

/-- A permission that the screen asks for before and after a restart of the node. -/
theorem restarted_node_repeats_key :
    ¬ (edgesOf ⟨Utf16.ofString "s", .codex⟩ 0 [.evidence (bare .rules .permission 1), .restart 2,
      .evidence (bare .rules .permission 3)]).Pairwise KeysApart := by
  intro apart
  have keys := apart.imp fun {first second} (keys : KeysApart first second) other => (keys other).1
  exact absurd keys (by decide)

end EverWorks.Sessions
