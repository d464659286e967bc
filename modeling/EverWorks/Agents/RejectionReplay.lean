import EverWorks.Lib.Run
import Mathlib.Data.List.Sort

/-!
A resumed run reads the oldest rejections of its task that are pending and marks them as its own, in two statements.
What it composes is what it read, as soon as it won one row of it.
-/

namespace EverWorks.Agents.Replay
open Lib List List

/-- A row of `task_review_rejections`. Runs are known by numbers. -/
structure Rejection where
  id : Nat
  createdAt : Int
  feedback : String
  consumedByRunId : Option Nat := none
  deriving DecidableEq

def maxReplayedRejections : Nat := 3

def findPendingForTask (rows : List Rejection) (limit : Nat) : List Rejection :=
  ((rows.filter (·.consumedByRunId.isNone)).insertionSort (fun a b => a.createdAt ≤ b.createdAt)).take
    (max 1 (min 20 limit))

/-- Whether the update of `markConsumed` takes a row. -/
def wins (ids : List Nat) (row : Rejection) : Bool := row.id ∈ ids && row.consumedByRunId.isNone

def markConsumed (rows : List Rejection) (ids : List Nat) (runId : Nat) : Nat × List Rejection :=
  if ids = [] then (0, rows)
  else ((rows.filter (wins ids)).length,
    rows.map fun row => if wins ids row then { row with consumedByRunId := some runId } else row)

/-- The rejections of one task and the calls of `claimRejectionFeedback` for the runs that resume it. -/
structure State where
  rows : List Rejection := []
  /-- The runs that have called. Each resume has a run of its own. -/
  begun : List Nat := []
  /-- The calls between their read and their update, with what they read. -/
  reads : List (Nat × List Rejection) := []
  /-- What went into the inputs of the runs. -/
  composed : List (Nat × List Rejection) := []
  deriving DecidableEq

inductive Event where
  | record (createdAt : Int) (feedback : String)
  | find (runId : Nat)
  | findFails (runId : Nat)
  | mark (runId : Nat)
  | markFails (runId : Nat)
  deriving DecidableEq

namespace State

def without (runId : Nat) (reads : List (Nat × List Rejection)) : List (Nat × List Rejection) :=
  reads.filter (·.1 ≠ runId)

def step (state : State) : Event → State
  | .record createdAt feedback =>
    { state with rows := state.rows ++ [{ id := state.rows.length, createdAt, feedback }] }
  | .find runId =>
    if runId ∈ state.begun then state
    else
      let pending := findPendingForTask state.rows maxReplayedRejections
      { state with
        begun := runId :: state.begun
        reads := if pending.length = 0 then state.reads else (runId, pending) :: state.reads }
  | .findFails runId => { state with begun := runId :: state.begun }
  | .mark runId =>
    match state.reads.lookup runId with
    | none => state
    | some pending =>
      let (claimed, rows) := markConsumed state.rows (pending.map (·.id)) runId
      { state with
        rows
        reads := without runId state.reads
        composed := if claimed = 0 then state.composed else (runId, pending) :: state.composed }
  | .markFails runId => { state with reads := without runId state.reads }

/-- Each rejection is in the input of one run at most and once in it, and a run's input has exactly the rejections
consumed under its id. -/
structure ReplayedOnce (state : State) : Prop where
  once : (state.composed.flatMap fun entry => entry.2.map (·.id)).Nodup
  own : ∀ runId id, (∃ entry ∈ state.composed, entry.1 = runId ∧ id ∈ entry.2.map (·.id)) ↔
    ∃ row ∈ state.rows, row.id = id ∧ row.consumedByRunId = some runId

def isPending (state : State) (id : Nat) : Bool :=
  state.rows.any fun row => row.id = id && row.consumedByRunId.isNone

def Whole (state : State) : Event → Prop
  | .mark runId => ∀ pending, state.reads.lookup runId = some pending →
      (∀ row ∈ pending, state.isPending row.id = true) ∨ ∀ row ∈ pending, state.isPending row.id = false
  | _ => True

structure Sound (state : State) : Prop where
  ids : state.rows.map (·.id) = range state.rows.length
  runs : (state.reads.map (·.1)).Nodup
  reading : ∀ entry ∈ state.reads, entry.1 ∈ state.begun ∧ entry.2 ≠ [] ∧ (entry.2.map (·.id)).Nodup ∧
    ∀ row ∈ entry.2, row.id < state.rows.length
  composing : ∀ entry ∈ state.composed, entry.1 ∈ state.begun ∧ entry.1 ∉ state.reads.map (·.1)
  consuming : ∀ row ∈ state.rows, ∀ runId, row.consumedByRunId = some runId →
    runId ∈ state.begun ∧ runId ∉ state.reads.map (·.1)

section
variable {state : State}

theorem Sound.row_eq (sound : state.Sound) {row other : Rejection} (listed : row ∈ state.rows)
    (listed' : other ∈ state.rows) (same : row.id = other.id) : row = other := by
  have nodup : (state.rows.map (·.id)).Nodup := sound.ids ▸ nodup_range
  exact inj_on_of_nodup_map nodup listed listed' same

theorem isPending_iff {id : Nat} :
    state.isPending id = true ↔ ∃ row ∈ state.rows, row.id = id ∧ row.consumedByRunId = none := by
  simp [isPending]

theorem mem_of_lookup {runId : Nat} {pending : List Rejection} {reads : List (Nat × List Rejection)}
    (read : reads.lookup runId = some pending) : (runId, pending) ∈ reads := by
  obtain ⟨front, back, rfl, -⟩ := lookup_eq_some_iff.mp read
  exact mem_append_right _ mem_cons_self

variable {rows : List Rejection}

theorem mem_findPending {limit : Nat} {row : Rejection}
    (listed : row ∈ findPendingForTask rows limit) : row ∈ rows ∧ row.consumedByRunId = none := by
  have sorted := mem_of_mem_take listed
  rw [mem_insertionSort, mem_filter, Option.isNone_iff_eq_none] at sorted
  exact sorted

theorem nodup_findPending (nodup : (rows.map (·.id)).Nodup) (limit : Nat) :
    ((findPendingForTask rows limit).map (·.id)).Nodup := by
  have kept : ((rows.filter (·.consumedByRunId.isNone)).map (·.id)).Nodup :=
    nodup.sublist (filter_sublist.map _)
  have sorted := (((rows.filter (·.consumedByRunId.isNone)).perm_insertionSort
    (fun a b => a.createdAt ≤ b.createdAt)).map (·.id)).nodup_iff.mpr kept
  exact sorted.sublist ((take_sublist _ _).map _)

theorem mem_without {runId : Nat} {reads : List (Nat × List Rejection)} {entry : Nat × List Rejection} :
    entry ∈ without runId reads ↔ entry ∈ reads ∧ entry.1 ≠ runId := by
  rw [without, mem_filter, decide_eq_true_eq]

variable {runId : Nat} {pending : List Rejection}

def taken (rows : List Rejection) (ids : List Nat) (runId : Nat) : List Rejection :=
  rows.map fun row => if wins ids row then { row with consumedByRunId := some runId } else row

theorem markConsumed_eq {ids : List Nat} (some : ids ≠ []) :
    markConsumed rows ids runId = ((rows.filter (wins ids)).length, taken rows ids runId) := if_neg some

theorem taken_ids (rows : List Rejection) (ids : List Nat) (runId : Nat) :
    (taken rows ids runId).map (·.id) = rows.map (·.id) := by
  rw [taken, map_map]
  refine map_congr_left fun row _ => ?_
  dsimp only [Function.comp]
  split <;> rfl

theorem mem_taken {ids : List Nat} {id owner : Nat} :
    (∃ row ∈ taken rows ids runId, row.id = id ∧ row.consumedByRunId = some owner) ↔
      (∃ row ∈ rows, row.id = id ∧ row.consumedByRunId = some owner) ∨
        owner = runId ∧ ∃ row ∈ rows, row.id = id ∧ wins ids row = true := by
  rw [taken]
  constructor
  · rintro ⟨row, listed, rfl, consumed⟩
    obtain ⟨old, inside, rfl⟩ := mem_map.mp listed
    split at consumed
    · rename_i won
      rw [if_pos won]
      exact .inr ⟨(Option.some.inj consumed).symm, old, inside, rfl, won⟩
    · rename_i lost
      rw [if_neg lost]
      exact .inl ⟨old, inside, rfl, consumed⟩
  · rintro (⟨row, listed, rfl, consumed⟩ | ⟨rfl, row, listed, rfl, won⟩)
    · have lost : wins ids row = false := by simp [wins, consumed]
      refine ⟨row, mem_map.mpr ⟨row, listed, ?_⟩, rfl, consumed⟩
      rw [lost]
      rfl
    · refine ⟨{ row with consumedByRunId := some owner }, mem_map.mpr ⟨row, listed, ?_⟩, rfl, rfl⟩
      rw [won]
      rfl

theorem Sound.step (sound : state.Sound) (event : Event) : (state.step event).Sound := by
  cases event with
  | record createdAt feedback =>
    refine ⟨?_, sound.runs, fun entry listed => ?_, sound.composing, fun row listed runId consumed => ?_⟩
    · show (state.rows ++ [_]).map Rejection.id = range (state.rows ++ [_]).length
      rw [map_append, sound.ids, length_append, length_singleton, range_succ]
      rfl
    · obtain ⟨begun, some, distinct, below⟩ := sound.reading entry listed
      refine ⟨begun, some, distinct, fun row inside => ?_⟩
      have known := below row inside
      show row.id < (state.rows ++ [_]).length
      rw [length_append]
      omega
    · rcases mem_append.mp listed with old | new
      · exact sound.consuming row old runId consumed
      · rw [mem_singleton.mp new] at consumed
        cases consumed
  | find runId =>
    dsimp only [State.step]
    split
    · exact sound
    · rename_i fresh
      have unread : runId ∉ state.reads.map (·.1) := by
        intro listed
        obtain ⟨entry, inside, rfl⟩ := mem_map.mp listed
        exact fresh (sound.reading entry inside).1
      have nodup : (state.rows.map (·.id)).Nodup := sound.ids ▸ nodup_range
      have older {entry : Nat × List Rejection} (listed : entry ∈ state.reads) :
          entry.1 ∈ runId :: state.begun ∧ entry.2 ≠ [] ∧ (entry.2.map (·.id)).Nodup ∧
            ∀ row ∈ entry.2, row.id < state.rows.length := by
        obtain ⟨begun, rest⟩ := sound.reading entry listed
        exact ⟨mem_cons_of_mem _ begun, rest⟩
      split
      · exact ⟨sound.ids, sound.runs, fun entry listed => older listed,
          fun entry listed => ⟨mem_cons_of_mem _ (sound.composing entry listed).1, (sound.composing entry listed).2⟩,
          fun row listed owner consumed => ⟨mem_cons_of_mem _ (sound.consuming row listed owner consumed).1,
            (sound.consuming row listed owner consumed).2⟩⟩
      · rename_i some
        have apart {owner : Nat} (begun : owner ∈ state.begun) (quiet : owner ∉ state.reads.map (·.1)) :
            owner ∈ runId :: state.begun ∧
              owner ∉ ((runId, findPendingForTask state.rows maxReplayedRejections) :: state.reads).map (·.1) := by
          refine ⟨mem_cons_of_mem _ begun, fun listed => ?_⟩
          rcases mem_cons.mp listed with rfl | old
          · exact fresh begun
          · exact quiet old
        refine ⟨sound.ids, nodup_cons.mpr ⟨unread, sound.runs⟩, fun entry listed => ?_,
          fun entry listed => apart (sound.composing entry listed).1 (sound.composing entry listed).2,
          fun row listed owner consumed => apart (sound.consuming row listed owner consumed).1
            (sound.consuming row listed owner consumed).2⟩
        rcases mem_cons.mp listed with rfl | old
        · refine ⟨mem_cons_self, fun none => some (congrArg length none), nodup_findPending nodup _, fun row inside => ?_⟩
          have member : row.id ∈ range state.rows.length :=
            sound.ids ▸ mem_map_of_mem (mem_findPending inside).1
          exact mem_range.mp member
        · exact older old
  | findFails runId =>
    exact ⟨sound.ids, sound.runs,
      fun entry listed => ⟨mem_cons_of_mem _ (sound.reading entry listed).1, (sound.reading entry listed).2⟩,
      fun entry listed => ⟨mem_cons_of_mem _ (sound.composing entry listed).1, (sound.composing entry listed).2⟩,
      fun row listed owner consumed => ⟨mem_cons_of_mem _ (sound.consuming row listed owner consumed).1,
        (sound.consuming row listed owner consumed).2⟩⟩
  | mark runId =>
    dsimp only [State.step]
    split
    · exact sound
    · rename_i pending read
      have there := mem_of_lookup read
      obtain ⟨begun, some, distinct, below⟩ := sound.reading _ there
      have quiet : runId ∉ (without runId state.reads).map (·.1) := by
        intro listed
        obtain ⟨entry, inside, same⟩ := mem_map.mp listed
        exact (mem_without.mp inside).2 same
      have still {owner : Nat} (quiet : owner ∉ state.reads.map (·.1)) :
          owner ∉ (without runId state.reads).map (·.1) := by
        intro listed
        obtain ⟨entry, inside, rfl⟩ := mem_map.mp listed
        exact quiet (mem_map_of_mem (mem_without.mp inside).1)
      rw [markConsumed_eq (by simpa using some)]
      have count : (taken state.rows (pending.map (·.id)) runId).length = state.rows.length := length_map _
      refine ⟨?_, sound.runs.sublist (filter_sublist.map _), fun entry listed => ?_, fun entry listed => ?_,
        fun row listed owner consumed => ?_⟩
      · show (taken _ _ _).map (·.id) = range (taken _ _ _).length
        rw [taken_ids, sound.ids, count]
      · obtain ⟨begun, some, distinct, below⟩ := sound.reading entry (mem_without.mp listed).1
        exact ⟨begun, some, distinct, fun row inside => count.symm ▸ below row inside⟩
      · have old (listed : entry ∈ state.composed) :
            entry.1 ∈ state.begun ∧ entry.1 ∉ (without runId state.reads).map (·.1) :=
          ⟨(sound.composing entry listed).1, still (sound.composing entry listed).2⟩
        dsimp only at listed
        split at listed
        · exact old listed
        · rcases mem_cons.mp listed with rfl | before
          · exact ⟨begun, quiet⟩
          · exact old before
      · have consumedRow : ∃ other ∈ taken state.rows (pending.map (·.id)) runId, other.id = row.id ∧
            other.consumedByRunId = Option.some owner := ⟨row, listed, rfl, consumed⟩
        rcases mem_taken.mp consumedRow with ⟨old, inside, -, consumed⟩ | ⟨rfl, -⟩
        · exact ⟨(sound.consuming old inside owner consumed).1, still (sound.consuming old inside owner consumed).2⟩
        · exact ⟨begun, quiet⟩
  | markFails runId =>
    have still {owner : Nat} (quiet : owner ∉ state.reads.map (·.1)) :
        owner ∉ (without runId state.reads).map (·.1) := by
      intro listed
      obtain ⟨entry, inside, rfl⟩ := mem_map.mp listed
      exact quiet (mem_map_of_mem (mem_without.mp inside).1)
    exact ⟨sound.ids, sound.runs.sublist (filter_sublist.map _),
      fun entry listed => sound.reading entry (mem_without.mp listed).1,
      fun entry listed => ⟨(sound.composing entry listed).1, still (sound.composing entry listed).2⟩,
      fun row listed owner consumed => ⟨(sound.consuming row listed owner consumed).1,
        still (sound.consuming row listed owner consumed).2⟩⟩

theorem ReplayedOnce.congr {other : State} (replayed : ReplayedOnce state)
    (composed : other.composed = state.composed)
    (consumed : ∀ runId id, (∃ row ∈ other.rows, row.id = id ∧ row.consumedByRunId = some runId) ↔
      ∃ row ∈ state.rows, row.id = id ∧ row.consumedByRunId = some runId) : ReplayedOnce other := by
  refine ⟨composed.symm ▸ replayed.once, fun runId id => ?_⟩
  rw [consumed, composed]
  exact replayed.own runId id

theorem exists_won (id : Nat) :
    (∃ row ∈ state.rows, row.id = id ∧ wins (pending.map (·.id)) row = true) ↔
      id ∈ pending.map (·.id) ∧ state.isPending id = true := by
  rw [isPending_iff]
  constructor
  · rintro ⟨row, listed, rfl, won⟩
    rw [wins, Bool.and_eq_true, decide_eq_true_eq, Option.isNone_iff_eq_none] at won
    exact ⟨won.1, row, listed, rfl, won.2⟩
  · rintro ⟨asked, row, listed, rfl, free⟩
    refine ⟨row, listed, rfl, ?_⟩
    rw [wins, Bool.and_eq_true, decide_eq_true_eq, Option.isNone_iff_eq_none]
    exact ⟨asked, free⟩

theorem claimed_eq_zero :
    (state.rows.filter (wins (pending.map (·.id)))).length = 0 ↔
      ∀ row ∈ pending, state.isPending row.id = false := by
  rw [length_eq_zero_iff, filter_eq_nil_iff]
  constructor
  · intro lost row listed
    rw [← Bool.not_eq_true]
    intro free
    have asked : row.id ∈ pending.map (·.id) := mem_map_of_mem listed
    obtain ⟨other, inside, -, won⟩ := (exists_won row.id).mpr ⟨asked, free⟩
    exact lost other inside won
  · intro lost row listed won
    obtain ⟨asked, free⟩ := (exists_won row.id).mp ⟨row, listed, rfl, won⟩
    obtain ⟨other, inside, same⟩ := mem_map.mp asked
    have absent := lost other inside
    rw [same, free] at absent
    cases absent

theorem replayedOnce_mark (sound : state.Sound) (replayed : ReplayedOnce state)
    (read : state.reads.lookup runId = some pending) : ReplayedOnce (state.step (.mark runId)) ↔
      (∀ row ∈ pending, state.isPending row.id = true) ∨ ∀ row ∈ pending, state.isPending row.id = false := by
  obtain ⟨begun, nonempty, distinct, known⟩ := sound.reading _ (mem_of_lookup read)
  have quiet : runId ∈ state.reads.map (·.1) := mem_map_of_mem (mem_of_lookup read)
  have unused : ¬ ∃ row ∈ state.rows, row.consumedByRunId = some runId := by
    rintro ⟨row, listed, consumed⟩
    exact (sound.consuming row listed runId consumed).2 quiet
  have rows : (state.step (.mark runId)).rows = taken state.rows (pending.map (·.id)) runId := by
    dsimp only [State.step]
    rw [read]
    dsimp only
    rw [markConsumed_eq (by simpa using nonempty)]
  have composed : (state.step (.mark runId)).composed =
      if (state.rows.filter (wins (pending.map (·.id)))).length = 0 then state.composed
      else (runId, pending) :: state.composed := by
    dsimp only [State.step]
    rw [read]
    dsimp only
    rw [markConsumed_eq (by simpa using nonempty)]
  -- Under the run's own id stand the rows its update wins, under another's what stood there before.
  have consumed (owner id : Nat) :
      (∃ row ∈ (state.step (.mark runId)).rows, row.id = id ∧ row.consumedByRunId = some owner) ↔
        (∃ row ∈ state.rows, row.id = id ∧ row.consumedByRunId = some owner) ∨
          owner = runId ∧ id ∈ pending.map (·.id) ∧ state.isPending id = true := by
    rw [rows, mem_taken, exists_won]
  by_cases lost : (state.rows.filter (wins (pending.map (·.id)))).length = 0
  · have none := (claimed_eq_zero).mp lost
    refine iff_of_true (replayed.congr (by rw [composed, if_pos lost]) fun owner id => ?_) (.inr none)
    rw [consumed, or_iff_left]
    rintro ⟨-, asked, free⟩
    obtain ⟨row, listed, rfl⟩ := mem_map.mp asked
    rw [none row listed] at free
    cases free
  · have added : (state.step (.mark runId)).composed = (runId, pending) :: state.composed := by
      rw [composed, if_neg lost]
    constructor
    · intro after
      refine .inl fun row listed => ?_
      have inside : ∃ entry ∈ (state.step (.mark runId)).composed, entry.1 = runId ∧ row.id ∈ entry.2.map (·.id) := by
        rw [added]
        exact ⟨_, mem_cons_self, rfl, mem_map_of_mem listed⟩
      rcases (consumed runId row.id).mp ((after.own runId row.id).mp inside) with ⟨old, there, -, owned⟩ | ⟨-, -, free⟩
      · exact absurd ⟨old, there, owned⟩ unused
      · exact free
    · intro whole
      have free : ∀ row ∈ pending, state.isPending row.id = true := by
        rcases whole with all | none
        · exact all
        · exact absurd ((claimed_eq_zero).mpr none) lost
      refine ⟨?_, fun owner id => ?_⟩
      · rw [added, flatMap_cons]
        refine distinct.append replayed.once fun id mine theirs => ?_
        obtain ⟨row, listed, rfl⟩ := mem_map.mp mine
        obtain ⟨entry, before, inside⟩ := mem_flatMap.mp theirs
        obtain ⟨old, there, same, owned⟩ := (replayed.own entry.1 row.id).mp ⟨entry, before, rfl, inside⟩
        obtain ⟨other, there', same', unowned⟩ := isPending_iff.mp (free row listed)
        rw [sound.row_eq there there' (same.trans same'.symm), unowned] at owned
        cases owned
      · rw [consumed, added]
        constructor
        · rintro ⟨entry, listed, rfl, inside⟩
          rcases mem_cons.mp listed with rfl | before
          · obtain ⟨row, mine, rfl⟩ := mem_map.mp inside
            exact .inr ⟨rfl, inside, free row mine⟩
          · exact .inl ((replayed.own entry.1 id).mp ⟨entry, before, rfl, inside⟩)
        · rintro (old | ⟨rfl, asked, -⟩)
          · obtain ⟨entry, before, same, inside⟩ := (replayed.own owner id).mpr old
            exact ⟨entry, mem_cons_of_mem _ before, same, inside⟩
          · exact ⟨_, mem_cons_self, rfl, asked⟩

theorem replayedOnce_step (sound : state.Sound) (replayed : ReplayedOnce state) (event : Event) :
    ReplayedOnce (state.step event) ↔ Whole state event := by
  cases event with
  | record createdAt feedback =>
    refine iff_of_true (replayed.congr rfl fun runId id => ?_) trivial
    constructor
    · rintro ⟨row, listed, same, consumed⟩
      rcases mem_append.mp listed with old | new
      · exact ⟨row, old, same, consumed⟩
      · rw [mem_singleton.mp new] at consumed
        cases consumed
    · rintro ⟨row, listed, same, consumed⟩
      exact ⟨row, mem_append_left _ listed, same, consumed⟩
  | find runId =>
    refine iff_of_true ?_ trivial
    dsimp only [State.step]
    split
    · exact replayed
    · exact replayed.congr rfl fun _ _ => Iff.rfl
  | findFails runId => exact iff_of_true (replayed.congr rfl fun _ _ => Iff.rfl) trivial
  | mark runId =>
    cases read : state.reads.lookup runId with
    | none =>
      have same : state.step (.mark runId) = state := by
        dsimp only [State.step]
        rw [read]
      rw [same]
      refine iff_of_true replayed fun pending found => ?_
      rw [read] at found
      cases found
    | some pending =>
      rw [replayedOnce_mark sound replayed read]
      constructor
      · intro whole other found
        obtain rfl := Option.some.inj (read.symm.trans found)
        exact whole
      · exact fun whole => whole pending read
  | markFails runId => exact iff_of_true (replayed.congr rfl fun _ _ => Iff.rfl) trivial

end

end State

/-- The inputs are exact at every point of a run if and only if each of its updates finds the rows its call read
all pending still, or none of them. -/
theorem replayed_once_iff (events : List Event) :
    (∀ first, first <+: events → (run State.step {} first).ReplayedOnce) ↔
      Along State.step State.Whole {} events := by
  have sound : ({} : State).Sound := {
    ids := rfl
    runs := nodup_nil
    reading := fun _ listed => absurd listed not_mem_nil
    composing := fun _ listed => absurd listed not_mem_nil
    consuming := fun _ listed => absurd listed not_mem_nil }
  have replayed : ({} : State).ReplayedOnce := {
    once := nodup_nil
    own := by simp }
  have steps : ∀ (state : State) (event : Event), state.Sound → state.ReplayedOnce →
      (state.step event).Sound ∧ ((state.step event).ReplayedOnce ↔ state.Whole event) :=
    fun state event sound replayed => ⟨sound.step event, State.replayedOnce_step sound replayed event⟩
  exact initial_iff_along_of steps sound replayed

/-- The second call reads the row of the first and one more, and composes both. -/
theorem overlapping_reads_repeat :
    ¬ (run State.step {} [.record 1 "tests missing", .find 1, .record 2 "wrong branch", .find 2, .mark 1,
      .mark 2]).ReplayedOnce := by
  intro replayed
  have composed : ¬ ((run State.step {} [.record 1 "tests missing", .find 1, .record 2 "wrong branch", .find 2, .mark 1,
      .mark 2]).composed.flatMap fun entry => entry.2.map (·.id)).Nodup := by decide
  exact composed replayed.once

end EverWorks.Agents.Replay
