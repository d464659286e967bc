import EverWorks.Fleet.UsageSamples
import Mathlib.Data.Int.ConditionallyCompleteOrder
import Mathlib.Order.Lattice.Nat

/-!
Counts and times of a bucket as one element of a lattice, in which a merge is the join. When every sample is the least
upper bound of the rows that were ingested into it, and keeps its owner, in every order of the calls.
-/

namespace EverWorks.Fleet
open Lib Lib.Program List

/-- The four token counts, the requests, the first time (an earlier one is larger) and the last, field by field. -/
abbrev Reading := Nat × Nat × Nat × Nat × Nat × WithBot Intᵒᵈ × WithBot Int

def earliest (time : Option Int) : WithBot Intᵒᵈ := time.elim ⊥ fun time => (OrderDual.toDual time : Intᵒᵈ)

def latest (time : Option Int) : WithBot Int := time.elim ⊥ fun time => (time : WithBot Int)

def readingOf (tokens : FleetUsageTokens) (requests : Nat) (firstAt lastAt : Option Int) : Reading :=
  (tokens.input, tokens.output, tokens.cacheRead, tokens.cacheWrite, requests, earliest firstAt, latest lastAt)

def FleetUsageRow.reading (row : FleetUsageRow) : Reading :=
  readingOf row.tokens row.requests (some row.firstAt) (some row.lastAt)

def FleetUsageSample.reading (sample : FleetUsageSample) : Reading :=
  readingOf sample.tokens sample.requests sample.firstAt sample.lastAt

def StoredBucket.reading (stored : StoredBucket) : Reading :=
  readingOf stored.tokens stored.requests stored.firstAt stored.lastAt

def MergedBucket.reading (merged : MergedBucket) : Reading :=
  readingOf merged.tokens merged.requests (some merged.firstAt) (some merged.lastAt)

theorem mergeBucket_reading (stored : StoredBucket) (row : FleetUsageRow) :
    (mergeBucket stored row).reading = stored.reading ⊔ row.reading := by
  have first : earliest (some (mergeBucket stored row).firstAt) =
      earliest stored.firstAt ⊔ earliest (some row.firstAt) := by
    simp only [mergeBucket]
    cases stored.firstAt with
    | none => rfl
    | some firstAt =>
      dsimp only
      split
      · rename_i earlier
        have within : earliest (some row.firstAt) ≤ earliest (some firstAt) :=
          WithBot.coe_le_coe.mpr (OrderDual.toDual_le_toDual.mpr earlier)
        exact (sup_eq_left.mpr within).symm
      · rename_i later
        have within : earliest (some firstAt) ≤ earliest (some row.firstAt) :=
          WithBot.coe_le_coe.mpr (OrderDual.toDual_le_toDual.mpr (le_of_not_ge later))
        exact (sup_eq_right.mpr within).symm
  have last : latest (some (mergeBucket stored row).lastAt) = latest stored.lastAt ⊔ latest (some row.lastAt) := by
    simp only [mergeBucket]
    cases stored.lastAt with
    | none => rfl
    | some lastAt =>
      dsimp only
      split
      · rename_i later
        have within : latest (some row.lastAt) ≤ latest (some lastAt) := WithBot.coe_le_coe.mpr later
        exact (sup_eq_left.mpr within).symm
      · rename_i earlier
        have within : latest (some lastAt) ≤ latest (some row.lastAt) :=
          WithBot.coe_le_coe.mpr (le_of_not_ge earlier)
        exact (sup_eq_right.mpr within).symm
  rw [MergedBucket.reading, readingOf, first, last]
  rfl

theorem le_of_unchanged {stored : StoredBucket} {row : FleetUsageRow}
    (unchanged : (mergeBucket stored row).changed = false) : row.reading ≤ stored.reading := by
  have same : (mergeBucket stored row).reading = stored.reading := by
    simp only [mergeBucket, Bool.or_eq_false_iff, decide_eq_false_iff_not, not_not] at unchanged
    obtain ⟨⟨⟨tokens, requests⟩, firstAt⟩, lastAt⟩ := unchanged
    simp only [MergedBucket.reading, StoredBucket.reading, mergeBucket]
    rw [tokens, requests, firstAt, lastAt]
  rw [mergeBucket_reading] at same
  exact sup_eq_left.mp same

section
variable {deps : UsageDeps} {nodeId : String}

theorem mergeRows_reading (seen row : FleetUsageRow) : (mergeRows seen row).reading = seen.reading ⊔ row.reading :=
  mergeBucket_reading ⟨seen.tokens, seen.requests, some seen.firstAt, some seen.lastAt⟩ row

theorem keyRows_within (rows : List FleetUsageRow) {keyed : KeyedRow} (listed : keyed ∈ keyRows deps nodeId rows)
    {bound : Reading}
    (bounds : ∀ row ∈ rows, fleetUsageDedupeKey deps nodeId row = keyed.key → row.reading ≤ bound) :
    keyed.row.reading ≤ bound := by
  induction rows using List.reverseRecOn generalizing keyed with
  | nil => cases listed
  | append_singleton rows row ih =>
    have before {old : KeyedRow} (member : old ∈ keyRows deps nodeId rows) (same : old.key = keyed.key) :
        old.row.reading ≤ bound :=
      ih member fun other inside key => bounds other (mem_append_left _ inside) (key.trans same)
    have own (same : fleetUsageDedupeKey deps nodeId row = keyed.key) : row.reading ≤ bound :=
      bounds row (mem_append_right _ (mem_singleton_self row)) same
    rw [keyRows, foldl_append, foldl_cons, foldl_nil, keyRow] at listed
    split at listed
    · obtain ⟨old, member, rfl⟩ := mem_map.mp listed
      split
      · rename_i same
        rw [if_pos same] at before own
        rw [mergeRows_reading]
        exact sup_le (before member rfl) (own same.symm)
      · rename_i other
        rw [if_neg other] at before
        exact before member rfl
    · rcases mem_append.mp listed with member | member
      · exact before member rfl
      · rw [mem_singleton.mp member] at own ⊢
        exact own rfl

variable (deps nodeId) in
theorem keyRows_covers (rows : List FleetUsageRow) {row : FleetUsageRow} (listed : row ∈ rows) :
    ∃ keyed ∈ keyRows deps nodeId rows, keyed.key = fleetUsageDedupeKey deps nodeId row ∧
      row.reading ≤ keyed.row.reading := by
  induction rows using List.reverseRecOn with
  | nil => cases listed
  | append_singleton rows last ih =>
    rw [keyRows, foldl_append, foldl_cons, foldl_nil, keyRow, ← keyRows]
    split
    · rename_i had
      rcases mem_append.mp listed with earlier | own
      · obtain ⟨keyed, member, same, within⟩ := ih earlier
        refine ⟨_, mem_map_of_mem member, ?_, ?_⟩
        · split
          · exact same
          · exact same
        · split
          · rw [mergeRows_reading]
            exact within.trans le_sup_left
          · exact within
      · rw [mem_singleton.mp own]
        obtain ⟨keyed, member, same⟩ := any_eq_true.mp had
        rw [decide_eq_true_eq] at same
        refine ⟨_, mem_map_of_mem member, ?_, ?_⟩
        · rw [if_pos same]
          exact same
        · rw [if_pos same, mergeRows_reading]
          exact le_sup_right
    · rcases mem_append.mp listed with earlier | own
      · obtain ⟨keyed, member, rest⟩ := ih earlier
        exact ⟨keyed, mem_append_left _ member, rest⟩
      · rw [mem_singleton.mp own]
        exact ⟨_, mem_append_right _ (mem_singleton_self _), rfl, le_rfl⟩

end

end EverWorks.Fleet
