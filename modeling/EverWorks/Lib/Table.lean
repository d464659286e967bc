import Mathlib.Algebra.Order.BigOperators.Group.List
import Mathlib.Algebra.Order.Ring.Int

/-!
A table is a list of rows with a key. `update` is `UPDATE … SET … WHERE key = k`; its laws say
which rows, columns and column sums it leaves alone.
-/

namespace EverWorks.Lib.Table
open List

variable {ρ κ τ : Type*} [DecidableEq κ] {key : ρ → κ} {rows : List ρ} {k : κ} {f : ρ → ρ}

def update (key : ρ → κ) (k : κ) (f : ρ → ρ) (rows : List ρ) : List ρ :=
  rows.map fun row => if key row = k then f row else row

@[simp] theorem length_update : (update key k f rows).length = rows.length := by
  simp [update]

theorem mem_update {row : ρ} :
    row ∈ update key k f rows ↔
      ∃ old ∈ rows, (key old = k ∧ row = f old) ∨ (key old ≠ k ∧ row = old) := by
  unfold update
  rw [mem_map]
  constructor
  · rintro ⟨old, member, rfl⟩
    refine ⟨old, member, ?_⟩
    by_cases hit : key old = k
    · exact Or.inl ⟨hit, by rw [if_pos hit]⟩
    · exact Or.inr ⟨hit, by rw [if_neg hit]⟩
  · rintro ⟨old, member, ⟨hit, rfl⟩ | ⟨miss, rfl⟩⟩
    · exact ⟨old, member, by rw [if_pos hit]⟩
    · exact ⟨row, member, by rw [if_neg miss]⟩

theorem mem_update_of_ne {row : ρ} (member : row ∈ rows) (other : key row ≠ k) :
    row ∈ update key k f rows :=
  mem_update.mpr ⟨row, member, Or.inr ⟨other, rfl⟩⟩

theorem map_update (column : ρ → τ) (frame : ∀ row, column (f row) = column row) :
    (update key k f rows).map column = rows.map column := by
  unfold update
  rw [List.map_map]
  apply map_congr_left
  intro row _
  by_cases hit : key row = k
  · simp [hit, frame]
  · simp [hit]

theorem update_of_not_mem (absent : k ∉ rows.map key) : update key k f rows = rows := by
  unfold update
  conv_rhs => rw [← map_id rows]
  apply map_congr_left
  intro row member
  rw [if_neg (fun hit => absent (mem_map.mpr ⟨row, member, hit⟩))]
  rfl

/-- With unique keys, an update changes a column's sum by what it changes in its one row. -/
theorem sum_update {row : ρ} (column : ρ → Int) (unique : (rows.map key).Nodup)
    (member : row ∈ rows) :
    ((update key (key row) f rows).map column).sum =
      (rows.map column).sum - column row + column (f row) := by
  induction rows with
  | nil => simp at member
  | cons head rest ih =>
    rw [map_cons, nodup_cons] at unique
    rcases mem_cons.mp member with rfl | later
    · have tail : update key (key row) f rest = rest := update_of_not_mem unique.1
      simp only [update] at tail ⊢
      simp only [map_cons, if_true, tail, sum_cons]
      omega
    · have other : key head ≠ key row := fun same =>
        unique.1 (mem_map.mpr ⟨row, later, same.symm⟩)
      have rest := ih unique.2 later
      simp only [update] at rest ⊢
      simp only [map_cons, if_neg other, sum_cons, rest]
      omega

/-- Selecting more rows does not lessen the sum of a column without negative entries. -/
theorem sum_filter_le {p q : ρ → Bool} (column : ρ → Int) (nonneg : ∀ row ∈ rows, 0 ≤ column row)
    (more : ∀ row ∈ rows, p row = true → q row = true) :
    ((rows.filter p).map column).sum ≤ ((rows.filter q).map column).sum := by
  induction rows with
  | nil => exact le_rfl
  | cons head rest ih =>
    have tail := ih (fun row member => nonneg row (mem_cons_of_mem _ member))
      fun row member => more row (mem_cons_of_mem _ member)
    have headNonneg := nonneg head mem_cons_self
    by_cases selected : p head = true
    · rw [filter_cons_of_pos selected,
        filter_cons_of_pos (more head mem_cons_self selected), map_cons,
        map_cons, sum_cons, sum_cons]
      omega
    · rw [filter_cons_of_neg selected, filter_cons]
      split
      · rw [map_cons, sum_cons]
        omega
      · exact tail

/-- The selected part of a column the update does not write, read before the update. -/
theorem sum_filter_update {p : ρ → Bool} (column : ρ → Int)
    (frame : ∀ row, column (f row) = column row) :
    (((update key k f rows).filter p).map column).sum =
      ((rows.filter fun row => p (if key row = k then f row else row)).map column).sum := by
  unfold update
  rw [filter_map, List.map_map]
  congr 1
  apply map_congr_left
  intro row _
  by_cases hit : key row = k
  · simp [hit, frame]
  · simp [hit]

theorem countP_update_lt {p : ρ → Bool} {row : ρ} (member : row ∈ rows) (hit : key row = k) (counted : p row = true)
    (gone : ∀ old, key old = k → p (f old) = false) : (update key k f rows).countP p < rows.countP p := by
  have le (rest : List ρ) : (update key k f rest).countP p ≤ rest.countP p := by
    rw [update, countP_map]
    refine countP_mono_left fun old _ still => ?_
    by_cases same : key old = k
    · simp [same, gone old same] at still
    · simpa [same] using still
  obtain ⟨front, back, rfl⟩ := append_of_mem member
  have split : update key k f (front ++ row :: back) = update key k f front ++ f row :: update key k f back := by
    simp [update, hit]
  rw [split, countP_append, countP_append, countP_cons_of_pos counted,
    countP_cons_of_neg (by simp [gone row hit])]
  have := le front
  have := le back
  omega

end EverWorks.Lib.Table
