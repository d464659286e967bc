import Mathlib.Algebra.GroupWithZero.Nat
import Mathlib.Algebra.Order.BigOperators.Group.List
import Mathlib.Data.List.Dedup
import Mathlib.Data.List.Induction
import Mathlib.Algebra.Order.Group.Nat
import EverWorks.Lib.OrderedMap

/-!
Rows grouped by a key, and amounts added up in a map. A sum over the groups is the sum over their rows.
-/

namespace EverWorks.Lib.Grouping
open List

variable {α : Type*} {κ : Type} [DecidableEq κ]

def sumOf (rows : List α) (column : α → ℕ) (p : α → Bool) : ℕ := ((rows.filter p).map column).sum

def groupBy (key : α → κ) (rows : List α) : List (κ × List α) :=
  (rows.map key).dedup.map fun k => (k, rows.filter fun row => key row = k)

def tally (entries : List (κ × ℕ)) : OrderedMap κ ℕ :=
  entries.foldl (fun map entry => map.set entry.1 ((map.get entry.1).getD 0 + entry.2)) OrderedMap.empty

section
variable {rows : List α} {column : α → ℕ} {p q : α → Bool}

@[simp] theorem sumOf_nil : sumOf [] column p = 0 := rfl

theorem sumOf_cons (row : α) : sumOf (row :: rows) column p = (if p row then column row else 0) + sumOf rows column p := by
  rw [sumOf, filter_cons]
  split
  · rw [map_cons, sum_cons, sumOf]
  · rw [Nat.zero_add, sumOf]

theorem sumOf_true : sumOf rows column (fun _ => true) = (rows.map column).sum := by
  rw [sumOf, filter_true]

theorem sumOf_filter : sumOf (rows.filter q) column p = sumOf rows column fun row => p row && q row := by
  rw [sumOf, filter_filter, sumOf]

theorem sumOf_congr (same : ∀ row ∈ rows, 0 < column row → p row = q row) : sumOf rows column p = sumOf rows column q := by
  induction rows with
  | nil => rfl
  | cons row rest ih =>
    have head := same row mem_cons_self
    rw [sumOf_cons, sumOf_cons, ih fun other member => same other (mem_cons_of_mem _ member)]
    obtain zero | positive := Nat.eq_zero_or_pos (column row)
    · rw [zero, ite_self, ite_self]
    · rw [head positive]

theorem sumOf_eq_zero_iff : sumOf rows column p = 0 ↔ ∀ row ∈ rows, p row → column row = 0 := by
  induction rows with
  | nil => exact iff_of_true rfl fun _ member => by cases member
  | cons row rest ih =>
    rw [sumOf_cons, Nat.add_eq_zero_iff, ih, forall_mem_cons, ite_eq_right_iff]

theorem sumOf_pos_iff : 0 < sumOf rows column p ↔ ∃ row ∈ rows, p row ∧ 0 < column row := by
  rw [Nat.pos_iff_ne_zero, Ne, sumOf_eq_zero_iff]
  push Not
  simp only [Nat.pos_iff_ne_zero]

end

theorem sumOf_split (rows : List α) (column : α → ℕ) (p r : α → Bool) : sumOf rows column p =
    sumOf rows column (fun row => p row && r row) + sumOf rows column fun row => p row && !r row := by
  induction rows with
  | nil => rfl
  | cons row rest ih =>
    rw [sumOf_cons, sumOf_cons, sumOf_cons, ih]
    cases p row <;> cases r row <;> simp <;> omega

theorem sum_keys {key : α → κ} (column : α → ℕ) (keys : List κ) (distinct : keys.Nodup) (rows : List α) :
    (keys.map fun k => sumOf rows column fun row => key row = k).sum = sumOf rows column fun row => key row ∈ keys := by
  induction keys with
  | nil => exact (sumOf_eq_zero_iff.mpr (by simp)).symm
  | cons k rest ih =>
    obtain ⟨absent, distinct⟩ := nodup_cons.mp distinct
    have split := sumOf_split rows column (fun row => key row ∈ k :: rest) fun row => key row = k
    have here : sumOf rows column (fun row => decide (key row ∈ k :: rest) && decide (key row = k)) =
        sumOf rows column fun row => key row = k :=
      sumOf_congr fun row _ _ => by by_cases same : key row = k <;> simp [same]
    have later : sumOf rows column (fun row => decide (key row ∈ k :: rest) && !decide (key row = k)) =
        sumOf rows column fun row => key row ∈ rest :=
      sumOf_congr fun row _ _ => by by_cases same : key row = k <;> simp [same, absent]
    rw [map_cons, sum_cons, ih distinct, split, here, later]

theorem sum_groupBy (key : α → κ) (column : α → ℕ) (p : κ → Bool) (rows : List α) :
    (((groupBy key rows).filter (p ·.1)).map fun group => (group.2.map column).sum).sum =
      sumOf rows column fun row => p (key row) := by
  have keys : ((groupBy key rows).filter (p ·.1)).map (fun group => (group.2.map column).sum) =
      (((rows.map key).dedup.filter p).map fun k => sumOf rows column fun row => key row = k) := by
    rw [groupBy, filter_map, List.map_map]
    rfl
  rw [keys, sum_keys column _ (List.Nodup.filter _ (nodup_dedup _)) rows]
  refine sumOf_congr fun row member _ => ?_
  have here : key row ∈ (rows.map key).dedup := mem_dedup.mpr (mem_map_of_mem member)
  cases holds : p (key row) <;> simp only [mem_filter, here, holds] <;> rfl

theorem sumOf_map {β : Type*} (f : β → α) (rows : List β) (column : α → ℕ) (p : α → Bool) :
    sumOf (rows.map f) column p = sumOf rows (fun row => column (f row)) fun row => p (f row) := by
  rw [sumOf, filter_map, List.map_map, sumOf]
  rfl

theorem sumOf_map_groupBy {β : Type*} {key : α → κ} {make : κ × List α → β} {total : β → ℕ} {p : β → Bool}
    (column : α → ℕ) (q : κ → Bool) (totals : ∀ group, total (make group) = (group.2.map column).sum)
    (conditions : ∀ group, p (make group) = q group.1) (rows : List α) :
    sumOf ((groupBy key rows).map make) total p = sumOf rows column fun row => q (key row) := by
  rw [sumOf_map, ← sum_groupBy, sumOf, map_congr_left fun group _ => totals group,
    filter_congr fun group _ => conditions group]

theorem sum_over_keys {key : α → κ} {keys : List κ} (distinct : keys.Nodup) {rows : List α}
    (listed : ∀ row ∈ rows, key row ∈ keys) (column : α → ℕ) (p : α → Bool) :
    (keys.map fun k => sumOf rows column fun row => key row = k && p row).sum = sumOf rows column p := by
  have parts : (keys.map fun k => sumOf rows column fun row => key row = k && p row) =
      keys.map fun k => sumOf (rows.filter p) column fun row => key row = k :=
    map_congr_left fun k _ => sumOf_filter.symm
  rw [parts, sum_keys column keys distinct, sumOf_filter]
  exact sumOf_congr fun row member _ => by rw [decide_eq_true (listed row member), Bool.true_and]

omit [DecidableEq κ] in
theorem sum_eq_iff_of_le {keys : List κ} {f g : κ → ℕ} (le : ∀ k ∈ keys, f k ≤ g k) :
    (keys.map f).sum = (keys.map g).sum ↔ ∀ k ∈ keys, f k = g k := by
  induction keys with
  | nil => exact iff_of_true rfl fun _ member => by cases member
  | cons k rest ih =>
    obtain ⟨here, later⟩ := forall_mem_cons.mp le
    have rests : (rest.map f).sum ≤ (rest.map g).sum := sum_le_sum later
    rw [map_cons, map_cons, sum_cons, sum_cons, forall_mem_cons, ← ih later]
    omega

theorem sumOf_append (rows rest : List α) (column : α → ℕ) (p : α → Bool) :
    sumOf (rows ++ rest) column p = sumOf rows column p + sumOf rest column p := by
  rw [sumOf, filter_append, map_append, sum_append, sumOf, sumOf]

theorem getD_tally (entries : List (κ × ℕ)) (k : κ) :
    ((tally entries).get k).getD 0 = sumOf entries Prod.snd fun entry => entry.1 = k := by
  induction entries using List.reverseRecOn with
  | nil => rfl
  | append_singleton entries entry ih =>
    rw [tally, foldl_append, ← tally, foldl_cons, foldl_nil, OrderedMap.get_set, sumOf_append, ← ih,
      sumOf_cons, sumOf_nil, Nat.add_zero]
    by_cases same : k = entry.1
    · rw [if_pos same, Option.getD_some, if_pos (decide_eq_true same.symm), same]
    · have other : ¬ decide (entry.1 = k) = true := fun equal => same (of_decide_eq_true equal).symm
      rw [if_neg same, if_neg other, Nat.add_zero]

end EverWorks.Lib.Grouping
