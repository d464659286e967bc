import Mathlib.Data.Int.ConditionallyCompleteOrder
import Mathlib.Order.Lattice.Nat
import Mathlib.Order.Monotone.Basic
import Mathlib.Tactic.Common

/-!
Bounds that rise without end cut the line into cells. The cell of a point is known by the two bounds around it, cells
taken together in equal numbers are cells again, and so are the cells of a grid that is scaled or moved.
-/

namespace EverWorks.Lib

structure Grid where
  bound : ℤ → ℤ
  index : ℤ → ℤ
  rises : StrictMono bound
  low : ∀ t, bound (index t) ≤ t
  high : ∀ t, t < bound (index t + 1)

namespace Grid

variable (grid : Grid) {k t u : ℤ}

def start (t : ℤ) : ℤ := grid.bound (grid.index t)

def next (t : ℤ) : ℤ := grid.bound (grid.index t + 1)

theorem start_le (t : ℤ) : grid.start t ≤ t := grid.low t

theorem lt_next (t : ℤ) : t < grid.next t := grid.high t

theorem index_eq (low : grid.bound k ≤ t) (high : t < grid.bound (k + 1)) : grid.index t = k := by
  have below : grid.index t < k + 1 := grid.rises.lt_iff_lt.mp ((grid.low t).trans_lt high)
  have above : k < grid.index t + 1 := grid.rises.lt_iff_lt.mp (low.trans_lt (grid.high t))
  omega

theorem index_bound (k : ℤ) : grid.index (grid.bound k) = k :=
  grid.index_eq le_rfl (grid.rises (Int.lt_succ k))

theorem start_bound (k : ℤ) : grid.start (grid.bound k) = grid.bound k := by rw [start, index_bound]

theorem start_start (t : ℤ) : grid.start (grid.start t) = grid.start t := grid.start_bound _

theorem start_next (t : ℤ) : grid.start (grid.next t) = grid.next t := grid.start_bound _

theorem index_eq_of_mem (low : grid.start t ≤ u) (high : u < grid.next t) : grid.index u = grid.index t :=
  grid.index_eq low high

theorem start_mono (le : t ≤ u) : grid.start t ≤ grid.start u := by
  have index : grid.index t < grid.index u + 1 :=
    grid.rises.lt_iff_lt.mp (((grid.low t).trans le).trans_lt (grid.high u))
  exact grid.rises.monotone (Int.lt_add_one_iff.mp index)

theorem mem_iff : (grid.start t ≤ u ∧ u < grid.next t) ↔ grid.start u = grid.start t := by
  constructor
  · rintro ⟨low, high⟩
    rw [start, grid.index_eq_of_mem low high, start]
  · intro same
    have index : grid.index u = grid.index t := grid.rises.injective same
    have low := grid.low u
    have high := grid.high u
    rw [index] at low high
    exact ⟨low, high⟩

def coarse (first count : ℤ) (pos : 0 < count) : Grid where
  bound k := grid.bound (first + k * count)
  index t := (grid.index t - first) / count
  rises := by
    intro a b lt
    have scaled : a * count < b * count := Int.mul_lt_mul_of_pos_right lt pos
    exact grid.rises (by omega)
  low t := by
    have below := Int.ediv_mul_le (grid.index t - first) (Int.ne_of_gt pos)
    exact (grid.rises.monotone (by omega)).trans (grid.low t)
  high t := by
    have above := Int.lt_ediv_add_one_mul_self (grid.index t - first) pos
    exact (grid.high t).trans_le (grid.rises.monotone (by omega))

def every (offset width : ℤ) (pos : 0 < width) : Grid where
  bound k := offset + k * width
  index t := (t - offset) / width
  rises := by
    intro a b lt
    have scaled : a * width < b * width := Int.mul_lt_mul_of_pos_right lt pos
    dsimp only
    omega
  low t := by
    have below := Int.ediv_mul_le (t - offset) (Int.ne_of_gt pos)
    omega
  high t := by
    have above := Int.lt_ediv_add_one_mul_self (t - offset) pos
    omega

def scale (width : ℤ) (pos : 0 < width) : Grid where
  bound k := grid.bound k * width
  index t := grid.index (t / width)
  rises := by
    intro a b lt
    exact Int.mul_lt_mul_of_pos_right (grid.rises lt) pos
  low t := (Int.mul_le_mul_of_nonneg_right (grid.low (t / width)) pos.le).trans (Int.ediv_mul_le t (Int.ne_of_gt pos))
  high t := by
    have above := Int.lt_ediv_add_one_mul_self t pos
    exact above.trans_le (Int.mul_le_mul_of_nonneg_right (grid.high (t / width)) pos.le)

end Grid

end EverWorks.Lib
