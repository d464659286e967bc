import Mathlib.Data.Int.Log
import Mathlib.Data.Rat.Floor

/-!
A number is a binary64 value, written as the rational it stands for. `toDouble` rounds to the nearest one, ties to
even, in the range without overflow and underflow.
-/

namespace EverWorks.Lib

def roundEven (q : ℚ) : ℤ :=
  let low := ⌊q⌋
  if q - low < 1 / 2 then low
  else if 1 / 2 < q - low then low + 1
  else if low % 2 = 0 then low else low + 1

/-- The distance of two neighbouring doubles at the magnitude of `q`. -/
def ulp (q : ℚ) : ℚ := 2 ^ (Int.log 2 |q| - 52)

def toDouble (q : ℚ) : ℚ := if q = 0 then 0 else roundEven (q / ulp q) * ulp q

def jsRound (q : ℚ) : ℤ := ⌊q + 1 / 2⌋

theorem roundEven_nonneg {q : ℚ} (nonneg : 0 ≤ q) : 0 ≤ roundEven q := by
  have low : 0 ≤ ⌊q⌋ := Int.floor_nonneg.mpr nonneg
  unfold roundEven
  dsimp only
  repeat' split
  all_goals omega

theorem sub_half_le_roundEven (q : ℚ) : q - 1 / 2 ≤ roundEven q := by
  have low := Int.floor_le q
  have high := Int.lt_floor_add_one q
  unfold roundEven
  dsimp only
  split
  · linarith
  · split
    · push_cast
      linarith
    · split
      · linarith
      · push_cast
        linarith

theorem ulp_pos (q : ℚ) : 0 < ulp q := zpow_pos (by norm_num) _

theorem toDouble_nonneg {q : ℚ} (nonneg : 0 ≤ q) : 0 ≤ toDouble q := by
  unfold toDouble
  split
  · exact le_rfl
  · have scaled : 0 ≤ q / ulp q := div_nonneg nonneg (ulp_pos q).le
    have rounded : (0 : ℚ) ≤ roundEven (q / ulp q) := Int.cast_nonneg (roundEven_nonneg scaled)
    exact mul_nonneg rounded (ulp_pos q).le

theorem half_le_toDouble {q : ℚ} (nonneg : 0 ≤ q) : q / 2 ≤ toDouble q := by
  unfold toDouble
  split
  case isTrue zero => simp [zero]
  case isFalse nonzero =>
    have positive : 0 < q := lt_of_le_of_ne nonneg (Ne.symm nonzero)
    have ulpPos := ulp_pos q
    have ulp_le : ulp q ≤ q := by
      have log_le : (2 : ℚ) ^ Int.log 2 |q| ≤ |q| := Int.zpow_log_le_self (by norm_num) (abs_pos.mpr nonzero)
      rw [abs_of_pos positive] at log_le
      refine le_trans ?_ log_le
      rw [ulp, abs_of_pos positive]
      exact zpow_le_zpow_right₀ (by norm_num) (by omega)
    have scaled : 1 ≤ q / ulp q := (one_le_div ulpPos).mpr ulp_le
    have rounded := sub_half_le_roundEven (q / ulp q)
    calc q / 2 = q / ulp q / 2 * ulp q := by field_simp
      _ ≤ roundEven (q / ulp q) * ulp q :=
        mul_le_mul_of_nonneg_right (by linarith) ulpPos.le

theorem toDouble_natCast {n : ℕ} (small : n < 2 ^ 53) : toDouble n = n := by
  rcases Nat.eq_zero_or_pos n with rfl | pos
  · simp [toDouble]
  · have nonzero : (n : ℚ) ≠ 0 := by positivity
    have log : Int.log 2 |(n : ℚ)| = Nat.log 2 n := by
      rw [Nat.abs_cast, Int.log_natCast]
    have le : Nat.log 2 n ≤ 52 := by
      have : Nat.log 2 n < 53 := (Nat.log_lt_iff_lt_pow (by norm_num) pos.ne').mpr small
      omega
    have whole : (n : ℚ) / ulp n = ((n * 2 ^ (52 - Nat.log 2 n) : ℕ) : ℤ) := by
      unfold ulp
      rw [log]
      have : ((Nat.log 2 n : ℤ) - 52) = -((52 - Nat.log 2 n : ℕ) : ℤ) := by omega
      rw [this, zpow_neg, zpow_natCast, div_inv_eq_mul]
      push_cast
      rfl
    have even : ∀ k : ℤ, roundEven k = k := by
      intro k
      simp [roundEven]
    rw [toDouble, if_neg nonzero, whole, even, ← whole, div_mul_cancel₀ _ (ulp_pos _).ne']

theorem jsRound_nonneg {q : ℚ} (nonneg : 0 ≤ q) : 0 ≤ jsRound q := by
  exact Int.floor_nonneg.mpr (add_nonneg nonneg (by norm_num))

end EverWorks.Lib
