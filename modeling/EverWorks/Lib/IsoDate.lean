import EverWorks.Lib.Calendar

/-!
The date part of an instant in the ISO format with four digits for the years 0 to 9999 and a sign and six digits for
others, and what its first ten characters tell.
-/

namespace EverWorks.Lib.IsoDate
open Calendar List List

def pad : ℕ → ℕ → List Char
  | 0, _ => []
  | width + 1, n => pad width (n / 10) ++ [Nat.digitChar (n % 10)]

@[simp] theorem length_pad (width n : ℕ) : (pad width n).length = width := by
  induction width generalizing n with
  | zero => rfl
  | succ width ih => rw [pad, length_append, ih, length_singleton]

theorem digitChar_inj {a b : ℕ} (a_lt : a < 10) (b_lt : b < 10) (same : Nat.digitChar a = Nat.digitChar b) :
    a = b := by
  have table : ∀ a ∈ range 10, ∀ b ∈ range 10, Nat.digitChar a = Nat.digitChar b → a = b := by decide
  exact table a (mem_range.mpr a_lt) b (mem_range.mpr b_lt) same

theorem digitChar_isDigit {n : ℕ} (lt : n < 10) : (Nat.digitChar n).isDigit = true := by
  have table : ∀ n ∈ range 10, (Nat.digitChar n).isDigit = true := by decide
  exact table n (mem_range.mpr lt)

theorem pad_inj {width a b : ℕ} (a_lt : a < 10 ^ width) (b_lt : b < 10 ^ width) (same : pad width a = pad width b) :
    a = b := by
  induction width generalizing a b with
  | zero => omega
  | succ width ih =>
    obtain ⟨front, last⟩ := append_inj' same rfl
    have digit := digitChar_inj (Nat.mod_lt a (by omega)) (Nat.mod_lt b (by omega)) (head_eq_of_cons_eq last)
    rw [Nat.pow_succ] at a_lt b_lt
    have rest := ih (by omega) (by omega) front
    omega

def isoYear (year : ℤ) : List Char :=
  if 0 ≤ year ∧ year ≤ 9999 then pad 4 year.natAbs
  else (if year < 0 then '-' else '+') :: pad 6 year.natAbs

def isoDate (date : Date) : List Char :=
  isoYear date.year ++ '-' :: pad 2 date.month ++ '-' :: pad 2 date.day

def InRange (year : ℤ) : Prop := year.natAbs < 10 ^ 6

theorem isoYear_four {year : ℤ} (early : 0 ≤ year ∧ year ≤ 9999) : isoYear year = pad 4 year.natAbs := if_pos early

theorem isoYear_six {year : ℤ} (other : ¬ (0 ≤ year ∧ year ≤ 9999)) :
    isoYear year = (if year < 0 then '-' else '+') :: pad 6 year.natAbs := if_neg other

@[simp] theorem length_take_ten (date : Date) : ((isoDate date).take 10).length = 10 := by
  have years : 4 ≤ (isoYear date.year).length := by
    rw [isoYear]
    split <;> simp
  rw [length_take, isoDate]
  simp only [length_append, length_cons, length_pad]
  omega

theorem month_of_take_ten {first second : Date} (first_in : InRange first.year) (second_in : InRange second.year)
    (first_month : first.month < 100) (second_month : second.month < 100)
    (same : (isoDate first).take 10 = (isoDate second).take 10) :
    first.year = second.year ∧ first.month = second.month := by
  have four {date : Date} (early : 0 ≤ date.year ∧ date.year ≤ 9999) :
      (isoDate date).take 10 = pad 4 date.year.natAbs ++ '-' :: (pad 2 date.month ++ '-' :: pad 2 date.day) := by
    rw [isoDate, isoYear_four early]
    refine (take_of_length_le ?_).trans (append_assoc _ _ _)
    simp
  have six {date : Date} (other : ¬ (0 ≤ date.year ∧ date.year ≤ 9999)) :
      (isoDate date).take 10 = (if date.year < 0 then '-' else '+') :: (pad 6 date.year.natAbs ++
        '-' :: pad 2 date.month) := by
    rw [isoDate, isoYear_six other, take_append_of_le_length (by simp), take_of_length_le (by simp)]
    rfl
  have apart {sign : Char} {n : ℕ} {rest rest' : List Char} (isSign : sign = '-' ∨ sign = '+') :
      pad 4 n ++ rest ≠ sign :: rest' := by
    intro equal
    have digit : (pad 4 n ++ rest).head? = some (Nat.digitChar (n / 10 / 10 / 10 % 10)) := rfl
    rw [equal, head?_cons, Option.some.injEq] at digit
    have isDigit := digitChar_isDigit (Nat.mod_lt (n / 10 / 10 / 10) (by omega : 0 < 10))
    rw [← digit] at isDigit
    rcases isSign with rfl | rfl <;> exact absurd isDigit (by decide)
  have sign (year : ℤ) : (if year < 0 then '-' else '+') = '-' ∨ (if year < 0 then '-' else '+') = '+' := by
    split
    · exact .inl rfl
    · exact .inr rfl
  by_cases early : 0 ≤ first.year ∧ first.year ≤ 9999
  · by_cases early' : 0 ≤ second.year ∧ second.year ≤ 9999
    · rw [four early, four early'] at same
      obtain ⟨years, rest⟩ := append_inj same (by simp)
      obtain ⟨months, -⟩ := append_inj (cons.inj rest).2 (by simp)
      have years := pad_inj (by omega) (by omega) years
      exact ⟨by omega, pad_inj first_month second_month months⟩
    · rw [four early, six early'] at same
      exact absurd same (apart (sign _))
  · by_cases early' : 0 ≤ second.year ∧ second.year ≤ 9999
    · rw [six early, four early'] at same
      exact absurd same.symm (apart (sign _))
    · rw [six early, six early'] at same
      obtain ⟨signs, rest⟩ := cons.inj same
      obtain ⟨years, rest⟩ := append_inj rest (by simp)
      have years := pad_inj first_in second_in years
      have sides : first.year < 0 ↔ second.year < 0 := by
        by_cases before : first.year < 0
        · by_cases before' : second.year < 0
          · exact iff_of_true before before'
          · rw [if_pos before, if_neg before'] at signs
            exact absurd signs (by decide)
        · by_cases before' : second.year < 0
          · rw [if_neg before, if_pos before'] at signs
            exact absurd signs (by decide)
          · exact iff_of_false before before'
      exact ⟨by omega, pad_inj first_month second_month (cons.inj rest).2⟩

end EverWorks.Lib.IsoDate
