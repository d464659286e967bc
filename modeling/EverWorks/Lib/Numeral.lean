import EverWorks.Lib.JsValue

/-!
`Number(text)` of a string: a decimal numeral, `Infinity`, or a numeral in base 16, 8 or 2, with white space
around it; the empty text is zero. Numbers too small for a double are not rounded to zero.
-/

namespace EverWorks.Lib.JsNumber
open Option List

def digitOf (radix : ℕ) (c : Char) : Option ℕ :=
  let value :=
    if '0' ≤ c ∧ c ≤ '9' then c.toNat - 48
    else if 'a' ≤ c ∧ c ≤ 'z' then c.toNat - 87
    else if 'A' ≤ c ∧ c ≤ 'Z' then c.toNat - 55
    else radix
  if value < radix then some value else none

def ofDigits (radix : ℕ) (digits : List Char) : Option ℕ :=
  digits.foldlM (fun value c => (digitOf radix c).map (value * radix + ·)) 0

def ofExact (value : ℚ) : JsNumber :=
  if |value| < 2 ^ 1024 - 2 ^ 970 then finite (toDouble value) else infinite (value < 0)

def exponent : List Char → Option ℤ
  | [] => some 0
  | _ :: '-' :: digits => if digits = [] then none else (ofDigits 10 digits).map fun n => -(n : ℤ)
  | _ :: '+' :: digits => if digits = [] then none else (ofDigits 10 digits).map fun n => (n : ℤ)
  | _ :: digits => if digits = [] then none else (ofDigits 10 digits).map fun n => (n : ℤ)

def unsignedDecimal (text : List Char) : Option ℚ :=
  let mantissa := text.takeWhile fun c => c ≠ 'e' ∧ c ≠ 'E'
  let whole := mantissa.takeWhile (· ≠ '.')
  let fraction := (mantissa.dropWhile (· ≠ '.')).drop 1
  if whole = [] ∧ fraction = [] then none
  else do
    let digits ← ofDigits 10 (whole ++ fraction)
    let power ← exponent (text.dropWhile fun c => c ≠ 'e' ∧ c ≠ 'E')
    return digits * 10 ^ (power - fraction.length)

def decimal (negative : Bool) (text : List Char) : JsNumber :=
  if text = "Infinity".toList then infinite negative
  else match unsignedDecimal text with
    | some value => ofExact (if negative then -value else value)
    | none => nan

def inRadix (radix : ℕ) (text : List Char) : JsNumber :=
  if text = [] then nan else ((ofDigits radix text).map fun value => ofExact value).getD nan

/-- `Number(text)`. -/
def ofText (text : String) : JsNumber :=
  match (JsString.trim text).toList with
  | [] => 0
  | '0' :: 'x' :: digits | '0' :: 'X' :: digits => inRadix 16 digits
  | '0' :: 'o' :: digits | '0' :: 'O' :: digits => inRadix 8 digits
  | '0' :: 'b' :: digits | '0' :: 'B' :: digits => inRadix 2 digits
  | '-' :: rest => decimal true rest
  | '+' :: rest => decimal false rest
  | rest => decimal false rest

theorem ofExact_natCast {n : ℕ} (small : n < 2 ^ 53) : ofExact n = n := by
  have bound : |(n : ℚ)| < 2 ^ 1024 - 2 ^ 970 := by
    have le : (n : ℚ) ≤ 2 ^ 53 := by exact_mod_cast small.le
    rw [Nat.abs_cast]
    exact le.trans_lt (by decide +kernel)
  rw [ofExact, if_pos bound, toDouble_natCast small]
  rfl

theorem isDigit_of_digitOf {c : Char} {value : ℕ} (read : digitOf 10 c = some value) :
    '0' ≤ c ∧ c ≤ '9' := by
  unfold digitOf at read
  by_contra other
  rw [if_neg other] at read
  dsimp only at read
  obtain ⟨small, -⟩ := ite_none_right_eq_some.mp read
  have low : ('a'.val).toNat = 97 := rfl
  have high : ('A'.val).toNat = 65 := rfl
  split_ifs at small with lower capital
  all_goals simp only [Char.le_def, UInt32.le_iff_toNat_le, Char.toNat] at *
  all_goals omega

theorem digits_of_ofDigits {text : List Char} {n m : ℕ}
    (read : text.foldlM (fun value c => (digitOf 10 c).map (value * 10 + ·)) m = some n) :
    ∀ c ∈ text, '0' ≤ c ∧ c ≤ '9' := by
  induction text generalizing m with
  | nil => simp
  | cons first rest ih =>
    rw [foldlM_cons] at read
    obtain ⟨value, head, tail⟩ := bind_eq_some_iff.mp read
    obtain ⟨digit, found, -⟩ := map_eq_some_iff.mp head
    intro c member
    rcases mem_cons.mp member with rfl | later
    · exact isDigit_of_digitOf found
    · exact ih tail c later

theorem ofText_decimal {text : String} {n : ℕ} (nonempty : text.toList ≠ [])
    (read : ofDigits 10 text.toList = some n) : ofText text = ofExact n := by
  have digits := digits_of_ofDigits read
  have apart : ∀ c : Char, ¬ ('0' ≤ c ∧ c ≤ '9') → c ∉ text.toList :=
    fun c other member => other (digits c member)
  have solid : JsString.trim text = text := by
    apply JsString.trim_solid
    intro c member
    have := digits c member
    simp only [Char.le_def, UInt32.le_iff_toNat_le] at this
    have low : ('0'.val).toNat = 48 := rfl
    have high : ('9'.val).toNat = 57 := rfl
    simp only [JsString.isWhiteSpace, Char.toNat, Bool.or_eq_false_iff, Bool.and_eq_false_iff,
      decide_eq_false_iff_not, beq_eq_false_iff_ne]
    omega
  have plain : ∀ c ∈ text.toList, decide (c ≠ 'e' ∧ c ≠ 'E') = true ∧ decide (c ≠ '.') = true := by
    intro c member
    have lower : c ≠ 'e' := fun same => apart 'e' (by decide) (same ▸ member)
    have upper : c ≠ 'E' := fun same => apart 'E' (by decide) (same ▸ member)
    have point : c ≠ '.' := fun same => apart '.' (by decide) (same ▸ member)
    simp [lower, upper, point]
  have value : unsignedDecimal text.toList = some (n : ℚ) := by
    unfold unsignedDecimal
    dsimp only
    rw [takeWhile_eq_self_iff.mpr fun c member => (plain c member).1,
      takeWhile_eq_self_iff.mpr fun c member => (plain c member).2,
      dropWhile_eq_nil_iff.mpr fun c member => (plain c member).1,
      dropWhile_eq_nil_iff.mpr fun c member => (plain c member).2]
    simp [nonempty, read, exponent]
  have number : decimal false text.toList = ofExact n := by
    have finite : text.toList ≠ "Infinity".toList := by
      intro same
      exact apart 'I' (by decide) (same ▸ by decide)
    rw [decimal, if_neg finite, value]
    rfl
  unfold ofText
  rw [solid]
  split
  case h_1 empty => exact absurd empty nonempty
  case h_10 => exact number
  all_goals
    rename_i same
    rw [same] at digits
    simp at digits

theorem ofText_digits {text : String} {n : ℕ} (nonempty : text.toList ≠ [])
    (read : ofDigits 10 text.toList = some n) (small : n < 2 ^ 53) : ofText text = n := by
  rw [ofText_decimal nonempty read, ofExact_natCast small]

theorem toDouble_large {n : ℕ} (large : 2 ^ 53 ≤ n) : ∃ m : ℕ, toDouble n = m ∧ 2 ^ 52 ≤ m := by
  have pos : 0 < n := (by norm_num : 0 < 2 ^ 53).trans_le large
  have nonzero : (n : ℚ) ≠ 0 := by positivity
  have log : 53 ≤ Nat.log 2 n := Nat.le_log_of_pow_le (by norm_num) large
  have unit : ulp n = ((2 ^ (Nat.log 2 n - 52) : ℕ) : ℚ) := by
    have exponent : Int.log 2 |(n : ℚ)| - 52 = ((Nat.log 2 n - 52 : ℕ) : ℤ) := by
      rw [Nat.abs_cast, Int.log_natCast]
      omega
    rw [ulp, exponent, zpow_natCast]
    push_cast
    rfl
  have rounded : 0 ≤ roundEven (n / ulp n) :=
    roundEven_nonneg (div_nonneg (Nat.cast_nonneg n) (ulp_pos _).le)
  obtain ⟨k, same⟩ := Int.eq_ofNat_of_zero_le rounded
  have whole : toDouble n = ((k * 2 ^ (Nat.log 2 n - 52) : ℕ) : ℚ) := by
    rw [toDouble, if_neg nonzero, same, unit]
    push_cast
    rfl
  refine ⟨_, whole, ?_⟩
  have half := half_le_toDouble (q := n) (Nat.cast_nonneg n)
  rw [whole] at half
  have bound : (2 ^ 53 : ℚ) ≤ n := by exact_mod_cast large
  have least : ((2 ^ 52 : ℕ) : ℚ) ≤ ((k * 2 ^ (Nat.log 2 n - 52) : ℕ) : ℚ) := by
    refine le_trans ?_ half
    push_cast
    linarith
  exact_mod_cast least

/-- The whole number a numeral of digits reads as: itself where it is small, and never a small one otherwise. -/
theorem index_ofExact {n m : ℕ} (read : (ofExact n).index = some m) :
    (n < 2 ^ 53 → m = n) ∧ (2 ^ 53 ≤ n → 2 ^ 52 ≤ m) := by
  constructor
  · intro small
    rw [ofExact_natCast small, index_cast] at read
    exact (some.inj read).symm
  · intro large
    obtain ⟨k, whole, bound⟩ := toDouble_large large
    unfold ofExact at read
    split at read
    · rw [whole] at read
      have cast : (finite (k : ℚ)).index = some k := index_cast k
      rw [cast] at read
      exact some.inj read ▸ bound
    · cases read

theorem index_ofExact_isSome {n : ℕ} : (ofExact n).index.isSome = true ↔ n < 2 ^ 1024 - 2 ^ 970 := by
  have bound : |(n : ℚ)| < 2 ^ 1024 - 2 ^ 970 ↔ n < 2 ^ 1024 - 2 ^ 970 := by
    have cast : ∀ a b : ℕ, b ≤ a → (2 ^ a - 2 ^ b : ℚ) = ((2 ^ a - 2 ^ b : ℕ) : ℚ) := by
      intro a b le
      rw [Nat.cast_sub (Nat.pow_le_pow_right (by norm_num) le)]
      push_cast
      rfl
    rw [Nat.abs_cast, cast 1024 970 (by norm_num), Nat.cast_lt]
  unfold ofExact
  split
  · next inside =>
    refine iff_of_true ?_ (bound.mp inside)
    rcases Nat.lt_or_ge n (2 ^ 53) with small | large
    · rw [toDouble_natCast small]
      exact isSome_iff_exists.mpr ⟨n, index_cast n⟩
    · obtain ⟨k, whole, -⟩ := toDouble_large large
      rw [whole]
      exact isSome_iff_exists.mpr ⟨k, index_cast k⟩
  · next outside =>
    exact iff_of_false (by simp [index]) fun inside => outside (bound.mpr inside)

example : ofText " 12.50e1 " = 125 := by decide +kernel
example : ofText "0x1F" = 31 := by decide +kernel
example : ofText "5 5" = nan := by decide +kernel

end EverWorks.Lib.JsNumber
