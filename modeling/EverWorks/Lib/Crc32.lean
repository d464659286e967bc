import Mathlib.Tactic.Common

/-!
The cyclic redundancy check of archives: a division by the reflected polynomial, bit by bit, and eight bits at a time.
-/

namespace EverWorks.Lib.Crc32

abbrev Word := BitVec 32

def polynomial : Word := 0xEDB88320

def shift (c : Word) : Word := if c.getLsbD 0 then polynomial ^^^ (c >>> 1) else c >>> 1

def shifts : Nat → Word → Word
  | 0, c => c
  | n + 1, c => shifts n (shift c)

def addByte (c : Word) (byte : UInt8) : Word := shifts 8 (c ^^^ BitVec.ofNat 32 byte.toNat)

def crc32 (bytes : List UInt8) : Word := ~~~bytes.foldl addByte (~~~0)

theorem shift_xor (a b : Word) : shift (a ^^^ b) = shift a ^^^ shift b := by
  have cancel (x y p : Word) : x ^^^ y = (p ^^^ x) ^^^ (p ^^^ y) := by
    rw [BitVec.xor_comm p x, BitVec.xor_assoc, ← BitVec.xor_assoc p, BitVec.xor_self, BitVec.zero_xor]
  simp only [shift, BitVec.getLsbD_xor, BitVec.ushiftRight_xor_distrib]
  generalize polynomial = p
  cases a.getLsbD 0 <;> cases b.getLsbD 0
  · rfl
  · exact (BitVec.xor_assoc p _ _).symm.trans (by rw [BitVec.xor_comm p, BitVec.xor_assoc]; rfl)
  · exact (BitVec.xor_assoc p _ _).symm
  · exact cancel _ _ p

theorem shifts_xor (n : Nat) (a b : Word) : shifts n (a ^^^ b) = shifts n a ^^^ shifts n b := by
  induction n generalizing a b with
  | zero => rfl
  | succ n ih =>
    show shifts n (shift (a ^^^ b)) = shifts n (shift a) ^^^ shifts n (shift b)
    rw [shift_xor, ih]

theorem shifts_succ (n : Nat) (c : Word) : shifts (n + 1) c = shift (shifts n c) := by
  induction n generalizing c with
  | zero => rfl
  | succ n ih =>
    show shifts (n + 1) (shift c) = shift (shifts n (shift c))
    exact ih (shift c)

theorem shifts_eq_ushiftRight {n : Nat} {c : Word} (clear : ∀ i < n, c.getLsbD i = false) : shifts n c = c >>> n := by
  induction n generalizing c with
  | zero => exact (BitVec.ushiftRight_zero c).symm
  | succ n ih =>
    rw [shifts, shift, clear 0 (Nat.succ_pos n), if_neg Bool.false_ne_true, ih fun i less => ?_,
      ← BitVec.shiftRight_add, Nat.add_comm]
    rw [BitVec.getLsbD_ushiftRight]
    exact clear (1 + i) (by omega)

theorem shifts_eight (w : Word) : shifts 8 w = shifts 8 (w &&& 0xff) ^^^ (w >>> 8) := by
  have parts (mask : Word) : w = (w &&& mask) ^^^ (w &&& ~~~mask) := by
    ext i inside
    simp only [BitVec.getElem_xor, BitVec.getElem_and, BitVec.getElem_not]
    cases w[i] <;> cases mask[i] <;> rfl
  have mask (i : Nat) (less : i < 8) : (~~~(0xff : Word)).getLsbD i = false := by
    revert i
    decide
  have high : shifts 8 (w &&& ~~~0xff) = w >>> 8 := by
    rw [shifts_eq_ushiftRight fun i less => by rw [BitVec.getLsbD_and, mask i less, Bool.and_false]]
    ext i inside
    rw [BitVec.getElem_ushiftRight, BitVec.getElem_ushiftRight, BitVec.getLsbD_and]
    by_cases last : 8 + i < 32
    · have kept : ∀ i < 32, 8 ≤ i → (~~~(0xff : Word)).getLsbD i = true := by decide
      rw [kept (8 + i) last (by omega), Bool.and_true]
    · rw [BitVec.getLsbD_of_ge _ _ (by omega), BitVec.getLsbD_of_ge _ _ (by omega), Bool.false_and]
  conv_lhs => rw [parts 0xff]
  rw [shifts_xor, high]

end EverWorks.Lib.Crc32
