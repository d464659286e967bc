import Mathlib.Algebra.Group.Int.Defs
import Mathlib.Algebra.GroupWithZero.Nat
import Mathlib.Tactic.Common

/-!
JavaScript's bitwise operators on integers: each takes the low 32 bits of its operands, and gives a signed number, or an
unsigned one for `>>>`. A number is known by its word, its low 32 bits.
-/

namespace EverWorks.Lib.Int32

abbrev Word := BitVec 32

def word (x : Int) : Word := BitVec.ofInt 32 x

def ofWord (w : Word) : Int := w.toNat

/-- `x >>> bits` -/
def shiftRightUnsigned (x : Int) (bits : Nat) : Int := ofWord (word x >>> (bits % 32))

/-- `x >>> 0`, and what an entry of a `Uint32Array` keeps of a number. -/
def toUint32 (x : Int) : Int := shiftRightUnsigned x 0

/-- `x << bits` -/
def shiftLeft (x : Int) (bits : Nat) : Int := (word x <<< (bits % 32)).toInt

def bitOr (x y : Int) : Int := (word x ||| word y).toInt

def bitAnd (x y : Int) : Int := (word x &&& word y).toInt

def bitXor (x y : Int) : Int := (word x ^^^ word y).toInt

def bitNot (x : Int) : Int := (~~~word x).toInt

@[simp] theorem word_ofWord (w : Word) : word (ofWord w) = w := by
  rw [word, ofWord, BitVec.ofInt_natCast, BitVec.ofNat_toNat, BitVec.setWidth_eq]

@[simp] theorem word_add (x y : Int) : word (x + y) = word x + word y := BitVec.ofInt_add x y

variable (x : Int)

@[simp] theorem word_shiftRightUnsigned (bits : Nat) :
    word (shiftRightUnsigned x bits) = word x >>> (bits % 32) := word_ofWord _

@[simp] theorem word_toUint32 : word (toUint32 x) = word x := by
  rw [toUint32, word_shiftRightUnsigned, Nat.zero_mod, BitVec.ushiftRight_zero]

@[simp] theorem word_shiftLeft (bits : Nat) : word (shiftLeft x bits) = word x <<< (bits % 32) :=
  BitVec.ofInt_toInt

@[simp] theorem word_bitOr (x y : Int) : word (bitOr x y) = word x ||| word y := BitVec.ofInt_toInt

@[simp] theorem word_bitAnd (x y : Int) : word (bitAnd x y) = word x &&& word y := BitVec.ofInt_toInt

@[simp] theorem word_bitXor (x y : Int) : word (bitXor x y) = word x ^^^ word y := BitVec.ofInt_toInt

@[simp] theorem word_bitNot : word (bitNot x) = ~~~word x := BitVec.ofInt_toInt

theorem toUint32_eq : toUint32 x = ofWord (word x) := by
  rw [toUint32, shiftRightUnsigned, Nat.zero_mod, BitVec.ushiftRight_zero]

theorem shiftRightUnsigned_toUint32 (bits : Nat) :
    shiftRightUnsigned (toUint32 x) bits = shiftRightUnsigned x bits := by
  rw [shiftRightUnsigned, word_toUint32, shiftRightUnsigned]

theorem bitAnd_toUint32 (x y : Int) : bitAnd (toUint32 x) y = bitAnd x y := by
  rw [bitAnd, word_toUint32, bitAnd]

end EverWorks.Lib.Int32

/-!
## Little-endian fields

Fields of a fixed number of bytes, the least significant first. A number that does not fit is refused.
-/

namespace EverWorks.Lib.LittleEndian

def digits : Nat → Nat → List UInt8
  | 0, _ => []
  | width + 1, n => UInt8.ofNat n :: digits width (n / 256)

structure Field where
  width : Nat
  value : Int
  deriving DecidableEq

def Field.Fits (field : Field) : Prop := 0 ≤ field.value ∧ field.value < 256 ^ field.width

instance (field : Field) : Decidable field.Fits := inferInstanceAs (Decidable (_ ∧ _))

def Field.bytes (field : Field) : List UInt8 := digits field.width field.value.toNat

def bytes (fields : List Field) : List UInt8 := fields.flatMap Field.bytes

def write (fields : List Field) : Option (List UInt8) :=
  if ∀ field ∈ fields, field.Fits then some (bytes fields) else none

def readNat : Nat → List UInt8 → Option (Nat × List UInt8)
  | 0, input => some (0, input)
  | _ + 1, [] => none
  | width + 1, byte :: input => (readNat width input).map fun (n, rest) => (byte.toNat + 256 * n, rest)

def read : List Nat → List UInt8 → Option (List Nat × List UInt8)
  | [], input => some ([], input)
  | width :: widths, input =>
    (readNat width input).bind fun (n, rest) => (read widths rest).map fun (ns, rest) => (n :: ns, rest)

@[simp] theorem length_digits (width n : Nat) : (digits width n).length = width := by
  induction width generalizing n with
  | zero => rfl
  | succ width ih => rw [digits, List.length_cons, ih]

theorem length_bytes (fields : List Field) : (bytes fields).length = (fields.map (·.width)).sum := by
  simp [bytes, List.length_flatMap, Field.bytes]

theorem readNat_digits {width n : Nat} (fits : n < 256 ^ width) (rest : List UInt8) :
    readNat width (digits width n ++ rest) = some (n, rest) := by
  induction width generalizing n with
  | zero =>
    rw [Nat.pow_zero, Nat.lt_one_iff] at fits
    rw [fits]
    rfl
  | succ width ih =>
    have high : n / 256 < 256 ^ width := Nat.div_lt_of_lt_mul (by rwa [← Nat.pow_succ'])
    have low : (UInt8.ofNat n).toNat + 256 * (n / 256) = n := by
      rw [UInt8.toNat_ofNat']
      omega
    rw [digits, List.cons_append, readNat, ih high, Option.map_some]
    dsimp only
    rw [low]

theorem read_bytes {fields : List Field} (fits : ∀ field ∈ fields, field.Fits) (rest : List UInt8) :
    read (fields.map (·.width)) (bytes fields ++ rest) = some (fields.map (·.value.toNat), rest) := by
  induction fields with
  | nil => rfl
  | cons field fields ih =>
    rw [List.forall_mem_cons] at fits
    obtain ⟨⟨nonneg, small⟩, others⟩ := fits
    have here : field.value.toNat < 256 ^ field.width := by
      rw [Int.toNat_lt nonneg, Int.natCast_pow]
      exact small
    rw [List.map_cons, bytes, List.flatMap_cons, List.append_assoc, read, Field.bytes, readNat_digits here,
      Option.bind_some]
    dsimp only
    rw [← bytes, ih others, Option.map_some, List.map_cons]

theorem write_eq {fields : List Field} (fits : ∀ field ∈ fields, field.Fits) : write fields = some (bytes fields) :=
  if_pos fits

end EverWorks.Lib.LittleEndian
