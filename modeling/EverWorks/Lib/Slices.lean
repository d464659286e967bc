import Mathlib.Data.List.Basic

/-!
A scanner knows a position as the list from it on. The lemmas read `text.drop start = front ++ rest`
as "at `start` stands `front`".
-/

namespace EverWorks.Lib
open List

variable {α : Type*}

/-- `text.indexOf(unit, start)`. -/
def indexOf [BEq α] (text : List α) (unit : α) (start : Nat) : Option Nat :=
  ((text.drop start).findIdx? (· == unit)).map (start + ·)

/-- `text.slice(start, stop)` for `start ≤ stop`. -/
def slice (text : List α) (start stop : Nat) : List α := (text.take stop).drop start

/-- `for (i = 0; i < items.length; i += size) items.slice(i, i + size)`, with as many turns as there are items. -/
def chunksUpTo (size : Nat) : Nat → List α → List (List α)
  | 0, _ => []
  | _ + 1, [] => []
  | turns + 1, first :: rest => (first :: rest).take size :: chunksUpTo size turns ((first :: rest).drop size)

def chunks (size : Nat) (items : List α) : List (List α) := chunksUpTo size items.length items

theorem flatten_chunksUpTo {size : Nat} (positive : 0 < size) (turns : Nat) (items : List α)
    (enough : items.length ≤ turns) : (chunksUpTo size turns items).flatten = items := by
  induction turns generalizing items with
  | zero =>
    rw [length_eq_zero_iff.mp (Nat.le_zero.mp enough)]
    rfl
  | succ turns ih =>
    cases items with
    | nil => rfl
    | cons first rest =>
      have fewer : ((first :: rest).drop size).length ≤ turns := by
        rw [length_drop]
        rw [length_cons] at enough ⊢
        omega
      rw [chunksUpTo, flatten_cons, ih _ fewer, take_append_drop]

theorem flatten_chunks {size : Nat} (positive : 0 < size) (items : List α) : (chunks size items).flatten = items :=
  flatten_chunksUpTo positive items.length items (Nat.le_refl _)

variable {text rest : List α} {start : Nat} {unit : α}

theorem drop_add_of_drop (front : List α) (h : text.drop start = front ++ rest) :
    text.drop (start + front.length) = rest := by
  rw [← drop_drop, h, drop_left]

theorem drop_succ_of_drop (h : text.drop start = unit :: rest) : text.drop (start + 1) = rest :=
  drop_add_of_drop [unit] h

theorem getElem?_of_drop (h : text.drop start = unit :: rest) : text[start]? = some unit := by
  rw [← head?_drop, h, head?_cons]

variable {front : List α}

theorem length_of_drop (h : text.drop start = front ++ rest)
    (inside : start ≤ text.length) : start + front.length + rest.length = text.length := by
  have lengths := congrArg List.length h
  simp at lengths
  omega

theorem inside_of_drop (h : text.drop start = unit :: rest) : start < text.length := by
  have lengths := congrArg List.length h
  simp at lengths
  omega

theorem getElem_of_drop (h : text.drop start = unit :: rest) (inside : start < text.length) :
    text[start] = unit := by
  have found := getElem?_of_drop h
  rw [getElem?_eq_getElem inside] at found
  exact Option.some.inj found

theorem slice_of_drop (h : text.drop start = front ++ rest) :
    slice text start (start + front.length) = front := by
  rw [slice, drop_take, h, Nat.add_sub_cancel_left, take_left]

variable [BEq α] [LawfulBEq α]

theorem indexOf_of_drop (h : text.drop start = front ++ unit :: rest)
    (absent : unit ∉ front) : indexOf text unit start = some (start + front.length) := by
  have found : (front ++ unit :: rest).findIdx? (· == unit) = some front.length := by
    rw [findIdx?_append, findIdx?_eq_none_iff.mpr]
    · simp [findIdx?_cons]
    · intro u inside
      simp only [beq_eq_false_iff_ne]
      exact fun same => absent (same ▸ inside)
  simp [indexOf, h, found]

theorem indexOf_none (absent : unit ∉ text.drop start) : indexOf text unit start = none := by
  rw [indexOf, findIdx?_eq_none_iff.mpr]
  · rfl
  · intro u inside
    simp only [beq_eq_false_iff_ne]
    exact fun same => absent (same ▸ inside)

theorem indexOf_eq_some {index : Nat} : indexOf text unit start = some index ↔
    start ≤ index ∧ text[index]? = some unit ∧ ∀ before, start ≤ before → before < index → text[before]? ≠ some unit := by
  rw [indexOf, Option.map_eq_some_iff]
  simp only [findIdx?_eq_some_iff_getElem, beq_iff_eq, getElem_drop]
  constructor
  · rintro ⟨offset, ⟨inside, here, earlier⟩, rfl⟩
    rw [length_drop] at inside
    refine ⟨Nat.le_add_right _ _, List.getElem?_eq_some_iff.mpr ⟨by omega, here⟩, fun before from_ until_ found => ?_⟩
    obtain ⟨_, found⟩ := List.getElem?_eq_some_iff.mp found
    refine earlier (before - start) (by omega) ?_
    simpa [Nat.add_sub_cancel' from_] using found
  · rintro ⟨from_, here, earlier⟩
    obtain ⟨inside, here⟩ := List.getElem?_eq_some_iff.mp here
    refine ⟨index - start, ⟨by rw [length_drop]; omega, ?_, fun offset less found => ?_⟩, by omega⟩
    · simpa [Nat.add_sub_cancel' from_] using here
    · exact earlier (start + offset) (by omega) (by omega) (List.getElem?_eq_some_iff.mpr ⟨by omega, found⟩)

theorem indexOf_eq_none : indexOf text unit start = none ↔ ∀ index, start ≤ index → text[index]? ≠ some unit := by
  constructor
  · intro absent index from_ found
    rw [indexOf, Option.map_eq_none_iff, findIdx?_eq_none_iff] at absent
    obtain ⟨inside, rfl⟩ := List.getElem?_eq_some_iff.mp found
    have member : text[index] ∈ text.drop start := by
      refine mem_iff_getElem.mpr ⟨index - start, by rw [length_drop]; omega, ?_⟩
      simp [Nat.add_sub_cancel' from_]
    simpa using absent _ member
  · intro absent
    refine indexOf_none fun member => ?_
    obtain ⟨offset, inside, here⟩ := mem_iff_getElem.mp member
    rw [getElem_drop] at here
    exact absent (start + offset) (Nat.le_add_right _ _) (List.getElem?_eq_some_iff.mpr ⟨_, here⟩)

end EverWorks.Lib

/-!
## Bytes and big-endian fields

A view over bytes with reads at an offset. A read past the end is an error, so a decoder that always
returns has read inside its bytes. Each field kind has its put, its get and the two laws between them.
-/

namespace EverWorks.Lib

/-- A read past the end of the view. -/
structure OutOfRange where
  offset : Nat
  deriving DecidableEq

@[simp] theorem ok_bind {α β : Type} (value : α) (next : α → Except OutOfRange β) :
    (Except.ok value >>= next) = next value := rfl

namespace Bytes

def getUint8 (bytes : List UInt8) (offset : Nat) : Except OutOfRange Nat :=
  match bytes[offset]? with
  | some byte => .ok byte.toNat
  | none => .error ⟨offset⟩

def getUint16 (bytes : List UInt8) (offset : Nat) : Except OutOfRange Nat := do
  let high ← getUint8 bytes offset
  let low ← getUint8 bytes (offset + 1)
  return high * 256 + low

def getUint32 (bytes : List UInt8) (offset : Nat) : Except OutOfRange Nat := do
  let high ← getUint16 bytes offset
  let low ← getUint16 bytes (offset + 2)
  return high * 65536 + low

def putUint16 (n : Nat) : List UInt8 := [UInt8.ofNat (n / 256), UInt8.ofNat n]

def putUint32 (n : Nat) : List UInt8 := putUint16 (n / 65536) ++ putUint16 n

variable {bytes rest : List UInt8} {offset : Nat}

@[simp] theorem length_putUint16 (n : Nat) : (putUint16 n).length = 2 := rfl

@[simp] theorem length_putUint32 (n : Nat) : (putUint32 n).length = 4 := rfl

theorem getUint8_of_drop {byte : UInt8} (h : bytes.drop offset = byte :: rest) :
    getUint8 bytes offset = .ok byte.toNat := by
  simp [getUint8, getElem?_of_drop h]

theorem getUint8_inside (bytes : List UInt8) (offset : Nat) (inside : offset < bytes.length) :
    ∃ byte, getUint8 bytes offset = .ok byte.toNat ∧
      bytes.drop offset = byte :: bytes.drop (offset + 1) :=
  ⟨bytes[offset], by simp [getUint8, inside], List.drop_eq_getElem_cons inside⟩

theorem getUint16_of_drop {n : Nat} (h : bytes.drop offset = putUint16 n ++ rest) :
    getUint16 bytes offset = .ok (n % 65536) := by
  have second : bytes.drop (offset + 1) = UInt8.ofNat n :: rest :=
    drop_succ_of_drop h
  simp only [getUint16, getUint8_of_drop h, getUint8_of_drop second]
  simp
  omega

theorem getUint16_of_drop_small {n : Nat} (h : bytes.drop offset = putUint16 n ++ rest)
    (small : n < 65536) : getUint16 bytes offset = .ok n := by
  rw [getUint16_of_drop h, Nat.mod_eq_of_lt small]

/-- A read inside the bytes succeeds, and the field it reads is the one that stands there. -/
theorem getUint16_inside (bytes : List UInt8) (offset : Nat) (inside : offset + 2 ≤ bytes.length) :
    ∃ n, n < 65536 ∧ getUint16 bytes offset = .ok n ∧
      bytes.drop offset = putUint16 n ++ bytes.drop (offset + 2) := by
  obtain ⟨high, readHigh, atHigh⟩ := getUint8_inside bytes offset (by omega)
  obtain ⟨low, readLow, atLow⟩ := getUint8_inside bytes (offset + 1) (by omega)
  have highBound := high.toNat_lt
  have lowBound := low.toNat_lt
  refine ⟨high.toNat * 256 + low.toNat, by omega, by simp [getUint16, readHigh, readLow], ?_⟩
  have quotient : (high.toNat * 256 + low.toNat) / 256 = high.toNat := by omega
  have lowByte : UInt8.ofNat (high.toNat * 256 + low.toNat) = low := by
    apply UInt8.toNat_inj.mp
    simp
  rw [atHigh, atLow, putUint16, quotient, lowByte, UInt8.ofNat_toNat]
  rfl

theorem getUint32_of_drop {n : Nat} (h : bytes.drop offset = putUint32 n ++ rest) :
    getUint32 bytes offset = .ok (n % 4294967296) := by
  rw [putUint32, List.append_assoc] at h
  have second : bytes.drop (offset + 2) = putUint16 n ++ rest := drop_add_of_drop _ h
  simp only [getUint32, getUint16_of_drop h, getUint16_of_drop second]
  show Except.ok _ = Except.ok _
  congr 1
  omega

theorem getUint32_of_drop_small {n : Nat} (h : bytes.drop offset = putUint32 n ++ rest)
    (small : n < 4294967296) : getUint32 bytes offset = .ok n := by
  rw [getUint32_of_drop h, Nat.mod_eq_of_lt small]

theorem getUint32_inside (bytes : List UInt8) (offset : Nat) (inside : offset + 4 ≤ bytes.length) :
    ∃ n, n < 4294967296 ∧ getUint32 bytes offset = .ok n ∧
      bytes.drop offset = putUint32 n ++ bytes.drop (offset + 4) := by
  obtain ⟨high, highBound, readHigh, atHigh⟩ :=
    getUint16_inside bytes offset (by omega)
  obtain ⟨low, lowBound, readLow, atLow⟩ :=
    getUint16_inside bytes (offset + 2) (by omega)
  refine ⟨high * 65536 + low, by omega, by simp [getUint32, readHigh, readLow], ?_⟩
  have quotient : (high * 65536 + low) / 65536 = high := by omega
  have lowBytes : putUint16 (high * 65536 + low) = putUint16 low := by
    have lowHigh : UInt8.ofNat ((high * 65536 + low) / 256) = UInt8.ofNat (low / 256) := by
      apply UInt8.toNat_inj.mp
      simp
      omega
    have lowLow : UInt8.ofNat (high * 65536 + low) = UInt8.ofNat low := by
      apply UInt8.toNat_inj.mp
      simp
    rw [putUint16, lowHigh, lowLow, putUint16]
  rw [atHigh, atLow, putUint32, quotient, lowBytes, List.append_assoc]

end Bytes

end EverWorks.Lib
