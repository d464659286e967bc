import EverWorks.Lib.Replace
import EverWorks.Lib.Utf16

/-!
`normalize('NFKC')` is a parameter: it changes nothing twice, leaves ASCII alone, and a part of a normal text is
normal. Nothing composes across a unit that no composition begins or ends with.
-/

namespace EverWorks.Lib
open List

/-- ASCII but the letters and `<`, `=`, `>`, which a mark can follow, and the em dash. -/
def standsApart (unit : UInt16) : Bool :=
  unit == 0x2014 ||
    (unit < 0x80 && !(0x3C ≤ unit && unit ≤ 0x3E) && !(0x41 ≤ unit && unit ≤ 0x5A) &&
      !(0x61 ≤ unit && unit ≤ 0x7A))

def isAscii (text : Utf16) : Bool := text.all (· < 0x80)

structure Nfkc where
  fold : Utf16 → Utf16
  fold_fold : ∀ text, fold (fold text) = fold text
  fold_ascii : ∀ text, isAscii text = true → fold text = text
  fold_part : ∀ text part, part <:+: fold text → fold part = part
  fold_apart : ∀ front unit back, standsApart unit = true → fold front = front → fold back = back →
    fold (front ++ unit :: back) = front ++ unit :: back

namespace Nfkc

variable {nfkc : Nfkc}

def Normal (nfkc : Nfkc) (text : Utf16) : Prop := nfkc.fold text = text

theorem normal_fold (text : Utf16) : nfkc.Normal (nfkc.fold text) := nfkc.fold_fold text

theorem normal_nil : nfkc.Normal [] := nfkc.fold_ascii [] rfl

theorem Normal.part {text part : Utf16} (normal : nfkc.Normal text) (inside : part <:+: text) :
    nfkc.Normal part :=
  nfkc.fold_part text part (normal.symm ▸ inside)

variable {unit : UInt16}

variable {front back : Utf16}

theorem Normal.join (normal : nfkc.Normal front)
    (apart : standsApart unit = true) (normal' : nfkc.Normal back) : nfkc.Normal (front ++ unit :: back) :=
  nfkc.fold_apart front unit back apart normal normal'

theorem Normal.append_of_last (normal : nfkc.Normal (front ++ [unit]))
    (apart : standsApart unit = true) (normal' : nfkc.Normal back) : nfkc.Normal (front ++ [unit] ++ back) := by
  rw [append_assoc]
  exact (normal.part (prefix_append _ _).isInfix).join apart normal'

theorem Normal.append_of_head (normal : nfkc.Normal front)
    (apart : standsApart unit = true) (normal' : nfkc.Normal (unit :: back)) :
    nfkc.Normal (front ++ unit :: back) :=
  normal.join apart (normal'.part (suffix_cons _ _).isInfix)

structure Seam (nfkc : Nfkc) (joint : Utf16) : Prop where
  normal : nfkc.Normal joint
  starts : joint.head?.any standsApart = true
  ends : joint.getLast?.any standsApart = true

theorem Normal.before {front joint : Utf16} (normal : nfkc.Normal front) (seam : nfkc.Seam joint) :
    nfkc.Normal (front ++ joint) := by
  obtain ⟨unit, back, rfl⟩ : ∃ unit back, joint = unit :: back := by
    cases joint with
    | nil => exact absurd seam.starts (by simp)
    | cons unit back => exact ⟨unit, back, rfl⟩
  exact normal.append_of_head (by simpa using seam.starts) seam.normal

theorem Normal.after {joint back : Utf16} (normal : nfkc.Normal joint) (ends : joint.getLast?.any standsApart = true)
    (normal' : nfkc.Normal back) : nfkc.Normal (joint ++ back) := by
  rcases eq_nil_or_concat joint with rfl | ⟨front, unit, rfl⟩
  · exact absurd ends (by simp)
  · rw [concat_eq_append] at normal ends ⊢
    exact normal.append_of_last (by simpa using ends) normal'

theorem Normal.around {front joint back : Utf16} (normal : nfkc.Normal front) (seam : nfkc.Seam joint)
    (normal' : nfkc.Normal back) : nfkc.Normal (front ++ joint ++ back) := by
  refine (normal.before seam).after ?_ normal'
  rcases eq_nil_or_concat joint with rfl | ⟨middle, unit, rfl⟩
  · exact absurd seam.ends (by simp)
  · have ends := seam.ends
    rw [concat_eq_append] at ends ⊢
    simpa [← append_assoc] using ends

theorem normal_intercalate {joint : Utf16} (seam : nfkc.Seam joint) {pieces : List Utf16}
    (each : ∀ piece ∈ pieces, nfkc.Normal piece) : nfkc.Normal (joint.intercalate pieces) := by
  induction pieces with
  | nil => exact normal_nil
  | cons piece pieces ih =>
    have first := each piece mem_cons_self
    cases pieces with
    | nil => simpa [List.intercalate] using first
    | cons second pieces =>
      rw [intercalate_cons_cons]
      exact first.around seam (ih fun piece member => each piece (mem_cons_of_mem _ member))

theorem Normal.replaceAll {text word new : Utf16} (normal : nfkc.Normal text) (nonempty : word ≠ [])
    (seam : nfkc.Seam new) : nfkc.Normal (Replace.replaceAll word new text) := by
  refine normal_intercalate seam fun piece member => normal.part ?_
  have inside := Replace.infix_of_mem_intercalate word member
  rwa [Replace.intercalate_split nonempty] at inside

theorem Normal.spaced {inside : Bool} {front text : Utf16} (normal : nfkc.Normal (front ++ text))
    (fresh : inside = true → front = []) : nfkc.Normal (front ++ Utf16.spaced inside text) := by
  have blank : standsApart 0x20 = true := by decide
  induction text generalizing inside front with
  | nil => exact normal
  | cons unit rest ih =>
    have back : nfkc.Normal rest := normal.part ((suffix_cons _ _).trans (suffix_append _ _)).isInfix
    rw [Utf16.spaced]
    split
    · have tail : nfkc.Normal ([] ++ Utf16.spaced true rest) := ih back fun _ => rfl
      split
      · rename_i already
        rw [fresh already]
        exact tail
      · exact (normal.part (prefix_append _ _).isInfix).join blank tail
    · rw [← singleton_append, ← append_assoc] at normal ⊢
      exact ih normal fun inside => by cases inside

end Nfkc

def narrow (unit : UInt16) : UInt16 := if 0xFF01 ≤ unit && unit ≤ 0xFF5E then unit - 0xFEE0 else unit

theorem narrow_of_ascii {unit : UInt16} (ascii : unit < 0x80) : narrow unit = unit := by
  have below : ¬ (0xFF01 : UInt16) ≤ unit := UInt16.not_le.mpr (UInt16.lt_trans ascii (by decide))
  simp [narrow, below]

theorem narrow_lt {unit : UInt16} (wide : narrow unit ≠ unit) : narrow unit < 0x80 := by
  have inRange : (0xFF01 ≤ unit && unit ≤ 0xFF5E) = true := by
    by_contra outside
    exact wide (by rw [narrow, if_neg outside])
  rw [narrow, if_pos inRange]
  simp only [Bool.and_eq_true, decide_eq_true_eq, UInt16.le_iff_toNat_le] at inRange
  have low : (0xFF01 : UInt16).toNat = 65281 := rfl
  have high : (0xFF5E : UInt16).toNat = 65374 := rfl
  have off : (0xFEE0 : UInt16).toNat = 65248 := rfl
  have bound : (0x80 : UInt16).toNat = 128 := rfl
  rw [UInt16.lt_iff_toNat_lt, UInt16.toNat_sub_of_le _ _ (by rw [UInt16.le_iff_toNat_le]; omega)]
  omega

theorem narrow_narrow (unit : UInt16) : narrow (narrow unit) = narrow unit := by
  by_cases wide : narrow unit = unit
  · rw [wide, wide]
  · exact narrow_of_ascii (narrow_lt wide)

def fullWidth : Nfkc where
  fold := List.map narrow
  fold_fold text := by simp [narrow_narrow]
  fold_ascii text ascii := by
    rw [isAscii, all_eq_true] at ascii
    have settled : ∀ unit ∈ text, narrow unit = unit :=
      fun unit member => narrow_of_ascii (by simpa using ascii unit member)
    exact (map_congr_left settled).trans (map_id _)
  fold_part text part inside := by
    have settled : ∀ unit ∈ part, narrow unit = unit := by
      intro unit member
      obtain ⟨source, -, rfl⟩ := mem_map.mp (inside.subset member)
      exact narrow_narrow source
    exact (map_congr_left settled).trans (map_id _)
  fold_apart front unit back apart normal normal' := by
    have settled : narrow unit = unit := by
      simp only [standsApart, Bool.or_eq_true, beq_iff_eq, Bool.and_eq_true, decide_eq_true_eq] at apart
      rcases apart with rfl | ⟨⟨⟨small, -⟩, -⟩, -⟩
      · decide
      · exact narrow_of_ascii small
    rw [map_append, map_cons, normal, normal', settled]

end EverWorks.Lib
