import Mathlib.Data.List.Infix

/-!
A pattern is a text; one that ends in the star stands for every text that starts with what is before it.
-/

namespace EverWorks.Lib.Glob
open List
variable {α : Type} [DecidableEq α] {star : α}

def Reaches (star : α) (pattern text : List α) : Prop :=
  if pattern.getLast? = some star then pattern.dropLast <+: text else pattern = text

def Plain (star : α) (pattern : List α) : Prop :=
  star ∉ pattern.dropLast

omit [DecidableEq α] in
theorem getLast?_star {pattern : List α} (ends : pattern.getLast? = some star) :
    pattern = pattern.dropLast ++ [star] := by
  obtain ⟨front, rfl⟩ := getLast?_eq_some_iff.mp ends
  rw [dropLast_concat]

theorem Reaches.refl (pattern : List α) : Reaches star pattern pattern := by
  unfold Reaches
  split
  · exact dropLast_prefix _
  · rfl

theorem Reaches.trans {outer middle text : List α} (plain : Plain star outer)
    (upper : Reaches star outer middle) (lower : Reaches star middle text) :
    Reaches star outer text := by
  by_cases wide : outer.getLast? = some star
  · rw [Reaches, if_pos wide] at upper ⊢
    by_cases ends : middle.getLast? = some star
    · rw [Reaches, if_pos ends] at lower
      rw [getLast?_star ends, prefix_concat_iff] at upper
      rcases upper with whole | head
      · exact absurd (by rw [whole]; simp) plain
      · exact head.trans lower
    · rw [Reaches, if_neg ends] at lower
      exact lower ▸ upper
  · rw [Reaches, if_neg wide] at upper
    exact upper ▸ lower

/-- A plain pattern reaches another as a text where it reaches all the other one does. -/
theorem reaches_iff_forall {outer inner : List α} (plain : Plain star outer) :
    Reaches star outer inner ↔ ∀ text, Reaches star inner text → Reaches star outer text :=
  ⟨fun upper _ lower => upper.trans plain lower, fun all => all inner (Reaches.refl inner)⟩

end EverWorks.Lib.Glob
