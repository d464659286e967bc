import Mathlib.Data.List.Infix

/-!
A text in which some stretches stand between an opening and a closing tag. Both tags begin with one mark that
stands nowhere else, so a scan from mark to mark reads the blocks back, and in one way only.
-/

namespace EverWorks.Lib
open List List

/-- Two tags that begin with one mark and do not have it again. -/
structure Tags (α : Type) where
  mark : α
  opened : List α
  closed : List α
  opened_unmarked : mark ∉ opened
  closed_unmarked : mark ∉ closed

namespace Tags

variable {α : Type} (tags : Tags α)

def openTag : List α := tags.mark :: tags.opened

def closeTag : List α := tags.mark :: tags.closed

variable [DecidableEq α]

/-- Every mark of the text starts a tag, the tags open and close in turn, and the last one closes. -/
def alternate : Bool → List α → Bool
  | inside, [] => !inside
  | inside, c :: rest =>
    if c = tags.mark then
      if !inside && tags.openTag.isPrefixOf (c :: rest) then alternate true rest
      else if inside && tags.closeTag.isPrefixOf (c :: rest) then alternate false rest
      else false
    else alternate inside rest

variable {tags}

theorem alternate_unmarked (inside : Bool) {front : List α} (unmarked : tags.mark ∉ front) (rest : List α) :
    tags.alternate inside (front ++ rest) = tags.alternate inside rest := by
  induction front with
  | nil => rfl
  | cons c front ih =>
    rw [mem_cons, not_or] at unmarked
    rw [cons_append, alternate, if_neg (Ne.symm unmarked.1), ih unmarked.2]

theorem alternate_openTag (rest : List α) :
    tags.alternate false (tags.openTag ++ rest) = tags.alternate true rest := by
  have standing : tags.openTag.isPrefixOf (tags.mark :: (tags.opened ++ rest)) = true :=
    isPrefixOf_iff_prefix.mpr ⟨rest, rfl⟩
  rw [openTag, cons_append, alternate, if_pos rfl, standing]
  exact alternate_unmarked true tags.opened_unmarked rest

theorem alternate_closeTag (rest : List α) :
    tags.alternate true (tags.closeTag ++ rest) = tags.alternate false rest := by
  have standing : tags.closeTag.isPrefixOf (tags.mark :: (tags.closed ++ rest)) = true :=
    isPrefixOf_iff_prefix.mpr ⟨rest, rfl⟩
  rw [closeTag, cons_append, alternate, if_pos rfl, standing]
  exact alternate_unmarked false tags.closed_unmarked rest

theorem alternate_mark {inside : Bool} {rest : List α} (accepted : tags.alternate inside (tags.mark :: rest) = true) :
    ∃ more, rest = (if inside then tags.closed else tags.opened) ++ more ∧ tags.alternate (!inside) more = true := by
  rw [alternate, if_pos rfl] at accepted
  cases inside with
  | false =>
    simp only [Bool.not_false, Bool.true_and, Bool.false_and, Bool.false_eq_true, if_false] at accepted ⊢
    split at accepted
    · rename_i standing
      obtain ⟨more, whole⟩ := isPrefixOf_iff_prefix.mp standing
      obtain rfl := (cons.inj whole).2
      exact ⟨more, rfl, alternate_unmarked true tags.opened_unmarked more ▸ accepted⟩
    · cases accepted
  | true =>
    simp only [Bool.not_true, Bool.false_and, Bool.true_and, Bool.false_eq_true, if_false, if_true] at accepted ⊢
    split at accepted
    · rename_i standing
      obtain ⟨more, whole⟩ := isPrefixOf_iff_prefix.mp standing
      obtain rfl := (cons.inj whole).2
      exact ⟨more, rfl, alternate_unmarked false tags.closed_unmarked more ▸ accepted⟩
    · cases accepted

end Tags

/-- A text in stretches: those outside a block, and those inside one. -/
inductive Weave (α : Type) where
  | last (after : List α)
  | block (before inside : List α) (rest : Weave α)

namespace Weave

variable {α : Type}

def outside : Weave α → List (List α)
  | last after => [after]
  | block before _ rest => before :: rest.outside

def inside : Weave α → List (List α)
  | last _ => []
  | block _ inside rest => inside :: rest.inside

def prepend (front : List α) : Weave α → Weave α
  | last after => last (front ++ after)
  | block before inside rest => block (front ++ before) inside rest

@[simp] theorem inside_prepend (front : List α) (weave : Weave α) : (weave.prepend front).inside = weave.inside := by
  cases weave <;> rfl

section
variable (tags : Tags α)

def text : Weave α → List α
  | last after => after
  | block before inside rest => before ++ (tags.openTag ++ (inside ++ (tags.closeTag ++ text rest)))

/-- The mark stands in no stretch. -/
def Plain (weave : Weave α) : Prop := ∀ stretch ∈ weave.outside ++ weave.inside, tags.mark ∉ stretch

end

variable {tags : Tags α}

@[simp] theorem text_prepend (front : List α) (weave : Weave α) :
    (weave.prepend front).text tags = front ++ weave.text tags := by
  cases weave with
  | last after => rfl
  | block before inside rest => rw [prepend, text, text, append_assoc]

theorem plain_last {after : List α} : (last after).Plain tags ↔ tags.mark ∉ after := by
  simp [Plain, outside, inside]

theorem plain_block {before within : List α} {rest : Weave α} :
    (block before within rest).Plain tags ↔ tags.mark ∉ before ∧ tags.mark ∉ within ∧ rest.Plain tags := by
  simp only [Plain, outside, inside, forall_mem_append, forall_mem_cons]
  constructor
  · rintro ⟨⟨front, outer⟩, within, inner⟩
    exact ⟨front, within, outer, inner⟩
  · rintro ⟨front, within, outer, inner⟩
    exact ⟨⟨front, outer⟩, within, inner⟩

variable {weave : Weave α}

theorem plain_prepend {front : List α} :
    (weave.prepend front).Plain tags ↔ tags.mark ∉ front ∧ weave.Plain tags := by
  cases weave with
  | last after => rw [prepend, plain_last, plain_last, mem_append, not_or]
  | block before within rest => rw [prepend, plain_block, plain_block, mem_append, not_or, and_assoc]

theorem mark_mem_text {before within : List α} {rest : Weave α} :
    tags.mark ∈ (block before within rest).text tags := by
  simp [text, Tags.openTag]

theorem eq_before_mark {mark : α} {front front' back back' : List α} (unmarked : mark ∉ front)
    (unmarked' : mark ∉ front') (same : front ++ mark :: back = front' ++ mark :: back') :
    front = front' ∧ back = back' := by
  induction front generalizing front' with
  | nil =>
    cases front' with
    | nil => exact ⟨rfl, (cons.inj same).2⟩
    | cons c front' => exact absurd ((cons.inj same).1 ▸ mem_cons_self) unmarked'
  | cons c front ih =>
    cases front' with
    | nil => exact absurd ((cons.inj same).1 ▸ mem_cons_self) unmarked
    | cons d front' =>
      obtain ⟨rfl, tails⟩ := cons.inj same
      obtain ⟨rfl, rfl⟩ := ih (not_mem_of_not_mem_cons unmarked) (not_mem_of_not_mem_cons unmarked') tails
      exact ⟨rfl, rfl⟩

theorem text_injective {weave other : Weave α} (plain : weave.Plain tags) (plain' : other.Plain tags)
    (same : weave.text tags = other.text tags) : weave = other := by
  induction weave generalizing other with
  | last after =>
    cases other with
    | last after' => exact congrArg last same
    | block before within rest =>
      have unmarked := Iff.mp plain_last plain
      rw [← text.eq_1 tags after, same] at unmarked
      exact absurd mark_mem_text unmarked
  | block before within rest ih =>
    cases other with
    | last after' =>
      have unmarked := Iff.mp plain_last plain'
      rw [← text.eq_1 tags after', ← same] at unmarked
      exact absurd mark_mem_text unmarked
    | block before' within' rest' =>
      obtain ⟨front, inner, outer⟩ := Iff.mp plain_block plain
      obtain ⟨front', inner', outer'⟩ := Iff.mp plain_block plain'
      rw [text, text, Tags.openTag, cons_append, cons_append] at same
      obtain ⟨rfl, opened⟩ := eq_before_mark front front' same
      rw [append_cancel_left_eq, Tags.closeTag, cons_append, cons_append] at opened
      obtain ⟨rfl, closed⟩ := eq_before_mark inner inner' opened
      rw [append_cancel_left_eq] at closed
      rw [ih outer outer' closed]

theorem openTag_infix_iff (plain : weave.Plain tags) :
    tags.openTag <:+: weave.text tags ↔ weave.inside ≠ [] := by
  cases weave with
  | last after =>
    have unmarked := Iff.mp plain_last plain
    have absent : ¬ tags.openTag <:+: after := fun standing => unmarked (standing.subset mem_cons_self)
    simpa [text, inside] using absent
  | block before within rest =>
    have standing : tags.openTag <:+: (block before within rest).text tags :=
      ⟨before, within ++ (tags.closeTag ++ rest.text tags), by rw [text, append_assoc]⟩
    simpa [inside] using standing

variable [DecidableEq α]

theorem alternate_text (plain : weave.Plain tags) :
    tags.alternate false (weave.text tags) = true := by
  induction weave with
  | last after =>
    have read := Tags.alternate_unmarked false (Iff.mp plain_last plain) []
    rw [append_nil] at read
    exact read
  | block before within rest ih =>
    obtain ⟨front, inner, outer⟩ := Iff.mp plain_block plain
    rw [text, Tags.alternate_unmarked false front, Tags.alternate_openTag, Tags.alternate_unmarked true inner,
      Tags.alternate_closeTag]
    exact ih outer

theorem exists_of_alternate (length : Nat) {text : List α} (bound : text.length ≤ length) :
    (tags.alternate false text = true → ∃ weave : Weave α, weave.Plain tags ∧ weave.text tags = text) ∧
      (tags.alternate true text = true → ∃ within, ∃ weave : Weave α, tags.mark ∉ within ∧ weave.Plain tags ∧
        within ++ (tags.closeTag ++ weave.text tags) = text) := by
  induction length generalizing text with
  | zero =>
    obtain rfl := length_eq_zero_iff.mp (Nat.le_zero.mp bound)
    exact ⟨fun _ => ⟨.last [], Iff.mpr plain_last not_mem_nil, rfl⟩, nofun⟩
  | succ length ih =>
    cases text with
    | nil => exact ⟨fun _ => ⟨.last [], Iff.mpr plain_last not_mem_nil, rfl⟩, nofun⟩
    | cons c rest =>
      rw [length_cons, Nat.add_le_add_iff_right] at bound
      by_cases here : c = tags.mark
      · subst here
        refine ⟨fun accepted => ?_, fun accepted => ?_⟩
        · obtain ⟨more, rfl, inBlock⟩ := Tags.alternate_mark accepted
          rw [length_append] at bound
          obtain ⟨within, weave, inner, plain, rfl⟩ := (ih (Nat.le_of_add_left_le bound)).2 inBlock
          exact ⟨.block [] within weave, Iff.mpr plain_block ⟨not_mem_nil, inner, plain⟩, rfl⟩
        · obtain ⟨more, rfl, behind⟩ := Tags.alternate_mark accepted
          rw [length_append] at bound
          obtain ⟨weave, plain, rfl⟩ := (ih (Nat.le_of_add_left_le bound)).1 behind
          exact ⟨[], weave, not_mem_nil, plain, rfl⟩
      · have apart : tags.mark ∉ [c] := by simpa using Ne.symm here
        refine ⟨fun accepted => ?_, fun accepted => ?_⟩
        · rw [← singleton_append, Tags.alternate_unmarked false apart] at accepted
          obtain ⟨weave, plain, rfl⟩ := (ih bound).1 accepted
          exact ⟨weave.prepend [c], Iff.mpr plain_prepend ⟨apart, plain⟩, text_prepend [c] weave⟩
        · rw [← singleton_append, Tags.alternate_unmarked true apart] at accepted
          obtain ⟨within, weave, inner, plain, rfl⟩ := (ih bound).2 accepted
          exact ⟨c :: within, weave, by simpa using ⟨Ne.symm here, inner⟩, plain, rfl⟩

theorem alternate_iff {text : List α} :
    tags.alternate false text = true ↔ ∃ weave : Weave α, weave.Plain tags ∧ weave.text tags = text := by
  constructor
  · exact (exists_of_alternate text.length le_rfl).1
  · rintro ⟨weave, plain, rfl⟩
    exact alternate_text plain

end Weave

end EverWorks.Lib
