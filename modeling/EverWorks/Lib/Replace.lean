import Mathlib.Data.List.Infix

/-!
A text is split at a word, from the left and without overlap, and joined by another. The joined text can only have a
word where it touches what was put in, or inside a piece, where it stood before.
-/

namespace EverWorks.Lib.Replace
open List List

variable {α : Type}

/-- Both words can stand in one text with a position in common. -/
def Overlaps (word other : List α) : Prop :=
  ∃ before after before' after' : List α, before ++ word ++ after = before' ++ other ++ after' ∧
    before.length < before'.length + other.length ∧ before'.length < before.length + word.length

variable {word other : List α}

theorem overlaps_of_inside (nonempty : word ≠ []) (inside : word <:+: other) :
    Overlaps word other := by
  obtain ⟨before, after, rfl⟩ := inside
  have := length_pos_of_ne_nil nonempty
  exact ⟨before, after, [], [], by simp, by simp; omega, by simp; omega⟩

theorem mem_of_overlaps (solid : word ≠ []) (solid' : other ≠ [])
    (touch : Overlaps word other) : ∃ c ∈ word, c ∈ other := by
  have := length_pos_of_ne_nil solid
  have := length_pos_of_ne_nil solid'
  obtain ⟨before, after, before', after', whole, reach, reach'⟩ := touch
  obtain ⟨place, common⟩ : ∃ place, place = max before.length before'.length := ⟨_, rfl⟩
  have inWord : (before ++ word ++ after)[place]? = word[place - before.length]? := by
    rw [append_assoc, getElem?_append_right (by omega), getElem?_append_left (by omega)]
  have inOther : (before' ++ other ++ after')[place]? = other[place - before'.length]? := by
    rw [append_assoc, getElem?_append_right (by omega), getElem?_append_left (by omega)]
  rw [whole, inOther, getElem?_eq_getElem (by omega)] at inWord
  exact ⟨_, mem_of_getElem? inWord.symm, getElem_mem (by omega)⟩

theorem not_infix_of_apart (nonempty : word ≠ []) (apart : ¬ Overlaps word other) :
    ¬ word <:+: other :=
  fun inside => apart (overlaps_of_inside nonempty inside)

theorem stands_around {word other before after front back : List α} (apart : ¬ Overlaps word other)
    (whole : before ++ word ++ after = front ++ other ++ back) :
    (∃ gap, before ++ word ++ gap = front) ∨
      ∃ gap, before = front ++ other ++ gap ∧ back = gap ++ word ++ after := by
  by_cases left : before.length + word.length ≤ front.length
  · left
    rw [append_assoc front] at whole
    exact prefix_of_prefix_length_le ⟨after, whole⟩ ⟨_, rfl⟩ (by simpa using left)
  · by_cases right : front.length + other.length ≤ before.length
    · right
      rw [append_assoc before] at whole
      have reach : front ++ other <+: before :=
        prefix_of_prefix_length_le ⟨back, rfl⟩ ⟨word ++ after, whole⟩ (by simpa using right)
      obtain ⟨gap, rfl⟩ := reach
      rw [append_assoc (front ++ other), append_cancel_left_eq] at whole
      exact ⟨gap, rfl, by rw [← whole, append_assoc]⟩
    · exact absurd ⟨before, after, front, back, whole, by omega, by omega⟩ apart

theorem infix_around {word other front back : List α} (apart : ¬ Overlaps word other)
    (inside : word <:+: front ++ other ++ back) : word <:+: front ∨ word <:+: back := by
  obtain ⟨before, after, whole⟩ := inside
  rcases stands_around apart whole with ⟨gap, rfl⟩ | ⟨gap, -, rfl⟩
  · exact .inl ⟨before, gap, rfl⟩
  · exact .inr ⟨gap, after, rfl⟩

theorem stands_once {word joint front back before after : List α} (apart : ¬ Overlaps word joint)
    (absent : ¬ word <:+: front) (absent' : ¬ word <:+: back)
    (whole : before ++ word ++ after = front ++ joint ++ (word ++ joint ++ back)) : before = front ++ joint := by
  rcases stands_around apart whole with ⟨gap, rfl⟩ | ⟨gap, rfl, rest⟩
  · exact absurd ⟨before, gap, rfl⟩ absent
  · rcases stands_around apart rest.symm with ⟨gap', rest'⟩ | ⟨gap', -, rfl⟩
    · have := congrArg length rest'
      simp only [length_append] at this
      rw [eq_nil_of_length_eq_zero (by omega : gap.length = 0), append_nil]
    · exact absurd ⟨gap', after, rfl⟩ absent'

theorem infix_append_cases {word front back : List α} (inside : word <:+: front ++ back) :
    word <:+: front ∨ word <:+: back ∨
      ∃ left right, word = left ++ right ∧ left ≠ [] ∧ right ≠ [] ∧ left <:+ front ∧ right <+: back := by
  obtain ⟨before, after, whole⟩ := inside
  rw [append_assoc] at whole
  rcases append_eq_append_iff.mp whole with ⟨gap, rfl, rest⟩ | ⟨gap, rfl, rest⟩
  · rcases append_eq_append_iff.mp rest with ⟨gap', rfl, rest'⟩ | ⟨gap', rfl, rest'⟩
    · exact .inl ⟨before, gap', by simp⟩
    · by_cases left : gap = []
      · exact .inr (.inl ⟨[], after, by simp [rest', left]⟩)
      · by_cases right : gap' = []
        · exact .inl ⟨before, [], by simp [right]⟩
        · exact .inr (.inr ⟨gap, gap', rfl, left, right, suffix_append _ _, after, rest'.symm⟩)
  · exact .inr (.inl ⟨gap, after, by rw [append_assoc]; exact rest.symm⟩)

theorem infix_intercalate {word joint : List α} (nonempty : word ≠ []) (apart : ¬ Overlaps word joint)
    {pieces : List (List α)} (inside : word <:+: joint.intercalate pieces) : ∃ piece ∈ pieces, word <:+: piece := by
  induction pieces with
  | nil => exact absurd (infix_nil.mp inside) nonempty
  | cons piece rest ih =>
    cases rest with
    | nil => exact ⟨piece, mem_cons_self, by simpa [intercalate] using inside⟩
    | cons second rest =>
      rw [intercalate_cons_cons] at inside
      rcases infix_around apart inside with front | back
      · exact ⟨piece, mem_cons_self, front⟩
      · obtain ⟨found, member, standing⟩ := ih back
        exact ⟨found, mem_cons_of_mem _ member, standing⟩

theorem infix_of_mem_intercalate (joint : List α) {piece : List α} {pieces : List (List α)} (member : piece ∈ pieces) :
    piece <:+: joint.intercalate pieces := by
  induction pieces with
  | nil => cases member
  | cons first rest ih =>
    cases rest with
    | nil => simp_all [intercalate]
    | cons second rest =>
      rw [intercalate_cons_cons]
      rcases mem_cons.mp member with rfl | deeper
      · exact ⟨[], _, by rw [nil_append, append_assoc]⟩
      · exact (ih deeper).trans (suffix_append _ _).isInfix

theorem intercalate_append (joint : List α) {front back : List (List α)} (nonempty : front ≠ [])
    (nonempty' : back ≠ []) :
    joint.intercalate (front ++ back) = joint.intercalate front ++ joint ++ joint.intercalate back := by
  induction front with
  | nil => exact absurd rfl nonempty
  | cons piece front ih =>
    cases front with
    | nil =>
      obtain ⟨second, back, rfl⟩ := exists_cons_of_ne_nil nonempty'
      rw [singleton_append, intercalate_cons_cons, intercalate_singleton]
    | cons second front =>
      have rest := ih (cons_ne_nil _ _)
      rw [cons_append, cons_append, intercalate_cons_cons, intercalate_cons_cons,
        ← cons_append, rest]
      simp only [append_assoc]

theorem length_intercalate_le {joint new : List α} (shorter : new.length ≤ joint.length)
    (pieces : List (List α)) : (new.intercalate pieces).length ≤ (joint.intercalate pieces).length := by
  induction pieces with
  | nil => simp [intercalate]
  | cons piece pieces ih =>
    cases pieces with
    | nil => simp [intercalate]
    | cons second pieces =>
      simp only [intercalate_cons_cons, length_append] at ih ⊢
      omega

variable [DecidableEq α]

def agree (a b : List α) : Bool := a.isPrefixOf b || b.isPrefixOf a

def touches (word other : List α) : Bool :=
  (range other.length).any (fun i => agree word (other.drop i)) ||
    (range word.length).any fun i => agree other (word.drop i)

theorem agree_of_front (text : List α) {a b : List α} (front : a <+: text) (front' : b <+: text) : agree a b = true := by
  rw [agree, Bool.or_eq_true, isPrefixOf_iff_prefix, isPrefixOf_iff_prefix]
  exact prefix_or_prefix_of_prefix front front'

theorem not_overlaps_of_touches (apart : touches word other = false) :
    ¬ Overlaps word other := by
  rintro ⟨before, after, before', after', whole, reach, reach'⟩
  rw [touches, Bool.or_eq_false_iff, any_eq_false, any_eq_false] at apart
  rw [append_assoc, append_assoc] at whole
  by_cases first : before'.length ≤ before.length
  · obtain ⟨gap, rfl⟩ : before' <+: before :=
      prefix_of_prefix_length_le ⟨_, rfl⟩ ⟨_, whole⟩ first
    rw [append_assoc, append_cancel_left_eq] at whole
    rw [length_append] at reach
    apply apart.1 gap.length (mem_range.mpr (by omega))
    refine agree_of_front (word ++ after) ⟨after, rfl⟩ ?_
    have dropped := congrArg (drop gap.length) whole
    rw [drop_left, drop_append_of_le_length (by omega)] at dropped
    exact ⟨after', dropped.symm⟩
  · obtain ⟨gap, rfl⟩ : before <+: before' :=
      prefix_of_prefix_length_le ⟨_, rfl⟩ ⟨_, whole.symm⟩ (by omega)
    rw [append_assoc, append_cancel_left_eq] at whole
    rw [length_append] at reach'
    apply apart.2 gap.length (mem_range.mpr (by omega))
    refine agree_of_front (other ++ after') ⟨after', rfl⟩ ?_
    have dropped := congrArg (drop gap.length) whole
    rw [drop_left, drop_append_of_le_length (by omega)] at dropped
    exact ⟨after, dropped⟩

/-- The pieces between the places where a word stands; `skip` counts what is left of the last one met. -/
def splitFrom (word : List α) : Nat → List α → List (List α)
  | _, [] => [[]]
  | skip + 1, _ :: rest => splitFrom word skip rest
  | 0, c :: rest =>
    if word.isPrefixOf (c :: rest) then [] :: splitFrom word (word.length - 1) rest
    else
      match splitFrom word 0 rest with
      | [] => [[c]]
      | piece :: pieces => (c :: piece) :: pieces

def split (word text : List α) : List (List α) := splitFrom word 0 text

def replaceAll (word new text : List α) : List α := new.intercalate (split word text)

theorem splitFrom_ne_nil (word : List α) (skip : Nat) (text : List α) : splitFrom word skip text ≠ [] := by
  fun_induction splitFrom word skip text <;> simp_all

theorem splitFrom_spec {word : List α} (nonempty : word ≠ []) (skip : Nat) (text : List α) :
    word.intercalate (splitFrom word skip text) = text.drop skip ∧
      ∀ piece ∈ splitFrom word skip text, ¬ word <:+: piece := by
  have free : ¬ word <:+: [] := fun inside => nonempty (infix_nil.mp inside)
  induction text generalizing skip with
  | nil => cases skip <;> simpa [splitFrom, intercalate] using free
  | cons c rest ih =>
    cases skip with
    | succ skip => exact ih skip
    | zero =>
      rw [splitFrom]
      split
      · rename_i met
        obtain ⟨tail, whole⟩ := isPrefixOf_iff_prefix.mp met
        obtain ⟨joined, pieces⟩ := ih (word.length - 1)
        refine ⟨?_, ?_⟩
        · cases shape : splitFrom word (word.length - 1) rest with
          | nil => exact absurd shape (splitFrom_ne_nil _ _ _)
          | cons piece more =>
            rw [intercalate_cons_cons, ← shape, joined, nil_append, drop_zero]
            cases word with
            | nil => exact absurd rfl nonempty
            | cons first word =>
              obtain ⟨rfl, rfl⟩ := cons.inj whole
              simp
        · rintro piece (_ | ⟨_, member⟩)
          · exact free
          · exact pieces piece member
      · rename_i unmet
        obtain ⟨joined, pieces⟩ := ih 0
        cases shape : splitFrom word 0 rest with
        | nil => exact absurd shape (splitFrom_ne_nil _ _ _)
        | cons piece more =>
          rw [shape] at joined pieces
          have standing : piece <+: rest := by
            rw [drop_zero] at joined
            rw [← joined]
            cases more with
            | nil => simp [intercalate]
            | cons second more => exact ⟨_, by rw [intercalate_cons_cons, append_assoc]⟩
          refine ⟨?_, ?_⟩
          · rw [drop_zero] at joined ⊢
            rw [← joined]
            cases more <;> simp [intercalate]
          · rintro piece' (_ | ⟨_, member⟩)
            · intro inside
              rcases infix_cons_iff.mp inside with here | deeper
              · obtain ⟨more', whole⟩ := standing
                refine unmet ( isPrefixOf_iff_prefix.mpr (here.trans ⟨more', ?_⟩))
                rw [cons_append, whole]
              · exact pieces piece mem_cons_self deeper
            · exact pieces piece' (mem_cons_of_mem _ member)

theorem intercalate_split {word : List α} (nonempty : word ≠ []) (text : List α) :
    word.intercalate (split word text) = text :=
  (splitFrom_spec nonempty 0 text).1

theorem not_infix_of_mem_split {word piece : List α} (nonempty : word ≠ []) (text : List α)
    (member : piece ∈ split word text) : ¬ word <:+: piece :=
  (splitFrom_spec nonempty 0 text).2 piece member

theorem infix_of_replaceAll {word new other text : List α} (nonempty : word ≠ []) (solid : other ≠ [])
    (apart : ¬ Overlaps other new) (inside : other <:+: replaceAll word new text) : other <:+: text := by
  obtain ⟨piece, member, standing⟩ := infix_intercalate solid apart inside
  have whole := infix_of_mem_intercalate word member
  rw [intercalate_split nonempty] at whole
  exact standing.trans whole

theorem not_infix_replaceAll {word new text : List α} (nonempty : word ≠ []) (apart : ¬ Overlaps word new) :
    ¬ word <:+: replaceAll word new text := by
  intro inside
  obtain ⟨piece, member, standing⟩ := infix_intercalate nonempty apart inside
  exact not_infix_of_mem_split nonempty text member standing

theorem new_infix_replaceAll {word text : List α} (new : List α) (nonempty : word ≠ []) (inside : word <:+: text) :
    new <:+: replaceAll word new text := by
  have whole := intercalate_split nonempty text
  rw [replaceAll]
  cases shape : split word text with
  | nil => exact absurd shape (splitFrom_ne_nil _ _ _)
  | cons piece more =>
    cases more with
    | nil =>
      rw [shape] at whole
      have : piece = text := by simpa [intercalate] using whole
      have free := not_infix_of_mem_split nonempty text (shape ▸ mem_cons_self)
      exact absurd (this ▸ inside) free
    | cons second more =>
      rw [intercalate_cons_cons]
      exact ⟨piece, _, rfl⟩

theorem split_of_not_infix {word text : List α} (nonempty : word ≠ []) (absent : ¬ word <:+: text) :
    split word text = [text] := by
  have whole := intercalate_split nonempty text
  cases shape : split word text with
  | nil => exact absurd shape (splitFrom_ne_nil _ _ _)
  | cons piece more =>
    rw [shape] at whole
    cases more with
    | nil => rw [← whole, intercalate_singleton]
    | cons second more =>
      rw [intercalate_cons_cons] at whole
      exact absurd ⟨piece, _, whole⟩ absent

theorem replaceAll_of_absent {word new text : List α} (nonempty : word ≠ []) (absent : ¬ word <:+: text) :
    replaceAll word new text = text := by
  rw [replaceAll, split_of_not_infix nonempty absent, intercalate_singleton]

/-- A shorter word for a longer one makes no text longer, and one that has the longer word in it shorter. -/
theorem length_replaceAll_le {word : List α} (new : List α) (nonempty : word ≠ []) (shorter : new.length ≤ word.length)
    (text : List α) : (replaceAll word new text).length ≤ text.length := by
  conv_rhs => rw [← intercalate_split nonempty text]
  exact length_intercalate_le shorter _

theorem length_replaceAll_lt {word text : List α} (new : List α) (nonempty : word ≠ []) (shorter : new.length < word.length)
    (inside : word <:+: text) : (replaceAll word new text).length < text.length := by
  have whole := intercalate_split nonempty text
  rw [replaceAll]
  conv_rhs => rw [← whole]
  cases shape : split word text with
  | nil => exact absurd shape (splitFrom_ne_nil _ _ _)
  | cons piece more =>
    cases more with
    | nil =>
      rw [shape, intercalate_singleton] at whole
      exact absurd (whole ▸ inside) (not_infix_of_mem_split nonempty text (shape ▸ mem_cons_self))
    | cons second more =>
      have rest := length_intercalate_le shorter.le (second :: more)
      simp only [intercalate_cons_cons, length_append] at rest ⊢
      omega

end EverWorks.Lib.Replace
