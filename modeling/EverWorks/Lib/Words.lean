import EverWorks.Lib.JsValue

/-!
A text of words with one blank between each two splits at white space into those words.
-/

namespace EverWorks.Lib.JsString
open List

def spaced (words : List (List Char)) : List Char := [' '].intercalate words

structure IsWord (word : List Char) : Prop where
  nonempty : word ≠ []
  solid : ∀ c ∈ word, isWhiteSpace c = false

theorem spaced_cons (word next : List Char) (words : List (List Char)) :
    spaced (word :: next :: words) = word ++ ' ' :: spaced (next :: words) := by
  simp [spaced, intercalate_cons_cons]

variable {words : List (List Char)}

theorem spaced_ends (nonempty : words ≠ []) (each : ∀ word ∈ words, IsWord word) :
    (∃ c rest, spaced words = c :: rest ∧ isWhiteSpace c = false) ∧
      ∃ c front, spaced words = front ++ [c] ∧ isWhiteSpace c = false := by
  induction words with
  | nil => exact absurd rfl nonempty
  | cons word words ih =>
    obtain ⟨some_, solid⟩ := each word mem_cons_self
    obtain ⟨c, rest, head⟩ := exists_cons_of_ne_nil some_
    cases words with
    | nil =>
      have alone : spaced [word] = word := by simp [spaced]
      refine ⟨⟨c, rest, by rw [alone, head], solid c (head ▸ mem_cons_self)⟩,
        word.getLast some_, word.dropLast, ?_, solid _ (getLast_mem some_)⟩
      rw [alone, dropLast_append_getLast]
    | cons next words =>
      obtain ⟨-, d, front, last, dSolid⟩ := ih (cons_ne_nil _ _)
        fun word member => each word (mem_cons_of_mem _ member)
      rw [spaced_cons]
      refine ⟨⟨c, rest ++ ' ' :: spaced (next :: words), by rw [head]; rfl, solid c (head ▸ mem_cons_self)⟩,
        d, word ++ ' ' :: front, ?_, dSolid⟩
      rw [last]
      simp

theorem trim_spaced (nonempty : words ≠ []) (each : ∀ word ∈ words, IsWord word) :
    trim (String.ofList (spaced words)) = String.ofList (spaced words) := by
  obtain ⟨⟨c, rest, head, cSolid⟩, d, front, last, dSolid⟩ := spaced_ends nonempty each
  have first : (spaced words).dropWhile isWhiteSpace = spaced words := by
    rw [head, dropWhile_cons_of_neg (by simp [cSolid])]
  have back : (spaced words).reverse.dropWhile isWhiteSpace = (spaced words).reverse := by
    rw [last, reverse_append, reverse_singleton, singleton_append,
      dropWhile_cons_of_neg (by simp [dSolid])]
  rw [trim, String.toList_ofList, first, back, reverse_reverse]

theorem squeeze_solid {word rest : List Char} (solid : ∀ c ∈ word, isWhiteSpace c = false) :
    squeeze (word ++ rest) = word ++ squeeze rest := by
  induction word with
  | nil => rfl
  | cons c word ih =>
    rw [cons_append, squeeze, solid c mem_cons_self]
    simp [ih fun c member => solid c (mem_cons_of_mem _ member)]

theorem squeeze_spaced (each : ∀ word ∈ words, IsWord word) :
    squeeze (spaced words) = spaced words := by
  induction words with
  | nil => rfl
  | cons word words ih =>
    obtain ⟨-, solid⟩ := each word mem_cons_self
    have later := fun word member => each word (mem_cons_of_mem _ member)
    cases words with
    | nil =>
      have alone : squeeze (word ++ []) = word ++ squeeze [] := squeeze_solid solid
      simpa [spaced, squeeze] using alone
    | cons next words =>
      obtain ⟨⟨c, rest, head, cSolid⟩, -⟩ := spaced_ends (cons_ne_nil _ _) later
      rw [spaced_cons, squeeze_solid solid, squeeze, if_pos (by decide), head]
      simp only [head?_cons, Option.map_some, Option.getD_some, cSolid, Bool.false_eq_true, if_false]
      rw [← head, ih later]

theorem splitSpaces_words (nonempty : words ≠ [])
    (each : ∀ word ∈ words, IsWord word) :
    splitSpaces (trim (String.ofList (spaced words))) = words.map String.ofList := by
  have apart : ∀ word ∈ words, ' ' ∉ word := by
    intro word member blank
    have := (each word member).solid ' ' blank
    exact absurd this (by decide)
  rw [trim_spaced nonempty each, splitSpaces, replaceSpaces, String.toList_ofList,
    squeeze_spaced each, split, String.toList_ofList, spaced, splitOn_intercalate _ apart nonempty]

end EverWorks.Lib.JsString
