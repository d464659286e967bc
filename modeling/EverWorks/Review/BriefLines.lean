import EverWorks.Review.Brief

/-!
One pass over the chat-template markers and one over each fence line. A text that has none of them is left as
it is, and one that has any gets shorter, so a second round tells whether the first one was enough.
-/

namespace EverWorks.Review
open Lib Lib.Replace List

def fences : List Utf16 := [agentReviewUntrustedBegin, agentReviewUntrustedEnd]

def HasMarker (text : Utf16) : Prop := ∃ marker ∈ chatTemplateMarkers, marker <:+: lower text

structure Harmless (text : Utf16) : Prop where
  unmarked : ¬ HasMarker text
  unfenced : ∀ fence ∈ fences, ¬ fence <:+: text

theorem fence_ne_nil {fence : Utf16} (member : fence ∈ fences) : fence ≠ [] := by
  have table : ∀ fence ∈ fences, fence ≠ [] := by decide +kernel
  exact table fence member

theorem markerAt_some {text marker : Utf16} (found : markerAt text = some marker) :
    marker ∈ chatTemplateMarkers ∧ marker <+: lower text :=
  ⟨mem_of_find?_eq_some found, by simpa using find?_some found⟩

theorem markerAt_none {text marker : Utf16} (absent : markerAt text = none)
    (member : marker ∈ chatTemplateMarkers) : ¬ marker <+: lower text := by
  simpa using find?_eq_none.mp absent marker member

theorem HasMarker.of_infix {text part : Utf16} (has : HasMarker part) (inside : part <:+: text) :
    HasMarker text := by
  obtain ⟨marker, member, standing⟩ := has
  exact ⟨marker, member, standing.trans (inside.map lowerUnit)⟩

theorem hasMarker_cons {unit : UInt16} {rest : Utf16} :
    HasMarker (unit :: rest) ↔ (markerAt (unit :: rest)).isSome ∨ HasMarker rest := by
  constructor
  · rintro ⟨marker, member, standing⟩
    rw [lower, map_cons] at standing
    rcases infix_cons_iff.mp standing with here | deeper
    · left
      by_contra absent
      exact markerAt_none (Option.not_isSome_iff_eq_none.mp absent) member here
    · exact .inr ⟨marker, member, deeper⟩
  · rintro (here | deeper)
    · obtain ⟨marker, found⟩ := Option.isSome_iff_exists.mp here
      exact ⟨marker, (markerAt_some found).1, (markerAt_some found).2.isInfix⟩
    · exact deeper.of_infix (suffix_cons unit rest).isInfix

theorem length_stripMarkersFrom (skip : Nat) (text : Utf16) :
    (stripMarkersFrom skip text).length ≤ text.length - skip := by
  fun_induction stripMarkersFrom skip text with
  | case1 => simp
  | case2 skip unit rest ih => simpa using ih
  | case3 unit rest marker found ih =>
    rw [length_cons]
    omega
  | case4 unit rest absent ih =>
    simp only [length_cons] at *
    omega

theorem length_stripMarkers_lt {text : Utf16} (has : HasMarker text) :
    (stripMarkers text).length < text.length := by
  induction text with
  | nil =>
    obtain ⟨marker, member, standing⟩ := has
    have solid : ∀ marker ∈ chatTemplateMarkers, marker ≠ [] := by decide
    exact absurd (infix_nil.mp standing) (solid marker member)
  | cons unit rest ih =>
    rw [stripMarkers, stripMarkersFrom]
    cases found : markerAt (unit :: rest) with
    | some marker =>
      have := length_stripMarkersFrom (marker.length - 1) rest
      simp only [length_cons]
      omega
    | none =>
      rw [hasMarker_cons, found] at has
      have := ih (by simpa using has)
      simpa [stripMarkers] using this

theorem stripMarkers_of_unmarked {text : Utf16} (unmarked : ¬ HasMarker text) : stripMarkers text = text := by
  induction text with
  | nil => rfl
  | cons unit rest ih =>
    rw [hasMarker_cons, not_or, Option.not_isSome_iff_eq_none] at unmarked
    rw [stripMarkers, stripMarkersFrom, unmarked.1]
    exact congrArg (unit :: ·) (ih unmarked.2)

theorem neutralizeUntrusted_of_harmless {text : Utf16} (harmless : Harmless text) :
    neutralizeUntrusted text = text := by
  have opening : agentReviewUntrustedBegin ∈ fences := mem_cons_self
  have closing : agentReviewUntrustedEnd ∈ fences := mem_cons_of_mem _ mem_cons_self
  rw [neutralizeUntrusted, stripMarkers_of_unmarked harmless.unmarked,
    replaceAll_of_absent (fence_ne_nil opening) (harmless.unfenced _ opening),
    replaceAll_of_absent (fence_ne_nil closing) (harmless.unfenced _ closing)]

theorem length_neutralizeUntrusted_le (text : Utf16) : (neutralizeUntrusted text).length ≤ text.length := by
  have opening : agentReviewUntrustedBegin ≠ [] := fence_ne_nil mem_cons_self
  have closing : agentReviewUntrustedEnd ≠ [] := fence_ne_nil (mem_cons_of_mem _ mem_cons_self)
  calc (neutralizeUntrusted text).length
    _ ≤ (replaceAll agentReviewUntrustedBegin [] (stripMarkers text)).length :=
      length_replaceAll_le [] closing (Nat.zero_le _) _
    _ ≤ (stripMarkers text).length := length_replaceAll_le [] opening (Nat.zero_le _) _
    _ ≤ text.length := length_stripMarkersFrom 0 text

theorem harmless_of_neutralizeUntrusted {text : Utf16} (settled : neutralizeUntrusted text = text) :
    Harmless text := by
  have opening : agentReviewUntrustedBegin ≠ [] := fence_ne_nil mem_cons_self
  have closing : agentReviewUntrustedEnd ≠ [] := fence_ne_nil (mem_cons_of_mem _ mem_cons_self)
  have first := length_stripMarkersFrom 0 text
  have second := length_replaceAll_le [] opening (Nat.zero_le _) (stripMarkers text)
  have third := length_replaceAll_le [] closing (Nat.zero_le _)
    (replaceAll agentReviewUntrustedBegin [] (stripMarkers text))
  have whole := congrArg List.length settled
  rw [neutralizeUntrusted] at whole
  have unmarked : ¬ HasMarker text := by
    intro has
    have := length_stripMarkers_lt has
    omega
  rw [stripMarkers_of_unmarked unmarked] at second third whole
  have unopened : ¬ agentReviewUntrustedBegin <:+: text := by
    intro inside
    have := length_replaceAll_lt [] opening (length_pos_of_ne_nil opening) inside
    omega
  rw [replaceAll_of_absent opening unopened] at third whole
  have unclosed : ¬ agentReviewUntrustedEnd <:+: text := by
    intro inside
    have := length_replaceAll_lt [] closing (length_pos_of_ne_nil closing) inside
    omega
  refine ⟨unmarked, fun fence member => ?_⟩
  rcases mem_cons.mp member with rfl | member
  · exact unopened
  · rw [mem_singleton.mp member]
    exact unclosed

theorem neutralizeUntrusted_eq_self {text : Utf16} : neutralizeUntrusted text = text ↔ Harmless text :=
  ⟨harmless_of_neutralizeUntrusted, neutralizeUntrusted_of_harmless⟩

end EverWorks.Review

/-!
## Fence lines in the lines of a brief

A line is cut at the pieces of the platform's own that no fence line can touch. What is left are the texts of
the input one by one, but for a file's path and its status, which a blank and a bracket hold together.
-/

namespace EverWorks.Review
open Lib Lib.Replace

def runsFrom (fence : Utf16) : Utf16 → Line → List Utf16
  | run, [] => [run]
  | run, .own text :: rest =>
    if touches fence text then runsFrom fence (run ++ text) rest else run :: runsFrom fence [] rest
  | run, .given text :: rest => runsFrom fence (run ++ text) rest

theorem exists_run (run : Utf16) {fence : Utf16} {line : Line} (inside : fence <:+: run ++ lineText line) :
    ∃ stretch ∈ runsFrom fence run line, fence <:+: stretch := by
  induction line generalizing run with
  | nil => exact ⟨run, List.mem_singleton_self _, by simpa [lineText] using inside⟩
  | cons piece rest ih =>
    have whole : run ++ lineText (piece :: rest) = run ++ piece.text ++ lineText rest := by
      simp [lineText, List.append_assoc]
    rw [whole] at inside
    cases piece with
    | given text => exact ih _ inside
    | own text =>
      rw [runsFrom]
      split
      · exact ih _ inside
      · rename_i apart
        rcases infix_around (not_overlaps_of_touches (Bool.eq_false_iff.mpr apart)) inside with front | back
        · exact ⟨run, List.mem_cons_self, front⟩
        · obtain ⟨stretch, member, standing⟩ := ih [] back
          exact ⟨stretch, List.mem_cons_of_mem _ member, standing⟩

def apartTexts : List String :=
  ["Task ", ": ", "Repository: ", "Pull request: #", "Head commit: ", "Call `",
    onceText, "Rolled-up verdict for this commit: ", ".", " / ", " file(s), +", "### ", " from ", ", +"]

def ownTexts : List String :=
  ["", agentReviewBriefOpeningLine, "## How to record your verdict", silenceText, recordText,
    "## Continuous integration", incompleteText, "No individual checks were reported.", "## Diff under review",
    dataText, "```diff", "```", "## Before you finish"]

def touchingTexts : List String := [" (", ")", "- ", " / -"]

section
variable {fence run : Utf16} {rest : Line} {text : String}

theorem touches_onceText (member : fence ∈ fences) : touches fence (ascii onceText) = false := by
  have written : ascii onceText = _ := (ascii_append _ _).trans (congrArg₂ (· ++ ·) (ascii_ofList _) (ascii_ofList _))
  have both : fences = [_, _] := congrArg₂ (fun opening closing => [opening, closing]) (ascii_ofList _) (ascii_ofList _)
  have table : ∀ fence ∈ fences, touches fence (ascii onceText) = false := by
    rw [written, both]
    decide +kernel
  exact table fence member

theorem touches_apart (member : fence ∈ fences) (listed : text ∈ apartTexts) :
    touches fence (ascii text) = false := by
  have others : ∀ fence ∈ fences, ∀ text ∈ apartTexts.take 6 ++ apartTexts.drop 7, touches fence (ascii text) = false := by
    decide +kernel
  have split : text ∈ apartTexts.take 6 ++ onceText :: apartTexts.drop 7 := listed
  rcases List.mem_append.mp split with front | rest
  · exact others fence member text (List.mem_append_left _ front)
  · rcases List.mem_cons.mp rest with rfl | back
    · exact touches_onceText member
    · exact others fence member text (List.mem_append_right _ back)

def LineFree (line : Line) : Prop := ∀ fence ∈ fences, ¬ fence <:+: lineText line

theorem ownTexts_missing (listed : text ∈ ownTexts) : 0x51 ∉ ascii text := by
  have table : ∀ text ∈ ownTexts, 0x51 ∉ ascii text := by
    simp only [ownTexts, List.forall_mem_cons]
    exact ⟨not_mem_ascii (by decide), not_mem_ascii (by decide), not_mem_ascii (by decide),
      not_mem_ascii_append (not_mem_ascii (by decide)) (not_mem_ascii (by decide)),
      not_mem_ascii_append (not_mem_ascii (by decide)) (not_mem_ascii (by decide)),
      not_mem_ascii (by decide),
      not_mem_ascii_append (not_mem_ascii (by decide)) (not_mem_ascii (by decide)),
      not_mem_ascii (by decide), not_mem_ascii (by decide),
      not_mem_ascii_append (not_mem_ascii_append (not_mem_ascii_append (not_mem_ascii (by decide))
        (not_mem_ascii (by decide))) (not_mem_ascii (by decide))) (not_mem_ascii (by decide)),
      not_mem_ascii (by decide), not_mem_ascii (by decide), not_mem_ascii (by decide), nofun⟩
  exact table text listed

theorem ownLine_free (listed : text ∈ ownTexts) : LineFree (ownLine text) := by
  have marked : ∀ fence ∈ fences, (0x51 : UInt16) ∈ fence := by decide
  intro fence member
  have whole : lineText (ownLine text) = ascii text := List.append_nil _
  rw [whole]
  exact fun inside => ownTexts_missing listed (inside.subset (marked fence member))

theorem touches_touching (member : fence ∈ fences) (listed : text ∈ touchingTexts) :
    touches fence (ascii text) = true := by
  have table : ∀ fence ∈ fences, ∀ text ∈ touchingTexts, touches fence (ascii text) = true := by decide
  exact table fence member text listed

theorem runs_apart (member : fence ∈ fences) (listed : text ∈ apartTexts) :
    runsFrom fence run (.lit text :: rest) = run :: runsFrom fence [] rest := by
  rw [Piece.lit, runsFrom, touches_apart member listed, if_neg Bool.false_ne_true]

theorem runs_touching (member : fence ∈ fences) (listed : text ∈ touchingTexts) :
    runsFrom fence run (.lit text :: rest) = runsFrom fence (run ++ ascii text) rest := by
  rw [Piece.lit, runsFrom, touches_touching member listed, if_pos rfl]

theorem runs_nil : runsFrom fence run [] = [run] := rfl

theorem runs_given (value : Utf16) :
    runsFrom fence run (.given value :: rest) = runsFrom fence (run ++ value) rest := rfl

theorem runs_untrusted (value : Utf16) :
    runsFrom fence run (.untrusted value :: rest) = runsFrom fence (run ++ neutralizeUntrusted value) rest := rfl

end

theorem not_infix_of_missing {fence run : Utf16} (member : fence ∈ fences) (missing : 0x52 ∉ run) :
    ¬ fence <:+: run := by
  have table : ∀ fence ∈ fences, (0x52 : UInt16) ∈ fence := by decide
  exact fun inside => missing (inside.subset (table fence member))

theorem NumberText.missing (numbers : NumberText) (number : JsNumber) : 0x52 ∉ numbers.text number := by
  intro inside
  have absent : (0x52 : UInt16) ∉ ascii "0123456789.e+-NaInfity" := by decide
  exact absent (numbers.plain number _ inside)

/-- A fence that starts in a number would have to have its first blank before a bracket. -/
theorem infix_after_number {numbers : NumberText} {number : JsNumber} {fence rest : Utf16}
    (member : fence ∈ fences) (inside : fence <:+: numbers.text number ++ (ascii " (" ++ rest)) :
    fence <:+: ascii " (" ++ rest := by
  rcases infix_append_cases inside with front | back | ⟨left, right, whole, nonempty, -, suffix, pre⟩
  · exact absurd front (not_infix_of_missing member (numbers.missing number))
  · exact back
  · have table : ∀ fence ∈ fences, ∀ k < fence.length, (0x20 : UInt16) ∈ fence.take (k + 1) ∨
        agree (fence.drop (k + 1)) (ascii " (") = false := by decide
    have count := congrArg List.length whole
    rw [List.length_append] at count
    have positive := List.length_pos_of_ne_nil nonempty
    have split := table fence member (left.length - 1) (by omega)
    rw [Nat.sub_add_cancel positive, whole, List.take_left, List.drop_left] at split
    rcases split with blank | apart
    · have absent : (0x20 : UInt16) ∉ ascii "0123456789.e+-NaInfity" := by decide
      exact absurd (numbers.plain number _ (suffix.subset blank)) absent
    · rw [agree_of_front _ pre (List.prefix_append _ _)] at apart
      cases apart

theorem infix_of_append_bracket {fence text : Utf16} (member : fence ∈ fences)
    (inside : fence <:+: text ++ ascii ")") : fence <:+: text := by
  rcases infix_append_cases inside with front | back | ⟨left, right, whole, -, nonempty, -, pre⟩
  · exact front
  · have short : ∀ fence ∈ fences, ¬ fence <:+: ascii ")" := by decide
    exact absurd back (short fence member)
  · have table : ∀ fence ∈ fences, ∀ k < fence.length, ¬ fence.drop k <+: ascii ")" := by decide
    have count := congrArg List.length whole
    rw [List.length_append] at count
    have positive := List.length_pos_of_ne_nil nonempty
    have absent := table fence member left.length (by omega)
    rw [whole, List.drop_left] at absent
    exact absurd pre absent

theorem infix_of_opening {fence text : Utf16} {opening : String} (member : fence ∈ fences)
    (listed : opening ∈ [" (", "- "]) (inside : fence <:+: ascii opening ++ text) : fence <:+: text := by
  have table : ∀ fence ∈ fences, ∀ opening ∈ [" (", "- "], ∃ a b, ascii opening = [a, b] ∧
      agree fence [a, b] = false ∧ agree fence [b] = false := by
    intro fence member opening listed
    have first : ∀ fence ∈ fences, ∀ opening ∈ [" (", "- "], agree fence (ascii opening) = false ∧
        agree fence ((ascii opening).drop 1) = false := by decide
    obtain ⟨apart, apart'⟩ := first fence member opening listed
    rcases List.mem_pair.mp listed with rfl | rfl
    · exact ⟨_, _, rfl, apart, apart'⟩
    · exact ⟨_, _, rfl, apart, apart'⟩
  obtain ⟨a, b, shape, apart, apart'⟩ := table fence member opening listed
  rw [shape] at inside
  rcases List.infix_cons_iff.mp inside with here | deeper
  · rw [agree_of_front _ here (List.prefix_append [a, b] text)] at apart
    cases apart
  · rcases List.infix_cons_iff.mp deeper with here | deeper
    · rw [agree_of_front _ here (List.prefix_append [b] text)] at apart'
      cases apart'
    · exact deeper

end EverWorks.Review
