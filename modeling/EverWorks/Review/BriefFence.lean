import EverWorks.Review.BriefLines

/-!
A brief keeps its fence exactly where every text of the input is harmless once neutralised, the head commit
and the tool's name as they come, and no file's path and status make a fence line together.
-/

namespace EverWorks.Review
open Lib Lib.Replace List

variable {numbers : NumberText} {input : ComposeAgentReviewBriefInput}

/-- Each fence line stands once, with every path and patch in between, and nothing that came from the input has
a chat-template marker. -/
structure Fenced (numbers : NumberText) (input : ComposeAgentReviewBriefInput) (brief : Utf16) : Prop where
  fenced : ∃ front middle back,
    brief = front ++ agentReviewUntrustedBegin ++ middle ++ agentReviewUntrustedEnd ++ back ∧
      (∀ before after, brief = before ++ agentReviewUntrustedBegin ++ after → before = front) ∧
      (∀ before after, brief = before ++ agentReviewUntrustedEnd ++ after →
        before = front ++ agentReviewUntrustedBegin ++ middle) ∧
      ∀ file ∈ input.diff.files, neutralizeUntrusted file.path <:+: middle ∧
        (∀ previous, shown file.previousPath = some previous → neutralizeUntrusted previous <:+: middle) ∧
        neutralizeUntrusted (file.patch.getD []) <:+: middle
  unmarked : ∀ line ∈ briefLines numbers input, ∀ text, .given text ∈ line → ¬ HasMarker text

def untrustedValues (input : ComposeAgentReviewBriefInput) : List Utf16 :=
  [input.taskSlug, input.taskTitle, input.repoFullName, input.ciState] ++ (shown input.prUrl).toList ++
    input.checks.flatMap (fun check => [check.name, check.status] ++ (shown check.conclusion).toList) ++
    input.diff.files.flatMap fun file =>
      [file.path, file.status, file.patch.getD []] ++ (shown file.previousPath).toList

def pathAndStatus (file : GitDiffFile) : Utf16 :=
  neutralizeUntrusted file.path ++ ascii " (" ++ neutralizeUntrusted file.status

/-- An input whose texts stay in their place. -/
structure Contained (input : ComposeAgentReviewBriefInput) : Prop where
  headSha : Harmless input.headSha
  verdictToolName : Harmless input.verdictToolName
  settled : ∀ value ∈ untrustedValues input,
    neutralizeUntrusted (neutralizeUntrusted value) = neutralizeUntrusted value
  headers : ∀ file ∈ input.diff.files, ∀ fence ∈ fences, ¬ fence <:+: pathAndStatus file

variable {value : Utf16}

theorem mem_untrusted_check {check : AgentReviewCheckLine} (listed : check ∈ input.checks)
    (member : value ∈ [check.name, check.status] ++ (shown check.conclusion).toList) :
    value ∈ untrustedValues input :=
  mem_append_left _ (mem_append_right _ (mem_flatMap.mpr ⟨check, listed, member⟩))

theorem mem_untrusted_file {file : GitDiffFile} (listed : file ∈ input.diff.files)
    (member : value ∈ [file.path, file.status, file.patch.getD []] ++ (shown file.previousPath).toList) :
    value ∈ untrustedValues input :=
  mem_append_right _ (mem_flatMap.mpr ⟨file, listed, member⟩)

theorem mem_untrusted_url {url : Utf16} (given : shown input.prUrl = some url) : url ∈ untrustedValues input := by
  simp [untrustedValues, given]

theorem Contained.harmless (contained : Contained input) (member : value ∈ untrustedValues input) :
    Harmless (neutralizeUntrusted value) :=
  neutralizeUntrusted_eq_self.mp (contained.settled value member)

theorem not_infix_nil {fence : Utf16} (member : fence ∈ fences) : ¬ fence <:+: [] :=
  fun inside => fence_ne_nil member (infix_nil.mp inside)

theorem lineFree_of_runs {line : Line}
    (free : ∀ fence ∈ fences, ∀ run ∈ runsFrom fence [] line, ¬ fence <:+: run) : LineFree line := by
  intro fence member inside
  obtain ⟨run, listed, standing⟩ := exists_run [] (nil_append _ ▸ inside : fence <:+: [] ++ lineText line)
  exact free fence member run listed standing

section
variable (contained : Contained input)
include contained

theorem taskLine_free : LineFree (taskLine input) := by
  refine lineFree_of_runs fun fence member => ?_
  have slug : Harmless (neutralizeUntrusted input.taskSlug) :=
    contained.harmless (by simp [untrustedValues])
  have title : Harmless (neutralizeUntrusted input.taskTitle) :=
    contained.harmless (by simp [untrustedValues])
  simp (disch := decide) only [taskLine, runs_apart member, runs_untrusted, runs_nil, nil_append, forall_mem_cons]
  exact ⟨not_infix_nil member, slug.unfenced fence member, title.unfenced fence member, nofun⟩

theorem repositoryLine_free : LineFree (repositoryLine input) := by
  refine lineFree_of_runs fun fence member => ?_
  have repo : Harmless (neutralizeUntrusted input.repoFullName) :=
    contained.harmless (by simp [untrustedValues])
  simp (disch := decide) only [repositoryLine, runs_apart member, runs_untrusted, runs_nil, nil_append, forall_mem_cons]
  exact ⟨not_infix_nil member, repo.unfenced fence member, nofun⟩

theorem headCommitLine_free : LineFree (headCommitLine input) := by
  refine lineFree_of_runs fun fence member => ?_
  simp (disch := decide) only [headCommitLine, runs_apart member, runs_given, runs_nil, nil_append, forall_mem_cons]
  exact ⟨not_infix_nil member, contained.headSha.unfenced fence member, nofun⟩

theorem verdictLine_free : LineFree (verdictLine input) := by
  refine lineFree_of_runs fun fence member => ?_
  have state : Harmless (neutralizeUntrusted input.ciState) :=
    contained.harmless (by simp [untrustedValues])
  simp (disch := decide) only [verdictLine, runs_apart member, runs_untrusted, runs_nil, nil_append, forall_mem_cons]
  exact ⟨not_infix_nil member, state.unfenced fence member, not_infix_nil member, nofun⟩

theorem pullRequestLine_free : LineFree (pullRequestLine numbers input) := by
  refine lineFree_of_runs fun fence member => ?_
  rw [pullRequestLine]
  cases known : shown input.prUrl with
  | none =>
    simp (disch := decide) only [append_nil, runs_apart member, runs_given, runs_nil, nil_append,
      forall_mem_cons]
    exact ⟨not_infix_nil member, not_infix_of_missing member (numbers.missing _), nofun⟩
  | some url =>
    simp (disch := decide) only [cons_append, nil_append, runs_apart member, runs_touching member,
      runs_given, runs_untrusted, runs_nil, forall_mem_cons]
    refine ⟨not_infix_nil member, fun inside => ?_, nofun⟩
    have unclosed := infix_of_append_bracket member inside
    rw [append_assoc] at unclosed
    have unopened := infix_of_opening member (by decide) (infix_after_number member unclosed)
    exact (contained.harmless (mem_untrusted_url known)).unfenced fence member unopened

theorem checkLine_free {check : AgentReviewCheckLine} (listed : check ∈ input.checks) :
    LineFree (checkLine check) := by
  refine lineFree_of_runs fun fence member => ?_
  have free {value : Utf16} (inside : value ∈ [check.name, check.status] ++ (shown check.conclusion).toList) :=
    (contained.harmless (mem_untrusted_check listed inside)).unfenced fence member
  have name : ¬ fence <:+: ascii "- " ++ neutralizeUntrusted check.name :=
    fun inside => free (by simp) (infix_of_opening member (by decide) inside)
  rw [checkLine]
  cases known : shown check.conclusion with
  | none =>
    simp (disch := decide) only [append_nil, nil_append, runs_apart member, runs_touching member,
      runs_untrusted, runs_nil, forall_mem_cons]
    exact ⟨name, free (by simp), nofun⟩
  | some conclusion =>
    simp (disch := decide) only [cons_append, nil_append, runs_apart member, runs_touching member,
      runs_untrusted, runs_nil, forall_mem_cons]
    exact ⟨name, free (by simp), free (by simp [known]), nofun⟩

theorem fileHeaderLine_free {file : GitDiffFile} (listed : file ∈ input.diff.files) :
    LineFree (fileHeaderLine numbers file) := by
  refine lineFree_of_runs fun fence member => ?_
  have header := contained.headers file listed fence member
  have counts : ¬ fence <:+: numbers.text file.additions ++ ascii " / -" ++ numbers.text file.deletions ++
      ascii ")" := by
    apply not_infix_of_missing member
    have dash : (0x52 : UInt16) ∉ ascii " / -" := by decide
    have bracket : (0x52 : UInt16) ∉ ascii ")" := by decide
    simp [numbers.missing, dash, bracket]
  rw [fileHeaderLine]
  cases known : shown file.previousPath with
  | none =>
    simp (disch := decide) only [cons_append, append_nil, nil_append, runs_apart member,
      runs_touching member, runs_given, runs_untrusted, runs_nil, forall_mem_cons]
    exact ⟨not_infix_nil member, header, counts, nofun⟩
  | some previous =>
    have old : Harmless (neutralizeUntrusted previous) :=
      contained.harmless (mem_untrusted_file listed (by simp [known]))
    simp (disch := decide) only [cons_append, nil_append, runs_apart member,
      runs_touching member, runs_given, runs_untrusted, runs_nil, forall_mem_cons]
    exact ⟨not_infix_nil member, header, old.unfenced fence member, counts, nofun⟩

end

theorem totalsLine_free (diff : GitDiffResult) : LineFree (totalsLine numbers diff) := by
  refine lineFree_of_runs fun fence member => ?_
  have dash : (0x52 : UInt16) ∉ ascii " / -" := by decide
  simp (disch := decide) only [totalsLine, nil_append, runs_apart member, runs_touching member, runs_given, runs_nil,
    forall_mem_cons]
  exact ⟨not_infix_of_missing member (numbers.missing _),
    not_infix_of_missing member (by simp [numbers.missing, dash]), not_infix_nil member, nofun⟩

theorem toolLine_free {tool : Utf16} (harmless : Harmless tool) {line : Line}
    (listed : line ∈ instructionLines tool) : LineFree line := by
  simp only [instructionLines, mem_cons, not_mem_nil, or_false] at listed
  rcases listed with rfl | rfl | rfl
  · refine lineFree_of_runs fun fence member => ?_
    rw [runs_apart member (by simp [apartTexts]), runs_given, runs_apart member (by simp [apartTexts]), runs_nil,
      nil_append]
    simp only [forall_mem_cons]
    exact ⟨not_infix_nil member, harmless.unfenced fence member, not_infix_nil member, nofun⟩
  · exact ownLine_free (by simp [ownTexts])
  · exact ownLine_free (by simp [ownTexts])

def otherLines (numbers : NumberText) (input : ComposeAgentReviewBriefInput) : List Line :=
  headLines numbers input ++ input.diff.files.flatMap (fileLines numbers) ++ tailLines input

theorem forall_checkLines {checks : List AgentReviewCheckLine} {p : Line → Prop} :
    (∀ line ∈ checkLines checks, p line) ↔
      (checks = [] → p (ownLine "No individual checks were reported.")) ∧ ∀ check ∈ checks, p (checkLine check) := by
  cases checks <;> simp [checkLines]

theorem forall_headLines {p : Line → Prop} :
    (∀ line ∈ headLines numbers input, p line) ↔
      (p (ownLine agentReviewBriefOpeningLine) ∧ p (ownLine "") ∧ p (ownLine "## How to record your verdict") ∧
        p (ownLine "## Continuous integration") ∧ p (ownLine "## Diff under review") ∧ p (ownLine dataText)) ∧
      (p (taskLine input) ∧ p (repositoryLine input) ∧ p (pullRequestLine numbers input) ∧
        p (headCommitLine input) ∧ p (verdictLine input) ∧ p (totalsLine numbers input.diff)) ∧
      (∀ line ∈ instructionLines input.verdictToolName, p line) ∧
      (input.checksComplete = some false → p (ownLine incompleteText)) ∧
      (input.checks = [] → p (ownLine "No individual checks were reported.")) ∧
      ∀ check ∈ input.checks, p (checkLine check) := by
  have incomplete : (∀ line ∈ if input.checksComplete = some false then [ownLine incompleteText] else [],
      p line) ↔ (input.checksComplete = some false → p (ownLine incompleteText)) := by
    split <;> simp [*]
  simp only [headLines, forall_mem_append, forall_mem_cons, forall_checkLines, incomplete,
    not_mem_nil, false_implies, implies_true, and_true]
  constructor
  · rintro ⟨⟨⟨⟨⟨⟨opening, blank, task, repository, request, commit, -, record⟩, instructions⟩, -, integration,
      verdict⟩, incomplete⟩, none, checks⟩, -, diff, totals, data⟩
    exact ⟨⟨opening, blank, record, integration, diff, data⟩,
      ⟨task, repository, request, commit, verdict, totals⟩, instructions, incomplete, none, checks⟩
  · rintro ⟨⟨opening, blank, record, integration, diff, data⟩,
      ⟨task, repository, request, commit, verdict, totals⟩, instructions, incomplete, none, checks⟩
    exact ⟨⟨⟨⟨⟨⟨opening, blank, task, repository, request, commit, blank, record⟩, instructions⟩, blank, integration,
      verdict⟩, incomplete⟩, none, checks⟩, blank, diff, totals, data⟩

theorem otherLines_free (contained : Contained input) : ∀ line ∈ otherLines numbers input, LineFree line := by
  have own {text : String} (listed : text ∈ ownTexts) : LineFree (ownLine text) := ownLine_free listed
  have blank : LineFree (ownLine "") := own (by simp [ownTexts])
  have instructions : ∀ line ∈ instructionLines input.verdictToolName, LineFree line :=
    fun line listed => toolLine_free contained.verdictToolName listed
  have head : ∀ line ∈ headLines numbers input, LineFree line :=
    forall_headLines.mpr ⟨⟨own (by simp [ownTexts]), blank, own (by simp [ownTexts]), own (by simp [ownTexts]),
        own (by simp [ownTexts]), own (by simp [ownTexts])⟩,
      ⟨taskLine_free contained, repositoryLine_free contained, pullRequestLine_free contained,
        headCommitLine_free contained, verdictLine_free contained, totalsLine_free input.diff⟩,
      instructions, fun _ => own (by simp [ownTexts]), fun _ => own (by simp [ownTexts]),
      fun check listed => checkLine_free contained listed⟩
  have files : ∀ line ∈ input.diff.files.flatMap (fileLines numbers), LineFree line := by
    intro line listed
    obtain ⟨file, inside, listed⟩ := mem_flatMap.mp listed
    simp only [fileLines, mem_cons, not_mem_nil, or_false] at listed
    rcases listed with rfl | rfl | rfl | rfl | rfl
    · exact fileHeaderLine_free contained inside
    · exact own (by simp [ownTexts])
    · have patch : Harmless (neutralizeUntrusted (file.patch.getD [])) :=
        contained.harmless (mem_untrusted_file inside (by simp))
      intro fence member
      have whole : lineText [.untrusted (file.patch.getD [])] = neutralizeUntrusted (file.patch.getD []) :=
        append_nil _
      rw [whole]
      exact patch.unfenced fence member
    · exact own (by simp [ownTexts])
    · exact blank
  have tail : ∀ line ∈ tailLines input, LineFree line := by
    intro line listed
    rw [tailLines, mem_append] at listed
    rcases listed with fixed | listed
    · rcases mem_pair.mp fixed with rfl | rfl
      · exact blank
      · exact own (by simp [ownTexts])
    · exact instructions line listed
  intro line listed
  rw [otherLines, mem_append, mem_append] at listed
  rcases listed with (listed | listed) | listed
  · exact head line listed
  · exact files line listed
  · exact tail line listed

theorem number_unmarked (number : JsNumber) : ¬ HasMarker (numbers.text number) := by
  rintro ⟨marker, member, standing⟩
  have heads : ∀ marker ∈ chatTemplateMarkers, ∃ unit ∈ marker, unit = 0x5B ∨ unit = 0x3C := by decide
  obtain ⟨unit, inside, head⟩ := heads marker member
  obtain ⟨digit, written, rfl⟩ := mem_map.mp (standing.subset inside)
  have table : (ascii "0123456789.e+-NaInfity").all
      (fun digit => ¬ (lowerUnit digit = 0x5B ∨ lowerUnit digit = 0x3C)) := by decide
  simp only [all_eq_true, decide_eq_true_eq] at table
  exact table digit (numbers.plain number digit written) head

def LineUnmarked (line : Line) : Prop := ∀ text, .given text ∈ line → ¬ HasMarker text

theorem ownLine_unmarked (text : String) : LineUnmarked (ownLine text) := by
  simp [LineUnmarked, ownLine, Piece.lit]

theorem briefLines_unmarked (contained : Contained input) :
    ∀ line ∈ briefLines numbers input, LineUnmarked line := by
  have own := ownLine_unmarked
  have untrusted {value : Utf16} (member : value ∈ untrustedValues input) :
      ¬ HasMarker (neutralizeUntrusted value) := (contained.harmless member).unmarked
  have instructions : ∀ line ∈ instructionLines input.verdictToolName, LineUnmarked line := by
    simp only [instructionLines, forall_mem_cons]
    refine ⟨?_, own _, own _, nofun⟩
    simpa [LineUnmarked, Piece.lit] using contained.verdictToolName.unmarked
  have head : ∀ line ∈ headLines numbers input, LineUnmarked line := by
    refine forall_headLines.mpr ⟨⟨own _, own _, own _, own _, own _, own _⟩, ⟨?_, ?_, ?_, ?_, ?_, ?_⟩, instructions,
      fun _ => own _, fun _ => own _, fun check listed => ?_⟩
    · simpa [LineUnmarked, taskLine, Piece.lit, Piece.untrusted] using
        ⟨untrusted (by simp [untrustedValues]), untrusted (by simp [untrustedValues])⟩
    · simpa [LineUnmarked, repositoryLine, Piece.lit, Piece.untrusted] using
        untrusted (by simp [untrustedValues])
    · cases known : shown input.prUrl with
      | none => simpa [LineUnmarked, pullRequestLine, known, Piece.lit] using number_unmarked _
      | some url =>
        simpa [LineUnmarked, pullRequestLine, known, Piece.lit, Piece.untrusted] using
          ⟨number_unmarked _, untrusted (mem_untrusted_url known)⟩
    · simpa [LineUnmarked, headCommitLine, Piece.lit] using contained.headSha.unmarked
    · simpa [LineUnmarked, verdictLine, Piece.lit, Piece.untrusted] using untrusted (by simp [untrustedValues])
    · simpa [LineUnmarked, totalsLine, Piece.lit] using
        ⟨number_unmarked _, number_unmarked _, number_unmarked _⟩
    · have name : ¬ HasMarker (neutralizeUntrusted check.name) :=
        untrusted (mem_untrusted_check listed (by simp))
      have status : ¬ HasMarker (neutralizeUntrusted check.status) :=
        untrusted (mem_untrusted_check listed (by simp))
      cases known : shown check.conclusion with
      | none => simpa [LineUnmarked, checkLine, known, Piece.lit, Piece.untrusted] using ⟨name, status⟩
      | some conclusion =>
        have conclusion : ¬ HasMarker (neutralizeUntrusted conclusion) :=
          untrusted (mem_untrusted_check listed (by simp [known]))
        simpa [LineUnmarked, checkLine, known, Piece.lit, Piece.untrusted] using ⟨name, status, conclusion⟩
  have files : ∀ line ∈ input.diff.files.flatMap (fileLines numbers), LineUnmarked line := by
    intro line listed
    obtain ⟨file, inside, listed⟩ := mem_flatMap.mp listed
    have path : ¬ HasMarker (neutralizeUntrusted file.path) :=
      untrusted (mem_untrusted_file inside (by simp))
    have status : ¬ HasMarker (neutralizeUntrusted file.status) :=
      untrusted (mem_untrusted_file inside (by simp))
    have patch : ¬ HasMarker (neutralizeUntrusted (file.patch.getD [])) :=
      untrusted (mem_untrusted_file inside (by simp))
    simp only [fileLines, mem_cons, not_mem_nil, or_false] at listed
    rcases listed with rfl | rfl | rfl | rfl | rfl
    · cases known : shown file.previousPath with
      | none =>
        simpa [LineUnmarked, fileHeaderLine, known, Piece.lit, Piece.untrusted] using
          ⟨path, status, number_unmarked _, number_unmarked _⟩
      | some previous =>
        have previous : ¬ HasMarker (neutralizeUntrusted previous) :=
          untrusted (mem_untrusted_file inside (by simp [known]))
        simpa [LineUnmarked, fileHeaderLine, known, Piece.lit, Piece.untrusted] using
          ⟨path, status, previous, number_unmarked _, number_unmarked _⟩
    · exact own _
    · simpa [LineUnmarked, Piece.untrusted] using patch
    · exact own _
    · exact own _
  have tail : ∀ line ∈ tailLines input, LineUnmarked line := by
    rw [tailLines, forall_mem_append]
    refine ⟨fun line listed => ?_, instructions⟩
    rcases mem_pair.mp listed with rfl | rfl <;> exact own _
  have fence (text : Utf16) : LineUnmarked [.own text] := by simp [LineUnmarked]
  intro line listed
  simp only [briefLines, mem_append, mem_singleton] at listed
  rcases listed with (((listed | rfl) | listed) | rfl) | listed
  · exact head line listed
  · exact fence _
  · exact files line listed
  · exact fence _
  · exact tail line listed

end EverWorks.Review
