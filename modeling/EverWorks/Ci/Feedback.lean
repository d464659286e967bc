import EverWorks.Lib.Nfkc
import EverWorks.Lib.Weave
import EverWorks.Review.Brief

/-!
What a provider reported goes between two tags, with every `<` of its normal form escaped. A row is taken for
one composed here when each `<` of its own normal form belongs to a tag and the tags pair up in order.
-/

namespace EverWorks.Ci
open Lib List

inductive ReviewFeedbackSource where
  | bot | ci
  deriving DecidableEq

def ReviewFeedbackSource.name : ReviewFeedbackSource → Utf16
  | bot => ascii "bot"
  | ci => ascii "ci"

def fenceOpen (source : ReviewFeedbackSource) : Utf16 :=
  ascii "<review_feedback source=\"" ++ source.name ++ ascii "\">"

def fenceClose : Utf16 := ascii "</review_feedback>"

section
variable (nfkc : Nfkc)

def neutralizeFenceText (value : Utf16) : Utf16 :=
  Replace.replaceAll (ascii "<") (ascii "&lt;") (nfkc.fold value)

def fenceReviewFeedback (text : Utf16) (source : ReviewFeedbackSource) : Utf16 :=
  fenceOpen source ++ ascii "\n" ++ neutralizeFenceText nfkc text ++ ascii "\n" ++ fenceClose

/-- The tags of a `ci` fence, as the scan for `<` meets them. -/
def ciTags : Tags UInt16 where
  mark := 0x3C
  opened := ascii "review_feedback source=\"ci\">"
  closed := ascii "/review_feedback>"
  opened_unmarked := by decide
  closed_unmarked := by decide

def isComposedCiFeedback (text : Utf16) : Bool :=
  let folded := nfkc.fold text
  if ¬ fenceOpen .ci <:+: folded then false else ciTags.alternate false folded

end

theorem fenceOpen_ci : fenceOpen .ci = ciTags.openTag := by decide

theorem fenceClose_eq : fenceClose = ciTags.closeTag := by decide

variable {nfkc : Nfkc}

variable {text : Utf16}

/-- A row is taken for a composed one where its normal form is woven of `ci` blocks, of one at least. -/
theorem isComposedCiFeedback_iff :
    isComposedCiFeedback nfkc text = true ↔
      ∃ weave : Weave UInt16, weave.Plain ciTags ∧ weave.inside ≠ [] ∧ weave.text ciTags = nfkc.fold text := by
  rw [isComposedCiFeedback, fenceOpen_ci]
  constructor
  · intro accepted
    split at accepted
    · cases accepted
    · rename_i standing
      obtain ⟨weave, plain, whole⟩ := Weave.alternate_iff.mp accepted
      rw [← whole, not_not, Weave.openTag_infix_iff plain] at standing
      exact ⟨weave, plain, standing, whole⟩
  · rintro ⟨weave, plain, blocks, whole⟩
    have standing : ciTags.openTag <:+: nfkc.fold text := whole ▸ (Weave.openTag_infix_iff plain).mpr blocks
    rw [if_neg (not_not.mpr standing), ← whole]
    exact Weave.alternate_text plain

structure Inert (nfkc : Nfkc) (text : Utf16) : Prop where
  normal : nfkc.Normal text
  unmarked : ciTags.mark ∉ text

theorem inert_nil : Inert nfkc [] := ⟨Nfkc.normal_nil, not_mem_nil⟩

def isPlain (text : Utf16) : Bool := text.all fun unit => unit < 0x80 && unit != 0x3C

@[simp] theorem isPlain_append (front back : Utf16) :
    isPlain (front ++ back) = (isPlain front && isPlain back) :=
  all_append

theorem inert_of_plain (plain : isPlain text = true) : Inert nfkc text := by
  simp only [isPlain, all_eq_true, Bool.and_eq_true, decide_eq_true_eq, bne_iff_ne] at plain
  have ascii : isAscii text = true := by
    rw [isAscii, all_eq_true]
    exact fun unit member => decide_eq_true (plain unit member).1
  exact ⟨nfkc.fold_ascii text ascii, fun member => (plain _ member).2 rfl⟩

theorem Inert.part {text part : Utf16} (inert : Inert nfkc text) (inside : part <:+: text) : Inert nfkc part :=
  ⟨inert.normal.part inside, fun member => inert.unmarked (inside.subset member)⟩

theorem mark_standing : ascii "<" <:+: text ↔ ciTags.mark ∈ text := by
  have single : ascii "<" = [ciTags.mark] := by decide
  rw [single, singleton_infix_iff]

theorem seam_escape : nfkc.Seam (ascii "&lt;") where
  normal := nfkc.fold_ascii _ (by decide)
  starts := by decide
  ends := by decide

theorem inert_neutralizeFenceText (value : Utf16) : Inert nfkc (neutralizeFenceText nfkc value) where
  normal := (Nfkc.normal_fold value).replaceAll (by decide) seam_escape
  unmarked member := by
    have apart : ¬ Replace.Overlaps (ascii "<") (ascii "&lt;") := Replace.not_overlaps_of_touches (by decide)
    exact Replace.not_infix_replaceAll (by decide) apart (mark_standing.mpr member)

theorem Inert.neutralizeFenceText (inert : Inert nfkc text) :
    Ci.neutralizeFenceText nfkc text = text := by
  have absent : ¬ ascii "<" <:+: text := fun standing => inert.unmarked (mark_standing.mp standing)
  rw [Ci.neutralizeFenceText, inert.normal, Replace.replaceAll_of_absent (by decide) absent]

end EverWorks.Ci

/-!
## The feedback of a red gate

The text a resumed run reads about a failed check. The check's name, its title and its summary stand in fences of
their own; the rest is the platform speaking, with the repository, the commit, the conclusion and the link.
-/

namespace EverWorks.Ci
open Lib

def ciFailureFeedbackMaxChars : Nat := 4000
def ciFeedbackUrlMaxChars : Nat := 500
def ciFeedbackNameMaxChars : Nat := 200
def ciFeedbackTitleMaxChars : Nat := 300

structure CiFailureInput where
  repoFullName : Utf16
  headSha : Utf16
  checkName : Utf16
  conclusion : Utf16
  prNumber : Option JsNumber := none
  url : Option Utf16 := none
  outputTitle : Option Utf16 := none
  outputSummary : Option Utf16 := none

structure ParsedUrl where
  protocol : Utf16
  username : Utf16
  password : Utf16
  href : Utf16

/-- `new URL(value)`. A URL of a web scheme is printable ASCII, with `<` percent-encoded wherever it may stand. -/
structure UrlParser where
  parse : Utf16 → Option ParsedUrl
  encoded : ∀ value url, parse value = some url → url.protocol = ascii "https:" →
    isPlain url.href = true

structure NumberText extends Review.NumberText where
  short : ∀ number, (text number).length ≤ 25

/-- What the language does with strings, links and numbers. -/
structure Language where
  nfkc : Nfkc
  urls : UrlParser
  numbers : NumberText

def isGiven : JsNumber → Bool
  | .nan => false
  | .infinite _ => true
  | .finite value => value ≠ 0

/-- `join('\n')`. -/
def joinLines (lines : List Utf16) : Utf16 := (ascii "\n").intercalate lines

section
variable (language : Language)

def httpsLink (value : Option Utf16) : Option Utf16 :=
  match value with
  | none => none
  | some value =>
    if Utf16.trim value = [] then none
    else
      match language.urls.parse (Utf16.trim value) with
      | none => none
      | some url =>
        if url.protocol ≠ ascii "https:" ∨ url.username ≠ [] ∨ url.password ≠ [] then none
        else if url.href.length ≤ ciFeedbackUrlMaxChars then some url.href else none

def oneLine (value : Utf16) (max : Nat) : Utf16 :=
  let flat := Utf16.trim (Utf16.spaced false (neutralizeFenceText language.nfkc value))
  if max < flat.length then flat.take (max - 3) ++ ascii "..." else flat

def redLine (input : CiFailureInput) : Utf16 :=
  ascii "Continuous integration is RED for " ++ oneLine language input.repoFullName 200 ++ ascii " at commit " ++
    oneLine language input.headSha 64 ++ ascii "."

def checkLine (input : CiFailureInput) : Utf16 :=
  ascii "Failing check (" ++ oneLine language input.conclusion 40 ++
    ascii ") — its name as the CI provider reported it:"

def pullRequestLines (prNumber : Option JsNumber) : List Utf16 :=
  match prNumber with
  | some number =>
    if isGiven number then [ascii "Pull request: #" ++ language.numbers.text number ++ ascii "."] else []
  | none => []

def detailsLines (url : Option Utf16) : List Utf16 :=
  match Review.shown (httpsLink language url) with
  | some details => [ascii "Details: " ++ details]
  | none => []

def linkLines (input : CiFailureInput) : List Utf16 :=
  pullRequestLines language input.prNumber ++ detailsLines language input.url

def feedbackHead (input : CiFailureInput) : List Utf16 :=
  [redLine language input, [], checkLine language input,
    fenceReviewFeedback language.nfkc (oneLine language input.checkName ciFeedbackNameMaxChars) .ci] ++
  linkLines language input ++
  match Review.shown input.outputTitle with
  | some title =>
    [[], ascii "Reported title:",
      fenceReviewFeedback language.nfkc (oneLine language title ciFeedbackTitleMaxChars) .ci]
  | none => []

def closingGuidance : Utf16 :=
  ascii "Other checks on this commit may also be failing — this is the first red result reported for it, not a " ++
    ascii "full list. Read the pull request checks, fix the cause, and push to the same branch. Do not disable, " ++
    ascii "skip or weaken a check to make it pass."

def feedbackTail : List Utf16 := [[], closingGuidance]

def outputLabel : List Utf16 := [[], ascii "Reported output:"]

def summaryRoom (input : CiFailureInput) : Int :=
  let fixed := joinLines (feedbackHead language input ++ outputLabel ++
    [fenceReviewFeedback language.nfkc [] .ci] ++ feedbackTail)
  (ciFailureFeedbackMaxChars : Int) - fixed.length

def cutToRoom (room : Int) (escaped : Utf16) : Utf16 :=
  if room < escaped.length then if 3 < room then escaped.take (room - 3).toNat ++ ascii "..." else []
  else escaped

def shownSummary (input : CiFailureInput) : Option Utf16 :=
  match Review.shown input.outputSummary with
  | none => none
  | some summary =>
    let escaped :=
      cutToRoom (summaryRoom language input) (neutralizeFenceText language.nfkc (Utf16.trim summary))
    if 0 < escaped.length then some escaped else none

def composeCiFailureFeedback (input : CiFailureInput) : Utf16 :=
  let head := feedbackHead language input
  let head :=
    match shownSummary language input with
    | some escaped => head ++ outputLabel ++ [fenceReviewFeedback language.nfkc escaped .ci]
    | none => head
  joinLines (head ++ feedbackTail)

end

end EverWorks.Ci
