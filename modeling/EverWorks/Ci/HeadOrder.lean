import EverWorks.Ci.HeadCommit
import EverWorks.Lib.Run

/-!
The commits of a pull request in the order in which they were pushed, and deliveries about them in any order. When
the head on record never goes back, over every sequence of deliveries.
-/

namespace EverWorks.Ci
open Lib Option JsString List

variable (case : JsString.LowerCase) (trusted : List String) (pushes : List String)

def pushedAt (headSha : String) : Nat := pushes.idxOf (commitId case (some headSha))

def onRecord (task : CiTask) : Option Nat :=
  if commitId case task.ciHeadSha ∈ pushes then some (pushes.idxOf (commitId case task.ciHeadSha)) else none

/-- A delivery from a trusted app that leads to the task and is about one of the pushes. -/
structure Genuine (delivery : CheckDelivery) : Prop where
  trusted : isTrustedCheckApp case delivery.input.appSlug trusted = true
  resolved : delivery.resolution.isSome = true
  pushed : commitId case (some delivery.input.headSha) ∈ pushes

def branchOnly (delivery : CheckDelivery) : Bool :=
  delivery.resolution.any (·.via = .branch) && delivery.input.prNumbers.isEmpty

def pointer (task : CiTask) (delivery : CheckDelivery) : Option String :=
  if branchOnly delivery then none
  else prHeadFor delivery.input ((delivery.resolution.bind (·.prNumber)).or task.prNumber)

/-- What a delivery shows of its own commit being out of date: it found the task by branch alone, the pull request was
at another commit when it was sent, or there is no pointer and its time is not after the head's. -/
def Outdated (task : CiTask) (delivery : CheckDelivery) : Prop :=
  branchOnly delivery = true ∨
    if commitId case (pointer task delivery) ≠ "" then
      commitId case (pointer task delivery) ≠ commitId case (some delivery.input.headSha)
    else ∀ reportedAt, delivery.input.observedAt = some reportedAt →
      ∃ seenAt, task.ciHeadSeenAt = some seenAt ∧ reportedAt ≤ seenAt

def Forward (task : CiTask) (delivery : CheckDelivery) : Prop :=
  ∀ head, onRecord case pushes task = some head →
    (∀ next, onRecord case pushes (handled case trusted task delivery) = some next → head ≤ next) ∧
    ∀ headSha, (handleCheckResult case trusted task delivery).next = .ok headSha → head ≤ pushedAt case pushes headSha

/-- A delivery about a commit pushed before the one on record shows that it is out of date. -/
def OldShowsIt (task : CiTask) (delivery : CheckDelivery) : Prop :=
  ∀ head, onRecord case pushes task = some head → pushedAt case pushes delivery.input.headSha < head →
    Outdated case task delivery

/-- Once a commit is on record, no later delivery records one that was pushed before it, or asks for a resume on
one. -/
def NeverBackwards (task : CiTask) (deliveries : List CheckDelivery) : Prop :=
  ∀ first second delivery rest, deliveries = first ++ second ++ delivery :: rest →
    ∀ head, onRecord case pushes (run (handled case trusted) task first) = some head →
      (∀ next, onRecord case pushes
        (handled case trusted (run (handled case trusted) task (first ++ second)) delivery) = some next →
          head ≤ next) ∧
      ∀ headSha, (handleCheckResult case trusted (run (handled case trusted) task (first ++ second)) delivery).next =
        .ok headSha → head ≤ pushedAt case pushes headSha

section
variable {case trusted pushes} {task : CiTask} {delivery : CheckDelivery}

theorem commitId_empty {text : String} (blank : trim text = "") : commitId case (some text) = "" := by
  have lowered := case.lower_ascii "" (by simp)
  rw [commitId, getD_some, blank]
  exact String.toList_injective (by simpa using lowered)

def otherDecision (case : JsString.LowerCase) (task : CiTask) (delivery : CheckDelivery) : CiHeadDecision :=
  decideCiHead case task
    { headSha := trim delivery.input.headSha
      prHeadSha := pointer task delivery
      reportedAt := delivery.input.observedAt
      branchOnly := branchOnly delivery }

theorem otherDecision_eq (recorded : commitId case task.ciHeadSha ≠ "")
    (other : commitId case task.ciHeadSha ≠ commitId case (some delivery.input.headSha)) :
    (Outdated case task delivery → otherDecision case task delivery = .stale) ∧
      (¬ Outdated case task delivery → otherDecision case task delivery = .advanced) := by
  rw [otherDecision, decideCiHead, Outdated]
  simp only [commitId_trim, if_neg recorded, if_neg other]
  by_cases alone : branchOnly delivery = true
  · simp [alone]
  · by_cases pointed : commitId case (pointer task delivery) = ""
    · cases delivery.input.observedAt with
      | none => simp [alone, pointed]
      | some reportedAt =>
        cases task.ciHeadSeenAt with
        | none => simp [alone, pointed]
        | some seenAt =>
          by_cases later : seenAt < reportedAt
          · simp [alone, pointed, later]
          · simp [alone, pointed, later, Int.not_lt.mp later]
    · by_cases own : commitId case (pointer task delivery) = commitId case (some delivery.input.headSha)
      · have nonempty : commitId case (some delivery.input.headSha) ≠ "" := own ▸ pointed
        simp [alone, nonempty, own]
      · simp [alone, pointed, own]

theorem handleCheckResult_genuine (genuine : Genuine case trusted pushes delivery) (solid : "" ∉ pushes)
    (known : branchOnly delivery = false ∨ isKnownTaskCommit case task (trim delivery.input.headSha) = true) :
    let decision := otherDecision case task delivery
    let failing := delivery.input.verdict = .failing && !delivery.notAFailure
    handleCheckResult case trusted task delivery =
      { record :=
          if decision = .stale then none
          else recordHead task (trim delivery.input.headSha)
            (delivery.input.observedAt.getD delivery.now) failing decision
        next :=
          if !failing then .error .notAFailure
          else if decision = .stale then .error .staleHead
          else .ok (trim delivery.input.headSha) } := by
  have nonempty : trim delivery.input.headSha ≠ "" := by
    intro blank
    have pushed := genuine.pushed
    rw [commitId_empty blank] at pushed
    exact solid pushed
  obtain ⟨resolution, resolved⟩ := isSome_iff_exists.mp genuine.resolved
  have alone : branchOnly delivery = (resolution.via = .branch && delivery.input.prNumbers.isEmpty) := by
    simp [branchOnly, resolved]
  have admitted : ¬ (((resolution.via = .branch && delivery.input.prNumbers.isEmpty) &&
      !isKnownTaskCommit case task (trim delivery.input.headSha)) = true) := by
    rw [← alone]
    rcases known with known | known <;> simp [known]
  have pointed : pointer task delivery =
      if (resolution.via = .branch && delivery.input.prNumbers.isEmpty) = true then none
      else prHeadFor delivery.input (resolution.prNumber.or task.prNumber) := by
    rw [pointer, alone, resolved]
    rfl
  simp only [handleCheckResult, if_neg nonempty, genuine.trusted, Bool.not_true, Bool.false_eq_true, if_false, resolved,
    if_neg admitted, otherDecision, alone, pointed]

theorem handleCheckResult_unverified (genuine : Genuine case trusted pushes delivery) (solid : "" ∉ pushes)
    (alone : branchOnly delivery = true)
    (unknown : isKnownTaskCommit case task (trim delivery.input.headSha) = false) :
    handleCheckResult case trusted task delivery = ⟨none, .error .unverifiedBranch⟩ := by
  have nonempty : trim delivery.input.headSha ≠ "" := by
    intro blank
    have pushed := genuine.pushed
    rw [commitId_empty blank] at pushed
    exact solid pushed
  obtain ⟨resolution, resolved⟩ := isSome_iff_exists.mp genuine.resolved
  have alone : (resolution.via = .branch && delivery.input.prNumbers.isEmpty) = true := by
    simpa [branchOnly, resolved] using alone
  simp only [handleCheckResult, if_neg nonempty, genuine.trusted, Bool.not_true, Bool.false_eq_true, if_false, resolved,
    alone, unknown, Bool.not_false, Bool.and_self, if_true]

theorem handled_head (task : CiTask) (genuine : Genuine case trusted pushes delivery) (solid : "" ∉ pushes) :
    handled case trusted task delivery = task ∨
      commitId case (handled case trusted task delivery).ciHeadSha =
        commitId case (some delivery.input.headSha) := by
  rw [handled]
  by_cases known : branchOnly delivery = false ∨
      isKnownTaskCommit case task (trim delivery.input.headSha) = true
  · rw [handleCheckResult_genuine genuine solid known]
    dsimp only
    split
    · rename_i record written
      rw [recordCiHead]
      split
      · right
        split at written
        · cases written
        · rw [recordHead] at written
          split at written
          · cases written
          · rw [← some.inj written]
            exact commitId_trim _
      · exact .inl rfl
    · exact .inl rfl
  · rw [not_or, Bool.not_eq_false, Bool.not_eq_true] at known
    rw [handleCheckResult_unverified genuine solid known.1 known.2]
    exact .inl rfl

theorem onRecord_eq_some {head : Nat} : onRecord case pushes task = some head ↔
    commitId case task.ciHeadSha ∈ pushes ∧ pushes.idxOf (commitId case task.ciHeadSha) = head := by
  rw [onRecord]
  split
  · simp [*]
  · simp [*]

theorem onRecord_kept (task : CiTask) (genuine : Genuine case trusted pushes delivery) (solid : "" ∉ pushes)
    (recorded : (onRecord case pushes task).isSome = true) :
    (onRecord case pushes (handled case trusted task delivery)).isSome = true := by
  rcases handled_head task genuine solid with same | own
  · rw [same]
    exact recorded
  · rw [onRecord, own, if_pos genuine.pushed]
    rfl

variable (trusted) in
theorem outdated_forward (genuine : Genuine case trusted pushes delivery) (solid : "" ∉ pushes)
    (recorded : commitId case task.ciHeadSha ≠ "")
    (other : commitId case task.ciHeadSha ≠ commitId case (some delivery.input.headSha))
    (outdated : Outdated case task delivery) :
    handled case trusted task delivery = task ∧
      ∀ headSha, (handleCheckResult case trusted task delivery).next ≠ .ok headSha := by
  by_cases known : branchOnly delivery = false ∨
      isKnownTaskCommit case task (trim delivery.input.headSha) = true
  · have stale := (otherDecision_eq recorded other).1 outdated
    rw [handled, handleCheckResult_genuine genuine solid known]
    refine ⟨by simp [stale], fun headSha => ?_⟩
    dsimp only
    split
    · exact nofun
    · exact nofun
  · rw [not_or, Bool.not_eq_false, Bool.not_eq_true] at known
    rw [handled, handleCheckResult_unverified genuine solid known.1 known.2]
    exact ⟨rfl, fun _ => nofun⟩

theorem advanced_records (genuine : Genuine case trusted pushes delivery) (solid : "" ∉ pushes)
    (recorded : commitId case task.ciHeadSha ≠ "")
    (other : commitId case task.ciHeadSha ≠ commitId case (some delivery.input.headSha))
    (fresh : ¬ Outdated case task delivery) :
    onRecord case pushes (handled case trusted task delivery) = some (pushedAt case pushes delivery.input.headSha) := by
  have advanced := (otherDecision_eq recorded other).2 fresh
  have known : branchOnly delivery = false ∨
      isKnownTaskCommit case task (trim delivery.input.headSha) = true := by
    rw [Outdated, not_or] at fresh
    exact .inl (Bool.eq_false_iff.mpr fresh.1)
  have written : commitId case (handled case trusted task delivery).ciHeadSha =
      commitId case (some delivery.input.headSha) := by
    rw [handled, handleCheckResult_genuine genuine solid known]
    simp [advanced, recordHead, recordCiHead, commitId_trim]
  rw [onRecord_eq_some, written]
  exact ⟨genuine.pushed, rfl⟩

theorem next_headSha (genuine : Genuine case trusted pushes delivery) (solid : "" ∉ pushes) {headSha : String}
    (asks : (handleCheckResult case trusted task delivery).next = .ok headSha) :
    pushedAt case pushes headSha = pushedAt case pushes delivery.input.headSha := by
  by_cases known : branchOnly delivery = false ∨
      isKnownTaskCommit case task (trim delivery.input.headSha) = true
  · rw [handleCheckResult_genuine genuine solid known] at asks
    dsimp only at asks
    split at asks
    · cases asks
    · split at asks
      · cases asks
      · rw [← Except.ok.inj asks, pushedAt, commitId_trim]
        rfl
  · rw [not_or, Bool.not_eq_false, Bool.not_eq_true] at known
    rw [handleCheckResult_unverified genuine solid known.1 known.2] at asks
    cases asks

theorem forward_iff (genuine : Genuine case trusted pushes delivery) (solid : "" ∉ pushes) :
    Forward case trusted pushes task delivery ↔ OldShowsIt case pushes task delivery := by
  constructor
  · intro forward head recorded older
    by_contra fresh
    obtain ⟨inside, place⟩ := onRecord_eq_some.mp recorded
    have nonempty : commitId case task.ciHeadSha ≠ "" := fun blank => solid (blank ▸ inside)
    have other : commitId case task.ciHeadSha ≠ commitId case (some delivery.input.headSha) := by
      intro same
      rw [pushedAt, ← same, place] at older
      omega
    have := (forward head recorded).1 _ (advanced_records genuine solid nonempty other fresh)
    omega
  · intro shows head recorded
    obtain ⟨inside, place⟩ := onRecord_eq_some.mp recorded
    have nonempty : commitId case task.ciHeadSha ≠ "" := fun blank => solid (blank ▸ inside)
    by_cases older : pushedAt case pushes delivery.input.headSha < head
    · have other : commitId case task.ciHeadSha ≠ commitId case (some delivery.input.headSha) := by
        intro same
        rw [pushedAt, ← same, place] at older
        omega
      obtain ⟨same, silent⟩ := outdated_forward trusted genuine solid nonempty other (shows head recorded older)
      refine ⟨fun next after => ?_, fun headSha asks => absurd asks (silent headSha)⟩
      rw [same, recorded] at after
      exact (some.inj after).le
    · refine ⟨fun next after => ?_, fun headSha asks => ?_⟩
      · rcases handled_head task genuine solid with same | own
        · rw [same, recorded] at after
          exact (some.inj after).le
        · rw [onRecord_eq_some, own] at after
          rw [← after.2]
          exact not_lt.mp older
      · rw [next_headSha genuine solid asks]
        exact not_lt.mp older

def NotBefore (case : JsString.LowerCase) (pushes : List String) (place : Nat) (task : CiTask) : Prop :=
  ∃ now, onRecord case pushes task = some now ∧ place ≤ now

/-- The head on record never goes back exactly where every delivery about a commit pushed before it shows that it is
out of date. -/
theorem neverBackwards_iff (solid : "" ∉ pushes) (deliveries : List CheckDelivery)
    (genuine : ∀ delivery ∈ deliveries, Genuine case trusted pushes delivery) (task : CiTask) :
    NeverBackwards case trusted pushes task deliveries ↔
      Along (handled case trusted) (OldShowsIt case pushes) task deliveries := by
  have forward : Along (handled case trusted) (Forward case trusted pushes) task deliveries ↔
      Along (handled case trusted) (OldShowsIt case pushes) task deliveries :=
    along_congr (fun task delivery genuine => forward_iff genuine solid) (along_of_forall genuine task)
  rw [← forward]
  constructor
  · intro never
    refine along_iff_split.mpr fun first delivery rest split head recorded => ?_
    have steps := never first [] delivery rest (by simpa using split) head recorded
    rw [append_nil] at steps
    exact steps
  · rintro along first second delivery rest rfl head recorded
    obtain ⟨before, here, -⟩ := along_append.mp along
    have between := (along_append.mp before).2
    have genuine' : ∀ delivery ∈ second, Genuine case trusted pushes delivery :=
      fun delivery listed => genuine delivery (by simp [listed])
    have steps := along_and (along_of_forall genuine' _) between
    -- The head on record after the first deliveries stays behind every later one.
    have reached : NotBefore case pushes head (run (handled case trusted) task (first ++ second)) := by
      rw [run_append]
      refine run_along ?_ ⟨head, recorded, le_rfl⟩ steps
      rintro task delivery ⟨now, recorded, le⟩ ⟨genuine, forward⟩
      obtain ⟨next, after⟩ := isSome_iff_exists.mp (onRecord_kept task genuine solid (by rw [recorded]; rfl))
      exact ⟨next, after, le.trans ((forward now recorded).1 next after)⟩
    obtain ⟨now, recorded', le⟩ := reached
    obtain ⟨heads, asks⟩ := here now recorded'
    exact ⟨fun next after => le.trans (heads next after), fun headSha asked => le.trans (asks headSha asked)⟩

end

def delivered (headSha prHeadSha : String) (verdict : CheckVerdict) : CheckDelivery where
  input :=
    { headSha, verdict
      prNumbers := [7]
      prHeads := [⟨7, some prHeadSha⟩]
      observedAt := some 0
      appSlug := some "github-actions" }
  resolution := some ⟨some 7, .pullRequest⟩

theorem overtaken_result_is_refused :
    NeverBackwards .ascii ["github-actions"] ["a1", "b2"] {}
      [delivered "b2" "b2" .passing, delivered "a1" "b2" .failing] := by
  refine (neverBackwards_iff (by decide) _ ?_ {}).mpr ⟨?_, ?_, trivial⟩
  · intro delivery listed
    simp only [mem_cons, not_mem_nil, or_false] at listed
    rcases listed with rfl | rfl <;> exact ⟨by decide, rfl, by decide⟩
  · intro head recorded
    have nothing : onRecord .ascii ["a1", "b2"] {} = none := by decide
    rw [nothing] at recorded
    cases recorded
  · have pointed : commitId .ascii (pointer
        (handled .ascii ["github-actions"] {} (delivered "b2" "b2" .passing)) (delivered "a1" "b2" .failing)) = "b2" := by
      decide
    intro head _ _
    right
    rw [pointed, if_pos (by decide)]
    decide

/-- The first delivery was sent while its commit was the head, and arrives after the next one was on record. -/
theorem late_result_goes_back :
    (∀ delivery ∈ [delivered "b2" "b2" .passing, delivered "a1" "a1" .failing],
      Genuine .ascii ["github-actions"] ["a1", "b2"] delivery) ∧
    ¬ NeverBackwards .ascii ["github-actions"] ["a1", "b2"] {}
      [delivered "b2" "b2" .passing, delivered "a1" "a1" .failing] := by
  constructor
  · intro delivery listed
    simp only [mem_cons, not_mem_nil, or_false] at listed
    rcases listed with rfl | rfl <;> exact ⟨by decide, rfl, by decide⟩
  · intro never
    have back := (never [delivered "b2" "b2" .passing] [] (delivered "a1" "a1" .failing) [] rfl 1
      (by decide)).1 0 (by decide)
    omega

end EverWorks.Ci
