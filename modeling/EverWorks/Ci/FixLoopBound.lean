import EverWorks.Ci.FixLoop
import Mathlib.Data.List.Infix
import Mathlib.Data.List.Perm.Subperm

/-!
Over every order of the calls of any deliveries: what each delivery relies on and what it guarantees, the budget, one
resume for each recorded rejection and for each commit, and the stop marker.
-/

namespace EverWorks.Ci
open Lib Lib.Program List

variable (case : JsString.LowerCase) (budget : LoopBudget) (trusted : List String)

def Backed (attempts : List Attempt) (resume : Resume) : Prop :=
  ∃ attempt ∈ (attempts.filter (countsFor (budget.counted resume.cause.trigger))).take
      (budget.maxAttempts resume.cause.trigger),
    attempt.delivery = resume.delivery ∧ attempt.claimKey = storedKey resume.cause.claimKey

/-- A check delivery that may ask for a resume: a failure from a trusted app that leads to the task. -/
structure Red (delivery : CheckDelivery) : Prop where
  trusted : isTrustedCheckApp case delivery.input.appSlug trusted = true
  resolved : delivery.resolution.isSome = true
  failing : delivery.input.verdict = .failing
  counts : delivery.notAFailure = false

def Named (deliveries : List LoopDelivery) (cause : ResumeCause) : Prop :=
  ∀ headSha, cause = .commit headSha → ∃ delivery readings, .check delivery readings ∈ deliveries ∧
    Red case trusted delivery ∧ JsString.trim delivery.input.headSha = headSha

structure LoopRely (number : Nat) (before after : LoopState) : Prop where
  attempts : before.attempts <+: after.attempts
  noticed : before.noticedAt.isSome → after.noticedAt.isSome
  resumes : number ∉ before.resumes.map (·.delivery) → number ∉ after.resumes.map (·.delivery)

structure LoopGuar (deliveries : List LoopDelivery) (number : Nat) (before after : LoopState) : Prop where
  attempts : after.attempts = before.attempts ∨ ∃ attempt, after.attempts = before.attempts ++ [attempt] ∧
    attempt.claimKey ∉ before.attempts.map (·.claimKey)
  noticed : before.noticedAt.isSome → after.noticedAt.isSome
  resumes : after.resumes = before.resumes ∨ ∃ resume, after.resumes = before.resumes ++ [resume] ∧
    resume.delivery = number ∧ number ∉ before.resumes.map (·.delivery) ∧ Backed budget after.attempts resume ∧
    Named case trusted deliveries resume.cause

structure LoopInvariant (deliveries : List LoopDelivery) (state : LoopState) : Prop where
  keys : (state.attempts.map (·.claimKey)).Nodup
  once : (state.resumes.map (·.delivery)).Nodup
  backed : ∀ resume ∈ state.resumes, Backed budget state.attempts resume
  named : ∀ resume ∈ state.resumes, Named case trusted deliveries resume.cause

/-! ## What is asked -/

structure WithinBudget (resumes : List Resume) : Prop where
  platform : budget.appBudget = none → resumes.length ≤ budget.platformMaxAttempts
  app : ∀ appBudget, budget.appBudget = some appBudget →
    (resumes.filter (·.cause.trigger = .ci)).length ≤ appBudget ∧
      (resumes.filter (·.cause.trigger = .review)).length ≤ budget.platformMaxAttempts

def OnePerCommit (resumes : List Resume) : Prop :=
  ((resumes.filterMap (·.cause.commit?)).map fun headSha => commitId case (some headSha)).Nodup

def OnePerRejection (resumes : List Resume) : Prop := (resumes.filterMap (·.cause.rejection?)).Nodup

/-- In every order of the calls the budget is kept, a commit and a rejection are resumed once, and a delivery that has
made no call when the stop marker is stored resumes nothing. -/
structure NeverOverspends (task : CiTask) (deliveries : List LoopDelivery) : Prop where
  within : ∀ schedule, WithinBudget budget (afterLoop case budget trusted task deliveries schedule).resumes
  commit : ∀ schedule, OnePerCommit case (afterLoop case budget trusted task deliveries schedule).resumes
  rejection : ∀ schedule, OnePerRejection (afterLoop case budget trusted task deliveries schedule).resumes
  stop : ∀ first rest number, (afterLoop case budget trusted task deliveries first).noticedAt.isSome →
    number ∉ first → number ∉ (afterLoop case budget trusted task deliveries (first ++ rest)).resumes.map (·.delivery)

/-- Red deliveries about one commit spell it alike. -/
def OneSpelling (deliveries : List LoopDelivery) : Prop :=
  ∀ first second readings readings', .check first readings ∈ deliveries → .check second readings' ∈ deliveries →
    Red case trusted first → Red case trusted second →
    commitId case (some first.input.headSha) = commitId case (some second.input.headSha) →
    JsString.trim first.input.headSha = JsString.trim second.input.headSha

section
variable {case budget trusted} {deliveries : List LoopDelivery} {number : Nat} {before after state : LoopState}

/-! ## Relying on one another -/

theorem LoopRely.refl (number : Nat) (state : LoopState) : LoopRely number state state :=
  ⟨prefix_rfl, id, id⟩

theorem LoopRely.trans {a b c : LoopState} (first : LoopRely number a b) (second : LoopRely number b c) :
    LoopRely number a c :=
  ⟨first.attempts.trans second.attempts, second.noticed ∘ first.noticed, second.resumes ∘ first.resumes⟩

theorem LoopGuar.grows (guar : LoopGuar case budget trusted deliveries number before after) :
    before.attempts <+: after.attempts := by
  rcases guar.attempts with same | ⟨attempt, more, _⟩
  · rw [same]
  · rw [more]
    exact prefix_append _ _

theorem LoopGuar.compat {other : Nat} (guar : LoopGuar case budget trusted deliveries other before after)
    (apart : number ≠ other) : LoopRely number before after := by
  refine ⟨guar.grows, guar.noticed, fun absent => ?_⟩
  rcases guar.resumes with same | ⟨resume, more, own, _, _, _⟩
  · rwa [same]
  · rw [more, map_append, mem_append, not_or]
    exact ⟨absent, by simpa [own] using apart⟩

theorem Backed.later {attempts more : List Attempt} {resume : Resume} (backed : Backed budget attempts resume)
    (grows : attempts <+: more) : Backed budget more resume := by
  obtain ⟨attempt, listed, matching⟩ := backed
  exact ⟨attempt, (List.IsPrefix.take (grows.filter _) _).subset listed, matching⟩

theorem LoopInvariant.step (holds : LoopInvariant case budget trusted deliveries before)
    (guar : LoopGuar case budget trusted deliveries number before after) :
    LoopInvariant case budget trusted deliveries after where
  keys := by
    rcases guar.attempts with same | ⟨attempt, more, fresh⟩
    · rw [same]
      exact holds.keys
    · rw [more, map_append, map_singleton, ← concat_eq_append, nodup_concat]
      exact ⟨fresh, holds.keys⟩
  once := by
    rcases guar.resumes with same | ⟨resume, more, own, fresh, _, _⟩
    · rw [same]
      exact holds.once
    · rw [more, map_append, map_singleton, own, ← concat_eq_append, nodup_concat]
      exact ⟨fresh, holds.once⟩
  backed := by
    intro resume listed
    rcases guar.resumes with same | ⟨last, more, _, _, backed, _⟩
    · rw [same] at listed
      exact (holds.backed resume listed).later guar.grows
    · rw [more, mem_append, mem_singleton] at listed
      rcases listed with old | rfl
      · exact (holds.backed resume old).later guar.grows
      · exact backed
  named := by
    intro resume listed
    rcases guar.resumes with same | ⟨last, more, _, _, _, named⟩
    · rw [same] at listed
      exact holds.named resume listed
    · rw [more, mem_append, mem_singleton] at listed
      rcases listed with old | rfl
      · exact holds.named resume old
      · exact named

theorem LoopGuar.refl (state : LoopState) : LoopGuar case budget trusted deliveries number state state :=
  ⟨.inl rfl, id, .inl rfl⟩

/-! ## The programs -/

variable (case budget trusted deliveries number) in
abbrev Careful {α : Type} (post : α → LoopState → Prop) (program : LoopProgram α) : LoopState → Prop :=
  program.Holds serveLoop (LoopRely number) (LoopGuar case budget trusted deliveries number) post

def Unspent (number : Nat) (state : LoopState) : Prop := number ∉ state.resumes.map (·.delivery)

theorem Unspent.later (unspent : Unspent number before) (rely : LoopRely number before after) :
    Unspent number after := rely.resumes unspent

def Claimed (context : ResumeContext) (state : LoopState) : Prop :=
  ∃ attempt ∈ state.attempts, attempt.delivery = context.delivery ∧ attempt.trigger = context.cause.trigger ∧
    attempt.claimKey = storedKey context.cause.claimKey

theorem Claimed.later {context : ResumeContext} (claimed : Claimed context before)
    (grows : before.attempts <+: after.attempts) : Claimed context after := by
  obtain ⟨attempt, listed, matching⟩ := claimed
  exact ⟨attempt, grows.subset listed, matching⟩

theorem countsFor_counted (attempt : Attempt) : countsFor (budget.counted attempt.trigger) attempt = true := by
  rw [countsFor, LoopBudget.counted]
  cases found : budget.app attempt.trigger with
  | none => rfl
  | some amount =>
    cases trigger : attempt.trigger with
    | ci => rfl
    | review =>
      rw [trigger, LoopBudget.app] at found
      cases found

variable {context : ResumeContext} {readings : Readings} {α : Type} {post : α → LoopState → Prop}

theorem careful_fileStopNotice (unspent : Unspent number state) :
    Careful case budget trusted deliveries number (fun _ after => Unspent number after)
      (fileStopNotice context readings) state := by
  rw [fileStopNotice]
  split
  · exact fun after rely => unspent.later rely
  · intro later rely
    have pending := unspent.later rely
    rw [serveLoop]
    split
    · exact ⟨.refl later, fun after more => more.resumes pending⟩
    · exact ⟨⟨.inl rfl, fun _ => rfl, .inl rfl⟩, fun after more => more.resumes pending⟩

theorem careful_dispatchClaimed {runId : String} (unspent : Unspent context.delivery state)
    (claimed : Claimed context state) (named : Named case trusted deliveries context.cause) :
    Careful case budget trusted deliveries context.delivery (fun _ _ => True)
      (dispatchClaimed budget context readings runId) state := by
  rw [dispatchClaimed]
  split
  · exact fun _ _ => trivial
  · refine Holds.ask fun counting rely => ⟨.refl counting, ?_⟩
    have pending := unspent.later rely
    have listed := claimed.later rely.attempts
    generalize counted : (serveLoop (LoopCall.countForTask _) counting).1 = settled
    split
    · refine Holds.bind (LoopRely.refl _) (careful_fileStopNotice pending) fun _ _ _ => ?_
      exact fun _ _ => trivial
    · rename_i within
      refine Holds.ask fun resuming more => ⟨?_, fun _ _ => trivial⟩
      refine ⟨.inl rfl, id, .inr ⟨⟨context.delivery, runId, context.cause⟩, rfl, rfl, pending.later more, ?_, named⟩⟩
      obtain ⟨attempt, inside, own, trigger, key⟩ := listed
      have backed : Backed budget counting.attempts ⟨context.delivery, runId, context.cause⟩ := by
        refine ⟨attempt, ?_, own, key⟩
        rw [← counted] at within
        rw [take_of_length_le (Nat.le_of_not_lt within), mem_filter]
        exact ⟨inside, by rw [← trigger]; exact countsFor_counted attempt⟩
      exact backed.later more.attempts

theorem careful_claimAttempt (unspent : Unspent context.delivery state)
    (named : Named case trusted deliveries context.cause) :
    Careful case budget trusted deliveries context.delivery (fun _ _ => True)
      (claimAttempt budget context readings) state := by
  rw [claimAttempt]
  split
  · exact fun _ _ => trivial
  · split
    · exact fun _ _ => trivial
    · refine Holds.ask fun claiming rely => ?_
      have pending := unspent.later rely
      dsimp only [serveLoop]
      split
      · exact ⟨.refl claiming, fun _ _ => trivial⟩
      · rename_i fresh
        refine ⟨⟨.inr ⟨_, rfl, fresh⟩, id, .inl rfl⟩, ?_⟩
        refine careful_dispatchClaimed pending ?_ named
        exact ⟨_, mem_append_right _ (mem_singleton_self _), rfl, rfl, rfl⟩

theorem careful_failureRepeated (unspent : Unspent number state) :
    Careful case budget trusted deliveries number (fun _ after => Unspent number after)
      (failureRepeated budget context readings) state := by
  rw [failureRepeated]
  split
  · split
    · exact fun after rely => unspent.later rely
    · split
      · exact fun after rely => unspent.later rely
      · exact fun later rely => ⟨.refl later, fun after more => (unspent.later rely).later more⟩
  · exact fun after rely => unspent.later rely

theorem careful_evaluate (own : context.delivery = number) (unspent : Unspent number state)
    (named : Named case trusted deliveries context.cause) :
    Careful case budget trusted deliveries number (fun _ _ => True) (evaluate case budget context readings) state := by
  subst own
  rw [evaluate]
  split
  · exact fun _ _ => trivial
  · split
    · exact fun _ _ => trivial
    · refine Holds.ask fun counting rely => ⟨.refl counting, ?_⟩
      have pending := unspent.later rely
      generalize (serveLoop (LoopCall.countForTask _) counting).1 = attemptsUsed
      split
      · exact Holds.bind (LoopRely.refl _) (careful_fileStopNotice pending) fun _ _ _ _ _ => trivial
      · refine Holds.bind (LoopRely.refl _) (careful_failureRepeated pending) fun repeated later pending => ?_
        match repeated with
        | none => exact fun _ _ => trivial
        | some true => exact Holds.bind (LoopRely.refl _) (careful_fileStopNotice pending) fun _ _ _ _ _ => trivial
        | some false => exact careful_claimAttempt pending named

/-! ## A delivery -/

variable {task : CiTask}

theorem handleCheckResult_ok {delivery : CheckDelivery} {headSha : String}
    (asked : (handleCheckResult case trusted task delivery).next = .ok headSha) :
    Red case trusted delivery ∧ JsString.trim delivery.input.headSha = headSha := by
  by_cases blank : JsString.trim delivery.input.headSha = ""
  · simp only [handleCheckResult, if_pos blank, reduceCtorEq] at asked
  cases app : isTrustedCheckApp case delivery.input.appSlug trusted with
  | false => simp [handleCheckResult, blank, app] at asked
  | true =>
    cases resolved : delivery.resolution with
    | none => simp [handleCheckResult, blank, app, resolved] at asked
    | some resolution =>
      simp only [handleCheckResult, if_neg blank, app, resolved, Bool.not_true, Bool.false_eq_true, if_false,
        apply_ite CheckPlan.next] at asked
      generalize decideCiHead case task _ = decision at asked
      split at asked
      · cases asked
      · split at asked
        · cases asked
        · rename_i _ failing
          split at asked
          · cases asked
          · simp only [Bool.not_eq_true', Bool.not_eq_false, Bool.and_eq_true, decide_eq_true_eq] at failing
            exact ⟨⟨app, by rw [resolved]; rfl, failing.1, failing.2⟩, Except.ok.inj asked⟩

theorem careful_writeHead {record : Option RecordCiHead} (unspent : Unspent number state) :
    Careful case budget trusted deliveries number (fun _ after => Unspent number after) (writeHead record) state := by
  cases record with
  | none => exact fun after rely => unspent.later rely
  | some record =>
    intro later rely
    have pending := unspent.later rely
    exact ⟨⟨.inl rfl, id, .inl rfl⟩, fun after more => more.resumes pending⟩

theorem careful_deliver {delivery : LoopDelivery} (listed : delivery ∈ deliveries) (unspent : Unspent number state) :
    Careful case budget trusted deliveries number (fun _ _ => True) (deliver case budget trusted number delivery)
      state := by
  cases delivery with
  | check delivery readings =>
    refine Holds.ask fun reading rely => ⟨.refl reading, ?_⟩
    have pending := unspent.later rely
    refine Holds.bind (LoopRely.refl _) (careful_writeHead pending) fun _ later pending => ?_
    split
    · exact fun _ _ => trivial
    · rename_i headSha asked
      obtain ⟨red, spelled⟩ := handleCheckResult_ok asked
      refine careful_evaluate rfl pending ?_
      rintro other same
      rw [← ResumeCause.commit.inj same]
      exact ⟨delivery, readings, listed, red, spelled⟩
  | rejection pending readings =>
    refine Holds.ask fun reading rely => ⟨.refl reading, ?_⟩
    cases pending with
    | none => exact fun _ _ => trivial
    | some id =>
      refine careful_evaluate rfl (unspent.later rely) ?_
      rintro headSha ⟨⟩

/-! ## A delivery after the stop -/

variable (case budget trusted deliveries number) in
abbrev Silent {α : Type} (program : LoopProgram α) : LoopState → Prop :=
  program.Holds serveLoop (LoopRely number)
    (fun before after => LoopGuar case budget trusted deliveries number before after ∧ after.resumes = before.resumes)
    (fun _ _ => True)

theorem silent_evaluate (noticed : context.noticedAt.isSome = true) :
    Silent case budget trusted deliveries number (evaluate case budget context readings) state := by
  obtain ⟨reason, found⟩ : ∃ reason, stopped case budget context readings = some reason := by
    rw [stopped]
    split
    · exact ⟨_, rfl⟩
    · split
      · exact ⟨_, rfl⟩
      · exact ⟨_, rfl⟩
  rw [evaluate, found]
  exact fun _ _ => trivial

theorem silent_deliver {delivery : LoopDelivery} (noticed : state.noticedAt.isSome = true) :
    Silent case budget trusted deliveries number (deliver case budget trusted number delivery) state := by
  cases delivery with
  | check delivery readings =>
    refine Holds.ask fun reading rely => ⟨⟨.refl reading, rfl⟩, ?_⟩
    have row : reading.noticedAt.isSome = true := rely.noticed noticed
    have written : Silent case budget trusted deliveries number
        (writeHead (handleCheckResult case trusted reading.task delivery).record) reading := by
      cases (handleCheckResult case trusted reading.task delivery).record with
      | none => exact fun _ _ => trivial
      | some record => exact fun later _ => ⟨⟨⟨.inl rfl, id, .inl rfl⟩, rfl⟩, fun _ _ => trivial⟩
    refine Holds.bind (LoopRely.refl _) written fun _ later _ => ?_
    split
    · exact fun _ _ => trivial
    · refine silent_evaluate ?_
      exact row
  | rejection pending readings =>
    refine Holds.ask fun reading rely => ⟨⟨.refl reading, rfl⟩, ?_⟩
    have row : reading.noticedAt.isSome = true := rely.noticed noticed
    cases pending with
    | none => exact fun _ _ => trivial
    | some id =>
      refine silent_evaluate ?_
      exact row

/-! ## Every order of the calls -/

theorem loopPool_program {number : Nat} {program : LoopProgram Unit}
    (there : (loopPool case budget trusted state deliveries).programs[number]? = some program) :
    ∃ delivery ∈ deliveries,
      program = (deliver case budget trusted number delivery >>= fun _ => pure () : LoopProgram Unit) := by
  rw [loopPool, getElem?_mapIdx, Option.map_eq_some_iff] at there
  obtain ⟨delivery, found, rfl⟩ := there
  exact ⟨delivery, mem_of_getElem? found, rfl⟩

theorem loopPool_inStep :
    Pool.InStep serveLoop LoopRely (LoopGuar case budget trusted deliveries)
      (loopPool case budget trusted { task } deliveries) := by
  intro number program there
  obtain ⟨delivery, listed, rfl⟩ := loopPool_program there
  exact Holds.bind (LoopRely.refl number) (careful_deliver listed not_mem_nil) fun _ _ _ _ _ => trivial

theorem afterLoop_invariant (task : CiTask) (schedule : List Nat) :
    Pool.InStep serveLoop LoopRely (LoopGuar case budget trusted deliveries)
        (run (Pool.step serveLoop Empty.elim) (loopPool case budget trusted { task } deliveries) schedule) ∧
      LoopInvariant case budget trusted deliveries (afterLoop case budget trusted task deliveries schedule) :=
  Pool.run_inStep (fun number => .refl number) (fun _ _ _ _ => .trans) (fun _ _ _ _ apart guar => guar.compat apart)
    (fun _ _ _ _ holds guar => holds.step guar) loopPool_inStep
    ⟨nodup_nil, nodup_nil, fun _ => nofun, fun _ => nofun⟩

/-! ## What the invariant gives -/

theorem length_le_of_backed {resumes : List Resume} {amount : Nat} (attempts : List Attempt)
    (once : (resumes.map (·.delivery)).Nodup)
    (backed : ∀ resume ∈ resumes, ∃ attempt ∈ attempts.take amount, attempt.delivery = resume.delivery) :
    resumes.length ≤ amount := by
  have inside : resumes.map (·.delivery) ⊆ (attempts.take amount).map (·.delivery) := by
    intro delivery listed
    obtain ⟨resume, member, rfl⟩ := mem_map.mp listed
    obtain ⟨attempt, among, own⟩ := backed resume member
    exact mem_map.mpr ⟨attempt, among, own⟩
  calc resumes.length = (resumes.map (·.delivery)).length := (length_map _).symm
    _ ≤ ((attempts.take amount).map (·.delivery)).length := (subperm_of_subset once inside).length_le
    _ ≤ amount := by rw [length_map]; exact length_take_le _ _

theorem LoopInvariant.ofTrigger (holds : LoopInvariant case budget trusted deliveries state)
    (trigger : AutoResumeTrigger) :
    (state.resumes.filter (·.cause.trigger = trigger)).length ≤ budget.maxAttempts trigger := by
  refine length_le_of_backed (state.attempts.filter (countsFor (budget.counted trigger)))
    (holds.once.sublist (filter_sublist.map _)) ?_
  intro resume listed
  rw [mem_filter, decide_eq_true_eq] at listed
  obtain ⟨attempt, among, own, _⟩ := holds.backed resume listed.1
  rw [listed.2] at among
  exact ⟨attempt, among, own⟩

theorem LoopInvariant.withinBudget (holds : LoopInvariant case budget trusted deliveries state) :
    WithinBudget budget state.resumes where
  platform shared := by
    refine length_le_of_backed (state.attempts.filter (countsFor none)) holds.once ?_
    intro resume listed
    obtain ⟨attempt, among, own, _⟩ := holds.backed resume listed
    have all : budget.app resume.cause.trigger = none := by
      cases resume.cause.trigger with
      | ci => exact shared
      | review => rfl
    rw [LoopBudget.counted, LoopBudget.maxAttempts, all] at among
    exact ⟨attempt, among, own⟩
  app amount given := by
    have ci := holds.ofTrigger .ci
    have review := holds.ofTrigger .review
    rw [LoopBudget.maxAttempts, show budget.app .ci = some amount from given] at ci
    exact ⟨ci, review⟩

theorem LoopInvariant.delivery_eq (holds : LoopInvariant case budget trusted deliveries state) {first second : Resume}
    (here : first ∈ state.resumes) (there : second ∈ state.resumes)
    (same : storedKey first.cause.claimKey = storedKey second.cause.claimKey) : first.delivery = second.delivery := by
  obtain ⟨attempt, listed, own, key⟩ := holds.backed first here
  obtain ⟨other, listed', own', key'⟩ := holds.backed second there
  have inside := mem_of_mem_filter (mem_of_mem_take listed)
  have inside' := mem_of_mem_filter (mem_of_mem_take listed')
  rw [← own, ← own', inj_on_of_nodup_map holds.keys inside inside' (by rw [key, key', same])]

theorem LoopInvariant.pairwise (holds : LoopInvariant case budget trusted deliveries state) :
    state.resumes.Pairwise fun first second =>
      (first ∈ state.resumes ∧ second ∈ state.resumes) ∧
        storedKey first.cause.claimKey ≠ storedKey second.cause.claimKey := by
  refine (pairwise_map.mp holds.once).imp_of_mem fun here there apart => ⟨⟨here, there⟩, fun same => ?_⟩
  exact apart (holds.delivery_eq here there same)

theorem LoopInvariant.onePerRejection (holds : LoopInvariant case budget trusted deliveries state) :
    OnePerRejection state.resumes := by
  rw [OnePerRejection, List.Nodup, pairwise_filterMap]
  refine holds.pairwise.imp fun {first second} apart id here id' there same => ?_
  subst same
  refine apart.2 (congrArg (storedKey ∘ ResumeCause.claimKey) ?_)
  revert here there
  cases first.cause with
  | commit headSha => exact nofun
  | rejection own =>
    cases second.cause with
    | commit headSha => exact nofun
    | rejection other => exact fun here there => by rw [Option.some.inj here, Option.some.inj there]

theorem commit?_eq_some {cause : ResumeCause} {headSha : String} :
    cause.commit? = some headSha ↔ cause = .commit headSha := by
  cases cause with
  | commit own => simp [ResumeCause.commit?]
  | rejection id => simp [ResumeCause.commit?]

theorem LoopInvariant.onePerCommit (holds : LoopInvariant case budget trusted deliveries state)
    (spelled : OneSpelling case trusted deliveries ∨ budget.maxAttempts .ci ≤ 1) :
    OnePerCommit case state.resumes := by
  rcases spelled with spelled | single
  · rw [OnePerCommit, List.Nodup, pairwise_map, pairwise_filterMap]
    refine holds.pairwise.imp fun {first second} apart headSha here headSha' there same => ?_
    rw [commit?_eq_some] at here there
    obtain ⟨delivery, readings, listed, red, own⟩ := holds.named first apart.1.1 headSha here
    obtain ⟨other, readings', listed', red', own'⟩ := holds.named second apart.1.2 headSha' there
    subst own own'
    rw [commitId_trim, commitId_trim] at same
    refine apart.2 ?_
    rw [here, there, spelled delivery other readings readings' listed listed' red red' same]
  · have few := (holds.ofTrigger .ci).trans single
    have commits : state.resumes.countP (fun resume => (resume.cause.commit?).isSome) =
        state.resumes.countP fun resume => resume.cause.trigger = .ci :=
      countP_congr fun resume _ => by cases resume.cause <;> simp [ResumeCause.commit?, ResumeCause.trigger]
    rw [← countP_eq_length_filter, ← commits, ← length_filterMap_eq_countP,
      ← length_map fun headSha => commitId case (some headSha)] at few
    rw [OnePerCommit]
    generalize (state.resumes.filterMap _).map _ = heads at few ⊢
    match heads, few with
    | [], _ => exact nodup_nil
    | [head], _ => exact nodup_singleton head

theorem afterLoop_stopped {first rest : List Nat}
    (noticed : (afterLoop case budget trusted task deliveries first).noticedAt.isSome = true)
    (later : number ∉ first) :
    Unspent number (afterLoop case budget trusted task deliveries (first ++ rest)) := by
  let pool := loopPool case budget trusted { task } deliveries
  let reached := run (Pool.step serveLoop Empty.elim) pool first
  have others : ∀ place ∈ first, ∀ a b, Unspent number a → LoopGuar case budget trusted deliveries place a b →
      Unspent number b :=
    fun place listed _ _ unspent guar => unspent.later (guar.compat fun same => later (same ▸ listed))
  have ran : Pool.InStep serveLoop LoopRely (LoopGuar case budget trusted deliveries) reached ∧
      Unspent number reached.state :=
    Pool.run_inStep (fun place => .refl place) (fun _ _ _ _ => .trans) (fun _ _ _ _ apart guar => guar.compat apart)
      others loopPool_inStep not_mem_nil
  have silenced : Pool.InStep serveLoop LoopRely
      (fun place before after => LoopGuar case budget trusted deliveries place before after ∧
        (place = number → after.resumes = before.resumes)) reached := by
    intro place program there
    by_cases own : place = number
    · subst own
      have inside : place < pool.programs.length := by
        rw [← Pool.run_length pool first]
        exact (List.getElem?_eq_some_iff.mp there).1
      have waits : reached.programs[place]? = some pool.programs[place] :=
        Pool.run_waits (getElem?_eq_getElem inside) later
      obtain ⟨delivery, _, same⟩ := loopPool_program (getElem?_eq_getElem inside)
      rw [← Option.some.inj (waits.symm.trans there), same]
      have silent : Silent case budget trusted deliveries place (deliver case budget trusted place delivery)
          reached.state := silent_deliver noticed
      have quiet := silent.mono fun a b guar => And.intro guar.1 fun (_ : place = place) => guar.2
      exact Holds.bind (LoopRely.refl place) quiet fun _ _ _ _ _ => trivial
    · exact (ran.1 place program there).mono fun _ _ guar => ⟨guar, fun same => absurd same own⟩
  have keeps : ∀ place ∈ rest, ∀ a b, Unspent number a → LoopGuar case budget trusted deliveries place a b ∧
      (place = number → b.resumes = a.resumes) → Unspent number b := by
    intro place _ before after unspent guar
    by_cases own : place = number
    · rw [Unspent, guar.2 own]
      exact unspent
    · exact unspent.later (guar.1.compat (Ne.symm own))
  rw [afterLoop, run_append]
  exact (Pool.run_inStep (fun place => .refl place) (fun _ _ _ _ => .trans)
    (fun _ _ _ _ apart guar => guar.1.compat apart) keeps silenced ran.2).2

/-- Unless red deliveries spell one commit in two ways and the budget has room for both, the loop keeps its word. -/
theorem neverOverspends {task : CiTask}
    (spelled : OneSpelling case trusted deliveries ∨ budget.maxAttempts .ci ≤ 1) :
    NeverOverspends case budget trusted task deliveries where
  within schedule := (afterLoop_invariant task schedule).2.withinBudget
  commit schedule := (afterLoop_invariant task schedule).2.onePerCommit spelled
  rejection schedule := (afterLoop_invariant task schedule).2.onePerRejection
  stop _ _ _ noticed later := afterLoop_stopped noticed later

end

def failingAt (headSha : String) : LoopDelivery :=
  .check
    { input :=
        { headSha
          prNumbers := [7]
          prHeads := [⟨7, some headSha⟩]
          observedAt := some 0
          verdict := .failing
          appSlug := some "github-actions" }
      resolution := some ⟨some 7, .pullRequest⟩ }
    { authoringRun := some { id := "run", status := "completed" } }

theorem one_commit_resumed_once :
    NeverOverspends .ascii ⟨2, none⟩ ["github-actions"] {} [failingAt "ab", failingAt "ab"] := by
  refine neverOverspends (.inl ?_)
  intro first second readings readings' here there _ _ _
  simp only [failingAt, mem_cons, LoopDelivery.check.injEq, not_mem_nil, or_false, or_self] at here there
  rw [here.1, there.1]

/-- The second delivery spells the commit in capitals, so its claim has a key of its own. -/
theorem respelled_commit_resumed_twice :
    ¬ NeverOverspends .ascii ⟨2, none⟩ ["github-actions"] {} [failingAt "ab", failingAt "AB"] := by
  intro never
  have once := never.commit [0, 0, 0, 0, 0, 0, 0, 1, 1, 1, 1, 1, 1, 1]
  rw [OnePerCommit] at once
  exact absurd once (by decide +kernel)

end EverWorks.Ci
