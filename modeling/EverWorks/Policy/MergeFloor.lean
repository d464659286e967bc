import EverWorks.Policy.MergePolicy

/-!
`main` and `master` take no merge without a person's approval, whatever the layers say. `develop` and `stage` take one
when the layer in force turned the approval off and the effective policy agrees.
-/

namespace EverWorks.Policy
open Lib Lib.Layers List Option

def declared {α : Type} (field : MergePolicyOverride → Option α) (layers : List MergePolicyLayer) : Option α :=
  nearest (fun layer => field layer.override) (orderMergeLayers layers)

def humanScopeApproval (layers : List MergePolicyLayer) : Option Bool :=
  nearest (fun layer => layer.override.requireHumanApproval)
    ((orderMergeLayers layers).filter fun layer => isHumanScope layer.scope)

def narrowerApproval (layers : List MergePolicyLayer) : Option Bool :=
  nearest (fun layer => layer.override.requireHumanApproval)
    ((orderMergeLayers layers).filter fun layer => !isHumanScope layer.scope)

/-- Some Work or agent layer wants the approval. -/
def WithdrawnBelow (layers : List MergePolicyLayer) : Prop :=
  ∃ layer ∈ layers, isHumanScope layer.scope = false ∧ layer.override.requireHumanApproval = some true

section
variable {layers : List MergePolicyLayer}

theorem resolved_field {α : Type} (get : MergePolicy → α) (field : MergePolicyOverride → Option α)
    (overrides : ∀ policy override, get (applyOverride policy override) = (field override).getD (get policy)) :
    get (resolveMergePolicyChain layers).policy =
      (declared field layers).getD (get platformDefaultMergePolicy) :=
  foldl_getD (fun policy layer => overrides policy layer.override) _ _

theorem isHumanScope_of_rank {a b : MergePolicyScope} (le : a.rank ≤ b.rank) (human : isHumanScope b) :
    isHumanScope a := by
  cases a <;> cases b <;> revert le human <;> decide

theorem declared_approval :
    declared (·.requireHumanApproval) layers = (narrowerApproval layers).or (humanScopeApproval layers) := by
  rw [declared, orderMergeLayers, order_outer (fun layer : MergePolicyLayer => layer.scope.rank)
    (fun layer => isHumanScope layer.scope) (fun _ _ => isHumanScope_of_rank), nearest_append]
  rfl

theorem resolved_waiver :
    (resolveMergePolicyChain layers).humanScopeWaivesApproval = true ↔
      humanScopeApproval layers = some false ∧
        (resolveMergePolicyChain layers).policy.requireHumanApproval = false := by
  have fold : (orderMergeLayers layers).foldl (fun declared layer =>
      if isHumanScope layer.scope then layer.override.requireHumanApproval.or declared else declared) none =
        humanScopeApproval layers := by
    rw [← foldl_filter, foldl_or, or_none]
    rfl
  simp only [resolveMergePolicyChain, fold, Bool.and_eq_true, decide_eq_true_eq, Bool.not_eq_true']

theorem narrower_withdrawn (wanted : narrowerApproval layers = some true) : WithdrawnBelow layers := by
  obtain ⟨layer, inside, declares⟩ := nearest_mem wanted
  obtain ⟨inside, narrow⟩ := mem_filter.mp inside
  exact ⟨layer, (mem_order _).mp inside, by simpa using narrow, declares⟩

theorem withdrawn_narrower (withdrawn : WithdrawnBelow layers) : (narrowerApproval layers).isSome := by
  obtain ⟨layer, inside, narrow, declares⟩ := withdrawn
  exact nearest_isSome (mem_filter.mpr ⟨(mem_order _).mpr inside, by simp [narrow]⟩) (by simp [declares])

theorem waives_iff :
    (resolveMergePolicyChain layers).humanScopeWaivesApproval = true ↔
      humanScopeApproval layers = some false ∧ narrowerApproval layers ≠ some true := by
  rw [resolved_waiver, resolved_field MergePolicy.requireHumanApproval (·.requireHumanApproval) fun _ _ => rfl,
    declared_approval]
  refine and_congr_right fun inForce => ?_
  rw [inForce]
  rcases narrowerApproval layers with _ | _ | _ <;> simp

end

/-- The layer with `requireHumanApproval` changed to `false`. -/
def MergePolicyLayer.turnedOff (layer : MergePolicyLayer) : MergePolicyLayer :=
  { layer with policy := .object (setField layer.policy.ownFields "requireHumanApproval" (.bool false)) }

section
variable {layer : MergePolicyLayer} {before after : List MergePolicyLayer}

theorem turnedOff_override :
    layer.turnedOff.override = { layer.override with requireHumanApproval := some false } := by
  have read (key : String) : layer.turnedOff.policy.property key =
      if key = "requireHumanApproval" then .bool false else layer.policy.property key := by
    rw [MergePolicyLayer.turnedOff, JsValue.property, lookup_setField _ _ _ (by decide)]
    split
    · rfl
    · rw [← JsValue.property_ownFields, JsValue.property]
  simp only [MergePolicyLayer.override, sanitizeMergePolicyOverride, read]
  rfl

variable (layer before after) in
theorem ordered_turnedOff :
    ∃ outer inner, orderMergeLayers (before ++ layer :: after) = outer ++ layer :: inner ∧
      orderMergeLayers (before ++ layer.turnedOff :: after) = outer ++ layer.turnedOff :: inner := by
  obtain ⟨outer, inner, split⟩ :=
    order_split (fun layer : MergePolicyLayer => layer.scope.rank) layer.scope.rank before after
  exact ⟨outer, inner, split layer rfl, split layer.turnedOff rfl⟩

theorem declared_turnedOff {α : Type} {field : MergePolicyOverride → Option α}
    (other : field layer.turnedOff.override = field layer.override) :
    declared field (before ++ layer.turnedOff :: after) = declared field (before ++ layer :: after) := by
  obtain ⟨outer, inner, was, now⟩ := ordered_turnedOff layer before after
  simp only [declared, was, now, nearest_append, nearest_cons, other]

theorem humanScopeApproval_turnedOff (narrow : isHumanScope layer.scope = false) :
    humanScopeApproval (before ++ layer.turnedOff :: after) = humanScopeApproval (before ++ layer :: after) := by
  obtain ⟨outer, inner, was, now⟩ := ordered_turnedOff layer before after
  have narrow' : isHumanScope layer.turnedOff.scope = false := narrow
  simp only [humanScopeApproval, was, now, filter_append]
  rw [filter_cons_of_neg (by simpa using narrow'), filter_cons_of_neg (by simpa using narrow)]

end

theorem exists_turnedOff {layers : List MergePolicyLayer} (wanted : narrowerApproval layers = some true) :
    ∃ before layer after, layers = before ++ layer :: after ∧ isHumanScope layer.scope = false ∧
      narrowerApproval (before ++ layer.turnedOff :: after) = some false := by
  obtain ⟨outer, layer, inner, split, declares, silent⟩ := nearest_split wanted
  obtain ⟨_, tail, whole, rfl, front⟩ := filter_eq_append_iff.mp split
  obtain ⟨skipped, rest, rfl, quiet, narrow, rfl⟩ := filter_eq_cons_iff.mp front
  rw [← append_assoc] at whole
  obtain ⟨before, after, rfl, place⟩ := order_unsplit _ whole
  refine ⟨before, layer, after, rfl, by simpa using narrow, ?_⟩
  rw [narrowerApproval, orderMergeLayers, place layer.turnedOff rfl, filter_append,
    filter_cons_of_pos (by simpa [MergePolicyLayer.turnedOff] using narrow), nearest_append, nearest_cons,
    silent, turnedOff_override]
  rfl

section
variable {case : JsString.LowerCase}

theorem normalizeBranch_blank {ref : String} (blank : JsString.trim ref = "") : normalizeBranch case ref = "" := by
  have stripped : stripHeads "" = "" := by decide
  rw [normalizeBranch, blank, stripped, ← String.toList_inj, case.lower_ascii "" (by simp)]
  rfl

theorem normalizeFloorRef_eq_some {ref : Option String} {branch : String} :
    normalizeFloorRef case ref = some branch ↔
      ∃ name, ref = some name ∧ normalizeBranch case name = branch ∧ branch ≠ "" := by
  cases ref with
  | none => simp [normalizeFloorRef]
  | some name =>
    simp only [normalizeFloorRef, map_some, filter_eq_some_iff, some.injEq,
      decide_eq_true_eq, exists_eq_left']

variable {ctx : MergeDecisionContext}

theorem evaluateAgentMerge_allowed :
    (evaluateAgentMerge case ctx).allowed = true ↔
      refuseDisabled ctx = none ∧ refuseProtected case ctx = none ∧ refuseFloor case ctx = none ∧
        refuseMethod ctx = none ∧ refuseGate ctx = none ∧ refuseUnapproved ctx = none := by
  have unrefused : (evaluateAgentMerge case ctx).allowed = true ↔ refusal case ctx = none := by
    rw [evaluateAgentMerge]
    rcases refusal case ctx with _ | ⟨code, reason⟩ <;> simp
  rw [unrefused, refusal]
  simp only [or_eq_none_iff]

theorem refuseDisabled_none :
    refuseDisabled ctx = none ↔ ctx.policy.allowAgentMerge = true := by
  rw [refuseDisabled]
  split <;> simp [*]

theorem refuseMethod_none :
    refuseMethod ctx = none ↔ ctx.mergeMethod.getD .merge ∈ ctx.policy.allowedMergeMethods := by
  rw [refuseMethod]
  split <;> simp [*]

theorem refuseGate_none :
    refuseGate ctx = none ↔ (ctx.policy.requireGreenGate = true → ctx.gateStatus = some .green) := by
  rw [refuseGate]
  split
  · rename_i closed
    simpa using closed
  · rename_i opened
    simpa using opened

theorem refuseUnapproved_none (unapproved : ctx.humanApproved = false) :
    refuseUnapproved ctx = none ↔ ctx.policy.requireHumanApproval = false := by
  rw [refuseUnapproved, unapproved]
  cases ctx.policy.requireHumanApproval <;> simp

theorem refuseProtected_none {branch : String}
    (target : normalizeFloorRef case ctx.targetBranch = some branch) :
    refuseProtected case ctx = none ↔
      ∀ name ∈ ctx.policy.protectedBranches, normalizeBranch case name ≠ branch := by
  obtain ⟨ref, known, rfl, named⟩ := normalizeFloorRef_eq_some.mp target
  have solid : ctx.target ≠ "" := by
    rw [MergeDecisionContext.target, known]
    exact fun blank => named (normalizeBranch_blank blank)
  have unmatched : protectedMatch case ctx = none ↔
      ∀ name ∈ ctx.policy.protectedBranches, normalizeBranch case name ≠ normalizeBranch case ref := by
    rw [protectedMatch, known, getD_some]
    constructor
    · intro quiet name inside same
      cases found : ctx.policy.protectedBranches.find? fun branch =>
          normalizeBranch case branch = normalizeBranch case ref with
      | none => simpa [same] using find?_eq_none.mp found name inside
      | some matched =>
        have equal : normalizeBranch case matched = normalizeBranch case ref := by
          simpa using find?_some found
        have full : matched ≠ "" := by
          rintro rfl
          exact named (equal ▸ normalizeBranch_blank (by decide))
        rw [found, filter_some, if_pos (by simpa using full)] at quiet
        cases quiet
    · intro unprotected
      rw [find?_eq_none.mpr (by simpa using unprotected), filter_none]
  rw [refuseProtected, ← unmatched]
  cases branches : ctx.policy.protectedBranches with
  | nil => simp [protectedMatch, branches]
  | cons name rest => simp [solid]

theorem refuseFloor_none {branch : String} (unapproved : ctx.humanApproved = false)
    (target : normalizeFloorRef case ctx.targetBranch = some branch)
    (floor : branch ∈ mergePolicyProtectedBranchFloor) :
    refuseFloor case ctx = none ↔
      branch ∉ mergePolicyAlwaysApprovedBranches ∧ ctx.humanScopeWaivesApproval = true := by
  have needs : mergeTargetNeedsFloorApproval case ctx.targetBranch ctx.humanScopeWaivesApproval =
      (decide (branch ∈ mergePolicyAlwaysApprovedBranches) || !ctx.humanScopeWaivesApproval) := by
    simp only [mergeTargetNeedsFloorApproval, target, if_neg (not_not_intro floor)]
    by_cases always : branch ∈ mergePolicyAlwaysApprovedBranches
    · rw [if_pos always, decide_eq_true always, Bool.true_or]
    · rw [if_neg always, decide_eq_false always, Bool.false_or]
  have refused : refuseFloor case ctx = none ↔
      (decide (branch ∈ mergePolicyAlwaysApprovedBranches) || !ctx.humanScopeWaivesApproval) = false := by
    rw [refuseFloor, unapproved, needs, Bool.not_false, Bool.true_and]
    generalize (decide (branch ∈ mergePolicyAlwaysApprovedBranches) || !ctx.humanScopeWaivesApproval) = needed
    cases needed
    · simp
    · rw [if_pos rfl]
      split <;> simp
  rw [refused, Bool.or_eq_false_iff, decide_eq_false_iff_not, Bool.not_eq_false']

end

/-- Nothing but the floor and the approval stands against the merge. -/
structure OtherwiseAllowed (case : JsString.LowerCase) (layers : List MergePolicyLayer)
    (input : MergePolicyDecisionInput) (branch : String) : Prop where
  enabled : (declared (·.allowAgentMerge) layers).getD platformDefaultMergePolicy.allowAgentMerge = true
  unprotected : ∀ name ∈
    (declared (·.protectedBranches) layers).getD platformDefaultMergePolicy.protectedBranches,
      normalizeBranch case name ≠ branch
  method : input.mergeMethod.getD .merge ∈
    (declared (·.allowedMergeMethods) layers).getD platformDefaultMergePolicy.allowedMergeMethods
  gate : (declared (·.requireGreenGate) layers).getD platformDefaultMergePolicy.requireGreenGate = true →
    input.gateStatus = some .green

section
variable {case : JsString.LowerCase} {layers : List MergePolicyLayer} {input : MergePolicyDecisionInput}
  {branch : String}

theorem canAgentMerge_allowed (unapproved : input.humanApproved = false)
    (target : normalizeFloorRef case input.targetBranch = some branch)
    (floor : branch ∈ mergePolicyProtectedBranchFloor) :
    (canAgentMerge case layers input).allowed = true ↔
      OtherwiseAllowed case layers input branch ∧ branch ∉ mergePolicyAlwaysApprovedBranches ∧
        humanScopeApproval layers = some false ∧ narrowerApproval layers ≠ some true := by
  have enabled : (resolveMergePolicyChain layers).policy.allowAgentMerge = _ :=
    resolved_field MergePolicy.allowAgentMerge (·.allowAgentMerge) fun _ _ => rfl
  have branches : (resolveMergePolicyChain layers).policy.protectedBranches = _ :=
    resolved_field MergePolicy.protectedBranches (·.protectedBranches) fun _ _ => rfl
  have methods : (resolveMergePolicyChain layers).policy.allowedMergeMethods = _ :=
    resolved_field MergePolicy.allowedMergeMethods (·.allowedMergeMethods) fun _ _ => rfl
  have gate : (resolveMergePolicyChain layers).policy.requireGreenGate = _ :=
    resolved_field MergePolicy.requireGreenGate (·.requireGreenGate) fun _ _ => rfl
  rw [canAgentMerge, evaluateAgentMerge_allowed, refuseDisabled_none, refuseProtected_none target,
    refuseFloor_none unapproved target floor, refuseMethod_none, refuseGate_none, refuseUnapproved_none unapproved,
    enabled, branches, methods, gate]
  constructor
  · rintro ⟨on, unprotected, ⟨named, waived⟩, method, green, -⟩
    exact ⟨⟨on, unprotected, method, green⟩, named, waives_iff.mp waived⟩
  · rintro ⟨⟨on, unprotected, method, green⟩, named, waiver⟩
    have waived := waives_iff.mpr waiver
    exact ⟨on, unprotected, ⟨named, waived⟩, method, green, (resolved_waiver.mp waived).2⟩

theorem otherwiseAllowed_turnedOff {layer : MergePolicyLayer} {before after : List MergePolicyLayer} :
    OtherwiseAllowed case (before ++ layer.turnedOff :: after) input branch ↔
      OtherwiseAllowed case (before ++ layer :: after) input branch := by
  have enabled : declared (·.allowAgentMerge) (before ++ layer.turnedOff :: after) = _ :=
    declared_turnedOff (by rw [turnedOff_override])
  have branches : declared (·.protectedBranches) (before ++ layer.turnedOff :: after) = _ :=
    declared_turnedOff (by rw [turnedOff_override])
  have methods : declared (·.allowedMergeMethods) (before ++ layer.turnedOff :: after) = _ :=
    declared_turnedOff (by rw [turnedOff_override])
  have gate : declared (·.requireGreenGate) (before ++ layer.turnedOff :: after) = _ :=
    declared_turnedOff (by rw [turnedOff_override])
  constructor
  · rintro ⟨on, unprotected, method, green⟩
    rw [enabled] at on
    rw [branches] at unprotected
    rw [methods] at method
    rw [gate] at green
    exact ⟨on, unprotected, method, green⟩
  · rintro ⟨on, unprotected, method, green⟩
    rw [← enabled] at on
    rw [← branches] at unprotected
    rw [← methods] at method
    rw [← gate] at green
    exact ⟨on, unprotected, method, green⟩

end

/-- Without an approval nothing lands on `main` or `master`, what lands on `develop` or `stage` lands by the
word of the tenant or organization, and no layer below it opens a way by turning its approval off. -/
structure FloorStands (case : JsString.LowerCase) (layers : List MergePolicyLayer)
    (input : MergePolicyDecisionInput) : Prop where
  always : ∀ branch ∈ mergePolicyAlwaysApprovedBranches,
    normalizeFloorRef case input.targetBranch = some branch → (canAgentMerge case layers input).allowed = false
  waived : ∀ branch ∈ mergePolicyProtectedBranchFloor, branch ∉ mergePolicyAlwaysApprovedBranches →
    normalizeFloorRef case input.targetBranch = some branch → (canAgentMerge case layers input).allowed = true →
      humanScopeApproval layers = some false ∧ ¬ WithdrawnBelow layers
  below : ∀ before layer after, layers = before ++ layer :: after → isHumanScope layer.scope = false →
    ∀ branch ∈ mergePolicyProtectedBranchFloor, normalizeFloorRef case input.targetBranch = some branch →
      (canAgentMerge case layers input).allowed = false →
        (canAgentMerge case (before ++ layer.turnedOff :: after) input).allowed = false

/-- The merge waits only for an approval that the layer in force above waives and a layer below wants. -/
def OpenFromBelow (case : JsString.LowerCase) (layers : List MergePolicyLayer)
    (input : MergePolicyDecisionInput) : Prop :=
  ∃ branch ∈ mergePolicyProtectedBranchFloor, branch ∉ mergePolicyAlwaysApprovedBranches ∧
    normalizeFloorRef case input.targetBranch = some branch ∧ OtherwiseAllowed case layers input branch ∧
      humanScopeApproval layers = some false ∧ WithdrawnBelow layers

section
variable {case : JsString.LowerCase} {layers : List MergePolicyLayer} {input : MergePolicyDecisionInput}

theorem always_in_floor {branch : String} (always : branch ∈ mergePolicyAlwaysApprovedBranches) :
    branch ∈ mergePolicyProtectedBranchFloor := by
  revert branch
  decide

theorem not_open_of_stands (unapproved : input.humanApproved = false) (stands : FloorStands case layers input) :
    ¬ OpenFromBelow case layers input := by
  rintro ⟨branch, floor, named, target, allowed, inForce, withdrawn⟩
  obtain ⟨word, lastWord⟩ := isSome_iff_exists.mp (withdrawn_narrower withdrawn)
  cases word with
  | false =>
    -- another layer below has the last word, and lets the merge through over the withdrawal
    have through : (canAgentMerge case layers input).allowed = true :=
      (canAgentMerge_allowed unapproved target floor).mpr ⟨allowed, named, inForce, by simp [lastWord]⟩
    exact (stands.waived branch floor named target through).2 withdrawn
  | true =>
    -- the layer that has the last word can take it back
    obtain ⟨before, layer, after, rfl, narrow, turned⟩ := exists_turnedOff lastWord
    have refused : (canAgentMerge case (before ++ layer :: after) input).allowed = false := by
      rw [← Bool.not_eq_true, canAgentMerge_allowed unapproved target floor]
      exact fun passed => passed.2.2.2 lastWord
    have passed : (canAgentMerge case (before ++ layer.turnedOff :: after) input).allowed = true := by
      rw [canAgentMerge_allowed unapproved target floor, otherwiseAllowed_turnedOff,
        humanScopeApproval_turnedOff narrow]
      exact ⟨allowed, named, inForce, by simp [turned]⟩
    rw [stands.below before layer after rfl narrow branch floor target refused] at passed
    cases passed

theorem stands_of_not_open (unapproved : input.humanApproved = false)
    (closed : ¬ OpenFromBelow case layers input) : FloorStands case layers input where
  always branch always target := by
    rw [← Bool.not_eq_true, canAgentMerge_allowed unapproved target (always_in_floor always)]
    exact fun passed => passed.2.1 always
  waived branch floor named target passed := by
    obtain ⟨allowed, -, inForce, -⟩ := (canAgentMerge_allowed unapproved target floor).mp passed
    exact ⟨inForce, fun withdrawn => closed ⟨branch, floor, named, target, allowed, inForce, withdrawn⟩⟩
  below before layer after split narrow branch floor target refused := by
    subst split
    rw [← Bool.not_eq_true] at refused ⊢
    intro passed
    rw [canAgentMerge_allowed unapproved target floor, otherwiseAllowed_turnedOff,
      humanScopeApproval_turnedOff narrow] at passed
    obtain ⟨allowed, named, inForce, -⟩ := passed
    refine refused ((canAgentMerge_allowed unapproved target floor).mpr ⟨allowed, named, inForce, fun wanted => ?_⟩)
    exact closed ⟨branch, floor, named, target, allowed, inForce, narrower_withdrawn wanted⟩

/-- The floor stands exactly where no layer below wants an approval that the layer in force above waives. -/
theorem floor_stands_iff (unapproved : input.humanApproved = false) :
    FloorStands case layers input ↔ ¬ OpenFromBelow case layers input :=
  ⟨not_open_of_stands unapproved, stands_of_not_open unapproved⟩

theorem floor_stands_by_default : FloorStands .ascii [] { targetBranch := some "develop" } :=
  (floor_stands_iff rfl).mpr fun ⟨_, _, _, _, _, inForce, _⟩ => by cases inForce

end

/-- The organization waives the approval, the Work wants it, and the Agent lets its own merge through. -/
theorem agent_lifts_floor :
    ¬ FloorStands .ascii
      [⟨.organization, "o", .object [("allowAgentMerge", .bool true), ("requireGreenGate", .bool false),
          ("requireHumanApproval", .bool false), ("allowedMergeMethods", .array [.string "merge"]),
          ("protectedBranches", .array [])]⟩,
        ⟨.work, "w", .object [("requireHumanApproval", .bool true)]⟩,
        ⟨.agent, "a", .object [("requireHumanApproval", .bool false)]⟩]
      { targetBranch := some "develop" } := by
  intro stands
  have withdrawn := (stands.waived "develop" (by decide) (by decide) (by decide) (by decide)).2
  exact withdrawn ⟨_, mem_cons_of_mem _ mem_cons_self, rfl, by decide⟩

end EverWorks.Policy
