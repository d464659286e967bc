import EverWorks.Lib.JsValue
import EverWorks.Lib.Layers

/-!
Whether an agent may land a pull request: each scope stores a partial policy, `resolveMergePolicyChain`
folds the scopes' rows over the platform default field by field, and `evaluateAgentMerge` answers for one
merge.
-/

namespace EverWorks.Policy
open Lib

inductive MergeMethod where
  | merge | squash | rebase
  deriving DecidableEq

def MergeMethod.text : MergeMethod → String
  | merge => "merge"
  | squash => "squash"
  | rebase => "rebase"

inductive GateStatus where
  | green | red | skipped | none
  deriving DecidableEq

def GateStatus.text : GateStatus → String
  | green => "green"
  | red => "red"
  | skipped => "skipped"
  | none => "none"

structure MergePolicy where
  allowAgentMerge : Bool
  requireGreenGate : Bool
  requireHumanApproval : Bool
  allowedMergeMethods : List MergeMethod
  protectedBranches : List String
  deriving DecidableEq

inductive MergePolicyScope where
  | tenant | organization | work | agent
  deriving DecidableEq

def mergePolicyScopePrecedence : List MergePolicyScope := [.tenant, .organization, .work, .agent]

def MergePolicyScope.rank (scope : MergePolicyScope) : Nat :=
  mergePolicyScopePrecedence.idxOf scope

structure MergePolicyOverride where
  allowAgentMerge : Option Bool := none
  requireGreenGate : Option Bool := none
  requireHumanApproval : Option Bool := none
  allowedMergeMethods : Option (List MergeMethod) := none
  protectedBranches : Option (List String) := none
  deriving DecidableEq

/-- `default` or one of the scopes. -/
inductive MergePolicySource where
  | default
  | scope (scope : MergePolicyScope)
  deriving DecidableEq

def MergePolicySource.text : MergePolicySource → String
  | default => "default"
  | scope .tenant => "tenant"
  | scope .organization => "organization"
  | scope .work => "work"
  | scope .agent => "agent"

def platformDefaultMergePolicy : MergePolicy where
  allowAgentMerge := false
  requireGreenGate := true
  requireHumanApproval := true
  allowedMergeMethods := [.squash]
  protectedBranches := ["main", "master", "develop", "stage"]

def mergePolicyProtectedBranchFloor : List String := ["main", "master", "develop", "stage"]

def mergePolicyAlwaysApprovedBranches : List String := ["main", "master"]

/-- `replace(/^refs\/heads\//i, '')`. Without the `u` flag the `i` flag folds ASCII letters alone here. -/
def stripHeads (ref : String) : String :=
  if (ref.toList.take 11).map Char.toLower = "refs/heads/".toList then String.ofList (ref.toList.drop 11)
  else ref

section
variable (case : JsString.LowerCase)

def normalizeBranch (ref : String) : String :=
  case.lower (stripHeads (JsString.trim ref))

def normalizeFloorRef (ref : Option String) : Option String :=
  (ref.map (normalizeBranch case)).filter (· ≠ "")

def mergeTargetNeedsFloorApproval (ref : Option String) (humanScopeWaivesApproval : Bool) : Bool :=
  match normalizeFloorRef case ref with
  | none => true
  | some normalized =>
    if normalized ∈ mergePolicyAlwaysApprovedBranches then true
    else if normalized ∉ mergePolicyProtectedBranchFloor then false
    else !humanScopeWaivesApproval

end

inductive MergePolicyField where
  | allowAgentMerge | requireGreenGate | requireHumanApproval | allowedMergeMethods | protectedBranches
  deriving DecidableEq

def mergePolicyFields : List MergePolicyField :=
  [.allowAgentMerge, .requireGreenGate, .requireHumanApproval, .allowedMergeMethods, .protectedBranches]

def sanitizeFlag : JsValue → Option Bool
  | .bool value => some value
  | _ => none

def mergeMethod? : JsValue → Option MergeMethod
  | .string "merge" => some .merge
  | .string "squash" => some .squash
  | .string "rebase" => some .rebase
  | _ => none

def sanitizeMergeMethods : JsValue → Option (List MergeMethod)
  | .array items =>
    let methods := items.filterMap mergeMethod?
    if !methods.isEmpty || items.isEmpty then some methods.eraseDups else none
  | _ => none

def sanitizeBranches : JsValue → Option (List String)
  | .array items =>
    let branches := ((items.filterMap JsValue.text?).map JsString.trim).filter (· ≠ "")
    if !branches.isEmpty || items.isEmpty then some branches.eraseDups else none
  | _ => none

def sanitizeMergePolicyOverride (raw : JsValue) : MergePolicyOverride where
  allowAgentMerge := sanitizeFlag (raw.property "allowAgentMerge")
  requireGreenGate := sanitizeFlag (raw.property "requireGreenGate")
  requireHumanApproval := sanitizeFlag (raw.property "requireHumanApproval")
  allowedMergeMethods := sanitizeMergeMethods (raw.property "allowedMergeMethods")
  protectedBranches := sanitizeBranches (raw.property "protectedBranches")

def MergePolicyOverride.declares (override : MergePolicyOverride) : MergePolicyField → Bool
  | .allowAgentMerge => override.allowAgentMerge.isSome
  | .requireGreenGate => override.requireGreenGate.isSome
  | .requireHumanApproval => override.requireHumanApproval.isSome
  | .allowedMergeMethods => override.allowedMergeMethods.isSome
  | .protectedBranches => override.protectedBranches.isSome

/-- One layer of the chain; `policy` is what the row stores, which only its type promises to be an
override. -/
structure MergePolicyLayer where
  scope : MergePolicyScope
  id : String
  policy : JsValue

def MergePolicyLayer.override (layer : MergePolicyLayer) : MergePolicyOverride :=
  sanitizeMergePolicyOverride layer.policy

structure MergePolicyChainEntry where
  scope : MergePolicySource
  id : Option String
  fields : List MergePolicyField
  deriving DecidableEq

structure ResolvedMergePolicy where
  policy : MergePolicy
  source : MergePolicySource
  chain : List MergePolicyChainEntry
  humanScopeWaivesApproval : Bool
  deriving DecidableEq

/-- `sort` keeps the order of layers of one scope. -/
def orderMergeLayers (layers : List MergePolicyLayer) : List MergePolicyLayer :=
  Layers.order (fun layer => layer.scope.rank) layers

def applyOverride (policy : MergePolicy) (override : MergePolicyOverride) : MergePolicy where
  allowAgentMerge := override.allowAgentMerge.getD policy.allowAgentMerge
  requireGreenGate := override.requireGreenGate.getD policy.requireGreenGate
  requireHumanApproval := override.requireHumanApproval.getD policy.requireHumanApproval
  allowedMergeMethods := override.allowedMergeMethods.getD policy.allowedMergeMethods
  protectedBranches := override.protectedBranches.getD policy.protectedBranches

def fieldOwner (ordered : List MergePolicyLayer) (field : MergePolicyField) : Option Nat :=
  (ordered.zipIdx.filter fun entry => entry.1.override.declares field).getLast?.map Prod.snd

def fieldsOwnedBy (ordered : List MergePolicyLayer) (index : Option Nat) : List MergePolicyField :=
  mergePolicyFields.filter fun field => fieldOwner ordered field = index

def isHumanScope (scope : MergePolicyScope) : Bool :=
  scope = .tenant || scope = .organization

def resolveMergePolicyChain (layers : List MergePolicyLayer) : ResolvedMergePolicy :=
  let ordered := orderMergeLayers layers
  let policy := ordered.foldl (fun policy layer => applyOverride policy layer.override)
    platformDefaultMergePolicy
  let chain : List MergePolicyChainEntry :=
    ⟨.default, none, fieldsOwnedBy ordered none⟩ ::
      ordered.zipIdx.map fun entry =>
        ⟨.scope entry.1.scope, some entry.1.id, fieldsOwnedBy ordered (some entry.2)⟩
  let source := chain.foldl (fun source entry => if entry.fields.isEmpty then source else entry.scope)
    MergePolicySource.default
  let humanScopeApproval := ordered.foldl (fun declared layer =>
    if isHumanScope layer.scope then layer.override.requireHumanApproval.or declared else declared) none
  { policy, source, chain
    humanScopeWaivesApproval := humanScopeApproval = some false && !policy.requireHumanApproval }

inductive MergeRefusalCode where
  | agentMergeDisabled | protectedBranch | targetBranchUnknown | mergeMethodNotAllowed | gateNotGreen
  | humanApprovalRequired
  deriving DecidableEq

structure MergeDecision where
  allowed : Bool
  reason : Option String := none
  code : Option MergeRefusalCode := none
  source : Option MergePolicySource := none
  deriving DecidableEq

structure MergeDecisionContext where
  policy : MergePolicy
  source : Option MergePolicySource := none
  gateStatus : Option GateStatus := none
  humanApproved : Bool := false
  targetBranch : Option String := none
  humanScopeWaivesApproval : Bool := false
  mergeMethod : Option MergeMethod := none

abbrev MergeRefusal := MergeRefusalCode × String

def MergeDecisionContext.target (ctx : MergeDecisionContext) : String :=
  (ctx.targetBranch.map JsString.trim).getD ""

def refuseDisabled (ctx : MergeDecisionContext) : Option MergeRefusal :=
  if ctx.policy.allowAgentMerge then none
  else some (.agentMergeDisabled, "Agent merges are disabled by the effective merge policy" ++
    (match ctx.source with
      | some source => " (from " ++ source.text ++ " scope)"
      | none => "") ++
    ". Enable allowAgentMerge at the tenant, organization, Work or Agent scope to allow it.")

section
variable (case : JsString.LowerCase)

/-- The branch of the policy's list that the target is; an empty one is falsy and protects nothing. -/
def protectedMatch (ctx : MergeDecisionContext) : Option String :=
  (ctx.policy.protectedBranches.find? fun branch =>
    normalizeBranch case branch = normalizeBranch case (ctx.targetBranch.getD "")).filter (· ≠ "")

def refuseProtected (ctx : MergeDecisionContext) : Option MergeRefusal :=
  if ctx.policy.protectedBranches.isEmpty then none
  else if ctx.target = "" then
    some (.targetBranchUnknown,
      "The pull request target branch could not be determined, and the merge policy protects " ++
        toString ctx.policy.protectedBranches.length ++
        " branch(es) — refusing rather than merging blind.")
  else
    (protectedMatch case ctx).map fun branch => (.protectedBranch, "Branch '" ++ branch ++
      "' is protected by the effective merge policy — an agent may not merge into it.")

def refuseFloor (ctx : MergeDecisionContext) : Option MergeRefusal :=
  if !ctx.humanApproved &&
      mergeTargetNeedsFloorApproval case ctx.targetBranch ctx.humanScopeWaivesApproval then
    if ctx.target ≠ "" then
      some (.humanApprovalRequired, "Branch '" ++ ctx.target ++
        "' is on the platform's protected-branch floor (" ++
        String.intercalate ", " mergePolicyProtectedBranchFloor ++
        "). A scope may let agents merge into it, but only with a recorded human approval.")
    else
      some (.targetBranchUnknown,
        "The pull request target branch could not be determined, and it may be one of the " ++
          "platform's protected-branch floor — refusing without a recorded human approval.")
  else none

end

def refuseMethod (ctx : MergeDecisionContext) : Option MergeRefusal :=
  let method := ctx.mergeMethod.getD .merge
  let joined := String.intercalate ", " (ctx.policy.allowedMergeMethods.map MergeMethod.text)
  if method ∈ ctx.policy.allowedMergeMethods then none
  else some (.mergeMethodNotAllowed, "Merge method '" ++ method.text ++
    "' is not allowed by the effective merge policy (allowed: " ++
    (if joined = "" then "none" else joined) ++ ").")

def refuseGate (ctx : MergeDecisionContext) : Option MergeRefusal :=
  if ctx.policy.requireGreenGate && ctx.gateStatus ≠ some .green then
    some (.gateNotGreen,
      "The effective merge policy requires a green quality gate; the current gate status is '" ++
        (ctx.gateStatus.map GateStatus.text).getD "unknown" ++ "'.")
  else none

def refuseUnapproved (ctx : MergeDecisionContext) : Option MergeRefusal :=
  if ctx.policy.requireHumanApproval && !ctx.humanApproved then
    some (.humanApprovalRequired,
      "The effective merge policy requires a human approval before an agent may merge.")
  else none

def refusal (case : JsString.LowerCase) (ctx : MergeDecisionContext) : Option MergeRefusal :=
  (refuseDisabled ctx).or <| (refuseProtected case ctx).or <| (refuseFloor case ctx).or <|
    (refuseMethod ctx).or <| (refuseGate ctx).or <| refuseUnapproved ctx

def evaluateAgentMerge (case : JsString.LowerCase) (ctx : MergeDecisionContext) : MergeDecision :=
  match refusal case ctx with
  | some (code, reason) =>
    { allowed := false, code := some code, reason := some reason, source := ctx.source }
  | none => { allowed := true, source := ctx.source }

/-- What is asked about one merge. -/
structure MergePolicyDecisionInput where
  gateStatus : Option GateStatus := none
  humanApproved : Bool := false
  targetBranch : Option String := none
  mergeMethod : Option MergeMethod := none

def canAgentMerge (case : JsString.LowerCase) (layers : List MergePolicyLayer)
    (input : MergePolicyDecisionInput) : MergeDecision :=
  let resolved := resolveMergePolicyChain layers
  evaluateAgentMerge case
    { policy := resolved.policy
      source := some resolved.source
      humanScopeWaivesApproval := resolved.humanScopeWaivesApproval
      gateStatus := input.gateStatus
      humanApproved := input.humanApproved
      targetBranch := input.targetBranch
      mergeMethod := input.mergeMethod }

end EverWorks.Policy
