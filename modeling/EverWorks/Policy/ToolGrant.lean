import EverWorks.Lib.JsValue
import Mathlib.Data.List.Sort

/-!
Which tools an agent may call: each scope stores allow and deny patterns, `resolveToolGrantChain` folds
the scopes' rows over the platform default, and `decideToolGrant` answers for one tool name.
-/

namespace EverWorks.Policy
open Lib

inductive ToolGrantScope where
  | tenant | organization | work | agent
  deriving DecidableEq

def toolGrantScopePrecedence : List ToolGrantScope := [.tenant, .organization, .work, .agent]

def ToolGrantScope.rank (scope : ToolGrantScope) : Nat :=
  toolGrantScopePrecedence.idxOf scope

/-- `default` or one of the scopes. -/
inductive ToolGrantSource where
  | default
  | scope (scope : ToolGrantScope)
  deriving DecidableEq

structure ToolGrantOverride where
  allow : Option (List String) := none
  deny : Option (List String) := none
  deriving DecidableEq

structure ToolGrantMatrix where
  allow : List String
  deny : List String
  deriving DecidableEq

def platformDefaultToolGrant : ToolGrantMatrix := ⟨["*"], []⟩

structure ToolGrantChainEntry where
  scope : ToolGrantSource
  id : Option String
  allow : List String := []
  deny : List String := []
  rejected : List String := []
  deriving DecidableEq

structure ResolvedToolGrants where
  matrix : ToolGrantMatrix
  source : ToolGrantSource
  chain : List ToolGrantChainEntry
  deriving DecidableEq

inductive ToolGrantDecisionCode where
  | toolDenied | toolNotGranted | toolNameInvalid
  deriving DecidableEq

structure ToolGrantDecision where
  allowed : Bool
  toolName : String
  source : ToolGrantSource
  code : Option ToolGrantDecisionCode := none
  reason : Option String := none
  deriving DecidableEq

/-- One layer of the chain; `grant` is what the row stores, which only its type promises to be an
override. -/
structure ToolGrantLayer where
  scope : ToolGrantScope
  id : String
  grant : JsValue

def isToolNameChar (c : Char) : Bool :=
  c.isAlphanum || c = '_' || c = '.' || c = ':' || c = '-'

/-- `TOOL_GRANT_PATTERN`. -/
def isToolGrantPattern (text : String) : Bool :=
  let body := if JsString.endsWith text "*" then text.toList.dropLast else text.toList
  text = "*" || (1 ≤ body.length && body.length ≤ 120 && body.all isToolNameChar)

section
variable (case : JsString.LowerCase)

def normalize (text : String) : String :=
  case.lower (JsString.trim text)

def matchesToolPattern (pattern toolName : String) : Bool :=
  let p := normalize case pattern
  let name := normalize case toolName
  if p = "" || name = "" then false
  else if p = "*" then true
  else if JsString.endsWith p "*" then JsString.startsWith name (String.ofList p.toList.dropLast)
  else p = name

def matchesAnyToolPattern (patterns : List String) (toolName : String) : Bool :=
  patterns.any fun pattern => matchesToolPattern case pattern toolName

def toolPatternCovers (outer inner : String) : Bool :=
  let o := normalize case outer
  let i := normalize case inner
  if o = "" || i = "" then false
  else if o = "*" then true
  else if JsString.endsWith o "*" then JsString.startsWith i (String.ofList o.toList.dropLast)
  else o = i

end

def sanitizePatterns (value : JsValue) : Option (List String) :=
  match value with
  | .array items =>
    let patterns := ((items.filterMap JsValue.text?).map JsString.trim).filter isToolGrantPattern
    if !patterns.isEmpty || items.isEmpty then some patterns.eraseDups else none
  | _ => none

def sanitizeToolGrantOverride (raw : JsValue) : ToolGrantOverride where
  allow := sanitizePatterns (raw.property "allow")
  deny := sanitizePatterns (raw.property "deny")

section
variable (case : JsString.LowerCase)

structure NarrowedPatterns where
  kept : List String
  rejected : List String

def narrowAllowPatterns (inherited requested : List String) : NarrowedPatterns :=
  let covered := fun pattern => inherited.any fun outer => toolPatternCovers case outer pattern
  ⟨(requested.filter covered).eraseDups, (requested.filter fun pattern => !covered pattern).eraseDups⟩

def applyLayer (resolved : ResolvedToolGrants) (layer : ToolGrantLayer) : ResolvedToolGrants :=
  let override := sanitizeToolGrantOverride layer.grant
  let narrowed := override.allow.map (narrowAllowPatterns case resolved.matrix.allow)
  let kept := narrowed.map NarrowedPatterns.kept
  let denied := override.deny.getD []
  { matrix :=
      { allow := kept.getD resolved.matrix.allow
        deny := if denied.isEmpty then resolved.matrix.deny
          else (resolved.matrix.deny ++ denied).eraseDups }
    source := if narrowed.isSome || !denied.isEmpty then .scope layer.scope else resolved.source
    chain := resolved.chain ++
      [{ scope := .scope layer.scope
         id := some layer.id
         allow := kept.getD []
         deny := denied
         rejected := (narrowed.map NarrowedPatterns.rejected).getD [] }] }

def defaultToolGrants : ResolvedToolGrants where
  matrix := platformDefaultToolGrant
  source := .default
  chain := [{ scope := .default, id := none, allow := platformDefaultToolGrant.allow
              deny := platformDefaultToolGrant.deny }]

/-- `sort` keeps the order of layers of one scope. -/
def orderLayers (layers : List ToolGrantLayer) : List ToolGrantLayer :=
  layers.insertionSort fun a b => a.scope.rank ≤ b.scope.rank

def resolveToolGrantChain (layers : List ToolGrantLayer) : ResolvedToolGrants :=
  (orderLayers layers).foldl (applyLayer case) defaultToolGrants

structure ToolGrantDecisionContext where
  matrix : ToolGrantMatrix
  chain : Option (List ToolGrantChainEntry) := none

def attributeTo (chain : Option (List ToolGrantChainEntry)) (toolName : String)
    (field : ToolGrantChainEntry → List String) : ToolGrantSource :=
  match (chain.getD []).reverse.find? fun entry => matchesAnyToolPattern case (field entry) toolName with
  | some entry => entry.scope
  | none => .default

def decideToolGrant (js : JsCoercions) (ctx : ToolGrantDecisionContext) (toolName : JsValue) :
    ToolGrantDecision :=
  let name := JsString.trim (toolName.text?.getD "")
  if name = "" then
    { allowed := false
      toolName := if toolName.isNullish then "" else js.toText toolName
      source := .default
      code := some .toolNameInvalid
      reason := some "A tool name is required to evaluate a grant." }
  else
    -- no empty pattern matches, so what is found is truthy
    match ctx.matrix.deny.find? fun pattern => matchesToolPattern case pattern name with
    | some denyMatch =>
      { allowed := false
        toolName := name
        source := attributeTo case ctx.chain name ToolGrantChainEntry.deny
        code := some .toolDenied
        reason := some ("Tool '" ++ name ++ "' is denied by the effective tool-grant matrix (pattern '" ++
          denyMatch ++ "').") }
    | none =>
      let joined := String.intercalate ", " ctx.matrix.allow
      if !matchesAnyToolPattern case ctx.matrix.allow name then
        { allowed := false
          toolName := name
          source := attributeTo case ctx.chain name ToolGrantChainEntry.allow
          code := some .toolNotGranted
          reason := some ("Tool '" ++ name ++ "' is not granted by the effective tool-grant matrix " ++
            "(allowed: " ++ (if joined = "" then "nothing" else joined) ++ ").") }
      else
        { allowed := true, toolName := name
          source := attributeTo case ctx.chain name ToolGrantChainEntry.allow }

structure PartitionedTools where
  granted : List String
  refused : List ToolGrantDecision

def partitionToolsByGrant (js : JsCoercions) (resolved : ResolvedToolGrants) (toolNames : List String) :
    PartitionedTools :=
  let decide := fun name =>
    decideToolGrant case js ⟨resolved.matrix, some resolved.chain⟩ (.string name)
  ⟨toolNames.filter fun name => (decide name).allowed,
    (toolNames.map decide).filter fun decision => !decision.allowed⟩

end

end EverWorks.Policy
