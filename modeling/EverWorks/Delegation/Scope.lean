import EverWorks.Lib.JsString
import EverWorks.Lib.Run

/-!
What a delegated run may touch, and how `narrowSubAgentScope` combines what a child asks for with what
its parent had. An optional field is `none` when it is undefined; a scope key may also be null.
-/

namespace EverWorks.Delegation
open Lib List

structure SubAgentScope where
  allowedTools : Option (List String)
  allowedPaths : Option (List String) := none
  workId : Option (Option String) := none
  organizationId : Option (Option String) := none
  networkAccess : Option Bool := none
  deriving DecidableEq

def toolWildcard : String := "*"

def hasWildcard (tools : Option (List String)) : Bool :=
  tools.any (·.contains toolWildcard)

def intersectAllowlist (parent requested : Option (List String)) : List String :=
  match requested with
  | none => parent.getD []
  | some asked =>
    if hasWildcard requested then parent.getD [toolWildcard]
    else match parent with
      | none => asked
      | some held => if hasWildcard parent then asked else asked.filter held.contains

def isUnderAnyPrefix (path : String) (prefixes : List String) : Bool :=
  prefixes.any fun head => path = head || JsString.startsWith path (head ++ "/")

def filterToolNamesBySubAgentScope (toolNames : List String) (scope : Option SubAgentScope) :
    List String :=
  match scope.bind (·.allowedTools) with
  | none => toolNames
  | some allowed =>
    if hasWildcard (some allowed) then toolNames else toolNames.filter allowed.contains

def narrowSubAgentScope (parent requested : SubAgentScope) : SubAgentScope where
  allowedTools := some (intersectAllowlist parent.allowedTools requested.allowedTools)
  allowedPaths :=
    match requested.allowedPaths, parent.allowedPaths with
    | none, held => held
    | some asked, none => some asked
    | some asked, some held => some (asked.filter fun path => isUnderAnyPrefix path held)
  workId := parent.workId
  organizationId := parent.organizationId
  networkAccess :=
    if parent.networkAccess.isSome || requested.networkAccess.isSome then
      some (parent.networkAccess.getD false && requested.networkAccess.getD false)
    else none

def SubAgentScope.allowsTool (scope : SubAgentScope) (name : String) : Prop :=
  ∀ allowed ∈ scope.allowedTools, name ∈ allowed ∨ toolWildcard ∈ allowed

theorem mem_filterToolNames {toolNames : List String} {scope : SubAgentScope} {name : String} :
    name ∈ filterToolNamesBySubAgentScope toolNames (some scope) ↔
      name ∈ toolNames ∧ scope.allowsTool name := by
  unfold filterToolNamesBySubAgentScope SubAgentScope.allowsTool hasWildcard
  cases tools : scope.allowedTools with
  | none => simp [tools]
  | some allowed =>
    by_cases wild : toolWildcard ∈ allowed <;> simp [tools, wild]

theorem hasWildcard_some {tools : List String} :
    hasWildcard (some tools) = true ↔ toolWildcard ∈ tools := by
  simp [hasWildcard]

theorem isUnderAnyPrefix_iff {path : String} {prefixes : List String} :
    isUnderAnyPrefix path prefixes = true ↔
      ∃ head ∈ prefixes, path = head ∨ JsString.startsWith path (head ++ "/") = true := by
  simp [isUnderAnyPrefix]

theorem isUnderAnyPrefix_self {path : String} {prefixes : List String} (member : path ∈ prefixes) :
    isUnderAnyPrefix path prefixes = true :=
  isUnderAnyPrefix_iff.mpr ⟨path, member, Or.inl rfl⟩

/-- Every path prefix of `child` is equal to or under one of `bound`, where `bound` has any. -/
def PathsWithin (child bound : Option (List String)) : Prop :=
  ∀ held ∈ bound, ∃ paths ∈ child, ∀ path ∈ paths, isUnderAnyPrefix path held = true

theorem PathsWithin.refl (paths : Option (List String)) : PathsWithin paths paths :=
  fun held present => ⟨held, present, fun _ member => isUnderAnyPrefix_self member⟩

/-- `child` lets through no tool, path or network access that `bound` does not. -/
structure SubAgentScope.Within (child bound : SubAgentScope) : Prop where
  tools : ∀ toolNames : List String,
    filterToolNamesBySubAgentScope toolNames (some child) ⊆
      filterToolNamesBySubAgentScope toolNames (some bound)
  paths : PathsWithin child.allowedPaths bound.allowedPaths
  network : child.networkAccess = some true → bound.networkAccess = some true

namespace SubAgentScope

variable {parent requested : SubAgentScope}

theorem allowsTool_narrow {name : String}
    (allowed : (narrowSubAgentScope parent requested).allowsTool name) :
    parent.allowsTool name ∧ requested.allowsTool name := by
  have member := allowed _ rfl
  unfold intersectAllowlist at member
  unfold allowsTool
  cases request : requested.allowedTools with
  | none =>
    rw [request] at member
    refine ⟨?_, by simp⟩
    intro held present
    simpa [Option.mem_def.mp present] using member
  | some asked =>
    simp only [request] at member
    by_cases wild : toolWildcard ∈ asked
    · rw [if_pos (hasWildcard_some.mpr wild)] at member
      refine ⟨?_, by simp [wild]⟩
      intro held present
      simpa [Option.mem_def.mp present] using member
    · rw [if_neg (fun all => wild (hasWildcard_some.mp all))] at member
      cases owned : parent.allowedTools with
      | none => simpa [owned, wild] using member
      | some held =>
        simp only [owned] at member
        by_cases all : toolWildcard ∈ held
        · rw [if_pos (hasWildcard_some.mpr all)] at member
          simpa [all, wild] using member
        · rw [if_neg (fun any => all (hasWildcard_some.mp any))] at member
          simp only [mem_filter, wild, false_and, or_false, contains_iff_mem] at member
          simp [member.1, member.2]

theorem narrow_paths :
    PathsWithin (narrowSubAgentScope parent requested).allowedPaths parent.allowedPaths ∧
    PathsWithin (narrowSubAgentScope parent requested).allowedPaths requested.allowedPaths := by
  unfold narrowSubAgentScope
  dsimp only
  cases requested.allowedPaths with
  | none => exact ⟨PathsWithin.refl _, by simp [PathsWithin]⟩
  | some asked =>
    cases parent.allowedPaths with
    | none => exact ⟨by simp [PathsWithin], PathsWithin.refl _⟩
    | some held =>
      constructor
      · rintro _ ⟨⟩
        exact ⟨_, rfl, fun path member => (mem_filter.mp member).2⟩
      · rintro _ ⟨⟩
        exact ⟨_, rfl, fun path member => isUnderAnyPrefix_self (mem_filter.mp member).1⟩

theorem narrow_network
    (on : (narrowSubAgentScope parent requested).networkAccess = some true) :
    parent.networkAccess = some true ∧ requested.networkAccess = some true := by
  unfold narrowSubAgentScope at on
  dsimp only at on
  split at on
  · cases held : parent.networkAccess <;> cases asked : requested.networkAccess <;>
      simp_all
  · cases on

theorem narrow_within_parent (parent requested : SubAgentScope) :
    (narrowSubAgentScope parent requested).Within parent := by
  refine ⟨?_, narrow_paths.1, fun on => (narrow_network on).1⟩
  intro toolNames name member
  obtain ⟨listed, allowed⟩ := mem_filterToolNames.mp member
  exact mem_filterToolNames.mpr ⟨listed, (allowsTool_narrow allowed).1⟩

theorem narrow_within_request (parent requested : SubAgentScope) :
    (narrowSubAgentScope parent requested).Within requested := by
  refine ⟨?_, narrow_paths.2, fun on => (narrow_network on).2⟩
  intro toolNames name member
  obtain ⟨listed, allowed⟩ := mem_filterToolNames.mp member
  exact mem_filterToolNames.mpr ⟨listed, (allowsTool_narrow allowed).2⟩

end SubAgentScope

inductive ScopeKey where
  | workId | organizationId
  deriving DecidableEq

def SubAgentScope.pin (scope : SubAgentScope) : ScopeKey → Option String
  | .workId => scope.workId.join
  | .organizationId => scope.organizationId.join

@[simp] theorem pin_narrow (parent requested : SubAgentScope) (key : ScopeKey) :
    (narrowSubAgentScope parent requested).pin key = parent.pin key := by
  cases key <;> rfl

/-- The lower-bound law of one delegation: within both sides, and pinned wherever either side is, to
the parent's id where both are. -/
structure Narrowed (parent requested result : SubAgentScope) : Prop where
  ofParent : result.Within parent
  ofRequest : result.Within requested
  pins : ∀ key id, (parent.pin key <|> requested.pin key) = some id → result.pin key = some id

theorem narrowed_iff {parent requested : SubAgentScope} :
    Narrowed parent requested (narrowSubAgentScope parent requested) ↔
      ∀ key, (parent.pin key).isSome = true ∨ requested.pin key = none := by
  constructor
  · intro narrowed key
    have kept := narrowed.pins key
    rw [pin_narrow] at kept
    cases held : parent.pin key with
    | some id => exact Or.inl rfl
    | none =>
      cases asked : requested.pin key with
      | none => exact Or.inr rfl
      | some id =>
        rw [held, asked] at kept
        cases kept id rfl
  · intro covered
    refine ⟨SubAgentScope.narrow_within_parent _ _, SubAgentScope.narrow_within_request _ _, ?_⟩
    intro key id pinned
    rw [pin_narrow]
    rcases covered key with held | unasked
    · obtain ⟨own, held⟩ := Option.isSome_iff_exists.mp held
      rw [held] at pinned ⊢
      exact pinned
    · rw [unasked] at pinned
      cases held : parent.pin key with
      | none => rw [held] at pinned; cases pinned
      | some own => rw [held] at pinned; exact pinned

/-- **Delegated privilege only shrinks.** Every delegation of a chain obeys the lower-bound law exactly
when each key that some request pins is pinned at the root. -/
theorem delegation_narrows (root : SubAgentScope) (requests : List SubAgentScope) :
    Along narrowSubAgentScope
      (fun parent requested => Narrowed parent requested (narrowSubAgentScope parent requested))
      root requests ↔
    ∀ key, (root.pin key).isSome = true ∨ ∀ requested ∈ requests, requested.pin key = none := by
  induction requests generalizing root with
  | nil => simp [Along]
  | cons requested rest ih =>
    rw [along_cons, narrowed_iff, ih]
    simp only [pin_narrow, forall_mem_cons]
    constructor
    · rintro ⟨here, later⟩ key
      rcases here key with held | unasked
      · exact Or.inl held
      · exact (later key).imp_right fun rest => ⟨unasked, rest⟩
    · intro covered
      exact ⟨fun key => (covered key).imp_right And.left,
        fun key => (covered key).imp_right And.right⟩

/-- A request that pins a Work under a parent without a pin. -/
theorem delegation_unpins :
    ¬ ∀ (root : SubAgentScope) (requests : List SubAgentScope),
      Along narrowSubAgentScope
        (fun parent requested => Narrowed parent requested (narrowSubAgentScope parent requested))
        root requests := by
  intro claim
  have narrowed := (claim { allowedTools := some ["*"] }
    [{ allowedTools := some ["read"], workId := some (some "w") }]).1
  have pinned := narrowed.pins .workId "w" rfl
  cases pinned

end EverWorks.Delegation
