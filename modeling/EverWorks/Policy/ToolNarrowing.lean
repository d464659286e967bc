import EverWorks.Lib.Glob
import EverWorks.Policy.ToolGrant

/-!
A layer's patterns are kept where the layers before it cover them, and what one layer denies stays denied. Every round
of the fold goes down in the order `ToolGrantMatrix.Within`, and so does a layer put in between.
-/

namespace EverWorks.Policy
open Lib List JsString List

section
variable {case : JsString.LowerCase} {pattern outer inner toolName : String}

/-! ## Patterns -/

theorem endsWith_star {text : String} :
    endsWith text "*" = true ↔ text.toList.getLast? = some '*' := by
  rw [endsWith, isSuffixOf_iff_suffix, getLast?_eq_some_iff]
  exact ⟨fun ⟨front, whole⟩ => ⟨front, whole.symm⟩, fun ⟨front, whole⟩ => ⟨front, whole.symm⟩⟩

theorem matchesToolPattern_iff :
    matchesToolPattern case pattern toolName = true ↔
      normalize case pattern ≠ "" ∧ normalize case toolName ≠ "" ∧
        Glob.Reaches '*' (normalize case pattern).toList (normalize case toolName).toList := by
  generalize lhs : normalize case pattern = p
  generalize rhs : normalize case toolName = name
  simp only [matchesToolPattern, lhs, rhs]
  by_cases empty : p = "" ∨ name = ""
  · rcases empty with rfl | rfl <;> simp
  · obtain ⟨some_p, some_name⟩ := not_or.mp empty
    by_cases all : p = "*"
    · subst all
      simp [Glob.Reaches, some_name]
    · by_cases ends : p.toList.getLast? = some '*'
      · simp [Glob.Reaches, some_p, some_name, all, endsWith_star, ends, startsWith_iff]
      · simp [Glob.Reaches, some_p, some_name, all, endsWith_star, ends, String.toList_inj]

theorem normalize_trim (text : String) : normalize case (trim text) = normalize case text := by
  rw [normalize, trim_trim, normalize]

theorem matchesToolPattern_trim :
    matchesToolPattern case pattern (trim toolName) = matchesToolPattern case pattern toolName := by
  rw [matchesToolPattern, normalize_trim, matchesToolPattern]

theorem pattern_chars {text : String} (sane : isToolGrantPattern text = true) :
    (∀ c ∈ text.toList, isToolNameChar c = true ∨ c = '*') ∧
      ∀ c ∈ text.toList.dropLast, isToolNameChar c = true := by
  simp only [isToolGrantPattern, Bool.or_eq_true, decide_eq_true_eq, Bool.and_eq_true] at sane
  rcases sane with rfl | ⟨-, body⟩
  · simp
  · by_cases ends : endsWith text "*" = true
    · rw [if_pos ends, all_eq_true] at body
      refine ⟨fun c member => ?_, body⟩
      rw [Glob.getLast?_star (endsWith_star.mp ends), mem_append, mem_singleton] at member
      exact member.imp_left (body c)
    · rw [if_neg ends, all_eq_true] at body
      exact ⟨fun c member => Or.inl (body c member),
        fun c member => body c (dropLast_subset _ member)⟩

theorem toolNameChar_ascii {c : Char} (named : isToolNameChar c = true) :
    c.toNat < 128 ∧ isWhiteSpace c = false ∧ c.toLower ≠ '*' := by
  have small : c.toNat < 128 := by
    rw [isToolNameChar] at named
    delta Char.isAlphanum Char.isAlpha Char.isUpper Char.isLower Char.isDigit at named
    simp only [Bool.or_eq_true, Bool.and_eq_true, decide_eq_true_eq, UInt32.le_iff_toNat_le, ge_iff_le] at named
    rcases named with ((((named | named) | rfl) | rfl) | rfl) | rfl
    · rcases named with ⟨-, up⟩ | ⟨-, up⟩ <;> exact up.trans_lt (by decide)
    · exact named.2.trans_lt (by decide)
    all_goals decide
  have table : ∀ code < 128, isToolNameChar (Char.ofNat code) = true →
      isWhiteSpace (Char.ofNat code) = false ∧ (Char.ofNat code).toLower ≠ '*' := by
    decide
  have here := table c.toNat small
  rw [Char.ofNat_toNat] at here
  exact ⟨small, here named⟩

theorem normalize_pattern {text : String} (sane : isToolGrantPattern text = true) :
    (normalize case text).toList = text.toList.map Char.toLower := by
  have each : ∀ c ∈ text.toList, c.toNat < 128 ∧ isWhiteSpace c = false := by
    intro c member
    rcases (pattern_chars sane).1 c member with named | rfl
    · exact ⟨(toolNameChar_ascii named).1, (toolNameChar_ascii named).2.1⟩
    · decide
  rw [normalize, trim_solid fun c member => (each c member).2,
    case.lower_ascii text fun c member => (each c member).1]

theorem plain_of_pattern (sane : isToolGrantPattern pattern = true) :
    Glob.Plain '*' (normalize case pattern).toList := by
  rw [Glob.Plain, normalize_pattern sane, ← map_dropLast]
  intro star
  obtain ⟨c, member, lowered⟩ := mem_map.mp star
  exact (toolNameChar_ascii ((pattern_chars sane).2 c member)).2.2 lowered

theorem pattern_nonempty (sane : isToolGrantPattern pattern = true) : pattern.toList ≠ [] := by
  intro empty
  have : pattern = "" := String.toList_eq_nil_iff.mp empty
  subst this
  exact absurd sane (by decide)

theorem covers_refl (sane : isToolGrantPattern pattern = true) :
    toolPatternCovers case pattern pattern = true := by
  have solid : normalize case pattern ≠ "" := by
    intro empty
    apply pattern_nonempty sane
    have lowered : (normalize case pattern).toList = pattern.toList.map Char.toLower :=
      normalize_pattern sane
    rw [empty] at lowered
    exact map_eq_nil_iff.mp lowered.symm
  exact matchesToolPattern_iff.mpr ⟨solid, solid, Glob.Reaches.refl _⟩

theorem matches_of_covers (sane : isToolGrantPattern outer = true)
    (covers : toolPatternCovers case outer inner = true)
    (matched : matchesToolPattern case inner toolName = true) :
    matchesToolPattern case outer toolName = true := by
  obtain ⟨some_outer, -, upper⟩ := matchesToolPattern_iff.mp covers
  obtain ⟨-, some_name, lower⟩ := matchesToolPattern_iff.mp matched
  refine matchesToolPattern_iff.mpr ⟨some_outer, some_name, ?_⟩
  exact (Glob.reaches_iff_forall (plain_of_pattern sane)).mp upper _ lower

theorem covers_trans {middle : String} (sane : isToolGrantPattern outer = true)
    (upper : toolPatternCovers case outer middle = true)
    (lower : toolPatternCovers case middle inner = true) :
    toolPatternCovers case outer inner = true :=
  matches_of_covers sane upper lower

end

/-! ## Matrices -/

section
variable (case : JsString.LowerCase)

/-- Every pattern of `inner` is covered by one of `outer`. -/
def Covered (outer inner : List String) : Prop :=
  ∀ pattern ∈ inner, ∃ wide ∈ outer, toolPatternCovers case wide pattern = true

def Sane (patterns : List String) : Prop :=
  ∀ pattern ∈ patterns, isToolGrantPattern pattern = true

/-- `matrix` allows no more and denies no less than `bound`. -/
structure ToolGrantMatrix.Within (matrix bound : ToolGrantMatrix) : Prop where
  allow : Covered case bound.allow matrix.allow
  deny : bound.deny ⊆ matrix.deny

end

section
variable {case : JsString.LowerCase}

theorem Covered.refl {patterns : List String} (sane : Sane patterns) : Covered case patterns patterns :=
  fun pattern member => ⟨pattern, member, covers_refl (sane pattern member)⟩

theorem Covered.trans {outer middle inner : List String} (sane : Sane outer)
    (upper : Covered case outer middle) (lower : Covered case middle inner) :
    Covered case outer inner := by
  intro pattern member
  obtain ⟨between, present, low⟩ := lower pattern member
  obtain ⟨wide, outermost, high⟩ := upper between present
  exact ⟨wide, outermost, covers_trans (sane wide outermost) high low⟩

theorem Covered.matches {outer inner : List String} {toolName : String} (sane : Sane outer)
    (covered : Covered case outer inner) (matched : matchesAnyToolPattern case inner toolName = true) :
    matchesAnyToolPattern case outer toolName = true := by
  obtain ⟨pattern, member, low⟩ := any_eq_true.mp matched
  obtain ⟨wide, present, high⟩ := covered pattern member
  exact any_eq_true.mpr ⟨wide, present, matches_of_covers (sane wide present) high low⟩

theorem mem_kept {inherited requested : List String} {pattern : String} :
    pattern ∈ (narrowAllowPatterns case inherited requested).kept ↔
      pattern ∈ requested ∧ ∃ outer ∈ inherited, toolPatternCovers case outer pattern = true := by
  simp [narrowAllowPatterns, mem_filter]

theorem mem_sanitized {value : JsValue} {pattern : String} :
    pattern ∈ (sanitizePatterns value).getD [] ↔
      ∃ items text, value = .array items ∧ .string text ∈ items ∧ trim text = pattern ∧
        isToolGrantPattern pattern = true := by
  cases value with
  | array items =>
    simp only [sanitizePatterns]
    generalize list : ((items.filterMap JsValue.text?).map trim).filter isToolGrantPattern = patterns
    have chars : pattern ∈ patterns ↔ ∃ text, .string text ∈ items ∧ trim text = pattern ∧
        isToolGrantPattern pattern = true := by
      rw [← list, mem_filter, mem_map]
      constructor
      · rintro ⟨⟨text, member, trimmed⟩, sane⟩
        obtain ⟨item, inside, read⟩ := mem_filterMap.mp member
        cases item <;> cases read
        exact ⟨text, inside, trimmed, sane⟩
      · rintro ⟨text, inside, trimmed, sane⟩
        exact ⟨⟨text, mem_filterMap.mpr ⟨_, inside, rfl⟩, trimmed⟩, sane⟩
    have read : pattern ∈ (if !patterns.isEmpty || items.isEmpty then some patterns.eraseDups
        else none).getD [] ↔ pattern ∈ patterns := by
      cases patterns with
      | nil => cases items <;> simp
      | cons first rest => simp [mem_eraseDups]
    rw [read, chars]
    exact ⟨fun ⟨text, found⟩ => ⟨items, text, rfl, found⟩, fun ⟨_, text, same, found⟩ => by
      cases same; exact ⟨text, found⟩⟩
  | _ => simp [sanitizePatterns]

theorem sanitized_sane {value : JsValue} {patterns : List String}
    (sanitized : sanitizePatterns value = some patterns) : Sane patterns := by
  intro pattern member
  cases value with
  | array items =>
    simp only [sanitizePatterns, Option.ite_none_right_eq_some, Option.some.injEq] at sanitized
    rw [← sanitized.2, mem_eraseDups, mem_filter] at member
    exact member.2
  | _ => cases sanitized

/-! ## One round -/

/-- `tight` is `loose` with deny patterns added. -/
structure ToolGrantLayer.Tightens (tight loose : ToolGrantLayer) : Prop where
  scope : tight.scope = loose.scope
  allow : (sanitizeToolGrantOverride tight.grant).allow = (sanitizeToolGrantOverride loose.grant).allow
  deny : (sanitizeToolGrantOverride loose.grant).deny.getD [] ⊆
    (sanitizeToolGrantOverride tight.grant).deny.getD []

theorem ToolGrantLayer.Tightens.refl (layer : ToolGrantLayer) : layer.Tightens layer :=
  ⟨rfl, rfl, List.Subset.refl _⟩

variable {resolved bound : ResolvedToolGrants} {layer tight loose : ToolGrantLayer}

theorem applyLayer_allow :
    (applyLayer case resolved layer).matrix.allow =
      match (sanitizeToolGrantOverride layer.grant).allow with
      | some requested => (narrowAllowPatterns case resolved.matrix.allow requested).kept
      | none => resolved.matrix.allow := by
  simp only [applyLayer]
  cases (sanitizeToolGrantOverride layer.grant).allow <;> rfl

theorem mem_applyLayer_deny {pattern : String} :
    pattern ∈ (applyLayer case resolved layer).matrix.deny ↔
      pattern ∈ resolved.matrix.deny ∨
        pattern ∈ (sanitizeToolGrantOverride layer.grant).deny.getD [] := by
  simp only [applyLayer]
  generalize (sanitizeToolGrantOverride layer.grant).deny.getD [] = denied
  cases denied with
  | nil => simp
  | cons first rest => simp [mem_eraseDups]

theorem applyLayer_sane (sane : Sane resolved.matrix.allow) :
    Sane (applyLayer case resolved layer).matrix.allow := by
  rw [applyLayer_allow]
  cases declared : (sanitizeToolGrantOverride layer.grant).allow with
  | none => exact sane
  | some requested =>
    intro pattern member
    exact sanitized_sane declared pattern (mem_kept.mp member).1

theorem applyLayer_within (sane : Sane resolved.matrix.allow) :
    (applyLayer case resolved layer).matrix.Within case resolved.matrix := by
  refine ⟨?_, fun pattern member => mem_applyLayer_deny.mpr (Or.inl member)⟩
  rw [applyLayer_allow]
  cases (sanitizeToolGrantOverride layer.grant).allow with
  | none => exact Covered.refl sane
  | some requested => exact fun pattern member => (mem_kept.mp member).2

theorem applyLayer_mono (sane : Sane bound.matrix.allow)
    (within : resolved.matrix.Within case bound.matrix) (tightens : tight.Tightens loose) :
    (applyLayer case resolved tight).matrix.Within case (applyLayer case bound loose).matrix := by
  constructor
  · rw [applyLayer_allow, applyLayer_allow, tightens.allow]
    cases declared : (sanitizeToolGrantOverride loose.grant).allow with
    | none => exact within.allow
    | some requested =>
      -- what is covered by less is covered by more, so the list kept is the shorter one
      intro pattern member
      obtain ⟨asked, between, present, low⟩ := mem_kept.mp member
      obtain ⟨wide, outermost, high⟩ := within.allow between present
      have kept := mem_kept.mpr ⟨asked, wide, outermost, covers_trans (sane wide outermost) high low⟩
      exact ⟨pattern, kept, covers_refl (sanitized_sane declared pattern asked)⟩
  · intro pattern member
    rw [mem_applyLayer_deny] at member ⊢
    exact member.imp (fun before => within.deny before) (fun added => tightens.deny added)

/-! ## The whole chain -/

theorem ToolGrantMatrix.Within.trans {low middle high : ToolGrantMatrix} (sane : Sane high.allow)
    (lower : low.Within case middle) (upper : middle.Within case high) : low.Within case high :=
  ⟨upper.allow.trans sane lower.allow, List.Subset.trans upper.deny lower.deny⟩

theorem foldl_sane {layers : List ToolGrantLayer} (sane : Sane resolved.matrix.allow) :
    Sane (layers.foldl (applyLayer case) resolved).matrix.allow := by
  induction layers generalizing resolved with
  | nil => exact sane
  | cons layer rest ih => exact ih (applyLayer_sane sane)

theorem foldl_within {layers : List ToolGrantLayer} (sane : Sane resolved.matrix.allow) :
    (layers.foldl (applyLayer case) resolved).matrix.Within case resolved.matrix := by
  induction layers generalizing resolved with
  | nil => exact ⟨Covered.refl sane, List.Subset.refl _⟩
  | cons layer rest ih => exact (ih (applyLayer_sane sane)).trans sane (applyLayer_within sane)

theorem foldl_mono {fewer more : List ToolGrantLayer}
    (grows : List.SublistForall₂ (fun loose tight => tight.Tightens loose) fewer more)
    (sane : Sane resolved.matrix.allow) (bounded : Sane bound.matrix.allow)
    (within : resolved.matrix.Within case bound.matrix) :
    (more.foldl (applyLayer case) resolved).matrix.Within case
      (fewer.foldl (applyLayer case) bound).matrix := by
  induction grows generalizing resolved bound with
  | nil => exact (foldl_within sane).trans bounded within
  | cons tightens _ ih =>
    exact ih (applyLayer_sane sane) (applyLayer_sane bounded) (applyLayer_mono bounded within tightens)
  | cons_right _ ih =>
    exact ih (applyLayer_sane sane) bounded ((applyLayer_within sane).trans bounded within)

/-! ## Sorting the layers -/

section
variable {α : Type} {R : α → α → Prop} {rank : α → Nat}

theorem sublistForall₂_orderedInsert (same : ∀ a b, R a b → rank a = rank b) {fewer more : List α}
    (related : List.SublistForall₂ R fewer more)
    (sorted : more.Pairwise fun a b => rank a ≤ rank b) {a b : α} (here : R a b) :
    List.SublistForall₂ R (fewer.orderedInsert (fun a b => rank a ≤ rank b) a)
      (more.orderedInsert (fun a b => rank a ≤ rank b) b) := by
  induction related with
  | nil =>
    refine sublistForall₂_iff.mpr ⟨[b], ?_, ?_⟩
    · exact .cons here .nil
    · exact singleton_sublist.mpr ((mem_orderedInsert _).mpr (Or.inl rfl))
  | @cons x y _ _ pair rest ih =>
    rw [orderedInsert_cons, orderedInsert_cons, same _ _ here, same _ _ pair]
    by_cases first : rank b ≤ rank y
    · rw [if_pos first, if_pos first]
      exact .cons here (.cons pair rest)
    · rw [if_neg first, if_neg first]
      exact .cons pair (ih sorted.of_cons)
  | @cons_right y fewer more rest ih =>
    rw [orderedInsert_cons]
    by_cases first : rank b ≤ rank y
    · rw [if_pos first]
      have front : fewer.orderedInsert (fun a b => rank a ≤ rank b) a = a :: fewer := by
        cases rest' : fewer with
        | nil => rfl
        | cons x _ =>
          obtain ⟨part, pairs, inside⟩ := sublistForall₂_iff.mp (rest' ▸ rest)
          obtain ⟨z, others, pair, -, rfl⟩ := forall₂_cons_left_iff.mp pairs
          have after := rel_of_pairwise_cons sorted (inside.subset mem_cons_self)
          have le : rank a ≤ rank x := by
            rw [same _ _ here, same _ _ pair]
            exact first.trans after
          rw [orderedInsert_cons, if_pos le]
      rw [front]
      exact .cons here (.cons_right rest)
    · rw [if_neg first]
      exact .cons_right (ih sorted.of_cons)

theorem sublistForall₂_insertionSort (same : ∀ a b, R a b → rank a = rank b) {fewer more : List α}
    (related : List.SublistForall₂ R fewer more) :
    List.SublistForall₂ R (fewer.insertionSort fun a b => rank a ≤ rank b)
      (more.insertionSort fun a b => rank a ≤ rank b) := by
  have total : Std.Total fun a b => rank a ≤ rank b := ⟨fun a b => Nat.le_total _ _⟩
  have order : IsTrans α fun a b => rank a ≤ rank b := ⟨fun _ _ _ => Nat.le_trans⟩
  induction related with
  | nil => exact .nil
  | cons pair _ ih => exact sublistForall₂_orderedInsert same ih (pairwise_insertionSort _ _) pair
  | @cons_right b _ more _ ih =>
    obtain ⟨part, pairs, inside⟩ := sublistForall₂_iff.mp ih
    exact sublistForall₂_iff.mpr
      ⟨part, pairs, inside.trans (sublist_orderedInsert _ _)⟩

end

/-! ## Decisions -/

section
variable (case) (js : JsCoercions)

/-- What the layers' chain decides about a tool name. -/
def Allowed (layers : List ToolGrantLayer) (toolName : JsValue) : Prop :=
  let resolved := resolveToolGrantChain case layers
  (decideToolGrant case js ⟨resolved.matrix, some resolved.chain⟩ toolName).allowed = true

def denyItems (layer : ToolGrantLayer) : List JsValue :=
  match layer.grant.property "deny" with
  | .array items => items
  | _ => []

/-- `after` is `before` with a pattern put into its row's deny list, which is made where it has none. -/
structure ToolGrantLayer.AddsDeny (after before : ToolGrantLayer) (pattern : String) : Prop where
  scope : after.scope = before.scope
  allow : after.grant.property "allow" = before.grant.property "allow"
  deny : ∃ front back, denyItems before = front ++ back ∧
    after.grant.property "deny" = .array (front ++ .string pattern :: back)

end

variable {js : JsCoercions} {layers fewer more : List ToolGrantLayer} {toolName : JsValue}

theorem defaultToolGrants_sane : Sane defaultToolGrants.matrix.allow := by
  intro pattern member
  obtain rfl := mem_singleton.mp member
  decide

theorem allowed_iff :
    Allowed case js layers toolName ↔
      trim (toolName.text?.getD "") ≠ "" ∧
      matchesAnyToolPattern case (resolveToolGrantChain case layers).matrix.deny
        (trim (toolName.text?.getD "")) = false ∧
      matchesAnyToolPattern case (resolveToolGrantChain case layers).matrix.allow
        (trim (toolName.text?.getD "")) = true := by
  simp only [Allowed, decideToolGrant]
  generalize trim (toolName.text?.getD "") = name
  generalize resolveToolGrantChain case layers = resolved
  by_cases empty : name = ""
  · simp [empty]
  · rw [if_neg empty]
    cases found : resolved.matrix.deny.find? fun pattern => matchesToolPattern case pattern name with
    | some pattern =>
      have denied : matchesAnyToolPattern case resolved.matrix.deny name = true :=
        any_eq_true.mpr ⟨pattern, mem_of_find?_eq_some found,
          find?_some (p := fun pattern => matchesToolPattern case pattern name) found⟩
      simp [denied]
    | none =>
      have open_ : matchesAnyToolPattern case resolved.matrix.deny name = false := by
        simpa [matchesAnyToolPattern] using found
      cases granted : matchesAnyToolPattern case resolved.matrix.allow name <;> simp [empty, open_]

theorem allowed_of_within
    (within : (resolveToolGrantChain case more).matrix.Within case (resolveToolGrantChain case fewer).matrix)
    (allowed : Allowed case js more toolName) : Allowed case js fewer toolName := by
  rw [allowed_iff] at allowed ⊢
  obtain ⟨named, undenied, granted⟩ := allowed
  refine ⟨named, ?_, ?_⟩
  · simp only [matchesAnyToolPattern, any_eq_false] at undenied ⊢
    exact fun pattern member => undenied pattern (within.deny member)
  · exact within.allow.matches (foldl_sane defaultToolGrants_sane) granted

theorem allowed_mono
    (grows : List.SublistForall₂ (fun loose tight => tight.Tightens loose) fewer more)
    (allowed : Allowed case js more toolName) : Allowed case js fewer toolName := by
  have same : ∀ loose tight : ToolGrantLayer, tight.Tightens loose → loose.scope.rank = tight.scope.rank :=
    fun loose tight tightens => by rw [tightens.scope]
  have ordered := sublistForall₂_insertionSort same grows
  refine allowed_of_within ?_ allowed
  exact foldl_mono ordered defaultToolGrants_sane defaultToolGrants_sane
    ⟨Covered.refl defaultToolGrants_sane, List.Subset.refl _⟩

theorem ToolGrantLayer.AddsDeny.tightens {after before : ToolGrantLayer} {pattern : String}
    (adds : after.AddsDeny before pattern) : after.Tightens before := by
  refine ⟨adds.scope, ?_, ?_⟩
  · simp only [sanitizeToolGrantOverride, adds.allow]
  · obtain ⟨front, back, before_items, after_items⟩ := adds.deny
    intro denied member
    obtain ⟨items, text, read, inside, kept⟩ := mem_sanitized.mp member
    have whole : items = front ++ back := by rw [← before_items, denyItems, read]
    refine mem_sanitized.mpr ⟨_, text, after_items, ?_, kept⟩
    rw [whole, mem_append] at inside
    exact mem_append.mpr (inside.imp_right (mem_cons_of_mem _))

theorem refl_sublistForall₂ (layers : List ToolGrantLayer) :
    List.SublistForall₂ (fun loose tight => ToolGrantLayer.Tightens tight loose) layers layers := by
  induction layers with
  | nil => exact .nil
  | cons layer _ ih => exact .cons (.refl layer) ih

theorem insert_sublistForall₂ (front back : List ToolGrantLayer) (layer : ToolGrantLayer) :
    List.SublistForall₂ (fun loose tight => ToolGrantLayer.Tightens tight loose) (front ++ back)
      (front ++ layer :: back) := by
  induction front with
  | nil => exact .cons_right (refl_sublistForall₂ back)
  | cons first _ ih => exact .cons (.refl first) ih

theorem tighten_sublistForall₂ (front back : List ToolGrantLayer) (tightens : tight.Tightens loose) :
    List.SublistForall₂ (fun loose tight => ToolGrantLayer.Tightens tight loose) (front ++ loose :: back)
      (front ++ tight :: back) := by
  induction front with
  | nil => exact .cons tightens (refl_sublistForall₂ back)
  | cons first _ ih => exact .cons (.refl first) ih

theorem foldl_denied {pattern : String} (member : layer ∈ layers)
    (denied : pattern ∈ (sanitizeToolGrantOverride layer.grant).deny.getD [])
    (sane : Sane resolved.matrix.allow) :
    pattern ∈ (layers.foldl (applyLayer case) resolved).matrix.deny := by
  induction layers generalizing resolved with
  | nil => cases member
  | cons first rest ih =>
    have next : Sane (applyLayer case resolved first).matrix.allow := applyLayer_sane sane
    rcases mem_cons.mp member with rfl | later
    · exact (foldl_within next).deny (mem_applyLayer_deny.mpr (Or.inr denied))
    · exact ih later next

theorem foldl_declared {requested : List String} (member : layer ∈ layers)
    (declared : (sanitizeToolGrantOverride layer.grant).allow = some requested)
    (sane : Sane resolved.matrix.allow) :
    Covered case requested (layers.foldl (applyLayer case) resolved).matrix.allow := by
  induction layers generalizing resolved with
  | nil => cases member
  | cons first rest ih =>
    have next : Sane (applyLayer case resolved first).matrix.allow := applyLayer_sane sane
    rcases mem_cons.mp member with rfl | later
    · have asked : (applyLayer case resolved layer).matrix.allow ⊆ requested := by
        rw [applyLayer_allow, declared]
        exact fun pattern kept => (mem_kept.mp kept).1
      intro pattern final
      obtain ⟨wide, kept, covers⟩ := (foldl_within next).allow pattern final
      exact ⟨wide, asked kept, covers⟩
    · exact ih later next

theorem refused_of_denied {pattern name : String} (member : layer ∈ layers)
    (denied : pattern ∈ (sanitizeToolGrantOverride layer.grant).deny.getD [])
    (matched : matchesToolPattern case pattern name = true) : ¬Allowed case js layers (.string name) := by
  intro allowed
  obtain ⟨-, undenied, -⟩ := allowed_iff.mp allowed
  have inside : layer ∈ orderLayers layers := (mem_insertionSort _).mpr member
  have present : pattern ∈ (resolveToolGrantChain case layers).matrix.deny :=
    foldl_denied inside denied defaultToolGrants_sane
  refine absurd ?_ (any_eq_false.mp undenied pattern present)
  exact matchesToolPattern_trim.trans matched

theorem granted_of_allowed {requested : List String} {name : String}
    (allowed : Allowed case js layers (.string name)) (member : layer ∈ layers)
    (declared : (sanitizeToolGrantOverride layer.grant).allow = some requested) :
    matchesAnyToolPattern case requested name = true := by
  obtain ⟨-, -, granted⟩ := allowed_iff.mp allowed
  have inside : layer ∈ orderLayers layers := (mem_insertionSort _).mpr member
  have covered : Covered case requested (resolveToolGrantChain case layers).matrix.allow :=
    foldl_declared inside declared defaultToolGrants_sane
  have trimmed := covered.matches (sanitized_sane declared) granted
  obtain ⟨pattern, present, matched⟩ := any_eq_true.mp trimmed
  exact any_eq_true.mpr ⟨pattern, present, matchesToolPattern_trim.symm.trans matched⟩

/-- A layer put in anywhere and a pattern denied in any row allow no name refused before, every layer's deny
list and every declared allow list hold for what is allowed, and covering is sound and transitive. -/
theorem tool_grants_narrow (case : JsString.LowerCase) (js : JsCoercions) :
    (∀ front back layer toolName,
      Allowed case js (front ++ layer :: back) toolName → Allowed case js (front ++ back) toolName) ∧
    (∀ front back (before after : ToolGrantLayer) pattern toolName, after.AddsDeny before pattern →
      Allowed case js (front ++ after :: back) toolName →
      Allowed case js (front ++ before :: back) toolName) ∧
    (∀ layers, ∀ layer ∈ layers, ∀ denied ∈ (sanitizeToolGrantOverride layer.grant).deny,
      ∀ pattern ∈ denied, ∀ name, matchesToolPattern case pattern name = true →
        ¬Allowed case js layers (.string name)) ∧
    (∀ layers name, Allowed case js layers (.string name) →
      ∀ layer ∈ layers, ∀ granted ∈ (sanitizeToolGrantOverride layer.grant).allow,
        matchesAnyToolPattern case granted name = true) ∧
    (∀ outer inner, isToolGrantPattern outer = true → toolPatternCovers case outer inner = true →
      ∀ name, matchesToolPattern case inner name = true → matchesToolPattern case outer name = true) ∧
    ∀ outer middle inner, isToolGrantPattern outer = true → toolPatternCovers case outer middle = true →
      toolPatternCovers case middle inner = true → toolPatternCovers case outer inner = true := by
  refine ⟨?_, ?_, ?_, ?_, ?_, ?_⟩
  · intro front back layer toolName allowed
    exact allowed_mono (insert_sublistForall₂ front back layer) allowed
  · intro front back before after pattern toolName adds allowed
    exact allowed_mono (tighten_sublistForall₂ front back adds.tightens) allowed
  · intro layers layer member denied declared pattern listed name matched
    refine refused_of_denied member ?_ matched
    rw [declared]
    exact listed
  · intro layers name allowed layer member granted declared
    exact granted_of_allowed allowed member declared
  · intro outer inner sane covers name matched
    exact matches_of_covers sane covers matched
  · intro outer middle inner sane upper lower
    exact covers_trans sane upper lower

def asciiCase : JsString.LowerCase where
  lower := String.map Char.toLower
  lower_ascii _ _ := String.toList_map

def denyDeploys : ToolGrantLayer :=
  ⟨.organization, "org", .object [("deny", .array [.string "deploy_*"])]⟩

def allowGit : ToolGrantLayer :=
  ⟨.tenant, "tenant", .object [("allow", .array [.string "git_*"])]⟩

theorem tool_grants_narrow_deploys (js : JsCoercions) :
    ¬Allowed asciiCase js [allowGit, denyDeploys] (.string "Deploy_site") ∧
      Allowed asciiCase js [allowGit] (.string "git_commit") := by
  have law := tool_grants_narrow asciiCase js
  constructor
  · exact law.2.2.1 _ denyDeploys (by simp) ["deploy_*"] (by decide +kernel) "deploy_*" (by simp)
      "Deploy_site" (by decide +kernel)
  · exact law.1 [allowGit] [] denyDeploys (.string "git_commit") (allowed_iff.mpr (by decide +kernel))

end
end EverWorks.Policy
