import EverWorks.Lib.JsValue
import EverWorks.Lib.Kahn

/-!
A template is a list of steps each of which names the positions of the steps it depends on. The lists are accepted whose
dependencies are positions of other steps and go round in no circle.
-/

namespace EverWorks.Tasks.Templates
open Lib Relation List

/-- A step as it is given; `Repo` is a repository it mounts beside its Work's. -/
structure TaskTemplateStepInput (Repo : Type) where
  title : String
  prompt : Option String := none
  agentId : Option String := none
  agentTemplateSlug : Option String := none
  requiresApproval : Option Bool := none
  dependsOn : Option (List JsNumber) := none
  workId : Option String := none
  extraRepos : Option (List Repo) := none

/-- A step as it is stored. -/
structure TaskTemplateStep (Repo : Type) where
  position : ℕ
  title : String
  prompt : Option String
  agentId : Option String
  agentTemplateSlug : Option String
  requiresApproval : Bool
  dependsOn : Option (List JsNumber)
  workId : Option String
  extraRepos : Option (List Repo)

abbrev Checked (α : Type) := Except String α

variable {Repo : Type} (numberText : JsNumber → String) (maxTemplateSteps : ℕ)

/-! ## The checks -/

def titleError (position : ℕ) (title : String) : Option String :=
  if JsString.length (JsString.trim title) = 0 then some s!"Step {position} requires a title."
  else if 200 < JsString.length title then some s!"Step {position} title exceeds 200 characters."
  else none

def dependencyError (count position : ℕ) (dep : JsNumber) : Option String :=
  if !dep.isInteger || dep.less 0 || JsNumber.atMost count dep then
    some s!"Step {position} depends on unknown step position {numberText dep}."
  else if dep.equals position then some s!"Step {position} cannot depend on itself."
  else none

/-- `[...new Set(step.dependsOn ?? [])]`. -/
def uniqueDependencies (step : TaskTemplateStepInput Repo) : List JsNumber := (step.dependsOn.getD []).eraseDups

def stepError (count position : ℕ) (step : TaskTemplateStepInput Repo) : Option String :=
  (titleError position step.title).or ((uniqueDependencies step).findSome? (dependencyError numberText count position))

def storedStep (position : ℕ) (step : TaskTemplateStepInput Repo) : TaskTemplateStep Repo where
  position := position
  title := JsString.trim step.title
  prompt := step.prompt
  agentId := step.agentId
  agentTemplateSlug := step.agentTemplateSlug
  requiresApproval := step.requiresApproval.getD false
  dependsOn := if 0 < (uniqueDependencies step).length then some (uniqueDependencies step) else none
  workId := step.workId.bind fun workId => if JsString.trim workId = "" then none else some (JsString.trim workId)
  extraRepos := step.extraRepos

def normalizeStep (count position : ℕ) (step : TaskTemplateStepInput Repo) : Checked (TaskTemplateStep Repo) :=
  match stepError numberText count position step with
  | some message => .error message
  | none => .ok (storedStep position step)

def normalizeFrom (count : ℕ) : ℕ → List (TaskTemplateStepInput Repo) → Checked (List (TaskTemplateStep Repo))
  | _, [] => .ok []
  | position, step :: rest => do
    let first ← normalizeStep numberText count position step
    let later ← normalizeFrom count (position + 1) rest
    return first :: later

/-! ## Kahn's algorithm -/

section
variable (steps : List (TaskTemplateStep Repo))

def dependsOn (position : ℕ) : List JsNumber := ((steps[position]?).bind (·.dependsOn)).getD []

def dependents (position : JsNumber) : List ℕ :=
  (List.range steps.length).flatMap fun i => ((dependsOn steps i).filter (· = position)).map fun _ => i

structure Sweep where
  indegree : ℕ → ℤ
  queue : List ℕ
  visited : ℕ

def startSweep : Sweep where
  indegree i := (dependsOn steps i).length
  queue := (List.range steps.length).filter fun i => (dependsOn steps i).length = 0
  visited := 0

def release (state : (ℕ → ℤ) × List ℕ) (dependent : ℕ) : (ℕ → ℤ) × List ℕ :=
  let degree := state.1 dependent - 1
  (fun i => if i = dependent then degree else state.1 i, if degree = 0 then state.2 ++ [dependent] else state.2)

def visitNext (sweep : Sweep) : Sweep :=
  match sweep.queue with
  | [] => sweep
  | current :: rest =>
    let released := (dependents steps current).foldl release (sweep.indegree, rest)
    { indegree := released.1, queue := released.2, visited := sweep.visited + 1 }

def sweepAll : Sweep := (visitNext steps)^[steps.length] (startSweep steps)

def assertAcyclic : Checked Unit :=
  if (sweepAll steps).visited ≠ steps.length then .error "Template steps contain a dependency cycle." else .ok ()

end

def normalizeSteps (inputs : List (TaskTemplateStepInput Repo)) : Checked (List (TaskTemplateStep Repo)) :=
  if inputs.length = 0 then .error "A template requires at least one step."
  else if maxTemplateSteps < inputs.length then
    .error s!"A template may have at most {maxTemplateSteps} steps (received {inputs.length})."
  else do
    let steps ← normalizeFrom numberText inputs.length 0 inputs
    assertAcyclic steps
    return steps

/-! ## What is accepted -/

/-- A step names a position among its dependencies. -/
def DependsOn (inputs : List (TaskTemplateStepInput Repo)) (i j : ℕ) : Prop :=
  ∃ step, inputs[i]? = some step ∧ (j : JsNumber) ∈ step.dependsOn.getD []

/-- Every dependency is an integer position of another step. -/
def PositionsOfOthers (inputs : List (TaskTemplateStepInput Repo)) : Prop :=
  ∀ (i : ℕ) (step : TaskTemplateStepInput Repo), inputs[i]? = some step → ∀ dep ∈ step.dependsOn.getD [],
    ∃ j < inputs.length, dep = (j : JsNumber) ∧ j ≠ i

def ValidTitles (inputs : List (TaskTemplateStepInput Repo)) : Prop :=
  ∀ step ∈ inputs, JsString.trim step.title ≠ "" ∧ JsString.length step.title ≤ 200

variable {numberText : JsNumber → String} {maxTemplateSteps : ℕ}

theorem equals_cast {j k : ℕ} : (j : JsNumber).equals k = true ↔ j = k := by
  simp [JsNumber.equals]

variable {dep : JsNumber}

theorem less_zero (integer : dep.isInteger = true) (nonneg : dep.less 0 = false) : ∃ j : ℕ, dep = j := by
  refine JsNumber.exists_nat integer ?_
  cases dep with
  | nan => cases integer
  | infinite negative => cases integer
  | finite value =>
    have nonneg : (0 : ℚ) ≤ value := by simpa [JsNumber.less, JsNumber.ofNat_eq] using nonneg
    simpa [JsNumber.ofNat_eq] using nonneg

variable {count position : ℕ}

theorem dependencyError_eq_none :
    dependencyError numberText count position dep = none ↔ ∃ j < count, dep = (j : JsNumber) ∧ j ≠ position := by
  unfold dependencyError
  split
  · rename_i unknown
    refine iff_of_false (Option.some_ne_none _) ?_
    rintro ⟨j, less, rfl, -⟩
    have nonneg : (j : JsNumber).less 0 = false := by simp [JsNumber.less]
    rw [JsNumber.isInteger_cast, nonneg, Bool.not_true, Bool.false_or, Bool.false_or, JsNumber.cast_atMost] at unknown
    omega
  · rename_i known
    rw [Bool.or_eq_true, Bool.or_eq_true, not_or, not_or, Bool.not_eq_true', Bool.not_eq_false] at known
    obtain ⟨⟨integer, nonneg⟩, less⟩ := known
    obtain ⟨j, rfl⟩ := less_zero integer (Bool.not_eq_true _ ▸ nonneg)
    rw [JsNumber.cast_atMost] at less
    split
    · rename_i own
      refine iff_of_false (Option.some_ne_none _) ?_
      rintro ⟨k, -, same, other⟩
      rw [equals_cast] at own
      exact other ((JsNumber.cast_inj.mp same).symm.trans own)
    · rename_i other
      rw [equals_cast] at other
      exact iff_of_true rfl ⟨j, by omega, rfl, other⟩

theorem eq_empty_of_length {text : String} (none : JsString.length text = 0) : text = "" := by
  have chars : text.toList = [] := by
    cases listed : text.toList with
    | nil => rfl
    | cons c rest =>
      rw [JsString.length, listed, map_cons, sum_cons] at none
      split at none <;> omega
  rw [← @String.ofList_toList text, chars]

theorem stepError_eq_none {step : TaskTemplateStepInput Repo}
    (titled : JsString.trim step.title ≠ "" ∧ JsString.length step.title ≤ 200) :
    stepError numberText count position step = none ↔
      ∀ dep ∈ step.dependsOn.getD [], ∃ j < count, dep = (j : JsNumber) ∧ j ≠ position := by
  have accepted : titleError position step.title = none := by
    unfold titleError
    rw [if_neg, if_neg (by omega)]
    exact fun empty => titled.1 (eq_empty_of_length empty)
  rw [stepError, accepted, Option.none_or, findSome?_eq_none_iff]
  simp only [uniqueDependencies, mem_eraseDups, dependencyError_eq_none]

theorem bind_ok {α β : Type} {first : Checked α} {next : α → Checked β} {result : β}
    (accepted : (first >>= next) = .ok result) : ∃ a, first = .ok a ∧ next a = .ok result := by
  cases first with
  | error message => cases accepted
  | ok a => exact ⟨a, rfl, accepted⟩

theorem normalizeFrom_ok {inputs : List (TaskTemplateStepInput Repo)}
    {steps : List (TaskTemplateStep Repo)} :
    normalizeFrom numberText count position inputs = .ok steps ↔
      steps = inputs.mapIdx (fun i step => storedStep (position + i) step) ∧
        ∀ (i : ℕ) (step : TaskTemplateStepInput Repo), inputs[i]? = some step →
          stepError numberText count (position + i) step = none := by
  induction inputs generalizing position steps with
  | nil =>
    constructor
    · intro accepted
      obtain rfl : [] = steps := Except.ok.inj accepted
      exact ⟨rfl, fun i step listed => by simp at listed⟩
    · rintro ⟨rfl, -⟩
      rfl
  | cons input rest ih =>
    unfold normalizeFrom normalizeStep
    cases refused : stepError numberText count position input with
    | some message =>
      refine iff_of_false (fun accepted => nomatch accepted) fun both => ?_
      have clear := both.2 0 input rfl
      rw [Nat.add_zero, refused] at clear
      cases clear
    | none =>
      constructor
      · intro accepted
        obtain ⟨first, kept, accepted⟩ := bind_ok accepted
        obtain rfl : storedStep position input = first := Except.ok.inj kept
        obtain ⟨later, went, same⟩ := bind_ok accepted
        obtain ⟨stored, clear⟩ := ih.mp went
        obtain rfl : storedStep position input :: later = steps := Except.ok.inj same
        refine ⟨?_, fun i step listed => ?_⟩
        · rw [mapIdx_cons, stored]
          simp only [Nat.add_zero, Nat.add_assoc, Nat.add_comm 1]
        · cases i with
          | zero =>
            obtain rfl : input = step := Option.some.inj listed
            exact refused
          | succ i =>
            rw [Nat.add_comm i 1, ← Nat.add_assoc]
            exact clear i step listed
      · rintro ⟨rfl, clear⟩
        have went : normalizeFrom numberText count (position + 1) rest =
            .ok (rest.mapIdx fun i step => storedStep (position + 1 + i) step) := by
          refine ih.mpr ⟨rfl, fun i step listed => ?_⟩
          rw [Nat.add_assoc, Nat.add_comm 1]
          exact clear (i + 1) step listed
        show (do
          let later ← normalizeFrom numberText count (position + 1) rest
          return storedStep position input :: later : Checked _) = _
        rw [went, mapIdx_cons]
        simp only [Nat.add_zero, Nat.add_assoc, Nat.add_comm 1]
        rfl

/-! ## The loop as a topological sort -/

section
variable {steps : List (TaskTemplateStep Repo)}

def preds (steps : List (TaskTemplateStep Repo)) (i : ℕ) : List ℕ := (dependsOn steps i).filterMap JsNumber.index

structure Placed (steps : List (TaskTemplateStep Repo)) : Prop where
  cast : ∀ i, dependsOn steps i = (preds steps i).map (Nat.cast : ℕ → JsNumber)
  inside : ∀ i, ∀ j ∈ preds steps i, j < steps.length
  single : ∀ i, (preds steps i).Nodup

structure Alike (sweep : Sweep) (state : Kahn.State ℕ) : Prop where
  indegree : sweep.indegree = state.inDegree
  queue : sweep.queue = state.queue
  visited : sweep.visited = state.sorted.length

theorem mem_dependsOn (placed : Placed steps) {i j : ℕ} : (j : JsNumber) ∈ dependsOn steps i ↔ j ∈ preds steps i := by
  rw [placed.cast, mem_map]
  constructor
  · rintro ⟨k, listed, same⟩
    rwa [← JsNumber.cast_inj.mp same]
  · exact fun listed => ⟨j, listed, rfl⟩

theorem dependents_eq (placed : Placed steps) (current : ℕ) :
    dependents steps current = Kahn.successors (List.range steps.length) (preds steps) current := by
  have waits (i : ℕ) : ((dependsOn steps i).filter (· = (current : JsNumber))).map (fun _ => i) =
      if current ∈ preds steps i then [i] else [] := by
    rw [placed.cast, filter_map, List.map_map]
    have same : (fun number => decide (number = (current : JsNumber))) ∘ (Nat.cast : ℕ → JsNumber) =
        fun j => decide (j = current) := by
      funext j
      simp
    rw [same]
    split
    · rename_i listed
      rw [filter_eq, count_eq_one_of_mem (placed.single i) listed]
      rfl
    · rename_i absent
      rw [filter_eq, count_eq_zero_of_not_mem absent]
      rfl
  unfold dependents Kahn.successors
  simp only [waits]
  induction List.range steps.length with
  | nil => rfl
  | cons i rest ih =>
    rw [flatMap_cons, ih]
    split
    · rename_i listed
      rw [filter_cons_of_pos (by simpa using listed)]
      rfl
    · rename_i absent
      rw [filter_cons_of_neg (by simpa using absent)]
      rfl

theorem alike_start (placed : Placed steps) :
    Alike (startSweep steps) (Kahn.start (List.range steps.length) (preds steps)) := by
  have length (i : ℕ) : (dependsOn steps i).length = (preds steps i).length := by rw [placed.cast, length_map]
  constructor
  · funext i
    exact congrArg Nat.cast (length i)
  · exact filter_congr fun i _ => by rw [length]
  · rfl

theorem release_eq : release = Kahn.relax ([] : List ℕ) := by
  funext state node
  simp [release, Kahn.relax]

theorem alike_step (placed : Placed steps) {sweep : Sweep} {state : Kahn.State ℕ} (alike : Alike sweep state)
    (inv : Kahn.Invariant (List.range steps.length) (preds steps) state) :
    Alike (visitNext steps sweep) (Kahn.step (List.range steps.length) (preds steps) state) := by
  cases queued : state.queue with
  | nil =>
    rw [Kahn.step_nil queued, visitNext, alike.queue, queued]
    exact alike
  | cons current rest =>
    have unvisited := inv.unvisited queued
    rw [Kahn.step_cons nodup_range queued unvisited, visitNext, alike.queue, queued]
    dsimp only
    rw [release_eq, dependents_eq placed, Kahn.relax_fold (Kahn.successors_nodup nodup_range), alike.indegree]
    constructor
    · rfl
    · show rest ++ _ = rest ++ _
      congr 1
      refine filter_congr fun node listed => ?_
      -- A step that waits for `current` was not taken before it.
      have waits : current ∈ preds steps node := by simpa using (mem_filter.mp listed).2
      have fresh : node ∉ current :: state.visited := by
        intro early
        have named : node ∈ state.sorted ++ state.queue := by
          rcases mem_cons.mp early with rfl | before
          · exact mem_append_right _ (by rw [queued]; exact mem_cons_self)
          · exact mem_append_left _ ((inv.visited node).mp before)
        exact unvisited ((inv.visited current).mpr (inv.free node named current waits))
      simp [fresh]
    · show sweep.visited + 1 = (state.sorted ++ [current]).length
      rw [alike.visited, length_append, length_singleton]

theorem alike_iterate (placed : Placed steps) (turns : ℕ) :
    Alike ((visitNext steps)^[turns] (startSweep steps))
      ((Kahn.step (List.range steps.length) (preds steps))^[turns] (Kahn.start (List.range steps.length) (preds steps))) := by
  induction turns with
  | zero => exact alike_start placed
  | succ turns ih =>
    rw [Function.iterate_succ_apply', Function.iterate_succ_apply']
    exact alike_step placed ih (Kahn.iterate_invariant (preds steps) nodup_range turns).1

theorem sweepAll_visited (placed : Placed steps) : (sweepAll steps).visited = steps.length ↔
    Acyclic (Kahn.Precedes (List.range steps.length) (preds steps)) := by
  have counted : (sweepAll steps).visited = (Kahn.sort (List.range steps.length) (preds steps)).length := by
    rw [sweepAll, (alike_iterate placed steps.length).visited, Kahn.sort, Kahn.finish, length_range]
  have whole := @Kahn.sort_perm_iff _ _ (List.range steps.length) (preds steps) nodup_range
    fun i _ j listed => mem_range.mpr (placed.inside i j listed)
  rw [and_iff_left fun i _ => placed.single i] at whole
  rw [counted, ← whole]
  constructor
  · intro full
    refine List.Subperm.perm_of_length_le (subperm_of_subset (Kahn.sort_nodup nodup_range)
      (Kahn.sort_subset nodup_range)) ?_
    rw [full, length_range]
  · intro perm
    rw [perm.length_eq, length_range]

end

/-! ## Accepted lists -/

section
variable {inputs : List (TaskTemplateStepInput Repo)}

def storedSteps (inputs : List (TaskTemplateStepInput Repo)) : List (TaskTemplateStep Repo) := inputs.mapIdx storedStep

theorem getElem?_storedSteps (i : ℕ) : (storedSteps inputs)[i]? = inputs[i]?.map (storedStep i) := by
  rw [storedSteps, getElem?_mapIdx]

theorem dependsOn_storedSteps (i : ℕ) :
    dependsOn (storedSteps inputs) i = (inputs[i]?.map uniqueDependencies).getD [] := by
  rw [dependsOn, getElem?_storedSteps]
  cases inputs[i]? with
  | none => rfl
  | some step =>
    show (if 0 < (uniqueDependencies step).length then some (uniqueDependencies step) else none).getD [] = _
    split
    · rfl
    · rename_i empty
      exact (length_eq_zero_iff.mp (Nat.eq_zero_of_not_pos empty)).symm

theorem nodup_eraseDups {α : Type} [DecidableEq α] (items : List α) : items.eraseDups.Nodup := by
  induction counted : items.length using Nat.strong_induction_on generalizing items with
  | _ count ih =>
    cases items with
    | nil => exact nodup_nil
    | cons item rest =>
      rw [eraseDups_cons]
      have shorter : (rest.filter fun other => !other == item).length < count := by
        have := length_filter_le (fun other => !other == item) rest
        rw [length_cons] at counted
        omega
      refine nodup_cons.mpr ⟨fun again => ?_, ih _ shorter _ rfl⟩
      simpa using (mem_filter.mp (mem_eraseDups.mp again)).2

theorem cast_index {numbers : List JsNumber} (named : ∀ number ∈ numbers, ∃ j : ℕ, number = j) :
    numbers = (numbers.filterMap JsNumber.index).map Nat.cast := by
  induction numbers with
  | nil => rfl
  | cons number rest ih =>
    obtain ⟨j, rfl⟩ := named number mem_cons_self
    rw [filterMap_cons, JsNumber.index_cast, map_cons,
      ← ih fun number listed => named number (mem_cons_of_mem _ listed)]

theorem mem_dependsOn_storedSteps {i : ℕ} :
    dep ∈ dependsOn (storedSteps inputs) i ↔ ∃ step, inputs[i]? = some step ∧ dep ∈ step.dependsOn.getD [] := by
  rw [dependsOn_storedSteps]
  cases inputs[i]? with
  | none => exact iff_of_false not_mem_nil fun ⟨_, found, _⟩ => nomatch found
  | some step =>
    constructor
    · exact fun listed => ⟨step, rfl, mem_eraseDups.mp listed⟩
    · rintro ⟨_, found, listed⟩
      obtain rfl := Option.some.inj found
      exact mem_eraseDups.mpr listed

theorem placed_of_positions (positions : PositionsOfOthers inputs) : Placed (storedSteps inputs) := by
  have named (i : ℕ) : ∀ dep ∈ dependsOn (storedSteps inputs) i, ∃ j < inputs.length, dep = (j : JsNumber) := by
    intro dep listed
    obtain ⟨step, found, declared⟩ := mem_dependsOn_storedSteps.mp listed
    obtain ⟨j, less, same, -⟩ := positions i step found dep declared
    exact ⟨j, less, same⟩
  have cast (i : ℕ) : dependsOn (storedSteps inputs) i = (preds (storedSteps inputs) i).map (Nat.cast : ℕ → JsNumber) :=
    cast_index fun dep listed => (named i dep listed).imp fun _ both => both.2
  refine ⟨cast, fun i j listed => ?_, fun i => ?_⟩
  · have declared : (j : JsNumber) ∈ dependsOn (storedSteps inputs) i := by
      rw [cast]
      exact mem_map_of_mem listed
    obtain ⟨k, less, same⟩ := named i j declared
    rw [JsNumber.cast_inj.mp same, storedSteps, length_mapIdx]
    exact less
  · have single : (dependsOn (storedSteps inputs) i).Nodup := by
      rw [dependsOn_storedSteps]
      cases inputs[i]? with
      | none => exact nodup_nil
      | some step => exact nodup_eraseDups _
    rw [cast] at single
    exact single.of_map _

theorem mem_preds_storedSteps (positions : PositionsOfOthers inputs) {i j : ℕ} :
    j ∈ preds (storedSteps inputs) i ↔ DependsOn inputs i j := by
  rw [← mem_dependsOn (placed_of_positions positions), mem_dependsOn_storedSteps, DependsOn]

theorem acyclic_storedSteps (positions : PositionsOfOthers inputs) :
    Acyclic (Kahn.Precedes (List.range (storedSteps inputs).length) (preds (storedSteps inputs))) ↔
      Acyclic (DependsOn inputs) := by
  have edge (i j : ℕ) : Kahn.Precedes (List.range (storedSteps inputs).length) (preds (storedSteps inputs)) j i ↔
      DependsOn inputs i j := by
    rw [Kahn.Precedes, mem_preds_storedSteps positions, mem_range, storedSteps, length_mapIdx]
    refine and_iff_right_of_imp ?_
    rintro ⟨step, found, -⟩
    exact (List.getElem?_eq_some_iff.mp found).1
  constructor
  · intro acyclic i cycle
    exact acyclic i (transGen_swap.mp (TransGen.mono (fun a b depends => (edge a b).mpr depends) _ _ cycle))
  · intro acyclic i cycle
    exact acyclic i (transGen_swap.mp (TransGen.mono (fun a b precedes => (edge b a).mp precedes) _ _ cycle))

/-- A list is accepted exactly if it is of a fitting length, its steps pass one by one and no dependencies go round in a
circle; then its steps are stored as they are. -/
theorem normalizeSteps_ok {steps : List (TaskTemplateStep Repo)} (titled : ValidTitles inputs) (nonempty : inputs ≠ [])
    (few : inputs.length ≤ maxTemplateSteps) : normalizeSteps numberText maxTemplateSteps inputs = .ok steps ↔
      steps = storedSteps inputs ∧ PositionsOfOthers inputs ∧ Acyclic (DependsOn inputs) := by
  have positions : (∀ (i : ℕ) (step : TaskTemplateStepInput Repo), inputs[i]? = some step →
      stepError numberText inputs.length (0 + i) step = none) ↔ PositionsOfOthers inputs := by
    refine forall_congr' fun i => forall_congr' fun step => forall_congr' fun found => ?_
    rw [Nat.zero_add, stepError_eq_none (titled step (mem_of_getElem? found))]
  have stored : inputs.mapIdx (fun i step => storedStep (0 + i) step) = storedSteps inputs := by
    simp only [Nat.zero_add]
    rfl
  unfold normalizeSteps
  rw [if_neg fun empty => nonempty (length_eq_zero_iff.mp empty), if_neg (Nat.not_lt.mpr few)]
  constructor
  · intro accepted
    obtain ⟨kept, went, accepted⟩ := bind_ok accepted
    obtain ⟨rfl, clear⟩ := normalizeFrom_ok.mp went
    obtain ⟨_, checked, same⟩ := bind_ok accepted
    rw [stored] at checked same
    have positions := positions.mp clear
    refine ⟨(Except.ok.inj same).symm, positions, (acyclic_storedSteps positions).mp ?_⟩
    refine (sweepAll_visited (placed_of_positions positions)).mp ?_
    by_contra missed
    rw [assertAcyclic, if_pos missed] at checked
    cases checked
  · rintro ⟨rfl, others, acyclic⟩
    have went : normalizeFrom numberText inputs.length 0 inputs = .ok (storedSteps inputs) :=
      normalizeFrom_ok.mpr ⟨stored.symm, positions.mpr others⟩
    have visited := (sweepAll_visited (placed_of_positions others)).mpr ((acyclic_storedSteps others).mpr acyclic)
    rw [went]
    show (do
      assertAcyclic (storedSteps inputs)
      return storedSteps inputs : Checked _) = _
    rw [assertAcyclic, if_neg (not_not.mpr visited)]
    rfl

end

end EverWorks.Tasks.Templates
