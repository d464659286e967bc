import EverWorks.Lib.Acyclic
import Mathlib.Data.List.Shortlex

/-!
# Topological sorting with a first-in first-out queue

The nodes of a list are sorted by repeatedly taking a node off the front of the queue and queueing the nodes whose in-
degree it brings down to zero. They come out in the shortlex order of their critical paths.
-/

namespace EverWorks.Lib.Kahn
open List

variable {α : Type*} [DecidableEq α] (nodes : List α) (preds : α → List α)

structure State (α : Type*) where
  queue : List α
  inDegree : α → Int
  visited : List α
  sorted : List α

def successors (current : α) : List α :=
  nodes.filter fun node => current ∈ preds node

def start : State α where
  queue := nodes.filter fun node => (preds node).length = 0
  inDegree node := (preds node).length
  visited := []
  sorted := []

def relax (visited : List α) (state : (α → Int) × List α) (node : α) : (α → Int) × List α :=
  let degree := state.1 node - 1
  (fun other => if other = node then degree else state.1 other,
    if degree = 0 ∧ node ∉ visited then state.2 ++ [node] else state.2)

def step (state : State α) : State α :=
  match state.queue with
  | [] => state
  | current :: rest =>
    if current ∈ state.visited then { state with queue := rest }
    else
      let visited := current :: state.visited
      let relaxed := (successors nodes preds current).foldl (relax visited) (state.inDegree, rest)
      { queue := relaxed.2, inDegree := relaxed.1, visited := visited,
        sorted := state.sorted ++ [current] }

def finish : State α :=
  (step nodes preds)^[nodes.length] (start nodes preds)

def sort : List α :=
  (finish nodes preds).sorted

/-! ## One turn -/

theorem relax_fold {visited : List α} {successors : List α} (unique : successors.Nodup)
    (degrees : α → Int) (queue : List α) :
    successors.foldl (relax visited) (degrees, queue) =
      (fun node => if node ∈ successors then degrees node - 1 else degrees node,
        queue ++ successors.filter fun node => degrees node - 1 = 0 ∧ node ∉ visited) := by
  induction successors generalizing degrees queue with
  | nil => simp
  | cons node rest ih =>
    obtain ⟨fresh, unique⟩ := nodup_cons.mp unique
    rw [foldl_cons, relax, ih unique]
    have same : ∀ other ∈ rest, (if other = node then degrees node - 1 else degrees other) =
        degrees other := by
      intro other member
      rw [if_neg]
      rintro rfl
      exact fresh member
    refine Prod.ext ?_ ?_
    · funext other
      by_cases first : other = node
      · subst first
        simp [fresh]
      · simp [first]
    · have tail : (rest.filter fun other =>
          (if other = node then degrees node - 1 else degrees other) - 1 = 0 ∧ other ∉ visited) =
          rest.filter fun other => degrees other - 1 = 0 ∧ other ∉ visited := by
        apply filter_congr
        intro other member
        rw [same other member]
      by_cases released : degrees node - 1 = 0 ∧ node ∉ visited
      · simp only [if_pos released, tail, append_assoc, singleton_append]
        rw [filter_cons_of_pos (by simpa using released)]
      · simp only [if_neg released, tail]
        rw [filter_cons_of_neg (by simpa using released)]

/-- The nodes a turn that visits `current` queues. -/
def released (state : State α) (current : α) : List α :=
  (successors nodes preds current).filter fun node =>
    state.inDegree node - 1 = 0 ∧ node ∉ current :: state.visited

variable {nodes preds} {state : State α} {current : α} {rest : List α}

theorem successors_nodup (distinct : nodes.Nodup) : (successors nodes preds current).Nodup :=
  distinct.filter _

theorem step_nil (empty : state.queue = []) : step nodes preds state = state := by
  unfold step
  rw [empty]

theorem step_cons (distinct : nodes.Nodup) (queued : state.queue = current :: rest)
    (unvisited : current ∉ state.visited) :
    step nodes preds state =
      { queue := rest ++ released nodes preds state current
        inDegree := fun node => if node ∈ successors nodes preds current then
          state.inDegree node - 1 else state.inDegree node
        visited := current :: state.visited
        sorted := state.sorted ++ [current] } := by
  unfold step
  rw [queued]
  simp only [if_neg unvisited]
  rw [relax_fold (successors_nodup distinct)]
  rfl

/-! ## What every turn keeps -/

variable (nodes preds) in
structure Invariant (state : State α) : Prop where
  visited : ∀ node, node ∈ state.visited ↔ node ∈ state.sorted
  unique : (state.sorted ++ state.queue).Nodup
  inside : state.sorted ++ state.queue ⊆ nodes
  degree : ∀ node ∈ nodes, state.inDegree node =
    (preds node).length - (state.sorted.filter (· ∈ preds node)).length
  free : ∀ node ∈ state.sorted ++ state.queue, ∀ pred ∈ preds node, pred ∈ state.sorted

theorem mem_of_count {done entries : List α} (unique : done.Nodup)
    (all : (done.filter (· ∈ entries)).length = entries.length) : ∀ entry ∈ entries, entry ∈ done := by
  have inside : done.filter (· ∈ entries) ⊆ entries := by
    intro entry member
    simpa using (mem_filter.mp member).2
  have sub : List.Subperm (done.filter (· ∈ entries)) entries :=
    subperm_of_subset (unique.filter _) inside
  have perm := sub.perm_of_length_le all.ge
  intro entry member
  exact (mem_filter.mp (perm.mem_iff.mpr member)).1

theorem start_invariant (distinct : nodes.Nodup) : Invariant nodes preds (start nodes preds) := by
  constructor
  · simp [start]
  · simpa [start] using distinct.filter _
  · intro node member
    exact (mem_filter.mp member).1
  · simp [start]
  · intro node member pred entry
    have free : preds node = [] := by simpa using (mem_filter.mp member).2
    rw [free] at entry
    cases entry

theorem Invariant.unvisited (inv : Invariant nodes preds state)
    (queued : state.queue = current :: rest) : current ∉ state.visited := by
  rw [inv.visited]
  intro member
  have unique := inv.unique
  rw [queued, nodup_append] at unique
  exact unique.2.2 current member current mem_cons_self rfl

variable {node : α}

theorem Invariant.mem_released (inv : Invariant nodes preds state)
    (queued : state.queue = current :: rest)
    (member : node ∈ released nodes preds state current) :
    node ∈ nodes ∧ current ∈ preds node ∧ node ∉ state.sorted ++ state.queue ∧
      ∀ pred ∈ preds node, pred ∈ state.sorted ++ [current] := by
  have unvisited := inv.unvisited queued
  rw [inv.visited] at unvisited
  obtain ⟨successor, ready⟩ := mem_filter.mp member
  obtain ⟨present, waits⟩ := mem_filter.mp successor
  have waits : current ∈ preds node := by simpa using waits
  have ready : state.inDegree node - 1 = 0 := by
    have := (of_decide_eq_true ready).1
    exact this
  have degree := inv.degree node present
  have unique : (state.sorted ++ [current]).Nodup := by
    rw [nodup_append_comm]
    have := inv.unique
    rw [queued, append_cons] at this
    rw [nodup_append_comm]
    exact (nodup_append.mp this).1
  refine ⟨present, waits, ?_, ?_⟩
  · intro early
    exact unvisited (inv.free node early current waits)
  · apply mem_of_count unique
    rw [filter_append, length_append]
    have self : ([current].filter (· ∈ preds node)).length = 1 := by simp [waits]
    omega

theorem Invariant.step (inv : Invariant nodes preds state) (distinct : nodes.Nodup) :
    Invariant nodes preds (step nodes preds state) := by
  cases queued : state.queue with
  | nil =>
    rw [step_nil queued]
    exact inv
  | cons current rest =>
    have unvisited := inv.unvisited queued
    have line : state.sorted ++ [current] ++ (rest ++ released nodes preds state current) =
        (state.sorted ++ state.queue) ++ released nodes preds state current := by
      rw [queued]
      simp
    rw [step_cons distinct queued unvisited]
    constructor
    · intro node
      simp [inv.visited, or_comm]
    · dsimp only
      rw [line]
      refine inv.unique.append ((successors_nodup distinct).filter _) ?_
      intro node early late
      exact (inv.mem_released queued late).2.2.1 early
    · dsimp only
      rw [line]
      intro node member
      rcases mem_append.mp member with early | late
      · exact inv.inside early
      · exact (inv.mem_released queued late).1
    · intro node present
      dsimp only
      have degree := inv.degree node present
      rw [filter_append, length_append]
      by_cases waits : current ∈ preds node
      · have successor : node ∈ successors nodes preds current :=
          mem_filter.mpr ⟨present, by simpa using waits⟩
        have self : ([current].filter (· ∈ preds node)).length = 1 := by simp [waits]
        rw [if_pos successor]
        omega
      · have other : node ∉ successors nodes preds current := by
          intro successor
          exact waits (by simpa using (mem_filter.mp successor).2)
        have none : ([current].filter (· ∈ preds node)).length = 0 := by simp [waits]
        rw [if_neg other]
        omega
    · dsimp only
      rw [line]
      intro node member pred entry
      rcases mem_append.mp member with early | late
      · exact mem_append_left _ (inv.free node early pred entry)
      · exact (inv.mem_released queued late).2.2.2 pred entry

/-! ## Critical paths -/

/-- Shorter first, and among paths of one length the lexicographically smaller one. -/
def Before (first second : List Nat) : Prop :=
  List.Shortlex (· < ·) first second

instance : DecidableRel Before := fun _ _ => decidable_of_iff _ shortlex_def.symm

def last (paths : List (List Nat)) : List Nat :=
  paths.foldl (fun best path => if Before best path then path else best) []

variable (nodes preds) in
/-- The places in the node list of a node and of the predecessors it waits for longest, over at most
`fuel` edges. -/
def criticalPath : Nat → α → List Nat
  | 0, node => [nodes.idxOf node]
  | fuel + 1, node => last ((preds node).map (criticalPath fuel)) ++ [nodes.idxOf node]

variable (nodes preds) in
def path (node : α) : List Nat :=
  criticalPath nodes preds nodes.length node

theorem before_irrefl (path : List Nat) : ¬ Before path path :=
  fun self => Std.Asymm.asymm (r := List.Shortlex (· < ·)) _ _ self self

variable {first second : List Nat}

theorem before_asymm (ahead : Before first second) :
    ¬ Before second first :=
  Std.Asymm.asymm (r := List.Shortlex (· < ·)) _ _ ahead

variable {i j : Nat}

theorem before_of_singleton {path : List Nat} (given : path ≠ []) :
    Before [i] (path ++ [j]) := by
  apply List.Shortlex.of_length_lt
  have := length_pos_of_ne_nil given
  simp
  omega

theorem before_snoc_of_lt (path : List Nat) (less : i < j) :
    Before (path ++ [i]) (path ++ [j]) :=
  List.Shortlex.append_left ((shortlex_singleton_iff i j).mpr less) path

theorem lex_snoc (same : first.length = second.length)
    (less : List.Lex (· < ·) first second) :
    List.Lex (· < ·) (first ++ [i]) (second ++ [j]) := by
  induction less with
  | nil => cases same
  | cons _ ih => exact List.Lex.cons (ih (by simpa using same))
  | rel smaller => exact List.Lex.rel smaller

theorem before_snoc (ahead : Before first second) :
    Before (first ++ [i]) (second ++ [j]) := by
  rcases shortlex_def.mp ahead with shorter | ⟨same, less⟩
  · apply List.Shortlex.of_length_lt
    simpa using shorter
  · exact List.Shortlex.of_lex (by simp [same]) (lex_snoc same less)

theorem last_eq {paths : List (List Nat)} {best : List Nat} (given : best ≠ [])
    (member : best ∈ paths) (top : ∀ path ∈ paths, path = best ∨ Before path best) :
    last paths = best := by
  have folded : ∀ (paths : List (List Nat)) (current : List Nat),
      (∀ path ∈ paths, path = best ∨ Before path best) →
      (current = best ∨ Before current best) → (best ∈ paths ∨ current = best) →
      paths.foldl (fun best path => if Before best path then path else best) current = best := by
    intro paths
    induction paths with
    | nil =>
      intro current _ _ reached
      exact reached.resolve_left (by simp)
    | cons path rest ih =>
      intro current top below reached
      rw [foldl_cons]
      have here := top path mem_cons_self
      apply ih _ (fun other later => top other (mem_cons_of_mem _ later))
      · split
        · exact here
        · exact below
      · by_cases done : current = best
        · right
          rw [done, if_neg]
          rcases here with rfl | ahead
          · exact before_irrefl _
          · exact before_asymm ahead
        · rcases mem_cons.mp (reached.resolve_right done) with rfl | later
          · exact Or.inr (if_pos (below.resolve_left done))
          · exact Or.inl later
  apply folded paths [] top
  · exact Or.inr ((shortlex_nil_or_eq_nil best).resolve_right given)
  · exact Or.inl member

theorem criticalPath_ne_nil (fuel : Nat) (node : α) : criticalPath nodes preds fuel node ≠ [] := by
  cases fuel <;> simp [criticalPath]

theorem criticalPath_root (root : preds node = []) (fuel : Nat) :
    criticalPath nodes preds fuel node = [nodes.idxOf node] := by
  cases fuel with
  | zero => rfl
  | succ fuel => simp [criticalPath, root, last]

theorem pairwise_idxOf (distinct : nodes.Nodup) :
    nodes.Pairwise fun first second => nodes.idxOf first < nodes.idxOf second := by
  rw [pairwise_iff_getElem]
  intro i j iBound jBound less
  rw [distinct.idxOf_getElem, distinct.idxOf_getElem]
  exact less

variable (nodes preds) in
structure Ranked (state : State α) : Prop where
  settled : ∀ node ∈ state.sorted ++ state.queue, ∀ fuel, state.sorted.length ≤ fuel →
    criticalPath nodes preds fuel node = path nodes preds node
  origin : ∀ node ∈ state.sorted ++ state.queue,
    path nodes preds node = [nodes.idxOf node] ∨
    ∃ pred ∈ state.sorted, path nodes preds node = path nodes preds pred ++ [nodes.idxOf node]
  ordered : (state.sorted ++ state.queue).Pairwise fun first second =>
    Before (path nodes preds first) (path nodes preds second)

theorem start_ranked (distinct : nodes.Nodup) : Ranked nodes preds (start nodes preds) := by
  have root : ∀ node ∈ (start nodes preds).sorted ++ (start nodes preds).queue,
      preds node = [] := by
    intro node member
    simpa using (mem_filter.mp member).2
  constructor
  · intro node member fuel _
    rw [path, criticalPath_root (root node member), criticalPath_root (root node member)]
  · intro node member
    exact Or.inl (criticalPath_root (root node member) _)
  · refine ((pairwise_idxOf distinct).filter _).imp_of_mem ?_
    intro first second firstIn secondIn less
    rw [path, path, criticalPath_root (root first firstIn), criticalPath_root (root second secondIn)]
    exact before_snoc_of_lt [] less

theorem Ranked.released_path (ranked : Ranked nodes preds state) (inv : Invariant nodes preds state)
    (queued : state.queue = current :: rest)
    (member : node ∈ released nodes preds state current) {fuel : Nat}
    (enough : state.sorted.length + 1 ≤ fuel) :
    criticalPath nodes preds fuel node = path nodes preds current ++ [nodes.idxOf node] := by
  obtain ⟨-, waits, -, preds_⟩ := inv.mem_released queued member
  obtain ⟨fuel, rfl⟩ : ∃ less, fuel = less + 1 := ⟨fuel - 1, by omega⟩
  have ordered := ranked.ordered
  rw [queued, append_cons, pairwise_append] at ordered
  have known : ∀ pred ∈ state.sorted ++ [current],
      criticalPath nodes preds fuel pred = path nodes preds pred := by
    intro pred before
    refine ranked.settled pred ?_ fuel (by omega)
    rw [queued, append_cons]
    exact mem_append_left _ before
  rw [criticalPath]
  congr 1
  apply last_eq (criticalPath_ne_nil _ _)
  · refine mem_map.mpr ⟨current, waits, known current ?_⟩
    exact mem_append_right _ (mem_singleton_self _)
  · intro other inside
    obtain ⟨pred, entry, rfl⟩ := mem_map.mp inside
    have before := preds_ pred entry
    rw [known pred before]
    rcases mem_append.mp before with early | self
    · exact Or.inr ((pairwise_append.mp ordered.1).2.2 pred early current
        (mem_singleton_self _))
    · rw [mem_singleton.mp self]
      exact Or.inl rfl

theorem Invariant.sorted_lt (inv : Invariant nodes preds state)
    (queued : state.queue = current :: rest) : state.sorted.length + 1 ≤ nodes.length := by
  have fits := (subperm_of_subset inv.unique inv.inside).length_le
  rw [queued, length_append, length_cons] at fits
  omega

theorem Ranked.step (ranked : Ranked nodes preds state) (inv : Invariant nodes preds state)
    (distinct : nodes.Nodup) : Ranked nodes preds (step nodes preds state) := by
  cases queued : state.queue with
  | nil =>
    rw [step_nil queued]
    exact ranked
  | cons current rest =>
    have line : state.sorted ++ [current] ++ (rest ++ released nodes preds state current) =
        (state.sorted ++ state.queue) ++ released nodes preds state current := by
      rw [queued]
      simp
    have fresh : ∀ node ∈ released nodes preds state current,
        path nodes preds node = path nodes preds current ++ [nodes.idxOf node] :=
      fun node member => ranked.released_path inv queued member (inv.sorted_lt queued)
    rw [step_cons distinct queued (inv.unvisited queued)]
    constructor
    · dsimp only
      rw [line]
      intro node member fuel enough
      rw [length_append, length_singleton] at enough
      rcases mem_append.mp member with early | late
      · exact ranked.settled node early fuel (by omega)
      · rw [ranked.released_path inv queued late enough, fresh node late]
    · dsimp only
      rw [line]
      intro node member
      rcases mem_append.mp member with early | late
      · refine (ranked.origin node early).imp_right ?_
        rintro ⟨pred, before, found⟩
        exact ⟨pred, mem_append_left _ before, found⟩
      · exact Or.inr ⟨current, mem_append_right _ (mem_singleton_self _), fresh node late⟩
    · dsimp only
      rw [line]
      refine pairwise_append.mpr ⟨ranked.ordered, ?_, ?_⟩
      · refine (((pairwise_idxOf distinct).filter _).filter _).imp_of_mem ?_
        intro first second firstIn secondIn less
        rw [fresh first firstIn, fresh second secondIn]
        exact before_snoc_of_lt _ less
      · intro node early other late
        rw [fresh other late]
        rcases ranked.origin node early with root | ⟨pred, before, found⟩
        · rw [root]
          exact before_of_singleton (criticalPath_ne_nil _ _)
        · rw [found]
          have ordered := ranked.ordered
          rw [queued, pairwise_append] at ordered
          exact before_snoc (ordered.2.2 pred before current mem_cons_self)

/-! ## The whole run -/

variable (preds) in
theorem iterate_invariant (distinct : nodes.Nodup) (turns : Nat) :
    Invariant nodes preds ((step nodes preds)^[turns] (start nodes preds)) ∧
    Ranked nodes preds ((step nodes preds)^[turns] (start nodes preds)) := by
  induction turns with
  | zero => exact ⟨start_invariant distinct, start_ranked distinct⟩
  | succ turns ih =>
    rw [Function.iterate_succ_apply']
    exact ⟨ih.1.step distinct, ih.2.step ih.1 distinct⟩

theorem sort_nodup (distinct : nodes.Nodup) : (sort nodes preds).Nodup :=
  (nodup_append.mp (iterate_invariant preds distinct nodes.length).1.unique).1

theorem sort_subset (distinct : nodes.Nodup) : sort nodes preds ⊆ nodes :=
  fun _ member => (iterate_invariant preds distinct nodes.length).1.inside (mem_append_left _ member)

theorem finish_queue (distinct : nodes.Nodup) : (finish nodes preds).queue = [] := by
  have counted : ∀ turns, ((step nodes preds)^[turns] (start nodes preds)).queue = [] ∨
      ((step nodes preds)^[turns] (start nodes preds)).sorted.length = turns := by
    intro turns
    induction turns with
    | zero => exact Or.inr rfl
    | succ turns ih =>
      rw [Function.iterate_succ_apply']
      cases queued : ((step nodes preds)^[turns] (start nodes preds)).queue with
      | nil =>
        rw [step_nil queued]
        exact Or.inl queued
      | cons current rest =>
        have inv := (iterate_invariant preds distinct turns).1
        rw [step_cons distinct queued (inv.unvisited queued)]
        right
        rw [length_append, length_singleton,
          ih.resolve_left (by rw [queued]; exact cons_ne_nil _ _)]
  rcases counted nodes.length with empty | full
  · exact empty
  · have inv := (iterate_invariant preds distinct nodes.length).1
    have fits := (subperm_of_subset inv.unique inv.inside).length_le
    rw [length_append, full] at fits
    exact length_eq_zero_iff.mp (by unfold finish; omega)

omit [DecidableEq α] in
theorem sublist_or_sublist {list : List α} {first second : α} (firstIn : first ∈ list)
    (secondIn : second ∈ list) (distinct : first ≠ second) :
    List.Sublist [first, second] list ∨ List.Sublist [second, first] list := by
  induction list with
  | nil => cases firstIn
  | cons head tail ih =>
    rcases mem_cons.mp firstIn with rfl | firstLater
    · have later := (mem_cons.mp secondIn).resolve_left (Ne.symm distinct)
      exact Or.inl ((singleton_sublist.mpr later).cons_cons first)
    · rcases mem_cons.mp secondIn with rfl | secondLater
      · exact Or.inr ((singleton_sublist.mpr firstLater).cons_cons second)
      · exact (ih firstLater secondLater).imp (·.cons head) (·.cons head)

/-- **The shortlex law.** Of two sorted nodes the one whose critical path comes first is sorted
first. -/
theorem sublist_sort_iff (distinct : nodes.Nodup) {first second : α}
    (firstIn : first ∈ sort nodes preds) (secondIn : second ∈ sort nodes preds) :
    List.Sublist [first, second] (sort nodes preds) ↔
      Before (path nodes preds first) (path nodes preds second) := by
  obtain ⟨-, ranked⟩ := iterate_invariant preds distinct nodes.length
  have ordered := (pairwise_append.mp ranked.ordered).1
  constructor
  · intro inOrder
    exact pairwise_iff_forall_sublist.mp ordered inOrder
  · intro ahead
    have different : first ≠ second := by
      rintro rfl
      exact before_irrefl _ ahead
    refine (sublist_or_sublist firstIn secondIn different).resolve_right ?_
    intro reversed
    exact before_asymm ahead (pairwise_iff_forall_sublist.mp ordered reversed)

/-! ## Which graphs are sorted whole -/

def Ordered (preds : α → List α) (list : List α) : Prop :=
  ∀ before node after, list = before ++ node :: after → ∀ pred ∈ preds node, pred ∈ before

omit [DecidableEq α] in
theorem Ordered.snoc {list : List α} (ordered : Ordered preds list)
    (ready : ∀ pred ∈ preds node, pred ∈ list) : Ordered preds (list ++ [node]) := by
  intro before other after split
  rcases eq_nil_or_concat after with rfl | ⟨rest, last, rfl⟩
  · obtain ⟨rfl, same⟩ := append_inj' split rfl
    obtain rfl := head_eq_of_cons_eq same
    exact ready
  · rw [concat_eq_append, ← cons_append, ← append_assoc] at split
    exact ordered before other rest (append_inj' split rfl).1

/-- The sorted nodes stand in order, none that waits for nothing is forgotten, and a node that is released is named by
no predecessor twice. -/
structure Sorting (nodes : List α) (preds : α → List α) (state : State α) : Prop where
  ordered : Ordered preds state.sorted
  waiting : ∀ node ∈ nodes, state.inDegree node = 0 → node ∈ state.sorted ++ state.queue
  single : ∀ node ∈ state.sorted ++ state.queue, (preds node).Nodup

omit [DecidableEq α] in
variable (preds) in
theorem start_sorting : Sorting nodes preds (start nodes preds) := by
  refine ⟨fun before node after split => ?_, fun node present free => ?_, fun node queued => ?_⟩
  · cases append_eq_nil_iff.mp split.symm |>.2
  · have free : ((preds node).length : Int) = 0 := free
    exact mem_filter.mpr ⟨present, decide_eq_true (by omega)⟩
  · have free : (preds node).length = 0 := by simpa using (mem_filter.mp queued).2
    rw [length_eq_zero_iff.mp free]
    exact nodup_nil

theorem Invariant.single_released (inv : Invariant nodes preds state) (queued : state.queue = current :: rest)
    (member : node ∈ released nodes preds state current) : (preds node).Nodup := by
  obtain ⟨present, waits, -, -⟩ := inv.mem_released queued member
  have ready : state.inDegree node - 1 = 0 := (of_decide_eq_true (mem_filter.mp member).2).1
  have degree := inv.degree node present
  have unique : (state.sorted ++ [current]).Nodup := by
    have whole := inv.unique
    rw [queued, append_cons] at whole
    exact (nodup_append.mp whole).1
  have counted : ((state.sorted ++ [current]).filter (· ∈ preds node)).length = (preds node).length := by
    have self : ([current].filter (· ∈ preds node)).length = 1 := by simp [waits]
    rw [filter_append, length_append]
    omega
  have inside : (state.sorted ++ [current]).filter (· ∈ preds node) ⊆ preds node := fun entry listed => by
    simpa using (mem_filter.mp listed).2
  have sub := subperm_of_subset (unique.filter _) inside
  exact (sub.perm_of_length_le counted.ge).nodup (unique.filter _)

theorem Sorting.step (sorting : Sorting nodes preds state) (inv : Invariant nodes preds state)
    (distinct : nodes.Nodup) : Sorting nodes preds (step nodes preds state) := by
  cases queued : state.queue with
  | nil =>
    rw [step_nil queued]
    exact sorting
  | cons current rest =>
    have line : state.sorted ++ [current] ++ (rest ++ released nodes preds state current) =
        (state.sorted ++ state.queue) ++ released nodes preds state current := by
      rw [queued]
      simp
    rw [step_cons distinct queued (inv.unvisited queued)]
    refine ⟨sorting.ordered.snoc (inv.free current ?_), fun node present free => ?_, fun node listed => ?_⟩
    · rw [queued]
      exact mem_append_right _ mem_cons_self
    · dsimp only at free ⊢
      rw [line]
      split at free
      · rename_i successor
        by_cases visited : node ∈ current :: state.visited
        · rcases mem_cons.mp visited with rfl | early
          · rw [queued]
            exact mem_append_left _ (mem_append_right _ mem_cons_self)
          · exact mem_append_left _ (mem_append_left _ ((inv.visited node).mp early))
        · exact mem_append_right _ (mem_filter.mpr ⟨successor, decide_eq_true ⟨free, visited⟩⟩)
      · exact mem_append_left _ (sorting.waiting node present free)
    · dsimp only at listed
      rw [line] at listed
      rcases mem_append.mp listed with early | late
      · exact sorting.single node early
      · exact inv.single_released queued late

variable (preds) in
theorem finish_sorting (distinct : nodes.Nodup) : Sorting nodes preds (finish nodes preds) := by
  have after (turns : Nat) : Sorting nodes preds ((Kahn.step nodes preds)^[turns] (start nodes preds)) := by
    induction turns with
    | zero => exact start_sorting preds
    | succ turns ih =>
      rw [Function.iterate_succ_apply']
      exact ih.step (iterate_invariant preds distinct turns).1 distinct
  exact after nodes.length

theorem sort_ordered (distinct : nodes.Nodup) : Ordered preds (sort nodes preds) :=
  (finish_sorting preds distinct).ordered

variable (nodes preds) in
def Precedes (pred node : α) : Prop := node ∈ nodes ∧ pred ∈ preds node

theorem acyclic_of_ordered {list : List α} (unique : list.Nodup) (whole : nodes ⊆ list)
    (ordered : Ordered preds list) : Acyclic (Precedes nodes preds) := by
  have climbs {pred node : α} (edge : Precedes nodes preds pred node) : list.idxOf pred < list.idxOf node := by
    obtain ⟨before, after, split⟩ := append_of_mem (whole edge.1)
    have early := ordered before node after split pred edge.2
    have apart : node ∉ before := fun twice => by
      rw [split] at unique
      exact (nodup_append.mp unique).2.2 node twice node mem_cons_self rfl
    rw [split, idxOf_append_of_mem early, idxOf_append_of_notMem apart]
    exact (idxOf_lt_length_iff.mpr early).trans_le (Nat.le_add_right _ _)
  have path {first last : α} (path : Relation.TransGen (Precedes nodes preds) first last) :
      list.idxOf first < list.idxOf last := by
    induction path with
    | single edge => exact climbs edge
    | tail _ edge ih => exact ih.trans (climbs edge)
  exact fun node cycle => lt_irrefl _ (path cycle)

/-- All the nodes are sorted exactly if the graph has no cycle and no node names a predecessor twice. -/
theorem sort_perm_iff (distinct : nodes.Nodup) (inside : ∀ node ∈ nodes, preds node ⊆ nodes) :
    (sort nodes preds).Perm nodes ↔ Acyclic (Precedes nodes preds) ∧ ∀ node ∈ nodes, (preds node).Nodup := by
  have inv := (iterate_invariant preds distinct nodes.length).1
  have sorting := finish_sorting preds distinct
  have empty : (finish nodes preds).queue = [] := finish_queue distinct
  have unique : (sort nodes preds).Nodup := sort_nodup distinct
  constructor
  · intro perm
    refine ⟨acyclic_of_ordered unique perm.symm.subset sorting.ordered, fun node present => ?_⟩
    exact sorting.single node (mem_append_left _ (perm.mem_iff.mpr present))
  · rintro ⟨acyclic, single⟩
    suffices whole : nodes ⊆ sort nodes preds from
      ((subperm_of_subset distinct whole).antisymm (subperm_of_subset unique (sort_subset distinct))).symm
    intro lost present
    by_contra unsorted
    -- Of the nodes left out one has all its predecessors sorted, so nothing would keep it out of the queue.
    have reversed : Acyclic fun node pred => Precedes nodes preds pred node :=
      fun node cycle => acyclic node (Relation.transGen_swap.mp cycle)
    have finite : {node | node ∈ nodes ∧ node ∉ sort nodes preds}.Finite :=
      (finite_toSet nodes).subset fun _ both => both.1
    obtain ⟨node, ⟨present, unsorted⟩, first⟩ :=
      exists_last_of_acyclic reversed finite ⟨lost, present, unsorted⟩
    have ready : ∀ pred ∈ preds node, pred ∈ sort nodes preds := by
      intro pred entry
      by_contra late
      exact first pred ⟨inside node present entry, late⟩ ⟨present, entry⟩
    have same : ((sort nodes preds).filter (· ∈ preds node)).Perm (preds node) := by
      refine (perm_ext_iff_of_nodup (unique.filter _) (single node present)).mpr fun pred => ?_
      rw [mem_filter, decide_eq_true_iff]
      exact ⟨And.right, fun entry => ⟨ready pred entry, entry⟩⟩
    have degree : (finish nodes preds).inDegree node =
        (preds node).length - ((sort nodes preds).filter (· ∈ preds node)).length := inv.degree node present
    rw [same.length_eq, sub_self] at degree
    have there := sorting.waiting node present degree
    rw [empty, append_nil] at there
    exact unsorted there

end EverWorks.Lib.Kahn
