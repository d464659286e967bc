import Mathlib.Data.Finset.Card

/-!
Tarjan's search of a graph given by the successors of each of its names: names are numbered as they are entered, and a
name whose low link is its own number closes the component of the names above it on the stack.
-/

namespace EverWorks.Lib.Tarjan
open Relation List

variable {α : Type} [DecidableEq α]

structure State (α : Type) where
  index : α → Option Nat := fun _ => none
  low : α → Nat := fun _ => 0
  onStack : α → Bool := fun _ => false
  /-- Its top first. -/
  stack : List α := []
  components : List (List α) := []
  counter : Nat := 0

namespace State

def number (s : State α) (name : α) : Nat := (s.index name).getD 0

def enter (name : α) (s : State α) : State α :=
  { s with
    index := Function.update s.index name (some s.counter)
    low := Function.update s.low name s.counter
    counter := s.counter + 1
    stack := name :: s.stack
    onStack := Function.update s.onStack name true }

def lower (name : α) (bound : Nat) (s : State α) : State α :=
  { s with low := Function.update s.low name (min (s.low name) bound) }

end State

/-- The names popped up to one, and the stack below it. -/
def popTo (name : α) : List α → Option (List α × List α)
  | [] => none
  | member :: stack =>
    if member = name then some ([member], stack)
    else (popTo name stack).map fun (popped, below) => (member :: popped, below)

def close (name : α) (s : State α) : Option (State α) :=
  if some (s.low name) = s.index name then
    (popTo name s.stack).map fun (component, stack) =>
      { s with
        stack
        onStack := fun member => s.onStack member && !component.contains member
        components := s.components ++ [component] }
  else some s

def visit (connect : α → State α → Option (State α)) (name : α) (s : State α) (next : α) : Option (State α) :=
  if s.index next = none then (connect next s).map fun t => t.lower name (t.low next)
  else some (if s.onStack next then s.lower name (s.number next) else s)

def strongConnect (edges : α → List α) : Nat → α → State α → Option (State α)
  | 0, _, _ => none
  | fuel + 1, name, s => ((edges name).foldlM (visit (strongConnect edges fuel) name) (s.enter name)).bind (close name)

def search (edges : α → List α) (names : List α) : Option (State α) :=
  names.foldlM (fun s name => if s.index name = none then strongConnect edges names.length name s else some s) {}

/-! ## What holds between the steps -/

def Reaches (edges : α → List α) : α → α → Prop := ReflTransGen fun a b => b ∈ edges a

/-- Of two names in one component each reaches the other. -/
def Together (edges : α → List α) (a b : α) : Prop := Reaches edges a b ∧ Reaches edges b a

variable {edges : α → List α} {names gray : List α} {name next : α} {s s₀ t : State α} {done : List α}

/-- `gray` are the names whose successors are being visited. -/
structure Sound (edges : α → List α) (names gray : List α) (s : State α) : Prop where
  bounded : ∀ x ∈ s.stack, s.number x < s.counter
  sorted : s.stack.Pairwise fun x y => s.number y < s.number x
  marked : ∀ x, s.onStack x = true ↔ x ∈ s.stack
  seen : ∀ x, s.index x ≠ none ↔ x ∈ s.stack ∨ x ∈ s.components.flatten
  finished : ∀ x ∈ s.components.flatten, x ∉ s.stack
  known : ∀ x, s.index x ≠ none → x ∈ names
  underWay : gray ⊆ s.stack
  closed : ∀ x, s.index x ≠ none → x ∉ gray → ∀ y ∈ edges x, s.index y ≠ none
  forward : ∀ x ∈ s.stack, ∀ y ∈ s.stack, s.number x ≤ s.number y → Reaches edges x y
  back : ∀ y ∈ s.stack, ∃ x ∈ gray, s.number x ≤ s.number y ∧ Reaches edges y x
  whole : ∀ c ∈ s.components, c ≠ [] ∧ ∀ x ∈ c, ∀ y, y ∈ c ↔ Together edges x y
  apart : s.components.flatten.Nodup

def unseen (names : List α) (s : State α) : Finset α := names.toFinset.filter fun x => s.index x = none

/-- What a search from a name leaves: it adds to the stack names whose edges into the old stack its low link knows. -/
structure Connected (edges : α → List α) (names gray : List α) (name : α) (s t : State α) : Prop where
  sound : Sound edges names gray t
  grown : ∃ added, t.stack = added ++ s.stack ∧ ∀ z ∈ added, ∀ y ∈ edges z, y ∈ s.stack → t.low name ≤ t.number y
  kept : ∀ x, s.index x ≠ none → t.index x = s.index x ∧ t.low x = s.low x
  indexed : t.index name ≠ none
  fresh : s.counter ≤ t.number name
  low : t.low name ≤ t.number name
  finds : t.low name = t.number name ∨ ∃ y ∈ t.stack, t.number y = t.low name ∧ Reaches edges name y

/-- Between the visits of a name's successors, of which some are done. -/
structure Visiting (edges : α → List α) (names gray : List α) (name : α) (s₀ s : State α) (done : List α) : Prop where
  sound : Sound edges names (name :: gray) s
  grown : ∃ added, s.stack = added ++ name :: s₀.stack ∧
    ∀ z ∈ added, ∀ y ∈ edges z, y ∈ s₀.stack → s.low name ≤ s.number y
  kept : ∀ x, s₀.index x ≠ none → s.index x = s₀.index x ∧ s.low x = s₀.low x
  absent : s₀.index name = none
  index : s.index name = some s₀.counter
  low : s.low name ≤ s₀.counter
  finds : ∃ y ∈ s.stack, s.number y = s.low name ∧ Reaches edges name y
  done : ∀ y ∈ done, s.index y ≠ none ∧ (y ∈ s₀.stack → s.low name ≤ s.number y)

variable {x : α}

omit [DecidableEq α] in
theorem number_congr (same : t.index x = s.index x) : t.number x = s.number x := by
  rw [State.number, same, State.number]

theorem index_enter (name : α) (s : State α) (x : α) :
    (s.enter name).index x = if x = name then some s.counter else s.index x := Function.update_apply ..

theorem Sound.lower (sound : Sound edges names gray s) (x : α) (bound : Nat) :
    Sound edges names gray (s.lower x bound) :=
  ⟨sound.bounded, sound.sorted, sound.marked, sound.seen, sound.finished, sound.known, sound.underWay, sound.closed,
    sound.forward, sound.back, sound.whole, sound.apart⟩

omit [DecidableEq α] in
theorem Sound.indexed (sound : Sound edges names gray s) (member : x ∈ s.stack) : s.index x ≠ none :=
  (sound.seen x).mpr (Or.inl member)

/-! ## Entering a name -/

theorem Sound.enter (sound : Sound edges names gray s) (member : name ∈ names) (absent : s.index name = none)
    (reach : ∀ x ∈ gray, Reaches edges x name) : Sound edges names (name :: gray) (s.enter name) := by
  have apart {x : α} (indexed : s.index x ≠ none) : x ≠ name := by
    rintro rfl
    exact indexed absent
  have same {x : α} (indexed : s.index x ≠ none) : (s.enter name).index x = s.index x :=
    (index_enter ..).trans (if_neg (apart indexed))
  have here : (s.enter name).number name = s.counter := by
    rw [State.number, index_enter, if_pos rfl, Option.getD_some]
  have there {x : α} (inside : x ∈ s.stack) : (s.enter name).number x = s.number x :=
    number_congr (same (sound.indexed inside))
  have below {x : α} (inside : x ∈ s.stack) : (s.enter name).number x < (s.enter name).number name := by
    rw [there inside, here]
    exact sound.bounded x inside
  have arrives {x : α} (inside : x ∈ s.stack) : Reaches edges x name := by
    obtain ⟨y, under, -, path⟩ := sound.back x inside
    exact path.trans (reach y under)
  refine ⟨fun x inside => ?_, ?_, fun x => ?_, fun x => ?_, fun x finished inside => ?_, fun x indexed => ?_,
    cons_subset_cons _ sound.underWay, fun x indexed outside y edge => ?_, fun x inX y inY le => ?_,
    fun y inside => ?_, sound.whole, sound.apart⟩
  · rcases mem_cons.mp inside with rfl | old
    · rw [here]
      exact Nat.lt_succ_self _
    · exact (below old).trans (by rw [here]; exact Nat.lt_succ_self _)
  · refine pairwise_cons.mpr ⟨fun y inside => below inside, sound.sorted.imp_of_mem fun inX inY less => ?_⟩
    rw [there inX, there inY]
    exact less
  · by_cases self : x = name
    · simp [State.enter, self]
    · simp [State.enter, sound.marked, self]
  · by_cases self : x = name
    · simp [State.enter, self]
    · simp [State.enter, sound.seen, self]
  · rcases mem_cons.mp inside with rfl | old
    · exact (sound.seen x).mpr (Or.inr finished) absent
    · exact sound.finished x finished old
  · by_cases self : x = name
    · rw [self]
      exact member
    · exact sound.known x (by rwa [index_enter, if_neg self] at indexed)
  · have old : s.index x ≠ none := by
      rwa [index_enter, if_neg (ne_of_not_mem_cons outside)] at indexed
    have next := sound.closed x old (not_mem_of_not_mem_cons outside) y edge
    rw [same next]
    exact next
  · rcases mem_cons.mp inX with rfl | oldX <;> rcases mem_cons.mp inY with rfl | oldY
    · exact .refl
    · exact absurd le (Nat.not_le.mpr (below oldY))
    · exact arrives oldX
    · exact sound.forward x oldX y oldY (by rwa [there oldX, there oldY] at le)
  · rcases mem_cons.mp inside with rfl | old
    · exact ⟨y, mem_cons_self, le_rfl, .refl⟩
    · obtain ⟨x, under, le, path⟩ := sound.back y old
      exact ⟨x, mem_cons_of_mem _ under, by rwa [there old, there (sound.underWay under)], path⟩

theorem visiting_enter (sound : Sound edges names gray s) (member : name ∈ names) (absent : s.index name = none)
    (reach : ∀ x ∈ gray, Reaches edges x name) : Visiting edges names gray name s (s.enter name) [] := by
  have apart {x : α} (indexed : s.index x ≠ none) : x ≠ name := by
    rintro rfl
    exact indexed absent
  refine ⟨sound.enter member absent reach, ⟨[], rfl, nofun⟩, fun x indexed =>
    ⟨Function.update_of_ne (apart indexed) _ _, Function.update_of_ne (apart indexed) _ _⟩, absent, Function.update_self ..,
    (Function.update_self ..).le, ⟨name, mem_cons_self, ?_, .refl⟩, nofun⟩
  simp [State.number, State.enter]

/-! ## Visiting a successor -/

omit [DecidableEq α] in
theorem Visiting.number (visiting : Visiting edges names gray name t s done) : s.number name = t.counter := by
  rw [State.number, visiting.index, Option.getD_some]

/-- The low link falls to the number of a name on the stack that is reached. -/
theorem Visiting.lower (visiting : Visiting edges names gray name t s done) {bound : Nat} {y : α}
    (inside : y ∈ s.stack) (found : s.number y = bound) (path : Reaches edges name y) (indexed : s.index next ≠ none)
    (near : next ∈ t.stack → bound ≤ s.number next) :
    Visiting edges names gray name t (s.lower name bound) (next :: done) := by
  have low : (s.lower name bound).low name = min (s.low name) bound := Function.update_self ..
  obtain ⟨added, stack, tells⟩ := visiting.grown
  refine ⟨visiting.sound.lower _ _, ⟨added, stack, fun z member y edge old => ?_⟩, fun x old => ?_, visiting.absent,
    visiting.index, ?_, ?_, fun z member => ?_⟩
  · rw [low]
    exact (Nat.min_le_left _ _).trans (tells z member y edge old)
  · obtain ⟨index, kept⟩ := visiting.kept x old
    refine ⟨index, (Function.update_of_ne ?_ _ _).trans kept⟩
    rintro rfl
    exact old visiting.absent
  · rw [low]
    exact (Nat.min_le_left _ _).trans visiting.low
  · rcases Nat.le_total (s.low name) bound with le | le
    · rw [low, Nat.min_eq_left le]
      exact visiting.finds
    · rw [low, Nat.min_eq_right le]
      exact ⟨y, inside, found, path⟩
  · rw [low]
    rcases mem_cons.mp member with rfl | earlier
    · exact ⟨indexed, fun old => (Nat.min_le_right _ _).trans (near old)⟩
    · obtain ⟨seen, tells⟩ := visiting.done z earlier
      exact ⟨seen, fun old => (Nat.min_le_left _ _).trans (tells old)⟩

/-- A successor that was not entered yet is searched from first. -/
theorem Visiting.connected (visiting : Visiting edges names gray name s₀ s done) (edge : next ∈ edges name)
    (absent : s.index next = none) (connected : Connected edges names (name :: gray) next s t) :
    Visiting edges names gray name s₀ (t.lower name (t.low next)) (next :: done) := by
  have seen : s.index name ≠ none := by simp [visiting.index]
  have low : (t.lower name (t.low next)).low name = min (s.low name) (t.low next) :=
    (Function.update_self ..).trans (by rw [(connected.kept name seen).2])
  have same {y : α} (inside : y ∈ s.stack) : t.number y = s.number y :=
    number_congr (connected.kept y (visiting.sound.indexed inside)).1
  obtain ⟨added, stack, tells⟩ := visiting.grown
  obtain ⟨more, stack', tells'⟩ := connected.grown
  have old {y : α} (inside : y ∈ s₀.stack) : y ∈ s.stack := by
    rw [stack]
    exact mem_append_right _ (mem_cons_of_mem _ inside)
  refine ⟨connected.sound.lower _ _, ⟨more ++ added, by simp [State.lower, stack', stack], fun z member y edge' inside => ?_⟩,
    fun x indexed => ?_, visiting.absent, (connected.kept name seen).1.trans visiting.index, ?_, ?_, fun z member => ?_⟩
  · rw [low]
    rcases mem_append.mp member with new | earlier
    · exact (Nat.min_le_right _ _).trans (tells' z new y edge' (old inside))
    · exact (Nat.min_le_left _ _).trans ((tells z earlier y edge' inside).trans (same (old inside)).ge)
  · obtain ⟨index, kept⟩ := visiting.kept x indexed
    obtain ⟨index', kept'⟩ := connected.kept x (by rwa [index])
    refine ⟨index'.trans index, (Function.update_of_ne ?_ _ _).trans (kept'.trans kept)⟩
    rintro rfl
    exact indexed visiting.absent
  · rw [low]
    exact (Nat.min_le_left _ _).trans visiting.low
  · rw [low]
    rcases le_or_gt (s.low name) (t.low next) with le | less
    · obtain ⟨y, inside, found, path⟩ := visiting.finds
      rw [Nat.min_eq_left le, ← found, ← same inside]
      exact ⟨y, stack' ▸ mem_append_right _ inside, rfl, path⟩
    · -- A low link below this name's own is none the successor closed with.
      have under := visiting.sound.bounded name (visiting.sound.underWay mem_cons_self)
      rw [visiting.number] at under
      rcases connected.finds with root | ⟨y, inside, found, path⟩
      · have := visiting.low
        have := connected.fresh
        omega
      · rw [Nat.min_eq_right less.le]
        exact ⟨y, inside, found, .head edge path⟩
  · rw [low]
    rcases mem_cons.mp member with rfl | earlier
    · exact ⟨connected.indexed, fun inside => absurd absent (visiting.sound.indexed (old inside))⟩
    · obtain ⟨indexed, tells⟩ := visiting.done z earlier
      refine ⟨fun none => indexed ((connected.kept z indexed).1.symm.trans none), fun inside => ?_⟩
      exact (Nat.min_le_left _ _).trans ((tells inside).trans (same (old inside)).ge)

theorem Visiting.seen (visiting : Visiting edges names gray name s₀ s done) (edge : next ∈ edges name)
    (indexed : s.index next ≠ none) :
    Visiting edges names gray name s₀ (if s.onStack next then s.lower name (s.number next) else s) (next :: done) := by
  split
  · rename_i marked
    exact visiting.lower ((visiting.sound.marked next).mp marked) rfl (.single edge) indexed fun _ => le_rfl
  · rename_i unmarked
    obtain ⟨added, stack, -⟩ := visiting.grown
    refine { visiting with done := fun z member => ?_ }
    rcases mem_cons.mp member with rfl | earlier
    · refine ⟨indexed, fun inside => absurd ((visiting.sound.marked z).mpr ?_) unmarked⟩
      rw [stack]
      exact mem_append_right _ (mem_cons_of_mem _ inside)
    · exact visiting.done z earlier

/-- A search from a name, as a visit relies on it. -/
def Searches (edges : α → List α) (names : List α) (size : Nat) (connect : α → State α → Option (State α)) : Prop :=
  ∀ gray name s, Sound edges names gray s → name ∈ names → s.index name = none → (unseen names s).card ≤ size →
    (∀ x ∈ gray, Reaches edges x name) → ∃ t, connect name s = some t ∧ Connected edges names gray name s t

theorem Visiting.unseen_lt (visiting : Visiting edges names gray name s₀ s done) (member : name ∈ names) :
    (unseen names s).card < (unseen names s₀).card := by
  refine Finset.card_lt_card (Finset.ssubset_iff_of_subset (fun x => ?_) |>.mpr ⟨name, ?_, ?_⟩)
  · simp only [unseen, Finset.mem_filter]
    refine And.imp_right fun none => ?_
    by_contra indexed
    exact indexed ((visiting.kept x indexed).1.symm.trans none)
  · simp [unseen, member, visiting.absent]
  · simp [unseen, visiting.index]

theorem visits {connect : α → State α → Option (State α)} (inside : ∀ x ∈ names, edges x ⊆ names) {size : Nat}
    (searches : Searches edges names size connect) (member : name ∈ names) (small : (unseen names s₀).card ≤ size + 1)
    (reach : ∀ x ∈ gray, Reaches edges x name) {todo : List α} (successors : todo ⊆ edges name)
    (visiting : Visiting edges names gray name s₀ s done) :
    ∃ t, todo.foldlM (visit connect name) s = some t ∧ Visiting edges names gray name s₀ t (todo.reverse ++ done) := by
  induction todo generalizing s done with
  | nil => exact ⟨s, rfl, visiting⟩
  | cons next todo ih =>
    have edge := successors mem_cons_self
    rw [foldlM_cons, reverse_cons, append_assoc, singleton_append]
    by_cases absent : s.index next = none
    · have room : (unseen names s).card ≤ size := by
        have := visiting.unseen_lt member
        omega
      obtain ⟨t, connects, connected⟩ := searches _ next s visiting.sound (inside name member edge) absent room
        (forall_mem_cons.mpr ⟨.single edge, fun x under => (reach x under).tail edge⟩)
      obtain ⟨u, rest, visited⟩ := ih (fun x later => successors (mem_cons_of_mem _ later))
        (visiting.connected edge absent connected)
      exact ⟨u, by rw [visit, if_pos absent, connects]; exact rest, visited⟩
    · obtain ⟨u, rest, visited⟩ := ih (fun x later => successors (mem_cons_of_mem _ later))
        (visiting.seen edge absent)
      exact ⟨u, by rw [visit, if_neg absent]; exact rest, visited⟩

/-! ## Closing a component -/

theorem popTo_append {front : List α} (below : List α) (absent : name ∉ front) :
    popTo name (front ++ name :: below) = some (front ++ [name], below) := by
  induction front with
  | nil => simp [popTo]
  | cons member front ih =>
    rw [cons_append, popTo, if_neg (ne_of_not_mem_cons absent).symm, ih (not_mem_of_not_mem_cons absent)]
    rfl

/-- Every successor of the name is visited. -/
abbrev Visited (edges : α → List α) (names gray : List α) (name : α) (s₀ s : State α) : Prop :=
  Visiting edges names gray name s₀ s (edges name).reverse

section
variable (visited : Visited edges names gray name s₀ s) (before : Sound edges names gray s₀) {added : List α}
  (stack : s.stack = added ++ name :: s₀.stack)
include visited stack

omit [DecidableEq α] visited in
theorem mem_stack_iff : x ∈ s.stack ↔ x ∈ added ++ [name] ∨ x ∈ s₀.stack := by
  rw [stack]
  simp [or_assoc]

omit [DecidableEq α] in
theorem Visited.above : (∀ x ∈ s₀.stack, s.number x < s.number name) ∧ ∀ x ∈ added ++ [name], s.number name ≤ s.number x := by
  have sorted := visited.sound.sorted
  rw [stack, pairwise_append, pairwise_cons] at sorted
  obtain ⟨-, ⟨low, -⟩, across⟩ := sorted
  refine ⟨low, fun x inside => ?_⟩
  rcases mem_append.mp inside with front | last
  · exact (across x front name mem_cons_self).le
  · rw [mem_singleton.mp last]

omit [DecidableEq α] in
theorem Visited.outside (inside : x ∈ added ++ [name]) : x ∉ s₀.stack := fun old =>
  have ⟨low, high⟩ := visited.above stack
  Nat.not_lt.mpr (high x inside) (low x old)

include before

omit [DecidableEq α] in
theorem Visited.arrives (inside : x ∈ added ++ [name]) : Reaches edges x name := by
  have whole := (mem_stack_iff stack).mpr (Or.inl inside)
  obtain ⟨y, under, -, path⟩ := visited.sound.back x whole
  rcases mem_cons.mp under with rfl | gray
  · exact path
  · have old := before.underWay gray
    have here := (mem_stack_iff stack).mpr (Or.inr old)
    have last := (mem_stack_iff stack).mpr (Or.inl (mem_append_right added mem_cons_self))
    exact path.trans (visited.sound.forward y here name last ((visited.above stack).1 y old).le)

/-- What the names from this one up reach, and is reached back, is among them if no edge leads below this name. -/
theorem Visited.component (tells : ∀ z ∈ added, ∀ y ∈ edges z, y ∈ s₀.stack → s.low name ≤ s.number y)
    (root : s.low name = s.number name) (x : α) : x ∈ added ++ [name] ↔ Together edges name x := by
  have last := (mem_stack_iff stack).mpr (Or.inl (mem_append_right added mem_cons_self))
  constructor
  · intro inside
    exact ⟨visited.sound.forward name last x ((mem_stack_iff stack).mpr (Or.inl inside)) ((visited.above stack).2 x inside),
      visited.arrives before stack inside⟩
  · rintro ⟨path, returns⟩
    induction path with
    | refl => exact mem_append_right _ mem_cons_self
    | @tail m y path edge ih =>
      have middle := ih (.head edge returns)
      have next : s.index y ≠ none ∧ (y ∈ s₀.stack → s.low name ≤ s.number y) := by
        by_cases self : m = name
        · exact visited.done y (mem_reverse.mpr (self ▸ edge))
        · have front : m ∈ added := by simpa [self] using middle
          have indexed := visited.sound.indexed ((mem_stack_iff stack).mpr (Or.inl middle))
          refine ⟨visited.sound.closed m indexed (fun under => ?_) y edge, tells m front y edge⟩
          exact visited.outside stack middle (before.underWay ((mem_cons.mp under).resolve_left self))
      rcases (visited.sound.seen y).mp next.1 with stacked | finished
      · refine ((mem_stack_iff stack).mp stacked).resolve_right fun old => ?_
        have low := (visited.above stack).1 y old
        have bound := next.2 old
        omega
      · -- A finished component is whole, and this name is still on the stack.
        obtain ⟨c, listed, inside⟩ := mem_flatten.mp finished
        have own := ((visited.sound.whole c listed).2 y inside name).mpr ⟨returns, path.tail edge⟩
        exact absurd last (visited.sound.finished name (mem_flatten.mpr ⟨c, listed, own⟩))

end

theorem Visited.closes (visited : Visited edges names gray name s₀ s) (before : Sound edges names gray s₀) :
    ∃ t, close name s = some t ∧ Connected edges names gray name s₀ t := by
  obtain ⟨added, stack, tells⟩ := visited.grown
  have number := visited.number
  have indexed : s.index name ≠ none := by simp [visited.index]
  have closed : ∀ x, s.index x ≠ none → x ∉ gray → ∀ y ∈ edges x, s.index y ≠ none := fun x seen outside y edge => by
    by_cases self : x = name
    · exact (visited.done y (mem_reverse.mpr (self ▸ edge))).1
    · exact visited.sound.closed x seen (not_mem_cons_of_ne_of_not_mem self outside) y edge
  have same {y : α} (inside : y ∈ s₀.stack) : s.number y = s₀.number y :=
    number_congr (visited.kept y (before.indexed inside)).1
  have inner {y : α} (inside : y ∈ s₀.stack) : ∃ x ∈ gray, s.number x ≤ s.number y ∧ Reaches edges y x := by
    obtain ⟨x, under, le, path⟩ := before.back y inside
    exact ⟨x, under, by rwa [same inside, same (before.underWay under)], path⟩
  by_cases root : s.low name = s.number name
  · have component := @(visited.component before stack tells root)
    have sorted := visited.sound.sorted
    rw [stack, append_cons] at sorted
    have distinct : (added ++ [name]).Nodup := (pairwise_append.mp sorted).1.imp fun less => by
      rintro rfl
      exact lt_irrefl _ less
    have popped : popTo name s.stack = some (added ++ [name], s₀.stack) := by
      rw [stack]
      exact popTo_append _ fun inside => (nodup_append.mp distinct).2.2 name inside name mem_cons_self rfl
    have old {x : α} (inside : x ∈ s₀.stack) : x ∈ s.stack := (mem_stack_iff stack).mpr (Or.inr inside)
    refine ⟨{ s with
        stack := s₀.stack
        onStack := fun member => s.onStack member && !(added ++ [name]).contains member
        components := s.components ++ [added ++ [name]] },
      by rw [close, if_pos (by rw [root, visited.index, number]), popped]; rfl, ?_, ⟨[], rfl, nofun⟩, visited.kept, indexed, number.ge, root.le, Or.inl root⟩
    refine ⟨fun x inside => visited.sound.bounded x (old inside), (pairwise_append.mp sorted).2.1, fun x => ?_,
      fun x => ?_, fun x => ?_, visited.sound.known, before.underWay, closed,
      fun x inX y inY => visited.sound.forward x (old inX) y (old inY), fun y => inner, fun c listed => ?_, ?_⟩
    · simp only [Bool.and_eq_true, visited.sound.marked, mem_stack_iff stack, Bool.not_eq_true', contains_eq_mem,
        decide_eq_false_iff_not]
      refine ⟨fun ⟨either, apart⟩ => either.resolve_left apart, fun inside => ⟨Or.inr inside, fun mine => ?_⟩⟩
      exact visited.outside stack mine inside
    · rw [visited.sound.seen, mem_stack_iff stack, flatten_append, flatten_singleton,
        mem_append (t := added ++ [name])]
      tauto
    · rw [flatten_append, flatten_singleton, mem_append]
      rintro (finished | mine) inside
      · exact visited.sound.finished x finished (old inside)
      · exact visited.outside stack mine inside
    · rcases mem_append.mp listed with earlier | last
      · exact visited.sound.whole c earlier
      · obtain rfl := mem_singleton.mp last
        refine ⟨append_ne_nil_of_right_ne_nil _ (cons_ne_nil _ _), fun x inside y => ?_⟩
        obtain ⟨path, returns⟩ := (component x).mp inside
        rw [component]
        exact ⟨fun ⟨away, back⟩ => ⟨returns.trans away, back.trans path⟩,
          fun ⟨away, back⟩ => ⟨path.trans away, back.trans returns⟩⟩
    · rw [flatten_append, flatten_singleton]
      refine nodup_append.mpr ⟨visited.sound.apart, distinct, fun x finished y mine same => ?_⟩
      exact visited.sound.finished x finished ((mem_stack_iff stack).mpr (Or.inl (same ▸ mine)))
  · refine ⟨s, by rw [close, if_neg fun same => root (by rw [State.number, ← same]; rfl)], ?_,
      ⟨added ++ [name], by simp [stack], fun z inside y edge old => ?_⟩, visited.kept, indexed, number.ge,
      number.symm ▸ visited.low, Or.inr visited.finds⟩
    · refine ⟨visited.sound.bounded, visited.sound.sorted, visited.sound.marked, visited.sound.seen,
        visited.sound.finished, visited.sound.known, fun x under => visited.sound.underWay (mem_cons_of_mem _ under),
        closed, visited.sound.forward, fun y inside => ?_, visited.sound.whole, visited.sound.apart⟩
      rcases (mem_stack_iff stack).mp inside with mine | old
      · -- The low link leads to a name below, and from there to one that is under way.
        obtain ⟨low, high⟩ := visited.above stack
        obtain ⟨z, stacked, found, path⟩ := visited.finds
        have less := visited.low
        have old := ((mem_stack_iff stack).mp stacked).resolve_left fun mine' => by have := high z mine'; omega
        obtain ⟨x, under, le, path'⟩ := inner old
        have := high y mine
        exact ⟨x, under, by omega, (visited.arrives before stack mine).trans (path.trans path')⟩
      · exact inner old
    · rcases mem_append.mp inside with front | last
      · exact tells z front y edge old
      · exact (visited.done y (mem_reverse.mpr (mem_singleton.mp last ▸ edge))).2 old

/-! ## The search -/

theorem searches_strongConnect (inside : ∀ x ∈ names, edges x ⊆ names) (fuel : Nat) :
    Searches edges names fuel (strongConnect edges fuel) := by
  induction fuel with
  | zero =>
    intro gray name s _ member absent small _
    have : name ∈ unseen names s := by simp [unseen, member, absent]
    rw [Finset.card_eq_zero.mp (Nat.le_zero.mp small)] at this
    exact absurd this (Finset.notMem_empty _)
  | succ fuel ih =>
    intro gray name s sound member absent small reach
    obtain ⟨t, visits, visited⟩ := visits inside ih member small reach (List.Subset.refl _)
      (visiting_enter sound member absent reach)
    rw [append_nil] at visited
    obtain ⟨u, closes, connected⟩ := Visited.closes visited sound
    exact ⟨u, by rw [strongConnect, visits]; exact closes, connected⟩

omit [DecidableEq α] in
theorem sound_new : Sound edges names [] ({} : State α) :=
  ⟨nofun, .nil, fun _ => ⟨nofun, nofun⟩, fun _ => ⟨fun absent => absurd rfl absent, nofun⟩, nofun, fun _ absent => absurd rfl absent,
    nil_subset _, fun _ absent => absurd rfl absent, nofun, nofun, nofun, .nil⟩

/-- The search ends, and its components part the names into those that reach one another. -/
theorem search_spec (inside : ∀ x ∈ names, edges x ⊆ names) : ∃ s, search edges names = some s ∧
    s.components.flatten.Nodup ∧ (∀ x, x ∈ s.components.flatten ↔ x ∈ names) ∧
    ∀ c ∈ s.components, c ≠ [] ∧ ∀ x ∈ c, ∀ y, y ∈ c ↔ Together edges x y := by
  have run : ∀ todo ⊆ names, ∀ s : State α, Sound edges names [] s → ∃ t,
      todo.foldlM (fun s name => if s.index name = none then strongConnect edges names.length name s else some s) s =
        some t ∧ Sound edges names [] t ∧ (∀ x, s.index x ≠ none → t.index x ≠ none) ∧ ∀ x ∈ todo, t.index x ≠ none := by
    intro todo
    induction todo with
    | nil => exact fun _ s sound => ⟨s, rfl, sound, fun _ seen => seen, nofun⟩
    | cons name todo ih =>
      intro listed s sound
      have rest : todo ⊆ names := fun x later => listed (mem_cons_of_mem _ later)
      by_cases absent : s.index name = none
      · have small : (unseen names s).card ≤ names.length :=
          (Finset.card_filter_le _ _).trans (toFinset_card_le names)
        obtain ⟨t, connects, connected⟩ := searches_strongConnect inside names.length [] name s sound
          (listed mem_cons_self) absent small nofun
        obtain ⟨u, runs, sound', kept, all⟩ := ih rest t connected.sound
        refine ⟨u, by rw [foldlM_cons, if_pos absent, connects]; exact runs, sound', fun x seen => kept x ?_,
          forall_mem_cons.mpr ⟨kept name connected.indexed, all⟩⟩
        rw [(connected.kept x seen).1]
        exact seen
      · obtain ⟨u, runs, sound', kept, all⟩ := ih rest s sound
        exact ⟨u, by rw [foldlM_cons, if_neg absent]; exact runs, sound', kept,
          forall_mem_cons.mpr ⟨kept name absent, all⟩⟩
  obtain ⟨s, searches, sound, -, all⟩ := run names (List.Subset.refl _) {} sound_new
  -- Nothing is under way, so nothing is left on the stack.
  have empty : ∀ x, x ∉ s.stack := fun x stacked => by
    obtain ⟨_, under, -⟩ := sound.back x stacked
    exact absurd under (not_mem_nil)
  refine ⟨s, searches, sound.apart, fun x => ⟨fun finished => ?_, fun member => ?_⟩, sound.whole⟩
  · exact sound.known x ((sound.seen x).mpr (Or.inr finished))
  · exact ((sound.seen x).mp (all x member)).resolve_left (empty x)

end EverWorks.Lib.Tarjan
