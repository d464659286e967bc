import Mathlib.Data.List.Sort

/-!
Layers are put in order of their rank and folded, each overriding what it declares. What comes out is what the last
declaring layer declares.
-/

namespace EverWorks.Lib.Layers
open List List

variable {α β : Type}

def nearest (field : α → Option β) (layers : List α) : Option β :=
  (layers.filterMap field).getLast?

theorem nearest_append (field : α → Option β) (outer inner : List α) :
    nearest field (outer ++ inner) = (nearest field inner).or (nearest field outer) := by
  rw [nearest, filterMap_append, getLast?_append]
  rfl

theorem nearest_cons (field : α → Option β) (layer : α) (inner : List α) :
    nearest field (layer :: inner) = (nearest field inner).or (field layer) := by
  rw [← singleton_append, nearest_append]
  cases declared : field layer <;> simp [nearest, declared]

variable {field : α → Option β}

variable {layers : List α}

theorem nearest_mem {value : β}
    (found : nearest field layers = some value) : ∃ layer ∈ layers, field layer = some value :=
  mem_filterMap.mp (mem_of_getLast? found)

theorem nearest_isSome {layer : α} (inside : layer ∈ layers)
    (declares : (field layer).isSome) : (nearest field layers).isSome := by
  obtain ⟨value, declared⟩ := Option.isSome_iff_exists.mp declares
  have nonempty := ne_nil_of_mem (mem_filterMap.mpr ⟨layer, inside, declared⟩)
  rw [nearest, getLast?_eq_some_getLast nonempty]
  rfl

theorem nearest_split {value : β}
    (found : nearest field layers = some value) :
    ∃ outer layer inner, layers = outer ++ layer :: inner ∧ field layer = some value ∧
      nearest field inner = none := by
  induction layers with
  | nil => cases found
  | cons first rest ih =>
    rw [nearest_cons] at found
    cases deeper : nearest field rest with
    | none =>
      rw [deeper, Option.none_or] at found
      exact ⟨[], first, rest, rfl, found, deeper⟩
    | some last =>
      rw [deeper, Option.some_or] at found
      obtain ⟨outer, layer, inner, rfl, declares, silent⟩ := ih (by rw [deeper, found])
      exact ⟨first :: outer, layer, inner, rfl, declares, silent⟩

theorem foldl_getD {σ : Type} {step : σ → α → σ} {get : σ → β}
    (overrides : ∀ state layer, get (step state layer) = (field layer).getD (get state))
    (layers : List α) (start : σ) :
    get (layers.foldl step start) = (nearest field layers).getD (get start) := by
  induction layers generalizing start with
  | nil => rfl
  | cons layer rest ih =>
    rw [foldl_cons, ih, overrides, nearest_cons]
    cases nearest field rest <;> rfl

theorem foldl_or (field : α → Option β) (layers : List α) (start : Option β) :
    layers.foldl (fun declared layer => (field layer).or declared) start =
      (nearest field layers).or start := by
  induction layers generalizing start with
  | nil => rfl
  | cons layer rest ih => rw [foldl_cons, ih, nearest_cons, Option.or_assoc]

section
variable (rank : α → ℕ)

def order (layers : List α) : List α :=
  layers.insertionSort fun a b => rank a ≤ rank b

theorem mem_order {layer : α} : layer ∈ order rank layers ↔ layer ∈ layers :=
  mem_insertionSort _

theorem orderedInsert_split (inserted : α) (place : ℕ) (outer inner : List α) :
    ∃ outer' inner', ∀ layer, rank layer = place →
      orderedInsert (fun a b => rank a ≤ rank b) inserted (outer ++ layer :: inner) =
        outer' ++ layer :: inner' := by
  induction outer with
  | nil =>
    by_cases before : rank inserted ≤ place
    · refine ⟨[inserted], inner, fun layer placed => ?_⟩
      rw [nil_append, orderedInsert_cons, if_pos (placed ▸ before)]
      rfl
    · refine ⟨[], orderedInsert (fun a b => rank a ≤ rank b) inserted inner, fun layer placed => ?_⟩
      rw [nil_append, orderedInsert_cons, if_neg (placed ▸ before)]
      rfl
  | cons first outer ih =>
    by_cases before : rank inserted ≤ rank first
    · refine ⟨inserted :: first :: outer, inner, fun layer _ => ?_⟩
      rw [cons_append, orderedInsert_cons, if_pos before]
      rfl
    · obtain ⟨outer', inner', split⟩ := ih
      refine ⟨first :: outer', inner', fun layer placed => ?_⟩
      rw [cons_append, orderedInsert_cons, if_neg before, split layer placed]
      rfl

theorem order_split (place : ℕ) (before after : List α) :
    ∃ outer inner, ∀ layer, rank layer = place →
      order rank (before ++ layer :: after) = outer ++ layer :: inner := by
  induction before with
  | nil =>
    refine ⟨(order rank after).takeWhile fun b => ¬ place ≤ rank b,
      (order rank after).dropWhile fun b => ¬ place ≤ rank b, fun layer placed => ?_⟩
    rw [← placed]
    exact orderedInsert_eq_take_drop (r := fun a b => rank a ≤ rank b) layer _
  | cons first before ih =>
    obtain ⟨outer, inner, split⟩ := ih
    obtain ⟨outer', inner', split'⟩ := orderedInsert_split rank first place outer inner
    refine ⟨outer', inner', fun layer placed => ?_⟩
    rw [← split' layer placed, ← split layer placed]
    rfl

theorem orderedInsert_unsplit (layers : List α) {inserted layer : α} {outer inner : List α}
    (whole : orderedInsert (fun a b => rank a ≤ rank b) inserted layers = outer ++ layer :: inner) :
    (layer = inserted ∧ ∀ other, rank other = rank layer →
        orderedInsert (fun a b => rank a ≤ rank b) other layers = outer ++ other :: inner) ∨
      ∃ outer' inner', layers = outer' ++ layer :: inner' ∧ ∀ other, rank other = rank layer →
        orderedInsert (fun a b => rank a ≤ rank b) inserted (outer' ++ other :: inner') =
          outer ++ other :: inner := by
  induction layers generalizing outer with
  | nil =>
    rcases outer with _ | ⟨_, _ | _⟩ <;> simp at whole
    obtain ⟨rfl, rfl⟩ := whole
    exact .inl ⟨rfl, fun _ _ => rfl⟩
  | cons first rest ih =>
    rw [orderedInsert_cons] at whole
    split at whole
    · rename_i least
      rcases outer with _ | ⟨head, outer⟩
      · obtain ⟨rfl, rfl⟩ := cons.inj whole
        refine .inl ⟨rfl, fun other placed => ?_⟩
        rw [orderedInsert_cons, if_pos (placed ▸ least)]
        rfl
      · obtain ⟨rfl, tail⟩ := cons.inj whole
        refine .inr ⟨outer, inner, tail, fun other placed => ?_⟩
        rcases outer with _ | ⟨second, outer⟩
        · obtain ⟨rfl, -⟩ := cons.inj tail
          rw [nil_append, orderedInsert_cons, if_pos (placed ▸ least)]
          rfl
        · obtain ⟨rfl, -⟩ := cons.inj tail
          rw [cons_append, orderedInsert_cons, if_pos least]
          rfl
    · rename_i later
      rcases outer with _ | ⟨head, outer⟩
      · obtain ⟨rfl, rfl⟩ := cons.inj whole
        refine .inr ⟨[], rest, rfl, fun other placed => ?_⟩
        rw [nil_append, orderedInsert_cons, if_neg (placed ▸ later)]
        rfl
      · obtain ⟨rfl, tail⟩ := cons.inj whole
        rcases ih tail with ⟨rfl, found⟩ | ⟨outer', inner', rfl, found⟩
        · refine .inl ⟨rfl, fun other placed => ?_⟩
          rw [orderedInsert_cons, if_neg (placed ▸ later), found other placed]
          rfl
        · refine .inr ⟨first :: outer', inner', rfl, fun other placed => ?_⟩
          rw [cons_append, orderedInsert_cons, if_neg later, found other placed]
          rfl

/-- Every layer of the order has its place among the layers, and shares it with those of its rank. -/
theorem order_unsplit {layers outer inner : List α} {layer : α}
    (whole : order rank layers = outer ++ layer :: inner) :
    ∃ before after, layers = before ++ layer :: after ∧ ∀ other, rank other = rank layer →
      order rank (before ++ other :: after) = outer ++ other :: inner := by
  induction layers generalizing outer inner with
  | nil => simp [order] at whole
  | cons first rest ih =>
    rcases orderedInsert_unsplit rank (order rank rest) whole with
      ⟨rfl, found⟩ | ⟨outer', inner', deeper, found⟩
    · exact ⟨[], rest, rfl, found⟩
    · obtain ⟨before, after, rfl, place⟩ := ih deeper
      refine ⟨first :: before, after, rfl, fun other placed => ?_⟩
      rw [← found other placed, ← place other placed]
      rfl

theorem order_outer (isOuter : α → Bool) (outermost : ∀ a b, rank a ≤ rank b → isOuter b → isOuter a)
    (layers : List α) :
    order rank layers =
      (order rank layers).filter isOuter ++ (order rank layers).filter fun layer => !isOuter layer := by
  have ascending : (order rank layers).Pairwise fun a b => rank a ≤ rank b :=
    pairwise_insertionSort (fun a b => rank a ≤ rank b) layers
  generalize order rank layers = ordered at ascending ⊢
  induction ordered with
  | nil => rfl
  | cons first rest ih =>
    obtain ⟨least, ascending⟩ := pairwise_cons.mp ascending
    cases outer : isOuter first with
    | true =>
      rw [filter_cons_of_pos outer, filter_cons_of_neg (by simp [outer]), cons_append,
        ← ih ascending]
    | false =>
      have allInner : ∀ layer ∈ rest, isOuter layer = false := by
        intro layer inside
        by_contra found
        have := outermost first layer (least layer inside) (by simpa using found)
        rw [outer] at this
        cases this
      rw [filter_cons_of_neg (by simp [outer]),
        filter_eq_nil_iff.mpr (fun layer inside => by simp [allInner layer inside]), nil_append,
        filter_eq_self.mpr]
      rintro layer (_ | ⟨_, inside⟩)
      · simp [outer]
      · simp [allInner layer inside]

end

end EverWorks.Lib.Layers
