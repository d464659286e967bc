import Mathlib.Data.List.Basic
import Mathlib.Logic.Relation

/-!
A mark spreads over a list of entries to each entry that reads a marked name. Each pass goes over all entries in place and the
passes end when one changes nothing; as many as there are entries always reach everything.
-/

namespace EverWorks.Lib.Propagation
open List Relation

variable {α : Type} [DecidableEq α]

def visit (state : (α → Bool) × Bool) (entry : α × List α) : (α → Bool) × Bool :=
  if state.1 entry.1 then state
  else if entry.2.any state.1 then (Function.update state.1 entry.1 true, true)
  else state

def passes (entries : List (α × List α)) : ℕ → (α → Bool) → α → Bool
  | 0, marked => marked
  | turns + 1, marked =>
    let after := entries.foldl visit (marked, false)
    if after.2 then passes entries turns after.1 else after.1

def Reads (entries : List (α × List α)) (reader read : α) : Prop := ∃ entry ∈ entries, entry.1 = reader ∧ read ∈ entry.2

variable {entries : List (α × List α)} {marked : α → Bool}

/-- A pass either finds nothing to mark, or changes the mark of an entry. -/
theorem foldl_visit (entries : List (α × List α)) (marked : α → Bool) (changed : Bool) :
    let after := entries.foldl visit (marked, changed)
    (∀ name, marked name = true → after.1 name = true) ∧
      (after = (marked, changed) ∧ (∀ entry ∈ entries, entry.2.any marked = true → marked entry.1 = true) ∨
        after.2 = true ∧ ∃ entry ∈ entries, marked entry.1 = false ∧ after.1 entry.1 = true) := by
  induction entries generalizing marked changed with
  | nil => exact ⟨fun _ => id, .inl ⟨rfl, nofun⟩⟩
  | cons entry entries ih =>
    rw [foldl_cons]
    by_cases marks : marked entry.1 = false ∧ entry.2.any marked = true
    · have acts : visit (marked, changed) entry = (Function.update marked entry.1 true, true) := by
        simp [visit, marks]
      rw [acts]
      obtain ⟨keeps, told⟩ := ih (Function.update marked entry.1 true) true
      refine ⟨fun name was => keeps name ?_, .inr ⟨?_, entry, mem_cons_self, marks.1, keeps _ (Function.update_self ..)⟩⟩
      · by_cases same : name = entry.1
        · rw [same, Function.update_self]
        · rw [Function.update_of_ne same, was]
      · rcases told with ⟨same, -⟩ | ⟨told, -⟩
        · rw [same]
        · exact told
    · have still : visit (marked, changed) entry = (marked, changed) := by
        cases old : marked entry.1 <;> cases reads : entry.2.any marked <;> simp_all [visit]
      rw [still]
      obtain ⟨keeps, ⟨same, closed⟩ | ⟨told, e, member, new⟩⟩ := ih marked changed
      · exact ⟨keeps, .inl ⟨same, forall_mem_cons.mpr ⟨fun reads => by simpa [reads] using marks, closed⟩⟩⟩
      · exact ⟨keeps, .inr ⟨told, e, mem_cons_of_mem _ member, new⟩⟩

theorem foldl_visit_sound {goal : α → Prop} (back : ∀ entry ∈ entries, ∀ name ∈ entry.2, goal name → goal entry.1)
    {changed : Bool} (sound : ∀ name, marked name = true → goal name) :
    ∀ name, (entries.foldl visit (marked, changed)).1 name = true → goal name := by
  induction entries generalizing marked changed with
  | nil => exact sound
  | cons entry entries ih =>
    obtain ⟨⟨after, told⟩, next⟩ : ∃ state, visit (marked, changed) entry = state := ⟨_, rfl⟩
    rw [foldl_cons, next]
    refine ih (fun e member => back e (mem_cons_of_mem _ member)) fun name known => ?_
    unfold visit at next
    split_ifs at next with old reads <;> cases next
    · exact sound name known
    · obtain ⟨read, member, seen⟩ := any_eq_true.mp reads
      by_cases same : name = entry.1
      · exact same ▸ back entry mem_cons_self read member (sound read seen)
      · exact sound name (by rwa [Function.update_of_ne same] at known)
    · exact sound name known

theorem passes_closed {turns : ℕ} (enough : (entries.filter fun entry => !marked entry.1).length ≤ turns) :
    (∀ name, marked name = true → passes entries turns marked name = true) ∧
      ∀ entry ∈ entries, entry.2.any (passes entries turns marked) = true → passes entries turns marked entry.1 = true := by
  induction turns generalizing marked with
  | zero =>
    have none := filter_eq_nil_iff.mp (length_eq_zero_iff.mp (Nat.le_zero.mp enough))
    exact ⟨fun _ => id, fun entry member _ => by simpa [passes] using none entry member⟩
  | succ turns ih =>
    rw [passes]
    obtain ⟨keeps, ⟨same, closed⟩ | ⟨told, entry, member, old, new⟩⟩ := foldl_visit entries marked false
    · simp only [same, Bool.false_eq_true, if_false]
      exact ⟨fun _ => id, closed⟩
    · simp only [told, if_true]
      have fewer : (entries.filter fun e => !(entries.foldl visit (marked, false)).1 e.1).Sublist
          (entries.filter fun e => !marked e.1) := by
        refine monotone_filter_right _ fun e unmarked => ?_
        rw [Bool.not_eq_true'] at unmarked ⊢
        exact Bool.eq_false_iff.mpr fun was => Bool.eq_false_iff.mp unmarked (keeps _ was)
      have less : (entries.filter fun e => !(entries.foldl visit (marked, false)).1 e.1).length ≤ turns := by
        by_contra many
        have equal := fewer.eq_of_length_le (by omega)
        have inside : entry ∈ entries.filter fun e => !marked e.1 := mem_filter.mpr ⟨member, by rw [old]; rfl⟩
        rw [← equal, mem_filter, new] at inside
        cases inside.2
      obtain ⟨keeps', closed⟩ := ih less
      exact ⟨fun name was => keeps' name (keeps name was), closed⟩

theorem passes_sound {goal : α → Prop} (back : ∀ entry ∈ entries, ∀ name ∈ entry.2, goal name → goal entry.1)
    (turns : ℕ) (sound : ∀ name, marked name = true → goal name) :
    ∀ name, passes entries turns marked name = true → goal name := by
  induction turns generalizing marked with
  | zero => exact sound
  | succ turns ih =>
    have after := @foldl_visit_sound _ _ entries marked goal back false sound
    unfold passes
    dsimp only
    split_ifs
    · exact ih after
    · exact after

/-- With as many passes as entries a name is marked exactly if it reads, over any number of entries, a name marked at first. -/
theorem passes_iff {name : α} : passes entries entries.length marked name = true ↔
    ∃ source, marked source = true ∧ ReflTransGen (Reads entries) name source := by
  constructor
  · have back : ∀ entry ∈ entries, ∀ read ∈ entry.2,
        (∃ source, marked source = true ∧ ReflTransGen (Reads entries) read source) →
          ∃ source, marked source = true ∧ ReflTransGen (Reads entries) entry.1 source :=
      fun entry member read reads ⟨source, known, path⟩ => ⟨source, known, .head ⟨entry, member, rfl, reads⟩ path⟩
    exact passes_sound back _ (fun name known => ⟨name, known, .refl⟩) name
  · rintro ⟨source, known, path⟩
    obtain ⟨keeps, closed⟩ := @passes_closed _ _ entries marked _ (length_filter_le _ _)
    induction path using ReflTransGen.head_induction_on with
    | refl => exact keeps source known
    | head reads path ih =>
      obtain ⟨entry, member, rfl, inside⟩ := reads
      exact closed entry member (any_eq_true.mpr ⟨_, inside, ih⟩)

end EverWorks.Lib.Propagation
