import Mathlib.Data.Fintype.Order

/-!
When one more pair keeps a relation without cycles, and the members of a finite set that none of the others precedes.
-/

namespace EverWorks.Lib
open Relation

variable {α : Type*} {r s : α → α → Prop}

def Acyclic (r : α → α → Prop) : Prop := ∀ a, ¬ TransGen r a a

theorem Acyclic.mono (acyclic : Acyclic s) (within : ∀ a b, r a b → s a b) : Acyclic r :=
  fun a cycle => acyclic a (TransGen.mono within a a cycle)

theorem transGen_insert {first last a b : α} (path : TransGen (fun x y => r x y ∨ x = first ∧ y = last) a b) :
    TransGen r a b ∨ ReflTransGen r a first ∧ ReflTransGen r last b := by
  induction path with
  | single step =>
    rcases step with own | ⟨rfl, rfl⟩
    · exact .inl (.single own)
    · exact .inr ⟨.refl, .refl⟩
  | tail _ step ih =>
    rcases step with own | ⟨rfl, rfl⟩
    · rcases ih with path | ⟨before, after⟩
      · exact .inl (path.tail own)
      · exact .inr ⟨before, after.tail own⟩
    · rcases ih with path | ⟨before, _⟩
      · exact .inr ⟨path.to_reflTransGen, .refl⟩
      · exact .inr ⟨before, .refl⟩

theorem acyclic_insert {first last : α} (acyclic : Acyclic r) :
    Acyclic (fun x y => r x y ∨ x = first ∧ y = last) ↔ ¬ ReflTransGen r last first := by
  constructor
  · intro still back
    have path : ReflTransGen (fun x y => r x y ∨ x = first ∧ y = last) last first :=
      ReflTransGen.mono (fun _ _ => .inl) _ _ back
    exact still first (TransGen.head' (.inr ⟨rfl, rfl⟩) path)
  · intro apart a cycle
    rcases transGen_insert cycle with own | ⟨before, after⟩
    · exact acyclic a own
    · exact apart (after.trans before)

theorem exists_last_of_acyclic (acyclic : Acyclic r) {members : Set α} (finite : members.Finite)
    (inhabited : members.Nonempty) : ∃ a ∈ members, ∀ b ∈ members, ¬ r a b := by
  have : Finite members := finite
  let after : members → members → Prop := fun b a => TransGen r a b
  have : IsTrans members after := ⟨fun _ _ _ first second => second.trans first⟩
  have : Std.Irrefl after := ⟨fun a cycle => acyclic a cycle⟩
  obtain ⟨first, inside⟩ := inhabited
  obtain ⟨last, _, least⟩ :=
    (Finite.wellFounded_of_trans_of_irrefl after).has_min Set.univ ⟨⟨first, inside⟩, trivial⟩
  exact ⟨last, last.2, fun b member step => least ⟨b, member⟩ trivial (.single step)⟩

end EverWorks.Lib
