import Mathlib.Data.Finset.Card
import Mathlib.Order.Bounds.Basic

/-!
A memoised search for the longest chain of reads that ends in a name. A leaf is not read beyond, and every cycle has one.
-/

namespace EverWorks.Lib
open Relation List

variable {α : Type} [DecidableEq α] (reads : α → List α) (leaf : α → Bool)

abbrev Cache (α : Type) := α → Option (List α)

/-- One read of the loop over a name's reads: a longer chain takes the place of the longest. -/
def tryRead (chainOf : α → Cache α → Option (List α × Cache α)) (found : List α × Cache α) (read : α) :
    Option (List α × Cache α) :=
  (chainOf read found.2).map fun (chain, cache) => (if found.1.length < chain.length then chain else found.1, cache)

def chainOf : Nat → α → List α → Cache α → Option (List α × Cache α)
  | 0, _, _, _ => none
  | fuel + 1, name, visiting, cache =>
    match cache name with
    | some chain => some (chain, cache)
    | none =>
      if leaf name || visiting.contains name then some ([name], cache)
      else
        ((reads name).foldlM (tryRead fun read => chainOf fuel read (name :: visiting)) ([], cache)).map
          fun (longest, cache) => (longest ++ [name], Function.update cache name (some (longest ++ [name])))

/-- A chain of reads that ends in a name. -/
inductive EndsIn : List α → α → Prop
  | one (name : α) : EndsIn [name] name
  | reads {chain : List α} {read name : α} (ends : EndsIn chain read) (member : read ∈ reads name)
    (inner : leaf name = false) : EndsIn (chain ++ [name]) name

def Longest (chain : List α) (name : α) : Prop :=
  EndsIn reads leaf chain name ∧ ∀ other, EndsIn reads leaf other name → other.length ≤ chain.length

variable {reads leaf} {name : α} {cache : Cache α}

def Cached (reads : α → List α) (leaf : α → Bool) (cache : Cache α) : Prop :=
  ∀ name chain, cache name = some chain → Longest reads leaf chain name

omit [DecidableEq α] in
theorem longest_leaf (isLeaf : leaf name = true) : Longest reads leaf [name] name := by
  refine ⟨.one name, fun other ends => ?_⟩
  cases ends with
  | one => exact le_rfl
  | reads _ _ inner => rw [isLeaf] at inner; cases inner

/-- The longest of the chains to some reads of a name. -/
structure LongestOf (reads : α → List α) (leaf : α → Bool) (done : List α) (longest : List α) : Prop where
  ends : longest = [] ∧ done = [] ∨ ∃ read ∈ done, EndsIn reads leaf longest read
  most : ∀ read ∈ done, ∀ other, EndsIn reads leaf other read → other.length ≤ longest.length

omit [DecidableEq α] in
theorem LongestOf.snoc {longest : List α} (of : LongestOf reads leaf (reads name) longest) (inner : leaf name = false) :
    Longest reads leaf (longest ++ [name]) name := by
  refine ⟨?_, fun other ends => ?_⟩
  · rcases of.ends with ⟨rfl, -⟩ | ⟨read, member, ends⟩
    · exact .one name
    · exact .reads ends member inner
  · cases ends with
    | one => exact length_append ▸ Nat.le_add_left _ _
    | @reads chain read _ ends member _ =>
      rw [length_append, length_append]
      exact Nat.add_le_add_right (of.most read member chain ends) _

omit [DecidableEq α] in
theorem LongestOf.cons {done longest chain : List α} {read : α} (of : LongestOf reads leaf done longest)
    (longestRead : Longest reads leaf chain read) :
    LongestOf reads leaf (read :: done) (if longest.length < chain.length then chain else longest) := by
  split
  · rename_i longer
    refine ⟨Or.inr ⟨read, mem_cons_self, longestRead.1⟩, fun other member chain' ends => ?_⟩
    rcases mem_cons.mp member with rfl | earlier
    · exact longestRead.2 chain' ends
    · exact (of.most other earlier chain' ends).trans longer.le
  · rename_i notLonger
    have le : chain.length ≤ longest.length := Nat.not_lt.mp notLonger
    refine ⟨Or.inr ?_, fun other member chain' ends => ?_⟩
    · rcases of.ends with ⟨rfl, -⟩ | ⟨other, member, ends⟩
      · -- No chain is empty.
        rw [length_nil, Nat.le_zero, length_eq_zero_iff] at le
        subst le
        exact ⟨read, mem_cons_self, longestRead.1⟩
      · exact ⟨other, mem_cons_of_mem _ member, ends⟩
    · rcases mem_cons.mp member with rfl | earlier
      · exact (longestRead.2 chain' ends).trans le
      · exact of.most other earlier chain' ends

theorem chainOf_spec {names : List α} (known : ∀ name, reads name ≠ [] → name ∈ names)
    (looped : ∀ name, TransGen (fun a b => b ∈ reads a) name name → leaf name = true) (fuel : Nat) (name : α)
    (visiting : List α) (cached : Cached reads leaf cache)
    (onTheWay : ∀ x ∈ visiting, TransGen (fun a b => b ∈ reads a) x name)
    (enough : (names.toFinset \ visiting.toFinset).card < fuel) :
    ∃ chain cache', chainOf reads leaf fuel name visiting cache = some (chain, cache') ∧ Longest reads leaf chain name ∧
      Cached reads leaf cache' := by
  induction fuel generalizing name visiting cache with
  | zero => exact absurd enough (Nat.not_lt_zero _)
  | succ fuel ih =>
    rw [chainOf]
    cases hit : cache name with
    | some chain => exact ⟨chain, cache, rfl, cached name chain hit, cached⟩
    | none =>
      dsimp only
      by_cases stops : (leaf name || visiting.contains name) = true
      · rw [if_pos stops]
        refine ⟨[name], cache, rfl, longest_leaf ?_, cached⟩
        rcases Bool.or_eq_true _ _ ▸ stops with isLeaf | again
        · exact isLeaf
        · exact looped name (onTheWay name (contains_iff_mem.mp again))
      · rw [if_neg stops]
        rw [Bool.or_eq_true, not_or, Bool.not_eq_true, contains_iff_mem] at stops
        have loop : ∀ todo ⊆ reads name, ∀ done longest cache, LongestOf reads leaf done longest →
            Cached reads leaf cache → ∃ longest' cache',
              todo.foldlM (tryRead fun read => chainOf reads leaf fuel read (name :: visiting)) (longest, cache) =
                some (longest', cache') ∧ LongestOf reads leaf (todo.reverse ++ done) longest' ∧
              Cached reads leaf cache' := by
          intro todo
          induction todo with
          | nil => exact fun _ done longest cache of cached => ⟨longest, cache, rfl, of, cached⟩
          | cons read todo next =>
            intro inside done longest cache of cached
            have member := inside mem_cons_self
            have mine : name ∈ names := known name (ne_nil_of_mem member)
            have fewer : (names.toFinset \ (name :: visiting).toFinset).card < fuel := by
              refine (Finset.card_lt_card (t := names.toFinset \ visiting.toFinset) ?_).trans_le (Nat.le_of_lt_succ enough)
              refine (Finset.ssubset_iff_of_subset (fun x => ?_)).mpr ⟨name, ?_, ?_⟩ <;> simp +contextual [mine, stops.2]
            obtain ⟨chain, cache', reads', longestRead, cached'⟩ := ih read (name :: visiting) cached
              (forall_mem_cons.mpr ⟨.single member, fun x under => (onTheWay x under).tail member⟩) fewer
            obtain ⟨longest', cache'', rest, of', cached''⟩ :=
              next (fun x later => inside (mem_cons_of_mem _ later)) (read :: done) _ cache' (of.cons longestRead) cached'
            refine ⟨longest', cache'', ?_, by rwa [reverse_cons, append_assoc, singleton_append], cached''⟩
            rw [foldlM_cons, tryRead, reads']
            exact rest
        obtain ⟨longest, cache', runs, of, cached'⟩ := loop (reads name) (List.Subset.refl _) [] [] cache
          ⟨Or.inl ⟨rfl, rfl⟩, nofun⟩ cached
        have of' : LongestOf reads leaf (reads name) longest := by
          rw [append_nil] at of
          exact ⟨of.ends.imp (fun ⟨empty, unread⟩ => ⟨empty, reverse_eq_nil_iff.mp unread⟩)
            fun ⟨read, member, ends⟩ => ⟨read, mem_reverse.mp member, ends⟩,
            fun read member => of.most read (mem_reverse.mpr member)⟩
        have whole := of'.snoc stops.1
        refine ⟨longest ++ [name], _, by rw [runs]; rfl, whole, fun other chain held => ?_⟩
        by_cases self : other = name
        · rw [self, Function.update_self] at held
          rw [self, ← Option.some.inj held]
          exact whole
        · rw [Function.update_of_ne self] at held
          exact cached' other chain held

end EverWorks.Lib
