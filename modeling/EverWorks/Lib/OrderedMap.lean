import Mathlib.Data.List.Nodup

/-!
A map as a list of its entries, oldest first, no key twice. A value set under a key that is there takes its place;
under a new key it goes to the end.
-/

namespace EverWorks.Lib
open List

structure OrderedMap (κ α : Type) where
  entries : List (κ × α)
  nodup : (entries.map Prod.fst).Nodup
deriving DecidableEq

namespace OrderedMap

variable {κ α : Type} [DecidableEq κ]

def empty : OrderedMap κ α := ⟨[], nodup_nil⟩

def get (map : OrderedMap κ α) (key : κ) : Option α := (map.entries.find? (·.1 = key)).map (·.2)

def has (map : OrderedMap κ α) (key : κ) : Bool := (map.get key).isSome

def values (map : OrderedMap κ α) : List α := map.entries.map (·.2)

def replaced (key : κ) (value : α) (entries : List (κ × α)) : List (κ × α) :=
  entries.map fun entry => if entry.1 = key then (key, value) else entry

theorem replaced_keys (key : κ) (value : α) (entries : List (κ × α)) :
    (replaced key value entries).map Prod.fst = entries.map Prod.fst := by
  rw [replaced, List.map_map]
  refine map_congr_left fun entry _ => ?_
  rw [Function.comp_apply]
  split
  · rename_i same
    exact same.symm
  · rfl

variable {map : OrderedMap κ α}

theorem has_eq_true {key : κ} : map.has key = true ↔ key ∈ map.entries.map Prod.fst := by
  rw [has, get, Option.isSome_map, find?_isSome]
  simp

def set (map : OrderedMap κ α) (key : κ) (value : α) : OrderedMap κ α :=
  if there : map.has key then ⟨replaced key value map.entries, by rw [replaced_keys]; exact map.nodup⟩
  else ⟨map.entries ++ [(key, value)], by
    rw [map_append, map_singleton, ← concat_eq_append, nodup_concat]
    exact ⟨fun listed => there (has_eq_true.mpr listed), map.nodup⟩⟩

def delete (map : OrderedMap κ α) (key : κ) : OrderedMap κ α where
  entries := map.entries.filter (·.1 ≠ key)
  nodup := map.nodup.sublist (filter_sublist.map _)

def mapValues (f : κ → α → α) (map : OrderedMap κ α) : OrderedMap κ α where
  entries := map.entries.map fun entry => (entry.1, f entry.1 entry.2)
  nodup := by
    rw [List.map_map]
    exact map.nodup

@[simp] theorem get_empty (key : κ) : (empty : OrderedMap κ α).get key = none := rfl

theorem get_eq_some {key : κ} {value : α} :
    map.get key = some value ↔ (key, value) ∈ map.entries := by
  constructor
  · intro found
    obtain ⟨entry, first, rfl⟩ := Option.map_eq_some_iff.mp found
    have same : entry.1 = key := by simpa using find?_some first
    rw [← same]
    exact mem_of_find?_eq_some first
  · intro listed
    have there : map.has key = true := has_eq_true.mpr (mem_map_of_mem listed)
    obtain ⟨other, found⟩ := Option.isSome_iff_exists.mp there
    obtain ⟨entry, first, rfl⟩ := Option.map_eq_some_iff.mp found
    have same : entry.1 = key := by simpa using find?_some first
    have one := inj_on_of_nodup_map map.nodup (mem_of_find?_eq_some first) listed same
    rw [found, one]

theorem get_eq_none {key : κ} :
    map.get key = none ↔ ∀ value, (key, value) ∉ map.entries := by
  simp only [← get_eq_some]
  cases map.get key with
  | none => simp
  | some value => simp

theorem get_set (map : OrderedMap κ α) (key : κ) (value : α) (other : κ) :
    (map.set key value).get other = if other = key then some value else map.get other := by
  have entries {entry : κ × α} : entry ∈ (map.set key value).entries ↔
      entry = (key, value) ∨ (entry ∈ map.entries ∧ entry.1 ≠ key) := by
    rw [set]
    split
    · rename_i there
      obtain ⟨old, listed, named⟩ := mem_map.mp (has_eq_true.mp there)
      simp only [replaced, mem_map]
      constructor
      · rintro ⟨before, member, rfl⟩
        by_cases hit : before.1 = key
        · exact .inl (if_pos hit)
        · rw [if_neg hit]
          exact .inr ⟨member, hit⟩
      · rintro (rfl | ⟨member, apart⟩)
        · exact ⟨old, listed, if_pos named⟩
        · exact ⟨entry, member, if_neg apart⟩
    · rename_i absent
      rw [mem_append, mem_singleton, or_comm]
      refine or_congr_right ⟨fun member => ⟨member, ?_⟩, fun both => both.1⟩
      rintro rfl
      exact absent (has_eq_true.mpr (mem_map_of_mem member))
  split
  · rename_i same
    rw [same]
    exact get_eq_some.mpr (entries.mpr (.inl rfl))
  · rename_i apart
    refine Option.ext fun found => ?_
    rw [get_eq_some, get_eq_some, entries]
    constructor
    · rintro (same | ⟨listed, _⟩)
      · exact absurd (congrArg Prod.fst same) apart
      · exact listed
    · exact fun listed => .inr ⟨listed, apart⟩

theorem get_delete (map : OrderedMap κ α) (key other : κ) :
    (map.delete key).get other = if other = key then none else map.get other := by
  have entries {entry : κ × α} : entry ∈ (map.delete key).entries ↔ entry ∈ map.entries ∧ entry.1 ≠ key := by
    simp [delete]
  split
  · rename_i same
    rw [get_eq_none]
    exact fun value listed => (entries.mp listed).2 same
  · rename_i apart
    refine Option.ext fun found => ?_
    rw [get_eq_some, get_eq_some, entries]
    exact ⟨fun both => both.1, fun listed => ⟨listed, apart⟩⟩

theorem get_mapValues (f : κ → α → α) (map : OrderedMap κ α) (key : κ) :
    (map.mapValues f).get key = (map.get key).map (f key) := by
  refine Option.ext fun found => ?_
  simp only [get_eq_some, Option.map_eq_some_iff, mapValues, mem_map, Prod.mk.injEq, Prod.exists]
  constructor
  · rintro ⟨key, value, listed, rfl, rfl⟩
    exact ⟨value, listed, rfl⟩
  · rintro ⟨value, listed, rfl⟩
    exact ⟨key, value, listed, rfl, rfl⟩

theorem mem_values {value : α} : value ∈ map.values ↔ ∃ key, map.get key = some value := by
  simp only [values, get_eq_some, mem_map, Prod.exists, exists_eq_right]

end OrderedMap

end EverWorks.Lib
