import EverWorks.AppEnv.Dotenv
import EverWorks.Lib.Json
import EverWorks.Lib.LongestChain
import EverWorks.Lib.Tarjan

/-!
The entries of an App spec's `env` read one another through the `env.NAME` placeholders of their templates.
-/

namespace EverWorks.Apps
open Lib Relation List

structure AppSpecEnvEntry where
  name : Option Utf16
  template : Option Utf16 := none

structure AppSpec where
  env : List AppSpecEnvEntry

def indexOf (word : Utf16) : Utf16 → Option Nat
  | [] => none
  | unit :: rest => if word.isPrefixOf (unit :: rest) then some 0 else (indexOf word rest).map (· + 1)

/-- The entry that the text of a placeholder names, if it is an `EnvRef`: no other reference names one. -/
def tokenizeTemplatePlaceholder (text : Utf16) : Option Utf16 :=
  let value := Utf16.trim text
  let entry := value.drop 4
  if (ascii "env.").isPrefixOf value && AppEnv.matchesNamePattern entry then some entry else none

/-- The entries named by the closed placeholders of a text, each turn past one of them. -/
def tokenizeTemplate : Nat → Utf16 → List Utf16
  | 0, _ => []
  | turns + 1, source =>
    match indexOf (ascii "\x7b\x7b") source with
    | none => []
    | some opening =>
      let inside := source.drop (opening + 2)
      match indexOf (ascii "\x7d\x7d") inside with
      | none => []
      | some closing =>
        (tokenizeTemplatePlaceholder (inside.take closing)).toList ++ tokenizeTemplate turns (inside.drop (closing + 2))

def pushNew (names : List Utf16) (name : Utf16) : List Utf16 := if names.contains name then names else names ++ [name]

def templateReads (entry : AppSpecEnvEntry) : List Utf16 :=
  match entry.template with
  | none => []
  | some template => (tokenizeTemplate template.length template).foldl pushNew []

namespace AppSpec

variable (spec : AppSpec)

def names : List Utf16 := (spec.env.filterMap (·.name)).foldl pushNew []

def indexByName (name : Utf16) : Nat := spec.env.findIdx (·.name == some name)

/-- Of entries of one name the last sets the edges. -/
def edges (name : Utf16) : List Utf16 :=
  ((spec.env.reverse.find? (·.name == some name)).elim [] templateReads).filter spec.names.contains

def isCycle (component : List Utf16) : Bool :=
  1 < component.length || component.length == 1 && component.any fun name => (spec.edges name).contains name

def findTemplateCycles : Option (List (List Utf16)) :=
  (Tarjan.search spec.edges spec.names).map fun found =>
    (found.components.filter spec.isCycle).map (·.mergeSort fun left right => spec.indexByName left ≤ spec.indexByName right)

def readsByName (name : Utf16) : List Utf16 := (spec.env.find? (·.name == some name)).elim [] templateReads

structure EntryAnalysis where
  index : Nat
  name : Utf16
  reads : List Utf16
  depth : Nat
  chain : List Utf16

inductive ReferenceProblem
  | templateCycle (pointer : String) (entries : List Utf16)
  | templateTooDeep (pointer : String) (entry : Utf16) (depth : Nat)

structure ReferenceAnalysis where
  entries : List EntryAnalysis
  cycles : List (List Utf16)
  problems : List ReferenceProblem

def maxDepth : Nat := 10

def envPointer (index : Nat) (key : String) : String := "/spec/env/" ++ toString index ++ "/" ++ key

def analyzeEntry (cycles : List (List Utf16)) (found : List EntryAnalysis × Cache Utf16) (listed : AppSpecEnvEntry × Nat) :
    Option (List EntryAnalysis × Cache Utf16) :=
  match listed.1.name with
  | none => some found
  | some name =>
    let chained :=
      if cycles.flatten.contains name then some ([name], found.2)
      else chainOf spec.readsByName cycles.flatten.contains (spec.names.length + 1) name [] found.2
    chained.map fun (chain, cache) =>
      (found.1 ++ [⟨listed.2, name, spec.readsByName name, chain.length, chain⟩], cache)

def analyzeReferences : Option ReferenceAnalysis :=
  spec.findTemplateCycles.bind fun cycles =>
    (spec.env.zipIdx.foldlM (spec.analyzeEntry cycles) ([], fun _ => none)).map fun (entries, _) =>
      { entries, cycles
        problems :=
          cycles.map (fun cycle => .templateCycle (envPointer (spec.indexByName (cycle.headD [])) "template") cycle) ++
            (entries.filter (maxDepth < ·.depth)).map fun entry =>
              .templateTooDeep (envPointer entry.index "template") entry.name entry.depth }

/-- An entry's template reads a name. -/
def Reads (reader read : Utf16) : Prop := ∃ entry ∈ spec.env, entry.name = some reader ∧ read ∈ templateReads entry

/-- An edge of the graph of entries. -/
def Edge (reader read : Utf16) : Prop := spec.Reads reader read ∧ ∃ entry ∈ spec.env, entry.name = some read

/-- The entries' names that reach one another and lie on a cycle, in document order. -/
def IsCycle (cycle : List Utf16) : Prop :=
  cycle.Sublist (spec.env.filterMap (·.name)) ∧
    ∃ first ∈ cycle, (∀ name, name ∈ cycle ↔ ReflTransGen spec.Edge first name ∧ ReflTransGen spec.Edge name first) ∧
      (1 < cycle.length ∨ spec.Edge first first)

/-- A chain of template reads that ends in a name; a member of a cycle may only begin one. -/
inductive Chain : List Utf16 → Utf16 → Prop
  | one (name : Utf16) : Chain [name] name
  | reads {chain : List Utf16} {read name : Utf16} (ends : Chain chain read) (member : spec.Reads name read)
    (outside : ∀ cycle, spec.IsCycle cycle → name ∉ cycle) : Chain (chain ++ [name]) name

/-- The names of the entries differ. -/
def Distinct : Prop := (spec.env.filterMap (·.name)).Nodup

variable {spec}

theorem foldl_pushNew {front list : List Utf16} (distinct : (front ++ list).Nodup) :
    list.foldl pushNew front = front ++ list := by
  induction list generalizing front with
  | nil => exact (append_nil _).symm
  | cons name list ih =>
    have fresh : name ∉ front := fun member =>
      (nodup_append.mp distinct).2.2 name member name mem_cons_self rfl
    rw [foldl_cons, pushNew, if_neg (by simpa using fresh), ih (by simpa using distinct)]
    simp

theorem names_eq (distinct : spec.Distinct) : spec.names = spec.env.filterMap (·.name) :=
  @foldl_pushNew [] _ distinct

variable {name : Utf16}

variable {entries : List AppSpecEnvEntry}

theorem unique (distinct : (entries.filterMap (·.name)).Nodup)
    {entry other : AppSpecEnvEntry} (member : entry ∈ entries) (member' : other ∈ entries)
    (named : entry.name = some name) (named' : other.name = some name) : entry = other := by
  induction entries with
  | nil => cases member
  | cons first entries ih =>
    have later {e : AppSpecEnvEntry} (inside : e ∈ entries) (called : e.name = some name) :
        name ∈ entries.filterMap (·.name) := mem_filterMap.mpr ⟨e, inside, called⟩
    rcases mem_cons.mp member with rfl | inside <;> rcases mem_cons.mp member' with rfl | inside'
    · rfl
    · rw [filterMap_cons_some named] at distinct
      exact absurd (later inside' named') (nodup_cons.mp distinct).1
    · rw [filterMap_cons_some named'] at distinct
      exact absurd (later inside named) (nodup_cons.mp distinct).1
    · refine ih (distinct.sublist ?_) inside inside'
      exact (sublist_cons_self _ _).filterMap _

variable {reader read : Utf16}

theorem mem_reads (distinct : spec.Distinct) (same : ∀ entry, entry ∈ entries ↔ entry ∈ spec.env)
    :
    read ∈ (entries.find? (·.name == some reader)).elim [] templateReads ↔ spec.Reads reader read := by
  cases found : entries.find? (·.name == some reader) with
  | none =>
    refine ⟨nofun, fun ⟨entry, member, named, _⟩ => ?_⟩
    have := find?_eq_none.mp found entry ((same entry).mpr member)
    rw [named] at this
    exact absurd (beq_self_eq_true _) this
  | some entry =>
    have named : entry.name = some reader := by simpa using find?_some found
    have member := (same entry).mp (mem_of_find?_eq_some found)
    refine ⟨fun reads => ⟨entry, member, named, reads⟩, fun ⟨other, member', named', reads⟩ => ?_⟩
    rwa [Option.elim_some, unique distinct member member' named named']

theorem mem_readsByName (distinct : spec.Distinct) :
    read ∈ spec.readsByName reader ↔ spec.Reads reader read := mem_reads distinct fun _ => Iff.rfl

theorem mem_names (distinct : spec.Distinct) :
    name ∈ spec.names ↔ ∃ entry ∈ spec.env, entry.name = some name := by
  rw [names_eq distinct, mem_filterMap]

theorem mem_edges (distinct : spec.Distinct) : read ∈ spec.edges reader ↔ spec.Edge reader read := by
  rw [edges, mem_filter, mem_reads distinct fun _ => mem_reverse, contains_iff_mem, mem_names distinct, Edge]

theorem reaches_iff (distinct : spec.Distinct) {a b : Utf16} :
    Tarjan.Reaches spec.edges a b ↔ ReflTransGen spec.Edge a b := by
  have same : (fun a b => b ∈ spec.edges a) = spec.Edge := funext fun _ => funext fun _ => propext (mem_edges distinct)
  rw [Tarjan.Reaches, same]

theorem pairwise_findIdx (distinct : (entries.filterMap (·.name)).Nodup) :
    (entries.filterMap (·.name)).Pairwise fun a b =>
      entries.findIdx (·.name == some a) < entries.findIdx (·.name == some b) := by
  induction entries with
  | nil => exact .nil
  | cons entry entries ih =>
    cases named : entry.name with
    | none =>
      rw [filterMap_cons_none named] at distinct ⊢
      refine (ih distinct).imp fun less => ?_
      rw [findIdx_cons, findIdx_cons, named]
      exact Nat.succ_lt_succ less
    | some name =>
      rw [filterMap_cons_some named, nodup_cons] at distinct
      rw [filterMap_cons_some named]
      have after {b : Utf16} (member : b ∈ entries.filterMap (·.name)) :
          (entry :: entries).findIdx (·.name == some b) = entries.findIdx (·.name == some b) + 1 := by
        have other : (some name == some b) = false := by
          rw [beq_eq_false_iff_ne]
          rintro ⟨⟩
          exact distinct.1 member
        rw [findIdx_cons, named, other]
        rfl
      refine pairwise_cons.mpr ⟨fun b member => ?_, (ih distinct.2).imp_of_mem fun memberA memberB less => ?_⟩
      · rw [after member, findIdx_cons, named, beq_self_eq_true]
        exact Nat.succ_pos _
      · rw [after memberA, after memberB]
        exact Nat.succ_lt_succ less

theorem indexByName_inj (distinct : spec.Distinct) {a b : Utf16} (memberA : a ∈ spec.names) (memberB : b ∈ spec.names)
    (same : spec.indexByName a = spec.indexByName b) : a = b := by
  have here {name : Utf16} (member : name ∈ spec.names) : ∃ inside : spec.indexByName name < spec.env.length,
      (spec.env.get ⟨_, inside⟩).name = some name := by
    obtain ⟨entry, listed, named⟩ := (mem_names distinct).mp member
    have inside : spec.indexByName name < spec.env.length :=
      findIdx_lt_length.mpr ⟨entry, listed, beq_iff_eq.mpr named⟩
    exact ⟨inside, beq_iff_eq.mp (findIdx_getElem (w := inside))⟩
  obtain ⟨inside, named⟩ := here memberA
  obtain ⟨_, named'⟩ := here memberB
  simp only [same] at named
  exact Option.some.inj (named.symm.trans named')

theorem names_nodup (distinct : spec.Distinct) : spec.names.Nodup := names_eq distinct ▸ distinct

theorem eq_filter (distinct : spec.Distinct) {sorted component : List Utf16} (unique : sorted.Nodup)
    (pairwise : sorted.Pairwise fun left right => spec.indexByName left ≤ spec.indexByName right)
    (inside : sorted ⊆ spec.names) (same : ∀ name, name ∈ sorted ↔ name ∈ component) :
    sorted = spec.names.filter component.contains := by
  have ordered : spec.names.Pairwise fun left right => spec.indexByName left < spec.indexByName right :=
    names_eq distinct ▸ pairwise_findIdx distinct
  have perm := (perm_ext_iff_of_nodup unique ((names_nodup distinct).filter component.contains)).mpr fun name => by
    rw [mem_filter, contains_iff_mem, same]
    exact ⟨fun member => ⟨inside ((same name).mpr member), member⟩, And.right⟩
  exact perm.eq_of_pairwise (fun a b memberA memberB le le' => indexByName_inj distinct (inside memberA)
    (mem_filter.mp memberB).1 (le_antisymm le le')) pairwise ((ordered.filter _).imp le_of_lt)

/-- The members of a component, put in document order, are those among the names of the document. -/
theorem sort_eq_filter (distinct : spec.Distinct) {component : List Utf16} (unique : component.Nodup)
    (inside : component ⊆ spec.names) :
    (component.mergeSort fun left right => spec.indexByName left ≤ spec.indexByName right) =
      spec.names.filter component.contains := by
  have sorted := @pairwise_mergeSort _ (fun left right => decide (spec.indexByName left ≤ spec.indexByName right))
    (fun a b c first second => decide_eq_true ((of_decide_eq_true first).trans (of_decide_eq_true second)))
    (fun a b => by simpa using Nat.le_total _ _) component
  exact eq_filter distinct ((mergeSort_perm _ _).nodup_iff.mpr unique)
    (sorted.imp fun le => of_decide_eq_true le) (fun name member => inside (mem_mergeSort.mp member))
    fun name => mem_mergeSort

theorem isCycle_iff (distinct : spec.Distinct) {component : List Utf16} {first : Utf16} (member : first ∈ component) :
    spec.isCycle component = true ↔ 1 < component.length ∨ spec.Edge first first := by
  have contained : (spec.edges first).contains first = true ↔ spec.Edge first first :=
    contains_iff_mem.trans (mem_edges distinct)
  match component, member with
  | [only], member =>
    obtain rfl := mem_singleton.mp member
    simp only [isCycle, any_cons, any_nil, Bool.or_false, Bool.or_eq_true, Bool.and_eq_true, contained]
    simp
  | _ :: _ :: _, _ => simp [isCycle]

theorem findTemplateCycles_spec (distinct : spec.Distinct) : ∃ cycles, spec.findTemplateCycles = some cycles ∧
    cycles.Nodup ∧ ∀ cycle, cycle ∈ cycles ↔ spec.IsCycle cycle := by
  obtain ⟨found, searches, apart, all, whole⟩ := @Tarjan.search_spec _ _ spec.edges spec.names
    fun _ _ _ member => contains_iff_mem.mp (mem_filter.mp member).2
  obtain ⟨each, disjoint⟩ := nodup_flatten.mp apart
  have inside {component : List Utf16} (listed : component ∈ found.components) : component ⊆ spec.names :=
    fun name member => (all name).mp (mem_flatten.mpr ⟨component, listed, member⟩)
  have sorted {component : List Utf16} (listed : component ∈ found.components) :=
    sort_eq_filter distinct (each component listed) (inside listed)
  have mem_sorted {component : List Utf16} (listed : component ∈ found.components) (name : Utf16) :
      name ∈ spec.names.filter component.contains ↔ name ∈ component := by
    rw [mem_filter, contains_iff_mem, and_iff_right_of_imp (inside listed ·)]
  have together {component : List Utf16} (listed : component ∈ found.components) {first : Utf16}
      (member : first ∈ component) (name : Utf16) : name ∈ component ↔
        ReflTransGen spec.Edge first name ∧ ReflTransGen spec.Edge name first := by
    rw [(whole component listed).2 first member name, Tarjan.Together, reaches_iff distinct, reaches_iff distinct]
  refine ⟨_, by rw [findTemplateCycles, searches]; rfl, ?_, fun cycle => ?_⟩
  · refine pairwise_map.mpr ((disjoint.filter _).imp_of_mem fun listed listed' disjoint same => ?_)
    have listed := (mem_filter.mp listed).1
    have listed' := (mem_filter.mp listed').1
    obtain ⟨first, member⟩ := exists_mem_of_ne_nil _ (whole _ listed).1
    rw [sorted listed, sorted listed'] at same
    exact disjoint member ((mem_sorted listed' first).mp (same ▸ (mem_sorted listed first).mpr member))
  · simp only [mem_map, mem_filter]
    constructor
    · rintro ⟨component, ⟨listed, isCycle⟩, rfl⟩
      obtain ⟨first, member⟩ := exists_mem_of_ne_nil _ (whole _ listed).1
      have length := (mergeSort_perm component fun left right => spec.indexByName left ≤ spec.indexByName right).length_eq
      rw [sorted listed] at length ⊢
      refine ⟨names_eq distinct ▸ filter_sublist, first, (mem_sorted listed first).mpr member, fun name => ?_, ?_⟩
      · rw [mem_sorted listed, together listed member]
      · rw [length]
        exact (isCycle_iff distinct member).mp isCycle
    · rintro ⟨sub, first, member, members, cyclic⟩
      rw [← names_eq distinct] at sub
      obtain ⟨component, listed, member'⟩ := mem_flatten.mp ((all first).mpr (sub.subset member))
      have ordered : spec.names.Pairwise fun left right => spec.indexByName left < spec.indexByName right :=
        names_eq distinct ▸ pairwise_findIdx distinct
      have same := @eq_filter _ distinct _ component ((names_nodup distinct).sublist sub)
        ((ordered.sublist sub).imp le_of_lt) sub.subset fun name => (members name).trans (together listed member' name).symm
      have length := (mergeSort_perm component fun left right => spec.indexByName left ≤ spec.indexByName right).length_eq
      rw [sorted listed, ← same] at length
      exact ⟨component, ⟨listed, (isCycle_iff distinct member').mpr (length ▸ cyclic)⟩, (sorted listed).trans same.symm⟩

section
variable {cycles : List (List Utf16)} (distinct : spec.Distinct) (exact_ : ∀ cycle, cycle ∈ cycles ↔ spec.IsCycle cycle)
include distinct exact_

omit distinct in
theorem leaf_iff : cycles.flatten.contains name = false ↔ ∀ cycle, spec.IsCycle cycle → name ∉ cycle := by
  rw [← Bool.not_eq_true, contains_iff_mem, mem_flatten]
  simp only [exact_, not_exists, not_and]

theorem looped (loop : TransGen (fun a b => b ∈ spec.readsByName a) name name) :
    cycles.flatten.contains name = true := by
  have known {a b : Utf16} (reads : b ∈ spec.readsByName a) : ∃ entry ∈ spec.env, entry.name = some a := by
    obtain ⟨entry, member, named, -⟩ := (mem_readsByName distinct).mp reads
    exact ⟨entry, member, named⟩
  have edges {a : Utf16} (path : TransGen (fun a b => b ∈ spec.readsByName a) a name) : TransGen spec.Edge a name := by
    obtain ⟨_, first, -⟩ := TransGen.head'_iff.mp loop
    induction path using TransGen.head_induction_on with
    | single reads => exact .single ⟨(mem_readsByName distinct).mp reads, known first⟩
    | head reads path ih =>
      obtain ⟨_, next, -⟩ := TransGen.head'_iff.mp path
      exact .head ⟨(mem_readsByName distinct).mp reads, known next⟩ ih
  obtain ⟨_, last, own⟩ := TransGen.tail'_iff.mp (edges loop)
  obtain ⟨next, edge, returns⟩ := TransGen.head'_iff.mp (edges loop)
  classical
  let cycle := spec.names.filter fun other => ReflTransGen spec.Edge name other ∧ ReflTransGen spec.Edge other name
  have mem_cycle {other : Utf16} : other ∈ cycle ↔ ReflTransGen spec.Edge name other ∧ ReflTransGen spec.Edge other name := by
    simp only [cycle, mem_filter, decide_eq_true_eq, and_iff_right_iff_imp]
    rintro ⟨there, -⟩
    rcases ReflTransGen.cases_tail there with rfl | ⟨_, -, reads⟩
    · exact (mem_names distinct).mpr own.2
    · exact (mem_names distinct).mpr reads.2
  have mine : name ∈ cycle := mem_cycle.mpr ⟨.refl, .refl⟩
  have isCycle : spec.IsCycle cycle := by
    refine ⟨names_eq distinct ▸ filter_sublist, name, mine, fun other => mem_cycle, ?_⟩
    by_cases self : next = name
    · exact Or.inr (self ▸ edge)
    · have other : next ∈ cycle := mem_cycle.mpr ⟨.single edge, returns⟩
      left
      by_contra short
      have := length_pos_of_mem mine
      obtain ⟨only, single⟩ := length_eq_one_iff.mp (show cycle.length = 1 by omega)
      rw [single, mem_singleton] at mine other
      exact self (other.trans mine.symm)
  rw [contains_iff_mem, mem_flatten]
  exact ⟨cycle, (exact_ cycle).mpr isCycle, mine⟩

theorem endsIn_iff {chain : List Utf16} :
    EndsIn spec.readsByName cycles.flatten.contains chain name ↔ spec.Chain chain name := by
  constructor <;> intro ends
  · induction ends with
    | one => exact .one _
    | reads _ member inner ih => exact .reads ih ((mem_readsByName distinct).mp member) ((leaf_iff exact_).mp inner)
  · induction ends with
    | one => exact .one _
    | reads _ member outside ih => exact .reads ih ((mem_readsByName distinct).mpr member) ((leaf_iff exact_).mpr outside)

theorem analyzeEntries (listed : List (AppSpecEnvEntry × Nat)) {found : List EntryAnalysis × Cache Utf16}
    (cached : Cached spec.readsByName cycles.flatten.contains found.2) :
    ∃ entries cache, listed.foldlM (spec.analyzeEntry cycles) found = some (found.1 ++ entries, cache) ∧
      entries.map (·.name) = (listed.map (·.1)).filterMap (·.name) ∧ ∀ entry ∈ entries, entry.depth = entry.chain.length ∧
        Longest spec.readsByName cycles.flatten.contains entry.chain entry.name := by
  induction listed generalizing found with
  | nil => exact ⟨[], found.2, by simp, rfl, nofun⟩
  | cons first rest ih =>
    rw [foldlM_cons, analyzeEntry]
    cases named : first.1.name with
    | none =>
      rw [map_cons, filterMap_cons_none named]
      exact ih cached
    | some name =>
      have chained : ∃ chain cache, (if cycles.flatten.contains name then some ([name], found.2)
          else chainOf spec.readsByName cycles.flatten.contains (spec.names.length + 1) name [] found.2) =
          some (chain, cache) ∧ Longest spec.readsByName cycles.flatten.contains chain name ∧
          Cached spec.readsByName cycles.flatten.contains cache := by
        split
        · rename_i isLeaf
          exact ⟨[name], found.2, rfl, longest_leaf isLeaf, cached⟩
        · refine @chainOf_spec _ _ _ _ _ spec.names (fun reader reads => ?_) (fun _ => looped distinct exact_) _ name []
            cached nofun ?_
          · obtain ⟨read, member⟩ := exists_mem_of_ne_nil _ reads
            obtain ⟨entry, inside, called, -⟩ := (mem_readsByName distinct).mp member
            exact (mem_names distinct).mpr ⟨entry, inside, called⟩
          · exact Nat.lt_succ_of_le ((Finset.card_le_card Finset.sdiff_subset).trans (toFinset_card_le _))
      obtain ⟨chain, cache, chains, longest, cached'⟩ := chained
      let analysis : EntryAnalysis := ⟨first.2, name, spec.readsByName name, chain.length, chain⟩
      obtain ⟨entries, cache', runs, names, all⟩ := @ih (found.1 ++ [analysis], cache) cached'
      refine ⟨analysis :: entries, cache', ?_, ?_, forall_mem_cons.mpr ⟨⟨rfl, longest⟩, all⟩⟩
      · dsimp only
        rw [chains, Option.map_some]
        exact runs.trans (by rw [append_assoc, singleton_append])
      · rw [map_cons, names, map_cons, filterMap_cons_some named]

end

/-- The cycles found are the components with more than one member or an edge of their own, each once and in document order; they
are what `template_cycle` reports, and outside them a depth is the length of the longest chain of reads. -/
theorem templateCycles_exact (spec : AppSpec) (distinct : spec.Distinct) : ∃ analysis,
    spec.analyzeReferences = some analysis ∧ spec.findTemplateCycles = some analysis.cycles ∧ analysis.cycles.Nodup ∧
    (∀ cycle, cycle ∈ analysis.cycles ↔ spec.IsCycle cycle) ∧
    ((∃ pointer cycle, .templateCycle pointer cycle ∈ analysis.problems) ↔ ∃ cycle, spec.IsCycle cycle) ∧
    analysis.entries.map (·.name) = spec.env.filterMap (·.name) ∧
    ∀ entry ∈ analysis.entries, (∀ cycle, spec.IsCycle cycle → entry.name ∉ cycle) →
      IsGreatest {length | ∃ chain, spec.Chain chain entry.name ∧ chain.length = length} entry.depth := by
  obtain ⟨cycles, finds, once, cyclic⟩ := findTemplateCycles_spec distinct
  obtain ⟨entries, cache, runs, names, all⟩ := @analyzeEntries _ _ distinct cyclic spec.env.zipIdx ([], fun _ => none) nofun
  refine ⟨_, by rw [analyzeReferences, finds, Option.bind_some, runs]; rfl, finds, once, cyclic, ?_, ?_, ?_⟩
  · simp only [mem_append, mem_map, reduceCtorEq, and_false, exists_false, or_false]
    constructor
    · rintro ⟨_, _, cycle, member, -⟩
      exact ⟨cycle, (cyclic cycle).mp member⟩
    · rintro ⟨cycle, isCycle⟩
      exact ⟨_, _, cycle, (cyclic cycle).mpr isCycle, rfl⟩
  · rw [nil_append, names, zipIdx_map_fst]
  · intro entry member _
    obtain ⟨depth, ends, most⟩ := all entry (by simpa using member)
    rw [depth]
    refine ⟨⟨_, (endsIn_iff distinct cyclic).mp ends, rfl⟩, ?_⟩
    rintro _ ⟨chain, chains, rfl⟩
    exact most chain ((endsIn_iff distinct cyclic).mpr chains)

/-- An entry that reads itself, and one that reads it. -/
def selfRead : AppSpec where
  env := [⟨some (ascii "A"), some (ascii "\x7b\x7b env.A \x7d\x7d")⟩, ⟨some (ascii "B"), some (ascii "\x7b\x7benv.A\x7d\x7d/x")⟩]

theorem selfRead_isCycle : selfRead.IsCycle [ascii "A"] := by
  have distinct : (selfRead.env.filterMap (·.name)).Nodup := by decide +kernel
  obtain ⟨analysis, -, finds, -, cyclic, -⟩ := templateCycles_exact selfRead distinct
  have components : (Tarjan.search selfRead.edges selfRead.names).map (·.components.filter selfRead.isCycle) =
      some [[ascii "A"]] := by decide +kernel
  obtain ⟨found, searches, listed⟩ := Option.map_eq_some_iff.mp components
  rw [findTemplateCycles, searches, Option.map_some, listed, map_singleton, mergeSort_singleton] at finds
  exact (cyclic _).mp (Option.some.inj finds ▸ mem_singleton_self _)

end AppSpec

end EverWorks.Apps
