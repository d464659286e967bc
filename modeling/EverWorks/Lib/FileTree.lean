import Mathlib.Data.List.Infix

/-!
Looking a path up follows the links on its way, as POSIX does. Where no `..` climbs out of a link, a folder whose
links all point into it by their text contains all that is reached from it.
-/

namespace EverWorks.Lib
open List

inductive Segment (α : Type) where
  | here
  | up
  | name (name : α)
  deriving DecidableEq

inductive FileNode (α : Type) where
  | folder
  | file (bytes : List UInt8)
  /-- A socket, a device or a pipe. -/
  | other
  /-- A target is read from the root, or else from the link's own folder. -/
  | link (rooted : Bool) (target : List (Segment α))
  deriving DecidableEq

abbrev FileTree (α : Type) := List α → Option (FileNode α)

namespace FileTree

variable {α : Type}

def lexical : List α → List (Segment α) → List α
  | dir, [] => dir
  | dir, .here :: rest => lexical dir rest
  | dir, .up :: rest => lexical dir.dropLast rest
  | dir, .name name :: rest => lexical (dir ++ [name]) rest

/-- Walks from folder to folder; `follow` takes over at a link. -/
def walk (tree : FileTree α) (follow : List α → List (Segment α) → Option (List α)) :
    List α → List (Segment α) → Option (List α)
  | dir, [] => some dir
  | dir, .here :: rest => walk tree follow dir rest
  | dir, .up :: rest => walk tree follow dir.dropLast rest
  | dir, .name name :: rest =>
    match tree (dir ++ [name]) with
    | some .folder => walk tree follow (dir ++ [name]) rest
    | some (.link rooted target) => follow (if rooted then [] else dir) (target ++ rest)
    | _ => none

/-- The folder that segments lead to, through `limit` links at most. -/
def resolve (tree : FileTree α) : Nat → List α → List (Segment α) → Option (List α)
  | 0 => walk tree fun _ _ => none
  | limit + 1 => walk tree (resolve tree limit)

def folderAt (tree : FileTree α) (limit : Nat) (path : List α) : Option (List α) :=
  resolve tree limit [] (path.map .name)

section Writes

variable [DecidableEq α]

def set (tree : FileTree α) (path : List α) (node : FileNode α) : FileTree α :=
  fun other => if other = path then some node else tree other

def remove (tree : FileTree α) (path : List α) : FileTree α :=
  fun other => if path <+: other then none else tree other

/-- Makes a new entry in the folder at `parent`; where it really is. The name must be free. -/
def create (tree : FileTree α) (limit : Nat) (parent : List α) (name : α) (node : FileNode α) :
    Option (FileTree α × List α) :=
  match tree.folderAt limit parent with
  | none => none
  | some dir => if (tree (dir ++ [name])).isNone then some (tree.set (dir ++ [name]) node, dir ++ [name]) else none

/-- What `mkdir -p` leaves: the tree, the folders it made, and whether it came to the end. -/
structure Made (α : Type) where
  tree : FileTree α
  folders : List (List α)
  complete : Bool

/-- `mkdir -p` of `names` in the folder at `done`. -/
def makeFolders (limit : Nat) (tree : FileTree α) (done : List α) : List α → Made α
  | [] => ⟨tree, [], true⟩
  | name :: rest =>
    match tree.folderAt limit done with
    | none => ⟨tree, [], false⟩
    | some dir =>
      match tree (dir ++ [name]) with
      | none =>
        let later := makeFolders limit (tree.set (dir ++ [name]) .folder) (done ++ [name]) rest
        { later with folders := (dir ++ [name]) :: later.folders }
      | some _ =>
        if (tree.folderAt limit (done ++ [name])).isSome then makeFolders limit tree (done ++ [name]) rest
        else ⟨tree, [], false⟩

end Writes

theorem lexical_append (dir : List α) (front rest : List (Segment α)) :
    lexical dir (front ++ rest) = lexical (lexical dir front) rest := by
  induction front generalizing dir with
  | nil => rfl
  | cons segment front ih => cases segment <;> exact ih _

theorem lexical_names (dir names : List α) : lexical dir (names.map .name) = dir ++ names := by
  induction names generalizing dir with
  | nil => simp [lexical]
  | cons name names ih =>
    rw [map_cons, lexical, ih, append_assoc, singleton_append]

variable {segments : List (Segment α)}

theorem prefix_lexical (noUp : .up ∉ segments) (dir : List α) :
    dir <+: lexical dir segments := by
  induction segments generalizing dir with
  | nil => exact prefix_refl _
  | cons segment rest ih =>
    have later : .up ∉ rest := fun inside => noUp (mem_cons_of_mem _ inside)
    cases segment with
    | here => exact ih later dir
    | up => exact absurd mem_cons_self noUp
    | name name => exact (prefix_append dir [name]).trans (ih later _)

def relative [DecidableEq α] : List α → List α → List (Segment α)
  | a :: from_, b :: to_ =>
    if a = b then relative from_ to_
    else List.replicate (from_.length + 1) .up ++ (b :: to_).map .name
  | from_, to_ => List.replicate from_.length .up ++ to_.map .name

section Climb

variable [DecidableEq α]

/-- The segments up to the last `..`. -/
def climb : List (Segment α) → List (Segment α)
  | [] => []
  | segment :: rest => if .up ∈ segment :: rest then segment :: climb rest else []

/-- The segments after the last `..`. -/
def descent : List (Segment α) → List (Segment α)
  | [] => []
  | segment :: rest => if .up ∈ segment :: rest then descent rest else segment :: rest

theorem climb_append_descent (segments : List (Segment α)) : climb segments ++ descent segments = segments := by
  induction segments with
  | nil => rfl
  | cons segment rest ih =>
    unfold climb descent
    split
    · rw [cons_append, ih]
    · rfl

theorem up_not_mem_descent (segments : List (Segment α)) : .up ∉ descent segments := by
  induction segments with
  | nil => simp [descent]
  | cons segment rest ih =>
    unfold descent
    split
    · exact ih
    · assumption

theorem climb_of_no_up (noUp : .up ∉ segments) : climb segments = [] := by
  cases segments with
  | nil => rfl
  | cons segment rest => rw [climb, if_neg noUp]

end Climb

def IsLink : Option (FileNode α) → Prop
  | some (.link _ _) => True
  | _ => False

instance (node : Option (FileNode α)) : Decidable (IsLink node) :=
  match node with
  | some (.link _ _) => isTrue trivial
  | none | some .folder | some (.file _) | some .other => isFalse id

/-- The places a link's target goes through before its last `..`. -/
def Through [DecidableEq α] (dir : List α) (target : List (Segment α)) (place : List α) : Prop :=
  ∃ front, front <+: climb target ∧ front ≠ [] ∧ lexical dir front = place

/-- Every link below `top` points below it by its text, and climbs through no link; `top` and what is above
it are folders. -/
structure Contained [DecidableEq α] (tree : FileTree α) (top : List α) : Prop where
  trunk : ∀ front, front <+: top → front ≠ [] → tree front = some .folder
  links : ∀ dir name rooted target, top <+: dir → tree (dir ++ [name]) = some (.link rooted target) →
    rooted = false ∧ top <+: lexical dir target ∧ ∀ place, Through dir target place → ¬ IsLink (tree place)

variable {dir place : List α}

theorem walk_of_no_link {tree : FileTree α} {follow : List α → List (Segment α) → Option (List α)}
    {front rest : List (Segment α)}
    (noLink : ∀ first, first <+: front → first ≠ [] → ¬ IsLink (tree (lexical dir first)))
    (found : walk tree follow dir (front ++ rest) = some place) :
    walk tree follow (lexical dir front) rest = some place := by
  induction front generalizing dir with
  | nil => exact found
  | cons segment front ih =>
    have later : ∀ first, first <+: front → first ≠ [] →
        ¬ IsLink (tree (lexical (lexical dir [segment]) first)) := by
      intro first isPre _
      rw [← lexical_append]
      exact noLink (segment :: first) (cons_prefix_cons.mpr ⟨rfl, isPre⟩) (cons_ne_nil _ _)
    cases segment with
    | here => exact ih later found
    | up => exact ih later found
    | name name =>
      have here := noLink [.name name] (cons_prefix_cons.mpr ⟨rfl, nil_prefix⟩) (cons_ne_nil _ _)
      rw [cons_append, walk] at found
      change ¬ IsLink (tree (dir ++ [name])) at here
      cases node : tree (dir ++ [name]) with
      | none => simp [node] at found
      | some node' =>
        cases node' with
        | folder =>
          simp only [node] at found
          exact ih later found
        | file bytes => simp [node] at found
        | other => simp [node] at found
        | link rooted target =>
          rw [node] at here
          exact absurd trivial here

variable {limit : Nat}

theorem resolve_of_no_link {tree : FileTree α} {front rest : List (Segment α)}
    (noLink : ∀ first, first <+: front → first ≠ [] → ¬ IsLink (tree (lexical dir first)))
    (found : resolve tree limit dir (front ++ rest) = some place) :
    resolve tree limit (lexical dir front) rest = some place := by
  cases limit with
  | zero => exact walk_of_no_link noLink found
  | succ limit => exact walk_of_no_link noLink found

variable [DecidableEq α] {tree : FileTree α} {top : List α}

theorem Contained.walk_inside (contained : tree.Contained top)
    {follow : List α → List (Segment α) → Option (List α)}
    (onLink : ∀ dir name target rest place, top <+: dir → tree (dir ++ [name]) = some (.link false target) →
      .up ∉ rest → follow dir (target ++ rest) = some place → top <+: place)
    (noUp : .up ∉ segments)
    (inside : top <+: lexical dir segments) (found : walk tree follow dir segments = some place) :
    top <+: place := by
  induction segments generalizing dir with
  | nil =>
    obtain rfl : dir = place := Option.some.inj found
    exact inside
  | cons segment rest ih =>
    have later : .up ∉ rest := fun member => noUp (mem_cons_of_mem _ member)
    cases segment with
    | here => exact ih later inside found
    | up => exact absurd mem_cons_self noUp
    | name name =>
      have onto : dir ++ [name] <+: lexical (dir ++ [name]) rest := prefix_lexical later _
      rw [walk] at found
      by_cases below : top <+: dir
      · cases node : tree (dir ++ [name]) with
        | none => simp [node] at found
        | some node' =>
          cases node' with
          | folder =>
            simp only [node] at found
            exact ih later inside found
          | file bytes => simp [node] at found
          | other => simp [node] at found
          | link rooted target =>
            simp only [node] at found
            obtain ⟨rfl, -⟩ := contained.links dir name rooted target below node
            exact onLink dir name target rest place below node later found
      · -- Still above `top`: the next name is on the way to it.
        have onWay : dir ++ [name] <+: top := by
          rcases prefix_or_prefix_of_prefix onto inside with way | passed
          · exact way
          · rcases prefix_concat_iff.mp passed with same | short
            · exact same ▸ prefix_refl _
            · exact absurd short below
        have folder := contained.trunk (dir ++ [name]) onWay (by simp)
        simp only [folder] at found
        exact ih later inside found

theorem Contained.resolve_inside (contained : tree.Contained top)
    (noUp : .up ∉ segments) (inside : top <+: lexical dir segments)
    (found : resolve tree limit dir segments = some place) : top <+: place := by
  induction limit generalizing dir segments place with
  | zero => exact contained.walk_inside (by simp) noUp inside found
  | succ limit ih =>
    refine contained.walk_inside ?_ noUp inside found
    intro dir name target rest place below node later followed
    obtain ⟨-, points, noLink⟩ := contained.links dir name false target below node
    rw [← climb_append_descent target, append_assoc] at followed
    have climbed := resolve_of_no_link
      (fun first isPre nonempty => noLink _ ⟨first, isPre, nonempty, rfl⟩) followed
    refine ih ?_ ?_ climbed
    · rw [mem_append]
      rintro (member | member)
      · exact up_not_mem_descent target member
      · exact later member
    · rw [lexical_append, ← lexical_append dir, climb_append_descent]
      exact points.trans (prefix_lexical later _)

theorem Contained.folder_inside (contained : tree.Contained top) {names place : List α}
    (found : tree.folderAt limit (top ++ names) = some place) : top <+: place := by
  refine contained.resolve_inside (by simp) ?_ found
  rw [lexical_names]
  exact prefix_append _ _

omit [DecidableEq α] in
theorem walk_folders (follow : List α → List (Segment α) → Option (List α)) (dir names : List α)
    (folders : ∀ front, front <+: dir ++ names → front ≠ [] → tree front = some .folder) :
    walk tree follow dir (names.map .name) = some (dir ++ names) := by
  induction names generalizing dir with
  | nil => simp [walk]
  | cons name rest ih =>
    have here := folders (dir ++ [name]) ⟨rest, by simp⟩ (by simp)
    have later := ih (dir ++ [name]) (by simpa using folders)
    simpa [walk, here] using later

omit [DecidableEq α] in
theorem folderAt_folders {path : List α}
    (folders : ∀ front, front <+: path → front ≠ [] → tree front = some .folder) :
    tree.folderAt limit path = some path := by
  cases limit with
  | zero => exact walk_folders _ [] path folders
  | succ limit => exact walk_folders _ [] path folders

theorem makeFolders_folders (limit : Nat) (done names rest : List α)
    (folders : ∀ front, front <+: done ++ names → front ≠ [] → tree front = some .folder) :
    FileTree.makeFolders limit tree done (names ++ rest) =
      FileTree.makeFolders limit tree (done ++ names) rest := by
  induction names generalizing done with
  | nil => simp
  | cons name names ih =>
    have here := folders (done ++ [name]) ⟨names, by simp⟩ (by simp)
    have above : tree.folderAt limit done = some done :=
      folderAt_folders fun front isPre => folders front (isPre.trans (prefix_append _ _))
    have reached : tree.folderAt limit (done ++ [name]) = some (done ++ [name]) :=
      folderAt_folders fun front isPre => folders front (isPre.trans ⟨names, by simp⟩)
    have later := ih (done ++ [name]) (by simpa using folders)
    rw [cons_append, FileTree.makeFolders, above]
    simpa [here, reached] using later

theorem Contained.set (contained : tree.Contained top) {path : List α} {node : FileNode α}
    (free : tree path = none) (plain : ¬ IsLink (some node)) : (tree.set path node).Contained top where
  trunk := by
    intro front isPre nonempty
    have here := contained.trunk front isPre nonempty
    have other : front ≠ path := by
      rintro rfl
      rw [free] at here
      cases here
    simp [FileTree.set, other, here]
  links := by
    intro dir name rooted target below found
    have other : dir ++ [name] ≠ path := by
      rintro rfl
      simp only [FileTree.set, if_true, Option.some.injEq] at found
      rw [found] at plain
      exact plain trivial
    simp only [FileTree.set, other, if_false] at found
    obtain ⟨fromHere, points, noLink⟩ := contained.links dir name rooted target below found
    refine ⟨fromHere, points, fun place through => ?_⟩
    by_cases same : place = path
    · simpa [FileTree.set, same] using plain
    · simpa [FileTree.set, same] using noLink place through

/-- A new link that points inside by its text, climbs through no link and is climbed through by none. -/
theorem Contained.set_link (contained : tree.Contained top) {dir : List α} {name : α}
    {target : List (Segment α)} (free : tree (dir ++ [name]) = none) (points : top <+: lexical dir target)
    (own : ∀ place, Through dir target place → ¬ IsLink (tree place) ∧ place ≠ dir ++ [name])
    (others : ∀ other last rooted others, top <+: other → tree (other ++ [last]) = some (.link rooted others) →
      ¬ Through other others (dir ++ [name])) :
    (tree.set (dir ++ [name]) (.link false target)).Contained top where
  trunk := by
    intro front isPre nonempty
    have here := contained.trunk front isPre nonempty
    have other : front ≠ dir ++ [name] := by
      rintro rfl
      rw [free] at here
      cases here
    simp [FileTree.set, other, here]
  links := by
    intro other last rooted points' below found
    by_cases same : other ++ [last] = dir ++ [name]
    · obtain ⟨rfl, sameName⟩ := append_inj' same rfl
      obtain rfl : last = name := by simpa using sameName
      simp only [FileTree.set, if_true, Option.some.injEq, FileNode.link.injEq] at found
      obtain ⟨rfl, rfl⟩ := found
      refine ⟨rfl, points, fun place through => ?_⟩
      obtain ⟨noLink, apart⟩ := own place through
      simpa [FileTree.set, apart] using noLink
    · simp only [FileTree.set, same, if_false] at found
      obtain ⟨fromHere, inside, noLink⟩ := contained.links other last rooted points' below found
      refine ⟨fromHere, inside, fun place through => ?_⟩
      have apart : place ≠ dir ++ [name] := by
        rintro rfl
        exact others other last rooted points' below found through
      simpa [FileTree.set, apart] using noLink place through

theorem Contained.write (contained : tree.Contained top) {path : List α} {old new : List UInt8}
    (there : tree path = some (.file old)) : (tree.set path (.file new)).Contained top where
  trunk := by
    intro front isPre nonempty
    have here := contained.trunk front isPre nonempty
    have other : front ≠ path := by
      rintro rfl
      rw [there] at here
      cases here
    simp [FileTree.set, other, here]
  links := by
    intro dir name rooted target below found
    have other : dir ++ [name] ≠ path := by
      rintro rfl
      simp [FileTree.set] at found
    simp only [FileTree.set, other, if_false] at found
    obtain ⟨fromHere, points, noLink⟩ := contained.links dir name rooted target below found
    refine ⟨fromHere, points, fun place through => ?_⟩
    by_cases same : place = path
    · simp [FileTree.set, same, IsLink]
    · simpa [FileTree.set, same] using noLink place through

theorem contained_empty (trunk : ∀ front, front <+: top → front ≠ [] → tree front = some .folder)
    (empty : ∀ path, top <+: path → path ≠ top → tree path = none) : tree.Contained top where
  trunk := trunk
  links := by
    intro dir name rooted target below found
    have none := empty (dir ++ [name]) (below.trans (prefix_append _ _)) (by
      intro same
      have shorter := below.length_le
      rw [← same, length_append, length_singleton] at shorter
      omega)
    rw [none] at found
    cases found

/-- What `mkdir -p` makes below a contained folder is inside, and the folder stays contained. -/
theorem Contained.makeFolders (contained : tree.Contained top) (limit : Nat) (names below : List α) :
    (makeFolders limit tree (top ++ below) names).tree.Contained top ∧
      ∀ path ∈ (FileTree.makeFolders limit tree (top ++ below) names).folders, top <+: path := by
  induction names generalizing tree below with
  | nil => exact ⟨contained, by simp [FileTree.makeFolders]⟩
  | cons name rest ih =>
    rw [FileTree.makeFolders]
    split
    · exact ⟨contained, by simp⟩
    · case h_2 dir found =>
      have inside := contained.folder_inside found
      split
      · case h_1 free =>
        have next : (tree.set (dir ++ [name]) .folder).Contained top := contained.set free (by simp [IsLink])
        rw [append_assoc]
        obtain ⟨kept, made⟩ := ih next (below ++ [name])
        refine ⟨kept, ?_⟩
        intro path member
        rcases mem_cons.mp member with rfl | later
        · exact inside.trans (prefix_append _ _)
        · exact made path later
      · split
        · rw [append_assoc]
          exact ih contained _
        · exact ⟨contained, by simp⟩

end FileTree

namespace FileTree

variable {α : Type}

def entry (tree : FileTree α) (path : List α) : FileTree α := fun below => tree (path ++ below)

theorem node_of_entry {first second : FileTree α} {path other : List α} (same : first.entry path = second.entry other) :
    first path = second other := by
  have node := congrFun same []
  rwa [entry, entry, append_nil, append_nil] at node

def Apart (first second : List α) : Prop := ¬ first <+: second ∧ ¬ second <+: first

theorem Apart.symm {first second : List α} (apart : Apart first second) : Apart second first := ⟨apart.2, apart.1⟩

theorem Apart.of_names {name other : α} (distinct : name ≠ other) (base first second : List α) :
    Apart (base ++ name :: first) (base ++ other :: second) := by
  constructor
  · rw [prefix_append_right_inj, cons_prefix_cons]
    exact fun same => distinct same.1
  · rw [prefix_append_right_inj, cons_prefix_cons]
    exact fun same => distinct same.1.symm

theorem Apart.below {first second : List α} (apart : Apart first second) (below : List α) :
    ¬ first <+: second ++ below := by
  intro inside
  rcases prefix_or_prefix_of_prefix inside (prefix_append second below) with front | front
  · exact apart.1 front
  · exact apart.2 front

variable [DecidableEq α]

/-- Moves what lies at `src` to `dst`; what was there goes. -/
def moved (tree : FileTree α) (src dst : List α) : FileTree α := fun path =>
  if dst <+: path then tree (src ++ path.drop dst.length) else if src <+: path then none else tree path

def rename (tree : FileTree α) (src dst : List α) : Option (FileTree α) :=
  if (tree src).isSome ∧ tree dst.dropLast = some .folder ∧ ¬ src <+: dst then some (tree.moved src dst) else none

variable {tree : FileTree α} {src dst path : List α}

@[simp] theorem entry_moved_dst (tree : FileTree α) (src dst : List α) :
    (tree.moved src dst).entry dst = tree.entry src := by
  funext below
  rw [entry, moved, if_pos (prefix_append dst below), drop_left, entry]

theorem entry_moved_src (apart : Apart src dst) (below : List α) : (tree.moved src dst).entry src below = none := by
  rw [entry, moved, if_neg (apart.symm.below below), if_pos (prefix_append src below)]

theorem entry_moved_of_apart (fromSrc : Apart path src) (fromDst : Apart path dst) :
    (tree.moved src dst).entry path = tree.entry path := by
  funext below
  rw [entry, moved, if_neg (fromDst.symm.below below), if_neg (fromSrc.symm.below below), entry]

theorem rename_eq_some {after : FileTree α} : tree.rename src dst = some after ↔
    ((tree src).isSome ∧ tree dst.dropLast = some .folder ∧ ¬ src <+: dst) ∧ tree.moved src dst = after := by
  rw [rename, Option.ite_none_right_eq_some, Option.some_inj]

theorem rename_eq_none : tree.rename src dst = none ↔
    ((tree src).isSome → tree dst.dropLast = some .folder → src <+: dst) := by
  rw [rename, ite_eq_right_iff]
  constructor
  · intro refused there folder
    by_contra inside
    exact absurd (refused ⟨there, folder, inside⟩) (Option.some_ne_none _)
  · rintro refused ⟨there, folder, inside⟩
    exact absurd (refused there folder) inside

theorem entry_set_of_apart {node : FileNode α} (apart : ¬ path <+: dst) :
    (tree.set dst node).entry path = tree.entry path := by
  funext below
  have other : path ++ below ≠ dst := fun same => apart (same ▸ prefix_append path below)
  rw [entry, set, if_neg other, entry]

theorem moved_of_not_below (noDst : ¬ dst <+: path) (noSrc : ¬ src <+: path) : tree.moved src dst path = tree path := by
  rw [moved, if_neg noDst, if_neg noSrc]

end FileTree

end EverWorks.Lib
