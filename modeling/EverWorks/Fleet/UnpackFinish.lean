import EverWorks.Fleet.Unpack

/-!
# The end of an unpack

`Unpacker.finish` moves the top entries of a complete stream from the partial folder into the destination. An entry
that is replaced is set aside first and put back when the move fails; what is set aside goes with the partial folder.
-/

namespace EverWorks.Fleet
open Lib FileTree List

inductive FleetFileConflictPolicy where
  | skip | replace
  deriving DecidableEq

structure FleetFilesWritePolicy where
  replaceAll : Option Bool := none
  replace : Option (List Utf16) := none
  deriving DecidableEq

def fleetFilesPolicyFor (policy : Option FleetFilesWritePolicy) (name : Utf16) : FleetFileConflictPolicy :=
  match policy with
  | none => .skip
  | some policy =>
    if policy.replaceAll = some true then .replace
    else if (policy.replace.getD []).contains name then .replace else .skip

structure TopFaults where
  mkdir : Bool := false
  setAside : Bool := false
  moveIn : Bool := false
  restore : Bool := false
  deriving DecidableEq

/-- An unpack at the end of its stream. -/
structure Finish where
  destReal : List Utf16
  operationId : Utf16
  policy : Option FleetFilesWritePolicy
  tops : List Utf16
  /-- A name is pushed once. -/
  tops_nodup : tops.Nodup
  /-- A reserved name fails the unpack. -/
  unreserved : ascii ".replaced" ∉ tops
  faults : Utf16 → TopFaults
  /-- What the removal of the partial folder leaves of it. -/
  leaves : List Utf16 → Bool

structure FinishState where
  tree : FileTree Utf16
  replaced : Nat := 0
  skipped : Nat := 0
  failed : Bool := false

def attempt (fault : Bool) (call : Option (FileTree Utf16)) : Option (FileTree Utf16) := if fault then none else call

theorem attempt_eq_some {fault : Bool} {call : Option (FileTree Utf16)} {after : FileTree Utf16} :
    attempt fault call = some after ↔ fault = false ∧ call = some after := by
  cases fault <;> simp [attempt]

theorem attempt_eq_none {fault : Bool} {call : Option (FileTree Utf16)} :
    attempt fault call = none ↔ fault = true ∨ call = none := by
  cases fault <;> simp [attempt]

namespace Finish

variable (unpack : Finish)

def partialFolder : List Utf16 := unpack.destReal ++ [partialFolderName unpack.operationId]

def aside : List Utf16 := unpack.partialFolder ++ [ascii ".replaced"]

def source (top : Utf16) : List Utf16 := unpack.partialFolder ++ [top]

def target (top : Utf16) : List Utf16 := unpack.destReal ++ [top]

def setAside (top : Utf16) : List Utf16 := unpack.aside ++ [top]

/-- `io.mkdir(this.aside)` -/
def mkdirAside (tree : FileTree Utf16) : Option (FileTree Utf16) :=
  match tree unpack.aside with
  | none => if tree unpack.partialFolder = some .folder then some (tree.set unpack.aside .folder) else none
  | some .folder => some tree
  | some _ => none

/-- One turn of the loop of `finish`; once it threw, nothing more is moved. -/
def moveTop (state : FinishState) (top : Utf16) : FinishState :=
  if state.failed then state
  else if (state.tree (unpack.target top)).isSome then
    if fleetFilesPolicyFor unpack.policy top = .skip then { state with skipped := state.skipped + 1 }
    else
      match attempt (unpack.faults top).mkdir (unpack.mkdirAside state.tree) with
      | none => { state with failed := true }
      | some tree =>
        match attempt (unpack.faults top).setAside (tree.rename (unpack.target top) (unpack.setAside top)) with
        | none => { state with tree, failed := true }
        | some without =>
          match attempt (unpack.faults top).moveIn (without.rename (unpack.source top) (unpack.target top)) with
          | some tree => { state with tree, replaced := state.replaced + 1 }
          | none =>
            -- The failure of putting the old entry back is swallowed.
            let restored := attempt (unpack.faults top).restore
              (without.rename (unpack.setAside top) (unpack.target top))
            { state with tree := restored.getD without, failed := true }
  else
    match attempt (unpack.faults top).moveIn (state.tree.rename (unpack.source top) (unpack.target top)) with
    | some tree => { state with tree }
    | none => { state with failed := true }

def moveTops (tree : FileTree Utf16) : FinishState := run unpack.moveTop { tree } unpack.tops

def removePartial (tree : FileTree Utf16) : FileTree Utf16 := fun path =>
  if unpack.partialFolder <+: path ∧ unpack.leaves path = false then none else tree path

/-- The file system after `finish` returned or threw, and how many entries were replaced and skipped if it returned. -/
def finish (tree : FileTree Utf16) : FileTree Utf16 × Option (Nat × Nat) :=
  let state := unpack.moveTops tree
  (unpack.removePartial state.tree, if state.failed then none else some (state.replaced, state.skipped))

def ownName : Utf16 := partialFolderName unpack.operationId

/-- What `start` made is there. -/
structure Ready (tree : FileTree Utf16) : Prop where
  dest : tree unpack.destReal = some .folder
  partialFolder : tree unpack.partialFolder = some .folder

/-- A name holds its previous entry or the complete new one, and is there if it was there before. -/
def Holds (before after : FileTree Utf16) (name : Utf16) : Prop :=
  (after.entry (unpack.target name) = before.entry (unpack.target name) ∨
    (name ∈ unpack.tops ∧ (before (unpack.source name)).isSome ∧
      after.entry (unpack.target name) = before.entry (unpack.source name))) ∧
  ((before (unpack.target name)).isSome → (after (unpack.target name)).isSome)

def LosesNothing (before after : FileTree Utf16) : Prop := ∀ name, name ≠ unpack.ownName → unpack.Holds before after name

def Replaces (tree : FileTree Utf16) (top : Utf16) : Prop :=
  (tree (unpack.target top)).isSome ∧ fleetFilesPolicyFor unpack.policy top = .replace

def AsideOpen (tree : FileTree Utf16) : Prop := tree unpack.aside = none ∨ tree unpack.aside = some .folder

def SetsAside (tree : FileTree Utf16) (top : Utf16) : Prop :=
  (unpack.faults top).mkdir = false ∧ unpack.AsideOpen tree ∧ (unpack.faults top).setAside = false ∧
    top ≠ unpack.ownName

def MovesIn (tree : FileTree Utf16) (top : Utf16) : Prop :=
  (unpack.faults top).moveIn = false ∧ (tree (unpack.source top)).isSome

def Passes (tree : FileTree Utf16) (top : Utf16) : Prop :=
  if (tree (unpack.target top)).isSome then
    fleetFilesPolicyFor unpack.policy top = .skip ∨ (unpack.SetsAside tree top ∧ unpack.MovesIn tree top)
  else unpack.MovesIn tree top

/-- Where the loop comes to an entry that is set aside and then does not move in, putting the old one back does not
fail. -/
def RestoresHold (tree : FileTree Utf16) : List Utf16 → Prop
  | [] => True
  | top :: rest =>
    (unpack.Replaces tree top → unpack.SetsAside tree top → ¬ unpack.MovesIn tree top →
      (unpack.faults top).restore = false) ∧ (unpack.Passes tree top → RestoresHold tree rest)

variable {unpack} {tree : FileTree Utf16} {top name : Utf16}

theorem source_eq : unpack.source top = unpack.destReal ++ [unpack.ownName, top] := by
  rw [source, partialFolder, append_assoc]
  rfl

theorem setAside_eq : unpack.setAside top = unpack.partialFolder ++ [ascii ".replaced", top] := by
  rw [setAside, aside, append_assoc]
  rfl

theorem setAside_eq' : unpack.setAside top = unpack.destReal ++ [unpack.ownName, ascii ".replaced", top] := by
  rw [setAside_eq, partialFolder, append_assoc]
  rfl

theorem aside_eq : unpack.aside = unpack.destReal ++ [unpack.ownName, ascii ".replaced"] := by
  rw [aside, partialFolder, append_assoc]
  rfl

inductive Place (unpack : Finish) (top : Utf16) : List Utf16 → Prop
  | target : Place unpack top (unpack.target top)
  | source : Place unpack top (unpack.source top)
  | setAside : Place unpack top (unpack.setAside top)

variable {path : List Utf16}

theorem Place.apart_target (place : Place unpack top path) (foreign : name ≠ unpack.ownName)
    (other : name ≠ top) : Apart (unpack.target name) path := by
  cases place with
  | target => exact Apart.of_names other _ _ _
  | source =>
    rw [source_eq]
    exact Apart.of_names foreign _ _ _
  | setAside =>
    rw [setAside_eq']
    exact Apart.of_names foreign _ _ _

theorem Place.apart_source (place : Place unpack top path) (own : top ≠ unpack.ownName)
    (plain : name ≠ ascii ".replaced") (other : name ≠ top) : Apart (unpack.source name) path := by
  cases place with
  | target =>
    rw [source_eq]
    exact Apart.of_names (Ne.symm own) _ _ _
  | source => exact Apart.of_names other _ _ _
  | setAside =>
    rw [setAside_eq]
    exact Apart.of_names plain _ _ _

theorem source_apart_target (own : top ≠ unpack.ownName) : Apart (unpack.source top) (unpack.target top) := by
  rw [source_eq]
  exact Apart.of_names (Ne.symm own) _ _ _

theorem setAside_apart_target (own : top ≠ unpack.ownName) : Apart (unpack.setAside top) (unpack.target top) := by
  rw [setAside_eq']
  exact Apart.of_names (Ne.symm own) _ _ _

theorem source_apart_setAside (plain : top ≠ ascii ".replaced") : Apart (unpack.source top) (unpack.setAside top) := by
  rw [setAside_eq]
  exact Apart.of_names plain _ _ _

theorem Place.not_above (place : Place unpack top path) (own : top ≠ unpack.ownName)
    (plain : top ≠ ascii ".replaced") : ¬ path <+: unpack.destReal ∧ ¬ path <+: unpack.partialFolder ∧
      ¬ path <+: unpack.aside := by
  have longer : unpack.destReal.length < path.length := by
    cases place <;> simp [Finish.target, source_eq, setAside_eq']
  have apart : ¬ path <+: unpack.aside := by
    cases place with
    | target =>
      rw [aside_eq]
      exact (Apart.of_names own _ _ _).1
    | source => exact (Apart.of_names plain _ _ _).1
    | setAside => exact fun above => absurd above.length_le (by simp [Finish.setAside])
  refine ⟨fun above => absurd above.length_le (Nat.not_le.mpr longer), fun above => apart ?_, apart⟩
  exact above.trans (prefix_append _ _)

structure Frame (unpack : Finish) (top : Utf16) (before after : FileTree Utf16) : Prop where
  dest : after unpack.destReal = before unpack.destReal
  partialFolder : after unpack.partialFolder = before unpack.partialFolder
  aside : unpack.AsideOpen after ↔ unpack.AsideOpen before
  targets : ∀ name, name ≠ unpack.ownName → name ≠ top →
    after.entry (unpack.target name) = before.entry (unpack.target name)
  sources : ∀ name, name ≠ ascii ".replaced" → name ≠ top →
    after.entry (unpack.source name) = before.entry (unpack.source name)

theorem Frame.refl (unpack : Finish) (top : Utf16) (tree : FileTree Utf16) : Frame unpack top tree tree :=
  ⟨rfl, rfl, Iff.rfl, fun _ _ _ => rfl, fun _ _ _ => rfl⟩

theorem Frame.trans {before middle after : FileTree Utf16} (first : Frame unpack top before middle)
    (second : Frame unpack top middle after) : Frame unpack top before after where
  dest := second.dest.trans first.dest
  partialFolder := second.partialFolder.trans first.partialFolder
  aside := second.aside.trans first.aside
  targets name foreign other := (second.targets name foreign other).trans (first.targets name foreign other)
  sources name plain other := (second.sources name plain other).trans (first.sources name plain other)

variable {before after : FileTree Utf16}

theorem Frame.ready (frame : Frame unpack top before after)
    (ready : unpack.Ready before) : unpack.Ready after :=
  ⟨frame.dest.trans ready.dest, frame.partialFolder.trans ready.partialFolder⟩

theorem frame_moved {src dst : List Utf16} (fromPlace : Place unpack top src) (toPlace : Place unpack top dst)
    (own : top ≠ unpack.ownName) (plain : top ≠ ascii ".replaced") (tree : FileTree Utf16) :
    Frame unpack top tree (tree.moved src dst) := by
  obtain ⟨srcDest, srcPartial, srcAside⟩ := fromPlace.not_above own plain
  obtain ⟨dstDest, dstPartial, dstAside⟩ := toPlace.not_above own plain
  refine ⟨moved_of_not_below dstDest srcDest, moved_of_not_below dstPartial srcPartial, ?_, ?_, ?_⟩
  · rw [AsideOpen, AsideOpen, moved_of_not_below dstAside srcAside]
  · exact fun name foreign other =>
      entry_moved_of_apart (fromPlace.apart_target foreign other) (toPlace.apart_target foreign other)
  · exact fun name plain other =>
      entry_moved_of_apart (fromPlace.apart_source own plain other) (toPlace.apart_source own plain other)

structure Made (unpack : Finish) (before after : FileTree Utf16) : Prop where
  folder : after unpack.aside = some .folder
  open_ : unpack.AsideOpen before
  dest : after unpack.destReal = before unpack.destReal
  partialFolder : after unpack.partialFolder = before unpack.partialFolder
  targets : ∀ name, name ≠ unpack.ownName → after.entry (unpack.target name) = before.entry (unpack.target name)
  sources : ∀ name, name ≠ ascii ".replaced" → after.entry (unpack.source name) = before.entry (unpack.source name)

theorem made_of_mkdirAside {after : FileTree Utf16} (made : unpack.mkdirAside tree = some after) :
    Made unpack tree after := by
  rw [mkdirAside] at made
  split at made
  · rename_i free
    obtain ⟨-, made⟩ := Option.ite_none_right_eq_some.mp made
    obtain rfl := Option.some.inj made
    have dest : unpack.destReal ≠ unpack.aside := fun same => absurd (congrArg List.length same) (by simp [aside_eq])
    have inner : unpack.partialFolder ≠ unpack.aside := fun same => absurd (congrArg List.length same) (by simp [aside])
    refine ⟨if_pos rfl, Or.inl free, if_neg dest, if_neg inner, ?_, ?_⟩
    · intro name foreign
      refine entry_set_of_apart ?_
      rw [aside_eq]
      exact (Apart.of_names foreign _ _ _).1
    · intro name plain
      exact entry_set_of_apart (Apart.of_names plain _ _ _).1
  · rename_i folder
    obtain rfl := Option.some.inj made
    exact ⟨folder, Or.inr folder, rfl, rfl, fun _ _ => rfl, fun _ _ => rfl⟩
  · cases made

theorem mkdirAside_eq_none (ready : unpack.Ready tree) : unpack.mkdirAside tree = none ↔ ¬ unpack.AsideOpen tree := by
  rw [mkdirAside, AsideOpen, ready.partialFolder]
  split
  · rename_i free
    simp [free]
  · rename_i folder
    simp [folder]
  · rename_i node other there
    rw [there]
    simpa using other

theorem Made.frame {after : FileTree Utf16} (made : Made unpack tree after) (top : Utf16) : Frame unpack top tree after :=
  ⟨made.dest, made.partialFolder, iff_of_true (Or.inr made.folder) made.open_, fun name foreign _ => made.targets name foreign,
    fun name plain _ => made.sources name plain⟩

theorem Frame.target_node (frame : Frame unpack top before after) (other : name ≠ top) :
    after (unpack.target name) = before (unpack.target name) := by
  by_cases own : name = unpack.ownName
  · rw [own]
    exact frame.partialFolder
  · exact node_of_entry (frame.targets name own other)

/-- What the turn of an entry does: it stays within its places, goes on where the entry passes, and keeps what the name
holds unless an old entry is set aside and neither of two moves succeeds. -/
structure Turn (unpack : Finish) (tree : FileTree Utf16) (top : Utf16) (after : FinishState) : Prop where
  frame : Frame unpack top tree after.tree
  goesOn : after.failed = false ↔ unpack.Passes tree top
  holds : top ≠ unpack.ownName → (unpack.Holds tree after.tree top ↔
    (unpack.Replaces tree top → unpack.SetsAside tree top → ¬ unpack.MovesIn tree top →
      (unpack.faults top).restore = false))

theorem holds_of_entry
    (same : after.entry (unpack.target name) = before.entry (unpack.target name)) : unpack.Holds before after name :=
  ⟨Or.inl same, fun there => node_of_entry same ▸ there⟩

variable (state : FinishState)

theorem turn_new (running : state.failed = false) (ready : unpack.Ready state.tree)
    (plain : top ≠ ascii ".replaced") (member : top ∈ unpack.tops)
    (free : (state.tree (unpack.target top)).isSome = false) : Turn unpack state.tree top (unpack.moveTop state top) := by
  have own : top ≠ unpack.ownName := by
    rintro rfl
    rw [show unpack.target unpack.ownName = unpack.partialFolder from rfl, ready.partialFolder] at free
    cases free
  have passes : unpack.Passes state.tree top ↔ unpack.MovesIn state.tree top := by rw [Passes, free]; rfl
  have vacuous : ¬ unpack.Replaces state.tree top := fun replaces => by
    rw [Replaces, free] at replaces
    exact absurd replaces.1 (by simp)
  rw [moveTop, running, free, if_neg Bool.false_ne_true, if_neg Bool.false_ne_true]
  split
  · rename_i tree moved
    obtain ⟨faultless, moved⟩ := attempt_eq_some.mp moved
    obtain ⟨⟨there, -, -⟩, rfl⟩ := rename_eq_some.mp moved
    refine ⟨frame_moved .source .target own plain _, iff_of_true rfl (passes.mpr ⟨faultless, there⟩), fun _ => ?_⟩
    refine iff_of_true ⟨Or.inr ⟨member, there, entry_moved_dst _ _ _⟩, fun existed => ?_⟩ fun replaces => absurd replaces vacuous
    rw [free] at existed
    cases existed
  · rename_i refused
    refine ⟨Frame.refl _ _ _, iff_of_false (by simp) fun goes => ?_, fun _ =>
      iff_of_true (holds_of_entry rfl) fun replaces => absurd replaces vacuous⟩
    obtain ⟨faultless, there⟩ := passes.mp goes
    rcases attempt_eq_none.mp refused with fault | refused
    · rw [faultless] at fault
      cases fault
    · have inside := rename_eq_none.mp refused there (by
        rw [target, dropLast_concat]
        exact ready.dest)
      rw [source_eq, target] at inside
      exact absurd inside.length_le (by simp)

theorem rename_target_eq_none {src : List Utf16} (dest : tree unpack.destReal = some .folder)
    (outside : ¬ src <+: unpack.target top) (refused : tree.rename src (unpack.target top) = none) :
    (tree src).isSome = false := by
  rw [← Bool.not_eq_true]
  intro there
  refine outside (rename_eq_none.mp refused there ?_)
  rw [target, dropLast_concat]
  exact dest

theorem turn_setAside (ready : unpack.Ready state.tree) (plain : top ≠ ascii ".replaced")
    (member : top ∈ unpack.tops) (replaces : unpack.Replaces state.tree top) (sets : unpack.SetsAside state.tree top)
    {opened : FileTree Utf16} (made : Made unpack state.tree opened) :
    Turn unpack state.tree top
      (match attempt (unpack.faults top).moveIn
          ((opened.moved (unpack.target top) (unpack.setAside top)).rename (unpack.source top) (unpack.target top)) with
        | some tree => { state with tree, replaced := state.replaced + 1, failed := false }
        | none => { state with
          tree := (attempt (unpack.faults top).restore
            ((opened.moved (unpack.target top) (unpack.setAside top)).rename (unpack.setAside top)
              (unpack.target top))).getD (opened.moved (unpack.target top) (unpack.setAside top))
          failed := true }) := by
  have own := sets.2.2.2
  have passes : unpack.Passes state.tree top ↔ unpack.MovesIn state.tree top := by
    rw [Passes, if_pos replaces.1, replaces.2]
    exact ⟨fun either => either.elim nofun And.right, fun moves => Or.inr ⟨sets, moves⟩⟩
  have frame := (made.frame top).trans (frame_moved .target .setAside own plain opened)
  set without := opened.moved (unpack.target top) (unpack.setAside top) with set
  have fresh : without.entry (unpack.source top) = state.tree.entry (unpack.source top) :=
    (entry_moved_of_apart (source_apart_target own) (source_apart_setAside plain)).trans (made.sources top plain)
  have kept : without.entry (unpack.setAside top) = state.tree.entry (unpack.target top) :=
    (entry_moved_dst _ _ _).trans (made.targets top own)
  have dest : without unpack.destReal = some .folder := frame.dest.trans ready.dest
  split
  · rename_i tree moved
    obtain ⟨faultless, moved⟩ := attempt_eq_some.mp moved
    obtain ⟨⟨there, -, -⟩, rfl⟩ := rename_eq_some.mp moved
    have there : (state.tree (unpack.source top)).isSome := node_of_entry fresh ▸ there
    have placed := (entry_moved_dst without (unpack.source top) (unpack.target top)).trans fresh
    refine ⟨frame.trans (frame_moved .source .target own plain _), iff_of_true rfl (passes.mpr ⟨faultless, there⟩),
      fun _ => iff_of_true ⟨Or.inr ⟨member, there, placed⟩, fun _ => ?_⟩ fun _ _ stuck => absurd ⟨faultless, there⟩ stuck⟩
    exact (congrArg Option.isSome (node_of_entry placed)).trans there
  · rename_i refused
    have stuck : ¬ unpack.MovesIn state.tree top := by
      rintro ⟨faultless, there⟩
      rcases attempt_eq_none.mp refused with fault | refused
      · rw [faultless] at fault
        cases fault
      · have gone := rename_target_eq_none dest (source_apart_target own).1 refused
        rw [node_of_entry fresh, there] at gone
        cases gone
    rcases restored : attempt (unpack.faults top).restore (without.rename (unpack.setAside top) (unpack.target top))
      with _ | tree
    · refine ⟨frame, iff_of_false (by simp) fun goes => stuck (passes.mp goes), fun _ => ?_⟩
      have lost : without (unpack.target top) = none := by
        have gone : (opened.moved (unpack.target top) (unpack.setAside top)).entry (unpack.target top) [] = none :=
          entry_moved_src (setAside_apart_target own).symm []
        rwa [entry, append_nil] at gone
      refine iff_of_false (fun holds => ?_) fun restores => ?_
      · have there : (without (unpack.target top)).isSome := holds.2 replaces.1
        rw [lost] at there
        cases there
      · rcases attempt_eq_none.mp restored with fault | refused
        · rw [restores replaces sets stuck] at fault
          cases fault
        · have gone := rename_target_eq_none dest (setAside_apart_target own).1 refused
          rw [node_of_entry kept, replaces.1] at gone
          cases gone
    · obtain ⟨faultless, moved⟩ := attempt_eq_some.mp restored
      obtain ⟨-, rfl⟩ := rename_eq_some.mp moved
      refine ⟨frame.trans (frame_moved .setAside .target own plain _),
        iff_of_false (by simp) fun goes => stuck (passes.mp goes), fun _ => ?_⟩
      exact iff_of_true (holds_of_entry ((entry_moved_dst _ _ _).trans kept)) fun _ _ _ => faultless

theorem turn_existing (running : state.failed = false) (ready : unpack.Ready state.tree)
    (plain : top ≠ ascii ".replaced") (member : top ∈ unpack.tops)
    (there : (state.tree (unpack.target top)).isSome) : Turn unpack state.tree top (unpack.moveTop state top) := by
  have passes : unpack.Passes state.tree top ↔ (fleetFilesPolicyFor unpack.policy top = .skip ∨
      (unpack.SetsAside state.tree top ∧ unpack.MovesIn state.tree top)) := by rw [Passes, if_pos there]
  rw [moveTop, running, if_neg Bool.false_ne_true, if_pos there]
  split
  · rename_i skips
    have vacuous : ¬ unpack.Replaces state.tree top := fun replaces => by
      rw [Replaces, skips] at replaces
      cases replaces.2
    exact ⟨Frame.refl _ _ _, iff_of_true rfl (passes.mpr (Or.inl skips)), fun _ =>
      iff_of_true (holds_of_entry rfl) fun replaces => absurd replaces vacuous⟩
  · rename_i replaces
    -- An entry that does not get out of the way stays as it is.
    have stays {after : FinishState} (frame : Frame unpack top state.tree after.tree) (failed : after.failed = true)
        (same : top ≠ unpack.ownName → after.tree.entry (unpack.target top) = state.tree.entry (unpack.target top))
        (blocked : ¬ unpack.SetsAside state.tree top) : Turn unpack state.tree top after :=
      ⟨frame, iff_of_false (by rw [failed]; simp) fun goes => (passes.mp goes).elim replaces fun both => blocked both.1,
        fun own => iff_of_true (holds_of_entry (same own)) fun _ sets => absurd sets blocked⟩
    split
    · rename_i refused
      refine stays (Frame.refl _ _ _) rfl (fun _ => rfl) fun sets => ?_
      rcases attempt_eq_none.mp refused with fault | closed
      · rw [sets.1] at fault
        cases fault
      · exact (mkdirAside_eq_none ready).mp closed sets.2.1
    · rename_i opened made
      obtain ⟨mkdir, made⟩ := attempt_eq_some.mp made
      have made := made_of_mkdirAside made
      split
      · rename_i refused
        refine stays (made.frame top) rfl (made.targets top) fun sets => ?_
        rcases attempt_eq_none.mp refused with fault | refused
        · rw [sets.2.2.1] at fault
          cases fault
        · have inside := rename_eq_none.mp refused ((node_of_entry (made.targets top sets.2.2.2)).symm ▸ there) (by
            rw [setAside, dropLast_concat]
            exact made.folder)
          rw [target, setAside_eq'] at inside
          have same := (cons_prefix_cons.mp ((prefix_append_right_inj _).mp inside)).1
          exact absurd same sets.2.2.2
      · rename_i without set
        obtain ⟨free, set⟩ := attempt_eq_some.mp set
        obtain ⟨⟨-, -, outside⟩, rfl⟩ := rename_eq_some.mp set
        have own : top ≠ unpack.ownName := by
          rintro rfl
          exact outside (by rw [setAside_eq]; exact prefix_append _ _)
        have replace : unpack.Replaces state.tree top := by
          refine ⟨there, ?_⟩
          cases policy : fleetFilesPolicyFor unpack.policy top with
          | skip => exact absurd policy replaces
          | replace => rfl
        exact turn_setAside state ready plain member replace ⟨mkdir, made.open_, free, own⟩ made

theorem moveTop_turn (running : state.failed = false) (ready : unpack.Ready state.tree)
    (plain : top ≠ ascii ".replaced") (member : top ∈ unpack.tops) :
    Turn unpack state.tree top (unpack.moveTop state top) := by
  cases there : (state.tree (unpack.target top)).isSome with
  | false => exact turn_new state running ready plain member there
  | true => exact turn_existing state running ready plain member there

theorem run_moveTop_failed (failed : state.failed = true) (tops : List Utf16) :
    run unpack.moveTop state tops = state := by
  induction tops with
  | nil => rfl
  | cons top tops ih => rw [run_cons, moveTop, if_pos failed, ih]

theorem holds_congr_before {before before' after : FileTree Utf16}
    (target : before'.entry (unpack.target name) = before.entry (unpack.target name))
    (source : name ∈ unpack.tops → before'.entry (unpack.source name) = before.entry (unpack.source name)) :
    unpack.Holds before after name ↔ unpack.Holds before' after name := by
  rw [Holds, Holds, target, node_of_entry target]
  refine and_congr_left' (or_congr_right (and_congr_right fun member => ?_))
  rw [source member, node_of_entry (source member)]

theorem holds_congr_after {before after after' : FileTree Utf16}
    (target : after'.entry (unpack.target name) = after.entry (unpack.target name)) :
    unpack.Holds before after name ↔ unpack.Holds before after' name := by
  rw [Holds, Holds, target, node_of_entry target]

theorem restoresHold_congr (frame : Frame unpack top before after) (tops : List Utf16)
    (others : top ∉ tops) (plain : ascii ".replaced" ∉ tops) :
    unpack.RestoresHold before tops ↔ unpack.RestoresHold after tops := by
  induction tops with
  | nil => exact Iff.rfl
  | cons name rest ih =>
    have other : name ≠ top := fun same => others (same ▸ mem_cons_self)
    have usual : name ≠ ascii ".replaced" := fun same => plain (same ▸ mem_cons_self)
    have target := frame.target_node other
    have source := node_of_entry (frame.sources name usual other)
    have rest := ih (fun member => others (mem_cons_of_mem _ member)) fun member =>
      plain (mem_cons_of_mem _ member)
    rw [RestoresHold, RestoresHold, rest, Passes, Passes, Replaces, Replaces, SetsAside, SetsAside, MovesIn, MovesIn,
      target, source, frame.aside]

theorem run_moveTop (tops : List Utf16) (nodup : tops.Nodup) (plain : ascii ".replaced" ∉ tops)
    (member : ∀ top ∈ tops, top ∈ unpack.tops) (state : FinishState) (running : state.failed = false)
    (ready : unpack.Ready state.tree) :
    (unpack.LosesNothing state.tree (run unpack.moveTop state tops).tree ↔ unpack.RestoresHold state.tree tops) ∧
      ∀ name, name ≠ unpack.ownName → name ∉ tops →
        (run unpack.moveTop state tops).tree.entry (unpack.target name) = state.tree.entry (unpack.target name) := by
  induction tops generalizing state with
  | nil => exact ⟨iff_of_true (fun _ _ => holds_of_entry rfl) trivial, fun _ _ _ => rfl⟩
  | cons top rest ih =>
    obtain ⟨fresh, nodup⟩ := nodup_cons.mp nodup
    have usual : top ≠ ascii ".replaced" := fun same => plain (same ▸ mem_cons_self)
    have plain : ascii ".replaced" ∉ rest := fun member => plain (mem_cons_of_mem _ member)
    have turn := moveTop_turn state running ready usual (member top mem_cons_self)
    rw [run_cons, RestoresHold]
    generalize unpack.moveTop state top = next at turn
    have elsewhere (name : Utf16) (foreign : name ≠ unpack.ownName) (other : name ≠ top) :
        unpack.Holds state.tree next.tree name := holds_of_entry (turn.frame.targets name foreign other)
    cases failed : next.failed with
    | true =>
      have stops : ¬ unpack.Passes state.tree top := fun goes => by
        rw [← turn.goesOn, failed] at goes
        cases goes
      rw [run_moveTop_failed next failed]
      refine ⟨?_, fun name foreign absent =>
        turn.frame.targets name foreign fun same => absent (same ▸ mem_cons_self)⟩
      rw [and_iff_left fun goes => absurd goes stops]
      constructor
      · intro kept replaces sets
        exact (turn.holds sets.2.2.2).mp (kept top sets.2.2.2) replaces sets
      · intro restores name foreign
        by_cases same : name = top
        · subst same
          exact (turn.holds foreign).mpr restores
        · exact elsewhere name foreign same
    | false =>
      have goes := turn.goesOn.mp failed
      obtain ⟨losesNothing, untouched⟩ := ih nodup plain (fun top mem => member top (mem_cons_of_mem _ mem)) next
        failed (turn.frame.ready ready)
      refine ⟨?_, fun name foreign absent => ?_⟩
      · rw [restoresHold_congr turn.frame rest fresh plain, ← losesNothing, imp_iff_right goes]
        have after (name : Utf16) (foreign : name ≠ unpack.ownName) (other : name ≠ top) :
            unpack.Holds state.tree (run unpack.moveTop next rest).tree name ↔
              unpack.Holds next.tree (run unpack.moveTop next rest).tree name :=
          holds_congr_before (turn.frame.targets name foreign other) fun mem =>
            turn.frame.sources name (fun same => unpack.unreserved (same ▸ mem)) other
        constructor
        · refine fun kept => ⟨fun replaces sets => ?_, fun name foreign => ?_⟩
          · have own := sets.2.2.2
            exact (turn.holds own).mp ((holds_congr_after (untouched top own fresh)).mpr (kept top own)) replaces sets
          · by_cases same : name = top
            · subst same
              exact holds_of_entry (untouched name foreign fresh)
            · exact (after name foreign same).mp (kept name foreign)
        · rintro ⟨restores, kept⟩ name foreign
          by_cases same : name = top
          · subst same
            exact (holds_congr_after (untouched name foreign fresh)).mp ((turn.holds foreign).mpr restores)
          · exact (after name foreign same).mpr (kept name foreign)
      · obtain ⟨other, absent⟩ := not_or.mp (mt mem_cons.mpr absent)
        exact (untouched name foreign absent).trans (turn.frame.targets name foreign other)

theorem entry_removePartial (tree : FileTree Utf16) (foreign : name ≠ unpack.ownName) :
    (unpack.removePartial tree).entry (unpack.target name) = tree.entry (unpack.target name) := by
  have apart : Apart unpack.partialFolder (unpack.target name) := Apart.of_names (Ne.symm foreign) _ _ _
  funext below
  rw [entry, removePartial, if_neg fun inside => apart.below below inside.1, entry]

/-- Every name of the destination keeps its previous entry or gets the complete new one, and none is lost, exactly if
wherever an old entry was set aside and the new one did not move in, the old one was put back. -/
theorem finish_losesNothing_iff (unpack : Finish) (tree : FileTree Utf16) (ready : unpack.Ready tree) :
    unpack.LosesNothing tree (unpack.finish tree).1 ↔ unpack.RestoresHold tree unpack.tops := by
  rw [← (run_moveTop unpack.tops unpack.tops_nodup unpack.unreserved (fun _ mem => mem) { tree } rfl ready).1]
  exact forall_congr' fun name => imp_congr_right fun foreign =>
    (holds_congr_after (entry_removePartial _ foreign)).symm

def stuckReplacement (restoreFails : Bool) : Finish where
  destReal := [ascii "work"]
  operationId := ascii "1"
  policy := some { replace := some [ascii "notes"] }
  tops := [ascii "notes"]
  tops_nodup := by decide
  unreserved := by decide
  faults := fun _ => { moveIn := true, restore := restoreFails }
  leaves := fun _ => false

def stuckTree : FileTree Utf16 := fun path =>
  let unpack := stuckReplacement true
  if path = unpack.destReal ∨ path = unpack.partialFolder then some .folder
  else if path = unpack.target (ascii "notes") then some (.file [1])
  else if path = unpack.source (ascii "notes") then some (.file [2]) else none

theorem stuckTree_ready (restoreFails : Bool) : (stuckReplacement restoreFails).Ready stuckTree :=
  ⟨by cases restoreFails <;> decide, by cases restoreFails <;> decide⟩

/-- An entry that is put back is not lost. -/
theorem putBack_losesNothing :
    (stuckReplacement false).LosesNothing stuckTree ((stuckReplacement false).finish stuckTree).1 :=
  (finish_losesNothing_iff _ _ (stuckTree_ready false)).mpr ⟨fun _ _ _ => rfl, fun _ => trivial⟩

/-- When the rename that puts the old entry back fails too, the old entry goes with the partial folder. -/
theorem failed_putBack_loses :
    (stuckReplacement true).Ready stuckTree ∧ stuckTree [ascii "work", ascii "notes"] = some (.file [1]) ∧
      ((stuckReplacement true).finish stuckTree).1 [ascii "work", ascii "notes"] = none ∧
      ¬ (stuckReplacement true).LosesNothing stuckTree ((stuckReplacement true).finish stuckTree).1 := by
  have existed : stuckTree [ascii "work", ascii "notes"] = some (.file [1]) := by decide
  have gone : ((stuckReplacement true).finish stuckTree).1 [ascii "work", ascii "notes"] = none := by decide
  refine ⟨stuckTree_ready true, existed, gone, fun kept => ?_⟩
  have there := (kept (ascii "notes") (by decide)).2 (by rw [Option.isSome_iff_exists]; exact ⟨_, existed⟩)
  rw [show (stuckReplacement true).target (ascii "notes") = [ascii "work", ascii "notes"] from rfl, gone] at there
  cases there

end Finish

end EverWorks.Fleet
