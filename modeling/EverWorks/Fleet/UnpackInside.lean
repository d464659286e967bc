import EverWorks.Fleet.Unpack

/-!
The check on a link's target is on its text. It says where the link really leads as long as no `..` of a
link climbs out of another link.
-/

namespace EverWorks.Fleet
open List

open Lib FileTree

theorem isInsideRoot_iff {candidate root : List Utf16} :
    isInsideRoot candidate root = true ↔ root <+: candidate := by
  unfold isInsideRoot
  induction root generalizing candidate with
  | nil => cases candidate <;> simp [relative]
  | cons first root ih =>
    cases candidate with
    | nil => simp [relative, replicate_succ]
    | cons other rest =>
      by_cases same : first = other
      · subst same
        simp only [relative, if_true, ih, cons_prefix_cons, true_and]
      · simp [relative, replicate_succ, cons_prefix_cons, same]

theorem segmentsOf_names {path : Utf16} (names : ∀ name ∈ splitPath path, isFleetFileName name = true) :
    segmentsOf path = (splitPath path).map .name := by
  refine map_congr_left fun name inside => ?_
  obtain ⟨nonempty, notDot, notDots, _⟩ := isFleetFileName_parts (names name inside)
  simp [toSegment, nonempty, notDot, notDots]

theorem splitPath_ne_nil (path : Utf16) : splitPath path ≠ [] := splitOn_ne_nil slash path

namespace Unpacker

/-- When a link is made: if its target climbs, its own folder is reached through no link and the climb goes
through no link, not the new one either; and no link that is there climbs through the new one. -/
structure LinkClear (limit : Nat) (tree : FileTree Utf16) (top path : List Utf16)
    (target : List (Segment Utf16)) : Prop where
  folder : .up ∈ target → tree.folderAt limit path.dropLast = some path.dropLast
  climb : ∀ place, Through path.dropLast target place → ¬ IsLink (tree place) ∧ place ≠ path
  others : ∀ real, tree.folderAt limit path.dropLast = some real →
    ∀ other last rooted points, top <+: other → tree (other ++ [last]) = some (.link rooted points) →
      ¬ Through other points (real ++ [path.getLast?.getD []])

/-- No `..` of a link leads out of a link. -/
def ClimbsNoLink (limit : Nat) (unpacker : Unpacker) : FleetFilesRecord → Prop
  | .header header => unpacker.failure = none → header.kind = .link →
    LinkClear limit (unpacker.makeParent limit header).tree unpacker.partialFolder (unpacker.pathOf header)
      (segmentsOf (header.target.getD []))
  | .bytes _ => True

structure Sound (unpacker : Unpacker) : Prop where
  contained : unpacker.tree.Contained unpacker.partialFolder
  inside : ∀ path ∈ unpacker.touched, unpacker.partialFolder <+: path
  writer : ∀ real, unpacker.writer = some real → unpacker.partialFolder <+: real

variable {limit : Nat} {unpacker : Unpacker}

theorem Sound.fail (sound : unpacker.Sound) (code : FleetLinkErrorCode) (hint : Option Utf16) :
    (unpacker.fail code hint).Sound := ⟨sound.contained, sound.inside, sound.writer⟩

theorem Sound.mkdir (sound : unpacker.Sound) (names : List Utf16) :
    (unpacker.mkdir limit (unpacker.partialFolder ++ names)).Sound := by
  have folders : ∀ front, front <+: [] ++ unpacker.partialFolder → front ≠ [] →
      unpacker.tree front = some .folder := sound.contained.trunk
  have there := makeFolders_folders limit [] unpacker.partialFolder names folders
  have made := sound.contained.makeFolders limit names []
  rw [append_nil] at made
  rw [nil_append] at there
  constructor
  case contained =>
    show (FileTree.makeFolders _ _ _ _).tree.Contained _
    rw [there]
    exact made.1
  case inside =>
    intro path inside
    rcases mem_append.mp inside with before | new
    · exact sound.inside path before
    · rw [there] at new
      exact made.2 path new
  case writer => exact sound.writer

theorem Sound.write (sound : unpacker.Sound) (bytes : List UInt8) : (unpacker.write bytes).Sound := by
  unfold Unpacker.write
  split
  case h_1 => exact sound.fail _ _
  case h_2 real opened =>
    split
    case h_1 written there =>
      refine ⟨sound.contained.write there, ?_, sound.writer⟩
      intro path inside
      rcases mem_append.mp inside with before | new
      · exact sound.inside path before
      · obtain rfl := mem_singleton.mp new
        exact sound.writer path opened
    case h_2 => exact sound.fail _ _

theorem create_some {tree : FileTree Utf16} {parent : List Utf16} {name : Utf16} {node : FileNode Utf16}
    {made : FileTree Utf16 × List Utf16} (created : tree.create limit parent name node = some made) :
    ∃ dir, tree.folderAt limit parent = some dir ∧ tree (dir ++ [name]) = none ∧
      made = (tree.set (dir ++ [name]) node, dir ++ [name]) := by
  unfold create at created
  split at created
  case h_1 => cases created
  case h_2 dir found =>
    split_ifs at created with free
    exact ⟨dir, found, Option.isNone_iff_eq_none.mp free, (Option.some.inj created).symm⟩

theorem Sound.makeFile (sound : unpacker.Sound) (below : List Utf16) (name : Utf16) (size : Nat) :
    (unpacker.makeFile limit (unpacker.partialFolder ++ (below ++ [name])) size).Sound := by
  unfold Unpacker.makeFile
  rw [← append_assoc, dropLast_concat]
  split
  case h_1 => exact sound.fail _ _
  case h_2 tree real created =>
    obtain ⟨dir, found, free, same⟩ := create_some created
    obtain ⟨rfl, rfl⟩ := Prod.mk.inj same
    have inside : unpacker.partialFolder <+: dir := sound.contained.folder_inside found
    refine ⟨sound.contained.set free (by simp [IsLink]), ?_, ?_⟩
    · intro path member
      rcases mem_append.mp member with before | new
      · exact sound.inside path before
      · obtain rfl := mem_singleton.mp new
        exact inside.trans (prefix_append _ _)
    · intro real opened
      simp only [] at opened
      split_ifs at opened
      obtain rfl := Option.some.inj opened
      exact inside.trans (prefix_append _ _)

theorem Sound.makeLink (sound : unpacker.Sound) (below : List Utf16) (name target : Utf16)
    (relative : target.head? ≠ some slash)
    (clear : LinkClear limit unpacker.tree unpacker.partialFolder
      (unpacker.partialFolder ++ (below ++ [name])) (segmentsOf target)) :
    (unpacker.makeLink limit (unpacker.partialFolder ++ (below ++ [name])) target).Sound := by
  obtain ⟨folder, climbs, others⟩ := clear
  unfold Unpacker.makeLink
  rw [← append_assoc] at folder climbs others ⊢
  rw [dropLast_concat] at folder climbs others ⊢
  rw [getLast?_concat, Option.getD_some] at others ⊢
  simp only [relative, decide_false]
  split
  case isTrue => exact ⟨sound.contained, sound.inside, sound.writer⟩
  case isFalse points =>
    have points : unpacker.partialFolder <+: lexical (unpacker.partialFolder ++ below) (segmentsOf target) :=
      isInsideRoot_iff.mp (by simpa using points)
    split
    case h_1 => exact ⟨sound.contained, sound.inside, sound.writer⟩
    case h_2 tree real created =>
      obtain ⟨dir, found, free, same⟩ := create_some created
      obtain ⟨rfl, -⟩ := Prod.mk.inj same
      refine ⟨?_, sound.inside, sound.writer⟩
      by_cases up : .up ∈ segmentsOf target
      · -- The text of the link's own folder is where it really is.
        obtain rfl := Option.some.inj ((folder up).symm.trans found)
        exact sound.contained.set_link free points climbs (others _ found)
      · have noClimb : ∀ place, ¬ Through dir (segmentsOf target) place := by
          rintro place ⟨front, isPre, nonempty, -⟩
          rw [climb_of_no_up up, prefix_nil] at isPre
          exact nonempty isPre
        exact sound.contained.set_link free
          ((sound.contained.folder_inside found).trans (prefix_lexical up dir))
          (fun place through => absurd through (noClimb place)) (others _ found)

variable {header : FleetFilesStreamHeader}

theorem pathOf_names (accepted : header.Accepted) :
    unpacker.pathOf header = unpacker.partialFolder ++ splitPath header.path := by
  rw [pathOf, segmentsOf_names accepted.names, lexical_names]

theorem Sound.makeParent (sound : unpacker.Sound)
    (accepted : header.Accepted) : (unpacker.makeParent limit header).Sound := by
  unfold Unpacker.makeParent
  split
  · rw [pathOf_names accepted, dropLast_append_of_ne_nil (splitPath_ne_nil _)]
    exact sound.mkdir _
  · exact sound

theorem makeParent_folder (limit : Nat) (unpacker : Unpacker) (header : FleetFilesStreamHeader) :
    (unpacker.makeParent limit header).partialFolder = unpacker.partialFolder := by
  unfold Unpacker.makeParent
  split <;> rfl

theorem Sound.applyHeader (sound : unpacker.Sound)
    (accepted : header.Accepted) (running : unpacker.failure = none)
    (clear : ClimbsNoLink limit unpacker (.header header)) : (unpacker.applyHeader limit header).Sound := by
  have closed : Sound { unpacker with writer := none } :=
    ⟨sound.contained, sound.inside, fun real opened => by cases opened⟩
  unfold Unpacker.applyHeader
  simp only []
  split
  · exact closed.fail _ _
  · split
    · exact closed.fail _ _
    · have parent : (Unpacker.makeParent limit { unpacker with writer := none } header).Sound :=
        closed.makeParent accepted
      have folder : (Unpacker.makeParent limit { unpacker with writer := none } header).partialFolder =
          unpacker.partialFolder := makeParent_folder limit _ header
      have tree : (Unpacker.makeParent limit { unpacker with writer := none } header).tree =
          (unpacker.makeParent limit header).tree := by
        unfold Unpacker.makeParent
        split <;> rfl
      have path : Unpacker.pathOf { unpacker with writer := none } header =
          (Unpacker.makeParent limit { unpacker with writer := none } header).partialFolder ++
            ((splitPath header.path).dropLast ++ [(splitPath header.path).getLast (splitPath_ne_nil _)]) := by
        rw [folder, dropLast_append_getLast]
        exact pathOf_names accepted
      split
      · exact parent
      · rw [path]
        split
        case h_1 => exact parent.mkdir _
        case h_2 => exact parent.makeFile _ _ _
        case h_3 link =>
          have here := clear running link
          refine parent.makeLink _ _ _ ?_ ?_
          · cases target : header.target with
            | none => simp
            | some target' => exact accepted.target target' target
          · rw [← path, folder, tree]
            exact here

theorem Sound.applyRecord (sound : unpacker.Sound) {record : FleetFilesRecord}
    (accepted : ∀ header, record = .header header → header.Accepted)
    (clear : ClimbsNoLink limit unpacker record) : (unpacker.applyRecord limit record).Sound := by
  unfold Unpacker.applyRecord
  split
  case isTrue => exact sound
  case isFalse running =>
    have running : unpacker.failure = none := by simpa using running
    split
    case h_1 => exact sound.fail _ _
    case h_2 tracker _ =>
      have same : Sound { unpacker with tracker } := ⟨sound.contained, sound.inside, sound.writer⟩
      cases record with
      | bytes bytes => exact same.write bytes
      | header header =>
        have here : ClimbsNoLink limit { unpacker with tracker } (.header header) := by
          intro running link
          have tree : (Unpacker.makeParent limit { unpacker with tracker } header).tree =
              (unpacker.makeParent limit header).tree := by
            unfold Unpacker.makeParent
            split <;> rfl
          rw [tree]
          exact clear running link
        exact same.applyHeader (accepted header rfl) running here

theorem start_sound {tree : FileTree Utf16} {destReal : List Utf16} (operationId : Utf16)
    (canonical : ∀ front, front <+: destReal → front ≠ [] → tree front = some .folder) :
    (start limit tree destReal operationId).Sound := by
  set top := destReal ++ [partialFolderName operationId] with eq
  have longer : destReal.length < top.length := by
    rw [eq, length_append, length_singleton]
    omega
  have folders : ∀ front, front <+: [] ++ destReal → front ≠ [] → tree.remove top front = some .folder := by
    intro front isPre nonempty
    have kept : ¬ top <+: front := by
      intro below
      have := below.length_le
      have := isPre.length_le
      simp only [nil_append] at this
      omega
    simp only [FileTree.remove, kept, if_false]
    exact canonical front isPre nonempty
  have above : (tree.remove top).folderAt limit destReal = some destReal := folderAt_folders folders
  have free : tree.remove top top = none := by simp [FileTree.remove]
  have made : FileTree.makeFolders limit (tree.remove top) [] top =
      ⟨(tree.remove top).set top .folder, [top], true⟩ := by
    have through := makeFolders_folders limit [] destReal [partialFolderName operationId] folders
    rw [nil_append, ← eq] at through
    rw [through, FileTree.makeFolders, above]
    simp only [← eq, free]
    rfl
  have contained : ((tree.remove top).set top .folder).Contained top := by
    refine contained_empty ?_ ?_
    · intro front isPre nonempty
      by_cases same : front = top
      · simp [FileTree.set, same]
      · have onWay : front <+: destReal := by
          rcases prefix_concat_iff.mp isPre with all | short
          · exact absurd all same
          · exact short
        simpa [FileTree.set, same] using folders front onWay nonempty
    · intro path below other
      simp [FileTree.set, FileTree.remove, other, below]
  constructor
  case contained =>
    show (FileTree.makeFolders limit (tree.remove top) [] top).tree.Contained top
    rw [made]
    exact contained
  case inside =>
    intro path inside
    have inside : path ∈ [] ++ (FileTree.makeFolders limit (tree.remove top) [] top).folders := inside
    rw [made] at inside
    obtain rfl := mem_singleton.mp inside
    exact prefix_refl _
  case writer => exact fun real opened => by cases opened

end Unpacker

open Unpacker

/-- As long as no `..` of a link climbs out of a link, whatever the stream says and whatever is on the disk,
every folder made and every file made or written is really inside the partial folder. -/
theorem unpack_stays_inside (limit : Nat) (parse : List UInt8 → Option JsonValue) {tree : FileTree Utf16}
    {destReal : List Utf16} (operationId : Utf16)
    (canonical : ∀ front, front <+: destReal → front ≠ [] → tree front = some .folder)
    {payloads : List (List UInt8)} {batches : List (List FleetFilesRecord)}
    (accepted : payloads.mapM (decodeFleetFilesRecords parse) = some batches)
    (clear : Along (applyRecord limit) (ClimbsNoLink limit) (start limit tree destReal operationId)
      batches.flatten) :
    let unpacker := run (applyRecord limit) (start limit tree destReal operationId) batches.flatten
    ∀ path ∈ unpacker.touched, isInsideRoot path unpacker.partialFolder = true := by
  intro unpacker path inside
  have keeps : ∀ (unpacker : Unpacker) (record : FleetFilesRecord), unpacker.Sound →
      ClimbsNoLink limit unpacker record ∧ (∀ header, record = .header header → header.Accepted) →
      (unpacker.applyRecord limit record).Sound :=
    fun unpacker record sound now => sound.applyRecord now.2 now.1
  have along := along_and clear (along_of_forall (stream_accepted accepted) _)
  have sound := run_along keeps (start_sound operationId canonical) along
  exact isInsideRoot_iff.mpr (sound.inside path inside)

/-- A disk with one folder, `/d`. -/
def oneFolder : FileTree Utf16 := fun path => if path = [ascii "d"] then some .folder else none

/-- One header: a link `l` to `a/..`. -/
def backHeader : String × JsonValue :=
  ("\x7b\"path\":\"l\",\"kind\":\"link\",\"size\":0,\"target\":\"a/..\"\x7d",
    .object [(ascii "path", .string (ascii "l")), (ascii "kind", .string (ascii "link")),
      (ascii "size", .number 0), (ascii "target", .string (ascii "a/.."))])

def textBytes (text : String) : List UInt8 := text.toList.map fun c => UInt8.ofNat c.toNat

/-- `JSON.parse` of that header. -/
def parseBack (body : List UInt8) : Option JsonValue :=
  if body = textBytes backHeader.1 then some backHeader.2 else none

theorem unpack_stays_inside_back :
    let unpacker := run (applyRecord 40) (start 40 oneFolder [ascii "d"] (ascii "op"))
      [[.header ⟨ascii "l", .link, 0, 0o644, 0, some (ascii "a/..")⟩]].flatten
    ∀ path ∈ unpacker.touched, isInsideRoot path unpacker.partialFolder = true := by
  have noLink : ∀ path, ¬ IsLink ((start 40 oneFolder [ascii "d"] (ascii "op")).tree path) := by
    intro path
    have tree : (start 40 oneFolder [ascii "d"] (ascii "op")).tree path =
        if path = [ascii "d", ascii ".ever-works-partial-op"] then some .folder
        else if [ascii "d", ascii ".ever-works-partial-op"] <+: path then none
        else if path = [ascii "d"] then some .folder else none := rfl
    rw [tree]
    split_ifs <;> exact id
  have accepted : [writeRecord headerTag (textBytes backHeader.1)].mapM (decodeFleetFilesRecords parseBack) =
      some [[.header ⟨ascii "l", .link, 0, 0o644, 0, some (ascii "a/..")⟩]] := by
    decide
  refine unpack_stays_inside 40 parseBack (ascii "op") ?_ accepted ?_
  · intro front isPre nonempty
    rcases prefix_cons_iff.mp isPre with rfl | ⟨rest, rfl, nothing⟩
    · exact absurd rfl nonempty
    · obtain rfl := prefix_nil.mp nothing
      rfl
  · refine ⟨fun _ _ => ⟨fun _ => by decide, ?_, ?_⟩, trivial⟩
    · rintro place ⟨front, isPre, nonempty, rfl⟩
      have apart : ∀ front ∈ (climb (segmentsOf (ascii "a/.."))).inits,
          lexical [ascii "d", ascii ".ever-works-partial-op"] front ≠
            [ascii "d", ascii ".ever-works-partial-op", ascii "l"] := by
        decide
      exact ⟨noLink _, apart front ((mem_inits _ _).mpr isPre)⟩
    · intro real _ other last rooted points _ found
      exact absurd (found ▸ trivial) (noLink (other ++ [last]))

def climbingHeaders : List (String × JsonValue) :=
  [("\x7b\"path\":\"s\",\"kind\":\"link\",\"size\":0,\"target\":\".\"\x7d",
      .object [(ascii "path", .string (ascii "s")), (ascii "kind", .string (ascii "link")),
        (ascii "size", .number 0), (ascii "target", .string (ascii "."))]),
    ("\x7b\"path\":\"s/y\",\"kind\":\"link\",\"size\":0,\"target\":\"..\"\x7d",
      .object [(ascii "path", .string (ascii "s/y")), (ascii "kind", .string (ascii "link")),
        (ascii "size", .number 0), (ascii "target", .string (ascii ".."))]),
    ("\x7b\"path\":\"y/evil\",\"kind\":\"file\",\"size\":0\x7d",
      .object [(ascii "path", .string (ascii "y/evil")), (ascii "kind", .string (ascii "file")),
        (ascii "size", .number 0)])]

/-- `JSON.parse` of these headers. -/
def parseClimbing (body : List UInt8) : Option JsonValue :=
  (climbingHeaders.find? fun entry => textBytes entry.1 = body).map (·.2)

/-- `s` leads to its own folder, so `s/y` really is `y`, and `y` leads to the destination: `y/evil` is made
there. -/
theorem link_climbs_out :
    ∃ batches, (climbingHeaders.map fun entry => writeRecord headerTag (textBytes entry.1)).mapM
        (decodeFleetFilesRecords parseClimbing) = some batches ∧
      let unpacker := run (applyRecord 40) (start 40 oneFolder [ascii "d"] (ascii "op")) batches.flatten
      ∃ path ∈ unpacker.touched, isInsideRoot path unpacker.partialFolder = false := by
  decide

end EverWorks.Fleet
