import EverWorks.Fleet.FilesStream
import EverWorks.Lib.Run

/-!
What `Unpacker` does to the file system, record by record, on a machine whose path lookup follows links.
Every entry lands in the operation's partial folder, by a check on the text of its path.
-/

namespace EverWorks.Fleet

open Lib FileTree

def toSegment (text : Utf16) : Segment Utf16 :=
  if text = [] ∨ text = ascii "." then .here else if text = ascii ".." then .up else .name text

def segmentsOf (text : Utf16) : List (Segment Utf16) := (splitPath text).map toSegment

/-- `isInsideRoot` of two absolute paths: the way from the root does not start upwards. -/
def isInsideRoot (candidate root : List Utf16) : Bool :=
  match relative root candidate with
  | .up :: _ => false
  | _ => true

def isIdUnit (unit : UInt16) : Bool :=
  (0x41 ≤ unit && unit ≤ 0x5A) || (0x61 ≤ unit && unit ≤ 0x7A) || (0x30 ≤ unit && unit ≤ 0x39) ||
    unit = 0x5F || unit = 0x2D

def partialFolderName (operationId : Utf16) : Utf16 :=
  let kept := (operationId.filter isIdUnit).take 64
  ascii ".ever-works-partial-" ++ if kept = [] then ascii "op" else kept

/-- Why an unpack failed; no hint stands for what the system said. -/
structure UnpackFailure where
  code : FleetLinkErrorCode
  hint : Option Utf16
  deriving DecidableEq

structure Unpacker where
  tree : FileTree Utf16
  partialFolder : List Utf16
  tracker : FleetFilesStreamTracker
  /-- Where the open file really is. -/
  writer : Option (List Utf16)
  skippedLinks : Nat
  failure : Option UnpackFailure
  /-- Every folder made and every file made or written, where it really is. -/
  touched : List (List Utf16)

namespace Unpacker

def fail (unpacker : Unpacker) (code : FleetLinkErrorCode) (hint : Option Utf16) : Unpacker :=
  { unpacker with failure := some ⟨code, hint⟩ }

/-- `mkdir -p` of an absolute path. -/
def mkdir (limit : Nat) (unpacker : Unpacker) (path : List Utf16) : Unpacker :=
  let made := makeFolders limit unpacker.tree [] path
  { unpacker with
    tree := made.tree
    touched := unpacker.touched ++ made.folders
    failure := if made.complete then unpacker.failure else some ⟨.operationFailed, none⟩ }

/-- `start`: a stale partial folder goes, a new one comes. -/
def start (limit : Nat) (tree : FileTree Utf16) (destReal : List Utf16) (operationId : Utf16) : Unpacker :=
  let partialFolder := destReal ++ [partialFolderName operationId]
  mkdir limit ⟨tree.remove partialFolder, partialFolder, .new, none, 0, none, []⟩ partialFolder

/-- `api.join(this.partial, ...segments)` -/
def pathOf (unpacker : Unpacker) (header : FleetFilesStreamHeader) : List Utf16 :=
  lexical unpacker.partialFolder (segmentsOf header.path)

/-- `writer.write(bytes)` of the open file. -/
def write (unpacker : Unpacker) (bytes : List UInt8) : Unpacker :=
  match unpacker.writer with
  | none => unpacker.fail .invalid (ascii "bytes outside a file")
  | some real =>
    match unpacker.tree real with
    | some (.file written) =>
      { unpacker with
        tree := unpacker.tree.set real (.file (written ++ bytes))
        touched := unpacker.touched ++ [real] }
    | _ => unpacker.fail .operationFailed none

def makeFile (limit : Nat) (unpacker : Unpacker) (path : List Utf16) (size : Nat) : Unpacker :=
  match unpacker.tree.create limit path.dropLast (path.getLast?.getD []) (.file []) with
  | none => unpacker.fail .operationFailed none
  | some (tree, real) =>
    { unpacker with
      tree
      writer := if size = 0 then none else some real
      touched := unpacker.touched ++ [real] }

def makeLink (limit : Nat) (unpacker : Unpacker) (path : List Utf16) (target : Utf16) : Unpacker :=
  let resolved := lexical path.dropLast (segmentsOf target)
  if !isInsideRoot resolved unpacker.partialFolder then
    { unpacker with skippedLinks := unpacker.skippedLinks + 1 }
  else
    match unpacker.tree.create limit path.dropLast (path.getLast?.getD [])
      (.link (target.head? = some slash) (segmentsOf target)) with
    | none => { unpacker with skippedLinks := unpacker.skippedLinks + 1 }
    | some (tree, _) => { unpacker with tree }

def makeParent (limit : Nat) (unpacker : Unpacker) (header : FleetFilesStreamHeader) : Unpacker :=
  if 1 < (splitPath header.path).length then unpacker.mkdir limit (unpacker.pathOf header).dropLast
  else unpacker

def applyHeader (limit : Nat) (unpacker : Unpacker) (header : FleetFilesStreamHeader) : Unpacker :=
  let unpacker := { unpacker with writer := none }
  let path := unpacker.pathOf header
  if !isInsideRoot path unpacker.partialFolder || path = unpacker.partialFolder then
    unpacker.fail .invalid (ascii "That path leaves its root")
  else if (splitPath header.path).head? = some (ascii ".replaced") then
    unpacker.fail .invalid (ascii "a reserved name")
  else
    let unpacker := unpacker.makeParent limit header
    if unpacker.failure.isSome then unpacker
    else
      match header.kind with
      | .folder => unpacker.mkdir limit path
      | .file => unpacker.makeFile limit path header.size
      | .link => unpacker.makeLink limit path (header.target.getD [])

/-- `/items|GiB/.test(problem)` -/
def namesLimit (problem : Utf16) : Bool := ascii "items" <:+: problem || ascii "GiB" <:+: problem

/-- One turn of the loop of `apply`; once failed, nothing more is done. -/
def applyRecord (limit : Nat) (unpacker : Unpacker) (record : FleetFilesRecord) : Unpacker :=
  if unpacker.failure.isSome then unpacker
  else
    match unpacker.tracker.push record with
    | .error problem =>
      unpacker.fail (if namesLimit problem then .limitExceeded else .invalid) problem
    | .ok tracker =>
      match record with
      | .bytes bytes => { unpacker with tracker }.write bytes
      | .header header => { unpacker with tracker }.applyHeader limit header

end Unpacker

end EverWorks.Fleet
