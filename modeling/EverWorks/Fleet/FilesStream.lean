import EverWorks.Fleet.LinkCodec
import EverWorks.Lib.FileTree

/-!
Header and byte records as one machine writes and another reads them: what names, paths and link targets
the reader lets through, and the tracker that holds a stream to its announced sizes.
-/

namespace EverWorks.Fleet
open Option

open Lib Lib.Bytes Lib.Json

/-- `FLEET_FILES_LIMITS.maxOpBytes` -/
def filesMaxOpBytes : Nat := 2 * 1024 * 1024 * 1024

/-- `FLEET_FILES_LIMITS.maxEntries` -/
def filesMaxEntries : Nat := 5000

/-- `FLEET_FILES_MAX_BYTES_RECORD` -/
def filesMaxBytesRecord : Nat := 64 * 1024 - 5

/-- `FLEET_FILES_PATH_MAX_LENGTH` -/
def filesPathMaxLength : Nat := 4096

/-- `FLEET_FILES_NAME_MAX_LENGTH` -/
def filesNameMaxLength : Nat := 255

/-- `MAX_HEADER_JSON_BYTES` -/
def maxHeaderJsonBytes : Nat := 16 * 1024

def slash : UInt16 := 0x2F

def backslash : UInt16 := 0x5C

/-- `!/[\\/\u0000-\u001f]/.test(value)`, with the length and the two dot names. -/
def isFleetFileName (value : Utf16) : Bool :=
  value ≠ [] && value.length ≤ filesNameMaxLength && value ≠ ascii "." && value ≠ ascii ".." &&
    value.all fun unit => unit ≠ backslash && unit ≠ slash && 0x1F < unit

/-- `/^[A-Za-z]:/` -/
def startsWithDrive : Utf16 → Bool
  | letter :: colon :: _ =>
    ((0x41 ≤ letter && letter ≤ 0x5A) || (0x61 ≤ letter && letter ≤ 0x7A)) && colon = 0x3A
  | _ => false

def splitPath (text : Utf16) : List Utf16 := text.splitOn slash

def joinPath (segments : List Utf16) : Utf16 := [slash].intercalate segments

/-- `none` is `undefined`. -/
def normalizeFleetFileRelativePath : Option JsonValue → Option Utf16
  | none | some .null => some []
  | some (.string value) =>
    if value = [] then some []
    else if filesPathMaxLength < value.length then none
    else if value.contains backslash || value.contains 0 then none
    else if startsWithDrive value then none
    else if value.head? = some slash && value ≠ [slash] then none
    else
      let kept := (splitPath value).filter fun segment => segment ≠ [] && segment ≠ ascii "."
      if kept.all isFleetFileName then some (joinPath kept) else none
  | _ => none

inductive FilesEntryKind where
  | file | folder | link
  deriving DecidableEq

def FilesEntryKind.name : FilesEntryKind → String
  | .file => "file"
  | .folder => "folder"
  | .link => "link"

structure FleetFilesStreamHeader where
  path : Utf16
  kind : FilesEntryKind
  size : Nat
  mode : Nat
  mtimeMs : ℚ
  target : Option Utf16
  deriving DecidableEq

def readKind : Option JsonValue → Option FilesEntryKind
  | some (.string text) => [FilesEntryKind.file, .folder, .link].find? fun kind => text = ascii kind.name
  | _ => none

def readSize : Option JsonValue → Option Nat
  | some (.number (.finite value)) =>
    if isSafeInteger (.finite value) && 0 ≤ value then some value.num.toNat else none
  | _ => none

/-- `raw.mode & 0o777` of an integer. -/
def readMode : Option JsonValue → Nat
  | some (.number n) => if n.isInteger then n.toUint 9 else 0o644
  | _ => 0o644

def readMtime : Option JsonValue → ℚ
  | some (.number (.finite value)) => if 0 < value then value else 0
  | _ => 0

def readTarget : Option JsonValue → Option Utf16
  | some (.string target) =>
    if target = [] || filesPathMaxLength < target.length then none
    else if target.contains 0 || target.contains backslash || target.head? = some slash then none
    else if startsWithDrive target then none
    else some target
  | _ => none

def sanitizeFleetFilesStreamHeader : JsonValue → Option FleetFilesStreamHeader
  | .object raw =>
    match readKind (field raw "kind"), normalizeFleetFileRelativePath (field raw "path"),
      readSize (field raw "size") with
    | some kind, some path, some size =>
      let header (target : Option Utf16) : FleetFilesStreamHeader :=
        ⟨path, kind, size, readMode (field raw "mode"), readMtime (field raw "mtimeMs"), target⟩
      if path = [] then none
      else if kind ≠ .file ∧ size ≠ 0 then none
      else if kind = .link then (readTarget (field raw "target")).map fun target => header (some target)
      else some (header none)
    | _, _, _ => none
  | _ => none

inductive FleetFilesRecord where
  | header (header : FleetFilesStreamHeader)
  | bytes (bytes : List UInt8)
  deriving DecidableEq

/-- `FLEET_FILES_RECORD_TAGS` -/
def headerTag : UInt8 := 0x48

def bytesTag : UInt8 := 0x42

/-- One record of a payload. `parse` decodes UTF-8 and parses JSON. -/
def readRecord (parse : List UInt8 → Option JsonValue) (tag : UInt8) (body : List UInt8) :
    Option FleetFilesRecord :=
  if tag = bytesTag then if body = [] then none else some (.bytes body)
  else if tag = headerTag then
    if maxHeaderJsonBytes < body.length then none
    else ((parse body).bind sanitizeFleetFilesStreamHeader).map .header
  else none

def decodeFrom (parse : List UInt8 → Option JsonValue) : Nat → List UInt8 → Option (List FleetFilesRecord)
  | _, [] => some []
  | turns + 1, tag :: a :: b :: c :: d :: rest =>
    let length := ((a.toNat * 256 + b.toNat) * 256 + c.toNat) * 256 + d.toNat
    if rest.length < length then none
    else
      match readRecord parse tag (rest.take length), decodeFrom parse turns (rest.drop length) with
      | some record, some later => some (record :: later)
      | _, _ => none
  | _, _ => none

def decodeFleetFilesRecords (parse : List UInt8 → Option JsonValue) (payload : List UInt8) :
    Option (List FleetFilesRecord) :=
  decodeFrom parse payload.length payload

def writeRecord (tag : UInt8) (body : List UInt8) : List UInt8 := tag :: putUint32 body.length ++ body

structure FleetFilesStreamTracker where
  entries : Nat
  bytes : Nat
  remaining : Nat
  current : Option FleetFilesStreamHeader
  deriving DecidableEq

namespace FleetFilesStreamTracker

def new : FleetFilesStreamTracker := ⟨0, 0, 0, none⟩

def push (tracker : FleetFilesStreamTracker) : FleetFilesRecord → Except Utf16 FleetFilesStreamTracker
  | .header header =>
    if tracker.remaining ≠ 0 then
      .error ((tracker.current.elim (ascii "a file") (·.path)) ++ ascii " ended early")
    else if filesMaxEntries < tracker.entries + 1 then
      .error (ascii s!"more than {filesMaxEntries} items")
    else
      .ok { tracker with
        entries := tracker.entries + 1
        current := some header
        remaining := if header.kind = .file then header.size else 0 }
  | .bytes bytes =>
    match tracker.current with
    | none => .error (ascii "bytes outside a file")
    | some current =>
      if current.kind ≠ .file then .error (ascii "bytes outside a file")
      else if tracker.remaining < bytes.length then .error (current.path ++ ascii " is longer than announced")
      else if filesMaxOpBytes < tracker.bytes + bytes.length then .error (ascii "more than 2 GiB")
      else
        .ok { tracker with
          remaining := tracker.remaining - bytes.length
          bytes := tracker.bytes + bytes.length }

def complete (tracker : FleetFilesStreamTracker) : Bool := tracker.remaining = 0

end FleetFilesStreamTracker

theorem isFleetFileName_parts {name : Utf16} (ok : isFleetFileName name = true) :
    name ≠ [] ∧ name ≠ ascii "." ∧ name ≠ ascii ".." ∧ slash ∉ name := by
  simp only [isFleetFileName, Bool.and_eq_true, decide_eq_true_eq, List.all_eq_true] at ok
  obtain ⟨⟨⟨⟨nonempty, _⟩, notDot⟩, notDots⟩, units⟩ := ok
  exact ⟨nonempty, notDot, notDots, fun inside => (units slash inside).1.2 rfl⟩

theorem splitPath_joinPath {segments : List Utf16} (names : ∀ name ∈ segments, isFleetFileName name = true)
    (nonempty : segments ≠ []) : splitPath (joinPath segments) = segments :=
  List.splitOn_intercalate slash (fun name inside => (isFleetFileName_parts (names name inside)).2.2.2) nonempty

theorem normalized_names {value : Option JsonValue} {path : Utf16}
    (ok : normalizeFleetFileRelativePath value = some path) (nonempty : path ≠ []) :
    ∀ name ∈ splitPath path, isFleetFileName name = true := by
  obtain ⟨kept, names, rfl⟩ : ∃ kept, (∀ name ∈ kept, isFleetFileName name = true) ∧ path = joinPath kept := by
    unfold normalizeFleetFileRelativePath at ok
    split at ok
    case h_3 text =>
      simp only [] at ok
      split_ifs at ok with empty _ _ _ _ names
      · exact absurd (some.inj ok).symm nonempty
      · exact ⟨_, List.all_eq_true.mp names, (some.inj ok).symm⟩
    case h_4 => cases ok
    all_goals exact absurd (some.inj ok).symm nonempty
  have some : kept ≠ [] := by
    rintro rfl
    exact nonempty rfl
  rw [splitPath_joinPath names some]
  exact names

/-- What the reader lets through: a path of names, no size but a file's, a target only of a link, and never
from the root. -/
structure FleetFilesStreamHeader.Accepted (header : FleetFilesStreamHeader) : Prop where
  nonempty : header.path ≠ []
  names : ∀ name ∈ splitPath header.path, isFleetFileName name = true
  size : header.kind ≠ .file → header.size = 0
  target : ∀ target, header.target = some target → target.head? ≠ some slash

theorem readTarget_relative {value : Option JsonValue} {target : Utf16} (ok : readTarget value = some target) :
    target.head? ≠ some slash := by
  unfold readTarget at ok
  split at ok
  case h_1 text =>
    split_ifs at ok with _ marks _
    obtain rfl := some.inj ok
    simp only [Bool.or_eq_true, decide_eq_true_eq, not_or] at marks
    exact marks.2
  case h_2 => cases ok

theorem sanitize_accepted {value : JsonValue} {header : FleetFilesStreamHeader}
    (ok : sanitizeFleetFilesStreamHeader value = some header) : header.Accepted := by
  unfold sanitizeFleetFilesStreamHeader at ok
  split at ok
  case h_2 => cases ok
  split at ok
  case h_2 => cases ok
  case h_1 raw _ kind path size _ normal _ =>
    simp only [] at ok
    split_ifs at ok with empty sized link
    · obtain ⟨target, read, same⟩ := map_eq_some_iff.mp ok
      subst same
      exact ⟨empty, normalized_names normal empty, fun other => by simpa [other] using sized,
        fun found same => some.inj same ▸ readTarget_relative read⟩
    · obtain rfl := some.inj ok
      exact ⟨empty, normalized_names normal empty, fun other => by simpa [other] using sized,
        fun found same => by cases same⟩

variable {parse : List UInt8 → Option JsonValue}

theorem readRecord_accepted {tag : UInt8} {body : List UInt8}
    {header : FleetFilesStreamHeader} (ok : readRecord parse tag body = some (.header header)) :
    header.Accepted := by
  unfold readRecord at ok
  split_ifs at ok
  · cases ok
  · obtain ⟨read, found, same⟩ := map_eq_some_iff.mp ok
    obtain ⟨value, _, found⟩ := bind_eq_some_iff.mp found
    cases same
    exact sanitize_accepted found

theorem decodeFrom_accepted {turns : Nat} {payload : List UInt8}
    {records : List FleetFilesRecord} (ok : decodeFrom parse turns payload = some records) :
    ∀ header, .header header ∈ records → header.Accepted := by
  induction turns generalizing payload records with
  | zero =>
    cases payload with
    | nil =>
      cases ok
      simp
    | cons => simp [decodeFrom] at ok
  | succ turns ih =>
    unfold decodeFrom at ok
    split at ok
    case h_1 =>
      cases ok
      simp
    case h_2 rest same =>
      obtain rfl := Nat.succ.inj same
      simp only [] at ok
      split_ifs at ok
      split at ok
      case h_1 record later read further =>
        obtain rfl := some.inj ok
        intro header inside
        rcases List.mem_cons.mp inside with rfl | inside
        · exact readRecord_accepted read
        · exact ih further header inside
      case h_2 => cases ok
    case h_3 => cases ok

theorem stream_accepted {payloads : List (List UInt8)}
    {batches : List (List FleetFilesRecord)}
    (ok : payloads.mapM (decodeFleetFilesRecords parse) = some batches) :
    ∀ record ∈ batches.flatten, ∀ header, record = .header header → header.Accepted := by
  induction payloads generalizing batches with
  | nil =>
    obtain rfl := some.inj ok
    simp
  | cons payload rest ih =>
    rw [List.mapM_cons] at ok
    obtain ⟨first, decoded, ok⟩ := bind_eq_some_iff.mp ok
    obtain ⟨later, others, ok⟩ := bind_eq_some_iff.mp ok
    obtain rfl := some.inj ok
    intro record inside header same
    subst same
    rcases List.mem_append.mp (List.flatten_cons ▸ inside) with here | there
    · exact decodeFrom_accepted decoded header here
    · exact ih others _ there header rfl

end EverWorks.Fleet
