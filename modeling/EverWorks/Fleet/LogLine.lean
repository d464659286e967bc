import EverWorks.Fleet.LinkTypes

/-!
What a reader hands over, how one line is written before it leaves the machine, and how the tails of
several sources become one batch.
-/

namespace EverWorks.Fleet

open Lib

inductive FleetLogLevel where
  | error | warning | info
  deriving DecidableEq

structure RawLogLine where
  ts : Option Utf16
  level : FleetLogLevel
  text : Utf16
  deriving DecidableEq

structure FleetLogLine where
  ts : Option Utf16
  level : FleetLogLevel
  text : Utf16
  src : Nat
  redactions : Nat
  earlier : Bool
  deriving DecidableEq

/-- `FLEET_LOGS_FOLLOW_BYTES_PER_SEC` -/
def fleetLogsFollowBytesPerSec : Nat := 1024 * 1024

/-- `FLEET_LOGS_PENDING_MAX_BYTES` -/
def fleetLogsPendingMaxBytes : Nat := 1024 * 1024

/-- `FLEET_LOGS_MAX_FRAME_BYTES` -/
def fleetLogsMaxFrameBytes : Nat := 64 * 1024

/-- `FLEET_LOGS_MAX_LINE_CHARS` -/
def fleetLogsMaxLineChars : Nat := 16 * 1024

/-- `FLEET_LOGS_INITIAL_LINES` -/
def fleetLogsInitialLines : Nat := 500

/-- What `clampFleetLogsLines` answers. -/
abbrev LineCount := { n : Nat // 1 ≤ n ∧ n ≤ fleetLogsInitialLines }

structure Redacted where
  cleaned : Utf16
  redactions : Nat
  deriving DecidableEq

structure MergedLine where
  src : Nat
  line : RawLogLine
  order : Nat
  deriving DecidableEq

/-- The secret scan, and the engine's sort by a comparison. -/
structure LogDeps where
  redactSecrets : Utf16 → Redacted
  sort : (MergedLine → MergedLine → Int) → List MergedLine → List MergedLine

def FleetLogLevel.text : FleetLogLevel → String
  | .error => "error"
  | .warning => "warning"
  | .info => "info"

/-- `JSON.stringify` of a line. -/
def FleetLogLine.stringify (line : FleetLogLine) : Utf16 :=
  ascii "\x7b\"ts\":" ++ (line.ts.elim (ascii "null") Json.quote) ++
    ascii ",\"level\":" ++ Json.quote (ascii line.level.text) ++
    ascii ",\"text\":" ++ Json.quote line.text ++
    ascii ",\"src\":" ++ ascii (toString line.src) ++
    ascii ",\"redactions\":" ++ ascii (toString line.redactions) ++
    (if line.earlier then ascii ",\"earlier\":true" else []) ++ ascii "\x7d"

/-- The character `…`. -/
def ellipsis : Utf16 := [0x2026]

/-- `capFleetLogText` -/
def capFleetLogText (text : Utf16) : Utf16 :=
  if fleetLogsMaxLineChars < text.length then text.take (fleetLogsMaxLineChars - 1) ++ ellipsis else text

structure EncodedLine (τ : Type) where
  text : τ
  bytes : Nat
  redactions : Nat
  deriving DecidableEq

def encodeLogLine (deps : LogDeps) (line : RawLogLine) (src : Nat) (earlier : Bool) : EncodedLine Utf16 :=
  let scan := deps.redactSecrets line.text
  let wire : FleetLogLine :=
    ⟨line.ts, line.level, capFleetLogText scan.cleaned, src, scan.redactions, earlier⟩
  let text := wire.stringify ++ ascii "\n"
  if fleetLogsMaxFrameBytes - 64 < Utf16.byteLength text then
    -- Escapes can grow a line past one frame.
    let shorter := { wire with text := scan.cleaned.take 4096 ++ ellipsis }.stringify ++ ascii "\n"
    ⟨shorter, Utf16.byteLength shorter, scan.redactions⟩
  else ⟨text, Utf16.byteLength text, scan.redactions⟩

@[simp] theorem encodeLogLine_bytes (deps : LogDeps) (line : RawLogLine) (src : Nat) (earlier : Bool) :
    (encodeLogLine deps line src earlier).bytes =
      Utf16.byteLength (encodeLogLine deps line src earlier).text := by
  simp only [encodeLogLine]
  split <;> rfl

inductive FleetLogsNoticeKind where
  | dropped | gone | stopped | groupMembership | error | killSwitch
  deriving DecidableEq

structure LogError where
  code : FleetLinkErrorCode
  hint : Utf16
  deriving DecidableEq

inductive LogMessage where
  | notice (kind : FleetLogsNoticeKind) (hint : Option Utf16) (src : Nat)
  | initialDone (count redactions bytes : Nat) (scanLimited following : Bool) (error : Option LogError)
  | earlierDone (count : Nat) (hasMore : Bool) (src : Nat) (unsupported : Bool)
  deriving DecidableEq

structure LogBatch where
  lines : List RawLogLine
  scanLimited : Bool
  notice : Option (FleetLogsNoticeKind × Option Utf16)
  deriving DecidableEq

structure Gathered where
  notices : List LogMessage
  merged : List MergedLine
  succeeded : List Nat
  scanLimited : Bool
  firstError : Option LogError
  deriving DecidableEq

def shownHint (hint : Option Utf16) : Option Utf16 := hint.filter (· ≠ [])

/-- One turn of the loop of `batch`; `merging` says that the channel has several readers. -/
def Gathered.take (merging : Bool) (gathered : Gathered) (src : Nat) : Except LogError LogBatch → Gathered
  | .error error =>
    { gathered with
      firstError := gathered.firstError.or (some error)
      notices := gathered.notices ++ if merging then [.notice .error (some error.hint) src] else [] }
  | .ok batch =>
    { gathered with
      notices := gathered.notices ++
        (batch.notice.map fun (kind, hint) => LogMessage.notice kind (shownHint hint) src).toList
      merged := gathered.merged ++ batch.lines.mapIdx fun i line => ⟨src, line, gathered.merged.length + i⟩
      succeeded := gathered.succeeded ++ [src]
      scanLimited := gathered.scanLimited || batch.scanLimited }

def gather (results : List (Except LogError LogBatch)) : Gathered :=
  results.zipIdx.foldl (fun gathered (result, src) => gathered.take (1 < results.length) src result)
    ⟨[], [], [], false, none⟩

def compareLines (a b : MergedLine) : Int :=
  match a.line.ts.filter (· ≠ []), b.line.ts.filter (· ≠ []) with
  | some s, some t => if s = t then a.order - b.order else if s < t then -1 else 1
  | _, _ => a.order - b.order

def keptLines (deps : LogDeps) (results : List (Except LogError LogBatch)) (lines : LineCount) :
    List MergedLine :=
  let merged := (gather results).merged
  let ordered := if 1 < results.length then deps.sort compareLines merged else merged
  ordered.drop (ordered.length - lines)

end EverWorks.Fleet
