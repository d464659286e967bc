import EverWorks.Lib.JsString
import EverWorks.Lib.OrderedMap
import EverWorks.Lib.Program
import EverWorks.Sessions.Status

/-!
The daemon's books of sessions, the files it writes for them, and `start`, `rename`, a process's exit, `tick` and
`ackEnded` as programs over its single file operations, with `boot`.
-/

namespace EverWorks.Sessions
open Lib Lib.Program Function

inductive FleetSessionKind where
  | owner | agent
deriving DecidableEq

inductive FleetSessionEndedReason where
  | user | agent | exit | nodeRestart | timeout | killSwitch | drain
deriving DecidableEq

/-- A size as `clampFleetSessionSize` leaves one. -/
structure TerminalSize where
  cols : Nat
  rows : Nat
  inside : 20 ≤ cols ∧ cols ≤ 500 ∧ 5 ≤ rows ∧ rows ≤ 200
deriving DecidableEq

structure StoredSession (Id : Type) where
  id : Id
  kind : FleetSessionKind
  provider : FleetSessionProvider
  cwd : String
  title : String
  startedAt : Int
  startedBy : String
  size : TerminalSize
  endedAt : Option Int
  exitCode : Option Int
  endReason : Option FleetSessionEndedReason
deriving DecidableEq

structure DaemonStartRequest (Id : Type) where
  id : Id
  kind : FleetSessionKind
  provider : FleetSessionProvider
  cwd : String
  size : TerminalSize
  title : String
  startedBy : String

/-- A record as it was at one time. Versions of a session carry the session's number and are numbered in turn. -/
structure Version (Id : Type) where
  record : StoredSession Id
  born : Nat
  mark : Nat
deriving DecidableEq

/-- `SessionBook`, with what it reads of its session. -/
structure SessionBook (Id : Type) extends Version Id where
  title : String
  alive : Bool
  lost : Bool
  exitCode : Option Int
  endReason : Option FleetSessionEndedReason
  lostScreen : Option String
  dirtySince : Option Int

inductive FileName (Id : Type) where
  | record (id : Id)
  | screen (id : Id)
deriving DecidableEq

inductive Content (Id : Type) where
  | record (version : Version Id)
  | screen (text : String)
deriving DecidableEq

abbrev Files (Id : Type) := FileName Id → Option (Content Id)

structure Told where
  born : Nat
  startedAt : Int
  title : String
  exit : Option (Option Int × Option FleetSessionEndedReason)
deriving DecidableEq

inductive Debt (Id : Type) where
  | reserved (id : Id)
  | opening (id : Id) (born : Nat)
  | saved (version : Version Id)
  | write (version : Version Id)
  | closing (id : Id) (born : Nat)
  | report (id : Id) (born : Nat) (exitCode : Option Int) (reason : Option FleetSessionEndedReason)
  | forget (id : Id) (born : Nat)
deriving DecidableEq

instance {Id : Type} [DecidableEq Id] : LawfulBEq (Debt Id) := inferInstance

/-- `next`, `told` and `debts` only keep count of what happened. -/
structure Daemon (Id : Type) where
  files : Files Id
  temps : FileName Id × Nat → Option (Content Id)
  sessions : OrderedMap Id (SessionBook Id)
  starting : List Id
  /-- Books that have left the map, which a program may still hold. -/
  removed : Id → Nat → Option (SessionBook Id)
  next : Nat
  told : Id → Option Told
  debts : Nat → List (Debt Id)

inductive DaemonCall (Id : Type) where
  | reserve (program : Nat) (id : Id)
  | release (program : Nat) (id : Id)
  | writeFile (name : FileName Id) (stamp : Nat) (content : Content Id)
  /-- With what the program has written under the temporary name. -/
  | rename (program : Nat) (name : FileName Id) (stamp : Nat) (own : Content Id)
  | unlinkTemp (name : FileName Id) (stamp : Nat)
  /-- With the number of the session that is to be forgotten. -/
  | unlink (program : Nat) (name : FileName Id) (born : Nat)
  | opened (program : Nat) (version : Version Id)
  | retitle (program : Nat) (id : Id) (title : String)
  | exit (program : Nat) (id : Id) (exitCode : Option Int) (endedAt : Int)
  | bookRecord (program : Nat) (id : Id) (born : Nat)
  | exited (program : Nat) (id : Id) (born : Nat) (exitCode : Option Int) (reason : Option FleetSessionEndedReason)
  | nextDue (now persistMs : Int) (after : Nat)
  | ack (program : Nat) (id : Id)
  | output (id : Id) (now : Int)
  | endSession (id : Id) (reason : FleetSessionEndedReason)

structure Exit where
  born : Nat
  exitCode : Option Int
  reason : Option FleetSessionEndedReason

abbrev DaemonReply (Id : Type) : DaemonCall Id → Type
  | .reserve .. => Option Nat
  | .rename .. => Bool
  | .retitle .. => Option (Version Id)
  | .exit .. => Option Exit
  | .bookRecord .. => Option (Version Id)
  | .nextDue .. => Option (Id × Nat)
  | .ack .. => Option Nat
  | .release .. | .writeFile .. | .unlinkTemp .. | .unlink .. | .opened .. | .exited .. | .output .. | .endSession .. =>
    Unit

variable {Id : Type} [DecidableEq Id]

def Daemon.owe (daemon : Daemon Id) (program : Nat) (debts : List (Debt Id)) : Daemon Id :=
  { daemon with debts := update daemon.debts program debts }

def Daemon.tell (daemon : Daemon Id) (id : Id) (told : Option Told) : Daemon Id :=
  { daemon with told := update daemon.told id told }

def placedDebts (version : Version Id) (debts : List (Debt Id)) : List (Debt Id) :=
  if .opening version.record.id version.born ∈ debts then .saved version :: debts
  else debts.filter (· ≠ .write version)

def Daemon.place (daemon : Daemon Id) (program : Nat) (name : FileName Id) (own content : Content Id) : Daemon Id :=
  let placed := { daemon with files := update daemon.files name (some content) }
  match own with
  | .record version => placed.owe program (placedDebts version (daemon.debts program))
  | .screen _ => placed

def unlinkedDebts (id : Id) (born : Nat) (debts : List (Debt Id)) : List (Debt Id) :=
  debts.filter fun debt => match debt with
    | .saved version => version.record.id ≠ id
    | .forget forgotten number => forgotten ≠ id ∨ number ≠ born
    | _ => true

def SessionBook.revise (book : SessionBook Id) (mark : Nat) (record : StoredSession Id) : SessionBook Id :=
  { book with record, mark }

def serveDaemon : (call : DaemonCall Id) → Daemon Id → DaemonReply Id call × Daemon Id
  | .reserve program id, daemon =>
    if daemon.sessions.has id || daemon.starting.contains id then (none, daemon)
    else (some daemon.next, { daemon with starting := id :: daemon.starting, next := daemon.next + 1 }.owe program
      [.reserved id, .opening id daemon.next])
  | .release program id, daemon =>
    ((), { daemon with starting := daemon.starting.filter (· ≠ id) }.owe program [])
  | .writeFile name stamp content, daemon =>
    ((), { daemon with temps := update daemon.temps (name, stamp) (some content) })
  | .rename program name stamp own, daemon =>
    match daemon.temps (name, stamp) with
    | none => (false, daemon)
    | some content =>
      (true, { daemon.place program name own content with temps := update daemon.temps (name, stamp) none })
  | .unlinkTemp name stamp, daemon => ((), { daemon with temps := update daemon.temps (name, stamp) none })
  | .unlink program (.record id) born, daemon =>
    ((), { daemon with files := update daemon.files (.record id) none }.owe program
      (unlinkedDebts id born (daemon.debts program)))
  | .unlink _ (.screen id) _, daemon => ((), { daemon with files := update daemon.files (.screen id) none })
  | .opened program version, daemon =>
    -- `sessions.set` and the `started` event.
    let book : SessionBook Id := { version with
      title := version.record.title, alive := true, lost := false, exitCode := none, endReason := none,
      lostScreen := none, dirtySince := none }
    ((), { daemon with sessions := daemon.sessions.set version.record.id book }.tell version.record.id
        (some ⟨version.born, version.record.startedAt, version.record.title, none⟩) |>.owe program
      [.reserved version.record.id])
  | .retitle program id title, daemon =>
    match daemon.sessions.get id with
    | none => (none, daemon)
    | some book =>
      let trimmed := JsString.trim title
      if JsString.length trimmed = 0 ∨ 200 < JsString.length trimmed then (none, daemon)
      else
        let renamed := { book.revise daemon.next { book.record with title := trimmed } with title := trimmed }
        (some renamed.toVersion,
          { daemon with sessions := daemon.sessions.set id renamed, next := daemon.next + 1 }.tell id
              ((daemon.told id).map fun told : Told => { told with title := trimmed }) |>.owe program
            [.write renamed.toVersion])
  | .exit program id exitCode endedAt, daemon =>
    match daemon.sessions.get id with
    | none => (none, daemon)
    | some book =>
      if ¬ book.alive then (none, daemon)
      else
        let gone := { book with alive := false, exitCode := exitCode }
        if book.record.endedAt ≠ none then (none, { daemon with sessions := daemon.sessions.set id gone })
        else
          let ended := { gone.revise daemon.next { book.record with
            endedAt := some endedAt, exitCode := exitCode, endReason := book.endReason } with dirtySince := none }
          (some ⟨book.born, exitCode, book.endReason⟩,
            { daemon with sessions := daemon.sessions.set id ended, next := daemon.next + 1 }.owe program
              [.closing id book.born, .report id book.born exitCode book.endReason])
  | .bookRecord program id born, daemon =>
    let held := ((daemon.sessions.get id).filter (·.born = born)).or (daemon.removed id born)
    let version := held.map (·.toVersion)
    (version, daemon.owe program
      ((version.toList.map .write) ++ (daemon.debts program).filter (· ≠ .closing id born)))
  | .exited program id born exitCode reason, daemon =>
    let told := (daemon.told id).map fun told =>
      if told.born = born then { told with exit := some (exitCode, reason) } else told
    ((), (daemon.tell id told).owe program [])
  | .nextDue now persistMs after, daemon =>
    -- Books are in the order of their numbers; the restored ones, all under 0, have no output to persist.
    let due := daemon.sessions.values.find? fun book =>
      after < book.born && match book.dirtySince with
        | some since => persistMs ≤ now - since
        | none => false
    match due with
    | none => (none, daemon)
    | some book =>
      (some (book.record.id, book.born),
        { daemon with sessions := daemon.sessions.set book.record.id { book with dirtySince := none } })
  | .ack program id, daemon =>
    match daemon.sessions.get id with
    | none => (none, daemon)
    | some book =>
      if book.alive then (none, daemon)
      else
        (some book.born,
          { daemon with
            sessions := daemon.sessions.delete id
            removed := update daemon.removed id (update (daemon.removed id) book.born (some book)) }.tell
              id none |>.owe program [.forget id book.born])
  | .output id now, daemon =>
    match daemon.sessions.get id with
    | none => ((), daemon)
    | some book =>
      if book.alive ∧ book.dirtySince = none then
        ((), { daemon with sessions := daemon.sessions.set id { book with dirtySince := some now } })
      else ((), daemon)
  | .endSession id reason, daemon =>
    match daemon.sessions.get id with
    | none => ((), daemon)
    | some book =>
      if book.alive then
        ((), { daemon with
          sessions := daemon.sessions.set id { book with endReason := book.endReason.or (some reason) } })
      else ((), daemon)

abbrev DaemonProgram (Id : Type) := Program (DaemonCall Id) (DaemonReply Id) Empty

def writeAtomic (program stamp : Nat) (name : FileName Id) (content : Content Id) : DaemonProgram Id Bool := do
  let _ ← ask (DaemonCall.writeFile name stamp content)
  let written ← ask (DaemonCall.rename program name stamp content)
  if written then pure true
  else
    let _ ← ask (DaemonCall.unlinkTemp name stamp)
    pure false

def save (program stamp : Nat) (version : Version Id) : DaemonProgram Id Bool :=
  writeAtomic program stamp (.record version.record.id) (.record version)

def saveScreen (program stamp : Nat) (id : Id) (text : String) : DaemonProgram Id Bool :=
  writeAtomic program stamp (.screen id) (.screen text)

def forget (program : Nat) (id : Id) (born : Nat) : DaemonProgram Id Unit := do
  let _ ← ask (DaemonCall.unlink program (.record id) born)
  let _ ← ask (DaemonCall.unlink program (.screen id) born)

structure StartAnswers where
  folder : Bool
  spawns : Bool
  startedAt : Int
  stamp : Nat

def startReserved (program : Nat) (request : DaemonStartRequest Id) (answers : StartAnswers) (born : Nat) :
    DaemonProgram Id Bool :=
  if ¬ answers.folder then pure false
  else do
    let record : StoredSession Id := {
      id := request.id
      kind := request.kind
      provider := request.provider
      cwd := request.cwd
      title := request.title
      startedAt := answers.startedAt
      startedBy := request.startedBy
      size := request.size
      endedAt := none
      exitCode := none
      endReason := none }
    let _ ← save program answers.stamp ⟨record, born, born⟩
    if ¬ answers.spawns then
      forget program request.id born
      pure false
    else
      let _ ← ask (DaemonCall.opened program ⟨record, born, born⟩)
      pure true

def start (program : Nat) (request : DaemonStartRequest Id) (answers : StartAnswers) : DaemonProgram Id Bool := do
  let reserved ← ask (DaemonCall.reserve program request.id)
  match reserved with
  | none => pure false
  | some born =>
    let started ← startReserved program request answers born
    let _ ← ask (DaemonCall.release program request.id)
    pure started

def renameSession (program : Nat) (id : Id) (title : String) (stamp : Nat) : DaemonProgram Id Bool := do
  let renamed ← ask (DaemonCall.retitle program id title)
  match renamed with
  | none => pure false
  | some version =>
    let _ ← save program stamp version
    pure true

structure ExitAnswers where
  exitCode : Option Int
  endedAt : Int
  screen : String
  screenStamp : Nat
  stamp : Nat

def onSessionExit (program : Nat) (id : Id) (answers : ExitAnswers) : DaemonProgram Id Unit := do
  let exit ← ask (DaemonCall.exit program id answers.exitCode answers.endedAt)
  match exit with
  | none => pure ()
  | some exit =>
    let _ ← saveScreen program answers.screenStamp id answers.screen
    let version ← ask (DaemonCall.bookRecord program id exit.born)
    match version with
    | none => pure ()
    | some version =>
      let _ ← save program answers.stamp version
    let _ ← ask (DaemonCall.exited program id exit.born exit.exitCode exit.reason)

def tick (program : Nat) (now persistMs : Int) : Nat → List (Nat × String) → DaemonProgram Id Unit
  | _, [] => pure ()
  | after, (stamp, screen) :: rest => do
    let due ← ask (DaemonCall.nextDue now persistMs after)
    match due with
    | none => pure ()
    | some (id, born) =>
      let _ ← saveScreen program stamp id screen
      tick program now persistMs born rest

def ackEnded (program : Nat) (id : Id) : DaemonProgram Id Bool := do
  let acked ← ask (DaemonCall.ack program id)
  match acked with
  | none => pure false
  | some born =>
    forget program id born
    pure true

inductive DaemonJob (Id : Type) where
  | start (request : DaemonStartRequest Id) (answers : StartAnswers)
  | rename (id : Id) (title : String) (stamp : Nat)
  | exit (id : Id) (answers : ExitAnswers)
  | tick (now persistMs : Int) (screens : List (Nat × String))
  | ackEnded (id : Id)
  | output (id : Id) (now : Int)
  | end (id : Id) (reason : FleetSessionEndedReason)

def DaemonJob.run (program : Nat) : DaemonJob Id → DaemonProgram Id Unit
  | .start request answers => Sessions.start program request answers >>= fun _ => pure ()
  | .rename id title stamp => renameSession program id title stamp >>= fun _ => pure ()
  | .exit id answers => onSessionExit program id answers
  | .tick now persistMs screens => Sessions.tick program now persistMs 0 screens
  | .ackEnded id => Sessions.ackEnded program id >>= fun _ => pure ()
  | .output id now => ask (DaemonCall.output id now)
  | .end id reason => ask (DaemonCall.endSession id reason)

def recordAt (files : Files Id) (id : Id) : Option (Version Id) :=
  match files (.record id) with
  | some (.record version) => if version.record.id = id then some version else none
  | _ => none

def screenAt (files : Files Id) (id : Id) : Option String :=
  match files (.screen id) with
  | some (.screen text) => some text
  | _ => none

def load (files : Files Id) (ids : List Id) : List (Version Id × Option String) :=
  ids.filterMap fun id => (recordAt files id).map fun version => (version, screenAt files id)

/-- `makeSession` and `restoreEnded` of a record. -/
def restored (version : Version Id) (screen : Option String) : SessionBook Id :=
  { version with
    title := version.record.title
    alive := false
    lost := version.record.endedAt.isNone
    exitCode := version.record.exitCode
    endReason := version.record.endReason
    lostScreen := screen
    dirtySince := none }

def bootOne (now : Int) (daemon : Daemon Id) (loaded : Version Id × Option String) : Daemon Id :=
  let id := loaded.1.record.id
  if daemon.sessions.has id then daemon
  else
    let book := restored loaded.1 loaded.2
    let told : Told := ⟨book.born, book.record.startedAt, book.title, some (book.exitCode, book.endReason)⟩
    match book.record.endedAt with
    | none =>
      let ended := book.revise daemon.next { book.record with endedAt := some now }
      { daemon with
        files := update daemon.files (.record id) (some (.record ended.toVersion))
        sessions := daemon.sessions.set id ended
        next := daemon.next + 1 }.tell id (some told)
    | some _ => { daemon with sessions := daemon.sessions.set id book }.tell id (some told)

def Daemon.fresh (files : Files Id) (next : Nat) : Daemon Id where
  files
  temps _ := none
  sessions := .empty
  starting := []
  removed _ _ := none
  next
  told _ := none
  debts _ := []

def boot (now : Int) (ids : List Id) (files : Files Id) (next : Nat) : Daemon Id :=
  (load files ids).foldl (bootOne now) (.fresh files next)

end EverWorks.Sessions
