import EverWorks.Lib.Run
import EverWorks.Schedule.Clock

/-!
A step of a computer's schedule loop is what happens from one await to the next. A stored schedule is an object that
the map of those held, a tick and a `replace` under way may share, so they hold references to it.
-/

namespace EverWorks.Schedule
open Lib

structure FleetScheduleDefinition where
  id : String
  cadence : FleetScheduleCadence
  deriving DecidableEq

structure StoredSchedule where
  definition : FleetScheduleDefinition
  /-- When the computer first held this cadence. -/
  armedAt : ℤ
  /-- The last fire handled. -/
  lastFireAt : Option ℤ
  deriving DecidableEq

namespace StoredSchedule

def since (stored : StoredSchedule) : ℤ := max stored.armedAt (stored.lastFireAt.getD 0)

/-- What `markFired` makes of it. -/
def markFired (stored : StoredSchedule) (at_ : ℤ) : StoredSchedule :=
  { stored with lastFireAt := some (max (stored.lastFireAt.getD 0) at_) }

def arm (definition : FleetScheduleDefinition) (now : ℤ) : StoredSchedule :=
  { definition, armedAt := now, lastFireAt := none }

def SameClock (definition : FleetScheduleDefinition) (before : StoredSchedule) : Prop :=
  before.definition.cadence = definition.cadence

instance (definition : FleetScheduleDefinition) (before : StoredSchedule) :
    Decidable (SameClock definition before) :=
  inferInstanceAs (Decidable (_ = _))

/-- What `replace` stores for a definition. -/
def hold (definition : FleetScheduleDefinition) (now : ℤ) : Option StoredSchedule → StoredSchedule
  | some before =>
    if SameClock definition before then { before with definition } else arm definition now
  | none => arm definition now

end StoredSchedule

inductive FleetScheduleRunTrigger where
  | timer | catchUp | runNow
  deriving DecidableEq

inductive FleetCommandRunStatus where
  | running | done | failed | timeout | skippedOverlap | skippedOffline
  deriving DecidableEq

inductive FleetCommandNodeEndReason where
  | timeout | killSwitch | drain | shellFailed | cancelledByUser
  deriving DecidableEq

structure FleetScheduleRunReport where
  runId : String
  scheduleId : String
  scheduledFor : Option ℤ
  startedAt : ℤ
  endedAt : Option ℤ
  status : FleetCommandRunStatus
  failedReason : Option FleetCommandNodeEndReason
  exitCode : Option ℤ
  trigger : FleetScheduleRunTrigger
  deriving DecidableEq

def fleetCommandRunEndFor (exitCode : Option ℤ) (reason : Option FleetCommandNodeEndReason) :
    FleetCommandRunStatus × Option FleetCommandNodeEndReason :=
  match reason with
  | some .timeout => (.timeout, none)
  | some reason => (.failed, some reason)
  | none => if exitCode = some 0 then (.done, none) else (.failed, none)

def runExitCode (reason : Option FleetCommandNodeEndReason) (exitCode : Option ℤ) : ℤ :=
  match reason with
  | some .timeout => 124
  | some .cancelledByUser => 130
  | some .killSwitch | some .drain => 137
  | _ => exitCode.getD 1

/-- How far a call of `run` is. -/
inductive RunPhase where
  /-- It looks for its folder. -/
  | resolving
  /-- Its report is put and its shell starting. -/
  | starting
  | started
  /-- Its last report is being put. -/
  | ended
  deriving DecidableEq

/-- A call of `run` that has not returned. -/
structure RunningRun where
  /-- Which call it is. -/
  number : ℕ
  /-- The report as it is first put. -/
  base : FleetScheduleRunReport
  endReason : Option FleetCommandNodeEndReason
  phase : RunPhase
  deriving DecidableEq

/-- `stop`: the first reason stays. -/
def RunningRun.stop (run : RunningRun) (reason : FleetCommandNodeEndReason) : RunningRun :=
  { run with endReason := some (run.endReason.getD reason) }

inductive Ticking where
  /-- `touchAlive`. -/
  | touching
  /-- `markFired` of a fire to be run or, if it is too old, skipped; and the schedules still ahead. -/
  | marking (now : ℤ) (stored : ℕ) (fire : ℤ) (runs : Bool) (rest : List ℕ)
  /-- `record` of a skipped fire. -/
  | recording (now : ℤ) (rest : List ℕ)
  /-- The tick is over, and `ticking` still names it. -/
  | settling
  deriving DecidableEq

/-- A call of `replace` that has not ended. -/
structure Replacing where
  /-- The definitions not stored yet. -/
  definitions : List FleetScheduleDefinition
  now : ℤ
  held : List ℕ
  deriving DecidableEq

structure ScheduleLoop where
  /-- Every stored schedule, by its reference. -/
  entries : ℕ → StoredSchedule
  /-- The next reference. -/
  next : ℕ
  schedules : List ℕ
  /-- The runs that have not ended. -/
  runs : List RunningRun
  /-- The map of the runs in progress, by schedule. -/
  running : List (String × ℕ)
  nextRun : ℕ
  paused : Bool
  stopped : Bool
  ticking : Option Ticking
  replacing : List Replacing
  /-- The calls of `resume` that await `setPaused`. -/
  resuming : ℕ
  /-- What was put into the history, in order. -/
  reports : List FleetScheduleRunReport
  /-- The fires run or recorded as skipped, in order. -/
  handled : List (String × ℤ)

inductive ScheduleEvent where
  | tick (now : ℤ) (timeZone : Option String)
  | tickGoesOn (now : ℤ) (timeZone : Option String) (newId : String)
  | replace (definitions : List FleetScheduleDefinition) (now : ℤ)
  | replaceGoesOn (place : ℕ)
  /-- A file could not be written. -/
  | replaceFails (place : ℕ)
  | runNow (id runId : String) (now : ℤ)
  | runFindsFolder (number : ℕ)
  | runStarts (number : ℕ)
  | runTimesOut (number : ℕ)
  | runExits (number : ℕ) (exitCode : Option ℤ) (now : ℤ)
  /-- The folder is not allowed, or the shell did not start. -/
  | runFails (number : ℕ) (now : ℤ)
  /-- A run returns, whatever became of it. -/
  | runReturns (number : ℕ)
  | pause
  | resume
  | resumeGoesOn (now : ℤ) (timeZone : Option String)
  | drain
  | dispose
  deriving DecidableEq

namespace ScheduleLoop

variable (loop : ScheduleLoop)

def idOf (stored : ℕ) : String := (loop.entries stored).definition.id

/-- `Map.set`: a schedule already in the map keeps its place. -/
def set (schedules : List ℕ) (stored : ℕ) : List ℕ :=
  if schedules.any fun other => loop.idOf other = loop.idOf stored then
    schedules.map fun other => if loop.idOf other = loop.idOf stored then stored else other
  else schedules ++ [stored]

def setAll (held : List ℕ) : ScheduleLoop :=
  { loop with schedules := held.foldl loop.set [] }

def get (id : String) : Option ℕ := loop.schedules.find? fun stored => loop.idOf stored = id

/-- `start`, up to its first tick: what the store held, and the kill switch as it was last told. -/
def start (stored : List StoredSchedule) (paused : Bool) : ScheduleLoop :=
  let loop : ScheduleLoop := {
    entries := fun place => stored.getD place (.arm ⟨"", { kind := .interval }⟩ 0)
    next := stored.length
    schedules := [], runs := [], running := [], nextRun := 0, paused, stopped := false, ticking := none
    replacing := [], resuming := 0, reports := [], handled := [] }
  loop.setAll (List.range stored.length)

/-- `run` up to its first await. -/
def run (stored : StoredSchedule) (runId : String) (scheduledFor : Option ℤ) (trigger : FleetScheduleRunTrigger)
    (now : ℤ) : ScheduleLoop :=
  let id := stored.definition.id
  { loop with
    runs := loop.runs ++ [{
      number := loop.nextRun
      base := {
        runId, scheduleId := id, scheduledFor, startedAt := now, endedAt := none, status := .running
        failedReason := none, exitCode := none, trigger }
      endReason := none, phase := .resolving }]
    running := loop.running.filter (·.1 ≠ id) ++ [(id, loop.nextRun)]
    nextRun := loop.nextRun + 1
    handled := loop.handled ++ (scheduledFor.map (id, ·)).toList }

def record (stored : StoredSchedule) (runId : String) (status : FleetCommandRunStatus) (scheduledFor : ℤ)
    (trigger : FleetScheduleRunTrigger) (now : ℤ) : ScheduleLoop :=
  let id := stored.definition.id
  { loop with
    reports := loop.reports ++ [{
      runId, scheduleId := id, scheduledFor := some scheduledFor, startedAt := now, endedAt := some now, status
      failedReason := none, exitCode := none, trigger }]
    handled := loop.handled ++ [(id, scheduledFor)] }

def isRunning (id : String) : Bool := loop.running.any (·.1 = id)

def runGoesOn (number : ℕ) (phases : List RunPhase) (change : RunningRun → RunningRun)
    (report : RunningRun → Option FleetScheduleRunReport) : ScheduleLoop :=
  let goesOn := fun run : RunningRun => run.number = number ∧ run.phase ∈ phases
  { loop with
    runs := loop.runs.map fun run => if goesOn run then change run else run
    reports := loop.reports ++ (loop.runs.filter (goesOn ·)).filterMap report }

/-- `stop` of every run in the map. -/
def stopAll (reason : FleetCommandNodeEndReason) : ScheduleLoop :=
  { loop with
    runs := loop.runs.map fun run => if loop.running.any (·.2 = run.number) then run.stop reason else run }

/-- What `run` does last. -/
def runReturns (number : ℕ) : ScheduleLoop :=
  { loop with
    runs := loop.runs.filter (·.number ≠ number), running := loop.running.filter (·.2 ≠ number) }

def runNow (id runId : String) (now : ℤ) : ScheduleLoop :=
  if loop.paused then loop
  else match loop.get id with
    | none => loop
    | some stored =>
      if loop.isRunning id then loop else loop.run (loop.entries stored) runId none .runNow now

variable (letters : JsString.LowerCase) (intl : Intl)

/-- The first of the schedules ahead that owes a fire, whether it is to be run, and the schedules after it. -/
def nextDue (timeZone : Option String) (now : ℤ) : List ℕ → Option (ℕ × ℤ × Bool × List ℕ)
  | [] => none
  | stored :: rest =>
    let entry := loop.entries stored
    let due := fleetScheduleCatchUp letters intl entry.definition.cadence timeZone entry.since now (some 3600)
    match due.run, due.skipped with
    | some fire, _ => some (stored, fire, true, rest)
    | none, some fire => some (stored, fire, false, rest)
    | none, none => nextDue timeZone now rest

def tickLoop (timeZone : Option String) (now : ℤ) (ahead : List ℕ) : ScheduleLoop :=
  match loop.nextDue letters intl timeZone now ahead with
  | some (stored, fire, runs, rest) =>
    { loop with
      entries := Function.update loop.entries stored ((loop.entries stored).markFired fire)
      ticking := some (.marking now stored fire runs rest) }
  | none => { loop with ticking := some .settling }

variable (lease : Bool)

/-- What `tick` goes over at once: it does not where it touches the lease first. -/
def tickStart (now : ℤ) : Option (ℤ × List ℕ) :=
  if loop.ticking.isSome || loop.stopped || lease || loop.paused then none else some (now, loop.schedules)

def tick (now : ℤ) (timeZone : Option String) : ScheduleLoop :=
  match loop.tickStart lease now with
  | some (now, ahead) => loop.tickLoop letters intl timeZone now ahead
  | none =>
    if loop.ticking.isSome then loop
    else if loop.stopped then { loop with ticking := some .settling }
    else if lease then { loop with ticking := some .touching }
    else { loop with ticking := some .settling }

def tickResume (clock : ℤ) (newId : String) : ScheduleLoop :=
  match loop.ticking with
  | some .touching => { loop with ticking := some .settling }
  | some (.marking now stored fire runs rest) =>
    let entry := loop.entries stored
    if runs then
      -- Within two minutes of the fire it is the timer's own.
      let trigger := if now - fire ≤ 120000 then .timer else .catchUp
      if loop.isRunning entry.definition.id then
        { loop.record entry newId .skippedOverlap fire trigger clock with ticking := some (.recording now rest) }
      else { loop.run entry newId (some fire) trigger clock with ticking := some .settling }
    else
      { loop.record entry newId .skippedOffline fire .catchUp clock with ticking := some (.recording now rest) }
  | some (.recording _ _) => { loop with ticking := some .settling }
  | some .settling => { loop with ticking := none }
  | none => loop

def tickAhead (clock : ℤ) : Option (ℤ × List ℕ) :=
  match loop.ticking with
  | some .touching => if loop.paused then none else some (clock, loop.schedules)
  | some (.marking now stored _ runs rest) =>
    if runs && !loop.isRunning (loop.idOf stored) then some (now, rest) else none
  | some (.recording now rest) => some (now, rest)
  | _ => none

def tickGoesOn (clock : ℤ) (timeZone : Option String) (newId : String) : ScheduleLoop :=
  match loop.tickAhead clock with
  | some (now, ahead) => (loop.tickResume clock newId).tickLoop letters intl timeZone now ahead
  | none => loop.tickResume clock newId

/-- A `replace` that goes on stores its next definition, or has stored them all and holds them. -/
def replaceGoesOn (place : ℕ) : ScheduleLoop :=
  match loop.replacing[place]? with
  | none => loop
  | some call =>
    match call.definitions with
    | definition :: rest =>
      let before := (loop.get definition.id).map loop.entries
      { loop with
        entries := Function.update loop.entries loop.next (.hold definition call.now before)
        next := loop.next + 1
        replacing := loop.replacing.set place { call with
          definitions := rest, held := call.held ++ [loop.next] } }
    | [] => { loop.setAll call.held with replacing := loop.replacing.eraseIdx place }

def step (loop : ScheduleLoop) : ScheduleEvent → ScheduleLoop
  | .tick now timeZone => loop.tick letters intl lease now timeZone
  | .tickGoesOn now timeZone newId => loop.tickGoesOn letters intl now timeZone newId
  | .replace definitions now =>
    { loop with replacing := loop.replacing ++ [{ definitions, now, held := [] }] }
  | .replaceGoesOn place => loop.replaceGoesOn place
  | .replaceFails place => { loop with replacing := loop.replacing.eraseIdx place }
  | .runNow id runId now => loop.runNow id runId now
  | .runFindsFolder number =>
    loop.runGoesOn number [.resolving] ({ · with phase := .starting }) fun run => some run.base
  | .runStarts number =>
    let start := fun run : RunningRun => { run with phase := .started }
    -- A pause may have landed while the shell was starting.
    loop.runGoesOn number [.starting]
      (fun run => if loop.paused then (start run).stop .killSwitch else start run) fun _ => none
  | .runTimesOut number => loop.runGoesOn number [.starting, .started] (·.stop .timeout) fun _ => none
  | .runExits number exitCode now =>
    loop.runGoesOn number [.started] ({ · with phase := .ended }) fun run =>
      let code := runExitCode run.endReason exitCode
      let (status, failedReason) := fleetCommandRunEndFor (some code) run.endReason
      some { run.base with status, failedReason, exitCode := some code, endedAt := some now }
  | .runFails number now =>
    loop.runGoesOn number [.resolving, .starting] ({ · with phase := .ended }) fun run =>
      some { run.base with status := .failed, failedReason := some .shellFailed, endedAt := some now }
  | .runReturns number => loop.runReturns number
  | .pause => if loop.paused then loop else { loop.stopAll .killSwitch with paused := true }
  | .resume =>
    if loop.paused then { loop with paused := false, resuming := loop.resuming + 1 } else loop
  | .resumeGoesOn now timeZone =>
    if loop.resuming = 0 then loop
    else { loop with resuming := loop.resuming - 1 }.tick letters intl lease now timeZone
  | .drain => loop.stopAll .drain
  | .dispose => { loop with stopped := true }

end ScheduleLoop

end EverWorks.Schedule
