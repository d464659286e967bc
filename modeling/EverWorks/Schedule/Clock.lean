import EverWorks.Lib.Calendar
import EverWorks.Lib.WallClock
import EverWorks.Schedule.Cadence

/-!
The fires of a cadence on a computer's own clock. Instants are milliseconds since 1 January 1970, and a time
zone is what the runtime knows of it: its offset from UTC at every instant.
-/

namespace EverWorks.Schedule
open Lib Lib.Calendar

structure TimeZone where
  offset : ℤ → ℤ
  bounded : ∀ ms, -1440 ≤ offset ms ∧ offset ms ≤ 1440
  small : ∀ ms, offset ms ≤ offset (ms - 1) + 180 ∧ offset (ms - 1) ≤ offset ms + 180
  spaced : ∀ {a b}, a < b → offset (a - 1) ≠ offset a → offset (b - 1) ≠ offset b → a + 172800000 ≤ b

def TimeZone.constant (minutes : ℤ) (bounded : -1440 ≤ minutes ∧ minutes ≤ 1440) : TimeZone where
  offset _ := minutes
  bounded _ := bounded
  small _ := by omega
  spaced _ change := absurd rfl change

/-- The zones the runtime knows. -/
structure Intl where
  zone : String → Option TimeZone
  utc : zone "UTC" = some (.constant 0 (by omega))

theorem zero_bounded : -1440 ≤ (0 : ℤ) ∧ (0 : ℤ) ≤ 1440 := by omega

def Intl.utcOnly : Intl where
  zone name := if name = "UTC" then some (.constant 0 zero_bounded) else none
  utc := rfl

def zonePattern (text : String) : Bool :=
  match text.toList with
  | first :: rest =>
    first.isAlpha && rest.length ≤ 63 && rest.all fun c => c.isAlphanum || "_+-/".toList.contains c
  | [] => false

def isFleetTimeZone (intl : Intl) (text : String) : Bool :=
  zonePattern text && (intl.zone text).isSome

def fleetScheduleZone (intl : Intl) (timeZone : Option String) : String :=
  match timeZone with
  | some name => if isFleetTimeZone intl name then name else "UTC"
  | none => "UTC"

def Intl.named (intl : Intl) (name : String) : TimeZone :=
  (intl.zone name).getD (.constant 0 (by omega))

structure FleetZonedParts where
  year : ℤ
  month : ℕ
  day : ℕ
  hour : ℕ
  minute : ℕ
  second : ℕ
  weekday : ℕ

/-- `Date.UTC`, the months counted from 1. -/
def dateUTC (year : ℤ) (month : ℕ) (day : ℤ) (hour minute second : ℕ) : ℤ :=
  (((dayOf year month day * 24 + hour) * 60 + minute) * 60 + second) * 1000

def fleetZonedParts (ms : ℤ) (zone : TimeZone) : FleetZonedParts :=
  let shown := ms + zone.offset ms * 60000
  let date := dateOf (shown / 86400000)
  { year := date.year
    month := date.month
    day := date.day
    hour := (shown / 3600000 % 24).toNat
    minute := (shown / 60000 % 60).toNat
    second := (shown / 1000 % 60).toNat
    weekday := weekdayOf (dayOf date.year date.month date.day) }

def zoneOffsetMs (ms : ℤ) (zone : TimeZone) : ℤ :=
  let floored := ms / 1000 * 1000
  let p := fleetZonedParts floored zone
  dateUTC p.year p.month p.day p.hour p.minute p.second - floored

/-- The instant of a minute on a zone's clock: the first of two, and past a jump as far as the minute lies in
it. -/
def fleetZonedInstant (year : ℤ) (month day hour minute : ℕ) (zone : TimeZone) : ℤ :=
  let wall := dateUTC year month day hour minute 0
  let offsets := [zoneOffsetMs (wall - 86400000) zone, zoneOffsetMs wall zone,
    zoneOffsetMs (wall + 86400000) zone].eraseDups
  let best := offsets.foldl (fun best offset =>
    have candidate := wall - offset
    have back := fleetZonedParts candidate zone
    if back.year = year ∧ back.month = month ∧ back.day = day ∧ back.hour = hour ∧ back.minute = minute ∧
        best.all (fun earliest => candidate < earliest) = true then some candidate
    else best) (none : Option ℤ)
  best.getD (wall - (offsets.min?).getD 0)

def maxSearchDays : ℕ := 366 * 8 + 1

def dayMatches (fields : FleetCronFields) (month day weekday : ℕ) : Bool :=
  if !fields.months.contains month then false
  else if fields.dayRestricted && fields.weekdayRestricted then
    fields.days.contains day || fields.weekdays.contains weekday
  else if fields.dayRestricted then fields.days.contains day
  else if fields.weekdayRestricted then fields.weekdays.contains weekday
  else true

section Fires

variable (letters : JsString.LowerCase) (intl : Intl) (cadence : FleetScheduleCadence)
  (timeZone : Option String)

def nextFleetScheduleFire (afterMs : ℤ) : Option ℤ := do
  let fields ← cadenceFields letters cadence
  let zone := intl.named (fleetScheduleZone intl timeZone)
  let start := fleetZonedParts (afterMs / 60000 * 60000 + 60000) zone
  (List.range (maxSearchDays + 1)).findSome? fun (offset : ℕ) =>
    let number := dayOf start.year start.month (start.day + offset)
    let date := dateOf number
    if !dayMatches fields date.month date.day (weekdayOf number) then none
    else fields.hours.findSome? fun hour =>
      if offset = 0 ∧ hour < start.hour then none
      else fields.minutes.findSome? fun minute =>
        if offset = 0 ∧ hour = start.hour ∧ minute < start.minute then none
        else
          let at_ := fleetZonedInstant date.year date.month date.day hour minute zone
          if afterMs < at_ then some at_ else none

def previousFleetScheduleFire (atMs : ℤ) : Option ℤ := do
  let fields ← cadenceFields letters cadence
  let zone := intl.named (fleetScheduleZone intl timeZone)
  let stop := fleetZonedParts (atMs / 60000 * 60000) zone
  (List.range (maxSearchDays + 1)).findSome? fun (offset : ℕ) =>
    let number := dayOf stop.year stop.month (stop.day - offset)
    let date := dateOf number
    if !dayMatches fields date.month date.day (weekdayOf number) then none
    else fields.hours.reverse.findSome? fun hour =>
      if offset = 0 ∧ stop.hour < hour then none
      else fields.minutes.reverse.findSome? fun minute =>
        if offset = 0 ∧ hour = stop.hour ∧ stop.minute < minute then none
        else
          let at_ := fleetZonedInstant date.year date.month date.day hour minute zone
          if at_ ≤ atMs then some at_ else none

structure FleetScheduleMissed where
  run : Option ℤ
  skipped : Option ℤ

/-- The one fire a node owes that was not running since an instant: run within the grace, else skipped. -/
def fleetScheduleCatchUp (sinceMs nowMs : ℤ) (graceSec : Option ℤ) : FleetScheduleMissed :=
  match previousFleetScheduleFire letters intl cadence timeZone nowMs with
  | none => { run := none, skipped := none }
  | some latest =>
    if latest ≤ sinceMs then { run := none, skipped := none }
    else if nowMs - latest ≤ graceSec.getD 3600 * 1000 then { run := some latest, skipped := none }
    else { run := none, skipped := some latest }

end Fires

end EverWorks.Schedule
