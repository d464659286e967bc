import EverWorks.Credits.AllowanceMonth
import EverWorks.Lib.WallClock

/-!
A day, a week or a month of calendar dates in a time zone, as a half-open stretch of instants. The dates are texts; only
the step from a date to the instant it begins at reads the time zone. Instants are milliseconds.
-/

namespace EverWorks.Agents.RunWindow
open Lib Calendar IsoDate Credits

/-- A time zone by its offset from UTC at each instant: whole seconds, less than a day. It changes by whole minutes, by
three hours at most, and once in 48 hours at most. -/
structure TimeZone where
  offset : ℤ → ℤ
  whole : ∀ t, offset t % 1000 = 0
  bounded : ∀ t, -msPerDay < offset t ∧ offset t < msPerDay
  minutes : ∀ t, (offset t - offset (t - 1)) % 60000 = 0
  small : ∀ t, |offset t - offset (t - 1)| ≤ 10800000
  spaced : ∀ {s t}, s < t → offset (s - 1) ≠ offset s → offset (t - 1) ≠ offset t → s + 2 * msPerDay ≤ t

def TimeZone.utc : TimeZone where
  offset _ := 0
  whole _ := rfl
  bounded _ := by decide
  minutes _ := rfl
  small _ := by decide
  spaced _ same := absurd rfl same

namespace TimeZone

def localTime (zone : TimeZone) (instant : ℤ) : ℤ := instant + zone.offset instant

def localDay (zone : TimeZone) (instant : ℤ) : ℤ := zone.localTime instant / msPerDay

end TimeZone

def digitValue (c : Char) : ℕ := c.toNat - 48

/-- `Number` of a text of digits. -/
def number (digits : List Char) : ℕ := digits.foldl (fun n c => 10 * n + digitValue c) 0

/-- `DATE_PATTERN` and what its groups hold. -/
def dateFields : List Char → Option (ℕ × ℕ × ℕ)
  | [a, b, c, d, '-', e, f, '-', g, h] =>
    if [a, b, c, d, e, f, g, h].all Char.isDigit then some (number [a, b, c, d], number [e, f], number [g, h])
    else none
  | _ => none

/-- A date that comes back as it was from a round trip, in which a month or a day too many rolls over. -/
def isRunLedgerCalendarDate (value : List Char) : Bool :=
  match dateFields value with
  | some (year, month, day) =>
    let probe := dateOf (utcDay year (month - 1) day)
    decide (probe.year = year ∧ probe.month = month ∧ probe.day = day)
  | none => false

def parseCalendarDate (value : List Char) : Option Date :=
  if isRunLedgerCalendarDate value then (dateFields value).map fun (year, month, day) => ⟨year, month, day⟩ else none

def utcYear (year : ℤ) : ℤ := if 0 ≤ year ∧ year ≤ 99 then 1900 + year else year

/-- `Date.UTC` at midnight. -/
def dateUTC (year month day : ℤ) : ℤ := utcDay (utcYear year) month day * msPerDay

def formatCalendarDate (y m d : ℤ) : List Char := (isoDate (dateOf (dateUTC y (m - 1) d / msPerDay))).take 10

/-- `none` where the code throws. -/
def addCalendarDays (date : List Char) (days : ℤ) : Option (List Char) :=
  (parseCalendarDate date).map fun parts => formatCalendarDate parts.year parts.month (parts.day + days)

def addCalendarMonths (date : List Char) (months : ℤ) : Option (List Char) :=
  (parseCalendarDate date).map fun parts =>
    let firstOfTarget := dateOf (dateUTC parts.year ((parts.month : ℤ) - 1 + months) 1 / msPerDay)
    let lastDay := (dateOf (dateUTC firstOfTarget.year firstOfTarget.month 0 / msPerDay)).day
    formatCalendarDate firstOfTarget.year firstOfTarget.month (min parts.day lastDay)

def intlYear (year : ℤ) : ℕ := if 1 ≤ year then year.toNat else (1 - year).toNat

def calendarDateInTimezone (instant : ℤ) (zone : TimeZone) : List Char :=
  let date := dateOf (zone.localDay instant)
  Nat.toDigits 10 (intlYear date.year) ++ '-' :: pad 2 date.month ++ '-' :: pad 2 date.day

def timezoneOffsetMs (instant : ℤ) (zone : TimeZone) : ℤ :=
  let date := dateOf (zone.localDay instant)
  let asUtc := dateUTC (intlYear date.year) (date.month - 1) date.day +
    zone.localTime instant % msPerDay / 1000 * 1000
  asUtc - instant / 1000 * 1000

def startOfWallClock (wallClock : ℤ) (zone : TimeZone) : ℤ :=
  let firstGuess := wallClock - timezoneOffsetMs wallClock zone
  wallClock - timezoneOffsetMs firstGuess zone

def startOfCalendarDate (date : List Char) (zone : TimeZone) : Option ℤ :=
  (parseCalendarDate date).map fun parts => startOfWallClock (dateUTC parts.year (parts.month - 1) parts.day) zone

def startOfIsoWeek (date : List Char) : Option (List Char) :=
  (parseCalendarDate date).bind fun parts =>
    let weekday := weekdayOf (dateUTC parts.year (parts.month - 1) parts.day / msPerDay)
    let sinceMonday := (weekday + 6) % 7
    addCalendarDays date (-sinceMonday)

def startOfCalendarMonth (date : List Char) : List Char := date.take 8 ++ ['0', '1']

inductive RunLedgerGranularity where
  | day | week | month
  deriving DecidableEq

def RunLedgerGranularity.ofText : String → Option RunLedgerGranularity
  | "day" => some .day
  | "week" => some .week
  | "month" => some .month
  | _ => none

structure ResolveRunWindowInput where
  granularity : Option String := none
  date : Option (List Char) := none
  timezone : Option String := none

structure RunLedgerWindow where
  granularity : RunLedgerGranularity
  anchorDate : List Char
  from_ : ℤ
  to_ : ℤ
  timezone : String
  clamped : Bool

def runLedgerReachBackMonths : ℤ := 12
def runLedgerReachForwardDays : ℤ := 7

def reachableRange (now : ℤ) (zone : TimeZone) : Option (List Char × List Char) := do
  let today := calendarDateInTimezone now zone
  let earliest ← addCalendarMonths today (-runLedgerReachBackMonths)
  let latest ← addCalendarDays today runLedgerReachForwardDays
  return (earliest, latest)

def knownTimezone (intl : String → Option TimeZone) (timezone : Option String) : Option (String × TimeZone) :=
  timezone.bind fun name =>
    if name.length = 0 ∨ 64 < name.length then none else (intl name).map fun zone => (name, zone)

def windowDates (granularity : RunLedgerGranularity) (anchorDate : List Char) : Option (List Char × List Char) :=
  match granularity with
  | .week => do
    let startDate ← startOfIsoWeek anchorDate
    let endDate ← addCalendarDays startDate 7
    return (startDate, endDate)
  | .month => do
    let startDate := startOfCalendarMonth anchorDate
    let endDate ← addCalendarMonths startDate 1
    return (startDate, endDate)
  | .day => do
    let endDate ← addCalendarDays anchorDate 1
    return (anchorDate, endDate)

def clampAnchor (anchorDate earliest latest : List Char) : List Char × Bool :=
  if anchorDate < earliest then (earliest, true)
  else if latest < anchorDate then (latest, true)
  else (anchorDate, false)

def resolveRunWindow (intl : String → Option TimeZone) (input : ResolveRunWindowInput) (now : ℤ) :
    Option RunLedgerWindow := do
  let (timezone, zone) := (knownTimezone intl input.timezone).getD ("UTC", .utc)
  let granularity := (input.granularity.bind RunLedgerGranularity.ofText).getD .day
  let (earliest, latest) ← reachableRange now zone
  let asked := (input.date.filter isRunLedgerCalendarDate).getD (calendarDateInTimezone now zone)
  let (anchorDate, clamped) := clampAnchor asked earliest latest
  let (startDate, endDate) ← windowDates granularity anchorDate
  let from_ ← startOfCalendarDate startDate zone
  let to_ ← startOfCalendarDate endDate zone
  return { granularity, anchorDate, from_, to_, timezone, clamped }

end EverWorks.Agents.RunWindow
