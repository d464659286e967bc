import EverWorks.Lib.Numeral
import Mathlib.Data.List.Sort
import Mathlib.Data.List.Dedup

/-!
When a schedule runs: every N minutes, at a time of the day, or by a cron expression. `cadenceFields` is what it fires
on and `fleetScheduleCadenceToCron` what the platform's own schedules store of it.
-/

namespace EverWorks.Schedule
open Lib List

inductive FleetScheduleCadenceKind where
  | interval
  | cron
  | daily
  | weekdays
  deriving DecidableEq

/-- The time zone is always the computer's. -/
structure FleetScheduleCadence where
  kind : FleetScheduleCadenceKind
  expr : Option String := none
  at_ : Option String := none
  deriving DecidableEq

/-- The values each field of a cron expression allows. Sunday is 0. -/
structure FleetCronFields where
  minutes : List ℕ
  hours : List ℕ
  days : List ℕ
  months : List ℕ
  weekdays : List ℕ
  dayRestricted : Bool
  weekdayRestricted : Bool
  deriving DecidableEq

/-- `Number(text)` of a text of digits. -/
def numeral (text : String) : ℕ := (JsNumber.ofText text).index.getD 0

/-- `/^([01]\d|2[0-3]):([0-5]\d)$/`. -/
def isFleetScheduleClockTime (text : String) : Bool :=
  match text.toList with
  | [a, b, ':', c, d] =>
    ((a == '0' || a == '1') && b.isDigit || a == '2' && '0' ≤ b && b ≤ '3') &&
      '0' ≤ c && c ≤ '5' && d.isDigit
  | _ => false

/-- `/^\d{1,2}$/`. -/
def isShortNumeral (text : String) : Bool :=
  (text.length == 1 || text.length == 2) && text.toList.all Char.isDigit

def monthNames : List String :=
  ["jan", "feb", "mar", "apr", "may", "jun", "jul", "aug", "sep", "oct", "nov", "dec"]

def weekdayNames : List String := ["sun", "mon", "tue", "wed", "thu", "fri", "sat"]

section Parse

variable (letters : JsString.LowerCase)

def parseCronValue (token : String) (names : Option (List String)) (offset : ℕ) : Option ℕ :=
  if isShortNumeral token then some (numeral token)
  else names.bind fun names => (names.idxOf? (letters.lower token)).map (· + offset)

def parseCronRange (range : String) (stepped : Bool) (min max : ℕ) (names : Option (List String))
    (nameOffset : ℕ) : Option (ℕ × ℕ) :=
  if range = "*" then some (min, max)
  else if JsString.includes range "-" then
    match JsString.split range '-' with
    | [a, b] => do
      let start ← parseCronValue letters a names nameOffset
      let stop ← parseCronValue letters b names nameOffset
      return (start, stop)
    | _ => none
  else do
    let single ← parseCronValue letters range names nameOffset
    return (single, if stepped then max else single)

def parseCronStep : Option String → Option ℕ
  | none => some 1
  | some text => if isShortNumeral text ∧ 1 ≤ numeral text then some (numeral text) else none

def parseCronPart (part : String) (min max : ℕ) (names : Option (List String)) (nameOffset : ℕ) :
    Option (List ℕ) :=
  if part = "" then none
  else match JsString.split part '/' with
    | [range] => values range none
    | [range, stepText] => values range (some stepText)
    | _ => none
where
  values (range : String) (stepText : Option String) : Option (List ℕ) := do
    let step ← parseCronStep stepText
    let (first, last) ← parseCronRange letters range stepText.isSome min max names nameOffset
    if first < min ∨ max < last ∨ last < first then none
    else some (range' first ((last - first) / step + 1) step)

def parseCronField (field : String) (min max : ℕ) (names : Option (List String)) (nameOffset : ℕ) :
    Option (List ℕ) := do
  let parts ← (JsString.split field ',').mapM fun part => parseCronPart letters part min max names nameOffset
  return parts.flatten.dedup.insertionSort (· ≤ ·)

def parseFleetCron (expr : Option String) : Option FleetCronFields := do
  let expr ← expr
  if 120 < JsString.length expr then none
  else match JsString.splitSpaces (JsString.trim expr) with
    | [minute, hour, day, month, weekday] => do
      let minutes ← parseCronField letters minute 0 59 none 0
      let hours ← parseCronField letters hour 0 23 none 0
      let days ← parseCronField letters day 1 31 none 0
      let months ← parseCronField letters month 1 12 (some monthNames) 1
      let rawWeekdays ← parseCronField letters weekday 0 7 (some weekdayNames) 0
      let weekdays := (rawWeekdays.map fun day => if day = 7 then 0 else day).dedup.insertionSort (· ≤ ·)
      return {
        minutes, hours, days, months, weekdays
        dayRestricted := day ≠ "*" ∧ ¬ JsString.startsWith day "*/"
        weekdayRestricted := weekday ≠ "*" ∧ ¬ JsString.startsWith weekday "*/" }
    | _ => none

def longest : List ℕ := [31, 29, 31, 30, 31, 30, 31, 31, 30, 31, 30, 31]

def cronNeverFires (fields : FleetCronFields) : Bool :=
  if !fields.dayRestricted || fields.weekdayRestricted then false
  else fields.months.all fun month => fields.days.all fun day => longest.getD (month - 1) 0 < day

def intervalMinutes (minutes : JsNumber) : Option ℕ :=
  minutes.index.filter fun minutes => 1 ≤ minutes ∧ minutes ≤ 60

/-- `Number(value)`. -/
def toNumber (js : JsCoercions) : JsValue → JsNumber
  | .number value => value
  | .string text => .ofText text
  | .undefined => .nan
  | .null => 0
  | .bool value => if value then 1 else 0
  | value => js.toNumber value

def onTheComputersClock : JsValue → Bool
  | .undefined => true
  | .string zone => zone = "node"
  | _ => false

def parseFleetScheduleCadence (js : JsCoercions) (raw : JsValue) : Except String FleetScheduleCadence :=
  match raw with
  | .object _ =>
    if onTheComputersClock (raw.property "timezone") then
      match raw.property "kind" with
      | .string "interval" =>
        match intervalMinutes (toNumber js (raw.property "expr")) with
        | some minutes => .ok { kind := .interval, expr := some (toString minutes) }
        | none => .error "every N minutes takes 1 to 59 minutes (or hourly)"
      | .string "daily" => timed .daily
      | .string "weekdays" => timed .weekdays
      | .string "cron" =>
        let expr := ((raw.property "expr").text?.map fun text =>
          JsString.replaceSpaces (JsString.trim text)).getD ""
        match parseFleetCron letters (some expr) with
        | none => .error "a cron expression has five fields: minute hour day month weekday"
        | some fields =>
          if cronNeverFires fields then .error "that cron expression names a day that never comes"
          else .ok { kind := .cron, expr := some expr }
      | _ => .error "choose when it runs"
    else .error "a schedule runs on the computer's own clock"
  | _ => .error "choose when it runs"
where
  timed (kind : FleetScheduleCadenceKind) : Except String FleetScheduleCadence :=
    match (raw.property "at").text? with
    | some time =>
      if isFleetScheduleClockTime time then .ok { kind, at_ := some time }
      else .error "the time is HH:MM on a 24-hour clock"
    | none => .error "the time is HH:MM on a 24-hour clock"

def clockTime (at_ : Option String) : Option (ℕ × ℕ) := do
  let text ← at_
  if isFleetScheduleClockTime text then
    match (JsString.split text ':').map numeral with
    | [hour, minute] => some (hour, minute)
    | _ => none
  else none

def cadenceFields (cadence : FleetScheduleCadence) : Option FleetCronFields :=
  let base : FleetCronFields := {
    minutes := [0], hours := range 24, days := range' 1 31, months := range' 1 12
    weekdays := range 7, dayRestricted := false, weekdayRestricted := false }
  match cadence.kind with
  | .interval => do
    let minutes ← intervalMinutes ((cadence.expr.map JsNumber.ofText).getD .nan)
    if 60 ≤ minutes then base
    else some { base with minutes := range' 0 (59 / minutes + 1) minutes }
  | .daily => do
    let (hour, minute) ← clockTime cadence.at_
    return { base with minutes := [minute], hours := [hour] }
  | .weekdays => do
    let (hour, minute) ← clockTime cadence.at_
    return { base with
      minutes := [minute], hours := [hour], weekdays := [1, 2, 3, 4, 5], weekdayRestricted := true }
  | .cron => parseFleetCron letters cadence.expr

def fleetScheduleCadenceToCron (cadence : FleetScheduleCadence) : Option String :=
  match cadence.kind with
  | .interval => do
    let minutes ← intervalMinutes ((cadence.expr.map JsNumber.ofText).getD .nan)
    return if 60 ≤ minutes then "0 * * * *" else if minutes = 1 then "* * * * *"
      else "*/" ++ toString minutes ++ " * * * *"
  | .daily => do
    let (hour, minute) ← clockTime cadence.at_
    return toString minute ++ " " ++ toString hour ++ " * * *"
  | .weekdays => do
    let (hour, minute) ← clockTime cadence.at_
    return toString minute ++ " " ++ toString hour ++ " * * 1-5"
  | .cron => do
    let _ ← parseFleetCron letters cadence.expr
    cadence.expr

end Parse

end EverWorks.Schedule
