import EverWorks.Lib.Calendar
import EverWorks.Lib.Numeral

/-!
The platform fires its own schedules by a matcher of its own, always in UTC, and finds the next fire of an
expression by trying every minute of the coming 31 days. What the matcher throws is `none` here.
-/

namespace EverWorks.Schedule
open Lib Lib.Calendar JsString

structure FieldSpec where
  min : ℕ
  max : ℕ
  aliases : List (String × ℕ) := []

def monthAliases : List (String × ℕ) :=
  [("JAN", 1), ("FEB", 2), ("MAR", 3), ("APR", 4), ("MAY", 5), ("JUN", 6), ("JUL", 7), ("AUG", 8), ("SEP", 9),
    ("OCT", 10), ("NOV", 11), ("DEC", 12)]

def dowAliases : List (String × ℕ) :=
  [("SUN", 0), ("MON", 1), ("TUE", 2), ("WED", 3), ("THU", 4), ("FRI", 5), ("SAT", 6)]

def minuteSpec : FieldSpec := { min := 0, max := 59 }
def hourSpec : FieldSpec := { min := 0, max := 23 }
def domSpec : FieldSpec := { min := 1, max := 31 }
def monthSpec : FieldSpec := { min := 1, max := 12, aliases := monthAliases }
def dowSpec : FieldSpec := { min := 0, max := 7, aliases := dowAliases }

/-- The values each field allows, as sets. -/
structure ParsedCron where
  minute : List ℕ
  hour : List ℕ
  dayOfMonth : List ℕ
  month : List ℕ
  dayOfWeek : List ℕ
  domRestricted : Bool
  dowRestricted : Bool

section Parse

variable (letters : JsString.LetterCase)

def resolveAlias (token : String) (spec : FieldSpec) : String :=
  match spec.aliases.lookup (letters.upper token) with
  | some value => toString value
  | none => token

def parseInteger (token : String) (spec : FieldSpec) : Option ℕ :=
  (JsNumber.ofText (resolveAlias letters token spec)).index.filter fun n => spec.min ≤ n ∧ n ≤ spec.max

def parseStep : Option String → Option ℕ
  | none => some 1
  | some stepRaw => (JsNumber.ofText stepRaw).index.filter fun step => 1 ≤ step

def parseRange (rangeRaw : String) (stepped : Bool) (spec : FieldSpec) : Option (ℕ × ℕ) :=
  if rangeRaw = "*" ∨ rangeRaw = "" then some (spec.min, spec.max)
  else if includes rangeRaw "-" then
    match split rangeRaw '-' with
    | a :: b :: _ => do
      let start ← parseInteger letters a spec
      let stop ← parseInteger letters b spec
      if stop < start then none else some (start, stop)
    | _ => none
  else do
    let single ← parseInteger letters rangeRaw spec
    return (single, if stepped then spec.max else single)

def parseFieldPart (part : String) (spec : FieldSpec) : Option (List ℕ) :=
  match split part '/' with
  | rangeRaw :: more => do
    let step ← parseStep more.head?
    let (start, stop) ← parseRange letters rangeRaw more.head?.isSome spec
    return List.range' start ((stop - start) / step + 1) step
  | [] => none

def parseField (field : String) (spec : FieldSpec) : Option (List ℕ) := do
  let parts := ((split field ',').map trim).filter (· ≠ "")
  let out ← parts.mapM fun part => parseFieldPart letters part spec
  if out.flatten = [] then none else some out.flatten

def parseCron (cron : String) : Option ParsedCron :=
  match splitSpaces (trim cron) with
  | [minute, hour, dom, month, dow] => do
    let minutes ← parseField letters minute minuteSpec
    let hours ← parseField letters hour hourSpec
    let daysOfMonth ← parseField letters dom domSpec
    let months ← parseField letters month monthSpec
    let daysOfWeek ← parseField letters dow dowSpec
    return {
      minute := minutes
      hour := hours
      dayOfMonth := daysOfMonth
      month := months
      -- Sunday is 0 and 7.
      dayOfWeek := if 7 ∈ daysOfWeek then daysOfWeek.filter (· ≠ 7) ++ [0] else daysOfWeek
      domRestricted := dom ≠ "*"
      dowRestricted := dow ≠ "*" }
  | _ => none

def matchesParsed (parsed : ParsedCron) (ms : ℤ) : Bool :=
  let date := dateOf (ms / 86400000)
  let domMatch := parsed.dayOfMonth.contains date.day
  let dowMatch := parsed.dayOfWeek.contains (weekdayOf (ms / 86400000))
  if !parsed.minute.contains (ms / 60000 % 60).toNat then false
  else if !parsed.hour.contains (ms / 3600000 % 24).toNat then false
  else if !parsed.month.contains date.month then false
  else if parsed.domRestricted && parsed.dowRestricted then domMatch || dowMatch
  else domMatch && dowMatch

def maxLookaheadMinutes : ℕ := 31 * 24 * 60

def computeNextCronFire (expr : Option String) (from_ : ℤ) : Option ℤ := do
  let expr ← expr
  if expr = "" then none
  else do
    let parsed ← parseCron letters expr
    let cursor := from_ / 60000 * 60000 + 60000
    ((List.range maxLookaheadMinutes).find? fun (i : ℕ) => matchesParsed parsed (cursor + i * 60000)).map
      fun (i : ℕ) => cursor + i * 60000

end Parse

end EverWorks.Schedule
