import EverWorks.Lib.Slices
import EverWorks.Lib.Utf16

/-!
`parseAppEnvDotenv`: a state machine over the code units of a paste. Every index is an absolute one
into the whole text, since a double-quoted value may run past its line.
-/

namespace EverWorks.AppEnv

open Lib Lib.Utf16

abbrev lineFeed : UInt16 := 0x0A
abbrev carriageReturn : UInt16 := 0x0D
abbrev tab : UInt16 := 0x09
abbrev space : UInt16 := 0x20
abbrev doubleQuote : UInt16 := 0x22
abbrev hash : UInt16 := 0x23
abbrev singleQuote : UInt16 := 0x27
abbrev equalsSign : UInt16 := 0x3D
abbrev backslash : UInt16 := 0x5C
abbrev byteOrderMark : UInt16 := 0xFEFF

def appEnvDotenvMaxBytes : Nat := 65536

def appEnvDotenvMaxLines : Nat := 500

def appEnvValueMaxBytes : Nat := 65536

/-- `export` -/
def exportWord : Utf16 := [0x65, 0x78, 0x70, 0x6F, 0x72, 0x74]

/-- `EVER_WORKS_` -/
def appEnvReservedPrefix : Utf16 := [0x45, 0x56, 0x45, 0x52, 0x5F, 0x57, 0x4F, 0x52, 0x4B, 0x53, 0x5F]

inductive AppEnvDotenvLineRefusalReason where
  | malformedLine
  | invalidName
  | reservedName
  | valueTooLarge
  deriving DecidableEq

inductive AppEnvDotenvLimitCode where
  | tooManyValues
  | valuesTooLarge
  deriving DecidableEq

structure AppEnvDotenvEntry where
  name : Utf16
  value : Utf16
  line : Nat
  deriving DecidableEq

structure AppEnvDotenvRefusal where
  line : Nat
  reason : AppEnvDotenvLineRefusalReason
  message : String
  deriving DecidableEq

structure AppEnvDotenvDuplicate where
  line : Nat
  name : Utf16
  winnerLine : Nat
  deriving DecidableEq

structure AppEnvDotenvLimits where
  code : AppEnvDotenvLimitCode
  limit : Nat
  actual : Nat
  message : String
  deriving DecidableEq

structure AppEnvDotenvParsed where
  entries : List AppEnvDotenvEntry
  refused : List AppEnvDotenvRefusal
  duplicates : List AppEnvDotenvDuplicate
  lines : Nat
  deriving DecidableEq

inductive AppEnvDotenvParseResult where
  | parsed (result : AppEnvDotenvParsed)
  | limits (refusal : AppEnvDotenvLimits)
  deriving DecidableEq

structure Occurrence where
  name : Utf16
  value : Utf16
  line : Nat
  deriving DecidableEq

inductive LineOutcome where
  | blank
  | refusal (reason : AppEnvDotenvLineRefusalReason)
  | entry (name value : Utf16)
  deriving DecidableEq

inductive ValueOutcome where
  | refusal (reason : AppEnvDotenvLineRefusalReason)
  | value (value : Utf16)
  deriving DecidableEq

structure LineScan where
  next : Nat
  newlines : Nat
  outcome : LineOutcome
  deriving DecidableEq

structure ValueScan where
  next : Nat
  newlines : Nat
  outcome : ValueOutcome
  deriving DecidableEq

def isHorizontal (unit : UInt16) : Bool := unit == tab || unit == space

def trimStart (text : Utf16) : Utf16 := text.dropWhile isHorizontal

def trimHorizontal (value : Utf16) : Utf16 := (trimStart (trimStart value).reverse).reverse

def skipHorizontalWhitespace (text : Utf16) (start stop : Nat) : Nat :=
  start + ((slice text start stop).takeWhile isHorizontal).length

/-- The match of `/^export[\t ]+/`. -/
def skipExportPrefix (text : Utf16) (start stop : Nat) : Nat :=
  let line := slice text start stop
  let gap := ((line.drop exportWord.length).takeWhile isHorizontal).length
  if exportWord.isPrefixOf line && decide (0 < gap) then start + (exportWord.length + gap) else start

def isUpper (unit : UInt16) : Bool := 0x41 ≤ unit && unit ≤ 0x5A

def isDigit (unit : UInt16) : Bool := 0x30 ≤ unit && unit ≤ 0x39

def isNameStart (unit : UInt16) : Bool := isUpper unit || unit == 0x5F

/-- `^[A-Z_][A-Z0-9_]{0,127}$` -/
def matchesNamePattern : Utf16 → Bool
  | [] => false
  | first :: rest =>
    isNameStart first && rest.all (fun unit => isNameStart unit || isDigit unit) &&
      decide (rest.length ≤ 127)

/-- Where `/[\t ]+#/` first matches. -/
def commentAt : Utf16 → Option Nat
  | [] => none
  | unit :: rest =>
    if isHorizontal unit && (trimStart rest).head? == some hash then some 0
    else (commentAt rest).map (· + 1)

def trimUnquotedValue (rest : Utf16) : Utf16 :=
  match commentAt rest with
  | some index => trimHorizontal (rest.take index)
  | none => trimHorizontal rest

def resolveEscape (escaped : UInt16) : Utf16 :=
  if escaped = 0x6E then [lineFeed]
  else if escaped = 0x74 then [tab]
  else if escaped = 0x72 then [carriageReturn]
  else if escaped = doubleQuote then [doubleQuote]
  else if escaped = backslash then [backslash]
  else [backslash, escaped]

def malformed (resume newlines : Nat) : ValueScan := ⟨resume, newlines, .refusal .malformedLine⟩

def pastBreak (text : Utf16) : Option Nat → Nat
  | none => text.length
  | some breakAt => breakAt + 1

def breakCount : Option Nat → Nat
  | none => 0
  | some _ => 1

def closeQuotedValue (text : Utf16) (index : Nat) (value : Utf16) (newlines : Nat) : ValueScan :=
  let breakAt := indexOf text lineFeed (index + 1)
  let next := pastBreak text breakAt
  let total := newlines + breakCount breakAt
  let remainder := trimHorizontal (slice text (index + 1) (breakAt.getD text.length))
  if remainder ≠ [] ∧ remainder.head? ≠ some hash then malformed next total
  else if appEnvValueMaxBytes < byteLength value then ⟨next, total, .refusal .valueTooLarge⟩
  else ⟨next, total, .value value⟩

/-- The loop of `scanQuotedValue` at `index`, with the value and the line breaks read so far. -/
def scanQuotedFrom (text : Utf16) (quote : UInt16) (index : Nat) (value : Utf16) (newlines : Nat) :
    ValueScan :=
  if h : index < text.length then
    let character := text[index]
    if quote = doubleQuote ∧ character = backslash then
      match text[index + 1]? with
      | none => malformed text.length newlines
      | some escaped =>
        if escaped = lineFeed then scanQuotedFrom text quote (index + 2) value (newlines + 1)
        else scanQuotedFrom text quote (index + 2) (value ++ resolveEscape escaped) newlines
    else if character = quote then closeQuotedValue text index value newlines
    else if character = lineFeed then
      if quote ≠ doubleQuote then malformed (index + 1) (newlines + 1)
      else scanQuotedFrom text quote (index + 1) (value ++ [lineFeed]) (newlines + 1)
    else scanQuotedFrom text quote (index + 1) (value ++ [character]) newlines
  else malformed text.length newlines
termination_by text.length - index

def scanQuotedValue (text : Utf16) (quoteStart : Nat) (quote : UInt16) : ValueScan :=
  scanQuotedFrom text quote (quoteStart + 1) [] 0

def scanValue (text : Utf16) (valueStart lineEnd next lineNewlines : Nat) : ValueScan :=
  let index := skipHorizontalWhitespace text valueStart lineEnd
  let quote := if index < lineEnd then text[index]? else none
  match quote with
  | some unit =>
    if unit = doubleQuote ∨ unit = singleQuote then scanQuotedValue text index unit
    else ⟨next, lineNewlines, .value (trimUnquotedValue (slice text index lineEnd))⟩
  | none => ⟨next, lineNewlines, .value (trimUnquotedValue (slice text index lineEnd))⟩

def scanLine (text : Utf16) (start : Nat) : LineScan :=
  let lineEnd := indexOf text lineFeed start
  let stop := lineEnd.getD text.length
  let next := pastBreak text lineEnd
  let lineNewlines := breakCount lineEnd
  let afterIndent := skipHorizontalWhitespace text start stop
  if stop ≤ afterIndent ∨ text[afterIndent]? = some hash then ⟨next, lineNewlines, .blank⟩
  else
    let bodyStart := skipExportPrefix text afterIndent stop
    match indexOf text equalsSign bodyStart with
    | none => ⟨next, lineNewlines, .refusal .malformedLine⟩
    | some equals =>
      if stop ≤ equals then ⟨next, lineNewlines, .refusal .malformedLine⟩
      else
        let name := trimHorizontal (slice text bodyStart equals)
        if !matchesNamePattern name then ⟨next, lineNewlines, .refusal .invalidName⟩
        else if appEnvReservedPrefix.isPrefixOf name then ⟨next, lineNewlines, .refusal .reservedName⟩
        else
          let value := scanValue text (equals + 1) stop next lineNewlines
          match value.outcome with
          | .refusal reason => ⟨value.next, value.newlines, .refusal reason⟩
          | .value found => ⟨value.next, value.newlines, .entry name found⟩

def stripBom : Utf16 → Utf16
  | [] => []
  | unit :: rest => if unit = byteOrderMark then rest else unit :: rest

def normalizeNewlines : Utf16 → Utf16
  | [] => []
  | [unit] => if unit = carriageReturn then [lineFeed] else [unit]
  | unit :: next :: rest =>
    if unit = carriageReturn then
      if next = lineFeed then lineFeed :: normalizeNewlines rest
      else lineFeed :: normalizeNewlines (next :: rest)
    else unit :: normalizeNewlines (next :: rest)

def countLines (normalized : Utf16) : Nat :=
  if normalized.length = 0 then 0
  else if normalized.getLast? = some lineFeed then normalized.count lineFeed
  else normalized.count lineFeed + 1

def limitRefusal (code : AppEnvDotenvLimitCode) (limit actual : Nat) : AppEnvDotenvLimits :=
  let subject := match code with
    | .valuesTooLarge => "bytes"
    | .tooManyValues => "lines"
  ⟨code, limit, actual, s!"The pasted text has {actual} {subject}, more than the {limit} allowed."⟩

def refusalMessage (line : Nat) : AppEnvDotenvLineRefusalReason → String
  | .malformedLine => s!"Line {line} isn't a `NAME=value` line."
  | .invalidName =>
    s!"Line {line} doesn't start with a valid environment variable name (names match " ++
      "^[A-Z_][A-Z0-9_]\x7b0,127\x7d$)."
  | .reservedName => s!"Line {line} uses `EVER_WORKS_`, which is reserved for Ever Works."
  | .valueTooLarge => s!"Line {line} has a value larger than {appEnvValueMaxBytes} bytes."

/-- The loop of `parseAppEnvDotenv` from `cursor` on, which always moves forward. -/
def scanLines (text : Utf16) (cursor lineNumber : Nat) (occurrences : List Occurrence)
    (refused : List AppEnvDotenvRefusal) : List Occurrence × List AppEnvDotenvRefusal :=
  if cursor < text.length then
    let scan := scanLine text cursor
    let occurrences := match scan.outcome with
      | .entry name value => occurrences ++ [⟨name, value, lineNumber⟩]
      | _ => occurrences
    let refused := match scan.outcome with
      | .refusal reason => refused ++ [⟨lineNumber, reason, refusalMessage lineNumber reason⟩]
      | _ => refused
    scanLines text (if cursor < scan.next then scan.next else text.length)
      (lineNumber + scan.newlines) occurrences refused
  else (occurrences, refused)
termination_by text.length - cursor
decreasing_by split <;> omega

/-- The first loop of `resolveDuplicates`: names as first seen, and the winner of each so far. -/
def collectWinners : List Utf16 × (Utf16 → Option Occurrence) → List Occurrence →
    List Utf16 × (Utf16 → Option Occurrence)
  | collected, [] => collected
  | (firstSeen, winners), occurrence :: rest =>
    collectWinners
      (if (winners occurrence.name).isNone then firstSeen ++ [occurrence.name] else firstSeen,
        fun name => if name = occurrence.name then some occurrence else winners name) rest

def superseded (winners : Utf16 → Option Occurrence) (occurrence : Occurrence) :
    Option AppEnvDotenvDuplicate :=
  match winners occurrence.name with
  | some winner =>
    if winner.line ≠ occurrence.line then some ⟨occurrence.line, occurrence.name, winner.line⟩ else none
  | none => none

def resolveDuplicates (occurrences : List Occurrence) :
    List AppEnvDotenvEntry × List AppEnvDotenvDuplicate :=
  let (firstSeen, winners) := collectWinners ([], fun _ => none) occurrences
  (firstSeen.filterMap fun name => (winners name).map fun winner => ⟨name, winner.value, winner.line⟩,
    occurrences.filterMap (superseded winners))

def parseAppEnvDotenv (source : Utf16) : AppEnvDotenvParseResult :=
  let bytes := byteLength source
  if appEnvDotenvMaxBytes < bytes then
    .limits (limitRefusal .valuesTooLarge appEnvDotenvMaxBytes bytes)
  else
    let normalized := normalizeNewlines (stripBom source)
    let lines := countLines normalized
    if appEnvDotenvMaxLines < lines then
      .limits (limitRefusal .tooManyValues appEnvDotenvMaxLines lines)
    else
      let (occurrences, refused) := scanLines normalized 0 1 [] []
      let (entries, duplicates) := resolveDuplicates occurrences
      .parsed ⟨entries, refused, duplicates, lines⟩

end EverWorks.AppEnv
