import EverWorks.Lib.Utf16
import Mathlib.Data.List.Sort

/-!
The key by which two attempts are said to have failed alike: each failure's line without the numbers, ids and paths that
differ between two runs, all of them sorted.
-/

namespace EverWorks.Agents.LoopDetector
open Lib List

/-! ## Patterns

A pattern takes as much of the text as it can and leaves the rest. None of those here ever has to give back what it
took for a later part to match.
-/

abbrev Pattern := Utf16 → Option Utf16

namespace Pattern

def one (p : UInt16 → Bool) : Pattern
  | [] => none
  | unit :: rest => if p unit then some rest else none

def unit (u : UInt16) : Pattern := one (· == u)

def times (p : UInt16 → Bool) : ℕ → Pattern
  | 0 => some
  | n + 1 => fun text => (one p text).bind (times p n)

def many (p : UInt16 → Bool) : Pattern := fun text => (one p text).map (dropWhile p)

def optional (pattern : Pattern) : Pattern := fun text => some ((pattern text).getD text)

def sequence (patterns : List Pattern) : Pattern := fun text => patterns.foldlM (fun rest pattern => pattern rest) text

end Pattern

/-- `replace` with the flag `g`; a pattern sees the unit before it, and `skip` units belong to the last match. -/
def replaceFrom (pattern : Option UInt16 → Pattern) (new : Utf16) : Option UInt16 → ℕ → Utf16 → Utf16
  | _, _, [] => []
  | _, skip + 1, unit :: rest => replaceFrom pattern new (some unit) skip rest
  | previous, 0, unit :: rest =>
    match pattern previous (unit :: rest) with
    | some left => new ++ replaceFrom pattern new (some unit) (rest.length - left.length) rest
    | none => unit :: replaceFrom pattern new (some unit) 0 rest

def replaceAll (pattern : Option UInt16 → Pattern) (new : String) (text : Utf16) : Utf16 :=
  replaceFrom pattern (Utf16.ofString new) none 0 text

def isDigit (unit : UInt16) : Bool := 0x30 ≤ unit && unit ≤ 0x39

/-- `[0-9a-f]` -/
def isHex (unit : UInt16) : Bool := isDigit unit || (0x61 ≤ unit && unit ≤ 0x66)

/-- `[a-z]` -/
def isLower (unit : UInt16) : Bool := 0x61 ≤ unit && unit ≤ 0x7A

/-- `\w` -/
def isWord (unit : UInt16) : Bool := isDigit unit || isLower unit || (0x41 ≤ unit && unit ≤ 0x5A) || unit == 0x5F

/-- `[^\s:]` -/
def inPath (unit : UInt16) : Bool := !Utf16.isWhiteSpace unit && unit != 0x3A

open Pattern

def uuid : Pattern :=
  sequence [times isHex 8, unit 0x2D, times isHex 4, unit 0x2D, times isHex 4, unit 0x2D, times isHex 4, unit 0x2D,
    times isHex 12]

def timestamp : Pattern :=
  sequence [times isDigit 4, unit 0x2D, times isDigit 2, unit 0x2D, times isDigit 2, one fun u => u == 0x74 || u == 0x20,
    times isDigit 2, unit 0x3A, times isDigit 2, unit 0x3A, times isDigit 2,
    optional (sequence [unit 0x2E, many isDigit]), optional (unit 0x7A)]

def windowsPath : Pattern := sequence [one isLower, unit 0x3A, unit 0x5C, many inPath]

def posixPath (previous : Option UInt16) : Pattern := fun text =>
  (if previous.isNone then sequence [unit 0x2F, many inPath] text else none) <|>
    sequence [one Utf16.isWhiteSpace, unit 0x2F, many inPath] text

def hexBlob (previous : Option UInt16) : Pattern := fun text =>
  if previous.any isWord then none
  else (sequence [times isHex 7, optional (many isHex)] text).filter fun rest => !rest.head?.any isWord

def maxFingerprintChars : ℕ := 400

section
variable (toLowerCase : Utf16 → Utf16)

def normalizeFailureText (value : Utf16) : Utf16 :=
  let ids := replaceAll (fun _ => uuid) "<id>" (toLowerCase value)
  let times := replaceAll (fun _ => timestamp) "<ts>" ids
  let drives := replaceAll (fun _ => windowsPath) "<path>" times
  let paths := replaceAll posixPath " <path>" drives
  let blobs := replaceAll hexBlob "<hex>" paths
  let numbers := replaceAll (fun _ => many isDigit) "<n>" blobs
  let spaces := replaceAll (fun _ => many Utf16.isWhiteSpace) " " numbers
  (Utf16.trim spaces).take maxFingerprintChars

/-- A failure as it is reported, its values as the language writes them. -/
structure Failure where
  id : Option Utf16 := none
  outcome : Option Utf16 := none

def failurePart (failure : Failure) : Utf16 :=
  Utf16.trim (normalizeFailureText toLowerCase (failure.id.getD []) ++ 0x3D ::
    normalizeFailureText toLowerCase (failure.outcome.getD []))

def failureParts (failures : List (Option Failure)) : List Utf16 :=
  ((failures.filterMap id).map (failurePart toLowerCase)).filter fun part => 1 < part.length

/-- `sort` by code units, and `join`. -/
def fingerprintFailures (failures : List (Option Failure)) : Utf16 :=
  ([0x7C].intercalate ((failureParts toLowerCase failures).insertionSort (· ≤ ·))).take maxFingerprintChars

theorem perm_failureParts {failures others : List (Option Failure)} (perm : failures.Perm others) :
    (failureParts toLowerCase failures).Perm (failureParts toLowerCase others) :=
  ((perm.filterMap id).map _).filter _

instance : Std.Total (α := Utf16) (· ≤ ·) := ⟨fun _ _ => Std.le_total⟩

instance : IsTrans Utf16 (· ≤ ·) := ⟨fun _ _ _ => Std.le_trans⟩

theorem insertionSort_eq_of_perm {texts others : List Utf16} (perm : texts.Perm others) :
    texts.insertionSort (· ≤ ·) = others.insertionSort (· ≤ ·) := by
  have same := ((perm_insertionSort (· ≤ ·) texts).trans perm).trans (perm_insertionSort (· ≤ ·) others).symm
  exact same.eq_of_pairwise (fun _ _ _ _ => Std.le_antisymm) (pairwise_insertionSort _ _)
    (pairwise_insertionSort _ _)

theorem fingerprintFailures_perm {failures others : List (Option Failure)} (perm : failures.Perm others) :
    fingerprintFailures toLowerCase failures = fingerprintFailures toLowerCase others := by
  rw [fingerprintFailures, insertionSort_eq_of_perm (perm_failureParts toLowerCase perm), fingerprintFailures]

end

end EverWorks.Agents.LoopDetector
