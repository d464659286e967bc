import EverWorks.Lib.Json
import EverWorks.Lib.Replace
import Mathlib.Data.List.Sort

/-!
`redactCredentialValues` takes resolved secrets out of what travels back to the model: a long secret wherever it
stands, a short one, in credential mode, where it is the whole text.
-/

namespace EverWorks.Policy
open Lib List

inductive CredentialRedactionMode where
  | text | credential
  deriving DecidableEq

abbrev Credential := Utf16 × Utf16

def maxWalkDepth : Nat := 8
def minRedactableSecretLength : Nat := 8
def credentialModeWalkDepth : Nat := 64

def credentialRedactionToken (key : Utf16) : Utf16 :=
  ascii "[redacted:cred." ++ key ++ ascii "]"

structure Redactor where
  strict : Bool
  /-- Long secrets, the longest first. -/
  entries : List Credential
  /-- Short ones, which only count as a whole text. -/
  short : List Credential

/-- `sort` keeps the order of secrets of one length. -/
def Redactor.of (credentials : List Credential) (mode : CredentialRedactionMode) : Redactor :=
  let strict := mode = .credential
  let resolved := credentials.filter fun entry => entry.2 ≠ []
  { strict
    entries := (resolved.filter fun entry => minRedactableSecretLength ≤ entry.2.length).insertionSort
      fun a b => b.2.length ≤ a.2.length
    short := if strict then resolved.filter fun entry => entry.2.length < minRedactableSecretLength else [] }

namespace Redactor

section
variable (redactor : Redactor)

def leakedKeyIn (input : Utf16) : Option Utf16 :=
  ((redactor.short.find? fun entry => input = entry.2).or
    (redactor.entries.find? fun entry => entry.2 <:+: input)).map Prod.fst

def scrubEntries (entries : List Credential) (input : Utf16) : Utf16 :=
  entries.foldl (fun out entry =>
    if entry.2 <:+: out then Replace.replaceAll entry.2 (credentialRedactionToken entry.1) out else out) input

def scrubString (input : Utf16) : Utf16 :=
  match redactor.short.find? fun entry => input = entry.2 with
  | some entry => credentialRedactionToken entry.1
  | none => scrubEntries redactor.entries input

/-- The nodes of a stack, whose top is the head, once an array's items or an object's values are pushed. -/
def push (nodes stack : List JsonValue) : List JsonValue := nodes.reverse ++ stack

def values (fields : JsonRecord) : List JsonValue := fields.map Prod.snd

theorem sizeOf_push (nodes stack : List JsonValue) :
    ((push nodes stack).map sizeOf).sum ≤ sizeOf nodes + (stack.map sizeOf).sum := by
  have nodes_le : (nodes.map sizeOf).sum ≤ sizeOf nodes := by
    induction nodes with
    | nil => simp
    | cons node nodes ih =>
      simp only [map_cons, sum_cons, cons.sizeOf_spec]
      omega
  simp only [push, map_append, sum_append, map_reverse, sum_reverse]
  omega

theorem sizeOf_values (fields : JsonRecord) : sizeOf (values fields) ≤ sizeOf fields := by
  induction fields with
  | nil => simp [values]
  | cons field fields ih =>
    obtain ⟨key, value⟩ := field
    simp only [values, map_cons, cons.sizeOf_spec, Prod.mk.sizeOf_spec] at ih ⊢
    omega

def findLeakedKey : List JsonValue → Option Utf16
  | [] => none
  | .string text :: stack =>
    match redactor.leakedKeyIn text with
    | some key => some key
    | none => findLeakedKey stack
  | .array items :: stack => findLeakedKey (push items stack)
  | .object fields :: stack =>
    match fields.findSome? fun field => redactor.leakedKeyIn field.1 with
    | some key => some key
    | none => findLeakedKey (push (values fields) stack)
  | .null :: stack | .bool _ :: stack | .number _ :: stack => findLeakedKey stack
termination_by stack => (stack.map sizeOf).sum
decreasing_by
  · simp
  · have := sizeOf_push items stack
    simp only [map_cons, sum_cons, JsonValue.array.sizeOf_spec]
    omega
  · have := sizeOf_push (values fields) stack
    have := sizeOf_values fields
    simp only [map_cons, sum_cons, JsonValue.object.sizeOf_spec]
    omega
  all_goals simp

def tooDeep (node : JsonValue) : JsonValue :=
  match redactor.findLeakedKey [node] with
  | none => node
  | some key => .string (credentialRedactionToken key)

def isTooDeep (level : Nat) : Bool := redactor.strict && credentialModeWalkDepth < level

def isOutOfReach (level : Nat) : Bool := !redactor.strict && maxWalkDepth < level

mutual

def walk (level : Nat) : JsonValue → JsonValue
  | .string text => .string (if redactor.isOutOfReach level then text else redactor.scrubString text)
  | .array items =>
    if redactor.isTooDeep level then redactor.tooDeep (.array items)
    else if redactor.isOutOfReach level then .array items
    else .array (walkItems (level + 1) items)
  | .object fields =>
    if redactor.isTooDeep level then redactor.tooDeep (.object fields)
    else if redactor.isOutOfReach level then .object fields
    else .object (walkFields (level + 1) [] fields)
  | other => other

def walkItems (level : Nat) : List JsonValue → List JsonValue
  | [] => []
  | item :: items => walk level item :: walkItems level items

def walkFields (level : Nat) (out : JsonRecord) : JsonRecord → JsonRecord
  | [] => out
  | (key, item) :: fields =>
    walkFields level
      (Json.assign out (if redactor.strict then redactor.scrubString key else key) (walk level item)) fields

end

end

end Redactor

def redactCredentialValues (value : JsonValue) (credentials : List Credential) (mode : CredentialRedactionMode) :
    JsonValue :=
  let redactor := Redactor.of credentials mode
  if redactor.entries.isEmpty && redactor.short.isEmpty then value else redactor.walk 0 value

end EverWorks.Policy
