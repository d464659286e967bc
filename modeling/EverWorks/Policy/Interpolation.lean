import EverWorks.Policy.CredentialRefs
import EverWorks.Policy.Redaction

/-!
Just before a tool is called the references in its arguments are replaced by the credentials they name. Below a depth
a reference is left as it is and not reported.
-/

namespace EverWorks.Policy
open Lib List

/-- `Set.add`: an element already in the set keeps its place. -/
def addKey (keys : List Utf16) (key : Utf16) : List Utf16 := if key ∈ keys then keys else keys ++ [key]

def refKeys (text : Utf16) : List Utf16 :=
  (pieces text).filterMap fun
    | .reference _ key => some key
    | .unit _ => none

mutual

def visit (level : ℕ) (node : JsonValue) (out : List Utf16) : List Utf16 :=
  match node with
  | .string text => if maxWalkDepth < level then out else (refKeys text).foldl addKey out
  | .array items => if maxWalkDepth < level then out else visitItems (level + 1) items out
  | .object fields => if maxWalkDepth < level then out else visitValues (level + 1) fields out
  | .null | .bool _ | .number _ => out

def visitItems (level : ℕ) (items : List JsonValue) (out : List Utf16) : List Utf16 :=
  match items with
  | [] => out
  | item :: items => visitItems level items (visit level item out)

def visitValues (level : ℕ) (fields : JsonRecord) (out : List Utf16) : List Utf16 :=
  match fields with
  | [] => out
  | (_, item) :: fields => visitValues level fields (visit level item out)

end

def collectCredentialRefs (value : JsonValue) (depth : ℕ) : List Utf16 := visit depth value []

structure Tally where
  used : List Utf16
  missing : List Utf16

structure InterpolationResult where
  value : JsonValue
  used : List Utf16
  missing : List Utf16

section Walk

-- `credentials.get`.
variable (credentials : Utf16 → Option Utf16)

def Tally.read (tally : Tally) (key : Utf16) : Tally :=
  match credentials key with
  | none => { tally with missing := addKey tally.missing key }
  | some _ => { tally with used := addKey tally.used key }

/-- `input.replace` with the pattern: what each match is replaced by. -/
def replacePieces : List Piece → Tally → Utf16 × Tally
  | [], tally => ([], tally)
  | .unit unit :: rest, tally =>
    let (out, tally) := replacePieces rest tally
    (unit :: out, tally)
  | .reference whole key :: rest, tally =>
    let (out, after) := replacePieces rest (tally.read credentials key)
    ((credentials key).getD whole ++ out, after)

def substitute (input : Utf16) (level : ℕ) (tally : Tally) : Utf16 × Tally :=
  if maxWalkDepth < level then (input, tally) else replacePieces credentials (pieces input) tally

mutual

def interpolate (level : ℕ) (node : JsonValue) (tally : Tally) : JsonValue × Tally :=
  match node with
  | .string text =>
    let (out, tally) := substitute credentials text level tally
    (.string out, tally)
  | .array items =>
    let (outs, tally) := interpolateItems (level + 1) items tally
    (.array outs, tally)
  | .object fields =>
    let (outs, tally) := interpolateFields (level + 1) [] fields tally
    (.object outs, tally)
  | .null => (.null, tally)
  | .bool value => (.bool value, tally)
  | .number value => (.number value, tally)

def interpolateItems (level : ℕ) (items : List JsonValue) (tally : Tally) : List JsonValue × Tally :=
  match items with
  | [] => ([], tally)
  | item :: items =>
    let (out, tally) := interpolate level item tally
    let (outs, tally) := interpolateItems level items tally
    (out :: outs, tally)

def interpolateFields (level : ℕ) (out : JsonRecord) (fields : JsonRecord) (tally : Tally) : JsonRecord × Tally :=
  match fields with
  | [] => (out, tally)
  | (key, item) :: fields =>
    let (value, tally) := interpolate level item tally
    interpolateFields level (Json.assign out key value) fields tally

end

def interpolateCredentials (value : JsonValue) : InterpolationResult :=
  let (out, tally) := interpolate credentials 0 value { used := [], missing := [] }
  { value := out, used := tally.used, missing := tally.missing }

end Walk

mutual

def keysWithin (level : ℕ) : JsonValue → List Utf16
  | .string text => if maxWalkDepth < level then [] else refKeys text
  | .array items => keysWithinItems (level + 1) items
  | .object fields => keysWithinValues (level + 1) fields
  | .null | .bool _ | .number _ => []

def keysWithinItems (level : ℕ) : List JsonValue → List Utf16
  | [] => []
  | item :: items => keysWithin level item ++ keysWithinItems level items

def keysWithinValues (level : ℕ) : JsonRecord → List Utf16
  | [] => []
  | (_, item) :: fields => keysWithin level item ++ keysWithinValues level fields

end

mutual

theorem keysWithin_deep {level : ℕ} (deep : maxWalkDepth < level) : (node : JsonValue) → keysWithin level node = []
  | .string text => by rw [keysWithin, if_pos deep]
  | .array items => by rw [keysWithin, keysWithinItems_deep (Nat.lt_succ_of_lt deep)]
  | .object fields => by rw [keysWithin, keysWithinValues_deep (Nat.lt_succ_of_lt deep)]
  | .null => rfl
  | .bool _ => rfl
  | .number _ => rfl

theorem keysWithinItems_deep {level : ℕ} (deep : maxWalkDepth < level) :
    (items : List JsonValue) → keysWithinItems level items = []
  | [] => rfl
  | item :: items => by rw [keysWithinItems, keysWithin_deep deep, keysWithinItems_deep deep]; rfl

theorem keysWithinValues_deep {level : ℕ} (deep : maxWalkDepth < level) :
    (fields : JsonRecord) → keysWithinValues level fields = []
  | [] => rfl
  | (_, item) :: fields => by rw [keysWithinValues, keysWithin_deep deep, keysWithinValues_deep deep]; rfl

end

mutual

theorem visit_eq (level : ℕ) (out : List Utf16) :
    (node : JsonValue) → visit level node out = (keysWithin level node).foldl addKey out
  | .string text => by
    rw [visit, keysWithin]
    split <;> rfl
  | .array items => by
    rw [visit, keysWithin]
    split
    case isTrue deep => rw [keysWithinItems_deep (Nat.lt_succ_of_lt deep)]; rfl
    case isFalse => exact visitItems_eq (level + 1) out items
  | .object fields => by
    rw [visit, keysWithin]
    split
    case isTrue deep => rw [keysWithinValues_deep (Nat.lt_succ_of_lt deep)]; rfl
    case isFalse => exact visitValues_eq (level + 1) out fields
  | .null => rfl
  | .bool _ => rfl
  | .number _ => rfl

theorem visitItems_eq (level : ℕ) (out : List Utf16) :
    (items : List JsonValue) → visitItems level items out = (keysWithinItems level items).foldl addKey out
  | [] => rfl
  | item :: items => by
    rw [visitItems, visitItems_eq, visit_eq, keysWithinItems, foldl_append]

theorem visitValues_eq (level : ℕ) (out : List Utf16) :
    (fields : JsonRecord) → visitValues level fields out = (keysWithinValues level fields).foldl addKey out
  | [] => rfl
  | (_, item) :: fields => by
    rw [visitValues, visitValues_eq, visit_eq, keysWithinValues, foldl_append]

end

section Tally

variable {credentials : Utf16 → Option Utf16}

variable {keys : List Utf16}

theorem mem_addKey {key other : Utf16} : other ∈ addKey keys key ↔ other ∈ keys ∨ other = key := by
  unfold addKey
  split
  case isTrue member =>
    constructor
    · exact .inl
    · rintro (earlier | rfl)
      · exact earlier
      · exact member
  case isFalse => rw [mem_append, mem_singleton]

variable {key : Utf16}

theorem mem_foldl_addKey {keys out : List Utf16} :
    key ∈ keys.foldl addKey out ↔ key ∈ out ∨ key ∈ keys := by
  induction keys generalizing out with
  | nil => simp
  | cons first keys ih => rw [foldl_cons, ih, mem_addKey, mem_cons, or_assoc]

variable {tally : Tally}

theorem Tally.mem_read_used {key other : Utf16} : other ∈ (tally.read credentials key).used ↔
    other ∈ tally.used ∨ other = key ∧ credentials key ≠ none := by
  unfold Tally.read
  split
  case h_1 none_ => simp [none_]
  case h_2 value some_ => simp [mem_addKey, some_]

theorem Tally.mem_read_missing {key other : Utf16} :
    other ∈ (tally.read credentials key).missing ↔ other ∈ tally.missing ∨ other = key ∧ credentials key = none := by
  unfold Tally.read
  split
  case h_1 none_ => simp [mem_addKey, none_]
  case h_2 value some_ => simp [some_]

theorem Tally.mem_foldl_used :
    key ∈ (keys.foldl (Tally.read credentials) tally).used ↔
      key ∈ tally.used ∨ key ∈ keys ∧ credentials key ≠ none := by
  induction keys generalizing tally with
  | nil => simp
  | cons first keys ih =>
    rw [foldl_cons, ih, Tally.mem_read_used, mem_cons, or_assoc]
    constructor
    · rintro (earlier | ⟨rfl, given⟩ | ⟨later, given⟩)
      · exact .inl earlier
      · exact .inr ⟨.inl rfl, given⟩
      · exact .inr ⟨.inr later, given⟩
    · rintro (earlier | ⟨rfl | later, given⟩)
      · exact .inl earlier
      · exact .inr (.inl ⟨rfl, given⟩)
      · exact .inr (.inr ⟨later, given⟩)

theorem Tally.mem_foldl_missing :
    key ∈ (keys.foldl (Tally.read credentials) tally).missing ↔
      key ∈ tally.missing ∨ key ∈ keys ∧ credentials key = none := by
  induction keys generalizing tally with
  | nil => simp
  | cons first keys ih =>
    rw [foldl_cons, ih, Tally.mem_read_missing, mem_cons, or_assoc]
    constructor
    · rintro (earlier | ⟨rfl, absent⟩ | ⟨later, absent⟩)
      · exact .inl earlier
      · exact .inr ⟨.inl rfl, absent⟩
      · exact .inr ⟨.inr later, absent⟩
    · rintro (earlier | ⟨rfl | later, absent⟩)
      · exact .inl earlier
      · exact .inr (.inl ⟨rfl, absent⟩)
      · exact .inr (.inr ⟨later, absent⟩)

theorem tally_replacePieces (parts : List Piece) (tally : Tally) :
    (replacePieces credentials parts tally).2 = (parts.filterMap fun
      | .reference _ key => some key
      | .unit _ => none).foldl (Tally.read credentials) tally := by
  induction parts generalizing tally with
  | nil => rfl
  | cons part parts ih =>
    cases part with
    | unit value => exact ih tally
    | reference whole key => exact ih (tally.read credentials key)

mutual

theorem tally_interpolate (level : ℕ) (tally : Tally) : (node : JsonValue) →
    (interpolate credentials level node tally).2 = (keysWithin level node).foldl (Tally.read credentials) tally
  | .string text => by
    rw [interpolate, keysWithin, substitute]
    dsimp only
    split
    · rfl
    · exact tally_replacePieces (pieces text) tally
  | .array items => by
    rw [interpolate, keysWithin]
    exact tally_interpolateItems (level + 1) tally items
  | .object fields => by
    rw [interpolate, keysWithin]
    exact tally_interpolateFields (level + 1) tally [] fields
  | .null => rfl
  | .bool _ => rfl
  | .number _ => rfl

theorem tally_interpolateItems (level : ℕ) (tally : Tally) : (items : List JsonValue) →
    (interpolateItems credentials level items tally).2 =
      (keysWithinItems level items).foldl (Tally.read credentials) tally
  | [] => rfl
  | item :: items => by
    rw [interpolateItems, keysWithinItems, foldl_append, ← tally_interpolate level tally item]
    exact tally_interpolateItems level _ items

theorem tally_interpolateFields (level : ℕ) (tally : Tally) (out : JsonRecord) : (fields : JsonRecord) →
    (interpolateFields credentials level out fields tally).2 =
      (keysWithinValues level fields).foldl (Tally.read credentials) tally
  | [] => rfl
  | (key, item) :: fields => by
    rw [interpolateFields, keysWithinValues, foldl_append, ← tally_interpolate level tally item]
    exact tally_interpolateFields level _ _ fields

end

variable {value : JsonValue}

theorem mem_collectCredentialRefs :
    key ∈ collectCredentialRefs value 0 ↔ key ∈ keysWithin 0 value := by
  rw [collectCredentialRefs, visit_eq, mem_foldl_addKey]
  simp

theorem mem_used :
    key ∈ (interpolateCredentials credentials value).used ↔ key ∈ keysWithin 0 value ∧ credentials key ≠ none := by
  rw [interpolateCredentials]
  dsimp only
  rw [tally_interpolate, Tally.mem_foldl_used]
  simp

theorem mem_missing :
    key ∈ (interpolateCredentials credentials value).missing ↔ key ∈ keysWithin 0 value ∧ credentials key = none := by
  rw [interpolateCredentials]
  dsimp only
  rw [tally_interpolate, Tally.mem_foldl_missing]
  simp

end Tally

inductive Filled (allowed : Utf16 → Utf16 → Utf16 → Prop) : List Piece → Utf16 → Prop
  | nil : Filled allowed [] []
  | unit {value : UInt16} {rest : List Piece} {out : Utf16} (later : Filled allowed rest out) :
    Filled allowed (.unit value :: rest) (value :: out)
  | reference {whole key new : Utf16} {rest : List Piece} {out : Utf16} (here : allowed whole key new)
    (later : Filled allowed rest out) : Filled allowed (.reference whole key :: rest) (new ++ out)

/-- The keys that an object of the walk's is built anew with: each once, and each an own property. -/
def PlainKeys (keys : List Utf16) : Prop := keys.Nodup ∧ ascii "__proto__" ∉ keys

section Walk

variable {credentials : Utf16 → Option Utf16}

theorem assign_fresh {record : JsonRecord} {key : Utf16} (value : JsonValue) (plain : key ≠ ascii "__proto__")
    (fresh : key ∉ record.map (·.1)) : Json.assign record key value = record ++ [(key, value)] := by
  have absent : ¬ record.any (fun entry => entry.1 = key) = true := by
    simpa [any_eq_true] using fresh
  rw [Json.assign, if_neg plain, if_neg absent]

def Substitutes (credentials : Utf16 → Option Utf16) (texts : ℕ → Utf16 → Utf16 → Prop)
    (known : Utf16 → Prop) : Prop :=
  ∀ level text tally, (∀ key ∈ keysWithin level (.string text), known key) →
    texts level text (substitute credentials text level tally).1

variable {texts : ℕ → Utf16 → Utf16 → Prop} {known : Utf16 → Prop}

mutual

theorem interpolate_alike (each : Substitutes credentials texts known) (level : ℕ) (tally : Tally) : (node : JsonValue) → node.EachObject PlainKeys →
    (∀ key ∈ keysWithin level node, known key) →
      node.Alike texts level (interpolate credentials level node tally).1
  | .string text, _, all => ⟨_, rfl, each level text tally all⟩
  | .array items, plain, all => by
    exact ⟨_, rfl, interpolateItems_alike each (level + 1) tally items plain all⟩
  | .object fields, plain, all => by
    obtain ⟨outs, same, alike⟩ := interpolateFields_alike each (level + 1) tally [] fields plain.2
      (by simpa using plain.1.1) plain.1.2 all
    have isOuts : (interpolateFields credentials (level + 1) [] fields tally).1 = outs := same
    exact ⟨outs, congrArg JsonValue.object isOuts, alike⟩
  | .null, _, _ => rfl
  | .bool _, _, _ => rfl
  | .number _, _, _ => rfl

theorem interpolateItems_alike (each : Substitutes credentials texts known) (level : ℕ) (tally : Tally) : (items : List JsonValue) →
    JsonValue.EachObjectItems PlainKeys items → (∀ key ∈ keysWithinItems level items, known key) →
      JsonValue.AlikeItems texts level items (interpolateItems credentials level items tally).1
  | [], _, _ => rfl
  | item :: items, plain, all => by
    rw [keysWithinItems, forall_mem_append] at all
    exact ⟨_, _, rfl, interpolate_alike each level tally item plain.1 all.1,
      interpolateItems_alike each level _ items plain.2 all.2⟩

theorem interpolateFields_alike (each : Substitutes credentials texts known) (level : ℕ) (tally : Tally) (out : JsonRecord) : (fields : JsonRecord) →
    JsonValue.EachObjectFields PlainKeys fields → (out.map (·.1) ++ fields.map (·.1)).Nodup →
      ascii "__proto__" ∉ fields.map (·.1) → (∀ key ∈ keysWithinValues level fields, known key) →
        ∃ outs, (interpolateFields credentials level out fields tally).1 = out ++ outs ∧
          JsonValue.AlikeFields texts level fields outs
  | [], _, _, _, _ => ⟨[], (append_nil out).symm, rfl⟩
  | (key, item) :: fields, plain, distinct, own, all => by
    rw [keysWithinValues, forall_mem_append] at all
    rw [map_cons, mem_cons, not_or] at own
    have fresh : key ∉ out.map (·.1) := by
      intro member
      exact (nodup_append.mp distinct).2.2 key member key mem_cons_self rfl
    have here := interpolate_alike each level tally item plain.1 all.1
    have distinct' : ((out ++ [(key, (interpolate credentials level item tally).1)]).map (·.1) ++
        fields.map (·.1)).Nodup := by
      rw [map_append, append_assoc]
      exact distinct
    obtain ⟨outs, same, later⟩ := interpolateFields_alike each level (interpolate credentials level item tally).2
      (out ++ [(key, (interpolate credentials level item tally).1)]) fields plain.2 distinct' own.2 all.2
    rw [interpolateFields]
    dsimp only
    rw [assign_fresh _ (Ne.symm own.1) fresh, same, append_assoc]
    exact ⟨_, rfl, _, _, rfl, here, later⟩

end

theorem filled_replacePieces (parts : List Piece) (tally : Tally) :
    Filled (fun whole key new => new = (credentials key).getD whole) parts
      (replacePieces credentials parts tally).1 := by
  induction parts generalizing tally with
  | nil => exact .nil
  | cons part parts ih =>
    cases part with
    | unit value => exact .unit (ih tally)
    | reference whole key => exact .reference rfl (ih (tally.read credentials key))

theorem Filled.mono {allowed other : Utf16 → Utf16 → Utf16 → Prop} {parts : List Piece} {out : Utf16}
    (filled : Filled allowed parts out)
    (weaker : ∀ whole key new, .reference whole key ∈ parts → allowed whole key new → other whole key new) :
    Filled other parts out := by
  induction filled with
  | nil => exact .nil
  | unit later ih =>
    exact .unit (ih fun whole key new member => weaker whole key new (mem_cons_of_mem _ member))
  | reference here later ih =>
    refine .reference (weaker _ _ _ mem_cons_self here) (ih fun whole key new member => ?_)
    exact weaker whole key new (mem_cons_of_mem _ member)

theorem filled_text (parts : List Piece) : Filled (fun whole _ new => new = whole) parts (parts.flatMap Piece.text) := by
  induction parts with
  | nil => exact .nil
  | cons part parts ih =>
    cases part with
    | unit value => exact .unit ih
    | reference whole key => exact .reference rfl ih

theorem mem_refKeys {text whole key : Utf16} (member : .reference whole key ∈ pieces text) : key ∈ refKeys text :=
  mem_filterMap.mpr ⟨_, member, rfl⟩

def NoneRemains (credentials : Utf16 → Option Utf16) (text out : Utf16) : Prop :=
  Filled (fun _ key new => credentials key = some new) (pieces text) out

def OnlyReferences (credentials : Utf16 → Option Utf16) (text out : Utf16) : Prop :=
  Filled (fun whole key new => credentials key = some new ∨ new = whole) (pieces text) out

theorem substitutes_resolved : Substitutes credentials
    (fun level text out => level ≤ maxWalkDepth → NoneRemains credentials text out)
    (fun key => credentials key ≠ none) := by
  intro level text tally all within
  rw [keysWithin, if_neg (Nat.not_lt.mpr within)] at all
  rw [substitute, if_neg (Nat.not_lt.mpr within)]
  refine (filled_replacePieces (pieces text) tally).mono fun whole key new member isNew => ?_
  obtain ⟨value, given⟩ := Option.ne_none_iff_exists'.mp (all key (mem_refKeys member))
  rw [isNew, given]
  rfl

theorem substitutes_only : Substitutes credentials (fun _ text out => OnlyReferences credentials text out)
    (fun _ => True) := by
  intro level text tally _
  rw [substitute]
  split
  · have kept := filled_text (pieces text)
    rw [text_pieces] at kept
    exact kept.mono fun _ _ _ _ same => .inr same
  · refine (filled_replacePieces (pieces text) tally).mono fun whole key new _ isNew => ?_
    cases given : credentials key with
    | none => exact .inr (by rw [isNew, given]; rfl)
    | some value => exact .inl (by rw [isNew, given]; rfl)

/-- Nothing is left unresolved and unreported, where only the strings of some levels are looked at. -/
structure NothingUnreported (looked : ℕ → Prop) (credentials : Utf16 → Option Utf16) (value : JsonValue) : Prop where
  noneRemains : (interpolateCredentials credentials value).missing = [] →
    value.Alike (fun level text out => looked level → NoneRemains credentials text out) 0
      (interpolateCredentials credentials value).value
  disjoint : ∀ key ∈ (interpolateCredentials credentials value).used,
    key ∉ (interpolateCredentials credentials value).missing
  union : ∀ key, key ∈ (interpolateCredentials credentials value).used ∨
    key ∈ (interpolateCredentials credentials value).missing ↔ key ∈ collectCredentialRefs value 0
  unchanged : value.Alike (fun _ text out => OnlyReferences credentials text out) 0
    (interpolateCredentials credentials value).value

/-- Down to the walk's depth nothing is left unresolved and unreported. -/
theorem nothing_unreported (credentials : Utf16 → Option Utf16) {value : JsonValue}
    (plain : value.EachObject PlainKeys) : NothingUnreported (· ≤ maxWalkDepth) credentials value where
  noneRemains none_ := by
    refine interpolate_alike substitutes_resolved 0 _ value plain fun key member absent => ?_
    have missing := mem_missing.mpr ⟨member, absent⟩
    rw [none_] at missing
    cases missing
  disjoint key used missing := (mem_used.mp used).2 (mem_missing.mp missing).2
  union key := by
    rw [mem_used, mem_missing, mem_collectCredentialRefs]
    constructor
    · rintro (⟨member, _⟩ | ⟨member, _⟩) <;> exact member
    · intro member
      by_cases absent : credentials key = none
      · exact .inr ⟨member, absent⟩
      · exact .inl ⟨member, absent⟩
  unchanged := interpolate_alike substitutes_only 0 _ value plain fun _ _ => trivial

end Walk

def tokenRef : Utf16 := ascii "\x7b\x7bcred.token\x7d\x7d"

def tokenOnly (key : Utf16) : Option Utf16 := if key = ascii "token" then some (ascii "secret") else none

def headers : JsonValue :=
  .object [(ascii "authorization", .string (ascii "Bearer " ++ tokenRef)), (ascii "tries", .array [.null])]

theorem plain_headers : headers.EachObject PlainKeys :=
  ⟨⟨by decide, by decide⟩, trivial, ⟨trivial, trivial⟩, trivial⟩

theorem headers_nothing_unreported : headers.EachObject PlainKeys ∧
    NothingUnreported (· ≤ maxWalkDepth) tokenOnly headers :=
  ⟨plain_headers, nothing_unreported tokenOnly plain_headers⟩

def nested : ℕ → JsonValue → JsonValue
  | 0, value => value
  | depth + 1, value => .array [nested depth value]

theorem alike_nested {texts : ℕ → Utf16 → Utf16 → Prop} (depth level : ℕ) {value other : JsonValue}
    (alike : (nested depth value).Alike texts level (nested depth other)) : value.Alike texts (level + depth) other := by
  induction depth generalizing level with
  | zero => exact alike
  | succ depth ih =>
    obtain ⟨outs, isOuts, inside⟩ := alike
    obtain ⟨out, rest, isOut, first, _⟩ := inside
    cases isOuts
    cases isOut
    rw [show level + (depth + 1) = level + 1 + depth by omega]
    exact ih (level + 1) first

theorem pieces_tokenRef : pieces tokenRef = [.reference tokenRef (ascii "token")] := by decide

/-- A reference nine levels deep is left, and nothing is missing. -/
theorem deep_reference_unreported :
    ¬ NothingUnreported (fun _ => True) tokenOnly (nested 9 (.string tokenRef)) := by
  intro nothing
  have none_ : (interpolateCredentials tokenOnly (nested 9 (.string tokenRef))).missing = [] := rfl
  have same : (interpolateCredentials tokenOnly (nested 9 (.string tokenRef))).value =
      nested 9 (.string tokenRef) := rfl
  have alike := nothing.noneRemains none_
  rw [same] at alike
  obtain ⟨out, isOut, noneRemains⟩ := alike_nested 9 0 alike
  cases isOut
  have filled := noneRemains trivial
  rw [NoneRemains, pieces_tokenRef] at filled
  generalize isLeft : tokenRef = left at filled
  cases filled with
  | reference here later =>
    cases later
    have secret : tokenOnly (ascii "token") = some (ascii "secret") := rfl
    rw [secret, Option.some.injEq] at here
    rw [← here, append_nil] at isLeft
    exact absurd isLeft (by decide)

end EverWorks.Policy
