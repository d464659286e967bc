import EverWorks.Lib.JsValue
import EverWorks.Lib.Utf16

/-!
What `JSON.parse` yields, with strings as code units. A record is looked up by the ASCII names a program
knows; a list of values is read value by value.
-/

namespace EverWorks.Lib
open List

inductive JsonValue where
  | null
  | bool (value : Bool)
  | number (value : JsNumber)
  | string (value : Utf16)
  | array (items : List JsonValue)
  | object (fields : List (Utf16 × JsonValue))

abbrev JsonRecord := List (Utf16 × JsonValue)

/-- A string or a key of the value, at any depth. -/
inductive JsonValue.Has (text : Utf16) : JsonValue → Prop
  | string : Has text (.string text)
  | item {items : List JsonValue} {item : JsonValue} (member : item ∈ items) (inside : Has text item) :
    Has text (.array items)
  | key {fields : JsonRecord} {value : JsonValue} (member : (text, value) ∈ fields) : Has text (.object fields)
  | value {fields : JsonRecord} {key : Utf16} {value : JsonValue} (member : (key, value) ∈ fields)
    (inside : Has text value) : Has text (.object fields)

def ascii (text : String) : Utf16 := text.toList.map fun c => UInt16.ofNat c.toNat

theorem ascii_ofList (letters : List Char) :
    ascii (String.ofList letters) = letters.map fun c => UInt16.ofNat c.toNat :=
  congrArg _ String.toList_ofList

theorem ascii_append (front back : String) : ascii (front ++ back) = ascii front ++ ascii back := by
  rw [ascii, String.toList_append, map_append]
  rfl

theorem length_ascii_append (front back : String) :
    (ascii (front ++ back)).length = (ascii front).length + (ascii back).length := by
  rw [ascii_append, length_append]

theorem length_ascii_ofList (letters : List Char) : (ascii (String.ofList letters)).length = letters.length := by
  rw [ascii_ofList, length_map]

/-- A text is read letter by letter: in the kernel, its list of letters is slow to get at. -/
theorem not_mem_ascii {unit : UInt16} {letters : List Char}
    (absent : letters.all (fun c => UInt16.ofNat c.toNat ≠ unit) = true) : unit ∉ ascii (String.ofList letters) := by
  rw [ascii_ofList, mem_map]
  rintro ⟨c, listed, same⟩
  exact of_decide_eq_true (all_eq_true.mp absent c listed) same

theorem not_mem_ascii_append {unit : UInt16} {front back : String} (absent : unit ∉ ascii front)
    (absent' : unit ∉ ascii back) : unit ∉ ascii (front ++ back) := by
  rw [ascii_append, mem_append, not_or]
  exact ⟨absent, absent'⟩

namespace Json

def hexDigit (n : Nat) : UInt16 := UInt16.ofNat (if n < 10 then 0x30 + n else 0x57 + n)

/-- `\u` and four digits. -/
def unicodeEscape (unit : UInt16) : Utf16 :=
  ascii "\\u" ++ [unit.toNat / 4096, unit.toNat / 256 % 16, unit.toNat / 16 % 16, unit.toNat % 16].map hexDigit

def quoteUnit (unit : UInt16) : Utf16 :=
  if unit = 0x08 then ascii "\\b"
  else if unit = 0x09 then ascii "\\t"
  else if unit = 0x0A then ascii "\\n"
  else if unit = 0x0C then ascii "\\f"
  else if unit = 0x0D then ascii "\\r"
  else if unit = 0x22 then ascii "\\\""
  else if unit = 0x5C then ascii "\\\\"
  else if unit < 0x20 || Utf16.isHighSurrogate unit || Utf16.isLowSurrogate unit then unicodeEscape unit
  else [unit]

def quoteUnits : Utf16 → Utf16
  | [] => []
  | [unit] => quoteUnit unit
  | unit :: next :: rest =>
    if Utf16.isHighSurrogate unit && Utf16.isLowSurrogate next then unit :: next :: quoteUnits rest
    else quoteUnit unit ++ quoteUnits (next :: rest)

/-- `JSON.stringify` of a string. -/
def quote (text : Utf16) : Utf16 := ascii "\"" ++ quoteUnits text ++ ascii "\""

/-- `record.name`; `none` is `undefined`. -/
def field (record : JsonRecord) (name : String) : Option JsonValue :=
  (record.find? fun entry => entry.1 == ascii name).map (·.2)

/-- `record[key] = value`. Assigning `__proto__` makes no own property. -/
def assign (record : JsonRecord) (key : Utf16) (value : JsonValue) : JsonRecord :=
  if key = ascii "__proto__" then record
  else if record.any fun entry => entry.1 = key then
    record.map fun entry => if entry.1 = key then (key, value) else entry
  else record ++ [(key, value)]

theorem mem_assign {record : JsonRecord} {key : Utf16} {value : JsonValue} {entry : Utf16 × JsonValue}
    (member : entry ∈ assign record key value) : entry ∈ record ∨ entry = (key, value) := by
  rw [assign] at member
  split at member
  · exact .inl member
  · split at member
    · obtain ⟨old, inside, rfl⟩ := mem_map.mp member
      split
      · exact .inr rfl
      · exact .inl inside
    · simpa using member

def optional {α : Type} (name : String) (write : α → JsonValue) : Option α → JsonRecord
  | none => []
  | some value => [(ascii name, write value)]

def readOptional {α : Type} (read : JsonValue → Option α) : Option JsonValue → Option (Option α)
  | none => some none
  | some value => (read value).map some

def readAll {α : Type} (read : JsonValue → Option α) : List JsonValue → Option (List α)
  | [] => some []
  | value :: rest =>
    match read value, readAll read rest with
    | some first, some others => some (first :: others)
    | _, _ => none

variable {α : Type} {read : JsonValue → Option α} {write : α → JsonValue} {valid : α → Prop}

def Plain (text : String) : Prop := ∀ c ∈ text.toList, c.toNat < 65536

instance (text : String) : Decidable (Plain text) := List.decidableBAll _ _

theorem chars_eq {front rest : List Char} (plainFront : ∀ c ∈ front, c.toNat < 65536)
    (plainRest : ∀ c ∈ rest, c.toNat < 65536)
    (same : (front.map fun c => UInt16.ofNat c.toNat) = rest.map fun c => UInt16.ofNat c.toNat) :
    front = rest := by
  induction front generalizing rest with
  | nil =>
    cases rest with
    | nil => rfl
    | cons second rest => simp at same
  | cons first front ih =>
    cases rest with
    | nil => simp at same
    | cons second rest =>
      rw [forall_mem_cons] at plainFront plainRest
      simp only [map_cons, List.cons.injEq] at same
      have units := congrArg UInt16.toNat same.1
      simp only [UInt16.toNat_ofNat', Nat.reducePow] at units
      have sameChar : first = second := Char.toNat_inj.mp (by omega)
      rw [sameChar, ih plainFront.2 plainRest.2 same.2]

theorem ascii_inj {a b : String} (plainA : Plain a) (plainB : Plain b) : ascii a = ascii b ↔ a = b := by
  constructor
  · intro same
    exact String.toList_inj.mp (chars_eq plainA plainB same)
  · rintro rfl
    rfl

@[simp] theorem field_nil (name : String) : field [] name = none := rfl

theorem field_cons {key name : String} (plainKey : Plain key) (plainName : Plain name) (value : JsonValue)
    (rest : JsonRecord) :
    field ((ascii key, value) :: rest) name = if key = name then some value else field rest name := by
  by_cases same : key = name
  · simp [field, same]
  · have apart : ascii key ≠ ascii name := fun equal => same ((ascii_inj plainKey plainName).mp equal)
    simp [field, same, apart]

theorem field_append (front rest : JsonRecord) (name : String) :
    field (front ++ rest) name = (field front name).or (field rest name) := by
  simp [field, find?_append, Option.map_or]

theorem field_optional {key name : String} (plainKey : Plain key) (plainName : Plain name)
    (write : α → JsonValue) (value : Option α) :
    field (optional key write value) name = if key = name then value.map write else none := by
  cases value with
  | none => simp [optional]
  | some value => simp [optional, field_cons plainKey plainName]

theorem mem_optional {α : Type} {name : String} {write : α → JsonValue} {value : Option α}
    {entry : Utf16 × JsonValue} :
    entry ∈ optional name write value ↔ ∃ a, value = some a ∧ entry = (ascii name, write a) := by
  cases value <;> simp [optional]

theorem readOptional_valid (reads : ∀ value a, read value = some a → valid a) {value : Option JsonValue}
    {result : Option α} (h : readOptional read value = some result) : ∀ a, result = some a → valid a := by
  rintro a rfl
  cases value with
  | none => simp [readOptional] at h
  | some value =>
    simp only [readOptional, Option.map_eq_some_iff, Option.some.injEq, exists_eq_right] at h
    exact reads value a h

theorem readOptional_write (writes : ∀ a, valid a → read (write a) = some a) {value : Option α}
    (isValid : ∀ a, value = some a → valid a) : readOptional read (value.map write) = some value := by
  cases value with
  | none => rfl
  | some value => simp [readOptional, writes value (isValid value rfl)]

theorem readAll_valid (reads : ∀ value a, read value = some a → valid a) {values : List JsonValue}
    {result : List α} (h : readAll read values = some result) :
    result.length = values.length ∧ ∀ a ∈ result, valid a := by
  induction values generalizing result with
  | nil =>
    simp only [readAll, Option.some.injEq] at h
    subst h
    simp
  | cons value rest ih =>
    simp only [readAll] at h
    split at h
    case h_1 first others isFirst isOthers =>
      simp only [Option.some.injEq] at h
      subst h
      obtain ⟨lengths, all⟩ := ih isOthers
      exact ⟨by simp [lengths], forall_mem_cons.mpr ⟨reads value first isFirst, all⟩⟩
    case h_2 => simp at h

theorem readAll_write (writes : ∀ a, valid a → read (write a) = some a) {values : List α}
    (isValid : ∀ a ∈ values, valid a) : readAll read (values.map write) = some values := by
  induction values with
  | nil => rfl
  | cons value rest ih =>
    rw [map_cons, readAll, writes value (isValid value mem_cons_self),
      ih fun a inside => isValid a (mem_cons_of_mem _ inside)]

end Json

end EverWorks.Lib

/-!
## JSON values as trees

Two values are alike where they differ in their strings only, and a relation says how: it is given how deep a
string stands. A property of the keys of every object is stated over the tree.
-/

namespace EverWorks.Lib.JsonValue

section Alike

variable (texts : ℕ → Utf16 → Utf16 → Prop)

mutual

def Alike (level : ℕ) : JsonValue → JsonValue → Prop
  | .string text, other => ∃ out, other = .string out ∧ texts level text out
  | .array items, other => ∃ outs, other = .array outs ∧ AlikeItems (level + 1) items outs
  | .object fields, other => ∃ outs, other = .object outs ∧ AlikeFields (level + 1) fields outs
  | .null, other => other = .null
  | .bool value, other => other = .bool value
  | .number value, other => other = .number value

def AlikeItems (level : ℕ) : List JsonValue → List JsonValue → Prop
  | [], others => others = []
  | item :: items, others => ∃ out outs, others = out :: outs ∧ Alike level item out ∧ AlikeItems level items outs

def AlikeFields (level : ℕ) : JsonRecord → JsonRecord → Prop
  | [], others => others = []
  | (key, item) :: fields, others =>
    ∃ out outs, others = (key, out) :: outs ∧ Alike level item out ∧ AlikeFields level fields outs

end

end Alike

section EachObject

variable (keys : List Utf16 → Prop)

mutual

def EachObject : JsonValue → Prop
  | .array items => EachObjectItems items
  | .object fields => keys (fields.map (·.1)) ∧ EachObjectFields fields
  | .null | .bool _ | .number _ | .string _ => True

def EachObjectItems : List JsonValue → Prop
  | [] => True
  | item :: items => EachObject item ∧ EachObjectItems items

def EachObjectFields : JsonRecord → Prop
  | [] => True
  | (_, item) :: fields => EachObject item ∧ EachObjectFields fields

end

end EachObject

end EverWorks.Lib.JsonValue
