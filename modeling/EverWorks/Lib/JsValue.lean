import EverWorks.Lib.JsString
import EverWorks.Lib.Number
import Mathlib.Tactic.Positivity

/-!
The plain values of JavaScript: what JSON has, and `undefined`. How the language coerces a value to a
number or a string, and which of two objects are one and the same, is a parameter.
-/

namespace EverWorks.Lib
open List

/-- A number is finite (then it is rational), infinite or not a number. -/
inductive JsNumber where
  | nan
  | infinite (negative : Bool)
  | finite (value : ℚ)
  deriving DecidableEq

inductive JsValue where
  | undefined
  | null
  | bool (value : Bool)
  | number (value : JsNumber)
  | string (value : String)
  | array (items : List JsValue)
  | object (fields : List (String × JsValue))

/-- `Number(x)`, `String(x)`, and `===` on two arrays or objects. -/
structure JsCoercions where
  toNumber : JsValue → JsNumber
  toText : JsValue → String
  identical : JsValue → JsValue → Bool

def JsCoercions.bare : JsCoercions where
  toNumber _ := .nan
  toText _ := "[object Object]"
  identical _ _ := false

namespace JsNumber

/-- `===` on numbers: NaN equals nothing. -/
def equals : JsNumber → JsNumber → Bool
  | finite a, finite b => a = b
  | infinite a, infinite b => a = b
  | _, _ => false

def index : JsNumber → Option Nat
  | finite value => if value.den = 1 ∧ 0 ≤ value then some value.num.toNat else none
  | _ => none

/-- `Number.isInteger`. -/
def isInteger : JsNumber → Bool
  | finite value => value.den = 1
  | _ => false

/-- `<`. -/
def less : JsNumber → JsNumber → Bool
  | finite a, finite b => a < b
  | infinite true, infinite false | infinite true, finite _ | finite _, infinite false => true
  | _, _ => false

/-- `<=`. -/
def atMost (a b : JsNumber) : Bool := less a b || equals a b

/-- `+` on numbers. -/
def add : JsNumber → JsNumber → JsNumber
  | finite a, finite b => finite (toDouble (a + b))
  | infinite a, infinite b => if a = b then infinite a else nan
  | infinite a, finite _ | finite _, infinite a => infinite a
  | _, _ => nan

/-- The low `width` bits of the integer part, as typed arrays and `>>> 0` take them. -/
def toUint (width : Nat) : JsNumber → Nat
  | finite value => ((if 0 ≤ value then ⌊value⌋ else ⌈value⌉) % 2 ^ width).toNat
  | _ => 0

instance (n : Nat) : OfNat JsNumber n := ⟨finite n⟩

instance : NatCast JsNumber := ⟨fun n => finite n⟩

theorem cast_eq (n : Nat) : (n : JsNumber) = finite n := rfl

theorem ofNat_eq (n : Nat) : (OfNat.ofNat n : JsNumber) = finite n := rfl

@[simp] theorem cast_inj {m n : Nat} : (m : JsNumber) = n ↔ m = n := by
  simp [cast_eq]

@[simp] theorem isInteger_cast (n : Nat) : isInteger n = true := by
  simp [isInteger]

@[simp] theorem atMost_finite (a b : ℚ) : atMost (finite a) (finite b) = true ↔ a ≤ b := by
  simp [atMost, less, equals, le_iff_lt_or_eq]

@[simp] theorem index_cast (n : Nat) : index n = some n := by
  simp [index, cast_eq]

theorem cast_atMost {m n : Nat} : atMost m n = true ↔ m ≤ n := by
  simp [cast_eq]

theorem zero_atMost {n : JsNumber} (positive : atMost 1 n = true) : atMost 0 n = true := by
  cases n with
  | nan => exact positive
  | infinite negative => cases negative <;> exact positive
  | finite value =>
    have one_le : (1 : ℚ) ≤ value := by simpa [ofNat_eq] using positive
    have nonneg : (0 : ℚ) ≤ value := by linarith
    simpa [ofNat_eq] using nonneg

@[simp] theorem toUint_cast (width n : Nat) : toUint width n = n % 2 ^ width := by
  have nonneg : (0 : ℚ) ≤ n := Nat.cast_nonneg n
  have modulo : (n : ℤ) % 2 ^ width = ((n % 2 ^ width : ℕ) : ℤ) := by push_cast; rfl
  rw [cast_eq, toUint, if_pos nonneg, Int.floor_natCast, modulo, Int.toNat_natCast]

theorem toUint_small {n : Nat} (small : n < 65536) : toUint 16 n = n := by
  rw [toUint_cast]
  omega

theorem less_cast_mono {limit : JsNumber} {m n : Nat} (le : m ≤ n) (exceeds : limit.less m = true) :
    limit.less n = true := by
  have le' : (m : ℚ) ≤ n := Nat.cast_le.mpr le
  cases limit with
  | nan => exact exceeds
  | infinite negative => cases negative <;> exact exceeds
  | finite limit =>
    simp only [less, decide_eq_true_eq] at exceeds ⊢
    exact lt_of_lt_of_le exceeds le'

theorem exists_nat {n : JsNumber} (integer : n.isInteger = true) (nonneg : atMost 0 n = true) :
    ∃ k : Nat, n = k := by
  cases n with
  | nan => exact absurd integer Bool.false_ne_true
  | infinite => exact absurd integer Bool.false_ne_true
  | finite value =>
    simp only [isInteger, decide_eq_true_eq] at integer
    have nonneg : (0 : ℚ) ≤ value := by simpa [ofNat_eq] using nonneg
    refine ⟨value.num.toNat, ?_⟩
    have num : ((value.num.toNat : ℤ) : ℚ) = value.num := by
      rw [Int.toNat_of_nonneg (Rat.num_nonneg.mpr nonneg)]
    have whole : (value.num : ℚ) = value := Rat.coe_int_num_of_den_eq_one integer
    rw [cast_eq, ← Int.cast_natCast, num, whole]

theorem le_of_add_atMost {m n bound : Nat} (sum : ((m : JsNumber).add n).atMost bound = true) :
    m ≤ 2 * bound := by
  have rounded : toDouble (m + n) ≤ bound := by
    simpa only [cast_eq, add, atMost_finite] using sum
  have half : ((m : ℚ) + n) / 2 ≤ toDouble (m + n) := half_le_toDouble (by positivity)
  have nonneg : (0 : ℚ) ≤ n := Nat.cast_nonneg n
  have cast : (m : ℚ) ≤ (2 * bound : ℕ) := by
    push_cast
    linarith
  exact Nat.cast_le.mp cast

end JsNumber

namespace JsValue

def truthy : JsValue → Bool
  | undefined | null => false
  | bool value => value
  | number (.finite value) => value ≠ 0
  | number (.infinite _) => true
  | number .nan => false
  | string value => value ≠ ""
  | array _ | object _ => true

def isNullish : JsValue → Bool
  | undefined | null => true
  | _ => false

def isUndefined : JsValue → Bool
  | undefined => true
  | _ => false

def text? : JsValue → Option String
  | string value => some value
  | _ => none

def property : JsValue → String → JsValue
  | object fields, key => (fields.lookup key).getD undefined
  | _, _ => undefined

def ownFields : JsValue → List (String × JsValue)
  | object fields => fields
  | _ => []

theorem property_ownFields (value : JsValue) (key : String) :
    (object value.ownFields).property key = value.property key := by
  cases value <;> rfl

/-- `===`. -/
def strictEquals (js : JsCoercions) : JsValue → JsValue → Bool
  | undefined, undefined | null, null => true
  | bool a, bool b => a = b
  | number a, number b => a.equals b
  | string a, string b => a = b
  | a@(array _), b@(array _) | a@(object _), b@(object _) => js.identical a b
  | _, _ => false

end JsValue

/-- Own properties in order. Assigning `__proto__` makes no own property. -/
def setField {α : Type} (fields : List (String × α)) (key : String) (value : α) :
    List (String × α) :=
  if key = "__proto__" then fields
  else if fields.any fun field => field.1 = key then
    fields.map fun field => if field.1 = key then (key, value) else field
  else fields ++ [(key, value)]

theorem lookup_map_set {α : Type} {fields : List (String × α)} {key : String} {value : α} (other : String)
    (present : key ∈ fields.map Prod.fst) :
    (fields.map fun field => if field.1 = key then (key, value) else field).lookup other =
      if other = key then some value else fields.lookup other := by
  induction fields with
  | nil => cases present
  | cons field rest ih =>
    rw [map_cons, lookup_cons]
    by_cases same : field.1 = key
    · rw [if_pos same]
      by_cases wanted : other = key
      · simp [wanted]
      · have skip : (other == key) = false := by simpa using wanted
        have skip' : (other == field.1) = false := by rw [same]; exact skip
        rw [skip, if_neg wanted, lookup_cons, skip']
        by_cases again : key ∈ rest.map Prod.fst
        · rw [ih again, if_neg wanted]
        · rw [map_congr_left (g := id), map_id]
          intro entry inside
          have : entry.1 ≠ key := fun hit => again (mem_map.mpr ⟨entry, inside, hit⟩)
          simp [this]
    · have deeper : key ∈ rest.map Prod.fst := by
        rcases mem_cons.mp present with hit | inside
        · exact absurd hit.symm same
        · exact inside
      rw [if_neg same, ih deeper, lookup_cons]
      by_cases first : other = field.1
      · have : other ≠ key := first ▸ same
        simp [first, same]
      · have skip : (other == field.1) = false := by simpa using first
        rw [skip]

theorem lookup_setField {α : Type} (fields : List (String × α)) {key : String} (value : α) (other : String)
    (plain : key ≠ "__proto__") :
    (setField fields key value).lookup other = if other = key then some value else fields.lookup other := by
  rw [setField, if_neg plain]
  split
  · rename_i found
    obtain ⟨field, inside, same⟩ := any_eq_true.mp found
    exact lookup_map_set other (mem_map.mpr ⟨field, inside, of_decide_eq_true same⟩)
  · rename_i absent
    rw [lookup_append]
    by_cases wanted : other = key
    · have fresh : fields.lookup other = none := by
        rw [lookup_eq_none_iff]
        intro field inside
        have : field.1 ≠ key := fun hit => absent (any_eq_true.mpr ⟨field, inside, by simpa using hit⟩)
        rw [wanted]
        simpa using Ne.symm this
      rw [fresh, if_pos wanted]
      simp [wanted]
    · have skip : (other == key) = false := by simpa using wanted
      simp [lookup_cons, skip, wanted]

def JsString.includes (haystack needle : String) : Bool :=
  decide (needle.toList <:+: haystack.toList)

def JsString.split (text : String) (separator : Char) : List String :=
  (text.toList.splitOn separator).map String.ofList

def JsString.squeeze : List Char → List Char
  | [] => []
  | c :: rest =>
    if JsString.isWhiteSpace c then
      if (rest.head?.map JsString.isWhiteSpace).getD false then squeeze rest else ' ' :: squeeze rest
    else c :: squeeze rest

/-- `replace(/\s+/g, ' ')`. -/
def JsString.replaceSpaces (text : String) : String := String.ofList (squeeze text.toList)

/-- `split(/\s+/)`. -/
def JsString.splitSpaces (text : String) : List String := split (replaceSpaces text) ' '

end EverWorks.Lib
