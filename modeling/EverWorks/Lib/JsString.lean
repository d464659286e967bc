import Mathlib.Algebra.GroupWithZero.Nat
import Mathlib.Data.List.DropRight

/-!
`trim` and `length` of a JavaScript string, whose length counts UTF-16 units.
-/

namespace EverWorks.Lib.JsString
open List

def isWhiteSpace (c : Char) : Bool :=
  (9 ≤ c.toNat && c.toNat ≤ 13) || c.toNat == 0x20 || c.toNat == 0xA0 || c.toNat == 0x1680 ||
    (0x2000 ≤ c.toNat && c.toNat ≤ 0x200A) || c.toNat == 0x2028 || c.toNat == 0x2029 ||
    c.toNat == 0x202F || c.toNat == 0x205F || c.toNat == 0x3000 || c.toNat == 0xFEFF

def trim (text : String) : String :=
  String.ofList (((text.toList.dropWhile isWhiteSpace).reverse.dropWhile isWhiteSpace).reverse)

def length (text : String) : Nat :=
  (text.toList.map fun c => if 0x10000 ≤ c.toNat then 2 else 1).sum

def startsWith (text head : String) : Bool :=
  head.toList.isPrefixOf text.toList

def endsWith (text tail : String) : Bool :=
  tail.toList.isSuffixOf text.toList

/-- `toLowerCase`, of which only what it does to ASCII is known here. -/
structure LowerCase where
  lower : String → String
  lower_ascii : ∀ text : String, (∀ c ∈ text.toList, c.toNat < 128) →
    (lower text).toList = text.toList.map Char.toLower

/-- `toLowerCase` and `toUpperCase`. Outside ASCII only the Kelvin sign has an ASCII letter for its lower case. -/
structure LetterCase extends LowerCase where
  upper : String → String
  upper_ascii : ∀ text : String, (∀ c ∈ text.toList, c.toNat < 128) →
    (upper text).toList = text.toList.map Char.toUpper
  ascii_of_lower : ∀ text : String, (∀ c ∈ (lower text).toList, 'a' ≤ c ∧ c ≤ 'z' ∧ c ≠ 'k') →
    ∀ c ∈ text.toList, c.toNat < 128

def LowerCase.ascii : LowerCase where
  lower text := String.ofList (text.toList.map Char.toLower)
  lower_ascii _ _ := String.toList_ofList

def LetterCase.ascii : LetterCase where
  toLowerCase := .ascii
  upper text := String.ofList (text.toList.map Char.toUpper)
  upper_ascii _ _ := String.toList_ofList
  ascii_of_lower text letters c member := by
    have lowered := (letters c.toLower (by simpa [LowerCase.ascii] using ⟨c, member, rfl⟩)).2.1
    by_contra wide
    have fixed : c.toLower = c := by
      refine dif_neg ?_
      intro upper
      have : c.toNat ≤ 'Z'.toNat := upper.2
      have : 'Z'.toNat = 90 := rfl
      omega
    rw [fixed] at lowered
    have : c.toNat ≤ 'z'.toNat := lowered
    have : 'z'.toNat = 122 := rfl
    omega

theorem startsWith_iff {text head : String} :
    startsWith text head = true ↔ head.toList <+: text.toList :=
  isPrefixOf_iff_prefix

theorem startsWith_trans {text middle head : String} (upper : startsWith text middle = true)
    (lower : startsWith middle head = true) : startsWith text head = true := by
  rw [startsWith_iff] at upper lower ⊢
  exact lower.trans upper

theorem trim_solid {text : String} (solid : ∀ c ∈ text.toList, isWhiteSpace c = false) :
    trim text = text := by
  have front : text.toList.dropWhile isWhiteSpace = text.toList :=
    dropWhile_eq_self_iff.mpr fun nonempty =>
      by simpa using solid _ (getElem_mem nonempty)
  have back : text.toList.reverse.dropWhile isWhiteSpace = text.toList.reverse :=
    dropWhile_eq_self_iff.mpr fun nonempty =>
      by simpa using solid _ (mem_reverse.mp (getElem_mem nonempty))
  rw [trim, front, back, reverse_reverse, String.ofList_toList]

theorem trim_trim (text : String) : trim (trim text) = trim text := by
  have last : ∀ units : List Char, ((units.dropWhile isWhiteSpace).reverse.dropWhile
      isWhiteSpace).reverse.dropWhile isWhiteSpace =
        ((units.dropWhile isWhiteSpace).reverse.dropWhile isWhiteSpace).reverse := by
    intro units
    apply dropWhile_eq_self_iff.mpr
    intro nonempty
    have pre : ((units.dropWhile isWhiteSpace).reverse.dropWhile isWhiteSpace).reverse <+:
        units.dropWhile isWhiteSpace := by
      rw [← reverse_suffix, reverse_reverse]
      exact dropWhile_suffix _
    rw [pre.getElem nonempty]
    exact dropWhile_get_zero_not isWhiteSpace units (pre.length_le.trans_lt' nonempty)
  rw [trim, trim, String.toList_ofList, last text.toList, reverse_reverse,
    dropWhile_idempotent]

end EverWorks.Lib.JsString
