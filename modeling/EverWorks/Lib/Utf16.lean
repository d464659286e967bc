import Mathlib.Data.List.DropRight

/-!
A JavaScript string is any list of UTF-16 code units, lone surrogates included. Positions count units.
`byteLength` is the length of its UTF-8 form, where a lone surrogate takes the three bytes of its
replacement.
-/

namespace EverWorks.Lib
open List

abbrev Utf16 := List UInt16

instance : LawfulBEq Utf16 := inferInstance

namespace Utf16

def ofChar (c : Char) : Utf16 :=
  if c.toNat < 0x10000 then [c.toNat.toUInt16]
  else [(0xD800 + (c.toNat - 0x10000) / 0x400).toUInt16, (0xDC00 + (c.toNat - 0x10000) % 0x400).toUInt16]

def ofString (text : String) : Utf16 := text.toList.flatMap ofChar

def isHighSurrogate (unit : UInt16) : Bool := 0xD800 ≤ unit && unit ≤ 0xDBFF

def isLowSurrogate (unit : UInt16) : Bool := 0xDC00 ≤ unit && unit ≤ 0xDFFF

def isWhiteSpace (unit : UInt16) : Bool :=
  (9 ≤ unit && unit ≤ 13) || unit == 0x20 || unit == 0xA0 || unit == 0x1680 ||
    (0x2000 ≤ unit && unit ≤ 0x200A) || unit == 0x2028 || unit == 0x2029 || unit == 0x202F ||
    unit == 0x205F || unit == 0x3000 || unit == 0xFEFF

def trim (text : Utf16) : Utf16 :=
  ((text.dropWhile isWhiteSpace).reverse.dropWhile isWhiteSpace).reverse

theorem trim_trim (text : Utf16) : trim (trim text) = trim text := by
  have front : (trim text).dropWhile isWhiteSpace = trim text := by
    refine dropWhile_eq_self_iff.mpr fun nonempty => ?_
    have isPre : trim text <+: text.dropWhile isWhiteSpace := by
      rw [trim, ← reverse_suffix, reverse_reverse]
      exact dropWhile_suffix _
    rw [isPre.getElem nonempty]
    exact dropWhile_get_zero_not isWhiteSpace text (isPre.length_le.trans_lt' nonempty)
  rw [trim, front, trim, reverse_reverse, dropWhile_idempotent]

/-- `replace(/\s+/g, ' ')`; `inside` tells whether the run of white space already has its blank. -/
def spaced (inside : Bool) : Utf16 → Utf16
  | [] => []
  | unit :: rest =>
    if isWhiteSpace unit then if inside then spaced true rest else 0x20 :: spaced true rest
    else unit :: spaced false rest

variable {unit : UInt16}

theorem mem_spaced {inside : Bool} {text : Utf16} (member : unit ∈ spaced inside text) :
    unit = 0x20 ∨ unit ∈ text := by
  induction text generalizing inside with
  | nil => cases member
  | cons c rest ih =>
    have deeper {inside : Bool} (member : unit ∈ spaced inside rest) : unit = 0x20 ∨ unit ∈ c :: rest :=
      (ih member).imp_right (mem_cons_of_mem _)
    rw [spaced] at member
    split at member
    · split at member
      · exact deeper member
      · exact (mem_cons.mp member).elim .inl deeper
    · rcases mem_cons.mp member with rfl | member
      · exact .inr mem_cons_self
      · exact deeper member

theorem trim_infix (text : Utf16) : trim text <:+: text := by
  have front : trim text <+: text.dropWhile isWhiteSpace := by
    rw [trim, ← reverse_suffix, reverse_reverse]
    exact dropWhile_suffix _
  exact front.isInfix.trans (dropWhile_suffix _).isInfix

def width (unit : UInt16) : Nat :=
  if unit < 0x80 then 1 else if unit < 0x800 then 2 else 3

/-- `Buffer.byteLength(text, 'utf8')`. -/
def byteLength : Utf16 → Nat
  | [] => 0
  | [unit] => width unit
  | unit :: next :: rest =>
    if isHighSurrogate unit && isLowSurrogate next then 4 + byteLength rest
    else width unit + byteLength (next :: rest)

theorem not_low_of_ascii (ascii : unit < 0x80) : isLowSurrogate unit = false := by
  have small : ¬ (0xDC00 : UInt16) ≤ unit := by
    rw [UInt16.le_iff_toNat_le]
    rw [UInt16.lt_iff_toNat_lt] at ascii
    have : (0x80 : UInt16).toNat = 128 := rfl
    have : (0xDC00 : UInt16).toNat = 56320 := rfl
    omega
  simp [isLowSurrogate, small]

theorem not_high_of_ascii (ascii : unit < 0x80) : isHighSurrogate unit = false := by
  have small : ¬ (0xD800 : UInt16) ≤ unit := by
    rw [UInt16.le_iff_toNat_le]
    rw [UInt16.lt_iff_toNat_lt] at ascii
    have : (0x80 : UInt16).toNat = 128 := rfl
    have : (0xD800 : UInt16).toNat = 55296 := rfl
    omega
  simp [isHighSurrogate, small]

theorem byteLength_cons_ascii (ascii : unit < 0x80) (rest : Utf16) :
    byteLength (unit :: rest) = 1 + byteLength rest := by
  cases rest with
  | nil => simp [byteLength, width, ascii]
  | cons next rest => simp [byteLength, not_high_of_ascii ascii, width, ascii]

theorem byteLength_append_ascii (ascii : unit < 0x80) (front rest : Utf16) :
    byteLength (front ++ unit :: rest) = byteLength front + byteLength (unit :: rest) := by
  induction front using byteLength.induct with
  | case1 => simp [byteLength]
  | case2 alone => simp [byteLength, not_low_of_ascii ascii]
  | case3 high low front pair ih =>
    simp only [cons_append, byteLength, pair, if_true] at ih ⊢
    omega
  | case4 first next front apart ih =>
    rw [cons_append] at ih
    simp only [cons_append, byteLength, apart]
    simp
    omega

theorem byteLength_cons {rest : Utf16}
    (apart : isHighSurrogate unit = true → ∀ next, rest.head? = some next → isLowSurrogate next = false) :
    byteLength (unit :: rest) = width unit + byteLength rest := by
  cases rest with
  | nil => simp [byteLength]
  | cons next rest =>
    have noPair : (isHighSurrogate unit && isLowSurrogate next) = false := by
      cases high : isHighSurrogate unit with
      | false => rfl
      | true => exact apart high next rfl
    simp [byteLength, noPair]

end Utf16

end EverWorks.Lib

/-!
## Numbers in code units

The decimal text of a natural number: digits alone, and a text of its own for each number.
-/

namespace EverWorks.Lib.Utf16

theorem ofChar_digit {c : Char} (digit : c.isDigit = true) :
    ofChar c = [c.toNat.toUInt16] ∧ c.toNat.toUInt16.toNat = c.toNat ∧ 48 ≤ c.toNat ∧ c.toNat ≤ 57 := by
  rw [Char.isDigit, Bool.and_eq_true, decide_eq_true_eq, decide_eq_true_eq] at digit
  have low : 48 ≤ c.toNat := digit.1
  have high : c.toNat ≤ 57 := digit.2
  have small : c.toNat < UInt16.size := Nat.lt_of_le_of_lt high (by decide)
  refine ⟨?_, ?_, low, high⟩
  · rw [ofChar, if_pos (by omega)]
  · rw [Nat.toUInt16_eq, UInt16.toNat_ofNat_of_lt' small]

theorem ofString_repr (n : Nat) : ofString n.repr = (Nat.toDigits 10 n).map fun c => c.toNat.toUInt16 := by
  rw [ofString, Nat.toList_repr, List.map_eq_flatMap]
  refine List.flatMap_congr fun c listed => ?_
  exact (ofChar_digit (Nat.isDigit_of_mem_toDigits (by decide) (by decide) listed)).1

theorem digit_of_mem_repr {n : Nat} {unit : UInt16} (listed : unit ∈ ofString n.repr) :
    0x30 ≤ unit ∧ unit ≤ 0x39 := by
  rw [ofString_repr] at listed
  obtain ⟨c, digit, rfl⟩ := List.mem_map.mp listed
  obtain ⟨_, same, low, high⟩ := ofChar_digit (Nat.isDigit_of_mem_toDigits (by decide) (by decide) digit)
  rw [UInt16.le_iff_toNat_le, UInt16.le_iff_toNat_le, same]
  exact ⟨low, high⟩

theorem map_ofString_repr (n : Nat) :
    (ofString n.repr).map (fun unit => Char.ofNat unit.toNat) = Nat.toDigits 10 n := by
  rw [ofString_repr, List.map_map, List.map_congr_left (g := id), List.map_id]
  intro c listed
  rw [Function.comp_apply, (ofChar_digit (Nat.isDigit_of_mem_toDigits (by decide) (by decide) listed)).2.1,
    Char.ofNat_toNat, id]

theorem ofString_repr_ne_nil (n : Nat) : ofString n.repr ≠ [] := by
  rw [ofString_repr]
  exact fun none => Nat.toDigits_ne_nil (List.map_eq_nil_iff.mp none)

theorem ofString_repr_inj {n m : Nat} : ofString n.repr = ofString m.repr ↔ n = m := by
  refine ⟨fun same => ?_, fun same => by rw [same]⟩
  have digits : Nat.toDigits 10 n = Nat.toDigits 10 m := by rw [← map_ofString_repr, same, map_ofString_repr]
  rw [← Nat.ofDigitChars_toDigits (n := n) (b := 10) (by decide) (by decide), digits,
    Nat.ofDigitChars_toDigits (by decide) (by decide)]

end EverWorks.Lib.Utf16
