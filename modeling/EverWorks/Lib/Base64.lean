import EverWorks.Lib.Json
import Mathlib.Computability.RegularExpressions

/-!
The standard padded encoding of bytes, a reader that skips what is not of the alphabet, and what a regular expression
built from classes of characters matches. Three bytes are one number of 24 bits, written as four digits of six bits.
-/

namespace EverWorks.Lib
open List

section Classes

variable {α : Type*}

/-- `[…]` -/
def anyOf (units : List α) : RegularExpression α := (units.map RegularExpression.char).sum

theorem mem_anyOf {units text : List α} : text ∈ (anyOf units).matches' ↔ ∃ unit ∈ units, text = [unit] := by
  induction units with
  | nil => simp [anyOf, Language.notMem_zero]
  | cons unit units ih =>
    rw [anyOf, map_cons, sum_cons, RegularExpression.matches'_add, Language.mem_add]
    rw [← anyOf, ih, RegularExpression.matches'_char, exists_mem_cons_iff]
    exact Iff.rfl

theorem mem_anyOf_pow {units : List α} {n : Nat} {text : List α} :
    text ∈ (anyOf units ^ n).matches' ↔ text.length = n ∧ ∀ unit ∈ text, unit ∈ units := by
  rw [RegularExpression.matches'_pow]
  induction n generalizing text with
  | zero =>
    rw [pow_zero, Language.mem_one, length_eq_zero_iff]
    constructor
    · rintro rfl
      exact ⟨rfl, nofun⟩
    · exact And.left
  | succ n ih =>
    rw [pow_succ', Language.mem_mul]
    constructor
    · rintro ⟨first, mem, rest, power, rfl⟩
      obtain ⟨unit, known, rfl⟩ := mem_anyOf.mp mem
      obtain ⟨length, all⟩ := ih.mp power
      exact ⟨by simp [length], forall_mem_cons.mpr ⟨known, all⟩⟩
    · rintro ⟨length, all⟩
      obtain ⟨unit, rest, rfl⟩ := exists_cons_of_length_eq_add_one length
      obtain ⟨known, all⟩ := forall_mem_cons.mp all
      exact ⟨[unit], mem_anyOf.mpr ⟨unit, known, rfl⟩, rest, ih.mpr ⟨Nat.succ.inj length, all⟩, rfl⟩

end Classes

namespace Base64

def alphabet : Utf16 := ascii "ABCDEFGHIJKLMNOPQRSTUVWXYZabcdefghijklmnopqrstuvwxyz0123456789+/"

/-- `=` -/
def pad : UInt16 := 0x3D

def digit (n : Nat) : UInt16 := alphabet.getD (n % 64) 0

def sextet (unit : UInt16) : Option Nat := alphabet.idxOf? unit

theorem length_alphabet : alphabet.length = 64 := by
  have written : alphabet = _ := ascii_ofList _
  rw [written]
  rfl

variable (n : Nat)

theorem mod_lt_length : n % 64 < alphabet.length := by
  rw [length_alphabet]
  exact Nat.mod_lt n (Nat.succ_pos 63)

theorem digit_eq_get : digit n = alphabet.get ⟨n % 64, mod_lt_length n⟩ := by
  rw [digit, getD_eq_getElem?_getD, getElem?_eq_getElem (mod_lt_length n), Option.getD_some, get_eq_getElem]

theorem nodup_alphabet : alphabet.Nodup := by
  have written : alphabet = _ := ascii_ofList _
  rw [written]
  decide +kernel

theorem sextet_digit : sextet (digit n) = some (n % 64) := by
  rw [digit_eq_get, sextet, idxOf?_eq_some_iff]
  refine ⟨mod_lt_length n, rfl, fun j before same => ?_⟩
  have index := nodup_alphabet.getElem_inj_iff.mp same
  omega

theorem digit_ne_pad : digit n ≠ pad := by
  have all : ∀ m < 64, alphabet.getD m 0 ≠ pad := by decide +kernel
  exact all _ (Nat.mod_lt n (by decide))

theorem digit_congr {m n : Nat} (same : m % 64 = n % 64) : digit m = digit n := by rw [digit, digit, same]

theorem digit_mem : digit n ∈ alphabet := by
  rw [digit_eq_get]
  exact get_mem _ _

theorem mem_alphabet {unit : UInt16} : unit ∈ alphabet ↔ ∃ n < 64, digit n = unit := by
  constructor
  · intro mem
    obtain ⟨n, small, rfl⟩ := mem_iff_getElem.mp mem
    have size := length_alphabet
    refine ⟨n, by omega, ?_⟩
    rw [digit, Nat.mod_eq_of_lt (by omega), getD_eq_getElem?_getD, getElem?_eq_getElem small,
      Option.getD_some]
  · rintro ⟨n, -, rfl⟩
    exact digit_mem n

def quantum (n : Nat) : Utf16 := [digit (n / 262144), digit (n / 4096), digit (n / 64), digit n]

def encode : List UInt8 → Utf16
  | a :: b :: c :: rest => quantum (a.toNat * 65536 + b.toNat * 256 + c.toNat) ++ encode rest
  | [a, b] => (quantum (a.toNat * 65536 + b.toNat * 256)).take 3 ++ [pad]
  | [a] => (quantum (a.toNat * 65536)).take 2 ++ [pad, pad]
  | [] => []

def ofSextets : List Nat → List UInt8
  | p :: q :: r :: t :: rest =>
    let n := p * 262144 + q * 4096 + r * 64 + t
    UInt8.ofNat (n / 65536) :: UInt8.ofNat (n / 256) :: UInt8.ofNat n :: ofSextets rest
  | [p, q, r] =>
    let n := p * 262144 + q * 4096 + r * 64
    [UInt8.ofNat (n / 65536), UInt8.ofNat (n / 256)]
  | [p, q] => [UInt8.ofNat ((p * 262144 + q * 4096) / 65536)]
  | _ => []

def decode (text : Utf16) : List UInt8 := ofSextets ((text.takeWhile (· ≠ pad)).filterMap sextet)

example : encode [0x4D, 0x61, 0x6E, 0x4D] = ascii "TWFuTQ==" := by decide

theorem decode_digits_append (n : List Nat) (rest : Utf16) :
    ((n.map digit ++ rest).takeWhile (· ≠ pad)).filterMap sextet =
      n.map (· % 64) ++ (rest.takeWhile (· ≠ pad)).filterMap sextet := by
  induction n with
  | nil => rfl
  | cons n ns ih =>
    rw [map_cons, cons_append, takeWhile_cons_of_pos (by simp [digit_ne_pad]),
      filterMap_cons_some (sextet_digit n), ih]
    rfl

theorem quantum_eq : quantum n = [n / 262144, n / 4096, n / 64, n].map digit := by
  simp only [quantum, map_cons, map_nil]

theorem sextets_number {n : Nat} (small : n < 16777216) :
    n / 262144 % 64 * 262144 + n / 4096 % 64 * 4096 + n / 64 % 64 * 64 + n % 64 = n := by omega

theorem bytes_number {n : Nat} (small : n < 16777216) :
    n / 65536 % 2 ^ 8 * 65536 + n / 256 % 2 ^ 8 * 256 + n % 2 ^ 8 = n := by omega

theorem byte_eq {m : Nat} (byte : UInt8) (same : m % 256 = byte.toNat) : UInt8.ofNat m = byte := by
  rw [← UInt8.toNat_inj, UInt8.toNat_ofNat', same]

theorem ofSextets_number {n : Nat} (small : n < 16777216) (rest : List Nat) :
    ofSextets (n / 262144 % 64 :: n / 4096 % 64 :: n / 64 % 64 :: n % 64 :: rest) =
      UInt8.ofNat (n / 65536) :: UInt8.ofNat (n / 256) :: UInt8.ofNat n :: ofSextets rest := by
  rw [ofSextets, sextets_number small]

theorem decode_encode (bytes : List UInt8) : decode (encode bytes) = bytes := by
  induction bytes using encode.induct with
  | case1 a b c rest ih =>
    have ha := a.toNat_lt
    have hb := b.toNat_lt
    have hc := c.toNat_lt
    rw [decode] at ih ⊢
    rw [encode]
    generalize hn : a.toNat * 65536 + b.toNat * 256 + c.toNat = n
    rw [quantum_eq, decode_digits_append]
    simp only [map_cons, map_nil, cons_append, nil_append]
    rw [ofSextets_number (by omega), ih]
    rw [byte_eq a (by omega), byte_eq b (by omega), byte_eq c (by omega)]
  | case2 a b =>
    have ha := a.toNat_lt
    have hb := b.toNat_lt
    rw [decode, encode]
    generalize hn : a.toNat * 65536 + b.toNat * 256 = n
    have number := sextets_number (n := n) (by omega)
    rw [show n % 64 = 0 by omega, Nat.add_zero] at number
    rw [quantum_eq, ← map_take, decode_digits_append]
    simp only [take_succ_cons, take_zero, map_cons, map_nil, cons_append, nil_append, ne_eq,
      not_true_eq_false, decide_false,
      Bool.false_eq_true, not_false_eq_true, takeWhile_cons_of_neg, filterMap_nil, ofSextets, number]
    rw [byte_eq a (by omega), byte_eq b (by omega)]
  | case3 a =>
    have ha := a.toNat_lt
    rw [decode, encode]
    generalize hn : a.toNat * 65536 = n
    rw [quantum_eq, ← map_take, decode_digits_append]
    simp only [take_succ_cons, take_zero, map_cons, map_nil, cons_append, nil_append, ne_eq,
      not_true_eq_false, decide_false,
      Bool.false_eq_true, not_false_eq_true, takeWhile_cons_of_neg, filterMap_nil, ofSextets]
    rw [byte_eq a (by omega)]
  | case4 => rfl

theorem encode_append {front : List UInt8} (whole : 3 ∣ front.length) (rest : List UInt8) :
    encode (front ++ rest) = encode front ++ encode rest := by
  induction front using encode.induct with
  | case1 a b c front ih =>
    have whole : 3 ∣ front.length := by
      simp only [length_cons] at whole
      omega
    simp only [cons_append, encode, ih whole, append_assoc]
  | case2 a b => exact absurd whole (by simp)
  | case3 a => exact absurd whole (by simp)
  | case4 => rfl

theorem quantum_digits (p q r t : Nat) (hq : q < 64) (hr : r < 64) (ht : t < 64) :
    quantum (p * 262144 + q * 4096 + r * 64 + t) = [digit p, digit q, digit r, digit t] := by
  set n := p * 262144 + q * 4096 + r * 64 + t with hn
  have first : digit (n / 262144) = digit p := digit_congr (by omega)
  have second : digit (n / 4096) = digit q := digit_congr (by omega)
  have third : digit (n / 64) = digit r := digit_congr (by omega)
  have last : digit n = digit t := digit_congr (by omega)
  rw [quantum, first, second, third, last]

variable {text : Utf16}

theorem encode_three (length : text.length = 4) (digits : ∀ unit ∈ text, unit ∈ alphabet) :
    ∃ bytes : List UInt8, bytes.length = 3 ∧ encode bytes = text := by
  match text, length with
  | [w, x, y, z], _ =>
    simp only [forall_mem_cons, mem_alphabet] at digits
    obtain ⟨⟨p, hp, rfl⟩, ⟨q, hq, rfl⟩, ⟨r, hr, rfl⟩, ⟨t, ht, rfl⟩, -⟩ := digits
    refine ⟨ofSextets [p, q, r, t], rfl, ?_⟩
    rw [← quantum_digits p q r t hq hr ht]
    simp only [ofSextets, encode, append_nil, UInt8.toNat_ofNat']
    rw [bytes_number (by omega)]

theorem quanta_iff :
    (∃ quanta : List Utf16, text = quanta.flatten ∧ ∀ quad ∈ quanta, quad.length = 4 ∧ ∀ unit ∈ quad, unit ∈ alphabet) ↔
      ∃ bytes : List UInt8, 3 ∣ bytes.length ∧ encode bytes = text := by
  constructor
  · rintro ⟨quanta, rfl, digits⟩
    induction quanta with
    | nil => exact ⟨[], dvd_zero 3, rfl⟩
    | cons quad quanta ih =>
      obtain ⟨⟨length, all⟩, digits⟩ := forall_mem_cons.mp digits
      obtain ⟨three, threeLength, first⟩ := encode_three length all
      obtain ⟨bytes, whole, rest⟩ := ih digits
      refine ⟨three ++ bytes, ?_, ?_⟩
      · rw [length_append]
        omega
      · rw [encode_append (by omega), first, rest, flatten_cons]
  · rintro ⟨bytes, whole, rfl⟩
    induction bytes using encode.induct with
    | case1 a b c rest ih =>
      have whole : 3 ∣ rest.length := by
        simp only [length_cons] at whole
        omega
      obtain ⟨quanta, same, digits⟩ := ih whole
      refine ⟨quantum _ :: quanta, by rw [encode, same, flatten_cons], ?_⟩
      refine forall_mem_cons.mpr ⟨⟨rfl, fun unit mem => ?_⟩, digits⟩
      rw [quantum_eq] at mem
      obtain ⟨n, -, rfl⟩ := mem_map.mp mem
      exact digit_mem n
    | case2 a b => exact absurd whole (by simp)
    | case3 a => exact absurd whole (by simp)
    | case4 => exact ⟨[], rfl, nofun⟩

theorem exists_groups (bytes : List UInt8) : ∃ front rest, bytes = front ++ rest ∧ 3 ∣ front.length ∧ rest.length < 3 := by
  refine ⟨bytes.take (3 * (bytes.length / 3)), bytes.drop (3 * (bytes.length / 3)), (take_append_drop _ _).symm, ?_, ?_⟩
  · rw [length_take]
    omega
  · rw [length_drop]
    omega

theorem encode_one_iff : (∃ a, encode [a] = text) ↔
    ∃ p < 64, ∃ q < 64, q % 16 = 0 ∧ text = [digit p, digit q, pad, pad] := by
  constructor
  · rintro ⟨a, rfl⟩
    have ha := a.toNat_lt
    have first : digit (a.toNat * 65536 / 262144) = digit (a.toNat / 4) := digit_congr (by omega)
    have second : digit (a.toNat * 65536 / 4096) = digit (a.toNat % 4 * 16) := digit_congr (by omega)
    refine ⟨a.toNat / 4, by omega, a.toNat % 4 * 16, by omega, by omega, ?_⟩
    rw [encode, quantum, first, second]
    rfl
  · rintro ⟨p, hp, q, hq, spare, rfl⟩
    refine ⟨UInt8.ofNat (p * 4 + q / 16), ?_⟩
    have byte : (UInt8.ofNat (p * 4 + q / 16)).toNat = p * 4 + q / 16 := by
      rw [UInt8.toNat_ofNat']
      omega
    have first : digit ((p * 4 + q / 16) * 65536 / 262144) = digit p := digit_congr (by omega)
    have second : digit ((p * 4 + q / 16) * 65536 / 4096) = digit q := digit_congr (by omega)
    rw [encode, byte, quantum, first, second]
    rfl

theorem encode_two_iff : (∃ a b, encode [a, b] = text) ↔
    ∃ p < 64, ∃ q < 64, ∃ r < 64, r % 4 = 0 ∧ text = [digit p, digit q, digit r, pad] := by
  constructor
  · rintro ⟨a, b, rfl⟩
    have ha := a.toNat_lt
    have hb := b.toNat_lt
    have first : digit ((a.toNat * 65536 + b.toNat * 256) / 262144) = digit (a.toNat / 4) := digit_congr (by omega)
    have second : digit ((a.toNat * 65536 + b.toNat * 256) / 4096) = digit (a.toNat % 4 * 16 + b.toNat / 16) :=
      digit_congr (by omega)
    have third : digit ((a.toNat * 65536 + b.toNat * 256) / 64) = digit (b.toNat % 16 * 4) := digit_congr (by omega)
    refine ⟨a.toNat / 4, by omega, a.toNat % 4 * 16 + b.toNat / 16, by omega, b.toNat % 16 * 4, by omega, by omega, ?_⟩
    rw [encode, quantum, first, second, third]
    rfl
  · rintro ⟨p, hp, q, hq, r, hr, spare, rfl⟩
    refine ⟨UInt8.ofNat (p * 4 + q / 16), UInt8.ofNat (q % 16 * 16 + r / 4), ?_⟩
    have high : (UInt8.ofNat (p * 4 + q / 16)).toNat = p * 4 + q / 16 := by
      rw [UInt8.toNat_ofNat']
      omega
    have low : (UInt8.ofNat (q % 16 * 16 + r / 4)).toNat = q % 16 * 16 + r / 4 := by
      rw [UInt8.toNat_ofNat']
      omega
    have number : (p * 4 + q / 16) * 65536 + (q % 16 * 16 + r / 4) * 256 = p * 262144 + q * 4096 + r * 64 := by omega
    have first : digit ((p * 262144 + q * 4096 + r * 64) / 262144) = digit p := digit_congr (by omega)
    have second : digit ((p * 262144 + q * 4096 + r * 64) / 4096) = digit q := digit_congr (by omega)
    have third : digit ((p * 262144 + q * 4096 + r * 64) / 64) = digit r := digit_congr (by omega)
    rw [encode, high, low, number, quantum, first, second, third]
    rfl

end Base64

end EverWorks.Lib
