import Mathlib.Data.Nat.NthRoot.Defs
import Mathlib.Tactic.Ring

/-!
The Secure Hash Standard on strings of bits: padding, message schedule, compression and digest.
-/

namespace EverWorks.Lib.Sha256
open List List

abbrev Word := BitVec 32

def bits : Nat → Nat → List Bool
  | 0, _ => []
  | width + 1, n => bits width (n / 2) ++ [n % 2 == 1]

def value (digits : List Bool) : Nat := digits.foldl (fun n digit => 2 * n + digit.toNat) 0

@[simp] theorem length_bits (width n : Nat) : (bits width n).length = width := by
  induction width generalizing n with
  | zero => rfl
  | succ width ih => rw [bits, length_append, ih, length_singleton]

theorem bits_add (front back n : Nat) : bits (front + back) n = bits front (n / 2 ^ back) ++ bits back n := by
  induction back generalizing n with
  | zero => rw [Nat.add_zero, Nat.pow_zero, Nat.div_one, bits, append_nil]
  | succ back ih =>
    rw [← Nat.add_assoc, bits, ih, bits, Nat.div_div_eq_div_mul, ← Nat.pow_succ', append_assoc]

theorem bits_mod (width n : Nat) : bits width (n % 2 ^ width) = bits width n := by
  induction width generalizing n with
  | zero => rfl
  | succ width ih =>
    have half : n % 2 ^ (width + 1) / 2 = n / 2 % 2 ^ width := by
      rw [Nat.pow_succ', Nat.mod_mul_right_div_self]
    have last : n % 2 ^ (width + 1) % 2 = n % 2 := Nat.mod_mod_of_dvd n ⟨2 ^ width, Nat.pow_succ'⟩
    rw [bits, half, ih, last, bits]

theorem foldl_bits (start width n : Nat) :
    (bits width n).foldl (fun n digit => 2 * n + digit.toNat) start = start * 2 ^ width + n % 2 ^ width := by
  induction width generalizing n with
  | zero => simp [bits, Nat.mod_one]
  | succ width ih =>
    have last : (n % 2 == 1).toNat = n % 2 := by
      rcases Nat.mod_two_eq_zero_or_one n with zero | one
      · rw [zero]; rfl
      · rw [one]; rfl
    have parts : n % 2 ^ (width + 1) = 2 * (n / 2 % 2 ^ width) + n % 2 := by
      rw [Nat.pow_succ', Nat.mod_mul, Nat.add_comm]
    rw [bits, foldl_append, ih, foldl_cons, foldl_nil, last, parts, Nat.pow_succ]
    ring

theorem value_bits (width n : Nat) : value (bits width n) = n % 2 ^ width := by
  rw [value, foldl_bits, Nat.zero_mul, Nat.zero_add]

def bytesBits (bytes : List UInt8) : List Bool := bytes.flatMap fun byte => bits 8 byte.toNat

theorem bytesBits_append (front back : List UInt8) : bytesBits (front ++ back) = bytesBits front ++ bytesBits back :=
  flatMap_append

theorem bytesBits_cons (byte : UInt8) (rest : List UInt8) :
    bytesBits (byte :: rest) = bits 8 byte.toNat ++ bytesBits rest := flatMap_cons

@[simp] theorem length_bytesBits (bytes : List UInt8) : (bytesBits bytes).length = 8 * bytes.length := by
  induction bytes with
  | nil => rfl
  | cons byte rest ih => rw [bytesBits_cons, length_append, length_bits, ih, length_cons]; ring

theorem drop_bytesBits (bytes : List UInt8) (n : Nat) : (bytesBits bytes).drop (8 * n) = bytesBits (bytes.drop n) := by
  induction n generalizing bytes with
  | zero => rfl
  | succ n ih =>
    cases bytes with
    | nil => simp [bytesBits]
    | cons byte rest =>
      have more : 8 * (n + 1) = (bits 8 byte.toNat).length + 8 * n := by rw [length_bits]; ring
      rw [bytesBits_cons, more, drop_length_add_append, ih, drop_succ_cons]

theorem take_bytesBits (bytes : List UInt8) (n : Nat) : (bytesBits bytes).take (8 * n) = bytesBits (bytes.take n) := by
  induction n generalizing bytes with
  | zero => rfl
  | succ n ih =>
    cases bytes with
    | nil => simp [bytesBits]
    | cons byte rest =>
      have more : 8 * (n + 1) = (bits 8 byte.toNat).length + 8 * n := by rw [length_bits]; ring
      rw [bytesBits_cons, more, take_length_add_append, ih, take_succ_cons, bytesBits_cons]

theorem bytesBits_inj {left right : List UInt8} (same : bytesBits left = bytesBits right) : left = right := by
  have length := congrArg length same
  rw [length_bytesBits, length_bytesBits] at length
  induction left generalizing right with
  | nil =>
    cases right with
    | nil => rfl
    | cons byte rest => cases same
  | cons byte rest ih =>
    cases right with
    | nil => cases same
    | cons byte' rest' =>
      rw [bytesBits_cons, bytesBits_cons] at same
      obtain ⟨first, others⟩ := append_inj same (by rw [length_bits, length_bits])
      have number := congrArg value first
      rw [value_bits, value_bits, Nat.mod_eq_of_lt byte.toNat_lt, Nat.mod_eq_of_lt byte'.toNat_lt] at number
      simp only [length_cons] at length
      rw [UInt8.toNat_inj.mp number, ih others (by omega)]

def rotr (n : Nat) (x : Word) : Word := (x >>> n) ||| (x <<< (32 - n))

def ch (x y z : Word) : Word := (x &&& y) ^^^ (~~~x &&& z)

def maj (x y z : Word) : Word := (x &&& y) ^^^ (x &&& z) ^^^ (y &&& z)

def bigSigma0 (x : Word) : Word := rotr 2 x ^^^ rotr 13 x ^^^ rotr 22 x

def bigSigma1 (x : Word) : Word := rotr 6 x ^^^ rotr 11 x ^^^ rotr 25 x

def smallSigma0 (x : Word) : Word := rotr 7 x ^^^ rotr 18 x ^^^ (x >>> 3)

def smallSigma1 (x : Word) : Word := rotr 17 x ^^^ rotr 19 x ^^^ (x >>> 10)

def primes : List Nat :=
  [2, 3, 5, 7, 11, 13, 17, 19, 23, 29, 31, 37, 41, 43, 47, 53, 59, 61, 67, 71, 73, 79, 83, 89, 97, 101, 103, 107, 109,
    113, 127, 131, 137, 139, 149, 151, 157, 163, 167, 173, 179, 181, 191, 193, 197, 199, 211, 223, 227, 229, 233, 239,
    241, 251, 257, 263, 269, 271, 277, 281, 283, 293, 307, 311]

def fraction (power prime : Nat) : Word := BitVec.ofNat 32 (Nat.nthRoot power (prime * 2 ^ (32 * power)))

def roundConstants : List Word := primes.map (fraction 3)

def zeros (length : Nat) : Nat := (959 - length % 512) % 512

def pad (message : List Bool) : List Bool :=
  message ++ true :: replicate (zeros message.length) false ++ bits 64 message.length

theorem zeros_spec (length : Nat) : (length + 1 + zeros length) % 512 = 448 ∧
    ∀ k, (length + 1 + k) % 512 = 448 → zeros length ≤ k := by
  rw [zeros]
  refine ⟨by omega, fun k fills => by omega⟩

theorem length_pad (message : List Bool) : (pad message).length % 512 = 0 := by
  have fills := (zeros_spec message.length).1
  rw [pad, length_append, length_append, length_cons, length_replicate, length_bits]
  omega

def messageWord (padded : List Bool) (block t : Nat) : Word :=
  BitVec.ofNat 32 (value ((padded.drop (512 * block + 32 * t)).take 32))

def schedule (message : Nat → Word) (t : Nat) : Word :=
  if t < 16 then message t
  else
    smallSigma1 (schedule message (t - 2)) + schedule message (t - 7) + smallSigma0 (schedule message (t - 15)) +
      schedule message (t - 16)

structure Words (α : Type) where
  a : α
  b : α
  c : α
  d : α
  e : α
  f : α
  g : α
  h : α
  deriving DecidableEq

namespace Words

def map {α β : Type} (f : α → β) (words : Words α) : Words β where
  a := f words.a
  b := f words.b
  c := f words.c
  d := f words.d
  e := f words.e
  f := f words.f
  g := f words.g
  h := f words.h

def toList {α : Type} (words : Words α) : List α :=
  [words.a, words.b, words.c, words.d, words.e, words.f, words.g, words.h]

theorem toList_map {α β : Type} (f : α → β) (words : Words α) : (words.map f).toList = words.toList.map f := rfl

end Words

def initialHash : Words Word where
  a := fraction 2 2
  b := fraction 2 3
  c := fraction 2 5
  d := fraction 2 7
  e := fraction 2 11
  f := fraction 2 13
  g := fraction 2 17
  h := fraction 2 19

def round (constant scheduled : Word) (s : Words Word) : Words Word :=
  let t1 := s.h + bigSigma1 s.e + ch s.e s.f s.g + constant + scheduled
  let t2 := bigSigma0 s.a + maj s.a s.b s.c
  { a := t1 + t2, b := s.a, c := s.b, d := s.c, e := s.d + t1, f := s.e, g := s.f, h := s.g }

def compress (hash : Words Word) (message : Nat → Word) : Words Word :=
  let s := (range 64).foldl (fun s t => round (roundConstants.getD t 0) (schedule message t) s) hash
  { a := s.a + hash.a, b := s.b + hash.b, c := s.c + hash.c, d := s.d + hash.d, e := s.e + hash.e
    f := s.f + hash.f, g := s.g + hash.g, h := s.h + hash.h }

def hash (message : List Bool) : Words Word :=
  (range ((pad message).length / 512)).foldl
    (fun hash block => compress hash (messageWord (pad message) block)) initialHash

def digest (message : List Bool) : List Bool := (hash message).toList.flatMap fun word => bits 32 word.toNat

def hexDigit (n : Nat) : Char := "0123456789abcdef".toList.getD n '0'

def hex : List Bool → List Char
  | b₃ :: b₂ :: b₁ :: b₀ :: rest => hexDigit (value [b₃, b₂, b₁, b₀]) :: hex rest
  | _ => []

theorem hex_append {front : List Bool} (whole : 4 ∣ front.length) (back : List Bool) :
    hex (front ++ back) = hex front ++ hex back := by
  induction front using hex.induct with
  | case1 b₃ b₂ b₁ b₀ rest ih =>
    simp only [length_cons] at whole
    rw [cons_append, cons_append, cons_append, cons_append, hex, hex, cons_append,
      ih (by omega)]
  | case2 front short =>
    match front, short with
    | [], _ => rfl
    | [_], _ | [_, _], _ | [_, _, _], _ => simp at whole
    | b₃ :: b₂ :: b₁ :: b₀ :: rest, short => exact absurd rfl (short b₃ b₂ b₁ b₀ rest)

theorem hexDigit_inj : ∀ n < 16, ∀ m < 16, hexDigit n = hexDigit m → n = m := by decide +kernel

theorem nibble_inj : ∀ b₃ b₂ b₁ b₀ c₃ c₂ c₁ c₀ : Bool, value [b₃, b₂, b₁, b₀] = value [c₃, c₂, c₁, c₀] →
    [b₃, b₂, b₁, b₀] = [c₃, c₂, c₁, c₀] := by decide +kernel

theorem nibble_lt : ∀ b₃ b₂ b₁ b₀ : Bool, value [b₃, b₂, b₁, b₀] < 16 := by decide

theorem hex_inj {left right : List Bool} (whole : 4 ∣ left.length) (whole' : 4 ∣ right.length)
    (same : hex left = hex right) : left = right := by
  induction left using hex.induct generalizing right with
  | case1 b₃ b₂ b₁ b₀ rest ih =>
    match right with
    | [] | [_] | [_, _] | [_, _, _] => cases same
    | c₃ :: c₂ :: c₁ :: c₀ :: others =>
      rw [hex, hex] at same
      obtain ⟨digit, digits⟩ := cons.inj same
      have bits := nibble_inj _ _ _ _ _ _ _ _ (hexDigit_inj _ (nibble_lt _ _ _ _) _ (nibble_lt _ _ _ _) digit)
      simp only [length_cons] at whole whole'
      rw [ih (by omega) (by omega) digits]
      simp only [cons.injEq, and_true] at bits ⊢
      exact bits
  | case2 left short =>
    match left, short with
    | [_], _ | [_, _], _ | [_, _, _], _ => simp at whole
    | b₃ :: b₂ :: b₁ :: b₀ :: rest, short => exact absurd rfl (short b₃ b₂ b₁ b₀ rest)
    | [], _ =>
      match right with
      | [] => rfl
      | [_] | [_, _] | [_, _, _] => simp at whole'
      | _ :: _ :: _ :: _ :: _ => cases same

theorem length_digest (message : List Bool) : (digest message).length = 256 := by
  simp [digest, Words.toList]

theorem schedule_congr {message message' : Nat → Word} (same : ∀ t < 16, message t = message' t) (t : Nat) :
    schedule message t = schedule message' t := by
  induction t using schedule.induct with
  | case1 t first => rw [schedule, if_pos first, schedule, if_pos first, same t first]
  | case2 t later ih₂ ih₇ ih₁₅ ih₁₆ =>
    rw [schedule, if_neg later, schedule.eq_1 message', if_neg later, ih₂, ih₇, ih₁₅, ih₁₆]

theorem compress_congr {message message' : Nat → Word} (same : ∀ t < 16, message t = message' t) (hash : Words Word) :
    compress hash message = compress hash message' := by
  rw [compress, compress, funext (schedule_congr same)]

end EverWorks.Lib.Sha256
