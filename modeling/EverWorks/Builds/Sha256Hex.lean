import EverWorks.Lib.Int32
import EverWorks.Lib.Sha256
import EverWorks.Lib.Utf8

/-!
The digest that the platform, its build plugin and the browser compute of the same text, written out on JavaScript's
numbers, and that it is the standard's.
-/

namespace EverWorks.Builds
open Lib Lib.Utf16 Lib.Int32 List List

def sha256RoundConstants : List Int :=
  [0x428a2f98, 0x71374491, 0xb5c0fbcf, 0xe9b5dba5, 0x3956c25b, 0x59f111f1, 0x923f82a4, 0xab1c5ed5, 0xd807aa98,
    0x12835b01, 0x243185be, 0x550c7dc3, 0x72be5d74, 0x80deb1fe, 0x9bdc06a7, 0xc19bf174, 0xe49b69c1, 0xefbe4786,
    0x0fc19dc6, 0x240ca1cc, 0x2de92c6f, 0x4a7484aa, 0x5cb0a9dc, 0x76f988da, 0x983e5152, 0xa831c66d, 0xb00327c8,
    0xbf597fc7, 0xc6e00bf3, 0xd5a79147, 0x06ca6351, 0x14292967, 0x27b70a85, 0x2e1b2138, 0x4d2c6dfc, 0x53380d13,
    0x650a7354, 0x766a0abb, 0x81c2c92e, 0x92722c85, 0xa2bfe8a1, 0xa81a664b, 0xc24b8b70, 0xc76c51a3, 0xd192e819,
    0xd6990624, 0xf40e3585, 0x106aa070, 0x19a4c116, 0x1e376c08, 0x2748774c, 0x34b0bcb5, 0x391c0cb3, 0x4ed8aa4a,
    0x5b9cca4f, 0x682e6ff3, 0x748f82ee, 0x78a5636f, 0x84c87814, 0x8cc70208, 0x90befffa, 0xa4506ceb, 0xbef9a3f7,
    0xc67178f2]

def sha256InitialHash : Sha256.Words Int where
  a := 0x6a09e667
  b := 0xbb67ae85
  c := 0x3c6ef372
  d := 0xa54ff53a
  e := 0x510e527f
  f := 0x9b05688c
  g := 0x1f83d9ab
  h := 0x5be0cd19

def rotateRight32 (value : Int) (bits : Nat) : Int :=
  toUint32 (bitOr (shiftRightUnsigned value bits) (shiftLeft value (32 - bits)))

/-- `word.toString(16)` -/
def hexDigits (n : Nat) : List Char :=
  if n < 16 then [Sha256.hexDigit n] else hexDigits (n / 16) ++ [Sha256.hexDigit (n % 16)]

def toHexWords (words : List Int) : List Char :=
  words.foldl (fun hex word => hex ++ (hexDigits word.toNat).leftpad 8 '0') []

/-- What an entry of a `Uint8Array` keeps of a number. -/
def toUint8 (x : Int) : UInt8 := UInt8.ofBitVec (BitVec.ofInt 8 x)

def paddedMessage (message : List UInt8) : List UInt8 :=
  let bitLength := message.length * 8
  let paddedLength := (message.length + 9 + 63) / 64 * 64
  let padded := message ++ replicate (paddedLength - message.length) 0
  let padded := padded.set message.length 0x80
  let high : Int := (bitLength / 0x100000000 : Nat)
  let low : Int := toUint32 bitLength
  let padded := padded.set (paddedLength - 8) (toUint8 (bitAnd (shiftRightUnsigned high 24) 0xff))
  let padded := padded.set (paddedLength - 7) (toUint8 (bitAnd (shiftRightUnsigned high 16) 0xff))
  let padded := padded.set (paddedLength - 6) (toUint8 (bitAnd (shiftRightUnsigned high 8) 0xff))
  let padded := padded.set (paddedLength - 5) (toUint8 (bitAnd high 0xff))
  let padded := padded.set (paddedLength - 4) (toUint8 (bitAnd (shiftRightUnsigned low 24) 0xff))
  let padded := padded.set (paddedLength - 3) (toUint8 (bitAnd (shiftRightUnsigned low 16) 0xff))
  let padded := padded.set (paddedLength - 2) (toUint8 (bitAnd (shiftRightUnsigned low 8) 0xff))
  padded.set (paddedLength - 1) (toUint8 (bitAnd low 0xff))

def byteAt (padded : List UInt8) (index : Nat) : Int := (padded.getD index 0).toNat

def loadWord (padded : List UInt8) (offset : Nat) (schedule : List Int) (index : Nat) : List Int :=
  let start := offset + index * 4
  schedule.set index (toUint32 (bitOr (bitOr (bitOr (shiftLeft (byteAt padded start) 24)
    (shiftLeft (byteAt padded (start + 1)) 16)) (shiftLeft (byteAt padded (start + 2)) 8)) (byteAt padded (start + 3))))

def extendSchedule (schedule : List Int) (index : Nat) : List Int :=
  let w15 := schedule.getD (index - 15) 0
  let w2 := schedule.getD (index - 2) 0
  let sigma0 := toUint32 (bitXor (bitXor (rotateRight32 w15 7) (rotateRight32 w15 18)) (shiftRightUnsigned w15 3))
  let sigma1 := toUint32 (bitXor (bitXor (rotateRight32 w2 17) (rotateRight32 w2 19)) (shiftRightUnsigned w2 10))
  schedule.set index
    (toUint32 (schedule.getD (index - 16) 0 + sigma0 + schedule.getD (index - 7) 0 + sigma1))

def fillSchedule (padded : List UInt8) (offset : Nat) (schedule : List Int) : List Int :=
  (range' 16 48).foldl extendSchedule ((range 16).foldl (loadWord padded offset) schedule)

def sha256Round (schedule : List Int) (s : Sha256.Words Int) (index : Nat) : Sha256.Words Int :=
  let sum1 := toUint32 (bitXor (bitXor (rotateRight32 s.e 6) (rotateRight32 s.e 11)) (rotateRight32 s.e 25))
  let choose := toUint32 (bitXor (bitAnd s.e s.f) (bitAnd (bitNot s.e) s.g))
  let temp1 := toUint32 (s.h + sum1 + choose + sha256RoundConstants.getD index 0 + schedule.getD index 0)
  let sum0 := toUint32 (bitXor (bitXor (rotateRight32 s.a 2) (rotateRight32 s.a 13)) (rotateRight32 s.a 22))
  let majority := toUint32 (bitXor (bitXor (bitAnd s.a s.b) (bitAnd s.a s.c)) (bitAnd s.b s.c))
  let temp2 := toUint32 (sum0 + majority)
  { a := toUint32 (temp1 + temp2), b := s.a, c := s.b, d := s.c, e := toUint32 (s.d + temp1), f := s.e, g := s.f
    h := s.g }

def sha256Block (padded : List UInt8) (state : List Int × Sha256.Words Int) (offset : Nat) :
    List Int × Sha256.Words Int :=
  let schedule := fillSchedule padded offset state.1
  let hash := state.2
  let s := (range 64).foldl (sha256Round schedule) hash
  (schedule,
    { a := toUint32 (hash.a + s.a), b := toUint32 (hash.b + s.b), c := toUint32 (hash.c + s.c)
      d := toUint32 (hash.d + s.d), e := toUint32 (hash.e + s.e), f := toUint32 (hash.f + s.f)
      g := toUint32 (hash.g + s.g), h := toUint32 (hash.h + s.h) })

def sha256Hex (text : Utf16) : String :=
  let padded := paddedMessage (utf8 text)
  let offsets := (range (padded.length / 64)).map (64 * ·)
  String.ofList
    (toHexWords (offsets.foldl (sha256Block padded) (replicate 64 0, sha256InitialHash)).2.toList)

theorem rotateRight32_ofWord {bits : Nat} (some : 0 < bits) (few : bits < 32) (w : Sha256.Word) :
    rotateRight32 (ofWord w) bits = ofWord (Sha256.rotr bits w) := by
  rw [rotateRight32, toUint32_eq, word_bitOr, word_shiftRightUnsigned, word_shiftLeft, word_ofWord,
    Nat.mod_eq_of_lt few, Nat.mod_eq_of_lt (by omega), Sha256.rotr]

theorem sha256RoundConstants_eq : sha256RoundConstants = Sha256.roundConstants.map ofWord := by decide +kernel

theorem sha256InitialHash_eq : sha256InitialHash = Sha256.initialHash.map ofWord := by decide +kernel

theorem constant_eq (t : Nat) : sha256RoundConstants.getD t 0 = ofWord (Sha256.roundConstants.getD t 0) := by
  rw [sha256RoundConstants_eq, getD_eq_getElem?_getD, getElem?_map, getD_eq_getElem?_getD]
  cases Sha256.roundConstants[t]? <;> rfl

variable {schedule : List Int}

theorem sha256Round_eq {t : Nat} {w : Sha256.Word} (there : schedule.getD t 0 = ofWord w)
    (s : Sha256.Words Sha256.Word) : sha256Round schedule (s.map ofWord) t =
      (Sha256.round (Sha256.roundConstants.getD t 0) w s).map ofWord := by
  have sum1 : toUint32 (bitXor (bitXor (rotateRight32 (ofWord s.e) 6) (rotateRight32 (ofWord s.e) 11))
      (rotateRight32 (ofWord s.e) 25)) = ofWord (Sha256.bigSigma1 s.e) := by
    simp [rotateRight32_ofWord, toUint32_eq, Sha256.bigSigma1]
  have sum0 : toUint32 (bitXor (bitXor (rotateRight32 (ofWord s.a) 2) (rotateRight32 (ofWord s.a) 13))
      (rotateRight32 (ofWord s.a) 22)) = ofWord (Sha256.bigSigma0 s.a) := by
    simp [rotateRight32_ofWord, toUint32_eq, Sha256.bigSigma0]
  have choose : toUint32 (bitXor (bitAnd (ofWord s.e) (ofWord s.f)) (bitAnd (bitNot (ofWord s.e)) (ofWord s.g))) =
      ofWord (Sha256.ch s.e s.f s.g) := by
    simp [toUint32_eq, Sha256.ch]
  have majority : toUint32 (bitXor (bitXor (bitAnd (ofWord s.a) (ofWord s.b)) (bitAnd (ofWord s.a) (ofWord s.c)))
      (bitAnd (ofWord s.b) (ofWord s.c))) = ofWord (Sha256.maj s.a s.b s.c) := by
    simp [toUint32_eq, Sha256.maj]
  simp only [sha256Round, Sha256.Words.map, sum1, sum0, choose, majority, constant_eq, there]
  simp [toUint32_eq, Sha256.round]

variable {message : Nat → Sha256.Word}

theorem sha256Rounds_eq
    (filled : ∀ t < 64, schedule.getD t 0 = ofWord (Sha256.schedule message t)) (s : Sha256.Words Sha256.Word) {n : Nat}
    (few : n ≤ 64) : (range n).foldl (sha256Round schedule) (s.map ofWord) =
      ((range n).foldl
        (fun s t => Sha256.round (Sha256.roundConstants.getD t 0) (Sha256.schedule message t) s) s).map ofWord := by
  induction n with
  | zero => rfl
  | succ n ih =>
    rw [range_succ, foldl_append, foldl_append, ih (by omega)]
    exact sha256Round_eq (filled n (by omega)) _

theorem getD_set (schedule : List Int) {index : Nat} (inside : index < schedule.length) (x : Int) (t : Nat) :
    (schedule.set index x).getD t 0 = if t = index then x else schedule.getD t 0 := by
  rw [getD_eq_getElem?_getD, getElem?_set, getD_eq_getElem?_getD]
  by_cases same : t = index
  · rw [if_pos same.symm, if_pos inside, if_pos same, Option.getD_some]
  · rw [if_neg (Ne.symm same), if_neg same]

def loadedWord (padded : List UInt8) (offset t : Nat) : Sha256.Word :=
  word (bitOr (bitOr (bitOr (shiftLeft (byteAt padded (offset + t * 4)) 24)
    (shiftLeft (byteAt padded (offset + t * 4 + 1)) 16)) (shiftLeft (byteAt padded (offset + t * 4 + 2)) 8))
    (byteAt padded (offset + t * 4 + 3)))

variable (padded : List UInt8)

theorem loadWords_eq (offset : Nat) (size : schedule.length = 64) {n : Nat}
    (few : n ≤ 16) : ((range n).foldl (loadWord padded offset) schedule).length = 64 ∧
      ∀ t < n, ((range n).foldl (loadWord padded offset) schedule).getD t 0 =
        ofWord (loadedWord padded offset t) := by
  induction n with
  | zero => exact ⟨size, fun t less => absurd less (Nat.not_lt_zero t)⟩
  | succ n ih =>
    obtain ⟨length, values⟩ := ih (by omega)
    rw [range_succ, foldl_append]
    generalize (range n).foldl (loadWord padded offset) schedule = loaded at length values ⊢
    rw [foldl_cons, foldl_nil, loadWord]
    refine ⟨by rw [length_set, length], fun t less => ?_⟩
    rw [getD_set loaded (by omega)]
    split
    · rename_i same
      rw [toUint32_eq, same, loadedWord]
    · rename_i other
      exact values t (by omega)

theorem extendSchedule_eq {index : Nat} (late : 16 ≤ index)
    (before : ∀ t < index, schedule.getD t 0 = ofWord (Sha256.schedule message t)) :
    extendSchedule schedule index = schedule.set index (ofWord (Sha256.schedule message index)) := by
  have sigma0 (w : Sha256.Word) : toUint32 (bitXor (bitXor (rotateRight32 (ofWord w) 7) (rotateRight32 (ofWord w) 18))
      (shiftRightUnsigned (ofWord w) 3)) = ofWord (Sha256.smallSigma0 w) := by
    simp [rotateRight32_ofWord, toUint32_eq, Sha256.smallSigma0]
  have sigma1 (w : Sha256.Word) : toUint32 (bitXor (bitXor (rotateRight32 (ofWord w) 17) (rotateRight32 (ofWord w) 19))
      (shiftRightUnsigned (ofWord w) 10)) = ofWord (Sha256.smallSigma1 w) := by
    simp [rotateRight32_ofWord, toUint32_eq, Sha256.smallSigma1]
  have sum (w16 s0 w7 s1 : Sha256.Word) :
      toUint32 (ofWord w16 + ofWord s0 + ofWord w7 + ofWord s1) = ofWord (s1 + w7 + s0 + w16) := by
    rw [toUint32_eq]
    simp only [word_add, word_ofWord]
    congr 1
    ac_rfl
  simp only [extendSchedule, before (index - 15) (by omega), before (index - 2) (by omega),
    before (index - 16) (by omega), before (index - 7) (by omega), sigma0, sigma1, sum]
  rw [Sha256.schedule.eq_1 message index, if_neg (by omega)]

theorem extendSchedules_eq (size : schedule.length = 64)
    (first : ∀ t < 16, schedule.getD t 0 = ofWord (Sha256.schedule message t)) {n : Nat} (few : n ≤ 48) :
    ((range' 16 n).foldl extendSchedule schedule).length = 64 ∧
      ∀ t < 16 + n, ((range' 16 n).foldl extendSchedule schedule).getD t 0 =
        ofWord (Sha256.schedule message t) := by
  induction n with
  | zero => exact ⟨size, first⟩
  | succ n ih =>
    obtain ⟨length, values⟩ := ih (by omega)
    rw [range'_concat, Nat.one_mul, foldl_append]
    generalize (range' 16 n).foldl extendSchedule schedule = extended at length values ⊢
    rw [foldl_cons, foldl_nil, extendSchedule_eq (by omega) values]
    refine ⟨by rw [length_set, length], fun t less => ?_⟩
    rw [getD_set extended (by omega)]
    split
    · rename_i same
      rw [same]
    · rename_i other
      exact values t (by omega)

theorem fillSchedule_eq (offset : Nat) (size : schedule.length = 64) :
    (fillSchedule padded offset schedule).length = 64 ∧
      ∀ t < 64, (fillSchedule padded offset schedule).getD t 0 =
        ofWord (Sha256.schedule (loadedWord padded offset) t) := by
  obtain ⟨length, values⟩ := loadWords_eq padded offset size (le_refl 16)
  refine extendSchedules_eq length (fun t less => ?_) (le_refl 48)
  rw [values t less, Sha256.schedule, if_pos less]

theorem sha256Block_eq (size : schedule.length = 64)
    (hash : Sha256.Words Sha256.Word) (offset : Nat) :
    (sha256Block padded (schedule, hash.map ofWord) offset).1.length = 64 ∧
      (sha256Block padded (schedule, hash.map ofWord) offset).2 =
        (Sha256.compress hash (loadedWord padded offset)).map ofWord := by
  obtain ⟨length, filled⟩ := fillSchedule_eq padded offset size
  have rounds := sha256Rounds_eq filled hash (le_refl 64)
  have sum (x y : Sha256.Word) : toUint32 (ofWord x + ofWord y) = ofWord (y + x) := by
    rw [toUint32_eq, word_add, word_ofWord, word_ofWord, BitVec.add_comm]
  rw [sha256Block, Sha256.compress]
  generalize fillSchedule padded offset schedule = filledSchedule at length rounds ⊢
  generalize (range 64).foldl (fun s t => Sha256.round (Sha256.roundConstants.getD t 0)
    (Sha256.schedule (loadedWord padded offset) t) s) hash = s at rounds ⊢
  rw [rounds]
  exact ⟨length, by simp only [Sha256.Words.map, sum]⟩

theorem sha256Blocks_eq (hash : Sha256.Words Sha256.Word) (offsets : List Nat)
    (size : schedule.length = 64) :
    (offsets.foldl (sha256Block padded) (schedule, hash.map ofWord)).2 =
      (offsets.foldl (fun hash offset => Sha256.compress hash (loadedWord padded offset)) hash).map ofWord := by
  induction offsets generalizing schedule hash with
  | nil => rfl
  | cons offset rest ih =>
    obtain ⟨length, value⟩ := sha256Block_eq padded size hash offset
    rw [foldl_cons, foldl_cons]
    generalize sha256Block padded (schedule, hash.map ofWord) offset = next at length value ⊢
    obtain ⟨schedule', hash'⟩ := next
    cases value
    exact ih _ length

theorem word_byteAt (index : Nat) :
    word (byteAt padded index) = BitVec.ofNat 32 (padded.getD index 0).toNat := BitVec.ofInt_natCast _ _

theorem four_bytes {b₀ b₁ b₂ b₃ : Nat} (h₀ : b₀ < 256) (h₁ : b₁ < 256) (h₂ : b₂ < 256) (h₃ : b₃ < 256) :
    BitVec.ofNat 32 b₀ <<< 24 ||| BitVec.ofNat 32 b₁ <<< 16 ||| BitVec.ofNat 32 b₂ <<< 8 ||| BitVec.ofNat 32 b₃ =
      BitVec.ofNat 32 (((b₀ * 256 + b₁) * 256 + b₂) * 256 + b₃) := by
  have shifted {b : Nat} (byte : b < 256) (n : Nat) (few : n ≤ 24) :
      (BitVec.ofNat 32 b <<< n).toNat = b <<< n := by
    have bound : b * 2 ^ n < 2 ^ 32 := by
      have := Nat.mul_le_mul_left b (Nat.pow_le_pow_right (show 0 < 2 by decide) few)
      omega
    have small : b < 2 ^ 32 := byte.trans (by decide)
    rw [BitVec.toNat_shiftLeft, BitVec.toNat_ofNat, Nat.mod_eq_of_lt small, Nat.shiftLeft_eq,
      Nat.mod_eq_of_lt bound]
  apply BitVec.eq_of_toNat_eq
  rw [BitVec.toNat_or, BitVec.toNat_or, BitVec.toNat_or, shifted h₀ 24 (by omega), shifted h₁ 16 (by omega),
    shifted h₂ 8 (by omega), BitVec.toNat_ofNat, BitVec.toNat_ofNat, Nat.mod_eq_of_lt (by omega),
    Nat.mod_eq_of_lt (by omega)]
  have two : b₀ <<< 24 ||| b₁ <<< 16 = (b₀ * 256 + b₁) <<< 16 := by
    rw [show b₀ <<< 24 = (b₀ <<< 8) <<< 16 by rw [← Nat.shiftLeft_add], ← Nat.shiftLeft_or_distrib,
      ← Nat.shiftLeft_add_eq_or_of_lt h₁, Nat.shiftLeft_eq b₀]
  have three : (b₀ * 256 + b₁) <<< 16 ||| b₂ <<< 8 = ((b₀ * 256 + b₁) * 256 + b₂) <<< 8 := by
    rw [show (b₀ * 256 + b₁) <<< 16 = ((b₀ * 256 + b₁) <<< 8) <<< 8 by rw [← Nat.shiftLeft_add],
      ← Nat.shiftLeft_or_distrib, ← Nat.shiftLeft_add_eq_or_of_lt h₂, Nat.shiftLeft_eq (b₀ * 256 + b₁)]
  rw [two, three, ← Nat.shiftLeft_add_eq_or_of_lt h₃, Nat.shiftLeft_eq]

theorem loadedWord_eq {padded : List UInt8} {block t : Nat} (first : t < 16)
    (inside : 64 * block + 64 ≤ padded.length) :
    loadedWord padded (64 * block) t = Sha256.messageWord (Sha256.bytesBits padded) block t := by
  have start : 512 * block + 32 * t = 8 * (64 * block + t * 4) := by ring
  have long : 64 * block + t * 4 + 4 ≤ padded.length := by omega
  rw [loadedWord, Sha256.messageWord, start]
  generalize 64 * block + t * 4 = start at long ⊢
  obtain ⟨b₀, b₁, b₂, b₃, rest, bytes⟩ : ∃ b₀ b₁ b₂ b₃ rest, padded.drop start = b₀ :: b₁ :: b₂ :: b₃ :: rest := by
    have size : 4 ≤ (padded.drop start).length := by
      rw [length_drop]
      omega
    match padded.drop start, size with
    | b₀ :: b₁ :: b₂ :: b₃ :: rest, _ => exact ⟨b₀, b₁, b₂, b₃, rest, rfl⟩
  have byte (i : Nat) : padded.getD (start + i) 0 = (b₀ :: b₁ :: b₂ :: b₃ :: rest).getD i 0 := by
    rw [← bytes, getD_eq_getElem?_getD, getD_eq_getElem?_getD, getElem?_drop]
  have digits : ((Sha256.bytesBits padded).drop (8 * start)).take 32 = Sha256.bytesBits [b₀, b₁, b₂, b₃] := by
    have four : 32 = 8 * 4 := rfl
    rw [Sha256.drop_bytesBits, four, Sha256.take_bytesBits, bytes]
    rfl
  have number : Sha256.value (Sha256.bytesBits [b₀, b₁, b₂, b₃]) =
      ((b₀.toNat * 256 + b₁.toNat) * 256 + b₂.toNat) * 256 + b₃.toNat := by
    have eight (b : UInt8) : b.toNat % 2 ^ 8 = b.toNat := Nat.mod_eq_of_lt b.toNat_lt
    simp only [Sha256.value, Sha256.bytesBits_cons, foldl_append, Sha256.foldl_bits, eight]
    simp [Sha256.bytesBits]
  simp only [word_bitOr, word_shiftLeft, word_byteAt, byte, digits, number]
  rw [← Nat.add_zero start, byte]
  exact four_bytes b₀.toNat_lt b₁.toNat_lt b₂.toNat_lt b₃.toNat_lt

theorem toNat_lowByte (n : Nat) {bits : Nat} (few : bits < 32) :
    (toUint8 (bitAnd (shiftRightUnsigned n bits) 0xff)).toNat = n % 2 ^ 32 / 2 ^ bits % 256 := by
  have low : (word (shiftRightUnsigned n bits) &&& word 0xff).toNat = n % 2 ^ 32 / 2 ^ bits % 256 := by
    have number : (word n).toNat = n % 2 ^ 32 := by rw [word, BitVec.ofInt_natCast, BitVec.toNat_ofNat]
    have mask : (word 0xff).toNat = 2 ^ 8 - 1 := rfl
    rw [BitVec.toNat_and, mask, Nat.and_two_pow_sub_one_eq_mod, word_shiftRightUnsigned, BitVec.toNat_ushiftRight,
      Nat.mod_eq_of_lt few, number, Nat.shiftRight_eq_div_pow]
  have small : n % 2 ^ 32 / 2 ^ bits % 256 < 256 := Nat.mod_lt _ (by decide)
  rw [toUint8, bitAnd, BitVec.toInt_eq_toNat_of_lt (by omega), low]
  rw [UInt8.toNat_ofBitVec, BitVec.ofInt_natCast, BitVec.toNat_ofNat]
  exact Nat.mod_eq_of_lt small

theorem bits_byte {n m : Nat} {byte : UInt8} (value : byte.toNat = m % 256) (same : m % 256 = n % 256) :
    Sha256.bits 8 byte.toNat = Sha256.bits 8 n := by
  have two : 256 = 2 ^ 8 := rfl
  rw [value, same, two, Sha256.bits_mod]

theorem bits_sixtyFour (n : Nat) : Sha256.bits 64 n =
    Sha256.bits 8 (n / 2 ^ 56) ++ (Sha256.bits 8 (n / 2 ^ 48) ++ (Sha256.bits 8 (n / 2 ^ 40) ++
      (Sha256.bits 8 (n / 2 ^ 32) ++ (Sha256.bits 8 (n / 2 ^ 24) ++ (Sha256.bits 8 (n / 2 ^ 16) ++
        (Sha256.bits 8 (n / 2 ^ 8) ++ Sha256.bits 8 n)))))) := by
  rw [← Sha256.bits_add 8 8, ← Sha256.bits_add 8 16, ← Sha256.bits_add 8 24, ← Sha256.bits_add 8 32,
    ← Sha256.bits_add 8 40, ← Sha256.bits_add 8 48, ← Sha256.bits_add 8 56]

def lengthBytes (n : Nat) : List UInt8 :=
  let high : Int := (n / 0x100000000 : Nat)
  let low : Int := toUint32 n
  [toUint8 (bitAnd (shiftRightUnsigned high 24) 0xff), toUint8 (bitAnd (shiftRightUnsigned high 16) 0xff),
    toUint8 (bitAnd (shiftRightUnsigned high 8) 0xff), toUint8 (bitAnd high 0xff),
    toUint8 (bitAnd (shiftRightUnsigned low 24) 0xff), toUint8 (bitAnd (shiftRightUnsigned low 16) 0xff),
    toUint8 (bitAnd (shiftRightUnsigned low 8) 0xff), toUint8 (bitAnd low 0xff)]

theorem bytesBits_lengthBytes (n : Nat) : Sha256.bytesBits (lengthBytes n) = Sha256.bits 64 n := by
  have whole (x : Int) : bitAnd x 0xff = bitAnd (shiftRightUnsigned x 0) 0xff := by
    rw [← bitAnd_toUint32, toUint32]
  have none : Sha256.bytesBits [] = [] := rfl
  simp only [lengthBytes, Sha256.bytesBits_cons, none, append_nil, shiftRightUnsigned_toUint32, bitAnd_toUint32]
  rw [whole n, whole ((n / 0x100000000 : Nat) : Int), bits_sixtyFour,
    bits_byte (toNat_lowByte (n / 0x100000000) (show 24 < 32 by decide)) (n := n / 2 ^ 56) (by omega),
    bits_byte (toNat_lowByte (n / 0x100000000) (show 16 < 32 by decide)) (n := n / 2 ^ 48) (by omega),
    bits_byte (toNat_lowByte (n / 0x100000000) (show 8 < 32 by decide)) (n := n / 2 ^ 40) (by omega),
    bits_byte (toNat_lowByte (n / 0x100000000) (show 0 < 32 by decide)) (n := n / 2 ^ 32) (by omega),
    bits_byte (toNat_lowByte n (show 24 < 32 by decide)) (n := n / 2 ^ 24) (by omega),
    bits_byte (toNat_lowByte n (show 16 < 32 by decide)) (n := n / 2 ^ 16) (by omega),
    bits_byte (toNat_lowByte n (show 8 < 32 by decide)) (n := n / 2 ^ 8) (by omega),
    bits_byte (toNat_lowByte n (show 0 < 32 by decide)) (n := n) (by omega)]

theorem paddedMessage_eq (message : List UInt8) : paddedMessage message =
    message ++ 0x80 :: replicate ((message.length + 9 + 63) / 64 * 64 - message.length - 9) 0 ++
      lengthBytes (message.length * 8) := by
  have fits : message.length + 9 ≤ (message.length + 9 + 63) / 64 * 64 := by omega
  rw [paddedMessage]
  generalize (message.length + 9 + 63) / 64 * 64 = paddedLength at fits ⊢
  obtain ⟨z, rfl⟩ : ∃ z, paddedLength = message.length + 1 + z + 8 := ⟨paddedLength - message.length - 9, by omega⟩
  have set_append (front back : List UInt8) (k : Nat) (x : UInt8) :
      (front ++ back).set (front.length + k) x = front ++ back.set k x := by
    rw [set_append, if_neg (by omega), Nat.add_sub_cancel_left]
  have room : message.length + 1 + z + 8 - message.length = z + 8 + 1 := by omega
  have rest : z + 8 + 1 - 9 = z := by omega
  have first : (message ++ replicate (z + 8 + 1) 0).set message.length 0x80 =
      (message ++ 0x80 :: replicate z 0) ++ replicate 8 (0 : UInt8) := by
    rw [← Nat.add_zero message.length, set_append, replicate_succ, set_cons_zero, replicate_add,
      append_assoc, cons_append]
  have size : (message ++ 0x80 :: replicate z (0 : UInt8)).length = message.length + 1 + z := by
    rw [length_append, length_cons, length_replicate]
    ring
  simp only [room, rest, first]
  generalize message ++ 0x80 :: replicate z 0 = front at size ⊢
  generalize message.length + 1 + z = start at size ⊢
  subst size
  have places : front.length + 8 - 8 = front.length + 0 ∧ front.length + 8 - 7 = front.length + 1 ∧
      front.length + 8 - 6 = front.length + 2 ∧ front.length + 8 - 5 = front.length + 3 ∧
      front.length + 8 - 4 = front.length + 4 ∧ front.length + 8 - 3 = front.length + 5 ∧
      front.length + 8 - 2 = front.length + 6 ∧ front.length + 8 - 1 = front.length + 7 := by omega
  obtain ⟨p₀, p₁, p₂, p₃, p₄, p₅, p₆, p₇⟩ := places
  rw [p₀, p₁, p₂, p₃, p₄, p₅, p₆, p₇]
  simp only [set_append]
  rfl

theorem bytesBits_replicate (z : Nat) : Sha256.bytesBits (replicate z 0) = replicate (8 * z) false := by
  induction z with
  | zero => rfl
  | succ z ih =>
    rw [replicate_succ, Sha256.bytesBits_cons, ih, Nat.mul_succ, Nat.add_comm, replicate_add]
    rfl

theorem bytesBits_paddedMessage (message : List UInt8) :
    Sha256.bytesBits (paddedMessage message) = Sha256.pad (Sha256.bytesBits message) := by
  have zeros : Sha256.zeros (8 * message.length) =
      7 + 8 * ((message.length + 9 + 63) / 64 * 64 - message.length - 9) := by
    rw [Sha256.zeros]
    omega
  have one : Sha256.bits 8 (0x80 : UInt8).toNat = true :: replicate 7 false := rfl
  rw [paddedMessage_eq, Sha256.bytesBits_append, Sha256.bytesBits_append, Sha256.bytesBits_cons, bytesBits_replicate,
    bytesBits_lengthBytes, one, Sha256.pad, Sha256.length_bytesBits, zeros, replicate_add,
    Nat.mul_comm message.length 8, cons_append]

theorem length_paddedMessage (message : List UInt8) : (paddedMessage message).length % 64 = 0 := by
  have whole := Sha256.length_pad (Sha256.bytesBits message)
  rw [← bytesBits_paddedMessage, Sha256.length_bytesBits] at whole
  omega

theorem hex_bits (width n : Nat) : Sha256.hex (Sha256.bits (4 * (width + 1)) n) =
    Sha256.hex (Sha256.bits (4 * width) (n / 16)) ++ [Sha256.hexDigit (n % 16)] := by
  have sixteen : 2 ^ 4 = 16 := rfl
  have last : Sha256.hex (Sha256.bits 4 n) = [Sha256.hexDigit (n % 16)] := by
    have four : Sha256.hex (Sha256.bits 4 n) = [Sha256.hexDigit (Sha256.value (Sha256.bits 4 n))] := rfl
    rw [four, Sha256.value_bits, sixteen]
  have parts : 4 * (width + 1) = 4 * width + 4 := rfl
  rw [parts, Sha256.bits_add, sixteen, Sha256.hex_append (by rw [Sha256.length_bits]; exact Nat.dvd_mul_right 4 width), last]

theorem leftpad_hexDigits {width n : Nat} (fits : n < 16 ^ (width + 1)) :
    (hexDigits n).leftpad (width + 1) '0' = Sha256.hex (Sha256.bits (4 * (width + 1)) n) := by
  induction width generalizing n with
  | zero =>
    rw [hexDigits, if_pos (by omega), hex_bits, Nat.mod_eq_of_lt (by omega)]
    rfl
  | succ width ih =>
    have high : n / 16 < 16 ^ (width + 1) := Nat.div_lt_of_lt_mul (by rwa [← Nat.pow_succ'])
    rw [hex_bits, ← ih high]
    by_cases small : n < 16
    · have zero : hexDigits 0 = ['0'] := by
        rw [hexDigits, if_pos (by decide)]
        rfl
      rw [Nat.div_eq_of_lt small, Nat.mod_eq_of_lt small, hexDigits, if_pos small, zero]
      simp [leftpad, replicate_succ']
    · rw [hexDigits.eq_1 n, if_neg small]
      simp [leftpad]

theorem toHexWords_eq (words : List Sha256.Word) :
    toHexWords (words.map ofWord) = Sha256.hex (words.flatMap fun word => Sha256.bits 32 word.toNat) := by
  have each (words : List Sha256.Word) (hex : List Char) :
      (words.map ofWord).foldl (fun hex word => hex ++ (hexDigits word.toNat).leftpad 8 '0') hex =
        hex ++ Sha256.hex (words.flatMap fun word => Sha256.bits 32 word.toNat) := by
    induction words generalizing hex with
    | nil => exact (append_nil hex).symm
    | cons word rest ih =>
      have eight : (hexDigits (ofWord word).toNat).leftpad 8 '0' = Sha256.hex (Sha256.bits 32 word.toNat) :=
        leftpad_hexDigits word.isLt
      rw [map_cons, foldl_cons, ih, eight, flatMap_cons, Sha256.hex_append (by
        rw [Sha256.length_bits]
        decide), append_assoc]
  exact each words []

theorem sha256Hex_eq (text : Utf16) :
    sha256Hex text = String.ofList (Sha256.hex (Sha256.digest (Sha256.bytesBits (utf8 text)))) := by
  have whole := length_paddedMessage (utf8 text)
  have blocks : (Sha256.pad (Sha256.bytesBits (utf8 text))).length / 512 = (paddedMessage (utf8 text)).length / 64 := by
    rw [← bytesBits_paddedMessage, Sha256.length_bytesBits]
    omega
  rw [sha256Hex, Sha256.digest, ← toHexWords_eq, sha256InitialHash_eq, sha256Blocks_eq _ _ _ (length_replicate),
    Sha256.Words.toList_map, Sha256.hash, blocks, ← bytesBits_paddedMessage, foldl_map]
  generalize paddedMessage (utf8 text) = padded at whole
  have same (n : Nat) (few : 64 * n ≤ padded.length) (hash : Sha256.Words Sha256.Word) :
      (range n).foldl (fun hash block => Sha256.compress hash (loadedWord padded (64 * block))) hash =
        (range n).foldl
          (fun hash block => Sha256.compress hash (Sha256.messageWord (Sha256.bytesBits padded) block)) hash := by
    induction n with
    | zero => rw [range_zero, foldl_nil, foldl_nil]
    | succ n ih =>
      rw [range_succ, foldl_append, foldl_append, ih (by omega)]
      exact Sha256.compress_congr (fun t first => loadedWord_eq first (by omega)) _
  rw [same _ (by omega)]

end EverWorks.Builds
