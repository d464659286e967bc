import EverWorks.Lib.Base64
import EverWorks.Lib.Utf8
import Mathlib.Algebra.Order.Floor.Div

/-!
Terminal and computer frames carry bytes as canonical base64 and are gated by their size in UTF-8 before anything is
parsed. The pattern is a regular expression, matched against the whole string.
-/

namespace EverWorks.Frames
open Lib List

/-- `string | Uint8Array` -/
inductive RawFrame where
  | text (units : Utf16)
  | bytes (bytes : List UInt8)
  deriving DecidableEq

def isFrameWithinSizeCap (cap : Nat) : RawFrame → Bool
  | .bytes bytes => bytes.length ≤ cap
  | .text units =>
    if cap < units.length then false
    else if units.length * 3 ≤ cap then true
    else units.utf8.length ≤ cap

theorem isFrameWithinSizeCap_text (cap : Nat) (units : Utf16) :
    isFrameWithinSizeCap cap (.text units) = decide (units.utf8.length ≤ cap) := by
  have low := Utf16.length_le_byteLength units
  have high := Utf16.byteLength_le units
  rw [isFrameWithinSizeCap, Utf16.length_utf8]
  split_ifs
  · exact (decide_eq_false (by omega)).symm
  · exact (decide_eq_true (by omega)).symm
  · rfl

namespace Terminal

def terminalMaxFrameBytes : Nat := 1024 * 1024

/-- `/^(?:[A-Za-z0-9+/]{4})*(?:[A-Za-z0-9+/][AQgw]==|[A-Za-z0-9+/]{2}[AEIMQUYcgkosw048]=)?$/` -/
def base64Pattern : RegularExpression UInt16 :=
  (anyOf Base64.alphabet ^ 4).star *
    (anyOf Base64.alphabet * anyOf (ascii "AQgw") * .char Base64.pad * .char Base64.pad +
      anyOf Base64.alphabet ^ 2 * anyOf (ascii "AEIMQUYcgkosw048") * .char Base64.pad + 1)

def isBase64 (value : Utf16) : Bool := base64Pattern.rmatch value

def isTerminalFrameWithinSizeCap : RawFrame → Bool := isFrameWithinSizeCap terminalMaxFrameBytes

end Terminal

namespace Computer

def computerMaxFrameBytes : Nat := 512 * 1024

def computerMaxWireFrameBytes : Nat := computerMaxFrameBytes * 4 ⌈/⌉ 3 + 4096

def base64Pattern : RegularExpression UInt16 := Terminal.base64Pattern

def decodedComputerBase64Bytes (data : Utf16) : Rat :=
  if data.length = 0 then 0
  else
    let padding : Rat :=
      if [Base64.pad, Base64.pad] <:+ data then 2 else if [Base64.pad] <:+ data then 1 else 0
    data.length / 4 * 3 - padding

def isComputerFrameWithinSizeCap : RawFrame → Bool := isFrameWithinSizeCap computerMaxWireFrameBytes

end Computer

open Base64 Terminal

theorem mem_lastDigits {units : Utf16} {spare : Nat}
    (digits : units = ((List.range 64).filter fun q => q % spare = 0).map digit) {unit : UInt16} :
    unit ∈ units ↔ ∃ q < 64, q % spare = 0 ∧ digit q = unit := by
  simp only [digits, mem_map, mem_filter, mem_range, decide_eq_true_eq, and_assoc]

theorem mem_lastOfTwo {unit : UInt16} : unit ∈ ascii "AQgw" ↔ ∃ q < 64, q % 16 = 0 ∧ digit q = unit :=
  mem_lastDigits (by decide)

theorem mem_lastOfThree {unit : UInt16} :
    unit ∈ ascii "AEIMQUYcgkosw048" ↔ ∃ r < 64, r % 4 = 0 ∧ digit r = unit :=
  mem_lastDigits (by decide)

theorem mem_twoPads {text : Utf16} :
    text ∈ (anyOf alphabet * anyOf (ascii "AQgw") * .char pad * .char pad : RegularExpression UInt16).matches' ↔
      ∃ a, encode [a] = text := by
  rw [encode_one_iff]
  constructor
  · rintro ⟨_, ⟨_, ⟨_, first, _, second, rfl⟩, _, rfl, rfl⟩, _, rfl, rfl⟩
    obtain ⟨_, known, rfl⟩ := mem_anyOf.mp first
    obtain ⟨_, last, rfl⟩ := mem_anyOf.mp second
    obtain ⟨p, hp, rfl⟩ := mem_alphabet.mp known
    obtain ⟨q, hq, spare, rfl⟩ := Iff.mp mem_lastOfTwo last
    exact ⟨p, hp, q, hq, spare, rfl⟩
  · rintro ⟨p, -, q, hq, spare, rfl⟩
    have first : [digit p] ∈ (anyOf alphabet).matches' := mem_anyOf.mpr ⟨_, digit_mem p, rfl⟩
    have second : [digit q] ∈ (anyOf (ascii "AQgw")).matches' :=
      mem_anyOf.mpr ⟨_, Iff.mpr mem_lastOfTwo ⟨q, hq, spare, rfl⟩, rfl⟩
    exact ⟨_, ⟨_, ⟨_, first, _, second, rfl⟩, _, rfl, rfl⟩, _, rfl, rfl⟩

theorem mem_onePad {text : Utf16} :
    text ∈ (anyOf alphabet ^ 2 * anyOf (ascii "AEIMQUYcgkosw048") * .char pad : RegularExpression UInt16).matches' ↔
      ∃ a b, encode [a, b] = text := by
  rw [encode_two_iff]
  constructor
  · rintro ⟨_, ⟨front, two, _, third, rfl⟩, _, rfl, rfl⟩
    obtain ⟨length, known⟩ := mem_anyOf_pow.mp two
    obtain ⟨_, last, rfl⟩ := mem_anyOf.mp third
    obtain ⟨first, second, rfl⟩ := length_eq_two.mp length
    simp only [forall_mem_cons, mem_alphabet] at known
    obtain ⟨⟨p, hp, rfl⟩, ⟨q, hq, rfl⟩, -⟩ := known
    obtain ⟨r, hr, spare, rfl⟩ := Iff.mp mem_lastOfThree last
    exact ⟨p, hp, q, hq, r, hr, spare, rfl⟩
  · rintro ⟨p, -, q, -, r, hr, spare, rfl⟩
    have two : [digit p, digit q] ∈ (anyOf alphabet ^ 2).matches' := by
      refine mem_anyOf_pow.mpr ⟨rfl, ?_⟩
      simp only [forall_mem_cons]
      exact ⟨digit_mem p, digit_mem q, nofun⟩
    have third : [digit r] ∈ (anyOf (ascii "AEIMQUYcgkosw048")).matches' :=
      mem_anyOf.mpr ⟨_, Iff.mpr mem_lastOfThree ⟨r, hr, spare, rfl⟩, rfl⟩
    exact ⟨_, ⟨_, two, _, third, rfl⟩, _, rfl, rfl⟩

theorem mem_quanta {text : Utf16} :
    text ∈ (anyOf alphabet ^ 4).star.matches' ↔ ∃ bytes : List UInt8, 3 ∣ bytes.length ∧ encode bytes = text := by
  rw [RegularExpression.matches'_star, Language.mem_kstar, ← quanta_iff]
  simp only [mem_anyOf_pow]

theorem isBase64_iff {value : Utf16} : isBase64 value = true ↔ ∃ bytes, encode bytes = value := by
  rw [isBase64, RegularExpression.rmatch_iff_matches', base64Pattern, RegularExpression.matches'_mul, Language.mem_mul]
  simp only [mem_quanta, RegularExpression.matches'_add, Language.mem_add, mem_twoPads, mem_onePad,
    RegularExpression.matches'_epsilon, Language.mem_one]
  constructor
  · rintro ⟨_, ⟨front, whole, rfl⟩, _, (⟨a, rfl⟩ | ⟨a, b, rfl⟩) | rfl, rfl⟩
    · exact ⟨front ++ [a], encode_append whole [a]⟩
    · exact ⟨front ++ [a, b], encode_append whole [a, b]⟩
    · exact ⟨front, (append_nil _).symm⟩
  · rintro ⟨bytes, rfl⟩
    obtain ⟨front, rest, rfl, whole, short⟩ := exists_groups bytes
    refine ⟨_, ⟨front, whole, rfl⟩, encode rest, ?_, (encode_append whole rest).symm⟩
    match rest, short with
    | [], _ => exact Or.inr rfl
    | [a], _ => exact Or.inl (Or.inl ⟨a, rfl⟩)
    | [a, b], _ => exact Or.inl (Or.inr ⟨a, b, rfl⟩)

theorem length_encode_whole {bytes : List UInt8} (whole : 3 ∣ bytes.length) :
    (encode bytes).length = bytes.length / 3 * 4 := by
  induction bytes using encode.induct with
  | case1 a b c rest ih =>
    have whole : 3 ∣ rest.length := by
      simp only [length_cons] at whole
      omega
    simp only [encode, length_append, ih whole, length_cons, quantum, length_nil]
    omega
  | case2 a b => exact absurd whole (by simp)
  | case3 a => exact absurd whole (by simp)
  | case4 => rfl

theorem pad_notMem_encode {bytes : List UInt8} (whole : 3 ∣ bytes.length) : pad ∉ encode bytes := by
  obtain ⟨quanta, same, digits⟩ := quanta_iff.mpr ⟨bytes, whole, rfl⟩
  rw [same]
  intro mem
  obtain ⟨quad, member, inside⟩ := mem_flatten.mp mem
  obtain ⟨n, -, digit⟩ := mem_alphabet.mp ((digits quad member).2 pad inside)
  exact digit_ne_pad n digit

theorem decodedComputerBase64Bytes_encode (bytes : List UInt8) :
    Computer.decodedComputerBase64Bytes (encode bytes) = bytes.length := by
  obtain ⟨front, rest, rfl, whole, short⟩ := exists_groups bytes
  have length := length_encode_whole whole
  obtain ⟨groups, count⟩ := whole
  rw [count, Nat.mul_div_cancel_left groups (by decide)] at length
  rw [encode_append ⟨groups, count⟩, length_append, count, Computer.decodedComputerBase64Bytes, length_append, length]
  match rest, short with
  | [], _ =>
    have plain : ¬ [pad] <:+ encode front := fun suffix =>
      pad_notMem_encode ⟨groups, count⟩ (suffix.subset mem_cons_self)
    have none : ¬ [pad, pad] <:+ encode front := fun suffix => plain ((suffix_cons _ _).trans suffix)
    rw [encode, append_nil, if_neg none, if_neg plain]
    split
    · rename_i empty
      have : groups = 0 := by simpa using empty
      simp [this]
    · push_cast
      simp
      ring
  | [a], _ =>
    have two : [pad, pad] <:+ encode front ++ encode [a] := by
      rw [encode, ← append_assoc]
      exact suffix_append _ _
    rw [if_pos two, if_neg (by simp [encode, quantum])]
    simp only [encode, quantum, List.take, length_append, length_cons, length_nil]
    push_cast
    ring
  | [a, b], _ =>
    have one : [pad] <:+ encode front ++ encode [a, b] := by
      rw [encode, ← append_assoc]
      exact suffix_append _ _
    have none : ¬ [pad, pad] <:+ encode front ++ encode [a, b] := by
      intro suffix
      have last := reverse_prefix.mpr suffix
      simp [encode, quantum] at last
      exact digit_ne_pad _ last.symm
    rw [if_neg none, if_pos one, if_neg (by simp [encode, quantum])]
    simp only [encode, quantum, List.take, length_append, length_cons, length_nil]
    push_cast
    ring

/-- The pattern accepts exactly the encodings of bytes, whose size is computed right and which decoding tells apart; both
gates compare the length of the UTF-8 form with their cap. -/
theorem frame_bytes_one_form :
    {value | isBase64 value = true} = Set.range encode ∧
      {value | Computer.base64Pattern.rmatch value = true} = Set.range encode ∧
      (∀ bytes, Computer.decodedComputerBase64Bytes (encode bytes) = bytes.length ∧ decode (encode bytes) = bytes) ∧
      Set.InjOn decode {value | isBase64 value = true} ∧
      ∀ units : Utf16,
        isTerminalFrameWithinSizeCap (.text units) = decide (units.utf8.length ≤ terminalMaxFrameBytes) ∧
        Computer.isComputerFrameWithinSizeCap (.text units) =
          decide (units.utf8.length ≤ Computer.computerMaxWireFrameBytes) := by
  have accepted : {value | isBase64 value = true} = Set.range encode := Set.ext fun _ => isBase64_iff
  refine ⟨accepted, accepted, fun bytes => ⟨decodedComputerBase64Bytes_encode bytes, decode_encode bytes⟩, ?_, fun units =>
    ⟨isFrameWithinSizeCap_text _ units, isFrameWithinSizeCap_text _ units⟩⟩
  rw [accepted]
  rintro _ ⟨first, rfl⟩ _ ⟨second, rfl⟩ same
  rw [decode_encode, decode_encode] at same
  rw [same]

end EverWorks.Frames
