import EverWorks.Lib.Utf16

/-!
The bytes of a string. A surrogate that is not part of a pair is written as the replacement character.
-/

namespace EverWorks.Lib.Utf16
open List

def pairPoint (high low : UInt16) : Nat := 0x10000 + (high.toNat - 0xD800) * 0x400 + (low.toNat - 0xDC00)

def codePoints : Utf16 → List Nat
  | [] => []
  | [unit] => [if isHighSurrogate unit || isLowSurrogate unit then 0xFFFD else unit.toNat]
  | unit :: next :: rest =>
    if isHighSurrogate unit && isLowSurrogate next then pairPoint unit next :: codePoints rest
    else (if isHighSurrogate unit || isLowSurrogate unit then 0xFFFD else unit.toNat) :: codePoints (next :: rest)

def pointBytes (point : Nat) : List UInt8 :=
  if point < 0x80 then [UInt8.ofNat point]
  else if point < 0x800 then [UInt8.ofNat (0xC0 + point / 64), UInt8.ofNat (0x80 + point % 64)]
  else if point < 0x10000 then
    [UInt8.ofNat (0xE0 + point / 4096), UInt8.ofNat (0x80 + point / 64 % 64), UInt8.ofNat (0x80 + point % 64)]
  else
    [UInt8.ofNat (0xF0 + point / 262144), UInt8.ofNat (0x80 + point / 4096 % 64), UInt8.ofNat (0x80 + point / 64 % 64),
      UInt8.ofNat (0x80 + point % 64)]

/-- `new TextEncoder().encode(text)` -/
def utf8 (text : Utf16) : List UInt8 := (codePoints text).flatMap pointBytes

theorem length_pointBytes (point : Nat) : (pointBytes point).length =
    if point < 0x80 then 1 else if point < 0x800 then 2 else if point < 0x10000 then 3 else 4 := by
  rw [pointBytes]
  split_ifs <;> rfl

theorem length_pointBytes_unit (unit : UInt16) :
    (pointBytes (if isHighSurrogate unit || isLowSurrogate unit then 0xFFFD else unit.toNat)).length = width unit := by
  have bound := unit.toNat_lt
  rw [length_pointBytes]
  simp only [width, isHighSurrogate, isLowSurrogate, UInt16.lt_iff_toNat_lt, UInt16.le_iff_toNat_le, Bool.or_eq_true,
    Bool.and_eq_true, decide_eq_true_eq, UInt16.reduceToNat]
  split_ifs <;> omega

theorem length_pairPoint (high low : UInt16) : (pointBytes (pairPoint high low)).length = 4 := by
  have large : 0x10000 ≤ pairPoint high low := (Nat.le_add_right _ _).trans (Nat.le_add_right _ _)
  rw [length_pointBytes, if_neg (by omega), if_neg (by omega), if_neg (by omega)]

theorem length_utf8 (text : Utf16) : (utf8 text).length = byteLength text := by
  rw [utf8]
  induction text using byteLength.induct with
  | case1 => rfl
  | case2 unit => rw [codePoints, flatMap_singleton, length_pointBytes_unit, byteLength]
  | case3 high low rest pair ih =>
    rw [codePoints, if_pos pair, flatMap_cons, length_append, length_pairPoint, ih, byteLength, if_pos pair]
  | case4 unit next rest apart ih =>
    rw [codePoints, if_neg apart, flatMap_cons, length_append, length_pointBytes_unit, ih, byteLength,
      if_neg apart]

/-- A lone surrogate between two letters. -/
example : utf8 [0x61, 0xD800, 0x62] = [0x61, 0xEF, 0xBF, 0xBD, 0x62] := by decide

theorem one_le_width (unit : UInt16) : 1 ≤ width unit := by
  rw [width]
  split
  · exact le_rfl
  · split <;> decide

theorem width_le_three (unit : UInt16) : width unit ≤ 3 := by
  rw [width]
  split
  · decide
  · split <;> decide

theorem length_le_byteLength (text : Utf16) : text.length ≤ byteLength text := by
  induction text using byteLength.induct with
  | case1 => exact le_rfl
  | case2 unit => exact one_le_width unit
  | case3 high low rest pair ih =>
    rw [byteLength, if_pos pair, length_cons, length_cons]
    omega
  | case4 unit next rest apart ih =>
    have := one_le_width unit
    rw [byteLength, if_neg apart, length_cons]
    omega

theorem byteLength_le (text : Utf16) : byteLength text ≤ text.length * 3 := by
  induction text using byteLength.induct with
  | case1 => exact le_rfl
  | case2 unit => exact width_le_three unit
  | case3 high low rest pair ih =>
    rw [byteLength, if_pos pair, length_cons, length_cons]
    omega
  | case4 unit next rest apart ih =>
    have := width_le_three unit
    rw [byteLength, if_neg apart, length_cons]
    omega

/-- `text.isWellFormed()`: every surrogate is half of a pair. -/
def isWellFormed : Utf16 → Bool
  | [] => true
  | [unit] => !(isHighSurrogate unit || isLowSurrogate unit)
  | unit :: next :: rest =>
    if isHighSurrogate unit && isLowSurrogate next then isWellFormed rest
    else !(isHighSurrogate unit || isLowSurrogate unit) && isWellFormed (next :: rest)

theorem isWellFormed_append {unit : UInt16} (ascii : unit < 0x80) (front rest : Utf16) :
    isWellFormed (front ++ unit :: rest) = (isWellFormed front && isWellFormed rest) := by
  induction front using isWellFormed.induct with
  | case1 =>
    cases rest with
    | nil => simp [isWellFormed, not_low_of_ascii ascii, not_high_of_ascii ascii]
    | cons next rest => simp [isWellFormed, not_low_of_ascii ascii, not_high_of_ascii ascii]
  | case2 alone =>
    cases rest with
    | nil => simp [isWellFormed, not_low_of_ascii ascii, not_high_of_ascii ascii]
    | cons next rest => simp [isWellFormed, not_low_of_ascii ascii, not_high_of_ascii ascii]
  | case3 high low front pair ih => simp only [cons_append, isWellFormed, pair, if_true, ih]
  | case4 first next front apart ih =>
    rw [cons_append] at ih
    simp only [cons_append, isWellFormed, apart]
    simp [ih, Bool.and_assoc]

def pointUnits (point : Nat) : Utf16 :=
  if point < 0x10000 then [UInt16.ofNat point]
  else [UInt16.ofNat (0xD800 + (point - 0x10000) / 0x400), UInt16.ofNat (0xDC00 + (point - 0x10000) % 0x400)]

theorem pair_bounds {high low : UInt16} (pair : (isHighSurrogate high && isLowSurrogate low) = true) :
    (0xD800 ≤ high.toNat ∧ high.toNat ≤ 0xDBFF) ∧ 0xDC00 ≤ low.toNat ∧ low.toNat ≤ 0xDFFF := by
  simpa [isHighSurrogate, isLowSurrogate, UInt16.le_iff_toNat_le] using pair

theorem pointUnits_pairPoint {high low : UInt16} (pair : (isHighSurrogate high && isLowSurrogate low) = true) :
    pointUnits (pairPoint high low) = [high, low] := by
  obtain ⟨⟨h₁, h₂⟩, l₁, l₂⟩ := pair_bounds pair
  have first : 0xD800 + (pairPoint high low - 0x10000) / 0x400 = high.toNat := by
    unfold pairPoint
    omega
  have second : 0xDC00 + (pairPoint high low - 0x10000) % 0x400 = low.toNat := by
    unfold pairPoint
    omega
  have large : ¬ pairPoint high low < 0x10000 := by
    unfold pairPoint
    omega
  rw [pointUnits, if_neg large, first, second, UInt16.ofNat_toNat, UInt16.ofNat_toNat]

theorem pointUnits_unit (unit : UInt16) : pointUnits unit.toNat = [unit] := by
  rw [pointUnits, if_pos unit.toNat_lt, UInt16.ofNat_toNat]

theorem flatMap_pointUnits {text : Utf16} (whole : isWellFormed text = true) :
    (codePoints text).flatMap pointUnits = text := by
  induction text using isWellFormed.induct with
  | case1 => rfl
  | case2 unit =>
    rw [isWellFormed, Bool.not_eq_true'] at whole
    rw [codePoints, whole, flatMap_singleton, if_neg (by decide), pointUnits_unit]
  | case3 high low rest pair ih =>
    rw [isWellFormed, if_pos pair] at whole
    rw [codePoints, if_pos pair, flatMap_cons, pointUnits_pairPoint pair, ih whole]
    rfl
  | case4 unit next rest apart ih =>
    rw [isWellFormed, if_neg apart, Bool.and_eq_true, Bool.not_eq_true'] at whole
    rw [codePoints, if_neg apart, whole.1, flatMap_cons, if_neg (by decide), pointUnits_unit, ih whole.2]
    rfl

theorem codePoints_lt (text : Utf16) : ∀ point ∈ codePoints text, point < 0x110000 := by
  have alone (unit : UInt16) :
      (if isHighSurrogate unit || isLowSurrogate unit then 0xFFFD else unit.toNat) < 0x110000 := by
    have := unit.toNat_lt
    split <;> omega
  induction text using codePoints.induct with
  | case1 => exact fun point listed => nomatch listed
  | case2 unit =>
    rw [codePoints]
    exact fun point listed => mem_singleton.mp listed ▸ alone unit
  | case3 high low rest pair ih =>
    obtain ⟨⟨h₁, h₂⟩, l₁, l₂⟩ := pair_bounds pair
    have small : pairPoint high low < 0x110000 := by
      unfold pairPoint
      omega
    rw [codePoints, if_pos pair, forall_mem_cons]
    exact ⟨small, ih⟩
  | case4 unit next rest apart ih =>
    rw [codePoints, if_neg apart, forall_mem_cons]
    exact ⟨alone unit, ih⟩

def readPoint : List UInt8 → Option (Nat × List UInt8)
  | [] => none
  | lead :: rest =>
    if lead.toNat < 0x80 then some (lead.toNat, rest)
    else if lead.toNat < 0xE0 then
      match rest with
      | b :: rest => some ((lead.toNat - 0xC0) * 64 + (b.toNat - 0x80), rest)
      | _ => none
    else if lead.toNat < 0xF0 then
      match rest with
      | b :: c :: rest => some ((lead.toNat - 0xE0) * 4096 + (b.toNat - 0x80) * 64 + (c.toNat - 0x80), rest)
      | _ => none
    else
      match rest with
      | b :: c :: d :: rest =>
        some ((lead.toNat - 0xF0) * 262144 + (b.toNat - 0x80) * 4096 + (c.toNat - 0x80) * 64 + (d.toNat - 0x80), rest)
      | _ => none

def readPoints : Nat → List UInt8 → List Nat
  | 0, _ => []
  | turns + 1, bytes =>
    match readPoint bytes with
    | some (point, rest) => point :: readPoints turns rest
    | none => []

def decodeUtf8 (bytes : List UInt8) : Utf16 := (readPoints bytes.length bytes).flatMap pointUnits

theorem readPoint_pointBytes {point : Nat} (small : point < 0x110000) (rest : List UInt8) :
    readPoint (pointBytes point ++ rest) = some (point, rest) := by
  unfold pointBytes
  split_ifs with one two three
  · simp only [cons_append, nil_append, readPoint, UInt8.toNat_ofNat']
    rw [if_pos (by omega), Nat.mod_eq_of_lt (by omega)]
  · simp only [cons_append, nil_append, readPoint, UInt8.toNat_ofNat']
    rw [if_neg (by omega), if_pos (by omega)]
    refine congrArg (fun n => some (n, rest)) ?_
    omega
  · simp only [cons_append, nil_append, readPoint, UInt8.toNat_ofNat']
    rw [if_neg (by omega), if_neg (by omega), if_pos (by omega)]
    refine congrArg (fun n => some (n, rest)) ?_
    omega
  · simp only [cons_append, nil_append, readPoint, UInt8.toNat_ofNat']
    rw [if_neg (by omega), if_neg (by omega), if_neg (by omega)]
    refine congrArg (fun n => some (n, rest)) ?_
    omega

theorem readPoints_flatMap {points : List Nat} (small : ∀ point ∈ points, point < 0x110000) {turns : Nat}
    (enough : points.length ≤ turns) : readPoints turns (points.flatMap pointBytes) = points := by
  induction points generalizing turns with
  | nil => cases turns <;> rfl
  | cons point points ih =>
    rw [forall_mem_cons] at small
    obtain ⟨turns, rfl⟩ : ∃ more, turns = more + 1 := ⟨turns - 1, by rw [length_cons] at enough; omega⟩
    rw [flatMap_cons, readPoints, readPoint_pointBytes small.1]
    dsimp only
    rw [ih small.2 (Nat.le_of_succ_le_succ enough)]

theorem decodeUtf8_utf8 {text : Utf16} (whole : isWellFormed text = true) : decodeUtf8 (utf8 text) = text := by
  have short (points : List Nat) : points.length ≤ (points.flatMap pointBytes).length := by
    induction points with
    | nil => exact le_rfl
    | cons point points ih =>
      have one : 1 ≤ (pointBytes point).length := by
        rw [length_pointBytes]
        split_ifs <;> decide
      rw [flatMap_cons, length_append, length_cons]
      omega
  rw [decodeUtf8, utf8, readPoints_flatMap (codePoints_lt text) (short _), flatMap_pointUnits whole]

theorem utf8_inj {text text' : Utf16} (whole : isWellFormed text = true) (whole' : isWellFormed text' = true)
    (same : utf8 text = utf8 text') : text = text' := by
  rw [← decodeUtf8_utf8 whole, same, decodeUtf8_utf8 whole']

/-- Two lone surrogates have the same bytes. -/
example : utf8 [0xD800] = utf8 [0xDC00] := by decide

end EverWorks.Lib.Utf16
