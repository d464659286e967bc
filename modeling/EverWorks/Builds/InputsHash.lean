import EverWorks.Builds.Sha256Hex
import Mathlib.Data.List.Sort

/-!
The digest of the build values that a Build was given, and when two lists of values have the same.
-/

namespace EverWorks.Builds
open Lib Lib.Utf16 List Sha256

/-- One synced build value's contribution. -/
structure AppBuildValueFingerprint where
  name : Utf16
  fingerprint : Utf16
  deriving DecidableEq

def checkSeparators (value : AppBuildValueFingerprint) : Except String Unit :=
  if value.name.contains 0 || value.name.contains 1 then
    .error "computeBuildInputsHash: an env name may not contain U+0000 or U+0001"
  else if value.fingerprint.contains 0 || value.fingerprint.contains 1 then
    .error "computeBuildInputsHash: a fingerprint may not contain U+0000 or U+0001"
  else .ok ()

def compareValues (left right : AppBuildValueFingerprint) : Int :=
  if left.name ≠ right.name then if left.name < right.name then -1 else 1
  else if left.fingerprint ≠ right.fingerprint then if left.fingerprint < right.fingerprint then -1 else 1
  else 0

def renderValue (value : AppBuildValueFingerprint) : Utf16 := value.name ++ 0 :: value.fingerprint

def sortValues (values : List AppBuildValueFingerprint) : List AppBuildValueFingerprint :=
  values.mergeSort fun left right => compareValues left right ≤ 0

def canonicalValues (values : List AppBuildValueFingerprint) : Utf16 :=
  [1].intercalate ((sortValues values).map renderValue)

def computeBuildInputsHash (values : List AppBuildValueFingerprint) : Except String String := do
  values.forM checkSeparators
  return sha256Hex (canonicalValues values)

theorem compareValues_le_zero {left right : AppBuildValueFingerprint} : compareValues left right ≤ 0 ↔
    left.name < right.name ∨ left.name = right.name ∧
      (left.fingerprint < right.fingerprint ∨ left.fingerprint = right.fingerprint) := by
  unfold compareValues
  split_ifs <;> simp_all

theorem compareValues_trans {a b c : AppBuildValueFingerprint} (ab : compareValues a b ≤ 0)
    (bc : compareValues b c ≤ 0) : compareValues a c ≤ 0 := by
  rw [compareValues_le_zero] at ab bc ⊢
  obtain ab | ⟨names, ab⟩ := ab
  · obtain bc | ⟨names, -⟩ := bc
    · exact .inl (Std.lt_trans ab bc)
    · exact .inl (names ▸ ab)
  · obtain bc | ⟨names', bc⟩ := bc
    · exact .inl (names ▸ bc)
    · refine .inr ⟨names.trans names', ?_⟩
      obtain ab | ab := ab
      · obtain bc | bc := bc
        · exact .inl (Std.lt_trans ab bc)
        · exact .inl (bc ▸ ab)
      · rwa [ab]

theorem compareValues_total (a b : AppBuildValueFingerprint) : compareValues a b ≤ 0 ∨ compareValues b a ≤ 0 := by
  rw [compareValues_le_zero, compareValues_le_zero]
  obtain less | same | more := Std.lt_trichotomy a.name b.name
  · exact .inl (.inl less)
  · obtain less | same' | more := Std.lt_trichotomy a.fingerprint b.fingerprint
    · exact .inl (.inr ⟨same, .inl less⟩)
    · exact .inl (.inr ⟨same, .inr same'⟩)
    · exact .inr (.inr ⟨same.symm, .inl more⟩)
  · exact .inr (.inl more)

theorem compareValues_antisymm {a b : AppBuildValueFingerprint} (ab : compareValues a b ≤ 0)
    (ba : compareValues b a ≤ 0) : a = b := by
  rw [compareValues_le_zero] at ab ba
  obtain ab | ⟨names, ab⟩ := ab
  · obtain ba | ⟨names, -⟩ := ba
    · exact absurd ba (List.lt_asymm ab)
    · exact absurd (names ▸ ab) (List.lt_irrefl b.name)
  · have fingerprints : a.fingerprint = b.fingerprint := by
      obtain ab | ab := ab
      · obtain ba | ⟨_, ba | ba⟩ := ba
        · exact absurd (names ▸ ba) (List.lt_irrefl b.name)
        · exact absurd ba (List.lt_asymm ab)
        · exact ba.symm
      · exact ab
    cases a
    cases b
    simp_all

theorem sortValues_eq_iff {left right : List AppBuildValueFingerprint} :
    sortValues left = sortValues right ↔ left.Perm right := by
  have sorted (values : List AppBuildValueFingerprint) :
      (sortValues values).Pairwise fun a b => compareValues a b ≤ 0 := by
    have pairwise := @pairwise_mergeSort _ (fun a b => decide (compareValues a b ≤ 0))
      (fun a b c ab bc => decide_eq_true (compareValues_trans (of_decide_eq_true ab) (of_decide_eq_true bc)))
      (fun a b => by
        rw [Bool.or_eq_true, decide_eq_true_eq, decide_eq_true_eq]
        exact compareValues_total a b) values
    exact pairwise.imp of_decide_eq_true
  constructor
  · intro same
    have back : (sortValues right).Perm right := mergeSort_perm right _
    exact (mergeSort_perm left _).symm.trans (same.symm ▸ back)
  · intro perm
    refine List.Perm.eq_of_pairwise (fun a b _ _ => compareValues_antisymm) (sorted left) (sorted right) ?_
    exact ((mergeSort_perm left _).trans perm).trans (mergeSort_perm right _).symm

/-- The pair has neither separator. -/
def FreeOfSeparators (value : AppBuildValueFingerprint) : Prop :=
  ((0 : UInt16) ∉ value.name ∧ 1 ∉ value.name) ∧ 0 ∉ value.fingerprint ∧ 1 ∉ value.fingerprint

instance (value : AppBuildValueFingerprint) : Decidable (FreeOfSeparators value) :=
  inferInstanceAs (Decidable (_ ∧ _))

def readValue (entry : Utf16) : AppBuildValueFingerprint where
  name := entry.takeWhile (· ≠ 0)
  fingerprint := (entry.dropWhile (· ≠ 0)).tail

variable {value : AppBuildValueFingerprint}

theorem readValue_renderValue (free : FreeOfSeparators value) :
    readValue (renderValue value) = value := by
  have other : ∀ unit ∈ value.name, decide (unit ≠ 0) = true := fun unit listed =>
    decide_eq_true fun zero => free.1.1 (zero ▸ listed)
  rw [readValue, renderValue, takeWhile_append_of_pos other, dropWhile_append_of_pos other]
  simp

variable {values : List AppBuildValueFingerprint}

theorem mem_sortValues :
    value ∈ sortValues values ↔ value ∈ values := mem_mergeSort

theorem one_notMem_renderValue (free : FreeOfSeparators value) :
    1 ∉ renderValue value := by
  rw [renderValue, mem_append, mem_cons]
  rintro (inName | zero | inFingerprint)
  · exact free.1.2 inName
  · cases zero
  · exact free.2.2 inFingerprint

theorem canonicalValues_inj {left right : List AppBuildValueFingerprint} (free : ∀ value ∈ left, FreeOfSeparators value)
    (free' : ∀ value ∈ right, FreeOfSeparators value) (same : canonicalValues left = canonicalValues right) :
    left.Perm right := by
  have split {values : List AppBuildValueFingerprint} (free : ∀ value ∈ values, FreeOfSeparators value) :
      List.splitOn 1 (canonicalValues values) =
        if sortValues values = [] then [[]] else (sortValues values).map renderValue := by
    have separate : ∀ entry ∈ (sortValues values).map renderValue, (1 : UInt16) ∉ entry := by
      intro entry listed
      obtain ⟨value, inside, rfl⟩ := mem_map.mp listed
      exact one_notMem_renderValue (free value (mem_sortValues.mp inside))
    split_ifs with empty
    · rw [canonicalValues, empty]
      rfl
    · exact splitOn_intercalate 1 separate (fun none => empty (map_eq_nil_iff.mp none))
  have rendered {value : AppBuildValueFingerprint} : renderValue value ≠ [] := by simp [renderValue]
  have entries := split free
  rw [same, split free'] at entries
  rw [← sortValues_eq_iff]
  split_ifs at entries with right₀ left₀ left₀
  · rw [left₀, right₀]
  · obtain ⟨value, rest, more⟩ := exists_cons_of_ne_nil left₀
    rw [more, map_cons] at entries
    exact absurd (List.cons.inj entries).1.symm rendered
  · obtain ⟨value, rest, more⟩ := exists_cons_of_ne_nil right₀
    rw [more, map_cons] at entries
    exact absurd (List.cons.inj entries).1 rendered
  · have back {values : List AppBuildValueFingerprint} (free : ∀ value ∈ values, FreeOfSeparators value) :
        ((sortValues values).map renderValue).map readValue = sortValues values := by
      rw [List.map_map]
      exact (map_congr_left fun value listed =>
        readValue_renderValue (free value (mem_sortValues.mp listed))).trans (map_id _)
    rw [← back free, ← entries, back free']

/-- No value has a lone surrogate. -/
def IsText (value : AppBuildValueFingerprint) : Prop :=
  isWellFormed value.name = true ∧ isWellFormed value.fingerprint = true

instance (value : AppBuildValueFingerprint) : Decidable (IsText value) :=
  inferInstanceAs (Decidable (_ ∧ _))

theorem isWellFormed_canonicalValues (text : ∀ value ∈ values, IsText value) :
    isWellFormed (canonicalValues values) = true := by
  have each : ∀ entry ∈ (sortValues values).map renderValue, isWellFormed entry = true := by
    intro entry listed
    obtain ⟨value, inside, rfl⟩ := mem_map.mp listed
    obtain ⟨name, fingerprint⟩ := text value (mem_sortValues.mp inside)
    rw [renderValue, isWellFormed_append (by decide), name, fingerprint]
    rfl
  rw [canonicalValues]
  generalize (sortValues values).map renderValue = entries at each ⊢
  induction entries with
  | nil => rfl
  | cons entry rest ih =>
    rw [forall_mem_cons] at each
    cases rest with
    | nil => simpa using each.1
    | cons next rest =>
      rw [intercalate_cons_cons, append_assoc, singleton_append, isWellFormed_append (by decide), each.1,
        ih each.2]
      rfl

theorem computeBuildInputsHash_eq
    (free : ∀ value ∈ values, FreeOfSeparators value) :
    computeBuildInputsHash values = .ok (sha256Hex (canonicalValues values)) := by
  have checked : values.forM checkSeparators = .ok () := by
    induction values with
    | nil => rfl
    | cons value rest ih =>
      rw [forall_mem_cons] at free
      obtain ⟨⟨⟨n₀, n₁⟩, f₀, f₁⟩, others⟩ := free
      have first : checkSeparators value = .ok () := by
        simp [checkSeparators, n₀, n₁, f₀, f₁]
      rw [forM_eq_forM, forM_cons, first]
      exact ih others
  rw [computeBuildInputsHash, checked]
  rfl

def hashedBits (values : List AppBuildValueFingerprint) : List Bool :=
  bytesBits (utf8 (canonicalValues values))

/-- `sha256Hex` is the standard's SHA-256 of every text. Where that does not collide on two lists of values, of text free
of the separators, their hashes are equal just if the values are. -/
theorem buildInputsHash_identifies :
    (∀ text, sha256Hex text = String.ofList (hex (digest (bytesBits (utf8 text))))) ∧
      ∀ left right : List AppBuildValueFingerprint,
        (∀ value ∈ left ++ right, FreeOfSeparators value ∧ IsText value) →
        (digest (hashedBits left) = digest (hashedBits right) → hashedBits left = hashedBits right) →
        (computeBuildInputsHash left = computeBuildInputsHash right ↔ left.Perm right) := by
  refine ⟨sha256Hex_eq, fun left right values apart => ?_⟩
  have free {value : AppBuildValueFingerprint} (listed : value ∈ left ++ right) := (values value listed).1
  have text {value : AppBuildValueFingerprint} (listed : value ∈ left ++ right) := (values value listed).2
  rw [computeBuildInputsHash_eq fun value listed => free (mem_append_left right listed),
    computeBuildInputsHash_eq fun value listed => free (mem_append_right left listed)]
  constructor
  · intro same
    have digits := String.ofList_injective ((sha256Hex_eq _).symm.trans ((Except.ok.inj same).trans (sha256Hex_eq _)))
    have digests := hex_inj (by rw [length_digest]; decide) (by rw [length_digest]; decide) digits
    have bytes := bytesBits_inj (apart digests)
    refine canonicalValues_inj (fun value listed => free (mem_append_left right listed))
      (fun value listed => free (mem_append_right left listed)) (utf8_inj ?_ ?_ bytes)
    · exact isWellFormed_canonicalValues fun value listed => text (mem_append_left right listed)
    · exact isWellFormed_canonicalValues fun value listed => text (mem_append_right left listed)
  · intro perm
    rw [canonicalValues, canonicalValues, sortValues_eq_iff.mpr perm]

def databaseUrl : AppBuildValueFingerprint where
  name := Utf16.ofString "DATABASE_URL"
  fingerprint := Utf16.ofString "v3"

def baseUrl : AppBuildValueFingerprint where
  name := Utf16.ofString "BASE_URL"
  fingerprint := Utf16.ofString "v1"

/-- The order of the values does not matter. -/
theorem order_of_values : computeBuildInputsHash [databaseUrl, baseUrl] = computeBuildInputsHash [baseUrl, databaseUrl] := by
  have same : hashedBits [databaseUrl, baseUrl] = hashedBits [baseUrl, databaseUrl] := by
    rw [hashedBits, hashedBits, canonicalValues, canonicalValues, sortValues_eq_iff.mpr (List.Perm.swap _ _ _)]
  exact (buildInputsHash_identifies.2 _ _ (by decide +kernel) fun _ => same).mpr (List.Perm.swap _ _ _)

/-- Names that differ in a lone surrogate alone have one hash. -/
theorem lone_surrogates_collide :
    (∀ value ∈ [AppBuildValueFingerprint.mk [0xD800] [0x76], ⟨[0xFFFD], [0x76]⟩], FreeOfSeparators value) ∧
      computeBuildInputsHash [⟨[0xD800], [0x76]⟩] = computeBuildInputsHash [⟨[0xFFFD], [0x76]⟩] ∧
      ¬ [AppBuildValueFingerprint.mk [0xD800] [0x76]].Perm [⟨[0xFFFD], [0x76]⟩] := by
  have free : ∀ value ∈ [AppBuildValueFingerprint.mk [0xD800] [0x76], ⟨[0xFFFD], [0x76]⟩], FreeOfSeparators value := by
    decide
  have bytes : utf8 (canonicalValues [⟨[0xD800], [0x76]⟩]) = utf8 (canonicalValues [⟨[0xFFFD], [0x76]⟩]) := by
    decide +kernel
  refine ⟨free, ?_, by decide⟩
  rw [computeBuildInputsHash_eq fun value listed => free value (mem_cons.mpr (.inl (mem_singleton.mp listed))),
    computeBuildInputsHash_eq fun value listed => free value (mem_cons_of_mem _ listed), sha256Hex, sha256Hex,
    bytes]

end EverWorks.Builds
