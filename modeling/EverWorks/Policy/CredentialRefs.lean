import EverWorks.Lib.Json

/-!
A text names a credential by `{{cred.key}}`. The pattern has one way to match at a place, and two references
never overlap: a text is its references and the units between them.
-/

namespace EverWorks.Policy
open Lib List

def isDigit (unit : UInt16) : Bool := 0x30 ≤ unit && unit ≤ 0x39

def isLetter (unit : UInt16) : Bool := (0x41 ≤ unit && unit ≤ 0x5A) || (0x61 ≤ unit && unit ≤ 0x7A)

/-- `[A-Za-z0-9_]` -/
def isKeyStart (unit : UInt16) : Bool := isLetter unit || isDigit unit || unit == 0x5F

/-- `[A-Za-z0-9_.-]` -/
def isKeyUnit (unit : UInt16) : Bool := isKeyStart unit || unit == 0x2E || unit == 0x2D

/-- `CREDENTIAL_KEY_PATTERN`. -/
def isCredentialKey (key : Utf16) : Bool :=
  key.head?.any isKeyStart && key.all isKeyUnit && key.length ≤ 64

def refOpen : Utf16 := ascii "\x7b\x7b"
def refName : Utf16 := ascii "cred."
def refClose : Utf16 := ascii "\x7d\x7d"

/-- What `credentialRefPattern` matches, with the key it captures. -/
def IsCredentialRef (whole key : Utf16) : Prop :=
  ∃ before after : Utf16, (∀ unit ∈ before, Utf16.isWhiteSpace unit = true) ∧
    (∀ unit ∈ after, Utf16.isWhiteSpace unit = true) ∧ isCredentialKey key = true ∧
      whole = refOpen ++ (before ++ (refName ++ (key ++ (after ++ refClose))))

def credentialRefAt (text : Utf16) : Option (Utf16 × Utf16) :=
  if refOpen.isPrefixOf text then
    let named := (text.drop 2).dropWhile Utf16.isWhiteSpace
    if refName.isPrefixOf named then
      let key := (named.drop 5).takeWhile isKeyUnit
      let closing := ((named.drop 5).dropWhile isKeyUnit).dropWhile Utf16.isWhiteSpace
      if isCredentialKey key && refClose.isPrefixOf closing then
        some (text.take (text.length - (closing.drop 2).length), key)
      else none
    else none
  else none

inductive Piece where
  | unit (value : UInt16)
  | reference (whole key : Utf16)
  deriving DecidableEq

def Piece.text : Piece → Utf16
  | .unit value => [value]
  | .reference whole _ => whole

def piecesFrom : ℕ → Utf16 → List Piece
  | _, [] => []
  | skip + 1, _ :: rest => piecesFrom skip rest
  | 0, unit :: rest =>
    match credentialRefAt (unit :: rest) with
    | some (whole, key) => .reference whole key :: piecesFrom (whole.length - 1) rest
    | none => .unit unit :: piecesFrom 0 rest

def pieces (text : Utf16) : List Piece := piecesFrom 0 text

theorem not_keyUnit_of_whiteSpace {unit : UInt16} (white : Utf16.isWhiteSpace unit = true) :
    isKeyUnit unit = false := by
  by_contra isKey
  rw [Bool.not_eq_false] at isKey
  simp only [isKeyUnit, isKeyStart, isLetter, isDigit, Bool.or_eq_true, Bool.and_eq_true, decide_eq_true_eq,
    beq_iff_eq, UInt16.le_iff_toNat_le, ← UInt16.toNat_inj, UInt16.reduceToNat] at isKey
  simp only [Utf16.isWhiteSpace, Bool.or_eq_true, Bool.and_eq_true, decide_eq_true_eq, beq_iff_eq,
    UInt16.le_iff_toNat_le, ← UInt16.toNat_inj, UInt16.reduceToNat] at white
  omega

theorem span_append {p : UInt16 → Bool} {front rest : Utf16} (all : ∀ unit ∈ front, p unit = true)
    (stop : ∀ unit ∈ rest.head?, p unit = false) :
    (front ++ rest).takeWhile p = front ∧ (front ++ rest).dropWhile p = rest := by
  rw [takeWhile_append_of_pos all, dropWhile_append_of_pos all]
  cases rest with
  | nil => simp
  | cons unit rest =>
    have stops : ¬ p unit = true := by simp [stop unit rfl]
    rw [takeWhile_cons_of_neg stops, dropWhile_cons_of_neg stops, append_nil]
    exact ⟨rfl, rfl⟩

variable {whole key : Utf16}

theorem credentialRefAt_append (isRef : IsCredentialRef whole key) (rest : Utf16) :
    credentialRefAt (whole ++ rest) = some (whole, key) := by
  obtain ⟨before, after, whiteBefore, whiteAfter, isKey, rfl⟩ := isRef
  have keyUnits : ∀ unit ∈ key, isKeyUnit unit = true := by
    simp only [isCredentialKey, Bool.and_eq_true, all_eq_true] at isKey
    exact isKey.1.2
  have text : refOpen ++ (before ++ (refName ++ (key ++ (after ++ refClose)))) ++ rest =
      refOpen ++ (before ++ (refName ++ (key ++ (after ++ (refClose ++ rest))))) := by
    simp only [append_assoc]
  have opened : (refOpen ++ (before ++ (refName ++ (key ++ (after ++ (refClose ++ rest)))))).drop 2 =
      before ++ (refName ++ (key ++ (after ++ (refClose ++ rest)))) := drop_left' rfl
  have named : (before ++ (refName ++ (key ++ (after ++ (refClose ++ rest))))).dropWhile Utf16.isWhiteSpace =
      refName ++ (key ++ (after ++ (refClose ++ rest))) :=
    (span_append whiteBefore (by intro unit first; cases first; rfl)).2
  have keyed : (refName ++ (key ++ (after ++ (refClose ++ rest)))).drop 5 =
      key ++ (after ++ (refClose ++ rest)) := drop_left' rfl
  have closes : ∀ unit ∈ (after ++ (refClose ++ rest)).head?, isKeyUnit unit = false := by
    cases after with
    | nil => intro unit first; cases first; rfl
    | cons space after =>
      intro unit first
      cases first
      exact not_keyUnit_of_whiteSpace (whiteAfter space mem_cons_self)
  obtain ⟨taken, left⟩ := span_append keyUnits closes
  have closing : (after ++ (refClose ++ rest)).dropWhile Utf16.isWhiteSpace = refClose ++ rest :=
    (span_append whiteAfter (by intro unit first; cases first; rfl)).2
  have behind : (refClose ++ rest).drop 2 = rest := drop_left' rfl
  have isPre : ∀ front back : Utf16, front.isPrefixOf (front ++ back) = true := fun front back =>
    isPrefixOf_iff_prefix.mpr (prefix_append front back)
  rw [text, credentialRefAt, if_pos (isPre _ _), opened]
  simp only [named, isPre, if_true, keyed, taken, left, closing, isKey, Bool.and_self, behind]
  congr 2
  rw [← text, length_append, Nat.add_sub_cancel]
  exact take_left

theorem credentialRefAt_eq_some {text whole key : Utf16} :
    credentialRefAt text = some (whole, key) ↔ IsCredentialRef whole key ∧ whole <+: text := by
  constructor
  · intro found
    have same := found
    unfold credentialRefAt at found
    split at found
    case isFalse => cases found
    case isTrue opens =>
      dsimp only at found
      split at found
      case isFalse => cases found
      case isTrue names =>
        split at found
        case isFalse => cases found
        case isTrue closes =>
          obtain ⟨isKey, closes⟩ := (Bool.and_eq_true _ _).mp closes
          obtain ⟨opened, isText⟩ := isPrefixOf_iff_prefix.mp opens
          subst isText
          have inside : (refOpen ++ opened).drop 2 = opened := drop_left' rfl
          rw [inside] at names closes isKey
          obtain ⟨keyed, isNamed⟩ := isPrefixOf_iff_prefix.mp names
          have behind : (refName ++ keyed).drop 5 = keyed := drop_left' rfl
          rw [← isNamed, behind] at closes isKey
          obtain ⟨rest, isClosing⟩ := isPrefixOf_iff_prefix.mp closes
          have isRef : IsCredentialRef (refOpen ++ (opened.takeWhile Utf16.isWhiteSpace ++ (refName ++
              (keyed.takeWhile isKeyUnit ++ ((keyed.dropWhile isKeyUnit).takeWhile Utf16.isWhiteSpace ++
                refClose))))) (keyed.takeWhile isKeyUnit) :=
            ⟨_, _, fun _ => mem_takeWhile_imp, fun _ => mem_takeWhile_imp, isKey, rfl⟩
          have text : refOpen ++ opened = refOpen ++ (opened.takeWhile Utf16.isWhiteSpace ++ (refName ++
              (keyed.takeWhile isKeyUnit ++ ((keyed.dropWhile isKeyUnit).takeWhile Utf16.isWhiteSpace ++
                refClose)))) ++ rest := by
            simp only [append_assoc]
            rw [isClosing, takeWhile_append_dropWhile, takeWhile_append_dropWhile, isNamed,
              takeWhile_append_dropWhile]
          have found' := credentialRefAt_append isRef rest
          rw [← text, same, Option.some.injEq, Prod.mk.injEq] at found'
          rw [text, found'.1, found'.2]
          exact ⟨isRef, prefix_append _ _⟩
  · rintro ⟨isRef, rest, rfl⟩
    exact credentialRefAt_append isRef rest

theorem IsCredentialRef.tail {whole key : Utf16} (isRef : IsCredentialRef whole key) :
    ∃ tail : Utf16, whole = refOpen ++ tail ∧ tail ≠ [] ∧ (0x7B : UInt16) ∉ tail := by
  obtain ⟨before, after, whiteBefore, whiteAfter, isKey, rfl⟩ := isRef
  have keyUnits : ∀ unit ∈ key, isKeyUnit unit = true := by
    simp only [isCredentialKey, Bool.and_eq_true, all_eq_true] at isKey
    exact isKey.1.2
  refine ⟨_, rfl, by simp [refName, ascii], ?_⟩
  simp only [mem_append, not_or]
  refine ⟨fun inside => ?_, by decide, fun inside => ?_, fun inside => ?_, by decide⟩
  · exact absurd (whiteBefore _ inside) (by decide)
  · exact absurd (keyUnits _ inside) (by decide)
  · exact absurd (whiteAfter _ inside) (by decide)

theorem IsCredentialRef.length_pos (isRef : IsCredentialRef whole key) : 0 < whole.length := by
  obtain ⟨tail, rfl, _⟩ := isRef.tail
  simp [refOpen, ascii]

theorem piecesFrom_eq (skip : ℕ) (text : Utf16) : piecesFrom skip text = pieces (text.drop skip) := by
  induction text generalizing skip with
  | nil => simp [pieces, piecesFrom]
  | cons unit rest ih =>
    cases skip with
    | zero => rfl
    | succ skip => rw [piecesFrom, ih, drop_succ_cons]

theorem pieces_reference (isRef : IsCredentialRef whole key) (rest : Utf16) :
    pieces (whole ++ rest) = .reference whole key :: pieces rest := by
  have found := credentialRefAt_append isRef rest
  cases isWhole : whole with
  | nil => exact absurd isRef.length_pos (by simp [isWhole])
  | cons unit tail =>
    rw [isWhole, cons_append] at found
    rw [cons_append, pieces, piecesFrom, found]
    dsimp only
    rw [piecesFrom_eq, length_cons, Nat.add_sub_cancel, drop_left]

theorem pieces_unit {unit : UInt16} {rest : Utf16} (none_ : credentialRefAt (unit :: rest) = none) :
    pieces (unit :: rest) = .unit unit :: pieces rest := by
  rw [pieces, piecesFrom, none_]
  rfl

theorem pieces_induction {motive : Utf16 → Prop} (nil : motive [])
    (unit : ∀ unit rest, credentialRefAt (unit :: rest) = none → motive rest → motive (unit :: rest))
    (reference : ∀ whole key rest, IsCredentialRef whole key → motive rest → motive (whole ++ rest))
    (text : Utf16) : motive text := by
  induction size : text.length using Nat.strong_induction_on generalizing text with
  | _ size ih =>
    subst size
    cases text with
    | nil => exact nil
    | cons first rest =>
      cases found : credentialRefAt (first :: rest) with
      | none => exact unit first rest found (ih rest.length (Nat.lt_succ_self _) rest rfl)
      | some pair =>
        obtain ⟨whole, key⟩ := pair
        obtain ⟨isRef, behind, isText⟩ := credentialRefAt_eq_some.mp found
        have shorter : behind.length < (first :: rest).length := by
          rw [← isText, length_append]
          have := isRef.length_pos
          omega
        rw [← isText]
        exact reference whole key behind isRef (ih behind.length shorter behind rfl)

theorem text_pieces (text : Utf16) : (pieces text).flatMap Piece.text = text := by
  induction text using pieces_induction with
  | nil => rfl
  | unit unit rest none_ ih => rw [pieces_unit none_, flatMap_cons, ih]; rfl
  | reference whole key rest isRef ih => rw [pieces_reference isRef, flatMap_cons, ih]; rfl

end EverWorks.Policy
