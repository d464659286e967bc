import EverWorks.Lib.Utf16
import Mathlib.Data.Fintype.Basic

/-!
The recipients a ceiling counts, the ceilings in force for a send, and the refusal of a send that would break one.
-/

namespace EverWorks.Email
open Lib Lib.Utf16 List

def openAngle : UInt16 := 0x3C
def closeAngle : UInt16 := 0x3E

def isBoundary (unit : UInt16) : Bool := isWhiteSpace unit || unit == openAngle || unit == closeAngle

/-- `String.prototype.toLowerCase`, as far as recipients rely on it: it works on the stretches between white space and
angle brackets, which it keeps and never makes. -/
structure LowerUnits where
  lower : Utf16 → Utf16
  lower_nil : lower [] = []
  lower_ne_nil : ∀ {text}, text ≠ [] → lower text ≠ []
  lower_lower : ∀ text, lower (lower text) = lower text
  lower_append : ∀ front {unit} back, isBoundary unit = true →
    lower (front ++ unit :: back) = lower front ++ unit :: lower back
  boundary_of_mem : ∀ {text unit}, isBoundary unit = true → unit ∈ lower text → unit ∈ text

/-- `/<([^<>]+)>\s*$/` on a trimmed text: the address in angle brackets at its end. -/
def angleAddress (trimmed : Utf16) : Option Utf16 :=
  match trimmed.reverse with
  | unit :: back =>
    let inner := back.takeWhile fun unit => unit ≠ openAngle && unit ≠ closeAngle
    if unit = closeAngle ∧ inner ≠ [] ∧ (back.drop inner.length).head? = some openAngle then some inner.reverse
    else none
  | [] => none

variable (letters : LowerUnits)

def normalizeEmailRecipient (raw : Utf16) : Utf16 :=
  let trimmed := trim raw
  letters.lower (trim ((angleAddress trimmed).getD trimmed))

def distinctEmailRecipients (raw : List Utf16) : List Utf16 :=
  ((raw.map (normalizeEmailRecipient letters)).filter (· ≠ [])).eraseDups

section
variable {letters}

variable {unit : UInt16}

theorem LowerUnits.mem_iff (boundary : isBoundary unit = true) (text : Utf16) :
    unit ∈ letters.lower text ↔ unit ∈ text := by
  refine ⟨letters.boundary_of_mem boundary, fun listed => ?_⟩
  obtain ⟨front, back, rfl⟩ := append_of_mem listed
  rw [letters.lower_append front back boundary]
  exact mem_append_right _ mem_cons_self

theorem dropWhile_eq_self {α : Type*} {p : α → Bool} {list : List α} :
    list.dropWhile p = list ↔ ∀ one ∈ list.head?, p one = false := by
  cases list with
  | nil => simp
  | cons one rest =>
    rw [dropWhile_eq_self_iff]
    simp

theorem rdropWhile_eq_self {α : Type*} {p : α → Bool} {list : List α} :
    list.rdropWhile p = list ↔ ∀ one ∈ list.getLast?, p one = false := by
  rw [List.rdropWhile, reverse_eq_iff, dropWhile_eq_self, head?_reverse]

variable {text : Utf16}

theorem trim_eq_self : trim text = text ↔
    (∀ unit ∈ text.head?, isWhiteSpace unit = false) ∧ ∀ unit ∈ text.getLast?, isWhiteSpace unit = false := by
  rw [← dropWhile_eq_self, ← rdropWhile_eq_self]
  change (text.dropWhile isWhiteSpace).rdropWhile isWhiteSpace = text ↔ _
  refine ⟨fun same => ?_, fun both => by rw [both.1, both.2]⟩
  have shorter := ( rdropWhile_prefix isWhiteSpace (l := text.dropWhile isWhiteSpace)).length_le
  rw [same] at shorter
  have front := (dropWhile_suffix isWhiteSpace (l := text)).eq_of_length_le shorter
  rw [front] at same
  exact ⟨front, same⟩

theorem boundary_of_white (white : isWhiteSpace unit = true) : isBoundary unit = true := by
  rw [isBoundary, white]
  rfl

theorem trim_lower (trimmed : trim text = text) : trim (letters.lower text) = letters.lower text := by
  obtain ⟨first, last⟩ := trim_eq_self.mp trimmed
  refine trim_eq_self.mpr ⟨fun unit head => ?_, fun unit last' => ?_⟩
  · by_contra white
    have boundary := boundary_of_white (eq_true_of_ne_false white)
    obtain ⟨front, back, rfl, fresh⟩ := eq_append_cons_of_mem
      (letters.boundary_of_mem boundary (mem_of_mem_head? head))
    rw [letters.lower_append front back boundary] at head
    cases front with
    | nil => exact white (first unit rfl)
    | cons one rest =>
      rw [head?_append_of_ne_nil _ (letters.lower_ne_nil (cons_ne_nil one rest))] at head
      exact fresh (letters.boundary_of_mem boundary (mem_of_mem_head? head))
  · by_contra white
    have boundary := boundary_of_white (eq_true_of_ne_false white)
    obtain ⟨back, front, split, fresh⟩ := eq_append_cons_of_mem
      (mem_reverse.mpr (letters.boundary_of_mem boundary (mem_of_getLast? last')))
    have whole : text = front.reverse ++ unit :: back.reverse := by
      rw [← reverse_reverse text, split]
      simp
    rw [whole, letters.lower_append _ _ boundary] at last'
    rw [whole] at last
    by_cases empty : back = []
    · refine white (last unit ?_)
      rw [empty]
      simp
    · have more := letters.lower_ne_nil fun none => empty (reverse_eq_nil_iff.mp none)
      rw [← singleton_append, ← append_assoc, getLast?_append_of_ne_nil _ more] at last'
      exact fresh (mem_reverse.mp (letters.boundary_of_mem boundary (mem_of_getLast? last')))

theorem exists_last (listed : unit ∈ text) :
    ∃ front back, text = front ++ unit :: back ∧ unit ∉ back := by
  obtain ⟨back, front, split, fresh⟩ := eq_append_cons_of_mem (mem_reverse.mpr listed)
  refine ⟨front.reverse, back.reverse, ?_, fun inside => fresh (mem_reverse.mp inside)⟩
  rw [← reverse_reverse text, split]
  simp

theorem last_unique {front back front' back' : Utf16} (fresh : unit ∉ back) (fresh' : unit ∉ back')
    (same : front ++ unit :: back = front' ++ unit :: back') : front = front' ∧ back = back' := by
  have split {front back : Utf16} (fresh : unit ∉ back) :
      (front ++ unit :: back).reverse.takeWhile (· ≠ unit) = back.reverse ∧
        (front ++ unit :: back).reverse.dropWhile (· ≠ unit) = unit :: front.reverse := by
    have other : ∀ one ∈ back.reverse, decide (one ≠ unit) = true := fun one listed =>
      decide_eq_true fun equal => fresh (equal ▸ mem_reverse.mp listed)
    rw [reverse_append, reverse_cons, append_assoc, singleton_append,
      takeWhile_append_of_pos other, dropWhile_append_of_pos other]
    simp
  obtain ⟨taken, dropped⟩ := @split front back fresh
  obtain ⟨taken', dropped'⟩ := @split front' back' fresh'
  rw [same] at taken dropped
  exact ⟨reverse_injective (cons_inj_right _ |>.mp (dropped.symm.trans dropped')),
    reverse_injective (taken.symm.trans taken')⟩

theorem angleAddress_eq_some {text inner : Utf16} : angleAddress text = some inner ↔
    (∃ front, text = front ++ openAngle :: (inner ++ [closeAngle])) ∧ inner ≠ [] ∧
      openAngle ∉ inner ∧ closeAngle ∉ inner := by
  constructor
  · intro found
    rw [angleAddress] at found
    split at found
    swap
    · cases found
    rename_i unit back split
    dsimp only at found
    split at found
    swap
    · cases found
    rename_i both
    obtain ⟨rfl, some, opened⟩ := both
    obtain rfl := Option.some.inj found
    have plain : ∀ one ∈ back.takeWhile fun unit => unit ≠ openAngle && unit ≠ closeAngle,
        one ≠ openAngle ∧ one ≠ closeAngle := by
      intro one listed
      simpa using mem_takeWhile_imp listed
    refine ⟨?_, fun empty => some (reverse_eq_nil_iff.mp empty), ?_, ?_⟩
    · obtain ⟨rest, after⟩ := head?_eq_some_iff.mp opened
      refine ⟨rest.reverse, ?_⟩
      have parts := take_append_drop
        (back.takeWhile fun unit => unit ≠ openAngle && unit ≠ closeAngle).length back
      rw [after, ← prefix_iff_eq_take.mp ( takeWhile_prefix _)] at parts
      rw [← reverse_reverse text, split]
      generalize back.takeWhile (fun unit => unit ≠ openAngle && unit ≠ closeAngle) = inner at parts ⊢
      rw [← parts]
      simp
    · exact fun inside => (plain _ (mem_reverse.mp inside)).1 rfl
    · exact fun inside => (plain _ (mem_reverse.mp inside)).2 rfl
  · rintro ⟨⟨front, rfl⟩, some, opened, closed⟩
    have inner' : ∀ one ∈ inner.reverse, (decide (one ≠ openAngle) && decide (one ≠ closeAngle)) = true := by
      intro one listed
      have inside := mem_reverse.mp listed
      rw [Bool.and_eq_true, decide_eq_true_eq, decide_eq_true_eq]
      exact ⟨fun equal => opened (equal ▸ inside), fun equal => closed (equal ▸ inside)⟩
    have back : (front ++ openAngle :: (inner ++ [closeAngle])).reverse =
        closeAngle :: (inner.reverse ++ openAngle :: front.reverse) := by simp
    have taken : (inner.reverse ++ openAngle :: front.reverse).takeWhile
        (fun unit => decide (unit ≠ openAngle) && decide (unit ≠ closeAngle)) = inner.reverse := by
      rw [takeWhile_append_of_pos inner']
      simp
    rw [angleAddress, back]
    dsimp only
    rw [taken, if_pos, reverse_reverse]
    exact ⟨rfl, fun empty => some (reverse_eq_nil_iff.mp empty), by simp⟩

theorem angleAddress_lower (plain : angleAddress text = none) :
    angleAddress (letters.lower text) = none := by
  by_contra angled
  obtain ⟨inner, found⟩ := Option.ne_none_iff_exists'.mp angled
  obtain ⟨⟨front, split⟩, nonempty, opened, closed⟩ := angleAddress_eq_some.mp found
  -- The closing bracket and then the opening one are at the same places of the text itself.
  have closes : closeAngle ∈ text := letters.boundary_of_mem rfl (by rw [split]; simp)
  obtain ⟨before, after, rfl, fresh⟩ := exists_last closes
  rw [letters.lower_append before after rfl, ← cons_append, ← append_assoc] at split
  obtain ⟨whole, last⟩ := last_unique (fun inside => fresh (letters.boundary_of_mem rfl inside)) not_mem_nil split
  have opens : openAngle ∈ before := letters.boundary_of_mem rfl (by rw [whole]; simp)
  obtain ⟨start, address, rfl, fresh'⟩ := exists_last opens
  rw [letters.lower_append start address rfl] at whole
  obtain ⟨_, same⟩ := last_unique (fun inside => fresh' (letters.boundary_of_mem rfl inside)) opened whole
  have ends : after = [] := by
    by_contra more
    exact letters.lower_ne_nil more last
  have read : angleAddress ((start ++ openAngle :: address) ++ closeAngle :: after) = some address := by
    refine angleAddress_eq_some.mpr ⟨⟨start, by rw [ends]; simp⟩, ?_, fresh', ?_⟩
    · rintro rfl
      exact nonempty (same.symm.trans letters.lower_nil)
    · exact fun inside => closed (same ▸ (letters.mem_iff rfl address).mpr inside)
  rw [plain] at read
  cases read

theorem normalize_normalize (raw : Utf16) : normalizeEmailRecipient letters (normalizeEmailRecipient letters raw) =
    normalizeEmailRecipient letters raw := by
  have again {text : Utf16} (trimmed : trim text = text) (plain : angleAddress (letters.lower text) = none) :
      normalizeEmailRecipient letters (letters.lower text) = letters.lower text := by
    rw [normalizeEmailRecipient, trim_lower trimmed, plain, Option.getD_none, trim_lower trimmed,
      letters.lower_lower]
  cases angle : angleAddress (trim raw) with
  | none =>
    have value : normalizeEmailRecipient letters raw = letters.lower (trim raw) := by
      rw [normalizeEmailRecipient, angle, Option.getD_none, trim_trim]
    rw [value]
    exact again (trim_trim raw) (angleAddress_lower angle)
  | some inner =>
    have value : normalizeEmailRecipient letters raw = letters.lower (trim inner) := by
      rw [normalizeEmailRecipient, angle, Option.getD_some]
    rw [value]
    refine again (trim_trim inner) ?_
    by_contra some
    obtain ⟨address, found⟩ := Option.ne_none_iff_exists'.mp some
    obtain ⟨⟨front, split⟩, _⟩ := angleAddress_eq_some.mp found
    obtain ⟨_, _, _, close⟩ := angleAddress_eq_some.mp angle
    have listed : closeAngle ∈ trim inner := by
      rw [← letters.mem_iff rfl, split]
      simp
    exact close ((dropWhile_suffix isWhiteSpace).subset (( rdropWhile_prefix isWhiteSpace _).subset listed))

end

/-- The rolling windows that are counted. -/
inductive EmailWindow
  | inboxBurst
  | inboxRecipients
  | inboxDaily
  | workspaceDaily
  | workspaceMonthly
  deriving DecidableEq

instance : Fintype EmailWindow :=
  ⟨{.inboxBurst, .inboxRecipients, .inboxDaily, .workspaceDaily, .workspaceMonthly}, fun window => by
    cases window <;> decide⟩

inductive EmailSendCapLimitKind
  | recipientsPerMessage
  | window (window : EmailWindow)
  deriving DecidableEq

def EmailWindow.windowMs : EmailWindow → Int
  | .inboxBurst => 60000
  | .inboxRecipients => 300000
  | .inboxDaily | .workspaceDaily => 24 * 60 * 60 * 1000
  | .workspaceMonthly => 30 * (24 * 60 * 60 * 1000)

def EmailWindow.isInbox : EmailWindow → Bool
  | .inboxBurst | .inboxRecipients | .inboxDaily => true
  | .workspaceDaily | .workspaceMonthly => false

/-- No number is no ceiling. -/
structure ResolvedEmailSendCaps where
  recipientsPerMessage : Option Nat := none
  inboxBurstSends : Option Nat := none
  inboxBurstRecipients : Option Nat := none
  inboxDailySends : Option Nat := none
  workspaceDailySends : Option Nat := none
  workspaceMonthlySends : Option Nat := none
  deriving DecidableEq

def ResolvedEmailSendCaps.cap (caps : ResolvedEmailSendCaps) : EmailWindow → Option Nat
  | .inboxBurst => caps.inboxBurstSends
  | .inboxRecipients => caps.inboxBurstRecipients
  | .inboxDaily => caps.inboxDailySends
  | .workspaceDaily => caps.workspaceDailySends
  | .workspaceMonthly => caps.workspaceMonthlySends

/-- `emailSendCapWindowsInForce`. -/
def inboxInForce (caps : ResolvedEmailSendCaps) (hasInbox : Bool) : Bool :=
  hasInbox && (caps.inboxBurstSends.isSome || caps.inboxBurstRecipients.isSome || caps.inboxDailySends.isSome)

def workspaceInForce (caps : ResolvedEmailSendCaps) : Bool :=
  caps.workspaceDailySends.isSome || caps.workspaceMonthlySends.isSome

structure EmailSendWindowUsage where
  hasInbox : Bool
  inboxBurstSends : Nat
  inboxDailySends : Nat
  inboxRecentRecipients : List Utf16
  workspaceDailySends : Nat
  workspaceMonthlySends : Nat

structure EmailSendCapRefusal where
  limitKind : EmailSendCapLimitKind
  used : Nat
  cap : Nat
  deriving DecidableEq

/-- The ceiling, if there is one and `broken` says that it is broken. -/
def refuseAt (limitKind : EmailSendCapLimitKind) (cap : Option Nat) (used : Nat) (broken : Nat → Bool) :
    Option EmailSendCapRefusal :=
  (cap.filter broken).map fun cap => ⟨limitKind, used, cap⟩

def evaluateEmailSendCaps (caps : ResolvedEmailSendCaps) (usage : EmailSendWindowUsage) (recipients : List Utf16) :
    Option EmailSendCapRefusal :=
  let outgoing := distinctEmailRecipients letters recipients
  let recent := distinctEmailRecipients letters usage.inboxRecentRecipients
  (refuseAt .recipientsPerMessage caps.recipientsPerMessage outgoing.length (· < outgoing.length)).or <|
  (if usage.hasInbox then
    (refuseAt (.window .inboxBurst) caps.inboxBurstSends usage.inboxBurstSends (· ≤ usage.inboxBurstSends)).or <|
    (refuseAt (.window .inboxRecipients) caps.inboxBurstRecipients recent.length
      (· < (recent ++ outgoing).eraseDups.length)).or <|
    refuseAt (.window .inboxDaily) caps.inboxDailySends usage.inboxDailySends (· ≤ usage.inboxDailySends)
  else none).or <|
  (refuseAt (.window .workspaceDaily) caps.workspaceDailySends usage.workspaceDailySends
    (· ≤ usage.workspaceDailySends)).or <|
  refuseAt (.window .workspaceMonthly) caps.workspaceMonthlySends usage.workspaceMonthlySends
    (· ≤ usage.workspaceMonthlySends)

section
variable {letters : LowerUnits} {caps : ResolvedEmailSendCaps} {usage : EmailSendWindowUsage}
  {recipients : List Utf16}

theorem refuseAt_eq_none {limitKind : EmailSendCapLimitKind} {cap : Option Nat} {used : Nat} {broken : Nat → Bool} :
    refuseAt limitKind cap used broken = none ↔ ∀ n ∈ cap, broken n = false := by
  rw [refuseAt, Option.map_eq_none_iff, Option.filter_eq_none_iff]
  exact forall₂_congr fun n _ => by rw [Bool.not_eq_true]

theorem room_of_evaluate (admitted : evaluateEmailSendCaps letters caps usage recipients = none) :
    (usage.hasInbox = true →
      (∀ cap ∈ caps.inboxBurstSends, usage.inboxBurstSends < cap) ∧
      (∀ cap ∈ caps.inboxBurstRecipients, (distinctEmailRecipients letters usage.inboxRecentRecipients ++
        distinctEmailRecipients letters recipients).eraseDups.length ≤ cap) ∧
      (∀ cap ∈ caps.inboxDailySends, usage.inboxDailySends < cap)) ∧
    (∀ cap ∈ caps.workspaceDailySends, usage.workspaceDailySends < cap) ∧
    (∀ cap ∈ caps.workspaceMonthlySends, usage.workspaceMonthlySends < cap) := by
  simp only [evaluateEmailSendCaps, Option.or_eq_none_iff, refuseAt_eq_none, decide_eq_false_iff_not, Nat.not_le,
    Nat.not_lt] at admitted
  obtain ⟨_, inbox, daily, monthly⟩ := admitted
  refine ⟨fun has => ?_, daily, monthly⟩
  rw [if_pos has] at inbox
  simpa only [Option.or_eq_none_iff, refuseAt_eq_none, decide_eq_false_iff_not, Nat.not_le, Nat.not_lt] using inbox

end

end EverWorks.Email
