import Mathlib.Data.List.Basic

/-!
A grammar says what stands at the front of a stream: an item, a break, or too little to tell. What a reader has read
does not depend on how the stream was cut, but a piece that breaks the stream gives none of its items.
-/

namespace EverWorks.Lib.Incremental
open List

inductive Next (α β : Type) where
  | more
  | broken
  | item (value : α) (rest : List β)

structure Grammar (α β : Type) where
  next : List β → Next α β
  shorter : ∀ {front value rest}, next front = .item value rest → rest.length < front.length
  item_append : ∀ {front value rest} (back : List β), next front = .item value rest →
    next (front ++ back) = .item value (rest ++ back)
  broken_append : ∀ {front} (back : List β), next front = .broken → next (front ++ back) = .broken

variable {α β : Type} (grammar : Grammar α β)

def readUpTo : ℕ → List β → List α × Option (List β)
  | 0, stream => ([], some stream)
  | fuel + 1, stream =>
    match grammar.next stream with
    | .more => ([], some stream)
    | .broken => ([], none)
    | .item value rest => (value :: (readUpTo fuel rest).1, (readUpTo fuel rest).2)

def readAll (stream : List β) : List α × Option (List β) := readUpTo grammar (stream.length + 1) stream

/-- The pieces are given one after another: what each call answers, and what the reader keeps. -/
def push (kept : Option (List β)) (piece : List β) : Option (List α) × Option (List β) :=
  match kept with
  | none => (none, none)
  | some buffer =>
    match (readAll grammar (buffer ++ piece)).2 with
    | none => (none, none)
    | some rest => (some (readAll grammar (buffer ++ piece)).1, some rest)

def feed : Option (List β) → List (List β) → List (Option (List α)) × Option (List β)
  | kept, [] => ([], kept)
  | kept, piece :: pieces =>
    let answer := push grammar kept piece
    let later := feed answer.2 pieces
    (answer.1 :: later.1, later.2)

def delivered (answers : List (Option (List α))) : List α := (answers.map fun answer => answer.getD []).flatten

variable {grammar}

variable {stream : List β}

theorem readUpTo_eq {fuel fuel' : ℕ} (enough : stream.length < fuel) (enough' : stream.length < fuel') :
    readUpTo grammar fuel stream = readUpTo grammar fuel' stream := by
  induction fuel generalizing fuel' stream with
  | zero => exact absurd enough (Nat.not_lt_zero _)
  | succ fuel ih =>
    cases fuel' with
    | zero => exact absurd enough' (Nat.not_lt_zero _)
    | succ fuel' =>
      unfold readUpTo
      cases front : grammar.next stream with
      | more => rfl
      | broken => rfl
      | item value rest =>
        have less := grammar.shorter front
        dsimp only
        rw [ih (by omega) (by omega : rest.length < fuel')]

theorem readAll_more (front : grammar.next stream = .more) :
    readAll grammar stream = ([], some stream) := by
  rw [readAll, readUpTo, front]

theorem readAll_broken (front : grammar.next stream = .broken) : readAll grammar stream = ([], none) := by
  rw [readAll, readUpTo, front]

theorem readAll_item {stream rest : List β} {value : α} (front : grammar.next stream = .item value rest) :
    readAll grammar stream = (value :: (readAll grammar rest).1, (readAll grammar rest).2) := by
  have less := grammar.shorter front
  rw [readAll, readUpTo, front]
  dsimp only
  rw [readUpTo_eq less (Nat.lt_succ_self rest.length), readAll]

theorem next_of_readAll {stream rest : List β} (left : (readAll grammar stream).2 = some rest) :
    grammar.next rest = .more := by
  induction counted : stream.length using Nat.strongRecOn generalizing stream with
  | ind count ih =>
    cases front : grammar.next stream with
    | more =>
      rw [readAll_more front] at left
      rw [← Option.some.inj left, front]
    | broken =>
      rw [readAll_broken front] at left
      cases left
    | item value behind =>
      rw [readAll_item front] at left
      exact ih _ (counted ▸ grammar.shorter front) left rfl

theorem readAll_append (stream back : List β) : readAll grammar (stream ++ back) =
    match (readAll grammar stream).2 with
    | none => readAll grammar stream
    | some rest => ((readAll grammar stream).1 ++ (readAll grammar (rest ++ back)).1, (readAll grammar (rest ++ back)).2) := by
  induction counted : stream.length using Nat.strongRecOn generalizing stream with
  | ind count ih =>
    cases front : grammar.next stream with
    | more =>
      rw [readAll_more front]
      rfl
    | broken =>
      rw [readAll_broken front, readAll_broken (grammar.broken_append back front)]
    | item value behind =>
      have later := ih _ (counted ▸ grammar.shorter front) behind rfl
      rw [readAll_item front, readAll_item (grammar.item_append back front), later]
      dsimp only
      cases ended : (readAll grammar behind).2 with
      | none =>
        dsimp only
        rw [ended]
      | some rest => rfl

theorem items_prefix (stream back : List β) : (readAll grammar stream).1 <+: (readAll grammar (stream ++ back)).1 := by
  rw [readAll_append]
  cases (readAll grammar stream).2 with
  | none => exact prefix_rfl
  | some rest => exact prefix_append _ _

theorem broken_stays (broken : (readAll grammar stream).2 = none) (back : List β) :
    (readAll grammar (stream ++ back)).2 = none := by
  rw [readAll_append, broken]
  exact broken

theorem feed_none (pieces : List (List β)) : feed grammar none pieces = (pieces.map fun _ => none, none) := by
  induction pieces with
  | nil => rfl
  | cons piece pieces ih =>
    rw [feed]
    show (none :: (feed grammar none pieces).1, (feed grammar none pieces).2) = _
    rw [ih]
    rfl

theorem delivered_none (pieces : List (List β)) : delivered (pieces.map fun _ => (none : Option (List α))) = [] := by
  induction pieces with
  | nil => rfl
  | cons piece pieces ih => exact ih

theorem feed_whole {stream buffer rest : List β} {pieces : List (List β)} (kept : grammar.next buffer = .more)
    (cut : buffer ++ pieces.flatten = stream) (left : (readAll grammar stream).2 = some rest) :
    (∀ answer ∈ (feed grammar (some buffer) pieces).1, answer ≠ none) ∧
      delivered (feed grammar (some buffer) pieces).1 = (readAll grammar stream).1 ∧
      (feed grammar (some buffer) pieces).2 = some rest := by
  induction pieces generalizing buffer stream with
  | nil =>
    rw [flatten_nil, append_nil] at cut
    subst cut
    rw [readAll_more kept] at left ⊢
    exact ⟨fun answer listed => absurd listed not_mem_nil, rfl, left⟩
  | cons piece pieces ih =>
    subst cut
    rw [flatten_cons, ← append_assoc] at left ⊢
    cases here : (readAll grammar (buffer ++ piece)).2 with
    | none =>
      rw [broken_stays here] at left
      cases left
    | some behind =>
      rw [readAll_append (buffer ++ piece), here] at left
      obtain ⟨answered, items, ends⟩ := ih (next_of_readAll here) rfl left
      have pushed : push grammar (some buffer) piece = (some (readAll grammar (buffer ++ piece)).1, some behind) := by
        rw [push, here]
      rw [feed, pushed]
      refine ⟨?_, ?_, ends⟩
      · intro answer listed
        rcases mem_cons.mp listed with rfl | later
        · exact Option.some_ne_none _
        · exact answered answer later
      · rw [readAll_append (buffer ++ piece), here]
        dsimp only
        rw [← items]
        rfl

/-- A stream that breaks does so with one piece; the items of the pieces before it were delivered, and no others are. -/
theorem feed_broken {stream buffer : List β} {pieces : List (List β)} (kept : grammar.next buffer = .more)
    (cut : buffer ++ pieces.flatten = stream) (broken : (readAll grammar stream).2 = none) :
    ∃ front piece later rest, pieces = front ++ piece :: later ∧
      (readAll grammar (buffer ++ front.flatten)).2 = some rest ∧
      (readAll grammar (buffer ++ (front ++ [piece]).flatten)).2 = none ∧
      (feed grammar (some buffer) pieces).1 = (feed grammar (some buffer) front).1 ++ (piece :: later).map (fun _ => none) ∧
      delivered (feed grammar (some buffer) pieces).1 = (readAll grammar (buffer ++ front.flatten)).1 ∧
      (feed grammar (some buffer) pieces).2 = none := by
  induction pieces generalizing buffer stream with
  | nil =>
    rw [flatten_nil, append_nil] at cut
    rw [← cut, readAll_more kept] at broken
    cases broken
  | cons piece pieces ih =>
    subst cut
    rw [flatten_cons, ← append_assoc] at broken
    cases here : (readAll grammar (buffer ++ piece)).2 with
    | none =>
      have pushed : push grammar (some buffer) piece = (none, none) := by rw [push, here]
      have rest : feed grammar (some buffer) (piece :: pieces) = ((piece :: pieces).map fun _ => none, none) := by
        rw [feed, pushed, feed_none]
        rfl
      refine ⟨[], piece, pieces, buffer, rfl, ?_, ?_, ?_, ?_, ?_⟩
      · rw [flatten_nil, append_nil, readAll_more kept]
      · rw [nil_append, flatten_singleton]
        exact here
      · rw [rest]
        rfl
      · rw [rest, delivered_none, flatten_nil, append_nil, readAll_more kept]
      · rw [rest]
    | some behind =>
      rw [readAll_append (buffer ++ piece), here] at broken
      obtain ⟨front, last, later, left, split, whole, ends, answers, items, gone⟩ :=
        ih (next_of_readAll here) rfl broken
      have pushed : push grammar (some buffer) piece = (some (readAll grammar (buffer ++ piece)).1, some behind) := by
        rw [push, here]
      refine ⟨piece :: front, last, later, left, by rw [split, cons_append], ?_, ?_, ?_, ?_, ?_⟩
      · rw [flatten_cons, ← append_assoc, readAll_append (buffer ++ piece), here]
        exact whole
      · rw [cons_append, flatten_cons, ← append_assoc, readAll_append (buffer ++ piece), here]
        exact ends
      · rw [feed, pushed, feed, pushed]
        exact congrArg (_ :: ·) answers
      · rw [feed, pushed, flatten_cons, ← append_assoc, readAll_append (buffer ++ piece), here]
        dsimp only
        rw [← items]
        rfl
      · rw [feed, pushed]
        exact gone

end EverWorks.Lib.Incremental
