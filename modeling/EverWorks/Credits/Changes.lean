import Mathlib
import EverWorks.Credits.Refund

/-!
# What a ledger transaction changes

Every transaction of the repository is a sequence of three changes: a movement is appended, a
debit takes from an open bucket, a lapsed bucket is closed. `Sound` is what they all preserve.
-/

namespace EverWorks.Credits
open Lib Relation List Option

/-- The row is the expiry of the bucket `id`. -/
def closes (id : Nat) (row : CreditLedgerEntry) : Bool :=
  row.kind = .expiry ∧ row.refId = some (toString id)

def totalRemaining (rows : Rows) : Int := (rows.map (·.available)).sum

def CreditLedgerEntry.WellKept (row : CreditLedgerEntry) : Prop :=
  if 0 < row.amountCredits then
    ∃ left, row.remainingCredits = some left ∧ 0 ≤ left ∧ left ≤ row.amountCredits
  else row.remainingCredits = none ∧ row.expiresAt = none

structure Sound (rows : Rows) : Prop where
  ids : rows.map (·.id) = List.range rows.length
  balances : ∀ i row, rows[i]? = some row → row.balanceAfter = sumBalance (rows.take (i + 1))
  kept : ∀ row ∈ rows, row.WellKept
  closed : ∀ row ∈ rows, row.kind = .expiry → ∃ bucket ∈ rows,
    row.refId = some (toString bucket.id) ∧ bucket.remainingCredits = some 0 ∧
      bucket.expiresAt ≠ none
  once : ∀ id, rows.countP (closes id) ≤ 1
  keys : ∀ row ∈ rows, ∀ id, row.idempotencyKey = some (expiryKey id) → closes id row

theorem toString_injective {a b : Nat} (same : toString a = toString b) : a = b :=
  Nat.repr_inj.mp same

theorem expiryKey_injective {a b : Nat} (same : expiryKey a = expiryKey b) : a = b := by
  unfold expiryKey at same
  exact toString_injective (String.append_right_inj _ |>.mp same)

theorem ne_expiryKey {key : String} (first : key.toList.head? ≠ some 'e') (id : Nat) :
    key ≠ expiryKey id := by
  intro same
  apply first
  rw [same, expiryKey, String.toList_append]
  rfl

variable {row : CreditLedgerEntry}

theorem closes_iff {id : Nat} :
    closes id row = true ↔ row.kind = .expiry ∧ row.refId = some (toString id) := by
  simp [closes]

namespace Sound
variable {rows : Rows} (sound : Sound rows)
include sound

theorem nodup : (rows.map (·.id)).Nodup := by
  rw [sound.ids]
  exact nodup_range

theorem id_lt (member : row ∈ rows) : row.id < rows.length := by
  have listed : row.id ∈ rows.map (·.id) := mem_map_of_mem member
  rw [sound.ids] at listed
  exact mem_range.mp listed

theorem id_injective {a b : CreditLedgerEntry} (memberA : a ∈ rows) (memberB : b ∈ rows)
    (same : a.id = b.id) : a = b :=
  inj_on_of_nodup_map sound.nodup memberA memberB same

theorem available_bounds (member : row ∈ rows) :
    0 ≤ row.available ∧ row.available ≤ max 0 row.amountCredits := by
  have kept := sound.kept row member
  unfold CreditLedgerEntry.WellKept at kept
  unfold CreditLedgerEntry.available
  split at kept
  · obtain ⟨left, remaining, low, high⟩ := kept
    rw [remaining, getD_some]
    omega
  · rw [kept.1, getD_none]
    omega

theorem of_available_pos (member : row ∈ rows)
    (some_left : 0 < row.available) :
    row.remainingCredits = some row.available ∧ 0 < row.amountCredits := by
  have kept := sound.kept row member
  unfold CreditLedgerEntry.WellKept at kept
  unfold CreditLedgerEntry.available at some_left ⊢
  split at kept
  · rename_i positive
    obtain ⟨left, remaining, -, -⟩ := kept
    exact ⟨by rw [remaining]; rfl, positive⟩
  · rw [kept.1] at some_left
    simp at some_left

theorem not_closed {bucket : CreditLedgerEntry} (member : bucket ∈ rows)
    (some_left : 0 < bucket.available) : rows.countP (closes bucket.id) = 0 := by
  rw [countP_eq_zero]
  intro row present closing
  obtain ⟨expiry, names⟩ := closes_iff.mp closing
  obtain ⟨other, inside, refers, empty, -⟩ := sound.closed row present expiry
  have same : bucket.id = other.id := by
    rw [names] at refers
    exact toString_injective (some.inj refers)
  have equal := sound.id_injective member inside same
  rw [equal] at some_left
  simp [CreditLedgerEntry.available, empty] at some_left

theorem no_expiryKey {bucket : CreditLedgerEntry} (member : bucket ∈ rows)
    (some_left : 0 < bucket.available) :
    findByIdempotencyKey rows (expiryKey bucket.id) = none := by
  unfold findByIdempotencyKey
  rw [find?_eq_none]
  intro row present keyed
  have closing := sound.keys row present bucket.id (by simpa using keyed)
  have none_closes := countP_eq_zero.mp (sound.not_closed member some_left)
  exact none_closes row present closing

end Sound

theorem sound_nil : Sound [] where
  ids := rfl
  balances := by simp
  kept := by simp
  closed := by simp
  once := by simp
  keys := by simp

@[simp] theorem length_updateRemaining (rows : Rows) (id : Nat) (v : Int) :
    (updateRemaining rows id v).length = rows.length := Table.length_update

theorem map_updateRemaining {τ : Type} (rows : Rows) (id : Nat) (v : Int)
    (column : CreditLedgerEntry → τ)
    (frame : ∀ row : CreditLedgerEntry, column { row with remainingCredits := some v } = column row) :
    (updateRemaining rows id v).map column = rows.map column :=
  Table.map_update column frame

@[simp] theorem sumBalance_updateRemaining (rows : Rows) (id : Nat) (v : Int) :
    sumBalance (updateRemaining rows id v) = sumBalance rows := by
  unfold sumBalance
  rw [map_updateRemaining rows id v (·.amountCredits) (fun _ => rfl)]

theorem mem_updateRemaining {rows : Rows} {id : Nat} {v : Int} :
    row ∈ updateRemaining rows id v ↔ ∃ old ∈ rows,
      (old.id = id ∧ row = { old with remainingCredits := some v }) ∨ (old.id ≠ id ∧ row = old) :=
  Table.mem_update

theorem countP_updateRemaining (rows : Rows) (id : Nat) (v : Int) (bucketId : Nat) :
    (updateRemaining rows id v).countP (closes bucketId) = rows.countP (closes bucketId) := by
  have column := map_updateRemaining rows id v (closes bucketId) (fun _ => rfl)
  have counts : ∀ l : Rows, l.countP (closes bucketId) = (l.map (closes bucketId)).countP (· = true) := by
    intro l
    rw [countP_map]
    congr 1
    funext row
    simp
  rw [counts, counts, column]

theorem updateRemaining_append {rows : Rows} {entry : CreditLedgerEntry} {id : Nat} {v : Int}
    (other : entry.id ≠ id) :
    updateRemaining (rows ++ [entry]) id v = updateRemaining rows id v ++ [entry] := by
  simp [updateRemaining, Table.update, other]

@[simp] theorem sumBalance_append (rows : Rows) (entry : CreditLedgerEntry) :
    sumBalance (rows ++ [entry]) = sumBalance rows + entry.amountCredits := by
  simp [sumBalance]

@[simp] theorem totalRemaining_append (rows : Rows) (entry : CreditLedgerEntry) :
    totalRemaining (rows ++ [entry]) = totalRemaining rows + entry.available := by
  simp [totalRemaining]

variable {bucket : CreditLedgerEntry}

theorem totalRemaining_updateRemaining {rows : Rows} (sound : Sound rows)
    (member : bucket ∈ rows) (v : Int) :
    totalRemaining (updateRemaining rows bucket.id v) =
      totalRemaining rows - bucket.available + v := by
  unfold totalRemaining updateRemaining
  rw [Table.sum_update CreditLedgerEntry.available sound.nodup member]
  rfl

theorem Sound.updateRemaining {rows : Rows} (sound : Sound rows)
    (member : bucket ∈ rows) {v : Int} (positive : 0 < bucket.available) (low : 0 ≤ v)
    (high : v ≤ bucket.available) : Sound (updateRemaining rows bucket.id v) := by
  have only : ∀ old ∈ rows, old.id = bucket.id → old = bucket :=
    fun old present same => sound.id_injective present member same
  constructor
  · rw [map_updateRemaining rows bucket.id v (·.id) (fun _ => rfl), length_updateRemaining]
    exact sound.ids
  · intro i row found
    have split : (Credits.updateRemaining rows bucket.id v).take (i + 1) =
        Credits.updateRemaining (rows.take (i + 1)) bucket.id v := by
      simp [Credits.updateRemaining, Table.update, map_take]
    rw [split, sumBalance_updateRemaining]
    simp only [Credits.updateRemaining, Table.update, getElem?_map,
      map_eq_some_iff] at found
    obtain ⟨old, read, rfl⟩ := found
    have balance := sound.balances i old read
    split <;> exact balance
  · intro row present
    obtain ⟨old, inside, ⟨same, rfl⟩ | ⟨-, rfl⟩⟩ := mem_updateRemaining.mp present
    · have target := only old inside same
      subst target
      obtain ⟨-, amount⟩ := sound.of_available_pos member positive
      have bounds := sound.available_bounds member
      unfold CreditLedgerEntry.WellKept
      rw [if_pos amount]
      exact ⟨v, rfl, low, by simp only; omega⟩
    · exact sound.kept row inside
  · intro row present expiry
    have unchanged : ∃ old ∈ rows, old.kind = .expiry ∧ old.refId = row.refId := by
      obtain ⟨old, inside, ⟨-, rfl⟩ | ⟨-, rfl⟩⟩ := mem_updateRemaining.mp present
      · exact ⟨old, inside, expiry, rfl⟩
      · exact ⟨row, inside, expiry, rfl⟩
    obtain ⟨old, inside, kind, sameRef⟩ := unchanged
    obtain ⟨closedBucket, found, refers, empty, lapses⟩ := sound.closed old inside kind
    -- The bucket written still has something left, so it is not the one this expiry closed.
    have other : closedBucket.id ≠ bucket.id := by
      intro same
      rw [only closedBucket found same] at empty
      simp [CreditLedgerEntry.available, empty] at positive
    exact ⟨closedBucket, Table.mem_update_of_ne found other, by rw [← sameRef, refers], empty,
      lapses⟩
  · intro id
    rw [countP_updateRemaining]
    exact sound.once id
  · intro row present id keyed
    obtain ⟨old, inside, ⟨-, rfl⟩ | ⟨-, rfl⟩⟩ := mem_updateRemaining.mp present
    · exact sound.keys old inside id keyed
    · exact sound.keys row inside id keyed

structure Appendable (rows : Rows) (entry : CreditLedgerEntry) : Prop where
  id : entry.id = rows.length
  balance : entry.balanceAfter = sumBalance rows + entry.amountCredits
  kept : entry.WellKept
  closed : entry.kind = .expiry → ∃ bucket ∈ rows, entry.refId = some (toString bucket.id) ∧
    bucket.remainingCredits = some 0 ∧ bucket.expiresAt ≠ none ∧
      rows.countP (closes bucket.id) = 0
  keys : ∀ id, entry.idempotencyKey = some (expiryKey id) → closes id entry

theorem Sound.append {rows : Rows} (sound : Sound rows) {entry : CreditLedgerEntry}
    (fits : Appendable rows entry) : Sound (rows ++ [entry]) := by
  have cases_of : ∀ row ∈ rows ++ [entry], row ∈ rows ∨ row = entry := by
    intro row present
    rcases mem_append.mp present with old | new
    · exact Or.inl old
    · exact Or.inr (mem_singleton.mp new)
  constructor
  · rw [map_append, sound.ids, length_append, length_singleton, range_succ,
      map_singleton, fits.id]
  · intro i row found
    rcases Nat.lt_or_ge i rows.length with early | late
    · rw [getElem?_append_left early] at found
      rw [take_append_of_le_length (by omega)]
      exact sound.balances i row found
    · rw [getElem?_append_right late] at found
      have last : i - rows.length = 0 := by
        by_contra beyond
        rw [getElem?_eq_none (by simp; omega)] at found
        cases found
      rw [last] at found
      simp only [getElem?_cons_zero, some.injEq] at found
      subst found
      rw [take_of_length_le (by simp; omega), sumBalance_append]
      exact fits.balance
  · intro row present
    rcases cases_of row present with old | rfl
    · exact sound.kept row old
    · exact fits.kept
  · intro row present expiry
    rcases cases_of row present with old | rfl
    · obtain ⟨bucket, inside, rest⟩ := sound.closed row old expiry
      exact ⟨bucket, mem_append_left _ inside, rest⟩
    · obtain ⟨bucket, inside, refers, empty, lapses, -⟩ := fits.closed expiry
      exact ⟨bucket, mem_append_left _ inside, refers, empty, lapses⟩
  · intro id
    rw [countP_append, countP_singleton]
    by_cases closing : closes id entry = true
    · obtain ⟨expiry, names⟩ := closes_iff.mp closing
      obtain ⟨bucket, -, refers, -, -, fresh⟩ := fits.closed expiry
      rw [names] at refers
      have same := toString_injective (some.inj refers)
      rw [if_pos closing, same, fresh]
    · rw [if_neg closing]
      exact sound.once id
  · intro row present id keyed
    rcases cases_of row present with old | rfl
    · exact sound.keys row old id keyed
    · exact fits.keys id keyed

/-- One change of a ledger at the instant `now`, next to the part of its debits no bucket has
covered. -/
inductive Change (now : Int) : Rows × Int → Rows × Int → Prop
  | append {rows : Rows} {uncovered : Int} {entry : CreditLedgerEntry} :
      Appendable rows entry → entry.kind ≠ .expiry →
      entry.available = max 0 entry.amountCredits →
      Change now (rows, uncovered) (rows ++ [entry], uncovered + max 0 (-entry.amountCredits))
  | take {rows : Rows} {uncovered : Int} {bucket : CreditLedgerEntry} {credits : Int} :
      bucket ∈ rows → bucket.lapsedAt now = false → 0 < credits → credits ≤ bucket.available →
      Change now (rows, uncovered)
        (updateRemaining rows bucket.id (bucket.available - credits), uncovered - credits)
  | expire {rows : Rows} {uncovered : Int} {bucket : CreditLedgerEntry} :
      bucket ∈ rows → bucket.isDue now = true →
      Change now (rows, uncovered)
        (updateRemaining rows bucket.id 0 ++ [expiryEntry rows bucket now], uncovered)

abbrev Changes (now : Int) : Rows × Int → Rows × Int → Prop := ReflTransGen (Change now)

variable {now : Int}

theorem isDue_iff :
    row.isDue now = true ↔ 0 < row.available ∧ row.lapsedAt now = true := by
  simp [CreditLedgerEntry.isDue]

theorem expiryEntry_appendable {rows : Rows} (sound : Sound rows)
    (member : bucket ∈ rows) (due : bucket.isDue now = true) :
    Appendable (updateRemaining rows bucket.id 0) (expiryEntry rows bucket now) := by
  obtain ⟨positive, lapsed⟩ := isDue_iff.mp due
  have emptied : { bucket with remainingCredits := some 0 } ∈ updateRemaining rows bucket.id 0 :=
    mem_updateRemaining.mpr ⟨bucket, member, Or.inl ⟨rfl, rfl⟩⟩
  constructor
  · exact (length_updateRemaining rows bucket.id 0).symm
  · rw [sumBalance_updateRemaining]
    show sumBalance rows - bucket.available = sumBalance rows + -bucket.available
    omega
  · have negative : ¬ 0 < (expiryEntry rows bucket now).amountCredits := by
      show ¬ 0 < -bucket.available
      omega
    unfold CreditLedgerEntry.WellKept
    rw [if_neg negative]
    exact ⟨rfl, rfl⟩
  · intro _
    refine ⟨_, emptied, rfl, rfl, ?_, ?_⟩
    · intro never
      have perpetual : bucket.expiresAt = none := never
      simp [CreditLedgerEntry.lapsedAt, perpetual] at lapsed
    · show (updateRemaining rows bucket.id 0).countP (closes bucket.id) = 0
      rw [countP_updateRemaining]
      exact sound.not_closed member positive
  · intro id keyed
    have same : expiryKey bucket.id = expiryKey id := some.inj keyed
    rw [← expiryKey_injective same]
    exact closes_iff.mpr ⟨rfl, rfl⟩

variable {before after : Rows × Int}

theorem Change.sound (change : Change now before after)
    (sound : Sound before.1) : Sound after.1 := by
  cases change with
  | append fits _ _ => exact sound.append fits
  | take member _ positive bounded =>
    exact sound.updateRemaining member (by omega) (by omega) (by omega)
  | expire member due =>
    have positive := (isDue_iff.mp due).1
    have emptied := sound.updateRemaining member positive le_rfl positive.le
    exact emptied.append (expiryEntry_appendable sound member due)

theorem Change.conserved (change : Change now before after)
    (sound : Sound before.1) :
    totalRemaining after.1 - sumBalance after.1 - after.2 =
      totalRemaining before.1 - sumBalance before.1 - before.2 := by
  cases change with
  | append _ _ fresh =>
    simp only [totalRemaining_append, sumBalance_append, fresh]
    omega
  | take member _ _ _ =>
    simp only [totalRemaining_updateRemaining sound member, sumBalance_updateRemaining]
    omega
  | @expire rows uncovered bucket member _ =>
    have empty : (expiryEntry rows bucket now).available = 0 := rfl
    have amount : (expiryEntry rows bucket now).amountCredits = -bucket.available := rfl
    simp only [totalRemaining_append, sumBalance_append, empty, amount,
      totalRemaining_updateRemaining sound member, sumBalance_updateRemaining]
    omega

theorem Changes.sound (changes : Changes now before after)
    (sound : Sound before.1) : Sound after.1 := by
  induction changes with
  | refl => exact sound
  | tail _ change ih => exact change.sound ih

theorem Changes.conserved
    (changes : Changes now before after) (sound : Sound before.1) :
    totalRemaining after.1 - sumBalance after.1 - after.2 =
      totalRemaining before.1 - sumBalance before.1 - before.2 := by
  induction changes with
  | refl => rfl
  | tail earlier change ih => exact (change.conserved (Changes.sound earlier sound)).trans ih

theorem takeFrom_other {rows : Rows} {left : Int} {bucket other : CreditLedgerEntry}
    (member : other ∈ rows) (distinct : other.id ≠ bucket.id) :
    other ∈ (takeFrom (rows, left) bucket).1 := by
  unfold takeFrom
  dsimp only
  split
  · exact member
  · split
    · exact member
    · exact Table.mem_update_of_ne member distinct

theorem takeFrom_changes {rows : Rows} {left uncovered now : Int}
    (member : bucket ∈ rows) (live : bucket.lapsedAt now = false) :
    Changes now (rows, uncovered) ((takeFrom (rows, left) bucket).1,
      uncovered - left + (takeFrom (rows, left) bucket).2) := by
  have nothing : Changes now (rows, uncovered) (rows, uncovered - left + left) := by
    rw [Int.sub_add_cancel]
  unfold takeFrom
  dsimp only
  split
  · exact nothing
  · split
    · exact nothing
    · rename_i taken
      have change : Change now (rows, uncovered) _ :=
        Change.take member live (not_le.mp taken) (min_le_left bucket.available left)
      have rest : uncovered - min bucket.available left =
          uncovered - left + (left - min bucket.available left) := by omega
      rw [rest] at change
      exact ReflTransGen.single change

theorem foldl_takeFrom_changes {buckets : Rows} :
    ∀ {rows : Rows} {left uncovered : Int}, (buckets.map (·.id)).Nodup →
      (∀ bucket ∈ buckets, bucket ∈ rows ∧ bucket.lapsedAt now = false) →
      Changes now (rows, uncovered) ((buckets.foldl takeFrom (rows, left)).1,
        uncovered - left + (buckets.foldl takeFrom (rows, left)).2) := by
  induction buckets with
  | nil =>
    intro rows left uncovered _ _
    simp only [foldl_nil, Int.sub_add_cancel]
    exact ReflTransGen.refl
  | cons bucket rest ih =>
    intro rows left uncovered distinct members
    rw [map_cons, nodup_cons] at distinct
    obtain ⟨member, live⟩ := members bucket mem_cons_self
    have later : ∀ other ∈ rest,
        other ∈ (takeFrom (rows, left) bucket).1 ∧ other.lapsedAt now = false := by
      intro other inside
      obtain ⟨present, open_⟩ := members other (mem_cons_of_mem _ inside)
      have different : other.id ≠ bucket.id := fun same =>
        distinct.1 (same ▸ mem_map_of_mem inside)
      exact ⟨takeFrom_other present different, open_⟩
    have first : Changes now (rows, uncovered) ((takeFrom (rows, left) bucket).1,
        uncovered - left + (takeFrom (rows, left) bucket).2) := takeFrom_changes member live
    have remaining := @ih (takeFrom (rows, left) bucket).1 (takeFrom (rows, left) bucket).2
      (uncovered - left + (takeFrom (rows, left) bucket).2) distinct.2 later
    rw [Int.add_sub_cancel] at remaining
    exact first.trans remaining

theorem mem_openBuckets {rows : Rows} :
    bucket ∈ openBuckets rows now ↔
      bucket ∈ rows ∧ 0 < bucket.available ∧ bucket.lapsedAt now = false := by
  unfold openBuckets CreditLedgerEntry.lapsedAt
  rw [mem_append, mem_insertionSort, mem_insertionSort, mem_filter,
    mem_filter]
  cases bucket.expiresAt with
  | none => simp
  | some at_ => simp

theorem openBuckets_nodup {rows : Rows} (sound : Sound rows) (now : Int) :
    ((openBuckets rows now).map (·.id)).Nodup := by
  have part : ∀ (keep : CreditLedgerEntry → Bool) (order : CreditLedgerEntry → CreditLedgerEntry → Prop)
      [DecidableRel order], (((rows.filter keep).insertionSort order).map (·.id)).Nodup := by
    intro keep order _
    have sorted := ((perm_insertionSort order (rows.filter keep)).map (·.id)).nodup_iff
    rw [sorted]
    exact (filter_sublist.map _).nodup sound.nodup
  unfold openBuckets
  rw [map_append, nodup_append]
  refine ⟨part _ _, part _ _, ?_⟩
  intro a inA b inB same
  obtain ⟨rowA, memberA, rfl⟩ := mem_map.mp inA
  obtain ⟨rowB, memberB, rfl⟩ := mem_map.mp inB
  rw [mem_insertionSort, mem_filter] at memberA memberB
  have equal := sound.id_injective memberA.1 memberB.1 same
  subst equal
  have perpetual := memberB.2
  have expiring := memberA.2
  cases limit : rowA.expiresAt with
  | none => simp [limit] at expiring
  | some at_ => simp [limit] at perpetual

theorem allocateDebit_changes {rows : Rows} (sound : Sound rows) (credits uncovered now : Int) :
    Changes now (rows, uncovered) ((allocateDebit rows credits now).1,
      uncovered - credits + (allocateDebit rows credits now).2) := by
  refine foldl_takeFrom_changes (openBuckets_nodup sound now) ?_
  intro bucket inside
  obtain ⟨member, -, live⟩ := mem_openBuckets.mp inside
  exact ⟨member, live⟩

theorem expireBucket_eq {rows : Rows} (sound : Sound rows)
    (member : bucket ∈ rows) (positive : 0 < bucket.available) :
    expireBucket now rows bucket =
      updateRemaining rows bucket.id 0 ++ [expiryEntry rows bucket now] := by
  have newer : (expiryEntry rows bucket now).id ≠ bucket.id := by
    have older := sound.id_lt member
    show rows.length ≠ bucket.id
    omega
  unfold expireBucket
  rw [if_neg (not_le.mpr positive), sound.no_expiryKey member positive,
    updateRemaining_append newer]

theorem foldl_expireBucket_changes {now uncovered : Int} {buckets : Rows} :
    ∀ {rows : Rows}, Sound rows → (buckets.map (·.id)).Nodup →
      (∀ bucket ∈ buckets, bucket ∈ rows ∧ bucket.isDue now = true) →
      Changes now (rows, uncovered) (buckets.foldl (expireBucket now) rows, uncovered) := by
  induction buckets with
  | nil =>
    intro rows _ _ _
    exact ReflTransGen.refl
  | cons bucket rest ih =>
    intro rows sound distinct members
    rw [map_cons, nodup_cons] at distinct
    obtain ⟨member, due⟩ := members bucket mem_cons_self
    have change : Change now (rows, uncovered) _ := Change.expire member due
    rw [foldl_cons, expireBucket_eq sound member (isDue_iff.mp due).1]
    refine (ReflTransGen.single change).trans (ih (change.sound sound) distinct.2 ?_)
    intro other inside
    obtain ⟨present, otherDue⟩ := members other (mem_cons_of_mem _ inside)
    have different : other.id ≠ bucket.id := fun same =>
      distinct.1 (same ▸ mem_map_of_mem inside)
    exact ⟨mem_append_left _ (Table.mem_update_of_ne present different), otherDue⟩

theorem mem_dueBuckets {rows : Rows} :
    bucket ∈ dueBuckets rows now ↔ bucket ∈ rows ∧ bucket.isDue now = true := by
  unfold dueBuckets
  rw [mem_insertionSort, mem_filter]

theorem dueBuckets_nodup {rows : Rows} (sound : Sound rows) (now : Int) :
    ((dueBuckets rows now).map (·.id)).Nodup := by
  have sorted := ((perm_insertionSort soonestFirst
    (rows.filter (·.isDue now))).map (·.id)).nodup_iff
  unfold dueBuckets
  rw [sorted]
  exact (filter_sublist.map _).nodup sound.nodup

theorem expireDueBucketsInTx_changes {rows : Rows} (sound : Sound rows) (now uncovered : Int) :
    Changes now (rows, uncovered) (expireDueBucketsInTx rows now, uncovered) :=
  foldl_expireBucket_changes sound (dueBuckets_nodup sound now)
    fun _ inside => mem_dueBuckets.mp inside

theorem expireDueBucketsInTx_sound {rows : Rows} (sound : Sound rows) (now : Int) :
    Sound (expireDueBucketsInTx rows now) :=
  (expireDueBucketsInTx_changes sound now 0).sound sound

theorem post_changes {rows : Rows} (sound : Sound rows) {entry : CreditLedgerEntry}
    (fits : Appendable rows entry) (kind : entry.kind ≠ .expiry)
    (fresh : entry.available = max 0 entry.amountCredits) (uncovered now : Int) :
    Changes now (rows, uncovered) ((post rows entry now).1, uncovered + (post rows entry now).2) := by
  have appended : Change now (rows, uncovered) _ := Change.append fits kind fresh
  unfold post
  split
  · rename_i debit
    have allocated := allocateDebit_changes (sound.append fits) (-entry.amountCredits)
      (uncovered + max 0 (-entry.amountCredits)) now
    have settled : uncovered + max 0 (-entry.amountCredits) - -entry.amountCredits = uncovered := by
      omega
    rw [settled] at allocated
    exact (ReflTransGen.single appended).trans allocated
  · rename_i credit
    have nothing : uncovered + max 0 (-entry.amountCredits) = uncovered + 0 := by omega
    rw [nothing] at appended
    exact ReflTransGen.single appended

/-- What every caller of the repository keeps to: expiries and their keys are the ledger's own. -/
structure CreditLedgerWrite.Promised (write : CreditLedgerWrite) : Prop where
  kind : write.kind ≠ .expiry
  key : ∀ id, write.idempotencyKey ≠ some (expiryKey id)

theorem writtenEntry_appendable {rows : Rows} {write : CreditLedgerWrite}
    (promised : write.Promised) (amount now : Int) :
    Appendable rows (writtenEntry rows write amount now) where
  id := rfl
  balance := rfl
  kept := by
    unfold CreditLedgerEntry.WellKept writtenEntry
    dsimp only
    split
    · exact ⟨amount, rfl, by omega, le_rfl⟩
    · exact ⟨rfl, rfl⟩
  closed := fun expiry => absurd expiry promised.kind
  keys := fun id keyed => absurd keyed (promised.key id)

theorem writtenEntry_available (rows : Rows) (write : CreditLedgerWrite) (amount now : Int) :
    (writtenEntry rows write amount now).available = max 0 amount := by
  unfold CreditLedgerEntry.available writtenEntry
  dsimp only
  split
  · rw [getD_some]
    omega
  · rw [getD_none]
    omega

theorem reversalEntry_appendable {rows : Rows} {write : CumulativeRefundWrite}
    (promised : ∀ id, write.idempotencyKey ≠ expiryKey id) (purchase : CreditLedgerEntry)
    {creditsReversed : Int} (positive : 0 < creditsReversed) (now : Int) :
    Appendable rows (reversalEntry rows write purchase creditsReversed now) where
  id := rfl
  balance := by
    show sumBalance rows - creditsReversed = sumBalance rows + -creditsReversed
    omega
  kept := by
    have negative : ¬ 0 < (reversalEntry rows write purchase creditsReversed now).amountCredits := by
      show ¬ 0 < -creditsReversed
      omega
    unfold CreditLedgerEntry.WellKept
    rw [if_neg negative]
    exact ⟨rfl, rfl⟩
  closed := fun expiry => by cases expiry
  keys := fun id keyed => absurd (some.inj keyed) (promised id)

theorem reversalEntry_available (rows : Rows) (write : CumulativeRefundWrite)
    (purchase : CreditLedgerEntry) {creditsReversed : Int} (positive : 0 < creditsReversed)
    (now : Int) :
    (reversalEntry rows write purchase creditsReversed now).available =
      max 0 (reversalEntry rows write purchase creditsReversed now).amountCredits := by
  show (0 : Int) = max 0 (-creditsReversed)
  omega

inductive Posts (now : Int) (rows : Rows) : Rows → Int → Prop
  | unchanged : Posts now rows rows 0
  | swept : Posts now rows (expireDueBucketsInTx rows now) 0
  | posted {entry : CreditLedgerEntry} : Appendable (expireDueBucketsInTx rows now) entry →
      entry.kind ≠ .expiry → entry.available = max 0 entry.amountCredits →
      Posts now rows (post (expireDueBucketsInTx rows now) entry now).1
        (post (expireDueBucketsInTx rows now) entry now).2

theorem recordAtomic_posts (rows : Rows) {write : CreditLedgerWrite} (promised : write.Promised)
    (options : RecordAtomicOptions) (now : Int) :
    Posts now rows (recordAtomic rows write options now).rows
      (recordAtomic rows write options now).left := by
  unfold recordAtomic
  split
  · exact Posts.unchanged
  · dsimp only
    split
    · exact Posts.swept
    · split
      · exact Posts.swept
      · exact Posts.posted (writtenEntry_appendable promised _ now) promised.kind
          (writtenEntry_available _ write _ now)

theorem recordCumulativeRefundAtomic_posts (rows : Rows) {write : CumulativeRefundWrite}
    (promised : ∀ id, write.idempotencyKey ≠ expiryKey id) (now : Int) :
    Posts now rows (recordCumulativeRefundAtomic rows write now).rows
      (recordCumulativeRefundAtomic rows write now).left := by
  unfold recordCumulativeRefundAtomic
  split
  · exact Posts.unchanged
  · split
    · exact Posts.unchanged
    · split
      · exact Posts.unchanged
      · dsimp only
        split
        · exact Posts.unchanged
        · rename_i purchase _ _ uncovered
          have positive := not_le.mp uncovered
          exact Posts.posted (reversalEntry_appendable promised purchase positive now)
            (by intro same; cases same) (reversalEntry_available _ write purchase positive now)

theorem Posts.changes {rows rows' : Rows} {left : Int} (posts : Posts now rows rows' left)
    (sound : Sound rows) (uncovered : Int) : Changes now (rows, uncovered) (rows', uncovered + left) := by
  have swept := expireDueBucketsInTx_changes sound now uncovered
  cases posts with
  | unchanged => rw [Int.add_zero]
  | swept =>
    rw [Int.add_zero]
    exact swept
  | posted fits kind fresh =>
    exact swept.trans
      (post_changes (expireDueBucketsInTx_sound sound now) fits kind fresh uncovered now)

def movement (row : CreditLedgerEntry) : CreditLedgerEntry := { row with remainingCredits := none }

@[simp] theorem movements_updateRemaining (rows : Rows) (id : Nat) (v : Int) :
    (updateRemaining rows id v).map movement = rows.map movement :=
  map_updateRemaining rows id v movement fun _ => rfl

theorem movements_foldl_takeFrom (buckets : Rows) :
    ∀ state : Rows × Int, (buckets.foldl takeFrom state).1.map movement = state.1.map movement := by
  induction buckets with
  | nil => exact fun _ => rfl
  | cons bucket rest ih =>
    intro state
    rw [foldl_cons, ih]
    unfold takeFrom
    split
    · rfl
    · dsimp only
      split
      · rfl
      · exact movements_updateRemaining _ _ _

theorem movements_post (rows : Rows) (entry : CreditLedgerEntry) (now : Int) :
    (post rows entry now).1.map movement = rows.map movement ++ [movement entry] := by
  unfold post
  split
  · rw [allocateDebit, movements_foldl_takeFrom, map_append, map_singleton]
  · rw [map_append, map_singleton]

theorem movements_expire (rows : Rows) (now : Int) :
    ∃ expiries : Rows, (expireDueBucketsInTx rows now).map movement =
        rows.map movement ++ expiries ∧
      ∀ row ∈ expiries, row.kind = .expiry ∧ ∃ id, row.idempotencyKey = some (expiryKey id) := by
  have folded : ∀ (buckets before : Rows), ∃ expiries : Rows,
      (buckets.foldl (expireBucket now) before).map movement = before.map movement ++ expiries ∧
      ∀ row ∈ expiries, row.kind = .expiry ∧
        ∃ id, row.idempotencyKey = some (expiryKey id) := by
    intro buckets
    induction buckets with
    | nil => exact fun before => ⟨[], (append_nil _).symm, by simp⟩
    | cons bucket rest ih =>
      intro before
      obtain ⟨later, appended, own⟩ := ih (expireBucket now before bucket)
      rw [foldl_cons, appended]
      unfold expireBucket
      split
      · exact ⟨later, rfl, own⟩
      · split
        · exact ⟨later, by rw [movements_updateRemaining], own⟩
        · refine ⟨movement (expiryEntry before bucket now) :: later, ?_, ?_⟩
          · rw [movements_updateRemaining, map_append, append_assoc]
            rfl
          · intro row inside
            rcases mem_cons.mp inside with rfl | tail
            · exact ⟨rfl, bucket.id, rfl⟩
            · exact own row tail
  exact folded _ rows

/-- `rows'` is `rows` with the expiries of a sweep and then the posted rows appended, up to what is
left in the buckets. -/
def Appends (rows rows' posted : Rows) : Prop :=
  ∃ expiries : Rows, rows'.map movement = rows.map movement ++ expiries ++ posted.map movement ∧
    ∀ row ∈ expiries, row.kind = .expiry ∧ ∃ id, row.idempotencyKey = some (expiryKey id)

theorem Appends.refl (rows : Rows) : Appends rows rows [] :=
  ⟨[], by rw [append_nil, map_nil, append_nil], fun _ inside => by cases inside⟩

theorem expire_appends (rows : Rows) (now : Int) :
    Appends rows (expireDueBucketsInTx rows now) [] := by
  obtain ⟨expiries, appended, own⟩ := movements_expire rows now
  exact ⟨expiries, by rw [appended, map_nil, append_nil], own⟩

theorem post_appends (rows : Rows) (entry : CreditLedgerEntry) (now : Int) :
    Appends rows (post (expireDueBucketsInTx rows now) entry now).1 [entry] := by
  obtain ⟨expiries, appended, own⟩ := movements_expire rows now
  exact ⟨expiries, by rw [movements_post, appended, map_singleton], own⟩

theorem recordAtomic_cases (rows : Rows) (write : CreditLedgerWrite)
    (options : RecordAtomicOptions) (now : Int) :
    let tx := recordAtomic rows write options now
    let swept := expireDueBucketsInTx rows now
    let amount := clampAmount swept options (sumBalance swept) write.amountCredits
    (∃ existing, findExisting rows write.idempotencyKey = some existing ∧
      tx.rows = rows ∧ tx.result = .idempotent existing) ∨
    (findExisting rows write.idempotencyKey = none ∧ Appends rows tx.rows [] ∧
      ((0 < write.amountCredits ∧ tx.result = .skipped (sumBalance swept)) ∨
        (belowFloor options (sumBalance swept + amount) = true ∧
          tx.result = .insufficient (sumBalance swept)))) ∨
    (findExisting rows write.idempotencyKey = none ∧
      belowFloor options (sumBalance swept + amount) = false ∧
      Appends rows tx.rows [writtenEntry swept write amount now] ∧
      tx.result = .created (writtenEntry swept write amount now)) := by
  intro tx swept amount
  have unfolded : tx = recordAtomic rows write options now := rfl
  unfold recordAtomic at unfolded
  cases found : findExisting rows write.idempotencyKey with
  | some existing =>
    rw [found] at unfolded
    exact Or.inl ⟨existing, rfl, by rw [unfolded], by rw [unfolded]⟩
  | none =>
    right
    rw [found] at unfolded
    dsimp only at unfolded
    split at unfolded
    · rename_i clamped
      left
      exact ⟨rfl, by rw [unfolded]; exact expire_appends rows now,
        Or.inl ⟨clamped.1, by rw [unfolded]⟩⟩
    · split at unfolded
      · rename_i below
        left
        exact ⟨rfl, by rw [unfolded]; exact expire_appends rows now,
          Or.inr ⟨below, by rw [unfolded]⟩⟩
      · rename_i above
        right
        refine ⟨rfl, Bool.eq_false_iff.mpr above, ?_, by rw [unfolded]⟩
        rw [unfolded]
        exact post_appends rows _ now

theorem movements_grow_by_expire (rows : Rows) (now : Int) :
    rows.map movement <+: (expireDueBucketsInTx rows now).map movement := by
  obtain ⟨expiries, appended, -⟩ := movements_expire rows now
  rw [appended]
  exact prefix_append _ _

theorem Posts.movements {rows rows' : Rows} {left : Int}
    (posts : Posts now rows rows' left) : rows.map movement <+: rows'.map movement := by
  cases posts with
  | unchanged => exact prefix_rfl
  | swept => exact movements_grow_by_expire rows now
  | posted =>
    rw [movements_post]
    exact (movements_grow_by_expire rows now).trans (prefix_append _ _)

/-- What a property of movements says of every later row it says of every earlier one. -/
theorem forall_of_movements {rows rows' : Rows} {p : CreditLedgerEntry → Prop}
    (blind : ∀ row, p row ↔ p (movement row)) (grows : rows.map movement <+: rows'.map movement)
    (later : ∀ row ∈ rows', p row) : ∀ row ∈ rows, p row := by
  intro row member
  have listed := grows.subset (mem_map_of_mem member)
  obtain ⟨kept, present, same⟩ := mem_map.mp listed
  rw [blind, ← same, ← blind]
  exact later kept present

end EverWorks.Credits
