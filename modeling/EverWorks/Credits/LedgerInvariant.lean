import EverWorks.Lib.Run
import EverWorks.Credits.Changes

/-!
# The representation invariant of the ledger

What is left in the buckets exceeds the balance by the debit remainders no bucket covered, and a bucket that lapsed
keeps what was left of it until its one expiry row writes that off.
-/

namespace EverWorks.Credits
open Lib Relation List

theorem takeFrom_left (rows : Rows) {left : Int} (nonneg : 0 ≤ left) {bucket : CreditLedgerEntry}
    (positive : 0 < bucket.available) :
    (takeFrom (rows, left) bucket).2 = max 0 (left - bucket.available) := by
  unfold takeFrom
  dsimp only
  split
  · omega
  · split
    · omega
    · dsimp only
      omega

theorem foldl_takeFrom_left {buckets : Rows} (positive : ∀ bucket ∈ buckets, 0 < bucket.available) :
    ∀ {rows : Rows} {left : Int}, 0 ≤ left →
      (buckets.foldl takeFrom (rows, left)).2 = max 0 (left - totalRemaining buckets) := by
  induction buckets with
  | nil =>
    intro rows left nonneg
    simp only [foldl_nil, totalRemaining, map_nil, sum_nil]
    omega
  | cons bucket rest ih =>
    intro rows left nonneg
    have taken := takeFrom_left rows nonneg (positive bucket mem_cons_self)
    have restNonneg : 0 ≤ totalRemaining rest := by
      apply sum_nonneg
      intro value present
      obtain ⟨row, inside, rfl⟩ := mem_map.mp present
      exact (positive row (mem_cons_of_mem _ inside)).le
    have later := @ih (fun row inside => positive row (mem_cons_of_mem _ inside))
      (takeFrom (rows, left) bucket).1 (takeFrom (rows, left) bucket).2 (by rw [taken]; omega)
    rw [foldl_cons]
    rw [show takeFrom (rows, left) bucket =
      ((takeFrom (rows, left) bucket).1, (takeFrom (rows, left) bucket).2) from rfl, later, taken]
    have total : totalRemaining (bucket :: rest) = bucket.available + totalRemaining rest := by
      simp [totalRemaining]
    rw [total]
    omega

def liveRemaining (rows : Rows) (now : Int) : Int := totalRemaining (openBuckets rows now)

theorem allocateDebit_left (rows : Rows) {credits : Int} (nonneg : 0 ≤ credits) (now : Int) :
    (allocateDebit rows credits now).2 = max 0 (credits - liveRemaining rows now) :=
  foldl_takeFrom_left (fun _ inside => (mem_openBuckets.mp inside).2.1) nonneg

theorem sum_insertionSort (order : CreditLedgerEntry → CreditLedgerEntry → Prop)
    [DecidableRel order] (rows : Rows) :
    totalRemaining (rows.insertionSort order) = totalRemaining rows :=
  ((perm_insertionSort order rows).map _).sum_eq

variable {rows : Rows}

theorem totalRemaining_split (nonneg : ∀ row ∈ rows, 0 ≤ row.available) (now : Int) :
    totalRemaining rows = liveRemaining rows now + sumDueRemaining rows now := by
  unfold liveRemaining openBuckets sumDueRemaining
  have joined : ∀ a b : Rows, totalRemaining (a ++ b) = totalRemaining a + totalRemaining b := by
    intro a b
    simp [totalRemaining]
  rw [joined, sum_insertionSort, sum_insertionSort]
  unfold totalRemaining
  induction rows with
  | nil => rfl
  | cons row rest ih =>
    have tail := ih fun other inside => nonneg other (mem_cons_of_mem _ inside)
    have head := nonneg row mem_cons_self
    simp only [filter_cons, map_cons, sum_cons, CreditLedgerEntry.isDue,
      CreditLedgerEntry.lapsedAt, Bool.and_eq_true, decide_eq_true_eq, Option.isNone_iff_eq_none]
      at tail ⊢
    rcases head.lt_or_eq with positive | empty
    · cases limit : row.expiresAt with
      | none => simp [positive] at tail ⊢; omega
      | some at_ =>
        rcases le_or_gt at_ now with due | live
        · simp [positive, due, not_lt.mpr due] at tail ⊢; omega
        · simp [positive, live, not_le.mpr live] at tail ⊢; omega
    · simp [← empty] at tail ⊢; omega

theorem foldl_expireBucket_sum {now : Int} {buckets : Rows} :
    ∀ {rows : Rows}, Sound rows → (buckets.map (·.id)).Nodup →
      (∀ bucket ∈ buckets, bucket ∈ rows ∧ bucket.isDue now = true) →
      sumBalance (buckets.foldl (expireBucket now) rows) =
        sumBalance rows - totalRemaining buckets ∧
      ∀ row ∈ buckets.foldl (expireBucket now) rows, row.isDue now = true →
        row ∈ rows ∧ row ∉ buckets := by
  induction buckets with
  | nil =>
    intro rows _ _ _
    exact ⟨by simp [totalRemaining], fun row present _ => ⟨present, not_mem_nil⟩⟩
  | cons bucket rest ih =>
    intro rows sound distinct members
    rw [map_cons, nodup_cons] at distinct
    obtain ⟨member, due⟩ := members bucket mem_cons_self
    have positive := (isDue_iff.mp due).1
    have change : Change now (rows, 0) _ := Change.expire member due
    have kept : ∀ other ∈ rest, other ∈ updateRemaining rows bucket.id 0 ++
        [expiryEntry rows bucket now] ∧ other.isDue now = true := by
      intro other inside
      obtain ⟨present, otherDue⟩ := members other (mem_cons_of_mem _ inside)
      have different : other.id ≠ bucket.id := fun same =>
        distinct.1 (same ▸ mem_map_of_mem inside)
      exact ⟨mem_append_left _ (Table.mem_update_of_ne present different), otherDue⟩
    obtain ⟨total, leftover⟩ := ih (change.sound sound) distinct.2 kept
    rw [foldl_cons, expireBucket_eq sound member positive]
    constructor
    · rw [total, sumBalance_append, sumBalance_updateRemaining]
      show sumBalance rows + -bucket.available - totalRemaining rest = _
      simp only [totalRemaining, map_cons, sum_cons]
      omega
    · intro row present rowDue
      obtain ⟨earlier, unlisted⟩ := leftover row present rowDue
      have notEmpty := (isDue_iff.mp rowDue).1
      rcases mem_append.mp earlier with old | new
      · obtain ⟨source, inside, ⟨-, rfl⟩ | ⟨different, rfl⟩⟩ := mem_updateRemaining.mp old
        · simp [CreditLedgerEntry.available] at notEmpty
        · refine ⟨inside, ?_⟩
          rw [mem_cons, not_or]
          exact ⟨fun same => different (by rw [same]), unlisted⟩
      · rw [mem_singleton.mp new] at notEmpty
        simp [CreditLedgerEntry.available, expiryEntry] at notEmpty

theorem expireDueBucketsInTx_sum (sound : Sound rows) (now : Int) :
    sumBalance (expireDueBucketsInTx rows now) = sumBalance rows - sumDueRemaining rows now ∧
      sumDueRemaining (expireDueBucketsInTx rows now) now = 0 := by
  obtain ⟨total, leftover⟩ := foldl_expireBucket_sum sound (dueBuckets_nodup sound now)
    fun _ inside => mem_dueBuckets.mp inside
  have listed : totalRemaining (dueBuckets rows now) = sumDueRemaining rows now :=
    sum_insertionSort _ _
  refine ⟨by rw [← listed]; exact total, ?_⟩
  have none_due : (expireDueBucketsInTx rows now).filter (·.isDue now) = [] := by
    rw [filter_eq_nil_iff]
    intro row present due
    obtain ⟨inside, unlisted⟩ := leftover row present due
    exact unlisted (mem_dueBuckets.mpr ⟨inside, due⟩)
  unfold sumDueRemaining
  rw [none_due]
  rfl

variable {entry : CreditLedgerEntry}

theorem post_left (sound : Sound rows)
    (fits : Appendable rows entry) (now : Int) (fresh : entry.available = max 0 entry.amountCredits)
    (none_due : sumDueRemaining rows now = 0) :
    (post rows entry now).2 = max 0 (-entry.amountCredits - totalRemaining rows) ∨
      (0 ≤ entry.amountCredits ∧ (post rows entry now).2 = 0) := by
  unfold post
  split
  · rename_i debit
    left
    have after := sound.append fits
    have nonneg : ∀ row ∈ rows ++ [entry], 0 ≤ row.available :=
      fun row present => (after.available_bounds present).1
    have split := totalRemaining_split nonneg now
    have empty : entry.available = 0 := by omega
    have still : sumDueRemaining (rows ++ [entry]) now = 0 := by
      have notDue : entry.isDue now = false := by
        simp [CreditLedgerEntry.isDue, empty]
      unfold sumDueRemaining at none_due ⊢
      rw [filter_append, filter_singleton, notDue]
      simpa using none_due
    rw [allocateDebit_left _ (by omega)]
    rw [totalRemaining_append, empty, still] at split
    have live : liveRemaining (rows ++ [entry]) now = totalRemaining rows := by omega
    rw [live]
  · rename_i credit
    exact Or.inr ⟨not_lt.mp credit, rfl⟩

theorem Posts.left_cases {now : Int} {rows rows' : Rows} {left : Int}
    (posts : Posts now rows rows' left) (sound : Sound rows) :
    left = 0 ∨ ∃ entry : CreditLedgerEntry, entry.amountCredits < 0 ∧ entry.kind ≠ .expiry ∧
      entry.balanceAfter = sumBalance (expireDueBucketsInTx rows now) + entry.amountCredits ∧
      movement entry ∈ rows'.map movement ∧
      left = max 0 (-entry.amountCredits - totalRemaining (expireDueBucketsInTx rows now)) := by
  cases posts with
  | unchanged => exact Or.inl rfl
  | swept => exact Or.inl rfl
  | @posted entry fits kind fresh =>
    have clean := expireDueBucketsInTx_sound sound now
    have none_due := (expireDueBucketsInTx_sum sound now).2
    rcases post_left clean fits now fresh none_due with debit | ⟨-, credit⟩
    · rcases lt_or_ge entry.amountCredits 0 with negative | positive
      · refine Or.inr ⟨entry, negative, kind, fits.balance, ?_, debit⟩
        rw [movements_post]
        exact mem_append_right _ (mem_singleton.mpr rfl)
      · refine Or.inl (debit.trans (max_eq_left ?_))
        have held : 0 ≤ totalRemaining (expireDueBucketsInTx rows now) := by
          apply sum_nonneg
          intro value present
          obtain ⟨row, inside, rfl⟩ := mem_map.mp present
          exact (clean.available_bounds inside).1
        omega
    · exact Or.inl credit

inductive LedgerOp where
  | recordAtomic (write : CreditLedgerWrite) (options : RecordAtomicOptions)
  | recordCumulativeRefundAtomic (write : CumulativeRefundWrite)
  | expireDueBuckets

structure LedgerCall where
  op : LedgerOp
  now : Int

/-- The ledger of one user, and the total its debits left unallocated. -/
structure LedgerState where
  rows : Rows := []
  unallocated : Int := 0

def LedgerState.step (state : LedgerState) (call : LedgerCall) : LedgerState :=
  match call.op with
  | .recordAtomic write options =>
    let tx := Credits.recordAtomic state.rows write options call.now
    { rows := tx.rows, unallocated := state.unallocated + tx.left }
  | .recordCumulativeRefundAtomic write =>
    let tx := Credits.recordCumulativeRefundAtomic state.rows write call.now
    { rows := tx.rows, unallocated := state.unallocated + tx.left }
  | .expireDueBuckets =>
    let tx := Credits.expireDueBuckets state.rows call.now
    { rows := tx.rows, unallocated := state.unallocated + tx.left }

def LedgerCall.Promised (call : LedgerCall) : Prop :=
  match call.op with
  | .recordAtomic write _ => write.Promised
  | .recordCumulativeRefundAtomic write => ∀ id, write.idempotencyKey ≠ expiryKey id
  | .expireDueBuckets => True

variable {call : LedgerCall}

theorem LedgerState.step_posts (state : LedgerState) (promised : call.Promised) :
    ∃ left, Posts call.now state.rows (state.step call).rows left ∧
      (state.step call).unallocated = state.unallocated + left := by
  obtain ⟨op, now⟩ := call
  cases op with
  | recordAtomic write options => exact ⟨_, recordAtomic_posts state.rows promised options now, rfl⟩
  | recordCumulativeRefundAtomic write =>
    exact ⟨_, recordCumulativeRefundAtomic_posts state.rows promised now, rfl⟩
  | expireDueBuckets => exact ⟨0, Posts.swept, rfl⟩

/-- No debit took the balance below zero. -/
def NeverBelowZero (rows : Rows) : Prop :=
  ∀ row ∈ rows, row.amountCredits < 0 → row.kind ≠ .expiry → 0 ≤ row.balanceAfter

structure LedgerState.Invariant (state : LedgerState) : Prop where
  sound : Sound state.rows
  covered : totalRemaining state.rows - sumBalance state.rows = state.unallocated
  nonneg : 0 ≤ state.unallocated
  allocated : NeverBelowZero state.rows → state.unallocated = 0

theorem NeverBelowZero.earlier {rows rows' : Rows}
    (grows : rows.map movement <+: rows'.map movement) (later : NeverBelowZero rows') :
    NeverBelowZero rows :=
  forall_of_movements (p := fun row => row.amountCredits < 0 → row.kind ≠ .expiry →
    0 ≤ row.balanceAfter) (fun _ => Iff.rfl) grows later

variable {state : LedgerState}

theorem LedgerState.step_invariant (invariant : state.Invariant)
    (promised : call.Promised) : (state.step call).Invariant := by
  obtain ⟨left, posts, unallocated⟩ := state.step_posts promised
  have changes := posts.changes invariant.sound state.unallocated
  have conserved := changes.conserved invariant.sound
  have covered := invariant.covered
  have nonneg := invariant.nonneg
  dsimp only at conserved
  constructor
  · exact changes.sound invariant.sound
  · rw [unallocated]
    omega
  · rw [unallocated]
    rcases posts.left_cases invariant.sound with nothing | ⟨entry, -, -, -, -, rest⟩
    · omega
    · omega
  · intro never
    have earlier := invariant.allocated (never.earlier posts.movements)
    rw [unallocated, earlier]
    rcases posts.left_cases invariant.sound with nothing | ⟨entry, debit, kind, balance, listed, rest⟩
    · omega
    · -- The debit left a non-negative balance, and with nothing unallocated the buckets hold it.
      have swept := expireDueBucketsInTx_changes invariant.sound call.now state.unallocated
      have held := swept.conserved invariant.sound
      have floor : 0 ≤ entry.balanceAfter := by
        obtain ⟨kept, present, same⟩ := mem_map.mp listed
        have amount : kept.amountCredits = entry.amountCredits := congrArg (·.amountCredits) same
        have kinds : kept.kind = entry.kind := congrArg (·.kind) same
        have after : kept.balanceAfter = entry.balanceAfter := congrArg (·.balanceAfter) same
        rw [← after]
        exact never kept present (by omega) (by rw [kinds]; exact kind)
      dsimp only at held
      omega

variable {calls : List LedgerCall}

theorem LedgerState.run_invariant (start : state.Invariant)
    (promised : ∀ call ∈ calls, call.Promised) :
    (run LedgerState.step state calls).Invariant := by
  have preserve : ∀ (s : LedgerState) (call : LedgerCall), s.Invariant → call.Promised →
      (s.step call).Invariant := fun _ _ invariant promised => step_invariant invariant promised
  exact run_along preserve start (along_of_forall promised state)

theorem LedgerState.empty_invariant : LedgerState.Invariant {} where
  sound := sound_nil
  covered := rfl
  nonneg := le_rfl
  allocated := fun _ => rfl

def leftIn (rows : Rows) (bucket : CreditLedgerEntry) : Int :=
  (rows[bucket.id]?).elim bucket.amountCredits (·.available)

/-- What was left of a bucket when it lapsed: what the calls before that instant leave in it. -/
def leftWhenLapsed (calls : List LedgerCall) (bucket : CreditLedgerEntry) : Int :=
  match bucket.expiresAt with
  | some at_ => leftIn (run LedgerState.step {} (calls.takeWhile (·.now < at_))).rows bucket
  | none => 0

theorem Sound.getElem_id (sound : Sound rows) {row : CreditLedgerEntry}
    (member : row ∈ rows) : rows[row.id]? = some row := by
  obtain ⟨i, found⟩ := getElem?_of_mem member
  have listed : (rows.map (·.id))[i]? = some row.id := by
    rw [getElem?_map, found]
    rfl
  rw [sound.ids] at listed
  have position : i = row.id := by
    obtain ⟨_, same⟩ := List.getElem?_eq_some_iff.mp listed
    rw [getElem_range] at same
    exact same
  rw [← position]
  exact found

theorem Sound.leftIn_self (sound : Sound rows) {bucket : CreditLedgerEntry}
    (member : bucket ∈ rows) : leftIn rows bucket = bucket.available := by
  unfold leftIn
  rw [sound.getElem_id member]
  rfl

def Unclosed (at_ : Int) (rows : Rows) : Prop :=
  ∀ bucket ∈ rows, bucket.expiresAt = some at_ → rows.countP (closes bucket.id) = 0

theorem countP_append_other {id : Nat}
    (other : closes id entry ≠ true) : (rows ++ [entry]).countP (closes id) = rows.countP (closes id) := by
  rw [countP_append, countP_singleton, if_neg other, Nat.add_zero]

theorem not_closes_of_kind (kind : entry.kind ≠ .expiry) (id : Nat) :
    closes id entry ≠ true :=
  fun closing => kind (closes_iff.mp closing).1

theorem Sound.next_unclosed (sound : Sound rows) :
    rows.countP (closes rows.length) = 0 := by
  rw [countP_eq_zero]
  intro row present closing
  obtain ⟨expiry, names⟩ := closes_iff.mp closing
  obtain ⟨bucket, member, refers, -, -⟩ := sound.closed row present expiry
  rw [names] at refers
  have same := toString_injective (Option.some.inj refers)
  have older := sound.id_lt member
  omega

variable {before after : Rows × Int}

variable {now at_ : Int}

theorem Change.unclosed
    (change : Change now before after) (sound : Sound before.1) (early : now < at_)
    (unclosed : Unclosed at_ before.1) : Unclosed at_ after.1 := by
  cases change with
  | append fits kind fresh =>
    intro bucket present lapses
    rw [countP_append_other (not_closes_of_kind kind bucket.id)]
    rcases mem_append.mp present with old | new
    · exact unclosed bucket old lapses
    · rw [mem_singleton.mp new, fits.id]
      exact sound.next_unclosed
  | take member live positive bounded =>
    intro bucket present lapses
    rw [countP_updateRemaining]
    obtain ⟨old, inside, ⟨-, rfl⟩ | ⟨-, rfl⟩⟩ := mem_updateRemaining.mp present
    · exact unclosed old inside lapses
    · exact unclosed bucket inside lapses
  | @expire rows uncovered closing member due =>
    intro bucket present lapses
    rcases mem_append.mp present with kept | new
    · -- A bucket that is due now lapsed by now, so it is not one that lapses later.
      have source : ∃ old ∈ rows, old.id = bucket.id ∧ old.expiresAt = some at_ := by
        obtain ⟨old, inside, ⟨-, rfl⟩ | ⟨-, rfl⟩⟩ := mem_updateRemaining.mp kept
        · exact ⟨old, inside, rfl, lapses⟩
        · exact ⟨bucket, inside, rfl, lapses⟩
      obtain ⟨old, inside, sameId, oldLapses⟩ := source
      have other : closes bucket.id (expiryEntry rows closing now) ≠ true := by
        intro closed
        have names := (closes_iff.mp closed).2
        have same : closing.id = bucket.id := toString_injective (Option.some.inj names)
        have equal := sound.id_injective inside member (sameId.trans same.symm)
        have lapsed := (isDue_iff.mp due).2
        rw [← equal, CreditLedgerEntry.lapsedAt, oldLapses] at lapsed
        simp only [decide_eq_true_eq] at lapsed
        omega
      rw [countP_append_other other, countP_updateRemaining, ← sameId]
      exact unclosed old inside oldLapses
    · rw [mem_singleton.mp new] at lapses
      cases lapses

/-- Since they lapsed, the buckets of the instant hold what `reference` says, or were emptied by an
expiry that wrote exactly that off. -/
def Settled (at_ : Int) (reference rows : Rows) : Prop :=
  reference.length ≤ rows.length ∧ ∀ bucket ∈ rows, bucket.expiresAt = some at_ →
    (bucket.available = leftIn reference bucket ∧ rows.countP (closes bucket.id) = 0) ∨
    (bucket.available = 0 ∧ ∀ row ∈ rows, closes bucket.id row = true →
      row.amountCredits = -leftIn reference bucket)

theorem Change.settled {reference : Rows}
    (change : Change now before after) (sound : Sound before.1) (late : at_ ≤ now)
    (settled : Settled at_ reference before.1) : Settled at_ reference after.1 := by
  obtain ⟨longer, buckets⟩ := settled
  cases change with
  | @append rows uncovered entry fits kind fresh =>
    refine ⟨longer.trans (by rw [length_append]; exact Nat.le_add_right _ _), ?_⟩
    intro bucket present lapses
    rcases mem_append.mp present with old | new
    · rcases buckets bucket old lapses with ⟨holds, none_closes⟩ | ⟨empty, written⟩
      · left
        rw [countP_append_other (not_closes_of_kind kind bucket.id)]
        exact ⟨holds, none_closes⟩
      · refine Or.inr ⟨empty, ?_⟩
        intro row inside closing
        rcases mem_append.mp inside with earlier | last
        · exact written row earlier closing
        · rw [mem_singleton.mp last] at closing
          exact absurd closing (not_closes_of_kind kind bucket.id)
    · left
      have equal := mem_singleton.mp new
      subst equal
      have unknown : reference[bucket.id]? = none := by
        rw [List.getElem?_eq_none_iff, fits.id]
        exact longer
      refine ⟨?_, ?_⟩
      · have kept := fits.kept
        unfold CreditLedgerEntry.WellKept at kept
        split at kept
        · rename_i positive
          rw [fresh, leftIn, unknown]
          exact max_eq_right positive.le
        · rw [kept.2] at lapses
          cases lapses
      · rw [countP_append_other (not_closes_of_kind kind bucket.id), fits.id]
        exact sound.next_unclosed
  | @take rows uncovered taken credits member live positive bounded =>
    refine ⟨by simp only [length_updateRemaining]; exact longer, ?_⟩
    intro bucket present lapses
    obtain ⟨old, inside, ⟨same, rfl⟩ | ⟨-, rfl⟩⟩ := mem_updateRemaining.mp present
    · -- Only live buckets are taken from.
      have equal := sound.id_injective inside member same
      have lapsed : taken.lapsedAt now = true := by
        rw [← equal, CreditLedgerEntry.lapsedAt, show old.expiresAt = some at_ from lapses]
        exact decide_eq_true late
      rw [live] at lapsed
      cases lapsed
    · rcases buckets bucket inside lapses with ⟨holds, none_closes⟩ | ⟨empty, written⟩
      · left
        rw [countP_updateRemaining]
        exact ⟨holds, none_closes⟩
      · refine Or.inr ⟨empty, ?_⟩
        intro row present' closing
        obtain ⟨source, found, ⟨-, rfl⟩ | ⟨-, rfl⟩⟩ := mem_updateRemaining.mp present'
        · exact written source found closing
        · exact written row found closing
  | @expire rows uncovered closing member due =>
    have positive := (isDue_iff.mp due).1
    refine ⟨longer.trans ?_, ?_⟩
    · rw [length_append, length_updateRemaining]
      exact Nat.le_add_right _ _
    intro bucket present lapses
    have older : ∀ row ∈ updateRemaining rows closing.id 0 ++ [expiryEntry rows closing now],
        closes bucket.id row = true → bucket.id ≠ closing.id →
        ∃ source ∈ rows, closes bucket.id source = true ∧
          source.amountCredits = row.amountCredits := by
      intro row inside closed different
      rcases mem_append.mp inside with kept | new
      · obtain ⟨source, found, ⟨-, rfl⟩ | ⟨-, rfl⟩⟩ := mem_updateRemaining.mp kept
        · exact ⟨source, found, closed, rfl⟩
        · exact ⟨row, found, closed, rfl⟩
      · rw [mem_singleton.mp new] at closed
        have names := (closes_iff.mp closed).2
        exact absurd (toString_injective (Option.some.inj names)).symm different
    rcases mem_append.mp present with kept | new
    · obtain ⟨old, inside, ⟨same, rfl⟩ | ⟨different, rfl⟩⟩ := mem_updateRemaining.mp kept
      · have equal := sound.id_injective inside member same
        subst equal
        refine Or.inr ⟨rfl, ?_⟩
        intro row found closed
        have left : leftIn reference old = old.available := by
          rcases buckets old inside lapses with ⟨holds, -⟩ | ⟨empty, -⟩
          · exact holds.symm
          · omega
        show row.amountCredits = -leftIn reference old
        rw [left]
        rcases mem_append.mp found with early | last
        · -- Nothing closed this bucket before: it still had something left.
          have none_closes := sound.not_closed inside positive
          rw [← countP_updateRemaining rows old.id 0, countP_eq_zero] at none_closes
          exact absurd closed (none_closes row early)
        · rw [mem_singleton.mp last]
          rfl
      · rcases buckets bucket inside lapses with ⟨holds, none_closes⟩ | ⟨empty, written⟩
        · left
          refine ⟨holds, ?_⟩
          rw [countP_eq_zero]
          intro row found closed
          obtain ⟨source, earlier, closes_source, -⟩ := older row found closed different
          exact countP_eq_zero.mp none_closes source earlier closes_source
        · refine Or.inr ⟨empty, ?_⟩
          intro row found closed
          obtain ⟨source, earlier, closes_source, amount⟩ := older row found closed different
          rw [← amount]
          exact written source earlier closes_source
    · rw [mem_singleton.mp new] at lapses
      cases lapses

theorem Changes.unclosed
    (changes : Changes now before after) (sound : Sound before.1) (early : now < at_)
    (unclosed : Unclosed at_ before.1) : Unclosed at_ after.1 := by
  induction changes with
  | refl => exact unclosed
  | tail earlier change ih => exact change.unclosed (Changes.sound earlier sound) early ih

theorem Changes.settled {reference : Rows}
    (changes : Changes now before after) (sound : Sound before.1) (late : at_ ≤ now)
    (settled : Settled at_ reference before.1) : Settled at_ reference after.1 := by
  induction changes with
  | refl => exact settled
  | tail earlier change ih => exact change.settled (Changes.sound earlier sound) late ih

theorem Settled.refl (sound : Sound rows) {at_ : Int} (unclosed : Unclosed at_ rows) :
    Settled at_ rows rows := by
  refine ⟨le_rfl, ?_⟩
  intro bucket present lapses
  exact Or.inl ⟨(sound.leftIn_self present).symm, unclosed bucket present lapses⟩

theorem LedgerState.step_changes (sound : Sound state.rows)
    (promised : call.Promised) :
    ∃ uncovered, Changes call.now (state.rows, 0) ((state.step call).rows, uncovered) := by
  obtain ⟨left, posts, -⟩ := state.step_posts promised
  exact ⟨_, posts.changes sound 0⟩

theorem LedgerState.run_settled {first rest : List LedgerCall} {at_ : Int}
    (promised : ∀ call ∈ first ++ rest, call.Promised) (early : ∀ call ∈ first, call.now < at_)
    (late : ∀ call ∈ rest, at_ ≤ call.now) :
    Settled at_ (run LedgerState.step {} first).rows
      (run LedgerState.step {} (first ++ rest)).rows := by
  have until_ : ∀ (s : LedgerState) (call : LedgerCall), s.Invariant ∧ Unclosed at_ s.rows →
      call.Promised ∧ call.now < at_ → (s.step call).Invariant ∧ Unclosed at_ (s.step call).rows := by
    intro s call ⟨invariant, unclosed⟩ ⟨promise, before⟩
    obtain ⟨_, changes⟩ := s.step_changes invariant.sound promise
    exact ⟨step_invariant invariant promise, changes.unclosed invariant.sound before unclosed⟩
  have before : ∀ call ∈ first, call.Promised ∧ call.now < at_ := fun call inside =>
    ⟨promised call (mem_append_left _ inside), early call inside⟩
  have after : ∀ call ∈ rest, call.Promised ∧ at_ ≤ call.now := fun call inside =>
    ⟨promised call (mem_append_right _ inside), late call inside⟩
  obtain ⟨invariant, unclosed⟩ := run_along until_
    ⟨empty_invariant, fun bucket present _ => absurd present not_mem_nil⟩
    (along_of_forall before ({} : LedgerState))
  have from_ : ∀ (s : LedgerState) (call : LedgerCall),
      s.Invariant ∧ Settled at_ (run LedgerState.step {} first).rows s.rows →
      call.Promised ∧ at_ ≤ call.now → (s.step call).Invariant ∧
        Settled at_ (run LedgerState.step {} first).rows (s.step call).rows := by
    intro s call ⟨invariant, settled⟩ ⟨promise, after⟩
    obtain ⟨_, changes⟩ := s.step_changes invariant.sound promise
    exact ⟨step_invariant invariant promise, changes.settled invariant.sound after settled⟩
  rw [run_append]
  exact (run_along from_ ⟨invariant, Settled.refl invariant.sound unclosed⟩
    (along_of_forall after _)).2

theorem split_at_instant (clock : calls.Pairwise (·.now ≤ ·.now))
    (at_ : Int) : ∀ call ∈ calls.dropWhile (·.now < at_), at_ ≤ call.now := by
  induction calls with
  | nil => simp
  | cons first rest ih =>
    rw [pairwise_cons] at clock
    intro call inside
    by_cases before : first.now < at_
    · rw [dropWhile_cons_of_pos (by simpa using before)] at inside
      exact ih clock.2 call inside
    · rw [dropWhile_cons_of_neg (by simpa using before)] at inside
      rcases mem_cons.mp inside with rfl | later
      · omega
      · have order := clock.1 call later
        omega

theorem LedgerState.run_expiry (clock : calls.Pairwise (·.now ≤ ·.now))
    (promised : ∀ call ∈ calls, call.Promised)
    (member : entry ∈ (run LedgerState.step {} calls).rows) (expiry : entry.kind = .expiry) :
    ∃ bucket ∈ (run LedgerState.step {} calls).rows, entry.refId = some (toString bucket.id) ∧
      entry.amountCredits = -leftWhenLapsed calls bucket := by
  have invariant := run_invariant empty_invariant promised
  obtain ⟨bucket, present, refers, -, lapses⟩ := invariant.sound.closed entry member expiry
  obtain ⟨at_, instant⟩ := Option.ne_none_iff_exists'.mp lapses
  refine ⟨bucket, present, refers, ?_⟩
  have parts : calls.takeWhile (·.now < at_) ++ calls.dropWhile (·.now < at_) = calls :=
    takeWhile_append_dropWhile
  have early : ∀ call ∈ calls.takeWhile (·.now < at_), call.now < at_ :=
    fun call inside => by simpa using mem_takeWhile_imp inside
  have settled := run_settled (by rw [parts]; exact promised) early (split_at_instant clock at_)
  rw [parts] at settled
  have closing : closes bucket.id entry = true := closes_iff.mpr ⟨expiry, refers⟩
  rcases settled.2 bucket present instant with ⟨-, none_closes⟩ | ⟨-, written⟩
  · exact absurd closing (countP_eq_zero.mp none_closes entry member)
  · unfold leftWhenLapsed
    rw [instant]
    exact written entry member closing

/-- **Representation invariant.** After every run of calls: each balance is the sum up to its row,
each bucket holds between nothing and its amount, a bucket has at most one expiry and it writes off
what was left when the bucket lapsed, and what the buckets hold exceeds the balance by what the
debits left unallocated. -/
theorem ledger_representation (calls : List LedgerCall) (clock : calls.Pairwise (·.now ≤ ·.now))
    (promised : ∀ call ∈ calls, call.Promised) :
    let state := run LedgerState.step {} calls
    (∀ i row, state.rows[i]? = some row →
      row.balanceAfter = sumBalance (state.rows.take (i + 1))) ∧
    (∀ row ∈ state.rows, 0 < row.amountCredits →
      ∃ left, row.remainingCredits = some left ∧ 0 ≤ left ∧ left ≤ row.amountCredits) ∧
    (∀ bucket ∈ state.rows, state.rows.countP (closes bucket.id) ≤ 1) ∧
    (∀ entry ∈ state.rows, entry.kind = .expiry → ∃ bucket ∈ state.rows,
      entry.refId = some (toString bucket.id) ∧
        entry.amountCredits = -leftWhenLapsed calls bucket) ∧
    totalRemaining state.rows - sumBalance state.rows = state.unallocated ∧
    0 ≤ state.unallocated ∧
    (NeverBelowZero state.rows → state.unallocated = 0) := by
  intro state
  have invariant := LedgerState.run_invariant LedgerState.empty_invariant promised
  refine ⟨invariant.sound.balances, ?_, fun bucket _ => invariant.sound.once bucket.id, ?_,
    invariant.covered, invariant.nonneg, invariant.allocated⟩
  · intro row present positive
    have kept := invariant.sound.kept row present
    unfold CreditLedgerEntry.WellKept at kept
    rw [if_pos positive] at kept
    exact kept
  · intro entry present expiry
    exact LedgerState.run_expiry clock promised present expiry

def allowanceWrite (kind : CreditLedgerKind) (amountCredits : Int) (idempotencyKey : String)
    (expiresAt : Option Int) : CreditLedgerWrite where
  kind
  amountCredits
  refType := some "plan-grant"
  idempotencyKey := some idempotencyKey
  expiresAt

def reversedAllowance : List LedgerCall :=
  [{ op := .recordAtomic (allowanceWrite .grant 100 "grant:plan:u:0" (some 30)) {}, now := 0 },
   { op := .recordAtomic (allowanceWrite .consumption (-80) "run:r" none) {}, now := 1 },
   { op := .recordAtomic (allowanceWrite .adjustment (-100) "revoke:plan:evt" none) {}, now := 2 },
   { op := .recordAtomic (allowanceWrite .grant 100 "grant:plan:u:30" (some 60)) {}, now := 30 }]

theorem reversedAllowance_promised : ∀ call ∈ reversedAllowance, call.Promised := by
  have promise : ∀ write : CreditLedgerWrite, write.kind ≠ .expiry →
      (∀ key, write.idempotencyKey = some key → key.toList.head? ≠ some 'e') → write.Promised := by
    intro write kind key
    exact ⟨kind, fun id same => ne_expiryKey (key _ same) id rfl⟩
  intro call member
  simp only [reversedAllowance, mem_cons, not_mem_nil, or_false] at member
  rcases member with rfl | rfl | rfl | rfl
  all_goals
    refine promise _ (by decide) ?_
    intro key same
    rw [← Option.some.inj same]
    decide

theorem ledger_representation_reversed :
    let state := run LedgerState.step {} reversedAllowance
    totalRemaining state.rows - sumBalance state.rows = 80 ∧
    (∀ bucket ∈ state.rows, state.rows.countP (closes bucket.id) ≤ 1) := by
  intro state
  have representation := ledger_representation reversedAllowance (by decide)
    reversedAllowance_promised
  obtain ⟨-, -, once, -, covered, -, -⟩ := representation
  exact ⟨covered.trans (by decide), once⟩

end EverWorks.Credits

/-!
## Expiry and debt

A debit that was allowed below zero leaves a remainder no bucket carries, and a bucket recorded
later starts whole. Expiring such a bucket takes its whole remainder off the balance.
-/

namespace EverWorks.Credits
open Lib

theorem sumBalance_expired {state : LedgerState} (invariant : state.Invariant) (now : Int) :
    sumBalance (expireDueBucketsInTx state.rows now) =
      liveRemaining state.rows now - state.unallocated := by
  have nonneg : ∀ row ∈ state.rows, 0 ≤ row.available :=
    fun row present => (invariant.sound.available_bounds present).1
  have split := totalRemaining_split nonneg now
  have covered := invariant.covered
  have expired := (expireDueBucketsInTx_sum invariant.sound now).1
  omega

theorem getBalance_eq_expired {rows : Rows} (sound : Sound rows) (now : Int) :
    getBalance rows now = sumBalance (expireDueBucketsInTx rows now) :=
  (expireDueBucketsInTx_sum sound now).1.symm

theorem liveRemaining_nonneg (rows : Rows) (now : Int) : 0 ≤ liveRemaining rows now := by
  apply List.sum_nonneg
  intro value present
  obtain ⟨row, inside, rfl⟩ := List.mem_map.mp present
  exact (mem_openBuckets.mp inside).2.1.le

/-- **Expiry and debt.** In every reachable ledger with a balance that is not negative, expiring at
any instant, and the balance read at that instant, is negative exactly when the debits left more
unallocated than is left in the buckets that are not due; so never where no debit took the balance
below zero. -/
theorem expiry_debt (calls : List LedgerCall) (promised : ∀ call ∈ calls, call.Promised)
    (now : Int) :
    let state := run LedgerState.step {} calls
    0 ≤ sumBalance state.rows →
      (sumBalance (expireDueBucketsInTx state.rows now) < 0 ↔
        liveRemaining state.rows now < state.unallocated) ∧
      (getBalance state.rows now < 0 ↔ liveRemaining state.rows now < state.unallocated) ∧
      (NeverBelowZero state.rows → 0 ≤ sumBalance (expireDueBucketsInTx state.rows now) ∧
        0 ≤ getBalance state.rows now) := by
  intro state _
  have invariant : state.Invariant :=
    LedgerState.run_invariant LedgerState.empty_invariant promised
  have expired := sumBalance_expired invariant now
  have balance := getBalance_eq_expired invariant.sound now
  have live := liveRemaining_nonneg state.rows now
  refine ⟨by omega, by omega, ?_⟩
  intro never
  have allocated := invariant.allocated never
  omega

theorem expiry_debt_reversed :
    let state := run LedgerState.step {} reversedAllowance
    sumBalance (expireDueBucketsInTx state.rows 60) < 0 := by
  intro state
  have debt := expiry_debt reversedAllowance reversedAllowance_promised 60 (by decide)
  exact debt.1.mpr (by decide)

/-- The second allowance of `reversedAllowance` paid the debt of the first; its expiry takes the
balance from 20 back to -80. -/
theorem expiry_creates_debt :
    ¬ ∀ calls : List LedgerCall, calls.Pairwise (·.now ≤ ·.now) →
      (∀ call ∈ calls, call.Promised) → ∀ now,
      let rows := (run LedgerState.step {} calls).rows
      0 ≤ sumBalance rows → 0 ≤ sumBalance (expireDueBucketsInTx rows now) ∧
        0 ≤ getBalance rows now := by
  intro claim
  have kept := claim reversedAllowance (by decide) reversedAllowance_promised 60 (by decide)
  exact absurd kept.1 (by decide)

end EverWorks.Credits
