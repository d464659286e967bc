import EverWorks.Review.Ledger
import Mathlib.Data.List.Nodup

/-!
Over every order of the statements of any claims: a claim is answered by its row, keys and slots are not shared, and a
row's slot is its place in the order of the inserts.
-/

namespace EverWorks.Review
open Lib Lib.Program List

def slotsOf (calls : List (ClaimInput × ClaimFaults)) (call : Nat) : Nat :=
  (calls[call]?.map fun entry => entry.1.slots).getD 0

def AnswerRight (slots call : Nat) (rows : List AgentReview) : ClaimOutcome → Prop
  | .claimed review => review ∈ rows ∧ review.call = call
  | .budgetSpent => (∀ row ∈ rows, row.call ≠ call) ∧ ∀ slot < slots, slot ∈ rows.map (·.slot)
  | .alreadyClaimed | .threw => ∀ row ∈ rows, row.call ≠ call

structure ClaimRely (call : Nat) (before after : ReviewLedger) : Prop where
  rows : before.rows <+: after.rows
  own : ∀ row ∈ after.rows, row.call = call → row ∈ before.rows
  answers : call ∉ before.answers.map (·.1) → call ∉ after.answers.map (·.1)

inductive ClaimStep (calls : List (ClaimInput × ClaimFaults)) (call : Nat) (ledger : ReviewLedger) :
    ReviewLedger → Prop where
  | reads : ClaimStep calls call ledger ledger
  | inserts (row : AgentReview) (own : row.call = call) (first : ∀ old ∈ ledger.rows, old.call ≠ call)
      (open' : call ∉ ledger.answers.map (·.1)) (key : row.claimKey ∉ ledger.rows.map (·.claimKey))
      (free : row.slot ∉ ledger.rows.map (·.slot)) (least : ∀ slot < row.slot, slot ∈ ledger.rows.map (·.slot))
      (bound : row.slot < slotsOf calls call) :
      ClaimStep calls call ledger { ledger with rows := ledger.rows ++ [row] }
  | answers (outcome : ClaimOutcome) (right : AnswerRight (slotsOf calls call) call ledger.rows outcome) :
      ClaimStep calls call ledger { ledger with answers := ledger.answers ++ [(call, outcome)] }

structure LedgerInvariant (calls : List (ClaimInput × ClaimFaults)) (ledger : ReviewLedger) : Prop where
  slots : ledger.rows.map (·.slot) = List.range ledger.rows.length
  keys : (ledger.rows.map (·.claimKey)).Nodup
  once : (ledger.rows.map (·.call)).Nodup
  bounded : ∀ row ∈ ledger.rows, row.slot < slotsOf calls row.call
  answered : ∀ entry ∈ ledger.answers, AnswerRight (slotsOf calls entry.1) entry.1 ledger.rows entry.2

section
variable {calls : List (ClaimInput × ClaimFaults)} {call : Nat} {before after ledger : ReviewLedger}

theorem ClaimRely.refl (call : Nat) (ledger : ReviewLedger) : ClaimRely call ledger ledger :=
  ⟨prefix_rfl, fun _ listed _ => listed, id⟩

theorem ClaimRely.trans {a b c : ReviewLedger} (first : ClaimRely call a b) (second : ClaimRely call b c) :
    ClaimRely call a c where
  rows := first.rows.trans second.rows
  own row listed mine := first.own row (second.own row listed mine) mine
  answers := second.answers ∘ first.answers

theorem ClaimStep.compat {other : Nat} (step : ClaimStep calls other before after) (apart : call ≠ other) :
    ClaimRely call before after := by
  cases step with
  | reads => exact .refl call before
  | inserts row own first open' key free least bound =>
    refine ⟨prefix_append _ _, fun old listed mine => ?_, id⟩
    rcases mem_append.mp listed with listed | listed
    · exact listed
    · rw [mem_singleton.mp listed, own] at mine
      exact absurd mine.symm apart
  | answers outcome right =>
    refine ⟨prefix_rfl, fun _ listed _ => listed, fun absent => ?_⟩
    rw [map_append, mem_append, not_or]
    exact ⟨absent, by simpa using apart⟩

variable {outcome : ClaimOutcome}

variable {slots : Nat}

theorem AnswerRight.later
    (right : AnswerRight slots call before.rows outcome) (rely : ClaimRely call before after) :
    AnswerRight slots call after.rows outcome := by
  have none_later (absent : ∀ row ∈ before.rows, row.call ≠ call) : ∀ row ∈ after.rows, row.call ≠ call :=
    fun row listed mine => absent row (rely.own row listed mine) mine
  cases outcome with
  | claimed review => exact ⟨rely.rows.subset right.1, right.2⟩
  | budgetSpent => exact ⟨none_later right.1, fun slot below => (rely.rows.map _).subset (right.2 slot below)⟩
  | alreadyClaimed => exact none_later right
  | threw => exact none_later right

theorem LedgerInvariant.step (holds : LedgerInvariant calls before) (step : ClaimStep calls call before after) :
    LedgerInvariant calls after := by
  cases step with
  | reads => exact holds
  | inserts row own first open' key free least bound =>
    have next : row.slot = before.rows.length := by
      rw [holds.slots, mem_range, Nat.not_lt] at free
      by_contra different
      have gap := least before.rows.length (by omega)
      rw [holds.slots, mem_range] at gap
      exact absurd gap (Nat.lt_irrefl _)
    constructor
    · rw [map_append, holds.slots, map_singleton, next, length_append, length_singleton,
        range_succ]
    · rw [map_append, map_singleton, ← concat_eq_append, nodup_concat]
      exact ⟨key, holds.keys⟩
    · rw [map_append, map_singleton, own, ← concat_eq_append, nodup_concat]
      refine ⟨fun claimed => ?_, holds.once⟩
      obtain ⟨old, listed, mine⟩ := mem_map.mp claimed
      exact first old listed mine
    · intro other listed
      rcases mem_append.mp listed with listed | listed
      · exact holds.bounded other listed
      · rw [mem_singleton.mp listed, own]
        exact bound
    · intro entry listed
      have apart : entry.1 ≠ call := fun same => open' (same ▸ mem_map_of_mem listed)
      exact (holds.answered entry listed).later ((ClaimStep.inserts row own first open' key free least bound).compat apart)
  | answers outcome right =>
    refine ⟨holds.slots, holds.keys, holds.once, holds.bounded, fun entry listed => ?_⟩
    rcases mem_append.mp listed with listed | listed
    · exact holds.answered entry listed
    · rw [mem_singleton.mp listed]
      exact right

variable (calls call) in
abbrev Orderly {α : Type} (post : α → ReviewLedger → Prop) (program : LedgerProgram α) : ReviewLedger → Prop :=
  program.Holds serveLedger (ClaimRely call) (ClaimStep calls call) post

structure Fresh (call : Nat) (ledger : ReviewLedger) : Prop where
  rows : ∀ row ∈ ledger.rows, row.call ≠ call
  answers : call ∉ ledger.answers.map (·.1)

theorem Fresh.later (fresh : Fresh call before) (rely : ClaimRely call before after) : Fresh call after where
  rows row listed mine := fresh.rows row (rely.own row listed mine) mine
  answers := rely.answers fresh.answers

structure Ready (slots call : Nat) (outcome : ClaimOutcome) (ledger : ReviewLedger) : Prop where
  right : AnswerRight slots call ledger.rows outcome
  answers : call ∉ ledger.answers.map (·.1)

theorem Ready.later (ready : Ready slots call outcome before)
    (rely : ClaimRely call before after) : Ready slots call outcome after :=
  ⟨ready.right.later rely, rely.answers ready.answers⟩

theorem Fresh.ready (fresh : Fresh call ledger)
    (refusal : outcome = .alreadyClaimed ∨ outcome = .threw) : Ready slots call outcome ledger := by
  rcases refusal with rfl | rfl
  · exact ⟨fresh.rows, fresh.answers⟩
  · exact ⟨fresh.rows, fresh.answers⟩

theorem orderly_pure (ready : Ready slots call outcome ledger) :
    Orderly calls call (Ready slots call) (pure outcome : LedgerProgram ClaimOutcome) ledger :=
  fun _ rely => ready.later rely

variable {input : ClaimInput} {faults : ClaimFaults}

theorem orderly_rereadClaimed {slots slot : Nat} (answers : call ∉ ledger.answers.map (·.1))
    (found : ledger.rows.find? (·.claimKey = cutClaimKey input.claimKey) = some (input.row call slot)) :
    Orderly calls call (Ready slots call) (rereadClaimed input faults (input.row call slot)) ledger := by
  have ready : Ready slots call (.claimed (input.row call slot)) ledger :=
    ⟨⟨mem_of_find?_eq_some found, rfl⟩, answers⟩
  rw [rereadClaimed]
  split
  · exact orderly_pure ready
  · refine Holds.ask fun reading rely => ⟨.reads, ?_⟩
    have still := rely.rows.find?_eq_some found
    split
    · rename_i review here
      have same : review = input.row call slot := Option.some.inj (here.symm.trans still)
      rw [same]
      exact orderly_pure (ready.later rely)
    · rename_i missing
      rw [serveLedger, still] at missing
      cases missing

theorem orderly_trySlots {taken : List Nat} (slots start : Nat) (bound : start + slots = slotsOf calls call)
    (fresh : Fresh call ledger) (listed : ∀ slot ∈ taken, slot ∈ ledger.rows.map (·.slot))
    (below : ∀ slot < start, slot ∈ ledger.rows.map (·.slot)) :
    Orderly calls call (Ready (slotsOf calls call) call)
      (trySlots call input faults taken (List.range' start slots)) ledger := by
  induction slots generalizing start ledger with
  | zero =>
    refine orderly_pure ⟨⟨fresh.rows, fun slot small => below slot ?_⟩, fresh.answers⟩
    omega
  | succ slots ih =>
    have upTo {reached : ReviewLedger} (grows : ledger.rows <+: reached.rows)
        (here : start ∈ reached.rows.map (·.slot)) : ∀ slot < start + 1, slot ∈ reached.rows.map (·.slot) := by
      intro slot small
      rcases Nat.lt_succ_iff_lt_or_eq.mp small with smaller | rfl
      · exact (grows.map _).subset (below slot smaller)
      · exact here
    rw [List.range'_succ, trySlots]
    split
    · rename_i skipped
      exact ih (start + 1) (by omega) fresh listed (upTo prefix_rfl (listed start skipped))
    · split
      · exact orderly_pure (fresh.ready (.inr rfl))
      · refine Holds.ask fun inserting rely => ?_
        have fresh' := fresh.later rely
        by_cases meets : cutClaimKey input.claimKey ∈ inserting.rows.map (·.claimKey) ∨
            start ∈ inserting.rows.map (·.slot)
        · have refused : serveLedger (.insert (input.row call start)) inserting = (false, inserting) := if_pos meets
          rw [refused]
          refine ⟨.reads, ?_⟩
          dsimp only
          rw [if_neg Bool.false_ne_true]
          split
          · exact orderly_pure (fresh'.ready (.inr rfl))
          · refine Holds.ask fun reading more => ⟨.reads, ?_⟩
            have fresh'' := fresh'.later more
            split
            · exact orderly_pure (fresh''.ready (.inl rfl))
            · rename_i unseen
              -- The key was never there, so it was the slot that the insert met.
              have slotTaken : start ∈ inserting.rows.map (·.slot) := by
                refine meets.resolve_left fun seen => ?_
                obtain ⟨row, inside, key⟩ := mem_map.mp seen
                have absent := find?_eq_none.mp unseen row (more.rows.subset inside)
                simp [key] at absent
              have grows := rely.rows.trans more.rows
              refine ih (start + 1) (by omega) fresh'' (fun slot inside => (grows.map _).subset (listed slot inside)) ?_
              exact upTo grows ((more.rows.map _).subset slotTaken)
        · have inserted : serveLedger (.insert (input.row call start)) inserting =
              (true, { inserting with rows := inserting.rows ++ [input.row call start] }) := if_neg meets
          rw [not_or] at meets
          rw [inserted]
          refine ⟨.inserts _ rfl fresh'.rows fresh'.answers meets.1 meets.2 ?_ ?_, ?_⟩
          · exact fun slot small => (rely.rows.map _).subset (below slot small)
          · have inside : start < slotsOf calls call := by omega
            exact inside
          · dsimp only
            rw [if_pos rfl]
            refine orderly_rereadClaimed fresh'.answers ?_
            have unseen : inserting.rows.find? (·.claimKey = cutClaimKey input.claimKey) = none := by
              rw [find?_eq_none]
              exact fun row inside key => meets.1 (mem_map.mpr ⟨row, inside, by simpa using key⟩)
            rw [find?_append, unseen]
            simp [ClaimInput.row]

theorem orderly_claim (own : input.slots = slotsOf calls call) (fresh : Fresh call ledger) :
    Orderly calls call (Ready (slotsOf calls call) call) (claim call input faults) ledger := by
  rw [claim]
  split
  · exact orderly_pure (fresh.ready (.inr rfl))
  · refine Holds.ask fun reading rely => ⟨.reads, ?_⟩
    have fresh' := fresh.later rely
    split
    · exact orderly_pure (fresh'.ready (.inl rfl))
    · split
      · rename_i nothing
        refine orderly_pure ⟨⟨fresh'.rows, fun slot small => ?_⟩, fresh'.answers⟩
        rw [← own, nothing] at small
        exact absurd small (Nat.not_lt_zero slot)
      · split
        · exact orderly_pure (fresh'.ready (.inr rfl))
        · refine Holds.ask fun listing more => ⟨.reads, ?_⟩
          rw [range_eq_range']
          refine orderly_trySlots input.slots 0 (by omega) (fresh'.later more) (fun _ => id) ?_
          exact fun slot small => absurd small (Nat.not_lt_zero slot)

theorem claimPool_inStep : Pool.InStep serveLedger ClaimRely (ClaimStep calls) (claimPool calls) := by
  intro call program there
  rw [claimPool, getElem?_mapIdx, Option.map_eq_some_iff] at there
  obtain ⟨⟨input, faults⟩, found, rfl⟩ := there
  have own : input.slots = slotsOf calls call := by
    rw [slotsOf, found]
    rfl
  have fresh : Fresh call (claimPool calls).state := ⟨nofun, not_mem_nil⟩
  refine Holds.bind (ClaimRely.refl call) (orderly_claim own fresh) fun outcome answering ready => ?_
  exact fun later rely => ⟨.answers outcome (ready.later rely).right, fun _ _ => trivial⟩

theorem afterClaims_invariant (schedule : List Nat) : LedgerInvariant calls (afterClaims calls schedule) :=
  (Pool.run_inStep (fun call => .refl call) (fun _ _ _ _ => .trans) (fun _ _ _ _ apart step => step.compat apart)
    (fun _ _ _ _ holds step => holds.step step) claimPool_inStep
    ⟨rfl, nodup_nil, nodup_nil, nofun, nofun⟩).2

end

/-- A claim is answered `claimed` if and only if its row was inserted, with that row; no key and no claim has two rows,
and there are no more than the largest budget; a spent budget means that all its slots are taken; and of two rows the
comparison takes for the newer the one that was inserted later. -/
structure ClaimsInOrder (calls : List (ClaimInput × ClaimFaults)) (ledger : ReviewLedger) : Prop where
  answered : ∀ call outcome, (call, outcome) ∈ ledger.answers →
    ((∃ review, outcome = .claimed review) ↔ ∃ row ∈ ledger.rows, row.call = call)
  returned : ∀ call review, (call, .claimed review) ∈ ledger.answers → review ∈ ledger.rows ∧ review.call = call
  keys : (ledger.rows.map (·.claimKey)).Nodup
  once : (ledger.rows.map (·.call)).Nodup
  few : ∀ bound, (∀ entry ∈ calls, entry.1.slots ≤ bound) → ledger.rows.length ≤ bound
  spent : ∀ call input faults, (call, .budgetSpent) ∈ ledger.answers → calls[call]? = some (input, faults) →
    ∀ slot < input.slots, slot ∈ ledger.rows.map (·.slot)
  order : ∀ (first second : Nat) (mine prior : AgentReview), ledger.rows[first]? = some mine →
    ledger.rows[second]? = some prior → (claimedAfter prior mine = true ↔ first < second)

section
variable {calls : List (ClaimInput × ClaimFaults)} {ledger : ReviewLedger}

theorem LedgerInvariant.slot_eq (holds : LedgerInvariant calls ledger) {place : Nat} {row : AgentReview}
    (there : ledger.rows[place]? = some row) : row.slot = place := by
  have slot : (ledger.rows.map (·.slot))[place]? = some row.slot := by rw [getElem?_map, there, Option.map_some]
  have inside := (List.getElem?_eq_some_iff.mp there).1
  rw [holds.slots, getElem?_range inside] at slot
  exact (Option.some.inj slot).symm

theorem LedgerInvariant.few (holds : LedgerInvariant calls ledger) {bound : Nat}
    (within : ∀ entry ∈ calls, entry.1.slots ≤ bound) : ledger.rows.length ≤ bound := by
  cases rows : ledger.rows.reverse with
  | nil => simp [reverse_eq_nil_iff.mp rows]
  | cons last rest =>
    have there : ledger.rows[ledger.rows.length - 1]? = some last := by
      rw [← getLast?_eq_getElem?, getLast?_eq_head?_reverse, rows]
      rfl
    have slot := holds.slot_eq there
    have below := holds.bounded last (mem_of_getElem? there)
    have least : slotsOf calls last.call ≤ bound := by
      rw [slotsOf]
      cases found : calls[last.call]? with
      | none => exact Nat.zero_le bound
      | some entry => exact within entry (mem_of_getElem? found)
    omega

/-- In every order of the statements of any claims. -/
theorem claims_in_order (calls : List (ClaimInput × ClaimFaults)) (schedule : List Nat) :
    ClaimsInOrder calls (afterClaims calls schedule) := by
  have holds : LedgerInvariant calls (afterClaims calls schedule) := afterClaims_invariant schedule
  refine ⟨?_, fun call review given => holds.answered _ given, holds.keys, holds.once, fun _ => holds.few, ?_, ?_⟩
  · intro call outcome given
    have right := holds.answered _ given
    cases outcome with
    | claimed review => exact ⟨fun _ => ⟨review, right⟩, fun _ => ⟨review, rfl⟩⟩
    | budgetSpent =>
      exact ⟨nofun, fun ⟨row, listed, own⟩ => absurd own (right.1 row listed)⟩
    | alreadyClaimed => exact ⟨nofun, fun ⟨row, listed, own⟩ => absurd own (right row listed)⟩
    | threw => exact ⟨nofun, fun ⟨row, listed, own⟩ => absurd own (right row listed)⟩
  · intro call input faults given found slot below
    refine (holds.answered _ given).2 slot ?_
    rw [slotsOf, found]
    exact below
  · intro first second mine prior here there
    rw [claimedAfter, decide_eq_true_eq, holds.slot_eq here, holds.slot_eq there]

end

end EverWorks.Review
