import EverWorks.Credits.LedgerInvariant
import EverWorks.Credits.Payg

/-!
# Run settlement

`RunCostSettlementService.settleRun` takes the credits of one run in up to three transactions: the full debit, a
partial one, and the pay-as-you-go overflow of the rest. Calls interleave with all that moves the owner's balance and
meter.
-/

namespace EverWorks.Credits
open Lib List

/-- What a settlement charges a run: a number of credits that does not change between calls. -/
structure RunCharge where
  runId : String
  triggerKind : String
  billableCostCents : Int
  credits : Int
  nonneg : 0 ≤ credits

def runKey (runId : String) : String := "run:" ++ runId

inductive RecordOutcome where
  | entry (entry : CreditLedgerEntry)
  | clamped
  | insufficientCredits (requiredCredits balanceCredits : Int)

def recordOutcome (amountCredits : Int) : RecordAtomicResult → RecordOutcome
  | .created entry => .entry entry
  | .idempotent entry => .entry entry
  | .skipped _ => .clamped
  | .insufficient balance => .insufficientCredits |amountCredits| balance

/-- `CreditLedgerService.record` without ceilings. -/
def record (rows : Rows) (write : CreditLedgerWrite) (allowNegative : Bool) (now : Int) :
    Tx RecordOutcome :=
  let floor : Option Int := if write.amountCredits < 0 ∧ allowNegative = false then some 0 else none
  let tx := recordAtomic rows write { minBalanceAfter := floor } now
  { rows := tx.rows
    left := tx.left
    result := recordOutcome write.amountCredits tx.result }

def consumptionWrite (charge : RunCharge) (credits : Int) (description : String) :
    CreditLedgerWrite where
  kind := .consumption
  amountCredits := -credits
  costCentsRef := some charge.billableCostCents
  refType := some "agent-run"
  refId := some charge.runId
  description := some description
  idempotencyKey := some (runKey charge.runId)

def runDescription (charge : RunCharge) : String :=
  "Run " ++ charge.runId ++ " (" ++ charge.triggerKind ++ ")"

/-- `null` where the run costs no credits. -/
def consumeForRun (rows : Rows) (charge : RunCharge) (allowOverdraft : Bool) (now : Int) :
    Tx (Option RecordOutcome) :=
  if charge.credits = 0 then { rows, result := none }
  else
    let tx := record rows (consumptionWrite charge charge.credits (runDescription charge))
      allowOverdraft now
    { rows := tx.rows, result := some tx.result, left := tx.left }

/-- Where a call of `settleRun` stands between two transactions. -/
inductive SettleCall where
  | start
  | insufficient (requiredCredits balanceCredits : Int)
  | overflow (requiredCredits debitedCredits : Int)
  | done
  deriving DecidableEq

inductive Fault where
  | none | rolledBack | unanswered
  deriving DecidableEq

structure Turn where
  now : Int
  allowOverdraft : Bool := false
  /-- The terms of the owner's pay-as-you-go profile, where it is eligible. -/
  terms : Option PaygTerms := none
  fault : Fault := .none

structure SettlementState where
  rows : Rows := []
  events : MeterEvents := []
  calls : List SettleCall := []

inductive SettlementEvent where
  | settleRun
  | turn (call : Nat) (turn : Turn)
  /-- Any other write of the owner's ledger. -/
  | ledger (call : LedgerCall)
  | overflow (terms : Option PaygTerms) (request : OverflowRequest)
  | markSent (id : Nat) (sentAt : Int)
  | recordAttempt (id : Nat) (error : String) (terminal : Bool)

def settleStart (charge : RunCharge) (rows : Rows) (turn : Turn) : Rows × SettleCall :=
  if turn.fault = .rolledBack then (rows, .done)
  else
    let tx := consumeForRun rows charge turn.allowOverdraft turn.now
    (tx.rows, if turn.fault = .unanswered then .done else match tx.result with
      | some (.insufficientCredits required balance) => .insufficient required balance
      | _ => .done)

/-- The partial debit of `settleInsufficient`, down to exactly 0. -/
def settlePartial (charge : RunCharge) (rows : Rows) (required balance : Int) (turn : Turn) :
    Rows × SettleCall :=
  let partial_ := max 0 balance
  if partial_ ≤ 0 ∨ turn.fault = .rolledBack then (rows, .overflow required 0)
  else
    let tx := record rows (consumptionWrite charge partial_
      (runDescription charge ++ " — partial, balance exhausted")) turn.allowOverdraft turn.now
    (tx.rows, .overflow required (if turn.fault = .unanswered then 0 else match tx.result with
      | .entry entry => |entry.amountCredits|
      | _ => 0))

def overflowRequest (charge : RunCharge) (required debited : Int) (now : Int) : OverflowRequest where
  runId := charge.runId
  remainderCredits := max 0 (required - debited)
  costCentsRef := some charge.billableCostCents
  now

/-- The pay-as-you-go overflow of `settleInsufficient`. -/
def settleOverflow (charge : RunCharge) (events : MeterEvents) (required debited : Int)
    (turn : Turn) : MeterEvents :=
  if turn.fault = .rolledBack then events
  else (recordOverflow events turn.terms (overflowRequest charge required debited turn.now)).1

def SettlementState.step (charge : RunCharge) (state : SettlementState) :
    SettlementEvent → SettlementState
  | .settleRun => { state with calls := state.calls ++ [.start] }
  | .turn i turn =>
    match state.calls[i]? with
    | some .start =>
      let settled := settleStart charge state.rows turn
      { state with rows := settled.1, calls := state.calls.set i settled.2 }
    | some (.insufficient required balance) =>
      let settled := settlePartial charge state.rows required balance turn
      { state with rows := settled.1, calls := state.calls.set i settled.2 }
    | some (.overflow required debited) =>
      { state with
        events := settleOverflow charge state.events required debited turn
        calls := state.calls.set i .done }
    | some .done => state
    | none => state
  | .ledger call => { state with rows := (LedgerState.step { rows := state.rows } call).rows }
  | .overflow terms request => { state with events := (recordOverflow state.events terms request).1 }
  | .markSent id sentAt => { state with events := Credits.markSent state.events id sentAt }
  | .recordAttempt id error terminal =>
    { state with events := Credits.recordAttempt state.events id error terminal }

def takenFor (rows : Rows) (key : String) : Int :=
  -((rows.filter fun row => row.idempotencyKey = some key).map (·.amountCredits)).sum

def reservedFor (events : MeterEvents) (identifier : String) : Int :=
  ((events.filter fun event => event.identifier = identifier).map (·.credits)).sum

def debits (charge : RunCharge) (rows : Rows) (credits : Int) (turn : Turn) : Bool :=
  (findByIdempotencyKey rows (runKey charge.runId)).isNone && turn.fault != .rolledBack &&
    (turn.allowOverdraft || credits ≤ sumBalance (expireDueBucketsInTx rows turn.now))

def PaygTerms.headroom (terms : PaygTerms) (events : MeterEvents) : Int :=
  max 0 (terms.cap - sumCreditsForPeriod events terms.periodStart terms.periodEnd)

def reserves (charge : RunCharge) (events : MeterEvents) (turn : Turn) : Bool :=
  (findByIdentifier events (runIdentifier charge.runId)).isNone && turn.fault != .rolledBack &&
    turn.terms.any fun terms => 0 < terms.headroom events

/-- A turn debits the run though it has a meter event, or reserves its meter event though the ledger
took something the call does not know of. -/
def SettlementState.untimely (charge : RunCharge) (state : SettlementState) :
    SettlementEvent → Bool
  | .turn i turn =>
    match state.calls[i]? with
    | some .start => charge.credits != 0 && debits charge state.rows charge.credits turn &&
        (findByIdentifier state.events (runIdentifier charge.runId)).isSome
    | some (.insufficient _ balance) => 0 < balance && debits charge state.rows balance turn &&
        (findByIdentifier state.events (runIdentifier charge.runId)).isSome
    | some (.overflow _ debited) =>
      reserves charge state.events turn && debited != takenFor state.rows (runKey charge.runId)
    | _ => false
  | _ => false

theorem takenFor_movements (rows : Rows) (key : String) :
    takenFor (rows.map movement) key = takenFor rows key := by
  unfold takenFor
  rw [filter_map, List.map_map]
  rfl

theorem takenFor_append (rows more : Rows) (key : String) :
    takenFor (rows ++ more) key = takenFor rows key + takenFor more key := by
  unfold takenFor
  rw [filter_append, map_append, sum_append]
  omega

theorem takenFor_eq_zero {rows : Rows} {key : String}
    (none_keyed : ∀ row ∈ rows, row.idempotencyKey ≠ some key) : takenFor rows key = 0 := by
  have empty : (rows.filter fun row => row.idempotencyKey = some key) = [] := by
    rw [filter_eq_nil_iff]
    intro row member keyed
    exact none_keyed row member (of_decide_eq_true keyed)
  unfold takenFor
  rw [empty]
  rfl

theorem takenFor_appends {rows rows' posted : Rows} (appends : Appends rows rows' posted)
    {key : String} (own : ∀ id, key ≠ expiryKey id) :
    takenFor rows' key = takenFor rows key + takenFor posted key := by
  obtain ⟨expiries, appended, theirs⟩ := appends
  have none_keyed : takenFor expiries key = 0 := by
    apply takenFor_eq_zero
    intro row member keyed
    obtain ⟨-, id, expiryKeyed⟩ := theirs row member
    exact own id (Option.some.inj (keyed.symm.trans expiryKeyed))
  rw [← takenFor_movements, appended, takenFor_append, takenFor_append, takenFor_movements,
    takenFor_movements, none_keyed, Int.add_zero]

theorem takenFor_of_find_none {rows : Rows} {key : String}
    (absent : findByIdempotencyKey rows key = none) : takenFor rows key = 0 := by
  apply takenFor_eq_zero
  intro row member keyed
  unfold findByIdempotencyKey at absent
  rw [find?_eq_none] at absent
  exact absent row member (decide_eq_true keyed)

theorem reservedFor_of_find_none {events : MeterEvents} {identifier : String}
    (absent : findByIdentifier events identifier = none) : reservedFor events identifier = 0 := by
  have empty : (events.filter fun event => event.identifier = identifier) = [] := by
    rw [filter_eq_nil_iff]
    intro event member same
    exact findByIdentifier_none.mp absent (mem_map.mpr ⟨event, member, of_decide_eq_true same⟩)
  unfold reservedFor
  rw [empty]
  rfl

theorem reservedFor_append (events : MeterEvents) (event : CreditMeterEvent) (identifier : String) :
    reservedFor (events ++ [event]) identifier =
      reservedFor events identifier + if event.identifier = identifier then event.credits else 0 := by
  unfold reservedFor
  rw [filter_append, map_append, sum_append]
  by_cases same : event.identifier = identifier
  · simp [same]
  · simp [same]

theorem reservedFor_of_reservation {events events' : MeterEvents}
    (same : events'.map reservation = events.map reservation) (identifier : String) :
    reservedFor events' identifier = reservedFor events identifier := by
  have column : ∀ l : MeterEvents, reservedFor l identifier =
      (((l.map reservation).filter fun columns => columns.2.1 = identifier).map (·.2.2.1)).sum := by
    intro l
    unfold reservedFor
    rw [filter_map, List.map_map]
    rfl
  rw [column, column, same]

theorem runKey_ne_expiryKey (runId : String) (id : Nat) : runKey runId ≠ expiryKey id := by
  apply ne_expiryKey
  unfold runKey
  rw [String.toList_append]
  simp

theorem findExisting_runKey (rows : Rows) (runId : String) :
    findExisting rows (some (runKey runId)) = findByIdempotencyKey rows (runKey runId) := by
  have nonempty : runKey runId ≠ "" := by
    intro same
    have letters := congrArg String.toList same
    unfold runKey at letters
    rw [String.toList_append] at letters
    simp at letters
  show (if runKey runId = "" then none else findByIdempotencyKey rows (runKey runId)) = _
  exact if_neg nonempty

variable {credits : Int}

theorem record_cases (charge : RunCharge) (rows : Rows) (positive : 0 < credits)
    (description : String) (allowNegative : Bool) (now : Int) :
    let tx := record rows (consumptionWrite charge credits description) allowNegative now
    (tx.rows = rows ∧ ∃ entry, tx.result = .entry entry) ∨
    (Appends rows tx.rows [] ∧ ∃ balance, balance < credits ∧
      tx.result = .insufficientCredits credits balance) ∨
    (findByIdempotencyKey rows (runKey charge.runId) = none ∧
      (allowNegative = true ∨ credits ≤ sumBalance (expireDueBucketsInTx rows now)) ∧
      ∃ entry, entry.amountCredits = -credits ∧
        entry.idempotencyKey = some (runKey charge.runId) ∧ Appends rows tx.rows [entry] ∧
        tx.result = .entry entry) := by
  intro tx
  have debit : -credits < 0 := by omega
  have result : tx.result = recordOutcome (-credits) (recordAtomic rows
      (consumptionWrite charge credits description)
      { minBalanceAfter := if -credits < 0 ∧ allowNegative = false then some 0 else none } now).result :=
    rfl
  rcases recordAtomic_cases rows (consumptionWrite charge credits description)
    { minBalanceAfter := if -credits < 0 ∧ allowNegative = false then some 0 else none } now with
    ⟨existing, -, same, found⟩ | ⟨-, appends, ⟨credit, -⟩ | ⟨below, refused⟩⟩ |
      ⟨absent, above, appends, created⟩
  · rw [found] at result
    exact Or.inl ⟨same, existing, result⟩
  · exact absurd credit (by show ¬ 0 < -credits; omega)
  · right
    left
    rw [refused] at result
    refine ⟨appends, sumBalance (expireDueBucketsInTx rows now), ?_, result.trans ?_⟩
    · unfold belowFloor at below
      split at below
      · rename_i floor isFloor
        have floored : floor = 0 := by
          dsimp only at isFloor
          split at isFloor
          · exact (Option.some.inj isFloor).symm
          · cases isFloor
        have amount := of_decide_eq_true below
        have short : sumBalance (expireDueBucketsInTx rows now) + -credits < floor := amount
        omega
      · cases below
    · show RecordOutcome.insufficientCredits |-credits| _ = _
      rw [abs_neg, abs_of_pos positive]
  · right
    right
    have unkeyed := (findExisting_runKey rows charge.runId).symm.trans absent
    rw [created] at result
    refine ⟨unkeyed, ?_, _, rfl, rfl, appends, result⟩
    cases allowNegative with
    | true => exact Or.inl rfl
    | false =>
      right
      rw [if_pos ⟨debit, rfl⟩] at above
      have enough := of_decide_eq_false above
      have floor : ¬ sumBalance (expireDueBucketsInTx rows now) + -credits < 0 := enough
      omega

def SettleCall.Bounded (charge : RunCharge) : SettleCall → Prop
  | .start | .done => True
  | .insufficient required balance => required = charge.credits ∧ balance < charge.credits
  | .overflow required _ => required = charge.credits

/-- The ledger's part of a turn: nothing under the run's key, or a first debit of `credits`. -/
def Debited (charge : RunCharge) (rows rows' : Rows) (credits : Int) (turn : Turn) : Prop :=
  takenFor rows' (runKey charge.runId) = takenFor rows (runKey charge.runId) ∨
  (0 < credits ∧ debits charge rows credits turn = true ∧
    takenFor rows (runKey charge.runId) = 0 ∧ takenFor rows' (runKey charge.runId) = credits)

theorem takenFor_posted {rows rows' : Rows} {entry : CreditLedgerEntry} {runId : String}
    (amount : entry.amountCredits = -credits)
    (keyed : entry.idempotencyKey = some (runKey runId))
    (absent : findByIdempotencyKey rows (runKey runId) = none)
    (appends : Appends rows rows' [entry]) : takenFor rows' (runKey runId) = credits := by
  have single : takenFor [entry] (runKey runId) = credits := by
    unfold takenFor
    simp [keyed, amount]
  rw [takenFor_appends appends (runKey_ne_expiryKey runId), takenFor_of_find_none absent, single]
  omega

theorem record_debited (charge : RunCharge) (rows : Rows) (positive : 0 < credits)
    (description : String) (turn : Turn) (kept : turn.fault ≠ .rolledBack) :
    Debited charge rows (record rows (consumptionWrite charge credits description)
      turn.allowOverdraft turn.now).rows credits turn := by
  rcases record_cases charge rows positive description turn.allowOverdraft turn.now with
    ⟨same, -⟩ | ⟨appends, -⟩ | ⟨absent, enough, entry, amount, keyed, appends, -⟩
  · left
    rw [same]
  · left
    have none_posted : takenFor [] (runKey charge.runId) = 0 := rfl
    rw [takenFor_appends appends (runKey_ne_expiryKey charge.runId), none_posted, Int.add_zero]
  · right
    refine ⟨positive, ?_, takenFor_of_find_none absent, takenFor_posted amount keyed absent appends⟩
    unfold debits
    rw [absent]
    rcases enough with overdraft | covered
    · simp [kept, overdraft]
    · simp [kept, covered]

theorem settleStart_spec (charge : RunCharge) (rows : Rows) (turn : Turn) :
    Debited charge rows (settleStart charge rows turn).1 charge.credits turn ∧
      (settleStart charge rows turn).2.Bounded charge := by
  unfold settleStart
  split
  · exact ⟨Or.inl rfl, trivial⟩
  · rename_i kept
    unfold consumeForRun
    split
    · refine ⟨Or.inl rfl, ?_⟩
      dsimp only
      split
      · trivial
      · trivial
    · rename_i due
      have positive : 0 < charge.credits := lt_of_le_of_ne charge.nonneg (Ne.symm due)
      refine ⟨record_debited charge rows positive _ turn kept, ?_⟩
      dsimp only
      split
      · trivial
      · split
        · rename_i required balance refused
          rcases record_cases charge rows positive (runDescription charge) turn.allowOverdraft
            turn.now with ⟨-, entry, found⟩ | ⟨-, left, short, insufficient⟩ |
              ⟨-, -, entry, -, -, -, created⟩
          · rw [found] at refused
            cases refused
          · rw [insufficient] at refused
            cases refused
            exact ⟨rfl, short⟩
          · rw [created] at refused
            cases refused
        · trivial

theorem settlePartial_spec (charge : RunCharge) (rows : Rows) (balance : Int) (turn : Turn) :
    Debited charge rows (settlePartial charge rows charge.credits balance turn).1 balance turn ∧
      (settlePartial charge rows charge.credits balance turn).2.Bounded charge := by
  unfold settlePartial
  dsimp only
  split
  · exact ⟨Or.inl rfl, rfl⟩
  · rename_i goes
    rw [not_or] at goes
    have positive : 0 < balance := by omega
    have whole : max 0 balance = balance := max_eq_right positive.le
    rw [whole]
    exact ⟨record_debited charge rows positive _ turn goes.2, rfl⟩

theorem settleOverflow_spec (charge : RunCharge) (events : MeterEvents) (debited : Int)
    (turn : Turn) :
    settleOverflow charge events charge.credits debited turn = events ∨
    (reserves charge events turn = true ∧ reservedFor events (runIdentifier charge.runId) = 0 ∧
      reservedFor (settleOverflow charge events charge.credits debited turn)
        (runIdentifier charge.runId) ≤ max 0 (charge.credits - debited)) := by
  unfold settleOverflow
  split
  · exact Or.inl rfl
  · rename_i kept
    rcases recordOverflow_cases events turn.terms
      (overflowRequest charge charge.credits debited turn.now) with ⟨same, -⟩ |
        ⟨terms, credits, writtenOff, eligible, fresh, positive, within, room, appended, -⟩
    · exact Or.inl same
    · right
      have absent : findByIdentifier events (runIdentifier charge.runId) = none :=
        findByIdentifier_none.mpr fresh
      have nothing := reservedFor_of_find_none absent
      refine ⟨?_, nothing, ?_⟩
      · have head : 0 < terms.headroom events := by
          have pos := cap_pos terms
          unfold PaygTerms.headroom
          omega
        unfold reserves
        rw [absent, eligible]
        simp [kept, head]
      · rw [appended, reservedFor_append, nothing]
        have remainder : (overflowRequest charge charge.credits debited turn.now).remainderCredits =
          max 0 (charge.credits - debited) := rfl
        have own : (reservedEvent events (overflowWrite terms
            (overflowRequest charge charge.credits debited turn.now)) credits writtenOff
              (overflowRequest charge charge.credits debited turn.now).now).identifier =
            runIdentifier charge.runId := rfl
        rw [remainder] at within
        rw [if_pos own]
        show 0 + credits ≤ _
        omega

def LedgerCall.key (call : LedgerCall) : Option String :=
  match call.op with
  | .recordAtomic write _ => write.idempotencyKey
  | .recordCumulativeRefundAtomic write => some write.idempotencyKey
  | .expireDueBuckets => none

def SettlementEvent.Foreign (charge : RunCharge) : SettlementEvent → Prop
  | .ledger call => call.key ≠ some (runKey charge.runId)
  | .overflow _ request => request.runId ≠ charge.runId
  | _ => True

theorem LedgerState.step_appends (state : LedgerState) (call : LedgerCall) :
    ∃ posted, Appends state.rows (state.step call).rows posted ∧
      ∀ row ∈ posted, row.idempotencyKey = call.key := by
  obtain ⟨op, now⟩ := call
  cases op with
  | recordAtomic write options =>
    rcases recordAtomic_cases state.rows write options now with ⟨existing, -, same, -⟩ |
      ⟨-, appends, -⟩ | ⟨-, -, appends, -⟩
    · refine ⟨[], ?_, by simp⟩
      show Appends state.rows (Credits.recordAtomic state.rows write options now).rows []
      rw [same]
      exact Appends.refl _
    · exact ⟨[], appends, by simp⟩
    · refine ⟨_, appends, ?_⟩
      intro row member
      rw [mem_singleton.mp member]
      rfl
  | recordCumulativeRefundAtomic write =>
    show ∃ posted, Appends state.rows (Credits.recordCumulativeRefundAtomic state.rows write now).rows
      posted ∧ _
    unfold Credits.recordCumulativeRefundAtomic
    split
    · exact ⟨[], Appends.refl _, by simp⟩
    · split
      · exact ⟨[], Appends.refl _, by simp⟩
      · split
        · exact ⟨[], Appends.refl _, by simp⟩
        · dsimp only
          split
          · exact ⟨[], Appends.refl _, by simp⟩
          · refine ⟨_, post_appends state.rows _ now, ?_⟩
            intro row member
            rw [mem_singleton.mp member]
            rfl
  | expireDueBuckets => exact ⟨[], expire_appends state.rows now, by simp⟩

structure SettlementState.Charged (charge : RunCharge) (state : SettlementState) : Prop where
  total : takenFor state.rows (runKey charge.runId) +
    reservedFor state.events (runIdentifier charge.runId) ≤ charge.credits
  calls : ∀ call ∈ state.calls, call.Bounded charge

variable {charge : RunCharge}

theorem bounded_set {calls : List SettleCall} {i : Nat} {call : SettleCall}
    (all : ∀ c ∈ calls, c.Bounded charge) (changed : call.Bounded charge) :
    ∀ c ∈ calls.set i call, c.Bounded charge := by
  intro c member
  rcases mem_or_eq_of_mem_set member with old | rfl
  · exact all c old
  · exact changed

theorem Debited.total {rows rows' : Rows} {events : MeterEvents}
    {turn : Turn} (debited : Debited charge rows rows' credits turn)
    (total : takenFor rows (runKey charge.runId) +
      reservedFor events (runIdentifier charge.runId) ≤ charge.credits)
    (within : credits ≤ charge.credits)
    (timely : 0 < credits → debits charge rows credits turn = true →
      findByIdentifier events (runIdentifier charge.runId) = none) :
    takenFor rows' (runKey charge.runId) +
      reservedFor events (runIdentifier charge.runId) ≤ charge.credits := by
  rcases debited with same | ⟨positive, goes, -, taken⟩
  · rw [same]
    exact total
  · rw [taken, reservedFor_of_find_none (timely positive goes)]
    omega

theorem SettlementState.turn_charged {state : SettlementState}
    (charged : state.Charged charge) {i : Nat} {turn : Turn}
    (timely : state.untimely charge (.turn i turn) = false) :
    (state.step charge (.turn i turn)).Charged charge := by
  obtain ⟨total, calls⟩ := charged
  unfold SettlementState.untimely at timely
  unfold SettlementState.step
  dsimp only at timely ⊢
  cases read : state.calls[i]? with
  | none => exact ⟨total, calls⟩
  | some call =>
    have bounded := calls call (mem_of_getElem? read)
    rw [read] at timely
    cases call with
    | start =>
      obtain ⟨debited, next⟩ := settleStart_spec charge state.rows turn
      refine ⟨debited.total total le_rfl ?_, bounded_set calls next⟩
      intro positive goes
      simpa [positive.ne', goes] using timely
    | insufficient required balance =>
      obtain ⟨rfl, short⟩ := bounded
      obtain ⟨debited, next⟩ := settlePartial_spec charge state.rows balance turn
      refine ⟨debited.total total short.le ?_, bounded_set calls next⟩
      intro positive goes
      simpa [positive, goes] using timely
    | overflow required debited =>
      have required_eq : required = charge.credits := bounded
      subst required_eq
      refine ⟨?_, bounded_set calls trivial⟩
      dsimp only
      rcases settleOverflow_spec charge state.events debited turn with
        same | ⟨goes, nothing, within⟩
      · rw [same]
        exact total
      · have known : debited = takenFor state.rows (runKey charge.runId) := by
          simpa [goes] using timely
        omega
    | done => exact ⟨total, calls⟩

theorem SettlementState.step_charged {state : SettlementState}
    (charged : state.Charged charge) {event : SettlementEvent} (foreign : event.Foreign charge)
    (timely : state.untimely charge event = false) : (state.step charge event).Charged charge := by
  obtain ⟨total, calls⟩ := charged
  cases event with
  | settleRun =>
    refine ⟨total, ?_⟩
    intro call member
    rcases mem_append.mp member with old | new
    · exact calls call old
    · rw [mem_singleton.mp new]
      trivial
  | turn i turn => exact SettlementState.turn_charged ⟨total, calls⟩ timely
  | ledger call =>
    refine ⟨?_, calls⟩
    obtain ⟨posted, appends, keyed⟩ := LedgerState.step_appends { rows := state.rows } call
    have theirs : takenFor posted (runKey charge.runId) = 0 := by
      apply takenFor_eq_zero
      intro row member same
      exact foreign ((keyed row member).symm.trans same)
    unfold SettlementState.step
    dsimp only
    rw [takenFor_appends appends (runKey_ne_expiryKey charge.runId), theirs, Int.add_zero]
    exact total
  | overflow terms request =>
    refine ⟨?_, calls⟩
    unfold SettlementState.step
    dsimp only
    rcases recordOverflow_cases state.events terms request with ⟨same, -⟩ |
      ⟨eligible, credits, writtenOff, -, -, -, -, -, appended, -⟩
    · rw [same]
      exact total
    · have other : runIdentifier request.runId ≠ runIdentifier charge.runId :=
        fun same => foreign ((String.append_right_inj _).mp same)
      rw [appended, reservedFor_append]
      have unlisted : (reservedEvent state.events (overflowWrite eligible request) credits writtenOff
        request.now).identifier ≠ runIdentifier charge.runId := other
      rw [if_neg unlisted, Int.add_zero]
      exact total
  | markSent id sentAt =>
    refine ⟨?_, calls⟩
    unfold SettlementState.step
    dsimp only
    rw [reservedFor_of_reservation (reservation_markSent _ _ _)]
    exact total
  | recordAttempt id error terminal =>
    refine ⟨?_, calls⟩
    unfold SettlementState.step
    dsimp only
    rw [reservedFor_of_reservation (reservation_recordAttempt _ _ _ _)]
    exact total

/-- **Charge at most once.** From a state in which the run was not charged, in every run whose turns
are timely, the ledger and the meter together never charge more than the run's credits. -/
theorem charged_at_most_once (charge : RunCharge) (start : SettlementState)
    (uncharged : takenFor start.rows (runKey charge.runId) = 0 ∧
      reservedFor start.events (runIdentifier charge.runId) = 0 ∧ start.calls = [])
    (history : List SettlementEvent) (foreign : ∀ event ∈ history, event.Foreign charge)
    (timely : Along (SettlementState.step charge)
      (fun state event => state.untimely charge event = false) start history) :
    ∀ first, first <+: history →
      let state := run (SettlementState.step charge) start first
      takenFor state.rows (runKey charge.runId) +
        reservedFor state.events (runIdentifier charge.runId) ≤ charge.credits := by
  intro first isPre
  obtain ⟨taken, reserved, none_open⟩ := uncharged
  have begin_ : start.Charged charge := by
    refine ⟨?_, by rw [none_open]; simp⟩
    rw [taken, reserved]
    exact charge.nonneg
  have both : Along (SettlementState.step charge) (fun state event =>
      event.Foreign charge ∧ state.untimely charge event = false) start history :=
    along_and (along_of_forall foreign start) timely
  have preserve : ∀ (state : SettlementState) (event : SettlementEvent), state.Charged charge →
      event.Foreign charge ∧ state.untimely charge event = false →
      (state.step charge event).Charged charge :=
    fun _ _ charged ok => SettlementState.step_charged charged ok.1 ok.2
  exact (initial_along preserve begin_ both isPre).total

def tenCredits : RunCharge where
  runId := "r"
  triggerKind := "manual"
  billableCostCents := 10
  credits := 10
  nonneg := by decide

def topUp : LedgerCall where
  op := .recordAtomic { kind := .purchase, amountCredits := 100 } {}
  now := 1

/-- A run settles on an empty balance and is metered as a whole; the owner tops up; a second terminal
write settles the run again. -/
def settledTwice : List SettlementEvent :=
  [.settleRun, .turn 0 { now := 0 }, .turn 0 { now := 0 },
   .turn 0 { now := 0, terms := some smallestCap }, .ledger topUp, .settleRun, .turn 1 { now := 2 }]

/-- The run is then charged 20 credits instead of 10. -/
theorem charged_twice :
    ¬ ∀ (charge : RunCharge) (start : SettlementState),
      takenFor start.rows (runKey charge.runId) = 0 ∧
        reservedFor start.events (runIdentifier charge.runId) = 0 ∧ start.calls = [] →
      ∀ history : List SettlementEvent, (∀ event ∈ history, event.Foreign charge) →
      let state := run (SettlementState.step charge) start history
      takenFor state.rows (runKey charge.runId) +
        reservedFor state.events (runIdentifier charge.runId) ≤ charge.credits := by
  intro claim
  have foreign : ∀ event ∈ settledTwice, event.Foreign tenCredits := by
    intro event member
    simp only [settledTwice, mem_cons, not_mem_nil, or_false] at member
    rcases member with rfl | rfl | rfl | rfl | rfl | rfl | rfl
    all_goals simp [SettlementEvent.Foreign, topUp, LedgerCall.key]
  exact absurd (claim tenCredits {} (by decide) settledTwice foreign) (by decide)

theorem charged_at_most_once_metered :
    let state := run (SettlementState.step tenCredits) {} (settledTwice.take 4)
    takenFor state.rows (runKey "r") + reservedFor state.events (runIdentifier "r") ≤ 10 := by
  have foreign : ∀ event ∈ settledTwice.take 4, event.Foreign tenCredits := by
    intro event member
    simp only [settledTwice, take_succ_cons, take_zero, mem_cons, not_mem_nil,
      or_false] at member
    rcases member with rfl | rfl | rfl | rfl
    all_goals trivial
  exact charged_at_most_once tenCredits {} (by decide) (settledTwice.take 4) foreign (by decide) _
    prefix_rfl

end EverWorks.Credits
