import EverWorks.Lib.Run
import EverWorks.Credits.MeterEvents

/-!
# Pay-as-you-go metering

`PaygService.recordOverflow` and `flushPending` of one owner. A call asks the provider to accept a meter event in one
step and writes the answer in the next.
-/

namespace EverWorks.Credits
open Lib List

def paygMinMonthlyCapCredits : Int := 500
def meterSafeRetryWindowMs : Int := 23 * 60 * 60 * 1000
def flushMinAgeMs : Int := 60 * 1000

def effectiveCap (maxMonthlyCapCredits raw : Int) : Int :=
  max paygMinMonthlyCapCredits (min maxMonthlyCapCredits raw)

/-- The billing period and the cap of an eligible profile. -/
structure PaygTerms where
  periodStart : Int
  periodEnd : Int
  maxMonthlyCapCredits : Int
  monthlyCapCredits : Int
  ordered : periodStart < periodEnd

def PaygTerms.cap (terms : PaygTerms) : Int :=
  effectiveCap terms.maxMonthlyCapCredits terms.monthlyCapCredits

structure OverflowRequest where
  runId : String
  remainderCredits : Int
  costCentsRef : Option Int := none
  now : Int

inductive OverflowStatus where
  | notEligible | capExhausted | metered
  deriving DecidableEq

structure OverflowOutcome where
  status : OverflowStatus
  billedCredits : Int
  writtenOffCredits : Int
  deriving DecidableEq

def runIdentifier (runId : String) : String := "run:" ++ runId

def overflowWrite (terms : PaygTerms) (request : OverflowRequest) : CreditMeterEventWrite where
  runId := request.runId
  identifier := runIdentifier request.runId
  costCentsRef := request.costCentsRef
  periodStart := terms.periodStart
  periodEnd := terms.periodEnd

/-- What `recordOverflow` does before it sends: the rows, its outcome, and the row to send. No
terms stand for a profile that is not eligible. -/
def recordOverflow (events : MeterEvents) (terms : Option PaygTerms) (request : OverflowRequest) :
    MeterEvents × OverflowOutcome × Option CreditMeterEvent :=
  let remainder := max 0 request.remainderCredits
  if remainder ≤ 0 then (events, ⟨.notEligible, 0, 0⟩, none)
  else match terms with
    | none => (events, ⟨.notEligible, 0, remainder⟩, none)
    | some terms =>
      let reserved := reserveIdempotentWithinCap events (overflowWrite terms request) remainder
        terms.cap request.now
      match reserved.2 with
      | .capExhausted _ _ => (reserved.1, ⟨.capExhausted, 0, remainder⟩, none)
      | .idempotent event _ =>
        (reserved.1, ⟨.metered, event.credits, event.writtenOffCredits⟩, none)
      | .created event _ =>
        (reserved.1, ⟨.metered, event.credits, event.writtenOffCredits⟩, some event)

/-- An overflow changes nothing, or reserves a new row within the remainder and the headroom. -/
theorem recordOverflow_cases (events : MeterEvents) (terms : Option PaygTerms)
    (request : OverflowRequest) :
    let overflow := recordOverflow events terms request
    (overflow.1 = events ∧ overflow.2.2 = none) ∨
    ∃ eligible credits writtenOff, terms = some eligible ∧
      runIdentifier request.runId ∉ events.map (·.identifier) ∧
      0 < credits ∧ credits ≤ max 0 request.remainderCredits ∧
      credits + sumCreditsForPeriod events eligible.periodStart eligible.periodEnd ≤
        max 0 eligible.cap ∧
      overflow.1 = events ++
        [reservedEvent events (overflowWrite eligible request) credits writtenOff request.now] ∧
      overflow.2.2 =
        some (reservedEvent events (overflowWrite eligible request) credits writtenOff request.now) := by
  intro overflow
  have unfolded : overflow = recordOverflow events terms request := rfl
  unfold recordOverflow at unfolded
  dsimp only at unfolded
  split at unfolded
  · exact Or.inl ⟨by rw [unfolded], by rw [unfolded]⟩
  · cases terms with
    | none => exact Or.inl ⟨by rw [unfolded], by rw [unfolded]⟩
    | some eligible =>
      dsimp only at unfolded
      rcases reserve_cases events (overflowWrite eligible request) (max 0 request.remainderCredits)
        eligible.cap request.now with ⟨existing, -, -, found⟩ | ⟨-, writtenOff, used, full⟩ |
          ⟨fresh, credits, writtenOff, positive, within, room, created⟩
      · rw [found] at unfolded
        exact Or.inl ⟨by rw [unfolded], by rw [unfolded]⟩
      · rw [full] at unfolded
        exact Or.inl ⟨by rw [unfolded], by rw [unfolded]⟩
      · rw [created] at unfolded
        exact Or.inr ⟨eligible, credits, writtenOff, rfl, fresh, positive, within, room,
          by rw [unfolded], by rw [unfolded]⟩

inductive ReportFailure where
  | failed (failureCode : String) (terminal : Bool)
  | thrown (message : String)
  deriving DecidableEq

inductive ProviderAnswer where
  | accept
  | refuse (failure : ReportFailure)
  | acceptThenFail (failure : ReportFailure)
  deriving DecidableEq

def ProviderAnswer.accepts : ProviderAnswer → Bool
  | .accept | .acceptThenFail _ => true
  | .refuse _ => false

def ProviderAnswer.failure : ProviderAnswer → Option ReportFailure
  | .accept => none
  | .refuse failure | .acceptThenFail failure => some failure

/-- A call in progress: the rows it has read and not handled, and the answer it has not written. -/
structure MeterCall where
  now : Int
  flush : Bool
  todo : MeterEvents
  answered : Option (CreditMeterEvent × Option ReportFailure) := none

structure PaygState where
  events : MeterEvents := []
  accepted : List String := []
  calls : List MeterCall := []

inductive PaygEvent where
  | recordOverflow (request : OverflowRequest)
  | flushPending (limit : Nat) (now : Int)
  /-- The call reports its next row; the profile may have lost its customer. -/
  | report (call : Nat) (customer : Bool) (answer : ProviderAnswer)
  | write (call : Nat)

def MeterCall.givesUp (call : MeterCall) (customer : Bool) : Option (CreditMeterEvent × String) :=
  match call.answered, call.todo with
  | none, row :: _ =>
    if call.flush = false then none
    else if meterSafeRetryWindowMs < call.now - row.createdAt then
      some (row, "older than the provider idempotency window — automatic retry stopped")
    else if customer = false then some (row, "no billing profile")
    else none
  | _, _ => none

def MeterCall.reports (call : MeterCall) (customer : Bool) : Option CreditMeterEvent :=
  match call.answered, call.todo with
  | none, row :: _ => if (call.givesUp customer).isNone ∧ customer = true then some row else none
  | _, _ => none

def PaygState.report (state : PaygState) (i : Nat) (call : MeterCall) (customer : Bool)
    (answer : ProviderAnswer) : PaygState :=
  match call.givesUp customer, call.reports customer with
  | some (row, reason), _ =>
    { state with
      events := recordAttempt state.events row.id reason true
      calls := state.calls.set i { call with todo := call.todo.tail } }
  | none, some row =>
    { state with
      accepted := if answer.accepts then row.identifier :: state.accepted else state.accepted
      calls := state.calls.set i
        { call with todo := call.todo.tail, answered := some (row, answer.failure) } }
  | none, none => { state with calls := state.calls.set i { call with todo := call.todo.tail } }

def writeAnswer (events : MeterEvents) (now : Int) (row : CreditMeterEvent) :
    Option ReportFailure → MeterEvents
  | none => markSent events row.id now
  | some (.failed failureCode terminal) => recordAttempt events row.id failureCode terminal
  | some (.thrown message) => recordAttempt events row.id message false

def PaygState.step (terms : PaygTerms) (state : PaygState) : PaygEvent → PaygState
  | .recordOverflow request =>
    let overflow := Credits.recordOverflow state.events (some terms) request
    { state with
      events := overflow.1
      calls := match overflow.2.2 with
        | some row => state.calls ++ [{ now := request.now, flush := false, todo := [row] }]
        | none => state.calls }
  | .flushPending limit now =>
    let rows := findUnsent state.events (now - flushMinAgeMs) limit
    { state with calls := state.calls ++ [{ now, flush := true, todo := rows }] }
  | .report i customer answer =>
    match state.calls[i]? with
    | some call => if call.answered.isSome then state else state.report i call customer answer
    | none => state
  | .write i =>
    match state.calls[i]? with
    | some call =>
      match call.answered with
      | some (row, failure) =>
        { state with
          events := writeAnswer state.events call.now row failure
          calls := state.calls.set i { call with answered := none } }
      | none => state
    | none => state

def PaygState.marksFailed (state : PaygState) : PaygEvent → Option CreditMeterEvent
  | .report i customer _ =>
    (state.calls[i]?.bind fun call => call.givesUp customer).map Prod.fst
  | .write i => state.calls[i]?.bind fun call =>
    match call.answered with
    | some (row, some (.failed _ true)) => some row
    | _ => none
  | _ => none

def PaygState.accepts (state : PaygState) : PaygEvent → Option CreditMeterEvent
  | .report i customer answer =>
    if answer.accepts then state.calls[i]?.bind fun call => call.reports customer else none
  | _ => none

/-- No row the provider has accepted is given up on, and the provider accepts no row given up on. -/
def PaygState.Orderly (state : PaygState) (event : PaygEvent) : Prop :=
  (∀ row ∈ state.marksFailed event, row.identifier ∉ state.accepted) ∧
  ∀ row ∈ state.accepts event,
    ∀ stored ∈ state.events, stored.identifier = row.identifier → stored.status ≠ .failed

instance (state : PaygState) (event : PaygEvent) : Decidable (state.Orderly event) :=
  inferInstanceAs (Decidable ((∀ row ∈ state.marksFailed event, row.identifier ∉ state.accepted) ∧
    ∀ row ∈ state.accepts event,
      ∀ stored ∈ state.events, stored.identifier = row.identifier → stored.status ≠ .failed))

def PaygState.acceptedCredits (state : PaygState) : Int :=
  ((state.events.filter fun event => event.identifier ∈ state.accepted).map (·.credits)).sum

def label (event : CreditMeterEvent) : Nat × String := (event.id, event.identifier)

structure Capped (terms : PaygTerms) (accepted : List String) (events : MeterEvents) : Prop where
  ids : events.map (·.id) = List.range events.length
  identifiers : (events.map (·.identifier)).Nodup
  period : ∀ event ∈ events, event.periodStart = terms.periodStart
  positive : ∀ event ∈ events, 0 < event.credits
  used : sumCreditsForPeriod events terms.periodStart terms.periodEnd ≤ terms.cap
  live : ∀ event ∈ events, event.identifier ∈ accepted → event.status ≠ .failed

variable {terms : PaygTerms} {accepted : List String} {events : MeterEvents}

theorem cap_pos (terms : PaygTerms) : 0 < terms.cap := by
  unfold PaygTerms.cap effectiveCap paygMinMonthlyCapCredits
  omega

variable {row : CreditMeterEvent}

theorem Capped.label_injective (capped : Capped terms accepted events) {event : CreditMeterEvent}
    (member : event ∈ events) (known : label row ∈ events.map label)
    (same : event.id = row.id) : event.identifier = row.identifier := by
  obtain ⟨stored, present, labels⟩ := mem_map.mp known
  have nodup : (events.map (·.id)).Nodup := by
    rw [capped.ids]
    exact nodup_range
  have ids : stored.id = row.id := congrArg Prod.fst labels
  have equal := inj_on_of_nodup_map nodup member present (same.trans ids.symm)
  rw [equal]
  exact congrArg Prod.snd labels

theorem Capped.append (capped : Capped terms accepted events) {event : CreditMeterEvent}
    (id : event.id = events.length) (fresh : event.identifier ∉ events.map (·.identifier))
    (period : event.periodStart = terms.periodStart) (positive : 0 < event.credits)
    (pending : event.status = .pending)
    (room : event.credits + sumCreditsForPeriod events terms.periodStart terms.periodEnd ≤
      terms.cap) : Capped terms accepted (events ++ [event]) := by
  have each : ∀ {p : CreditMeterEvent → Prop}, (∀ e ∈ events, p e) → p event →
      ∀ e ∈ events ++ [event], p e := by
    intro p old new e member
    rcases mem_append.mp member with present | last
    · exact old e present
    · exact mem_singleton.mp last ▸ new
  constructor
  · rw [map_append, capped.ids, length_append, length_singleton, range_succ,
      map_singleton, id]
  · rw [map_append, map_singleton, nodup_append]
    refine ⟨capped.identifiers, nodup_singleton _, ?_⟩
    intro a inA b inB same
    rw [mem_singleton.mp inB] at same
    exact fresh (same ▸ inA)
  · exact each capped.period period
  · exact each capped.positive positive
  · have counted : countsIn terms.periodStart terms.periodEnd event = true := by
      have ordered := terms.ordered
      simp [countsIn, period, pending, ordered]
    unfold sumCreditsForPeriod at room ⊢
    rw [filter_append, filter_cons_of_pos counted, filter_nil, map_append,
      sum_append, map_singleton, sum_singleton]
    omega
  · refine each capped.live ?_
    rw [pending]
    intro _ same
    cases same

theorem Capped.update (capped : Capped terms accepted events) {id : Nat}
    {f : CreditMeterEvent → CreditMeterEvent} (frame : ∀ event, reservation (f event) = reservation event)
    (counted : ∀ event ∈ events, event.id = id → (f event).status ≠ .failed → event.status ≠ .failed)
    (kept : ∀ event ∈ events, event.id = id → event.identifier ∈ accepted → (f event).status ≠ .failed) :
    Capped terms accepted (Table.update (·.id) id f events) := by
  have columns : ∀ {τ : Type} (column : CreditMeterEvent → τ),
      (∀ event, column (f event) = column event) →
      (Table.update (·.id) id f events).map column = events.map column :=
    fun column same => Table.map_update column same
  have sameId : ∀ event, (f event).id = event.id := fun event => congrArg (·.1) (frame event)
  have sameIdentifier : ∀ event, (f event).identifier = event.identifier :=
    fun event => congrArg (·.2.1) (frame event)
  have sameCredits : ∀ event, (f event).credits = event.credits :=
    fun event => congrArg (·.2.2.1) (frame event)
  have samePeriod : ∀ event, (f event).periodStart = event.periodStart :=
    fun event => congrArg (·.2.2.2) (frame event)
  constructor
  · rw [columns (·.id) sameId, Table.length_update]
    exact capped.ids
  · rw [columns (·.identifier) sameIdentifier]
    exact capped.identifiers
  · intro event member
    obtain ⟨old, present, ⟨-, rfl⟩ | ⟨-, rfl⟩⟩ := Table.mem_update.mp member
    · rw [samePeriod]
      exact capped.period old present
    · exact capped.period event present
  · intro event member
    obtain ⟨old, present, ⟨-, rfl⟩ | ⟨-, rfl⟩⟩ := Table.mem_update.mp member
    · rw [sameCredits]
      exact capped.positive old present
    · exact capped.positive event present
  · refine le_trans ?_ capped.used
    unfold sumCreditsForPeriod
    rw [Table.sum_filter_update CreditMeterEvent.credits sameCredits]
    apply Table.sum_filter_le
    · exact fun event member => (capped.positive event member).le
    · intro event member after
      by_cases hit : event.id = id
      · rw [if_pos hit] at after
        unfold countsIn at after ⊢
        rw [decide_eq_true_eq, samePeriod] at after
        exact decide_eq_true ⟨after.1, after.2.1, counted event member hit after.2.2⟩
      · rwa [if_neg hit] at after
  · intro event member acceptedAlready
    obtain ⟨old, present, ⟨hit, rfl⟩ | ⟨-, rfl⟩⟩ := Table.mem_update.mp member
    · rw [sameIdentifier] at acceptedAlready
      exact kept old present hit acceptedAlready
    · exact capped.live event present acceptedAlready

theorem Capped.accept (capped : Capped terms accepted events) {identifier : String}
    (live : ∀ event ∈ events, event.identifier = identifier → event.status ≠ .failed) :
    Capped terms (identifier :: accepted) events := by
  refine ⟨capped.ids, capped.identifiers, capped.period, capped.positive, capped.used, ?_⟩
  intro event member listed
  rcases mem_cons.mp listed with same | earlier
  · exact live event member same
  · exact capped.live event member earlier

theorem Capped.accepted_le (capped : Capped terms accepted events) :
    ((events.filter fun event => event.identifier ∈ accepted).map (·.credits)).sum ≤ terms.cap := by
  refine le_trans ?_ capped.used
  apply Table.sum_filter_le
  · exact fun event member => (capped.positive event member).le
  · intro event member listed
    have live := capped.live event member (of_decide_eq_true listed)
    have ordered := terms.ordered
    have period := capped.period event member
    exact decide_eq_true ⟨by omega, by omega, live⟩

structure MeterCall.Known (accepted : List String) (events : MeterEvents) (call : MeterCall) : Prop where
  todo : ∀ row ∈ call.todo, label row ∈ events.map label
  answered : ∀ row failure, call.answered = some (row, failure) → label row ∈ events.map label
  accepted : ∀ row, call.answered = some (row, none) → row.identifier ∈ accepted

variable {call : MeterCall}

variable {events' : MeterEvents}

theorem MeterCall.Known.mono {accepted' : List String}
    (known : call.Known accepted events) (labels : events.map label ⊆ events'.map label)
    (more : accepted ⊆ accepted') : call.Known accepted' events' where
  todo := fun row member => labels (known.todo row member)
  answered := fun row failure read => labels (known.answered row failure read)
  accepted := fun row read => more (known.accepted row read)

structure PaygState.Safe (terms : PaygTerms) (state : PaygState) : Prop where
  capped : Capped terms state.accepted state.events
  known : ∀ call ∈ state.calls, call.Known state.accepted state.events

theorem labels_of_reservation
    (same : events'.map reservation = events.map reservation) :
    events.map label ⊆ events'.map label := by
  have column : ∀ l : MeterEvents,
      l.map label = (l.map reservation).map fun columns => (columns.1, columns.2.1) := by
    intro l
    rw [List.map_map]
    rfl
  rw [column, column, same]
  exact List.Subset.refl _

theorem known_set {calls : List MeterCall} {i : Nat}
    {accepted' : List String} (all : ∀ c ∈ calls, c.Known accepted events)
    (labels : events.map label ⊆ events'.map label) (more : accepted ⊆ accepted')
    (changed : call.Known accepted' events') :
    ∀ c ∈ calls.set i call, c.Known accepted' events' := by
  intro c member
  rcases mem_or_eq_of_mem_set member with old | rfl
  · exact (all c old).mono labels more
  · exact changed

variable {customer : Bool}

theorem givesUp_some {reason : String}
    (gives : call.givesUp customer = some (row, reason)) :
    call.answered = none ∧ row ∈ call.todo := by
  unfold MeterCall.givesUp at gives
  cases answer : call.answered with
  | some pending => simp [answer] at gives
  | none =>
    cases rows : call.todo with
    | nil => simp [answer, rows] at gives
    | cons head rest =>
      simp only [answer, rows] at gives
      split at gives
      · cases gives
      · split at gives
        · exact ⟨rfl, by cases gives; exact mem_cons_self⟩
        · split at gives
          · exact ⟨rfl, by cases gives; exact mem_cons_self⟩
          · cases gives

theorem reports_some
    (reports : call.reports customer = some row) : row ∈ call.todo := by
  unfold MeterCall.reports at reports
  cases answer : call.answered with
  | some pending => simp [answer] at reports
  | none =>
    cases rows : call.todo with
    | nil => simp [answer, rows] at reports
    | cons head rest =>
      simp only [answer, rows] at reports
      split at reports
      · cases reports
        exact mem_cons_self
      · cases reports

theorem recordAttempt_capped (capped : Capped terms accepted events)
    (known : label row ∈ events.map label) (error : String) {terminal : Bool}
    (given : terminal = true → row.identifier ∉ accepted) :
    Capped terms accepted (recordAttempt events row.id error terminal) := by
  refine capped.update (fun _ => rfl) ?_ ?_
  · intro event _ _ after
    cases terminal with
    | true => exact absurd rfl after
    | false => exact after
  · intro event member hit listed
    cases terminal with
    | true =>
      have same := capped.label_injective member known hit
      exact absurd (same ▸ listed) (given rfl)
    | false => exact capped.live event member listed

theorem markSent_capped (capped : Capped terms accepted events)
    (known : label row ∈ events.map label) (listed : row.identifier ∈ accepted) (sentAt : Int) :
    Capped terms accepted (markSent events row.id sentAt) := by
  refine capped.update (fun _ => rfl) ?_ ?_
  · intro event member hit _
    have same := capped.label_injective member known hit
    exact capped.live event member (same ▸ listed)
  · intro event _ _ _ same
    cases same

theorem PaygState.report_safe {state : PaygState} (safe : state.Safe terms) {i : Nat}
    (read : state.calls[i]? = some call)
    {answer : ProviderAnswer}
    (orderly : state.Orderly (.report i customer answer)) :
    (state.report i call customer answer).Safe terms := by
  have member : call ∈ state.calls := mem_of_getElem? read
  have known := safe.known call member
  have rest : ∀ {events' accepted'}, state.events.map label ⊆ events'.map label →
      state.accepted ⊆ accepted' →
      ({ call with todo := call.todo.tail } : MeterCall).Known accepted' events' := by
    intro events' accepted' labels more
    constructor
    · exact fun row inside => labels (known.todo row (mem_of_mem_tail inside))
    · exact fun row failure pending => labels (known.answered row failure pending)
    · exact fun row pending => more (known.accepted row pending)
  unfold PaygState.report
  split
  · rename_i row reason gives
    obtain ⟨-, inside⟩ := givesUp_some gives
    have unaccepted : row.identifier ∉ state.accepted := by
      apply orderly.1
      simp [PaygState.marksFailed, read, gives]
    have labels := labels_of_reservation
      (reservation_recordAttempt state.events row.id reason true)
    exact ⟨recordAttempt_capped safe.capped (known.todo row inside) reason fun _ => unaccepted,
      known_set safe.known labels (List.Subset.refl _) (rest labels (List.Subset.refl _))⟩
  · rename_i row gives reports
    have inside := reports_some reports
    have more : state.accepted ⊆
        if answer.accepts then row.identifier :: state.accepted else state.accepted := by
      split
      · exact subset_cons_self _ _
      · exact List.Subset.refl _
    have left := rest (List.Subset.refl _) more
    refine ⟨?_, known_set safe.known (List.Subset.refl _) more ⟨left.todo, ?_, ?_⟩⟩
    · dsimp only
      split
      · rename_i accepts
        apply safe.capped.accept
        apply orderly.2
        simp [PaygState.accepts, accepts, read, reports]
      · exact safe.capped
    · intro pending failure same
      cases same
      exact known.todo row inside
    · intro pending same
      cases answer with
      | accept =>
        cases same
        exact mem_cons_self
      | refuse failure => cases same
      | acceptThenFail failure => cases same
  · exact ⟨safe.capped, known_set safe.known (List.Subset.refl _) (List.Subset.refl _)
      (rest (List.Subset.refl _) (List.Subset.refl _))⟩

theorem writeAnswer_capped (capped : Capped terms accepted events)
    (known : label row ∈ events.map label) (now : Int) {failure : Option ReportFailure}
    (listed : failure = none → row.identifier ∈ accepted)
    (given : ∀ code, failure = some (.failed code true) → row.identifier ∉ accepted) :
    Capped terms accepted (writeAnswer events now row failure) ∧
      (writeAnswer events now row failure).map reservation = events.map reservation := by
  cases failure with
  | none => exact ⟨markSent_capped capped known (listed rfl) now, reservation_markSent _ _ _⟩
  | some failed =>
    cases failed with
    | failed code terminal =>
      refine ⟨recordAttempt_capped capped known code ?_, reservation_recordAttempt _ _ _ _⟩
      intro terminated
      exact given code (by rw [terminated])
    | thrown message =>
      refine ⟨recordAttempt_capped capped known message ?_, reservation_recordAttempt _ _ _ _⟩
      intro terminated
      cases terminated

theorem mem_findUnsent {olderThan : Int} {limit : Nat}
    (member : row ∈ findUnsent events olderThan limit) : row ∈ events := by
  unfold findUnsent at member
  have sorted := mem_of_mem_take member
  rw [mem_insertionSort, mem_filter] at sorted
  exact sorted.1

theorem PaygState.step_safe {state : PaygState} (safe : state.Safe terms) {event : PaygEvent}
    (orderly : state.Orderly event) : (state.step terms event).Safe terms := by
  cases event with
  | recordOverflow request =>
    unfold PaygState.step
    dsimp only
    rcases recordOverflow_cases state.events (some terms) request with ⟨same, nothing⟩ |
      ⟨eligible, credits, writtenOff, isTerms, fresh, positive, -, room, appended, send⟩
    · rw [same, nothing]
      exact ⟨safe.capped, safe.known⟩
    · cases isTerms
      rw [appended, send]
      have pos := cap_pos terms
      have labels : state.events.map label ⊆ (state.events ++ [reservedEvent state.events
          (overflowWrite terms request) credits writtenOff request.now]).map label := by
        rw [map_append]
        exact subset_append_left _ _
      refine ⟨safe.capped.append rfl fresh rfl positive rfl (room.trans (by omega)), ?_⟩
      intro call member
      rcases mem_append.mp member with old | new
      · exact (safe.known call old).mono labels (List.Subset.refl _)
      · rw [mem_singleton.mp new]
        constructor
        · intro row inside
          rw [mem_singleton.mp inside]
          exact mem_map_of_mem (mem_append_right _ (mem_singleton.mpr rfl))
        · intro row failure pending
          cases pending
        · intro row pending
          cases pending
  | flushPending limit now =>
    refine ⟨safe.capped, ?_⟩
    intro call member
    rcases mem_append.mp member with old | new
    · exact safe.known call old
    · rw [mem_singleton.mp new]
      constructor
      · exact fun row inside => mem_map_of_mem (mem_findUnsent inside)
      · intro row failure pending
        cases pending
      · intro row pending
        cases pending
  | report i customer answer =>
    unfold PaygState.step
    dsimp only
    split
    · rename_i call read
      split
      · exact safe
      · exact PaygState.report_safe safe read orderly
    · exact safe
  | write i =>
    unfold PaygState.step
    dsimp only
    split
    · rename_i call read
      split
      · rename_i row failure pending
        have known := safe.known call (mem_of_getElem? read)
        have given : ∀ code, failure = some (.failed code true) →
            row.identifier ∉ state.accepted := by
          intro code terminal
          apply orderly.1
          simp [PaygState.marksFailed, read, pending, terminal]
        obtain ⟨capped, frame⟩ := writeAnswer_capped safe.capped
          (known.answered row failure pending) call.now
          (fun accepted => known.accepted row (by rw [pending, accepted])) given
        have labels := labels_of_reservation frame
        refine ⟨capped, known_set safe.known labels (List.Subset.refl _) ⟨?_, ?_, ?_⟩⟩
        · exact fun other inside => labels (known.todo other inside)
        · intro other reason same
          cases same
        · intro other same
          cases same
      · exact safe
    · exact safe

theorem PaygState.empty_safe (terms : PaygTerms) : PaygState.Safe terms {} where
  capped := {
    ids := rfl
    identifiers := nodup_nil
    period := by simp
    positive := by simp
    used := (cap_pos terms).le
    live := by simp }
  known := by simp

/-- **The cap.** In every run in which no row the provider has accepted is given up on and the
provider accepts no row given up on, it never has accepted more credits than the cap. -/
theorem accepted_within_cap (terms : PaygTerms) (run_ : List PaygEvent)
    (orderly : Along (PaygState.step terms) PaygState.Orderly {} run_) :
    ∀ first, first <+: run_ →
      (run (PaygState.step terms) {} first).acceptedCredits ≤ terms.cap := by
  intro first isPre
  have preserve : ∀ (state : PaygState) (event : PaygEvent), state.Safe terms →
      state.Orderly event → (state.step terms event).Safe terms :=
    fun _ _ safe orderly => PaygState.step_safe safe orderly
  have safe := initial_along preserve (PaygState.empty_safe terms) orderly isPre
  exact safe.capped.accepted_le

def smallestCap : PaygTerms where
  periodStart := 0
  periodEnd := 2678400000
  maxMonthlyCapCredits := 100000
  monthlyCapCredits := 500
  ordered := by decide

/-- The provider accepts the first run's event but its response is lost; the flush gives up on the
row after 23 hours, and the second run is given the headroom again. -/
def lostResponse : List PaygEvent :=
  [.recordOverflow { runId := "a", remainderCredits := 500, now := 0 },
   .report 0 true (.acceptThenFail (.thrown "timeout")), .write 0,
   .flushPending 500 (meterSafeRetryWindowMs + 1), .report 1 true .accept,
   .recordOverflow { runId := "b", remainderCredits := 500, now := meterSafeRetryWindowMs + 2 },
   .report 2 true .accept]

/-- The provider then has accepted 1000 credits under a cap of 500. -/
theorem accepted_beyond_cap :
    ¬ ∀ (terms : PaygTerms) (run_ : List PaygEvent),
      (run (PaygState.step terms) {} run_).acceptedCredits ≤ terms.cap := by
  intro claim
  exact absurd (claim smallestCap lostResponse) (by decide)

theorem accepted_within_cap_once :
    (run (PaygState.step smallestCap) {} (lostResponse.take 3)).acceptedCredits ≤ 500 :=
  accepted_within_cap smallestCap (lostResponse.take 3) (by decide) _ prefix_rfl

end EverWorks.Credits
