import Mathlib.Data.List.Sort
import EverWorks.Lib.Table

/-!
`CreditMeterEventRepository`: the rows of one owner that mirror what is reported to the provider's
usage meter. A row counts against the cycle's cap until it is given up on.
-/

namespace EverWorks.Credits
open Lib List

inductive CreditMeterEventStatus where
  | pending | sent | failed
  deriving DecidableEq

structure CreditMeterEvent where
  id : Nat
  runId : String
  identifier : String
  credits : Int
  writtenOffCredits : Int := 0
  costCentsRef : Option Int := none
  periodStart : Int
  periodEnd : Int
  status : CreditMeterEventStatus := .pending
  attempts : Nat := 0
  lastError : Option String := none
  sentAt : Option Int := none
  createdAt : Int
  deriving DecidableEq

abbrev MeterEvents := List CreditMeterEvent

/-- `Omit<CreditMeterEventWrite, 'credits' | 'writtenOffCredits'>`. -/
structure CreditMeterEventWrite where
  runId : String
  identifier : String
  costCentsRef : Option Int := none
  periodStart : Int
  periodEnd : Int

inductive ReservationResult where
  | created (event : CreditMeterEvent) (usedCreditsAfter : Int)
  | idempotent (event : CreditMeterEvent) (usedCreditsAfter : Int)
  | capExhausted (writtenOffCredits usedCreditsAfter : Int)
  deriving DecidableEq

def findByIdentifier (events : MeterEvents) (identifier : String) : Option CreditMeterEvent :=
  events.find? fun event => event.identifier = identifier

def countsIn (periodStart periodEnd : Int) (event : CreditMeterEvent) : Bool :=
  periodStart ≤ event.periodStart ∧ event.periodStart < periodEnd ∧ event.status ≠ .failed

def sumCreditsForPeriod (events : MeterEvents) (periodStart periodEnd : Int) : Int :=
  ((events.filter (countsIn periodStart periodEnd)).map (·.credits)).sum

def reservedEvent (events : MeterEvents) (write : CreditMeterEventWrite)
    (credits writtenOffCredits now : Int) : CreditMeterEvent where
  id := events.length
  runId := write.runId
  identifier := write.identifier
  credits
  writtenOffCredits
  costCentsRef := write.costCentsRef
  periodStart := write.periodStart
  periodEnd := write.periodEnd
  createdAt := now

def reserveIdempotentWithinCap (events : MeterEvents) (write : CreditMeterEventWrite)
    (requestedCredits capCredits now : Int) : MeterEvents × ReservationResult :=
  let requested := max 0 requestedCredits
  let cap := max 0 capCredits
  let used := sumCreditsForPeriod events write.periodStart write.periodEnd
  match findByIdentifier events write.identifier with
  | some existing => (events, .idempotent existing used)
  | none =>
    let billedCredits := min requested (max 0 (cap - used))
    let writtenOffCredits := requested - billedCredits
    if billedCredits ≤ 0 then (events, .capExhausted writtenOffCredits used)
    else
      let event := reservedEvent events write billedCredits writtenOffCredits now
      (events ++ [event], .created event (used + billedCredits))

def findUnsent (events : MeterEvents) (olderThan : Int) (limit : Nat) : MeterEvents :=
  ((events.filter fun event => event.status = .pending ∧ event.createdAt < olderThan).insertionSort
    fun a b => a.createdAt ≤ b.createdAt).take limit

def markSent (events : MeterEvents) (id : Nat) (sentAt : Int) : MeterEvents :=
  Table.update (·.id) id
    (fun event => { event with status := .sent, sentAt := some sentAt, lastError := none }) events

def recordAttempt (events : MeterEvents) (id : Nat) (error : String) (terminal : Bool) :
    MeterEvents :=
  Table.update (·.id) id
    (fun event => { event with
      attempts := event.attempts + 1
      lastError := some (String.ofList (error.toList.take 256))
      status := if terminal then .failed else event.status }) events

def reservation (event : CreditMeterEvent) : Nat × String × Int × Int :=
  (event.id, event.identifier, event.credits, event.periodStart)

theorem reservation_markSent (events : MeterEvents) (id : Nat) (sentAt : Int) :
    (markSent events id sentAt).map reservation = events.map reservation :=
  Table.map_update reservation fun _ => rfl

theorem reservation_recordAttempt (events : MeterEvents) (id : Nat) (error : String)
    (terminal : Bool) :
    (recordAttempt events id error terminal).map reservation = events.map reservation :=
  Table.map_update reservation fun _ => rfl

theorem findByIdentifier_none {events : MeterEvents} {identifier : String} :
    findByIdentifier events identifier = none ↔ identifier ∉ events.map (·.identifier) := by
  unfold findByIdentifier
  rw [find?_eq_none, mem_map]
  constructor
  · rintro absent ⟨event, member, same⟩
    exact absent event member (decide_eq_true same)
  · intro absent event member same
    exact absent ⟨event, member, of_decide_eq_true same⟩

theorem findByIdentifier_some {events : MeterEvents} {identifier : String}
    {event : CreditMeterEvent} (found : findByIdentifier events identifier = some event) :
    event ∈ events ∧ event.identifier = identifier := by
  have matched := find?_some found
  exact ⟨mem_of_find?_eq_some found, of_decide_eq_true matched⟩

/-- A reservation finds the identifier, or finds no headroom, or appends a row that fits into it. -/
theorem reserve_cases (events : MeterEvents) (write : CreditMeterEventWrite)
    (requestedCredits capCredits now : Int) :
    let reserved := reserveIdempotentWithinCap events write requestedCredits capCredits now
    (∃ existing ∈ events, existing.identifier = write.identifier ∧
      reserved = (events, .idempotent existing
        (sumCreditsForPeriod events write.periodStart write.periodEnd))) ∨
    (write.identifier ∉ events.map (·.identifier) ∧ ∃ writtenOff used,
      reserved = (events, .capExhausted writtenOff used)) ∨
    (write.identifier ∉ events.map (·.identifier) ∧ ∃ credits writtenOff,
      0 < credits ∧ credits ≤ requestedCredits ∧
      credits + sumCreditsForPeriod events write.periodStart write.periodEnd ≤ max 0 capCredits ∧
      reserved = (events ++ [reservedEvent events write credits writtenOff now],
        .created (reservedEvent events write credits writtenOff now)
          (sumCreditsForPeriod events write.periodStart write.periodEnd + credits))) := by
  intro reserved
  have unfolded : reserved = reserveIdempotentWithinCap events write requestedCredits capCredits now :=
    rfl
  unfold reserveIdempotentWithinCap at unfolded
  cases found : findByIdentifier events write.identifier with
  | some existing =>
    rw [found] at unfolded
    obtain ⟨member, same⟩ := findByIdentifier_some found
    exact Or.inl ⟨existing, member, same, unfolded⟩
  | none =>
    right
    have absent := findByIdentifier_none.mp found
    rw [found] at unfolded
    dsimp only at unfolded
    split at unfolded
    · exact Or.inl ⟨absent, _, _, unfolded⟩
    · exact Or.inr ⟨absent, _, _, by omega, by omega, by omega, unfolded⟩

end EverWorks.Credits
