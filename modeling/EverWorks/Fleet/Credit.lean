import EverWorks.Fleet.LinkTypes
import EverWorks.Lib.Run

/-!
A resumable channel of a credit family as its node and its receiver see it: `DATA` in flight one way,
`ACK` the other, a link that drops with what is in flight, and a resume that carries the channel on.
-/

namespace EverWorks.Fleet

open Lib

structure CreditEntry where
  credit : Option Nat
  suspended : Bool
  deriving DecidableEq

/-- The entry `ChannelMux.open` makes of a family's channel. -/
def CreditEntry.opened (family : FleetLinkFamily) : CreditEntry where
  credit := if family ∈ fleetLinkCreditFamilies then some fleetLinkCreditWindowBytes else none
  suspended := false

/-- `sendBinary(DATA, payload)`: whether the frame was sent. `accepted` is the socket's own answer. -/
def CreditEntry.sendBinary (entry : CreditEntry) (bytes : Nat) (accepted : Bool) : Bool × CreditEntry :=
  if entry.suspended then (false, entry)
  else
    match entry.credit with
    | some credit =>
      if credit < bytes then (false, entry)
      else if accepted then (true, { entry with credit := some (credit - bytes) })
      else (false, entry)
    | none => (accepted, entry)

/-- `deliver` of an `ACK` frame. -/
def CreditEntry.deliverAck (entry : CreditEntry) (granted : Nat) : CreditEntry :=
  if entry.suspended then entry
  else
    match entry.credit with
    | some credit =>
      if 0 < granted then { entry with credit := some (min (credit + granted) fleetLinkCreditWindowBytes) }
      else entry
    | none => entry

/-- `suspend` of a channel with a resume key. -/
def CreditEntry.suspend (entry : CreditEntry) : CreditEntry := { entry with suspended := true }

/-- `resumeGeneration` of a channel that the platform resumed. -/
def CreditEntry.resume (entry : CreditEntry) : CreditEntry := { entry with suspended := false }

/-- The channel at both ends, with the frames between them. -/
structure CreditLink where
  entry : CreditEntry
  /-- Payload sizes of the `DATA` frames in flight. -/
  data : List Nat
  /-- Bytes received and not yet acknowledged. -/
  unanswered : Nat
  /-- The `ACK` frames in flight. -/
  acks : List Nat
  /-- All bytes sent, all bytes whose `ACK` arrived, and all bytes a drop took along either way. -/
  sent : Nat
  acknowledged : Nat
  lost : Nat
  deriving DecidableEq

inductive CreditEvent where
  | send (bytes : Nat) (accepted : Bool)
  | deliverData
  | acknowledge (bytes : Nat)
  | deliverAck
  | drop
  | resume
  deriving DecidableEq

def CreditLink.inFlight (link : CreditLink) : Nat := link.data.sum + link.acks.sum

def CreditLink.start : CreditLink := ⟨.opened .logs, [], 0, [], 0, 0, 0⟩

/-- Frames arrive in order, and only while the link is up; the receiver acknowledges what it received. -/
def CreditLink.step (link : CreditLink) : CreditEvent → CreditLink
  | .send bytes accepted =>
    match link.entry.sendBinary bytes accepted with
    | (true, entry) =>
      { link with entry := entry, data := link.data ++ [bytes], sent := link.sent + bytes }
    | (false, entry) => { link with entry := entry }
  | .deliverData =>
    match link.data with
    | bytes :: rest => { link with data := rest, unanswered := link.unanswered + bytes }
    | [] => link
  | .acknowledge bytes =>
    if link.entry.suspended = false ∧ bytes ≤ link.unanswered then
      { link with unanswered := link.unanswered - bytes, acks := link.acks ++ [bytes] }
    else link
  | .deliverAck =>
    match link.acks with
    | bytes :: rest =>
      { link with
        entry := link.entry.deliverAck bytes, acks := rest, acknowledged := link.acknowledged + bytes }
    | [] => link
  | .drop =>
    { link with
      entry := link.entry.suspend, data := [], acks := [], lost := link.lost + link.inFlight }
  | .resume => { link with entry := link.entry.resume }

/-- Nothing is in flight and everything received was acknowledged. -/
def CreditLink.Settled (link : CreditLink) : Prop :=
  link.data = [] ∧ link.unanswered = 0 ∧ link.acks = []

instance (link : CreditLink) : Decidable link.Settled := inferInstanceAs (Decidable (_ ∧ _))

/-- A drop takes no bytes along. -/
def LosesNothing (link : CreditLink) (event : CreditEvent) : Prop :=
  event = .drop → link.inFlight = 0

instance (link : CreditLink) (event : CreditEvent) : Decidable (LosesNothing link event) :=
  inferInstanceAs (Decidable (_ → _))

structure Conserved (link : CreditLink) (credit : Nat) : Prop where
  is_credit : link.entry.credit = some credit
  window : credit + link.data.sum + link.unanswered + link.acks.sum + link.lost =
    fleetLinkCreditWindowBytes
  outstanding : link.sent =
    link.acknowledged + link.data.sum + link.unanswered + link.acks.sum + link.lost
  /-- A dropped link carries nothing. -/
  quiet : link.entry.suspended = true → link.data = [] ∧ link.acks = []

theorem start_conserved : Conserved .start fleetLinkCreditWindowBytes := by
  refine ⟨by decide, ?_, ?_, fun _ => ⟨rfl, rfl⟩⟩ <;> simp [CreditLink.start]

variable {link : CreditLink}

theorem send_conserved {credit : Nat} (bytes : Nat) (accepted : Bool)
    (conserved : Conserved link credit) :
    ∃ after, Conserved (link.step (.send bytes accepted)) after := by
  obtain ⟨isCredit, window, outstanding, quiet⟩ := conserved
  have unchanged : Conserved link credit := ⟨isCredit, window, outstanding, quiet⟩
  by_cases suspended : link.entry.suspended = true
  · exact ⟨credit, by simpa [CreditLink.step, CreditEntry.sendBinary, suspended] using unchanged⟩
  by_cases enough : credit < bytes
  · exact ⟨credit, by simpa [CreditLink.step, CreditEntry.sendBinary, suspended, isCredit, enough] using unchanged⟩
  cases accepted with
  | false =>
    exact ⟨credit, by simpa [CreditLink.step, CreditEntry.sendBinary, suspended, isCredit, enough] using unchanged⟩
  | true =>
    have sent : link.step (.send bytes true) =
        { link with
          entry := { link.entry with credit := some (credit - bytes) }
          data := link.data ++ [bytes]
          sent := link.sent + bytes } := by
      simp [CreditLink.step, CreditEntry.sendBinary, suspended, isCredit, enough]
    rw [sent]
    refine ⟨credit - bytes, rfl, ?_, ?_, fun isSuspended => absurd isSuspended suspended⟩
    · simp
      omega
    · simp
      omega

theorem deliverAck_conserved {credit : Nat} (conserved : Conserved link credit) :
    ∃ after, Conserved (link.step .deliverAck) after := by
  obtain ⟨isCredit, window, outstanding, quiet⟩ := conserved
  cases isAcks : link.acks with
  | nil => exact ⟨credit, by simpa [CreditLink.step, isAcks] using ⟨isCredit, window, outstanding, quiet⟩⟩
  | cons bytes rest =>
    have up : link.entry.suspended = false := by
      by_contra suspended
      simp [isAcks] at quiet
      exact suspended quiet
    rw [isAcks, List.sum_cons] at window outstanding
    have granted : link.entry.deliverAck bytes = { link.entry with credit := some (credit + bytes) } := by
      by_cases zero : 0 < bytes
      · simp only [CreditEntry.deliverAck, up, isCredit, zero, if_true]
        rw [Nat.min_eq_left (by omega)]
        simp
      · have nothing : bytes = 0 := by omega
        rw [nothing, Nat.add_zero, ← isCredit]
        show link.entry.deliverAck 0 = link.entry
        simp [CreditEntry.deliverAck, isCredit]
    have stepped : link.step .deliverAck = { link with
        entry := { link.entry with credit := some (credit + bytes) }
        acks := rest
        acknowledged := link.acknowledged + bytes } := by
      simp [CreditLink.step, isAcks, granted]
    rw [stepped]
    refine ⟨credit + bytes, rfl, ?_, ?_, fun suspended => absurd (up ▸ suspended) (by simp)⟩
    · dsimp only
      omega
    · dsimp only
      omega

theorem step_conserved (event : CreditEvent) (conserved : ∃ credit, Conserved link credit) :
    ∃ credit, Conserved (link.step event) credit := by
  obtain ⟨credit, conserved⟩ := conserved
  have ⟨isCredit, window, outstanding, quiet⟩ := conserved
  cases event with
  | send bytes accepted => exact send_conserved bytes accepted conserved
  | deliverData =>
    cases isData : link.data with
    | nil => exact ⟨credit, by simpa [CreditLink.step, isData] using conserved⟩
    | cons bytes rest =>
      rw [isData, List.sum_cons] at window outstanding
      refine ⟨credit, ?_⟩
      simp only [CreditLink.step, isData]
      refine ⟨isCredit, by dsimp only; omega, by dsimp only; omega, fun suspended => ?_⟩
      simpa [isData] using quiet suspended
  | acknowledge bytes =>
    by_cases answers : link.entry.suspended = false ∧ bytes ≤ link.unanswered
    · refine ⟨credit, ?_⟩
      simp only [CreditLink.step, answers, if_true, and_self]
      refine ⟨isCredit, ?_, ?_, fun suspended => absurd (answers.1 ▸ suspended) (by simp)⟩
      · simp
        omega
      · simp
        omega
    · exact ⟨credit, by simpa only [CreditLink.step, answers, if_false] using conserved⟩
  | deliverAck => exact deliverAck_conserved conserved
  | drop =>
    refine ⟨credit, isCredit, ?_, ?_, fun _ => ⟨rfl, rfl⟩⟩
    · simp [CreditLink.step, CreditLink.inFlight]
      omega
    · simp [CreditLink.step, CreditLink.inFlight]
      omega
  | resume => exact ⟨credit, isCredit, window, outstanding, fun suspended => absurd suspended (by simp [CreditLink.step, CreditEntry.resume])⟩

theorem run_conserved (events : List CreditEvent) :
    ∃ credit, Conserved (run CreditLink.step .start events) credit := by
  have preserve : ∀ link event, (∃ credit, Conserved link credit) → True →
      ∃ credit, Conserved (CreditLink.step link event) credit :=
    fun link event conserved _ => step_conserved event conserved
  exact run_along preserve ⟨_, start_conserved⟩ (along_of_forall (fun _ _ => trivial) CreditLink.start)

theorem step_lost (link : CreditLink) (event : CreditEvent) :
    link.lost ≤ (link.step event).lost ∧
      ((link.step event).lost = link.lost ↔ LosesNothing link event) := by
  cases event with
  | send bytes accepted =>
    simp only [CreditLink.step, LosesNothing]
    split <;> simp
  | deliverData =>
    simp only [CreditLink.step, LosesNothing]
    split <;> simp
  | acknowledge bytes =>
    simp only [CreditLink.step, LosesNothing]
    split <;> simp
  | deliverAck =>
    simp only [CreditLink.step, LosesNothing]
    split <;> simp
  | drop => simp [CreditLink.step, LosesNothing]
  | resume => simp [CreditLink.step, LosesNothing]

theorem run_lost (link : CreditLink) (events : List CreditEvent) :
    link.lost ≤ (run CreditLink.step link events).lost ∧
      ((run CreditLink.step link events).lost = link.lost ↔ Along CreditLink.step LosesNothing link events) := by
  induction events generalizing link with
  | nil => exact ⟨Nat.le_refl _, iff_of_true rfl trivial⟩
  | cons event rest ih =>
    obtain ⟨grows, kept⟩ := step_lost link event
    obtain ⟨grows', kept'⟩ := ih (link.step event)
    rw [run_cons, along_cons, ← kept, ← kept']
    refine ⟨by omega, ?_⟩
    constructor
    · intro same
      exact ⟨by omega, by omega⟩
    · rintro ⟨here, later⟩
      omega

/-- In every run no more than the window is sent and not yet acknowledged, and once nothing is in flight
or unanswered the credit is the full window exactly if no drop took bytes along. -/
theorem credit_kept (events : List CreditEvent) :
    (∀ first, first <+: events →
      (run CreditLink.step .start first).sent ≤
        (run CreditLink.step .start first).acknowledged + fleetLinkCreditWindowBytes) ∧
    ((run CreditLink.step .start events).Settled →
      ((run CreditLink.step .start events).entry.credit = some fleetLinkCreditWindowBytes ↔
        Along CreditLink.step LosesNothing .start events)) := by
  constructor
  · intro first _
    obtain ⟨credit, conserved⟩ := run_conserved first
    have window := conserved.window
    have outstanding := conserved.outstanding
    omega
  · rintro ⟨noData, answered, noAcks⟩
    obtain ⟨credit, conserved⟩ := run_conserved events
    have window := conserved.window
    rw [noData, answered, noAcks] at window
    simp only [List.sum_nil] at window
    rw [← (run_lost .start events).2, conserved.is_credit, Option.some.injEq]
    have none_lost : CreditLink.start.lost = 0 := rfl
    omega

/-- A window's worth of `DATA` lost in one drop: the channel resumes and can never send again. -/
theorem credit_lost_in_drop :
    (run CreditLink.step .start [.send 8388608 true, .drop, .resume]).Settled ∧
      (run CreditLink.step .start [.send 8388608 true, .drop, .resume]).entry.credit = some 0 := by
  decide

end EverWorks.Fleet
