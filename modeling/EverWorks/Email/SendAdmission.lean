import EverWorks.Email.SendCaps
import EverWorks.Lib.Run

/-!
Each send takes the locks of the windows it is counted in, counts them, reserves its capacity and gives the locks
back; calls its provider; and settles its row, or releases it.
-/

namespace EverWorks.Email
open Lib Lib.Utf16

/-- One call of `send`, for an account and perhaps an Agent of its. -/
structure EmailSend where
  userId : String
  agentId : Option String
  recipients : List Utf16
  draft : Bool := false

def EmailSend.key (send : EmailSend) (window : EmailWindow) : Option String :=
  if window.isInbox then send.agentId else some send.userId

/-- The ceilings, fixed for all sends of one Agent or account. -/
structure FixedCeilings where
  letters : LowerUnits
  recipientsPerMessage : EmailSend → Option Nat
  cap : EmailWindow → String → Option Nat

namespace FixedCeilings

def capOf (ceilings : FixedCeilings) (send : EmailSend) (window : EmailWindow) : Option Nat :=
  (send.key window).bind (ceilings.cap window)

def caps (ceilings : FixedCeilings) (send : EmailSend) : ResolvedEmailSendCaps where
  recipientsPerMessage := ceilings.recipientsPerMessage send
  inboxBurstSends := ceilings.capOf send .inboxBurst
  inboxBurstRecipients := ceilings.capOf send .inboxRecipients
  inboxDailySends := ceilings.capOf send .inboxDaily
  workspaceDailySends := ceilings.capOf send .workspaceDaily
  workspaceMonthlySends := ceilings.capOf send .workspaceMonthly

end FixedCeilings

inductive LockKey
  | agent (agentId : String)
  | account (userId : String)
  deriving DecidableEq

def lockKeys (ceilings : FixedCeilings) (send : EmailSend) : List LockKey :=
  (if inboxInForce (ceilings.caps send) send.agentId.isSome then (send.agentId.map .agent).toList else []) ++
    if workspaceInForce (ceilings.caps send) then [.account send.userId] else []

structure WindowRead (n : Nat) where
  rows : List (Fin n) := []
  next : Nat := 0
  complete : Bool := false
  deriving DecidableEq

inductive SendPhase (n : Nat)
  | waiting
  /-- The locks are held, since `now`. -/
  | admitting (now : Int) (reads : EmailWindow → WindowRead n)
  /-- The capacity is reserved and the provider has been called. -/
  | sending
  /-- The provider took the message, and the row is to say when. -/
  | sent (sentAt : Int)
  | settled
  /-- The provider call failed. -/
  | failed
  | released
  | refused

/-- The row of a send. `number`, `admittedAt` and `seen` tell of its admission: its place among all, its time, and the
rows that it counted. -/
structure EmailMessage (n : Nat) where
  phase : SendPhase n := .waiting
  sentAt : Option Int := none
  number : Nat := 0
  admittedAt : Int := 0
  seen : EmailWindow → List (Fin n) := fun _ => []

structure EmailState (n : Nat) where
  clock : Int
  messages : Fin n → EmailMessage n
  admissions : Nat := 0

def SendPhase.counts {n : Nat} : SendPhase n → Bool
  | .sending | .sent _ | .settled => true
  | .waiting | .admitting _ _ | .failed | .released | .refused => false

def SendPhase.unsettled {n : Nat} : SendPhase n → Bool
  | .sending | .sent _ => true
  | .waiting | .admitting _ _ | .settled | .failed | .released | .refused => false

def SendPhase.isAdmitting {n : Nat} : SendPhase n → Bool
  | .admitting _ _ => true
  | .waiting | .sending | .sent _ | .settled | .failed | .released | .refused => false

/-- `EMAIL_RECIPIENT_WINDOW_PAGE_SIZE`. -/
def recipientWindowPageSize : Nat := 500

inductive EmailEvent (n : Nat)
  | tick (ms : Nat)
  | lock (send : Fin n)
  /-- A count, or one page of the recipients. -/
  | read (send : Fin n) (window : EmailWindow)
  | decide (send : Fin n)
  | succeed (send : Fin n)
  | settle (send : Fin n)
  | fail (send : Fin n)
  | release (send : Fin n)

section
variable {n : Nat} (ceilings : FixedCeilings) (sends : Fin n → EmailSend)

def sentSince (state : EmailState n) (window : EmailWindow) (key : String) (since : Int) : List (Fin n) :=
  (List.finRange n).filter fun i =>
    (sends i).key window == some key && (state.messages i).sentAt.any (since ≤ ·)

def readWindow (state : EmailState n) (window : EmailWindow) (key : String) (now : Int) (read : WindowRead n) :
    WindowRead n :=
  let found := sentSince sends state window key (now - window.windowMs)
  if window = .inboxRecipients then
    let page := (found.filter fun i => read.next ≤ i.val).take recipientWindowPageSize
    { rows := read.rows ++ page
      next := (page.getLast?.map (·.val + 1)).getD read.next
      complete := page.length < recipientWindowPageSize }
  else { read with rows := found, complete := true }

/-- `readUsage`, once its queries have answered. -/
def usageOf (send : EmailSend) (reads : EmailWindow → WindowRead n) : EmailSendWindowUsage where
  hasInbox := send.agentId.isSome
  inboxBurstSends := (reads .inboxBurst).rows.length
  inboxDailySends := (reads .inboxDaily).rows.length
  inboxRecentRecipients := (reads .inboxRecipients).rows.flatMap fun i => (sends i).recipients
  workspaceDailySends := (reads .workspaceDaily).rows.length
  workspaceMonthlySends := (reads .workspaceMonthly).rows.length

def allRead (send : EmailSend) (reads : EmailWindow → WindowRead n) : Bool :=
  [EmailWindow.inboxBurst, .inboxRecipients, .inboxDaily, .workspaceDaily, .workspaceMonthly].all fun window =>
    (send.key window).isNone || (reads window).complete

/-- The send waits, a window is in force for it, and nobody holds a lock that it needs. -/
def canLock (state : EmailState n) (i : Fin n) : Prop :=
  (match (state.messages i).phase with
    | .waiting => True
    | _ => False) ∧ lockKeys ceilings (sends i) ≠ [] ∧
    ∀ j, (state.messages j).phase.isAdmitting = true →
      ∀ key ∈ lockKeys ceilings (sends i), key ∉ lockKeys ceilings (sends j)

instance (state : EmailState n) (i : Fin n) : Decidable (canLock ceilings sends state i) := by
  unfold canLock
  split <;> infer_instance

def EmailState.set (state : EmailState n) (i : Fin n) (message : EmailMessage n) : EmailState n :=
  { state with messages := Function.update state.messages i message }

def decideSend (state : EmailState n) (i : Fin n) (now : Int) (reads : EmailWindow → WindowRead n) : EmailState n :=
  let message := state.messages i
  let recipients := distinctEmailRecipients ceilings.letters (sends i).recipients
  match evaluateEmailSendCaps ceilings.letters (ceilings.caps (sends i)) (usageOf sends (sends i) reads) recipients with
  | some _ => state.set i { message with phase := if (sends i).draft then .waiting else .refused }
  | none =>
    { state.set i {
        phase := .sending
        sentAt := some now
        number := state.admissions
        admittedAt := now
        seen := fun window => (reads window).rows } with
      admissions := state.admissions + 1 }

def stepEmail (state : EmailState n) : EmailEvent n → EmailState n
  | .tick ms => { state with clock := state.clock + ms }
  | .lock i =>
    if canLock ceilings sends state i then
      state.set i { state.messages i with phase := .admitting state.clock fun _ => {} }
    else state
  | .read i window =>
    match (state.messages i).phase, (sends i).key window with
    | .admitting now reads, some key =>
      if (reads window).complete then state
      else state.set i { state.messages i with
        phase := .admitting now (Function.update reads window (readWindow sends state window key now (reads window))) }
    | _, _ => state
  | .decide i =>
    match (state.messages i).phase with
    | .admitting now reads =>
      if allRead (sends i) reads then decideSend ceilings sends state i now reads else state
    | _ => state
  | .succeed i =>
    match (state.messages i).phase with
    | .sending => state.set i { state.messages i with phase := .sent state.clock }
    | _ => state
  | .settle i =>
    match (state.messages i).phase with
    | .sent sentAt => state.set i { state.messages i with phase := .settled, sentAt := some sentAt }
    | _ => state
  | .fail i =>
    match (state.messages i).phase with
    | .sending => state.set i { state.messages i with phase := .failed }
    | _ => state
  | .release i =>
    match (state.messages i).phase with
    | .failed => state.set i { state.messages i with phase := .released, sentAt := none }
    | _ => state

def emailStart (clock : Int) : EmailState n where
  clock
  messages _ := {}

def windowMessages (state : EmailState n) (window : EmailWindow) (key : String) (end' : Int) : List (Fin n) :=
  (List.finRange n).filter fun i =>
    (sends i).key window == some key && (state.messages i).phase.counts &&
      (state.messages i).sentAt.any fun sentAt => end' - window.windowMs ≤ sentAt && sentAt ≤ end'

def windowSize (letters : LowerUnits) (window : EmailWindow) (rows : List (Fin n)) : Nat :=
  if window = .inboxRecipients then
    (distinctEmailRecipients letters (rows.flatMap fun i => (sends i).recipients)).length
  else rows.length

/-- No rolling window holds more than its ceiling, and what was released is in none. -/
structure HardStops (state : EmailState n) : Prop where
  within : ∀ window key cap end', ceilings.cap window key = some cap →
    windowSize sends ceilings.letters window (windowMessages sends state window key end') ≤ cap
  released : ∀ i, (state.messages i).phase = .released → (state.messages i).sentAt = none

/-- A send is not admitted while one that its windows count has been unsettled for longer than the window. -/
def NoneStale (state : EmailState n) : EmailEvent n → Prop
  | .lock i => canLock ceilings sends state i → ∀ window, (ceilings.capOf (sends i) window).isSome = true →
    ∀ j, (sends j).key window = (sends i).key window → (state.messages j).phase.unsettled = true →
      ∀ sentAt ∈ (state.messages j).sentAt, state.clock - window.windowMs ≤ sentAt
  | _ => True

instance (state : EmailState n) (event : EmailEvent n) : Decidable (NoneStale ceilings sends state event) := by
  unfold NoneStale
  split <;> infer_instance

end

end EverWorks.Email
