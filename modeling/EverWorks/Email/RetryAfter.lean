import EverWorks.Email.SendCeilings
import Mathlib.Data.Int.LeastGreatest
import Mathlib.Data.Set.Finite.Lattice

/-!
The rows a window holds, the ceiling they break, and the number of seconds a refusal reports.
-/

namespace EverWorks.Email
open Lib Lib.Utf16 List Option

inductive EmailDirection
  | inbound
  | outbound
  deriving DecidableEq

/-- What the windows read of a stored message; `recipients` are its To, Cc and Bcc. -/
structure EmailRow where
  direction : EmailDirection := .outbound
  userId : String
  agentId : Option String
  sentAt : Option Int
  recipients : List Utf16

inductive EmailSendWindowFilter
  | agent (agentId : String)
  | account (userId : String)
  deriving DecidableEq

def EmailSendWindowFilter.admits : EmailSendWindowFilter → EmailRow → Bool
  | .agent agentId, row => row.agentId == some agentId
  | .account userId, row => row.userId == userId

def sentWindowWhere (filter : EmailSendWindowFilter) (since : Int) (row : EmailRow) : Bool :=
  row.direction == .outbound && row.sentAt.any (since ≤ ·) && filter.admits row

abbrev EmailTable := List EmailRow

namespace EmailTable

def sentSince (table : EmailTable) (filter : EmailSendWindowFilter) (since : Int) : List EmailRow :=
  table.filter (sentWindowWhere filter since)

def countOutboundSentSince (table : EmailTable) (filter : EmailSendWindowFilter) (since : Int) : Nat :=
  (table.sentSince filter since).length

def listOutboundRecipientsSince (table : EmailTable) (filter : EmailSendWindowFilter) (since : Int) : List Utf16 :=
  (table.sentSince filter since).flatMap (·.recipients)

def sentTimes (table : EmailTable) (filter : EmailSendWindowFilter) (since : Int) : List Int :=
  ((table.sentSince filter since).filterMap (·.sentAt)).mergeSort (· ≤ ·)

def listOutboundSentAtSince (table : EmailTable) (filter : EmailSendWindowFilter) (since : Int)
    (limit : Nat := 1000) : List Int :=
  (table.sentTimes filter since).take (max 1 (min limit 10000))

end EmailTable

def readUsage (table : EmailTable) (userId : String) (agentId : Option String) (now : Int) : EmailSendWindowUsage :=
  let since (window : EmailWindow) := now - window.windowMs
  let count (filter : EmailSendWindowFilter) (window : EmailWindow) :=
    table.countOutboundSentSince filter (since window)
  { hasInbox := agentId.isSome
    inboxBurstSends := (agentId.map fun id => count (.agent id) .inboxBurst).getD 0
    inboxDailySends := (agentId.map fun id => count (.agent id) .inboxDaily).getD 0
    inboxRecentRecipients := (agentId.map fun id =>
      table.listOutboundRecipientsSince (.agent id) (since .inboxRecipients)).getD []
    workspaceDailySends := count (.account userId) .workspaceDaily
    workspaceMonthlySends := count (.account userId) .workspaceMonthly }

/-- `computeEmailCapRetryAfterSeconds`. The subtractions stop at zero, as `Math.max(0, …)` makes them. -/
def computeEmailCapRetryAfterSeconds (inWindowAscending : List Int) (cap : Nat) (windowMs now : Int) : Int :=
  if windowMs ≤ 0 ∨ inWindowAscending = [] then 0
  else
    let index := min (inWindowAscending.length - 1) (inWindowAscending.length - cap)
    let freesAt := inWindowAscending.getD index 0 + windowMs
    max 1 ((freesAt - now + 999) / 1000)

def retryAfterSeconds (table : EmailTable) (kind : EmailSendCapLimitKind) (cap : Nat) (userId : String)
    (agentId : Option String) (now : Int) : Int :=
  match kind with
  | .recipientsPerMessage => 0
  | .window window =>
    let filter : EmailSendWindowFilter := match window.isInbox, agentId with
      | true, some agentId => .agent agentId
      | _, _ => .account userId
    computeEmailCapRetryAfterSeconds (table.listOutboundSentAtSince filter (now - window.windowMs)) cap
      window.windowMs now

def ResolvedEmailSendCaps.only (cap : Nat) : EmailWindow → ResolvedEmailSendCaps
  | .inboxBurst => { inboxBurstSends := some cap }
  | .inboxRecipients => { inboxBurstRecipients := some cap }
  | .inboxDaily => { inboxDailySends := some cap }
  | .workspaceDaily => { workspaceDailySends := some cap }
  | .workspaceMonthly => { workspaceMonthlySends := some cap }

section
variable (letters : LowerUnits) (table : EmailTable) (send : EmailSend)

def refusalAt (caps : ResolvedEmailSendCaps) (now : Int) : Option EmailSendCapRefusal :=
  evaluateEmailSendCaps letters caps (readUsage table send.userId send.agentId now) send.recipients

/-- One ceiling alone refuses the send. -/
def RefusedAt (window : EmailWindow) (cap : Nat) (now : Int) : Prop :=
  refusalAt letters table send (.only cap window) now ≠ none

/-- A ceiling on recipients that the send's own exceed. -/
def OwnExceed (window : EmailWindow) (cap : Nat) : Prop :=
  window = .inboxRecipients ∧ cap < (distinctEmailRecipients letters send.recipients).length

/-- After `seconds` the ceiling no longer refuses the send, and a second before it still does. -/
def TellsTruth (window : EmailWindow) (cap : Nat) (now seconds : Int) : Prop :=
  (OwnExceed letters send window cap ∨ ¬ RefusedAt letters table send window cap (now + 1000 * seconds)) ∧
    RefusedAt letters table send window cap (now + 1000 * (seconds - 1))

def EmailSend.filter (send : EmailSend) (window : EmailWindow) : Option EmailSendWindowFilter :=
  if window.isInbox then send.agentId.map .agent else some (.account send.userId)

def breaks (window : EmailWindow) (cap : Nat) (rows : List EmailRow) : Bool :=
  if window = .inboxRecipients then
    cap < (distinctEmailRecipients letters (rows.flatMap (·.recipients)) ++
      distinctEmailRecipients letters send.recipients).eraseDups.length
  else cap ≤ rows.length

/-- The ceiling is broken for as long as a row of that time counts, and no longer. -/
def MakesRoom (filter : EmailSendWindowFilter) (window : EmailWindow) (cap : Nat) (since sentAt : Int) : Prop :=
  sentAt ∈ table.sentTimes filter since ∧
    breaks letters send window cap (table.sentSince filter sentAt) = true ∧
    breaks letters send window cap (table.sentSince filter (sentAt + 1)) = false

/-- The time that seconds are counted from: of the thousand oldest sends, the one with `cap` of them from it on, or else
the last or the first. -/
def countsFrom (times : List Int) (cap : Nat) : Option Int :=
  times[min (min times.length 1000 - 1) (min times.length 1000 - cap)]?

/-- The send that is counted from leaves in the second of the wait in which the one that makes room does, where what
leaves at a whole second is counted to the second before and what makes room to the second after. -/
def SameSecond (windowMs now counted freeing : Int) : Prop :=
  (max 1 (counted + windowMs - now) - 1) / 1000 = (freeing + windowMs - now) / 1000

end

section
variable {letters : LowerUnits} {table : EmailTable} {send : EmailSend} {window : EmailWindow} {cap : Nat}
  {filter : EmailSendWindowFilter}

theorem EmailWindow.windowMs_pos (window : EmailWindow) : 0 < window.windowMs := by
  cases window <;> decide

theorem refuseAt_eq_some {limitKind : EmailSendCapLimitKind} {cap : Option Nat} {used : Nat} {broken : Nat → Bool}
    {refusal : EmailSendCapRefusal} :
    refuseAt limitKind cap used broken = some refusal ↔
      ∃ n, cap = some n ∧ broken n = true ∧ refusal = ⟨limitKind, used, n⟩ := by
  rw [refuseAt, map_eq_some_iff]
  constructor
  · rintro ⟨n, there, rfl⟩
    obtain ⟨set, broken⟩ := filter_eq_some_iff.mp there
    exact ⟨n, set, broken, rfl⟩
  · rintro ⟨n, set, broken, rfl⟩
    exact ⟨n, filter_eq_some_iff.mpr ⟨set, broken⟩, rfl⟩

theorem refusedAt_iff {now : Int} : RefusedAt letters table send window cap now ↔
    ∃ filter ∈ send.filter window,
      breaks letters send window cap (table.sentSince filter (now - window.windowMs)) = true := by
  obtain ⟨userId, agentId, recipients, draft⟩ := send
  rw [RefusedAt, refusalAt]
  cases agentId <;> cases window <;>
    simp [evaluateEmailSendCaps, ResolvedEmailSendCaps.only, refuseAt, readUsage, EmailSend.filter, breaks,
      EmailWindow.isInbox, EmailTable.countOutboundSentSince, EmailTable.listOutboundRecipientsSince]
  all_goals exact decide_eq_true_iff

theorem refusedAt_of_refusal {caps : ResolvedEmailSendCaps} {now : Int} {refusal : EmailSendCapRefusal}
    (refused : refusalAt letters table send caps now = some refusal) (kind : refusal.limitKind = .window window) :
    RefusedAt letters table send window refusal.cap now := by
  rw [RefusedAt, refusalAt]
  rw [refusalAt] at refused
  generalize readUsage table send.userId send.agentId now = usage at refused ⊢
  rw [evaluateEmailSendCaps, or_eq_some_iff, or_eq_some_iff, or_eq_some_iff] at refused
  have one {limitKind : EmailSendCapLimitKind} {cap : Option Nat} {used : Nat} {broken : Nat → Bool}
      (here : refuseAt limitKind cap used broken = some refusal) :
      limitKind = .window window ∧ broken refusal.cap = true := by
    obtain ⟨n, set, isBroken, rfl⟩ := refuseAt_eq_some.mp here
    exact ⟨kind, isBroken⟩
  obtain message | ⟨-, inbox | ⟨-, daily | ⟨-, monthly⟩⟩⟩ := refused
  · cases (one message).1
  · split at inbox
    · rename_i has
      rw [or_eq_some_iff, or_eq_some_iff] at inbox
      obtain burst | ⟨-, recent | ⟨-, daily⟩⟩ := inbox
      · obtain ⟨same, broken⟩ := one burst
        cases same
        simp_all [evaluateEmailSendCaps, ResolvedEmailSendCaps.only, refuseAt]
      · obtain ⟨same, broken⟩ := one recent
        cases same
        simp_all [evaluateEmailSendCaps, ResolvedEmailSendCaps.only, refuseAt]
      · obtain ⟨same, broken⟩ := one daily
        cases same
        simp_all [evaluateEmailSendCaps, ResolvedEmailSendCaps.only, refuseAt]
    · cases inbox
  · obtain ⟨same, broken⟩ := one daily
    cases same
    simp_all [evaluateEmailSendCaps, ResolvedEmailSendCaps.only, refuseAt]
  · obtain ⟨same, broken⟩ := one monthly
    cases same
    simp_all [evaluateEmailSendCaps, ResolvedEmailSendCaps.only, refuseAt]

theorem breaks_mono {rows rows' : List EmailRow} (sub : rows.Sublist rows')
    (broken : breaks letters send window cap rows = true) : breaks letters send window cap rows' = true := by
  rw [breaks] at broken ⊢
  split at broken
  · rename_i recipients
    rw [if_pos recipients]
    rw [decide_eq_true_eq] at broken ⊢
    refine broken.trans_le (subperm_of_subset (nodup_eraseDups _) fun recipient listed => ?_).length_le
    rw [mem_eraseDups, mem_append, mem_distinctEmailRecipients] at listed ⊢
    obtain ⟨some, one, there, same⟩ | own := listed
    · obtain ⟨row, inside, reached⟩ := mem_flatMap.mp there
      exact .inl ⟨some, one, mem_flatMap.mpr ⟨row, sub.subset inside, reached⟩, same⟩
    · exact .inr own
  · rename_i counts
    rw [if_neg counts]
    rw [decide_eq_true_eq] at broken ⊢
    exact broken.trans sub.length_le

theorem ownExceed_iff : OwnExceed letters send window cap ↔
    window = .inboxRecipients ∧ breaks letters send window cap [] = true := by
  refine and_congr_right fun recipients => ?_
  have none : distinctEmailRecipients letters [] = [] := rfl
  have own : (distinctEmailRecipients letters send.recipients).eraseDups.length =
      (distinctEmailRecipients letters send.recipients).length := by
    refine le_antisymm ?_ (subperm_of_subset (distinctEmailRecipients_nodup _) fun recipient listed =>
      mem_eraseDups.mpr listed).length_le
    exact (subperm_of_subset (nodup_eraseDups _) fun recipient listed => mem_eraseDups.mp listed).length_le
  rw [breaks, if_pos recipients, decide_eq_true_eq, flatMap_nil, none, nil_append, own]

theorem sentWindowWhere_iff {since : Int} {row : EmailRow} : sentWindowWhere filter since row = true ↔
    row.direction = .outbound ∧ filter.admits row = true ∧ ∃ sentAt, row.sentAt = some sentAt ∧ since ≤ sentAt := by
  cases sent : row.sentAt with
  | none => simp [sentWindowWhere, sent]
  | some sentAt => simp [sentWindowWhere, sent, and_assoc, and_comm]

theorem sentSince_sublist {since later : Int} (le : since ≤ later) :
    (table.sentSince filter later).Sublist (table.sentSince filter since) := by
  refine monotone_filter_right table fun row counted => ?_
  obtain ⟨outbound, admitted, sentAt, sent, after⟩ := Iff.mp sentWindowWhere_iff counted
  exact Iff.mpr sentWindowWhere_iff ⟨outbound, admitted, sentAt, sent, le.trans after⟩

theorem mem_sentTimes {since sentAt : Int} : sentAt ∈ table.sentTimes filter since ↔
    ∃ row ∈ table.sentSince filter since, row.sentAt = some sentAt := by
  rw [EmailTable.sentTimes, mem_mergeSort, mem_filterMap]

theorem le_of_mem_sentTimes {since sentAt : Int} (sent : sentAt ∈ table.sentTimes filter since) :
    since ≤ sentAt := by
  obtain ⟨row, counted, at_⟩ := Iff.mp mem_sentTimes sent
  obtain ⟨_, _, t, sent, after⟩ := Iff.mp sentWindowWhere_iff (mem_filter.mp counted).2
  cases sent.symm.trans at_
  exact after

theorem exists_sentSince_eq_nil (table : EmailTable) (filter : EmailSendWindowFilter) :
    ∃ last : Int, ∀ since, last < since → table.sentSince filter since = [] := by
  obtain ⟨last, bound⟩ := (finite_toSet (table.filterMap (·.sentAt))).bddAbove
  refine ⟨last, fun since after => filter_eq_nil_iff.mpr fun row stored counted => ?_⟩
  obtain ⟨_, _, sentAt, sent, le⟩ := Iff.mp sentWindowWhere_iff counted
  have early : sentAt ≤ last := bound (mem_filterMap.mpr ⟨row, stored, sent⟩)
  omega

theorem exists_makesRoom {since : Int} (broken : breaks letters send window cap (table.sentSince filter since) = true)
    (empty : breaks letters send window cap [] = false) :
    ∃ freeing, MakesRoom letters table send filter window cap since freeing := by
  obtain ⟨last, gone⟩ := exists_sentSince_eq_nil table filter
  have early (time : Int) (there : breaks letters send window cap (table.sentSince filter time) = true) :
      time ≤ last := by
    by_contra late
    rw [gone time (not_le.mp late), empty] at there
    cases there
  obtain ⟨freeing, there, greatest⟩ := Int.exists_greatest_of_bdd ⟨last, early⟩ ⟨since, broken⟩
  have room : breaks letters send window cap (table.sentSince filter (freeing + 1)) = false := by
    by_contra still
    have := greatest (freeing + 1) (eq_true_of_ne_false still)
    omega
  refine ⟨freeing, ?_, there, room⟩
  by_contra unsent
  -- Else the same rows would be left a millisecond later.
  have same : table.sentSince filter (freeing + 1) = table.sentSince filter freeing := by
    refine filter_congr fun row stored => Bool.eq_iff_iff.mpr ⟨fun counted => ?_, fun counted => ?_⟩
    · exact Iff.mpr sentWindowWhere_iff (by grind [sentWindowWhere_iff])
    · obtain ⟨outbound, admitted, sentAt, sent, after⟩ := Iff.mp sentWindowWhere_iff counted
      refine Iff.mpr sentWindowWhere_iff ⟨outbound, admitted, sentAt, sent, Int.add_one_le_iff.mpr (lt_of_le_of_ne after ?_)⟩
      rintro rfl
      have inside : row ∈ table.sentSince filter since :=
        (sentSince_sublist (greatest since broken)).subset (mem_filter.mpr ⟨stored, counted⟩)
      exact unsent (Iff.mpr mem_sentTimes ⟨row, inside, sent⟩)
  rw [same, there] at room
  cases room

theorem MakesRoom.breaks_iff {since freeing : Int}
    (makes : MakesRoom letters table send filter window cap since freeing) (time : Int) :
    breaks letters send window cap (table.sentSince filter time) = true ↔ time ≤ freeing := by
  obtain ⟨_, there, room⟩ := makes
  refine ⟨fun broken => ?_, fun le => breaks_mono (sentSince_sublist le) there⟩
  by_contra late
  rw [breaks_mono (sentSince_sublist (by omega)) broken] at room
  cases room

theorem retryAfterSeconds_eq {now counted : Int} (mine : send.filter window = some filter)
    (counts : countsFrom (table.sentTimes filter (now - window.windowMs)) cap = some counted) :
    retryAfterSeconds table (.window window) cap send.userId send.agentId now =
      max 1 ((counted + window.windowMs - now + 999) / 1000) := by
  have picked : (match window.isInbox, send.agentId with
      | true, some agentId => EmailSendWindowFilter.agent agentId
      | _, _ => .account send.userId) = filter := by
    rw [EmailSend.filter] at mine
    cases inbox : window.isInbox <;> cases given : send.agentId <;> simp_all
  simp only [retryAfterSeconds, picked, EmailTable.listOutboundSentAtSince, computeEmailCapRetryAfterSeconds]
  rw [countsFrom] at counts
  generalize table.sentTimes filter (now - window.windowMs) = times at counts ⊢
  obtain ⟨within, value⟩ := List.getElem?_eq_some_iff.mp counts
  have limit : max 1 (min 1000 10000) = 1000 := rfl
  have length : (times.take 1000).length = min times.length 1000 := by
    rw [length_take, min_comm]
  have there : (times.take 1000).getD (min (min times.length 1000 - 1) (min times.length 1000 - cap)) 0 = counted := by
    rw [getD_eq_getElem?_getD, getElem?_take_of_lt (by omega), counts, getD_some]
  have some : times.take 1000 ≠ [] := ne_nil_of_length_pos (by omega)
  rw [limit, if_neg (not_or.mpr ⟨not_le.mpr window.windowMs_pos, some⟩), length, there]

theorem le_counted {now counted : Int}
    (counts : countsFrom (table.sentTimes filter (now - window.windowMs)) cap = some counted) :
    now - window.windowMs ≤ counted :=
  le_of_mem_sentTimes (mem_of_getElem? counts)

theorem exists_countsFrom {times : List Int} (nonempty : times ≠ []) (cap : Nat) :
    ∃ counted, countsFrom times cap = some counted := by
  have pos := length_pos_of_ne_nil nonempty
  exact ⟨_, getElem?_eq_getElem (by omega)⟩

end

variable (letters : LowerUnits) (table : EmailTable) (send : EmailSend)

/-- The seconds reported with a refusal are the truth just where the send's own recipients exceed the ceiling, or the
send they are counted from leaves in the same second as the one that makes room. -/
theorem retryAfter_tellsTruth_iff {caps : ResolvedEmailSendCaps} {now : Int} {refusal : EmailSendCapRefusal}
    {window : EmailWindow} (refused : refusalAt letters table send caps now = some refusal)
    (kind : refusal.limitKind = .window window) :
    TellsTruth letters table send window refusal.cap now
        (retryAfterSeconds table refusal.limitKind refusal.cap send.userId send.agentId now) ↔
      OwnExceed letters send window refusal.cap ∨
        ∃ filter ∈ send.filter window, ∃ freeing counted,
          MakesRoom letters table send filter window refusal.cap (now - window.windowMs) freeing ∧
          countsFrom (table.sentTimes filter (now - window.windowMs)) refusal.cap = some counted ∧
          SameSecond window.windowMs now counted freeing := by
  have still := refusedAt_of_refusal refused kind
  rw [kind]
  generalize refusal.cap = cap at still ⊢
  obtain ⟨filter, mine, broken⟩ := Iff.mp refusedAt_iff still
  have at_ (time : Int) : RefusedAt letters table send window cap time ↔
      breaks letters send window cap (table.sentSince filter (time - window.windowMs)) = true := by
    rw [refusedAt_iff]
    refine ⟨fun ⟨other, theirs, broken⟩ => ?_, fun broken => ⟨filter, mine, broken⟩⟩
    cases mem_unique theirs mine
    exact broken
  by_cases empty : breaks letters send window cap [] = true
  · -- No wait helps.
    have always (time : Int) : RefusedAt letters table send window cap time :=
      (at_ time).mpr (breaks_mono (nil_sublist _) empty)
    have never (filter : EmailSendWindowFilter) (freeing : Int)
        (makes : MakesRoom letters table send filter window cap (now - window.windowMs) freeing) : False := by
      have room := makes.2.2
      rw [breaks_mono (nil_sublist _) empty] at room
      cases room
    constructor
    · rintro ⟨own | free, -⟩
      · exact .inl own
      · exact absurd (always _) free
    · rintro (own | ⟨filter, _, freeing, counted, makes, _⟩)
      · exact ⟨.inl own, always _⟩
      · exact (never filter freeing makes).elim
  · have notOwn : ¬ OwnExceed letters send window cap := fun own => empty (ownExceed_iff.mp own).2
    obtain ⟨freeing, makes⟩ := exists_makesRoom broken (eq_false_of_ne_true empty)
    obtain ⟨counted, counts⟩ := exists_countsFrom (ne_nil_of_mem makes.1) cap
    have seconds := retryAfterSeconds_eq mine counts
    have inside := le_counted counts
    have inside' := le_of_mem_sentTimes makes.1
    have only : (∃ filter ∈ send.filter window, ∃ freeing counted,
        MakesRoom letters table send filter window cap (now - window.windowMs) freeing ∧
        countsFrom (table.sentTimes filter (now - window.windowMs)) cap = some counted ∧
        SameSecond window.windowMs now counted freeing) ↔ SameSecond window.windowMs now counted freeing := by
      refine ⟨?_, fun same => ⟨filter, mine, freeing, counted, makes, counts, same⟩⟩
      rintro ⟨other, theirs, freeing', counted', makes', counts', same⟩
      cases mem_unique theirs mine
      cases counts.symm.trans counts'
      have one := (makes.breaks_iff freeing').mp makes'.2.1
      have two := (makes'.breaks_iff freeing).mp makes.2.1
      rwa [le_antisymm two one]
    rw [TellsTruth, only, at_, at_, makes.breaks_iff, makes.breaks_iff, seconds, SameSecond]
    simp only [notOwn, false_or]
    generalize window.windowMs = windowMs at inside inside' ⊢
    omega

def sentByA (sentAt : Int) : EmailRow where
  userId := "u"
  agentId := some "a"
  sentAt := some sentAt
  recipients := [Utf16.ofString "ada@x.io"]

def nextByA : EmailSend where
  userId := "u"
  agentId := some "a"
  recipients := [Utf16.ofString "bob@x.io"]

/-- A message that went out a millisecond ago is awaited for sixty seconds, to the truth. -/
theorem awaits_a_minute : TellsTruth noCapitals [sentByA 0] nextByA .inboxBurst 1 1
    (retryAfterSeconds [sentByA 0] (.window .inboxBurst) 1 "u" (some "a") 1) := by
  have refused : refusalAt noCapitals [sentByA 0] nextByA { inboxBurstSends := some 1 } 1 =
      some ⟨.window .inboxBurst, 1, 1⟩ := by decide +kernel
  refine (retryAfter_tellsTruth_iff noCapitals [sentByA 0] nextByA refused rfl).mpr (.inr ?_)
  refine ⟨.agent "a", rfl, 0, 0, ⟨by decide +kernel, by decide +kernel, by decide +kernel⟩, by decide +kernel, ?_⟩
  rw [SameSecond]
  decide

/-- One that went out at this very moment too, and after sixty seconds the ceiling refuses the send again. -/
theorem refused_after_a_minute :
    refusalAt noCapitals [sentByA 0] nextByA { inboxBurstSends := some 1 } 0 = some ⟨.window .inboxBurst, 1, 1⟩ ∧
      retryAfterSeconds [sentByA 0] (.window .inboxBurst) 1 "u" (some "a") 0 = 60 ∧
      ¬ TellsTruth noCapitals [sentByA 0] nextByA .inboxBurst 1 0
        (retryAfterSeconds [sentByA 0] (.window .inboxBurst) 1 "u" (some "a") 0) := by
  have seconds : retryAfterSeconds [sentByA 0] (.window .inboxBurst) 1 "u" (some "a") 0 = 60 := by decide +kernel
  refine ⟨by decide +kernel, seconds, ?_⟩
  rw [seconds]
  rintro ⟨own | free, -⟩
  · cases own.1
  · refine free ?_
    rw [RefusedAt]
    decide +kernel

end EverWorks.Email
