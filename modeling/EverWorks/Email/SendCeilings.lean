import EverWorks.Email.SendAdmission
import Mathlib.Data.Finset.Max
import Mathlib.Data.List.Sort

/-!
# Ceilings over every run

What an admission counts covers every message that a window of its send can hold, as long as no message is unsettled for
longer than a window.
-/

namespace EverWorks.Email
open Lib Lib.Utf16 List

/-! ## Sizes -/

section
variable {n : Nat} {ceilings : FixedCeilings} {sends : Fin n → EmailSend} {letters : LowerUnits}

theorem mem_distinctEmailRecipients {recipient : Utf16} {raw : List Utf16} :
    recipient ∈ distinctEmailRecipients letters raw ↔
      recipient ≠ [] ∧ ∃ one ∈ raw, normalizeEmailRecipient letters one = recipient := by
  simp [distinctEmailRecipients, and_comm]

theorem nodup_eraseDups {α : Type*} [BEq α] [LawfulBEq α] : (list : List α) → list.eraseDups.Nodup
  | [] => nodup_nil
  | one :: rest => by
    rw [eraseDups_cons, nodup_cons]
    refine ⟨fun listed => ?_, nodup_eraseDups _⟩
    simp at listed
termination_by list => list.length
decreasing_by exact Nat.lt_succ_of_le (length_filter_le _ _)

theorem distinctEmailRecipients_nodup (raw : List Utf16) : (distinctEmailRecipients letters raw).Nodup :=
  nodup_eraseDups _

variable {window : EmailWindow}

theorem windowSize_le_of_subset {rows rows' : List (Fin n)} (nodup : rows.Nodup)
    (inside : rows ⊆ rows') : windowSize sends letters window rows ≤ windowSize sends letters window rows' := by
  rw [windowSize, windowSize]
  split
  · refine (subperm_of_subset (distinctEmailRecipients_nodup _) fun recipient listed => ?_).length_le
    obtain ⟨some, one, there, same⟩ := mem_distinctEmailRecipients.mp listed
    obtain ⟨i, row, sent⟩ := mem_flatMap.mp there
    exact mem_distinctEmailRecipients.mpr ⟨some, one, mem_flatMap.mpr ⟨i, inside row, sent⟩, same⟩
  · exact (subperm_of_subset nodup inside).length_le

theorem windowSize_admitted {i : Fin n} {reads : EmailWindow → WindowRead n}
    (admitted : evaluateEmailSendCaps ceilings.letters (ceilings.caps (sends i)) (usageOf sends (sends i) reads)
      (distinctEmailRecipients ceilings.letters (sends i).recipients) = none)
    {cap : Nat} (capped : ceilings.capOf (sends i) window = some cap) :
    windowSize sends ceilings.letters window (i :: (reads window).rows) ≤ cap := by
  obtain ⟨inbox, daily, monthly⟩ := room_of_evaluate admitted
  have has (isInbox : window.isInbox = true) : (sends i).agentId.isSome = true := by
    rw [FixedCeilings.capOf, EmailSend.key, if_pos isInbox] at capped
    obtain ⟨agentId, named, _⟩ := Option.bind_eq_some_iff.mp capped
    rw [named]
    rfl
  cases window with
  | inboxBurst => exact (inbox (has rfl)).1 cap capped
  | inboxDaily => exact (inbox (has rfl)).2.2 cap capped
  | workspaceDaily => exact daily cap capped
  | workspaceMonthly => exact monthly cap capped
  | inboxRecipients =>
    refine le_trans ?_ ((inbox (has rfl)).2.1 cap capped)
    rw [windowSize, if_pos rfl]
    refine (subperm_of_subset (distinctEmailRecipients_nodup _) fun recipient listed => ?_).length_le
    obtain ⟨some, one, there, same⟩ := mem_distinctEmailRecipients.mp listed
    rw [flatMap_cons, mem_append] at there
    rw [mem_eraseDups, mem_append, mem_distinctEmailRecipients, mem_distinctEmailRecipients]
    rcases there with own | before
    · have normal : normalizeEmailRecipient ceilings.letters recipient = recipient := same ▸ normalize_normalize one
      exact .inr ⟨some, recipient, mem_distinctEmailRecipients.mpr ⟨some, one, own, same⟩, normal⟩
    · exact .inl ⟨some, one, before, same⟩

theorem shared_lock {i j : Fin n}
    (capped : (ceilings.capOf (sends i) window).isSome = true)
    (same : (sends j).key window = (sends i).key window) :
    ∃ key, key ∈ lockKeys ceilings (sends i) ∧ key ∈ lockKeys ceilings (sends j) := by
  have capped' : (ceilings.capOf (sends j) window).isSome = true := by
    rw [FixedCeilings.capOf, same]
    exact capped
  have workspace {send : EmailSend} (capped : (ceilings.capOf send window).isSome = true)
      (account : window.isInbox = false) : LockKey.account send.userId ∈ lockKeys ceilings send := by
    have inForce : workspaceInForce (ceilings.caps send) = true := by
      cases window with
      | inboxBurst | inboxRecipients | inboxDaily => cases account
      | workspaceDaily => rw [workspaceInForce, FixedCeilings.caps, capped, Bool.true_or]
      | workspaceMonthly => rw [workspaceInForce, FixedCeilings.caps, capped, Bool.or_true]
    rw [lockKeys, if_pos inForce]
    exact mem_append_right _ mem_cons_self
  have inbox {send : EmailSend} {agentId : String} (capped : (ceilings.capOf send window).isSome = true)
      (named : send.agentId = some agentId) (isInbox : window.isInbox = true) :
      LockKey.agent agentId ∈ lockKeys ceilings send := by
    have inForce : inboxInForce (ceilings.caps send) send.agentId.isSome = true := by
      cases window with
      | workspaceDaily | workspaceMonthly => cases isInbox
      | inboxBurst => simp [inboxInForce, FixedCeilings.caps, capped, named]
      | inboxRecipients => simp [inboxInForce, FixedCeilings.caps, capped, named]
      | inboxDaily => simp [inboxInForce, FixedCeilings.caps, capped, named]
    rw [lockKeys, if_pos inForce, named]
    exact mem_append_left _ mem_cons_self
  cases kind : window.isInbox with
  | false =>
    rw [EmailSend.key, EmailSend.key, kind] at same
    have user : (sends j).userId = (sends i).userId := Option.some.inj same
    exact ⟨_, workspace capped kind, user ▸ workspace capped' kind⟩
  | true =>
    rw [EmailSend.key, EmailSend.key, if_pos kind, if_pos kind] at same
    have keyed := capped
    rw [FixedCeilings.capOf, EmailSend.key, if_pos kind] at keyed
    obtain ⟨agentId, named⟩ := Option.isSome_iff_exists.mp (Option.isSome_of_isSome_bind keyed)
    exact ⟨_, inbox capped named kind, inbox capped' (same.trans named) kind⟩

/-! ## What holds of every run -/

structure RowSound (clock : Int) (message : EmailMessage n) : Prop where
  idle : message.phase.counts = false → message.phase ≠ .failed → message.sentAt = none
  fresh : message.phase.unsettled = true → message.sentAt = some message.admittedAt
  forward : ∀ sentAt, message.phase = .sent sentAt → message.admittedAt ≤ sentAt
  settled : message.phase = .settled → ∃ sentAt, message.sentAt = some sentAt ∧ message.admittedAt ≤ sentAt
  past : message.phase.counts = true → message.admittedAt ≤ clock

def Aged (message : EmailMessage n) (since : Int) : Prop :=
  message.phase = .settled ∧ ∀ sentAt ∈ message.sentAt, sentAt < since

structure Reads (now : Int) (read : WindowRead n) (window : EmailWindow) (j : Fin n) (message : EmailMessage n) :
    Prop where
  recent : message.phase.unsettled = true → now - window.windowMs ≤ message.admittedAt
  found : read.complete = true ∨ j.val < read.next → j ∈ read.rows ∨ Aged message (now - window.windowMs)

structure Admissions (ceilings : FixedCeilings) (sends : Fin n → EmailSend) (state : EmailState n) : Prop where
  row : ∀ i, RowSound state.clock (state.messages i)
  below : ∀ i, (state.messages i).phase.counts = true → (state.messages i).number < state.admissions
  distinct : ∀ i j, (state.messages i).phase.counts = true → (state.messages j).phase.counts = true →
    (state.messages i).number = (state.messages j).number → i = j
  checked : ∀ i window cap, (state.messages i).phase.counts = true → ceilings.capOf (sends i) window = some cap →
    windowSize sends ceilings.letters window (i :: (state.messages i).seen window) ≤ cap
  covered : ∀ i j window, (state.messages i).phase.counts = true → (state.messages j).phase.counts = true →
    (ceilings.capOf (sends i) window).isSome = true → (sends j).key window = (sends i).key window →
    (state.messages j).number < (state.messages i).number →
    j ∈ (state.messages i).seen window ∨ Aged (state.messages j) ((state.messages i).admittedAt - window.windowMs)
  clock : ∀ i now reads, (state.messages i).phase = .admitting now reads → now ≤ state.clock
  reading : ∀ i now reads, (state.messages i).phase = .admitting now reads → ∀ j window,
    (state.messages j).phase.counts = true → (ceilings.capOf (sends i) window).isSome = true →
    (sends j).key window = (sends i).key window → Reads now (reads window) window j (state.messages j)
  exclusive : ∀ i j, (state.messages i).phase.isAdmitting = true → (state.messages j).phase.isAdmitting = true →
    i ≠ j → ∀ key ∈ lockKeys ceilings (sends i), key ∉ lockKeys ceilings (sends j)

theorem set_self (state : EmailState n) (i : Fin n) (message : EmailMessage n) :
    (state.set i message).messages i = message := by
  change Function.update state.messages i message i = message
  exact Function.update_self i message state.messages

variable {message : EmailMessage n}

theorem set_of_ne {state : EmailState n} {i j : Fin n} (other : j ≠ i) :
    (state.set i message).messages j = state.messages j := by
  change Function.update state.messages i message j = state.messages j
  exact Function.update_of_ne other message state.messages

/-- A message went on: it counts only if it did, with the admission it had, and what had aged still has. -/
structure Moves (before after : EmailMessage n) : Prop where
  counts : after.phase.counts = true → before.phase.counts = true
  unsettled : after.phase.unsettled = true → before.phase.unsettled = true
  settled : before.phase = .settled → after.phase = .settled ∧ after.sentAt = before.sentAt
  number : after.number = before.number
  admittedAt : after.admittedAt = before.admittedAt
  seen : after.seen = before.seen

theorem Moves.aged {before after : EmailMessage n} (moves : Moves before after) {since : Int} (aged : Aged before since) :
    Aged after since :=
  ⟨(moves.settled aged.1).1, (moves.settled aged.1).2 ▸ aged.2⟩

theorem Moves.reads {before after : EmailMessage n} (moves : Moves before after) {now : Int} {read : WindowRead n}
    {window : EmailWindow} {j : Fin n} (reads : Reads now read window j before) : Reads now read window j after where
  recent unsettled := moves.admittedAt ▸ reads.recent (moves.unsettled unsettled)
  found known := (reads.found known).imp_right moves.aged

variable {state : EmailState n} {i : Fin n}

theorem moves_set (moves : Moves (state.messages i) message) (j : Fin n) :
    Moves (state.messages j) ((state.set i message).messages j) := by
  by_cases same : j = i
  · subst same
    rw [set_self]
    exact moves
  · rw [set_of_ne same]
    exact ⟨id, id, fun settled => ⟨settled, rfl⟩, rfl, rfl, rfl⟩

theorem Admissions.moves {after : EmailState n} (sound : Admissions ceilings sends state)
    (moves : ∀ j, Moves (state.messages j) (after.messages j)) (admissions : after.admissions = state.admissions)
    (row : ∀ j, RowSound after.clock (after.messages j))
    (clock : ∀ i now reads, (after.messages i).phase = .admitting now reads → now ≤ after.clock)
    (reading : ∀ i now reads, (after.messages i).phase = .admitting now reads → ∀ j window,
      (after.messages j).phase.counts = true → (ceilings.capOf (sends i) window).isSome = true →
      (sends j).key window = (sends i).key window → Reads now (reads window) window j (after.messages j))
    (exclusive : ∀ i j, (after.messages i).phase.isAdmitting = true → (after.messages j).phase.isAdmitting = true →
      i ≠ j → ∀ key ∈ lockKeys ceilings (sends i), key ∉ lockKeys ceilings (sends j)) :
    Admissions ceilings sends after where
  row := row
  clock := clock
  reading := reading
  exclusive := exclusive
  below i counts := by
    rw [(moves i).number, admissions]
    exact sound.below i ((moves i).counts counts)
  distinct i j counts counts' same := by
    rw [(moves i).number, (moves j).number] at same
    exact sound.distinct i j ((moves i).counts counts) ((moves j).counts counts') same
  checked i window cap counts capped := by
    rw [(moves i).seen]
    exact sound.checked i window cap ((moves i).counts counts) capped
  covered i j window counts counts' inForce key later := by
    rw [(moves i).number, (moves j).number] at later
    rw [(moves i).seen, (moves i).admittedAt]
    exact (sound.covered i j window ((moves i).counts counts) ((moves j).counts counts') inForce key later).imp_right
      (moves j).aged

theorem Admissions.goOn (sound : Admissions ceilings sends state)
    (moves : Moves (state.messages i) message) (row : RowSound state.clock message)
    (done : message.phase.isAdmitting = false) : Admissions ceilings sends (state.set i message) := by
  have admitted {j : Fin n} (admitting : ((state.set i message).messages j).phase.isAdmitting = true) :
      (state.set i message).messages j = state.messages j := by
    refine set_of_ne fun same => ?_
    rw [same, set_self, done] at admitting
    cases admitting
  refine sound.moves (moves_set moves) rfl (fun j => ?_) (fun j now reads phase => ?_) (fun j now reads phase => ?_)
    fun j k admitting admitting' => ?_
  · by_cases same : j = i
    · subst same
      rw [set_self]
      exact row
    · rw [set_of_ne same]
      exact sound.row j
  · rw [admitted (by rw [phase]; rfl)] at phase
    exact sound.clock j now reads phase
  · rw [admitted (by rw [phase]; rfl)] at phase
    intro k window counts inForce key
    exact (moves_set moves k).reads (sound.reading j now reads phase k window ((moves_set moves k).counts counts)
      inForce key)
  · rw [admitted admitting] at admitting
    rw [admitted admitting'] at admitting'
    exact sound.exclusive j k admitting admitting'

/-! ## Each event -/

variable {now : Int}

theorem Admissions.admitted {reads : EmailWindow → WindowRead n}
    (sound : Admissions ceilings sends state) (idle : (state.messages i).phase.counts = false)
    (none : (state.messages i).sentAt = none) (past : now ≤ state.clock)
    (same : message = { state.messages i with phase := .admitting now reads })
    (reading : ∀ j window, (state.messages j).phase.counts = true → (ceilings.capOf (sends i) window).isSome = true →
      (sends j).key window = (sends i).key window → Reads now (reads window) window j (state.messages j))
    (exclusive : ∀ j, (state.messages j).phase.isAdmitting = true → j ≠ i →
      ∀ key ∈ lockKeys ceilings (sends i), key ∉ lockKeys ceilings (sends j)) :
    Admissions ceilings sends (state.set i message) := by
  have moves : Moves (state.messages i) message := by
    subst same
    refine ⟨nofun, nofun, fun settled => ?_, rfl, rfl, rfl⟩
    rw [settled] at idle
    cases idle
  have other {j : Fin n} (counts : ((state.set i message).messages j).phase.counts = true) :
      (state.set i message).messages j = state.messages j := by
    refine set_of_ne fun here => ?_
    rw [here, set_self, same] at counts
    cases counts
  refine sound.moves (moves_set moves) rfl (fun j => ?_) (fun j now' reads' phase => ?_)
    (fun j now' reads' phase => ?_) fun j k admitting admitting' apart => ?_
  · by_cases here : j = i
    · subst here
      rw [set_self, same]
      exact ⟨fun _ _ => none, nofun, nofun, nofun, nofun⟩
    · rw [set_of_ne here]
      exact sound.row j
  · by_cases here : j = i
    · subst here
      rw [set_self, same] at phase
      obtain ⟨rfl, rfl⟩ := SendPhase.admitting.inj phase
      exact past
    · rw [set_of_ne here] at phase
      exact sound.clock j now' reads' phase
  · intro k window counts inForce key
    have same' := other counts
    rw [same'] at counts ⊢
    by_cases here : j = i
    · subst here
      rw [set_self, same] at phase
      obtain ⟨rfl, rfl⟩ := SendPhase.admitting.inj phase
      exact reading k window counts inForce key
    · rw [set_of_ne here] at phase
      exact sound.reading j now' reads' phase k window counts inForce key
  · by_cases here : j = i
    · subst here
      rw [set_of_ne (Ne.symm apart)] at admitting'
      exact exclusive k admitting' (Ne.symm apart)
    · rw [set_of_ne here] at admitting
      by_cases there : k = i
      · subst there
        exact fun key held held' => exclusive j admitting here key held' held
      · rw [set_of_ne there] at admitting'
        exact sound.exclusive j k admitting admitting' apart

theorem lock_sound (sound : Admissions ceilings sends state) (free : canLock ceilings sends state i)
    (fresh : NoneStale ceilings sends state (.lock i)) :
    Admissions ceilings sends
      (state.set i { state.messages i with phase := .admitting state.clock fun _ => {} }) := by
  obtain ⟨waits, _, alone⟩ := id free
  have waiting : (state.messages i).phase = .waiting := by
    cases phase : (state.messages i).phase with
    | waiting => rfl
    | _ => rw [phase] at waits; exact waits.elim
  have idle : (state.messages i).phase.counts = false := by rw [waiting]; rfl
  refine sound.admitted idle ((sound.row i).idle idle (by rw [waiting]; nofun)) le_rfl rfl ?_ fun j admitting _ => alone j admitting
  intro j window counts inForce key
  refine ⟨fun unsettled => ?_, fun known => ?_⟩
  · exact fresh free window inForce j key unsettled _ ((sound.row j).fresh unsettled)
  · rcases known with complete | below
    · cases complete
    · exact absurd below (Nat.not_lt_zero _)

theorem mem_page {rows : List (Fin n)} {size : Nat} (sorted : rows.Pairwise (· < ·)) {last j : Fin n}
    (ends : (rows.take size).getLast? = some last) (listed : j ∈ rows) (upTo : j ≤ last) : j ∈ rows.take size := by
  have split := take_append_drop size rows
  rw [← split, mem_append] at listed
  rcases listed with here | later
  · exact here
  · rw [← split, pairwise_append] at sorted
    exact absurd (sorted.2.2 last (mem_of_getLast? ends) j later) (Nat.not_lt.mpr upTo)

theorem mem_sentSince {key : String} {since : Int} {j : Fin n} :
    j ∈ sentSince sends state window key since ↔
      (sends j).key window = some key ∧ ∃ sentAt ∈ (state.messages j).sentAt, since ≤ sentAt := by
  simp [sentSince, Option.any_eq_true]

theorem Reads.query {read : WindowRead n} {key : String} {j : Fin n}
    (reads : Reads now read window j (state.messages j)) (row : RowSound state.clock (state.messages j))
    (counts : (state.messages j).phase.counts = true) (keyed : (sends j).key window = some key) :
    Reads now (readWindow sends state window key now read) window j (state.messages j) := by
  refine ⟨reads.recent, fun known => ?_⟩
  -- The row is in the window, or the message is settled and has left it.
  have either : j ∈ sentSince sends state window key (now - window.windowMs) ∨
      Aged (state.messages j) (now - window.windowMs) := by
    cases unsettled : (state.messages j).phase.unsettled with
    | true => exact .inl (mem_sentSince.mpr ⟨keyed, _, row.fresh unsettled, reads.recent unsettled⟩)
    | false =>
      have settled : (state.messages j).phase = .settled := by
        cases phase : (state.messages j).phase with
        | settled => rfl
        | sending | sent => rw [phase] at unsettled; cases unsettled
        | waiting | admitting | failed | released | refused => rw [phase] at counts; cases counts
      obtain ⟨sentAt, said, _⟩ := row.settled settled
      rcases le_or_gt (now - window.windowMs) sentAt with inside | left
      · exact .inl (mem_sentSince.mpr ⟨keyed, sentAt, said, inside⟩)
      · exact .inr ⟨settled, fun other told => Option.some.inj (said.symm.trans told) ▸ left⟩
  rcases either with found | aged
  swap
  · exact .inr aged
  rw [readWindow] at known ⊢
  split at known
  swap
  · rename_i single
    rw [if_neg single]
    exact .inl found
  rename_i recipients
  rw [if_pos recipients]
  by_cases before : j.val < read.next
  · exact (reads.found (.inr before)).imp_left (mem_append_left _)
  have listed : j ∈ (sentSince sends state window key (now - window.windowMs)).filter fun i => read.next ≤ i.val :=
    mem_filter.mpr ⟨found, decide_eq_true (Nat.not_lt.mp before)⟩
  refine .inl (mem_append_right _ ?_)
  rcases known with whole | upTo
  · have short := of_decide_eq_true whole
    rw [length_take] at short
    rw [take_of_length_le (by omega)]
    exact listed
  · dsimp only at upTo
    cases last : (List.take recipientWindowPageSize ((sentSince sends state window key
        (now - window.windowMs)).filter fun i => read.next ≤ i.val)).getLast? with
    | none =>
      rw [last] at upTo
      exact absurd upTo before
    | some end' =>
      rw [last] at upTo
      have sorted : ((sentSince sends state window key (now - window.windowMs)).filter
          fun i => read.next ≤ i.val).Pairwise (· < ·) :=
        ((sortedLT_finRange n).pairwise.filter _).filter _
      exact mem_page sorted last listed (Nat.le_of_lt_succ upTo)

theorem read_sound (sound : Admissions ceilings sends state) {reads : EmailWindow → WindowRead n}
    {key : String} (phase : (state.messages i).phase = .admitting now reads)
    (keyed : (sends i).key window = some key) :
    Admissions ceilings sends (state.set i { state.messages i with
      phase := .admitting now (Function.update reads window
        (readWindow sends state window key now (reads window))) }) := by
  have idle : (state.messages i).phase.counts = false := by rw [phase]; rfl
  refine sound.admitted idle ((sound.row i).idle idle (by rw [phase]; nofun)) (sound.clock i now reads phase) rfl ?_ ?_
  · intro j other counts inForce key'
    have before := sound.reading i now reads phase j other counts inForce key'
    by_cases same : other = window
    · subst same
      rw [Function.update_self]
      exact before.query (sound.row j) counts (key'.trans keyed)
    · rw [Function.update_of_ne same]
      exact before
  · exact fun j admitting other => sound.exclusive i j (by rw [phase]; rfl) admitting (Ne.symm other)

theorem complete_of_allRead {send : EmailSend} {reads : EmailWindow → WindowRead n}
    (all : allRead send reads = true) (keyed : (send.key window).isSome = true) :
    (reads window).complete = true := by
  have listed : window ∈ [EmailWindow.inboxBurst, .inboxRecipients, .inboxDaily, .workspaceDaily, .workspaceMonthly] := by
    cases window <;> simp
  have either := all_eq_true.mp all window listed
  rw [Option.isNone_eq_false_iff.mpr keyed, Bool.false_or] at either
  exact either

theorem reserve_sound (sound : Admissions ceilings sends state) {reads : EmailWindow → WindowRead n}
    (phase : (state.messages i).phase = .admitting now reads) (all : allRead (sends i) reads = true)
    (admitted : evaluateEmailSendCaps ceilings.letters (ceilings.caps (sends i)) (usageOf sends (sends i) reads)
      (distinctEmailRecipients ceilings.letters (sends i).recipients) = none) :
    Admissions ceilings sends { state.set i {
        phase := .sending
        sentAt := some now
        number := state.admissions
        admittedAt := now
        seen := fun window => (reads window).rows } with
      admissions := state.admissions + 1 } := by
  let message : EmailMessage n :=
    { phase := .sending
      sentAt := some now
      number := state.admissions
      admittedAt := now
      seen := fun window => (reads window).rows }
  have self : (state.set i message).messages i = message := set_self state i message
  have admitting : (state.messages i).phase.isAdmitting = true := by rw [phase]; rfl
  have keyed {window : EmailWindow} (inForce : (ceilings.capOf (sends i) window).isSome = true) :
      ((sends i).key window).isSome = true := Option.isSome_of_isSome_bind inForce
  have apart {j : Fin n} (admitting' : ((state.set i message).messages j).phase.isAdmitting = true) : j ≠ i := by
    rintro rfl
    rw [self] at admitting'
    cases admitting'
  constructor
  · intro j
    by_cases here : j = i
    · subst here
      dsimp only
      rw [self]
      exact ⟨nofun, fun _ => rfl, nofun, nofun, fun _ => sound.clock j now reads phase⟩
    · dsimp only
      rw [set_of_ne here]
      exact sound.row j
  · intro j counts
    by_cases here : j = i
    · subst here
      dsimp only
      rw [self]
      exact Nat.lt_succ_self _
    · dsimp only at counts ⊢
      rw [set_of_ne here] at counts ⊢
      exact Nat.lt_succ_of_lt (sound.below j counts)
  · intro j k counts counts' same
    dsimp only at counts counts' same
    by_cases here : j = i
    · subst here
      by_contra other
      rw [self, set_of_ne (Ne.symm other)] at same
      rw [set_of_ne (Ne.symm other)] at counts'
      exact absurd (sound.below k counts') (Nat.not_lt.mpr same.le)
    · rw [set_of_ne here] at counts same
      by_cases there : k = i
      · subst there
        rw [self] at same
        exact absurd (sound.below j counts) (Nat.not_lt.mpr same.ge)
      · rw [set_of_ne there] at counts' same
        exact sound.distinct j k counts counts' same
  · intro j window cap counts capped
    dsimp only at counts ⊢
    by_cases here : j = i
    · subst here
      rw [self]
      exact windowSize_admitted admitted capped
    · rw [set_of_ne here] at counts ⊢
      exact sound.checked j window cap counts capped
  · intro j k window counts counts' inForce key later
    dsimp only at counts counts' later ⊢
    by_cases there : k = i
    · subst there
      by_cases here : j = k
      · subst here
        exact absurd later (Nat.lt_irrefl _)
      · rw [set_of_ne here] at counts later
        rw [self] at later
        exact absurd (sound.below j counts) (Nat.not_lt.mpr later.le)
    · rw [set_of_ne there] at counts' later ⊢
      by_cases here : j = i
      · subst here
        rw [self]
        exact (sound.reading j now reads phase k window counts' inForce key).found
          (.inl (complete_of_allRead all (keyed inForce)))
      · rw [set_of_ne here] at counts later ⊢
        exact sound.covered j k window counts counts' inForce key later
  · intro j now' reads' phase'
    dsimp only at phase' ⊢
    rw [set_of_ne (apart (by rw [phase']; rfl))] at phase'
    exact sound.clock j now' reads' phase'
  · intro j now' reads' phase' k window counts inForce key
    dsimp only at phase' counts ⊢
    have other := apart (by rw [phase']; rfl)
    rw [set_of_ne other] at phase'
    -- Nobody else that counts this message is in admission: they would hold a lock in common.
    by_cases there : k = i
    · subst there
      obtain ⟨lock, held, held'⟩ := shared_lock inForce key
      exact absurd held' (sound.exclusive j k (by rw [phase']; rfl) admitting other lock held)
    · rw [set_of_ne there] at counts ⊢
      exact sound.reading j now' reads' phase' k window counts inForce key
  · intro j k admitting' admitting'' different
    dsimp only at admitting' admitting''
    rw [set_of_ne (apart admitting')] at admitting'
    rw [set_of_ne (apart admitting'')] at admitting''
    exact sound.exclusive j k admitting' admitting'' different

theorem decide_sound (sound : Admissions ceilings sends state) {reads : EmailWindow → WindowRead n}
    (phase : (state.messages i).phase = .admitting now reads) (all : allRead (sends i) reads = true) :
    Admissions ceilings sends (decideSend ceilings sends state i now reads) := by
  have idle : (state.messages i).phase.counts = false := by rw [phase]; rfl
  have none := (sound.row i).idle idle (by rw [phase]; nofun)
  rw [decideSend.eq_def]
  dsimp only
  split
  · have settled (there : (state.messages i).phase = .settled) : False := by
      rw [phase] at there
      cases there
    cases (sends i).draft with
    | true =>
      exact sound.goOn ⟨nofun, nofun, fun there => (settled there).elim, rfl, rfl, rfl⟩
        ⟨fun _ _ => none, nofun, nofun, nofun, nofun⟩ rfl
    | false =>
      exact sound.goOn ⟨nofun, nofun, fun there => (settled there).elim, rfl, rfl, rfl⟩
        ⟨fun _ _ => none, nofun, nofun, nofun, nofun⟩ rfl
  · rename_i admitted
    exact reserve_sound sound phase all admitted

theorem step_sound (sound : Admissions ceilings sends state) (event : EmailEvent n)
    (fresh : NoneStale ceilings sends state event) : Admissions ceilings sends (stepEmail ceilings sends state event) := by
  cases event with
  | tick ms =>
    refine sound.moves (fun j => ⟨id, id, fun settled => ⟨settled, rfl⟩, rfl, rfl, rfl⟩) rfl (fun j => ?_)
      (fun j now reads phase => ?_) sound.reading sound.exclusive
    · exact { sound.row j with past := fun counts => ((sound.row j).past counts).trans (by dsimp only [stepEmail]; omega) }
    · exact (sound.clock j now reads phase).trans (by dsimp only [stepEmail]; omega)
  | lock i =>
    rw [stepEmail]
    split
    · rename_i free
      exact lock_sound sound free fresh
    · exact sound
  | read i window =>
    rw [stepEmail]
    split
    · rename_i now reads key phase keyed
      split
      · exact sound
      · exact read_sound sound phase keyed
    · exact sound
  | decide i =>
    rw [stepEmail]
    split
    · rename_i now reads phase
      split
      · rename_i all
        exact decide_sound sound phase all
      · exact sound
    · exact sound
  | succeed i =>
    rw [stepEmail]
    split
    · rename_i phase
      have row := sound.row i
      have counts : (state.messages i).phase.counts = true := by rw [phase]; rfl
      refine sound.goOn ⟨fun _ => counts, fun _ => by rw [phase]; rfl, fun there => ?_, rfl, rfl, rfl⟩
        ⟨nofun, fun _ => row.fresh (by rw [phase]; rfl), ?_, nofun, fun _ => row.past counts⟩ rfl
      · rw [phase] at there
        cases there
      · rintro sentAt same
        exact SendPhase.sent.inj same ▸ row.past counts
    · exact sound
  | settle i =>
    rw [stepEmail]
    split
    · rename_i sentAt phase
      have row := sound.row i
      have counts : (state.messages i).phase.counts = true := by rw [phase]; rfl
      refine sound.goOn ⟨fun _ => counts, nofun, fun there => ?_, rfl, rfl, rfl⟩
        ⟨nofun, nofun, nofun, fun _ => ⟨sentAt, rfl, row.forward sentAt phase⟩, fun _ => row.past counts⟩ rfl
      rw [phase] at there
      cases there
    · exact sound
  | fail i =>
    rw [stepEmail]
    split
    · rename_i phase
      refine sound.goOn ⟨nofun, nofun, fun there => ?_, rfl, rfl, rfl⟩ ⟨fun _ other => (other rfl).elim, nofun, nofun, nofun, nofun⟩ rfl
      rw [phase] at there
      cases there
    · exact sound
  | release i =>
    rw [stepEmail]
    split
    · rename_i phase
      refine sound.goOn ⟨nofun, nofun, fun there => ?_, rfl, rfl, rfl⟩ ⟨fun _ _ => rfl, nofun, nofun, nofun, nofun⟩ rfl
      rw [phase] at there
      cases there
    · exact sound

/-! ## Windows -/

theorem exists_latest {rows : List (Fin n)} (some : rows ≠ []) (number : Fin n → Nat) :
    ∃ last ∈ rows, ∀ j ∈ rows, number j ≤ number last := by
  obtain ⟨last, listed, most⟩ := rows.toFinset.exists_max_image number
    (toFinset_nonempty_iff rows |>.mpr some)
  exact ⟨last, mem_toFinset.mp listed, fun j there => most j (mem_toFinset.mpr there)⟩

theorem Admissions.hardStops (sound : Admissions ceilings sends state) : HardStops ceilings sends state := by
  constructor
  · intro window key cap end' capped
    by_cases some : windowMessages sends state window key end' = []
    · rw [some, windowSize]
      split <;> exact Nat.zero_le _
    have inside {j : Fin n} (listed : j ∈ windowMessages sends state window key end') :
        (sends j).key window = Option.some key ∧ (state.messages j).phase.counts = true ∧
          ∃ sentAt, (state.messages j).sentAt = Option.some sentAt ∧ end' - window.windowMs ≤ sentAt ∧
            sentAt ≤ end' := by
      simpa [windowMessages, Option.any_eq_true, and_assoc] using listed
    -- The message that was admitted last counted all the others.
    obtain ⟨last, listed, latest⟩ := exists_latest some fun j => (state.messages j).number
    obtain ⟨keyed, counts, sentAt, said, _, until'⟩ := inside listed
    have capped' : ceilings.capOf (sends last) window = Option.some cap := by
      rw [FixedCeilings.capOf, keyed]
      exact capped
    have admitted : (state.messages last).admittedAt ≤ sentAt := by
      cases unsettled : (state.messages last).phase.unsettled with
      | true =>
        have fresh := (sound.row last).fresh unsettled
        rw [said] at fresh
        exact (Option.some.inj fresh).ge
      | false =>
        have settled : (state.messages last).phase = .settled := by
          cases phase : (state.messages last).phase with
          | settled => rfl
          | sending | sent => rw [phase] at unsettled; cases unsettled
          | waiting | admitting | failed | released | refused => rw [phase] at counts; cases counts
        obtain ⟨other, told, before⟩ := (sound.row last).settled settled
        rw [said] at told
        exact Option.some.inj told ▸ before
    refine (windowSize_le_of_subset ((nodup_finRange n).filter _) fun j there => ?_).trans
      (sound.checked last window cap counts capped')
    by_cases same : j = last
    · exact same ▸ mem_cons_self
    obtain ⟨keyed', counts', sentAt', said', since, _⟩ := inside there
    have earlier : (state.messages j).number < (state.messages last).number :=
      lt_of_le_of_ne (latest j there) fun equal => same (sound.distinct j last counts' counts equal)
    rcases sound.covered last j window counts counts' (by rw [capped']; rfl) (keyed'.trans keyed.symm) earlier with
      seen | aged
    · exact mem_cons_of_mem _ seen
    · have left := aged.2 sentAt' said'
      omega
  · intro i released
    exact (sound.row i).idle (by rw [released]; rfl) (by rw [released]; nofun)

theorem start_sound (clock : Int) : Admissions ceilings sends (emailStart clock) where
  row _ := ⟨fun _ _ => rfl, nofun, nofun, nofun, nofun⟩
  below := nofun
  distinct := nofun
  checked := nofun
  covered := nofun
  clock := nofun
  reading := nofun
  exclusive := nofun

end

/-- Where no send is admitted beside one that has been unsettled for longer than a window that counts both, every
ceiling is a hard stop at every moment. -/
theorem hardStops_of_noneStale {n : Nat} (ceilings : FixedCeilings) (sends : Fin n → EmailSend) (clock : Int)
    (events : List (EmailEvent n))
    (fresh : Along (stepEmail ceilings sends) (NoneStale ceilings sends) (emailStart clock) events) :
    HardStops ceilings sends (run (stepEmail ceilings sends) (emailStart clock) events) := by
  have kept (state : EmailState n) (event : EmailEvent n) (sound : Admissions ceilings sends state)
      (fresh : NoneStale ceilings sends state event) :
      Admissions ceilings sends (stepEmail ceilings sends state event) := step_sound sound event fresh
  exact (run_along kept (start_sound clock) fresh).hardStops

/-! ## A send that waits, and a send that is slow -/

def noCapitals : LowerUnits where
  lower text := text
  lower_nil := rfl
  lower_ne_nil := id
  lower_lower _ := rfl
  lower_append _ _ _ _ := rfl
  boundary_of_mem _ := id

/-- One send of Agent `a` in a minute. -/
def oneAMinute : FixedCeilings where
  letters := noCapitals
  recipientsPerMessage _ := none
  cap window key := if window = .inboxBurst ∧ key = "a" then some 1 else none

def twoSends (_ : Fin 2) : EmailSend where
  userId := "u"
  agentId := some "a"
  recipients := [Utf16.ofString "ada@x.io"]

def admitEvents (i : Fin 2) : List (EmailEvent 2) :=
  [.lock i, .read i .workspaceDaily, .read i .workspaceMonthly, .read i .inboxBurst, .read i .inboxDaily,
    .read i .inboxRecipients, .decide i]

/-- The second send is refused in the minute of the first, whose provider takes half of it. -/
def quickEvents : List (EmailEvent 2) :=
  admitEvents 0 ++ [.tick 30000, .succeed 0, .settle 0, .tick 40000] ++ admitEvents 1

/-- The second send is admitted once the first, still on its way, is a minute old; the first settles beside it. -/
def slowEvents : List (EmailEvent 2) :=
  admitEvents 0 ++ [.tick 61000] ++ admitEvents 1 ++ [.succeed 1, .settle 1, .succeed 0, .settle 0]

def sentTimes (events : List (EmailEvent 2)) : List (Option Int) :=
  (List.finRange 2).map fun i => ((run (stepEmail oneAMinute twoSends) (emailStart 0) events).messages i).sentAt

theorem quick_sends : sentTimes quickEvents = [some 30000, none] ∧
    HardStops oneAMinute twoSends (run (stepEmail oneAMinute twoSends) (emailStart 0) quickEvents) := by
  have fresh : Along (stepEmail oneAMinute twoSends) (NoneStale oneAMinute twoSends) (emailStart 0) quickEvents := by
    decide
  exact ⟨by decide, hardStops_of_noneStale oneAMinute twoSends 0 quickEvents fresh⟩

theorem slow_send : ¬ HardStops oneAMinute twoSends (run (stepEmail oneAMinute twoSends) (emailStart 0) slowEvents) := by
  intro stops
  have one := stops.within .inboxBurst "a" 1 61000 rfl
  have two : windowSize twoSends oneAMinute.letters .inboxBurst (windowMessages twoSends
      (run (stepEmail oneAMinute twoSends) (emailStart 0) slowEvents) .inboxBurst "a" 61000) = 2 := by
    decide
  omega

end EverWorks.Email
