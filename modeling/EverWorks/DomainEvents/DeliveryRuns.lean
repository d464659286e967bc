import EverWorks.DomainEvents.DeliveryInvariant

/-!
# Delivery at least once and in order

In every order of the calls a tenant's event after the anchor is delivered, ahead of the tenant's position, or given
up after the maximum of failures on it, as long as no event is passed over by a pass whose cursor counts failures.
-/

namespace EverWorks.DomainEvents
open Lib Program List Option OrderedMap List

/-! ## Conditions on a run -/

def Retained (store : DeliveryStore) : DeliveryCall → Prop
  | .findEvents after => store.purgedTo ≤ after
  | _ => True

instance (store : DeliveryStore) (request : DeliveryCall) : Decidable (Retained store request) := by
  unfold Retained
  split <;> infer_instance

def NextRetained (pool : DeliveryPool) (place : Nat) : Prop :=
  match pool.programs[place]? with
  | some (.call request _) => Retained pool.state request
  | _ => True

instance (pool : DeliveryPool) (place : Nat) : Decidable (NextRetained pool place) := by
  unfold NextRetained
  split <;> infer_instance

def Unfailed : DeliveryCall → Prop
  | .passOver _ failures => failures = 0
  | _ => True

instance (request : DeliveryCall) : Decidable (Unfailed request) := by
  unfold Unfailed
  split <;> infer_instance

def NextUnfailed (pool : DeliveryPool) (place : Nat) : Prop :=
  match pool.programs[place]? with
  | some (.call request _) => Unfailed request
  | _ => True

instance (pool : DeliveryPool) (place : Nat) : Decidable (NextUnfailed pool place) := by
  unfold NextUnfailed
  split <;> infer_instance

/-! ## Each call -/

def serveUnfailed : (request : DeliveryCall) → DeliveryStore → DeliveryReply request × DeliveryStore
  | .findEvents after, store => ((store.dispatched.filter (after < ·.seq)).take PLUGIN_BATCH, store)
  | .passOver seq _, store => (0, store.note (.passedOver seq))
  | request, store => serveDelivery request store

variable {request : DeliveryCall}

theorem serve_unfailed {store : DeliveryStore} (retained : Retained store request)
    (unfailed : Unfailed request) : serveUnfailed request store = serveDelivery request store := by
  cases request with
  | findEvents after =>
    have same : store.dispatched.filter (fun event => after < event.seq && store.purgedTo < event.seq) =
        store.dispatched.filter (after < ·.seq) := by
      refine filter_congr fun event _ => ?_
      have retained : store.purgedTo ≤ after := retained
      by_cases above : after < event.seq
      · simp [above, retained.trans_lt above]
      · simp [above]
    rw [serveUnfailed, serveDelivery, DeliveryStore.eventsAfter, same]
  | passOver seq failures =>
    obtain rfl : failures = 0 := unfailed
    rfl
  | _ => rfl

def Within (before after : DeliveryStore) : Prop := Sound before → Sound after ∧ Later before after

theorem Within.refl (store : DeliveryStore) : Within store store := fun sound => ⟨sound, .refl store⟩

theorem Within.trans {a b c : DeliveryStore} (first : Within a b) (second : Within b c) : Within a c := by
  intro sound
  obtain ⟨sound', later⟩ := first sound
  obtain ⟨sound'', later'⟩ := second sound'
  exact ⟨sound'', later.trans later'⟩

/-- Alone and beside others within the invariant, the program stays within it and ends as asked. -/
abbrev Safe {α : Type} (program : DeliveryProgram α) (post : α → DeliveryStore → Prop) (store : DeliveryStore) : Prop :=
  program.Holds serveUnfailed Within Within post store

section
variable {store : DeliveryStore} {tenantId : Nat} {cursor : PluginEventCursor} {row : DomainEvent}

theorem safe_track {α : Type} {program : DeliveryProgram α} {post : α → DeliveryStore → Prop} (sound : Sound store)
    (safe : Safe program post store) :
    Safe program (fun value now => (Sound now ∧ Later store now) ∧ post value now) store := by
  refine (safe.track (fun _ _ step => step) (fun _ _ step => step) (fun _ _ _ => Within.trans) (.refl store)).weaken ?_
  exact fun value now both => ⟨both.1 sound, both.2⟩

theorem safe_read {α : Type} {f : DeliveryReply request → DeliveryProgram α}
    {post : α → DeliveryStore → Prop} (sound : Sound store) (reads : ∀ now, (serveUnfailed request now).2 = now)
    (rest : ∀ now, Sound now → Later store now → Safe (f (serveUnfailed request now).1) post now) :
    Safe (Program.ask request >>= f) post store := by
  refine .ask fun now step => ?_
  rw [reads now]
  exact ⟨.refl now, rest now (step sound).1 (step sound).2⟩

theorem safe_note {α : Type} (entry : DeliveryEntry)
    {f : DeliveryReply request → DeliveryProgram α} {post : α → DeliveryStore → Prop} (sound : Sound store)
    (notes : ∀ now, (serveUnfailed request now).2 = now.note entry)
    (fits : ∀ now, Sound now → Later store now → Fits now now.log entry)
    (rest : ∀ now, Sound now → Later store now → Sound (now.note entry) → Later store (now.note entry) →
      Safe (f (serveUnfailed request now).1) post (now.note entry)) :
    Safe (Program.ask request >>= f) post store := by
  refine .ask fun now step => ?_
  obtain ⟨sound', later⟩ := step sound
  have noted := sound'.note (fits now sound' later)
  rw [notes now]
  exact ⟨fun _ => ⟨noted, .note now entry⟩, rest now sound' later noted (later.trans (.note now entry))⟩

theorem within_insertTenant (standing : Standing store tenantId cursor) :
    Within store (store.insertCursor (.tenant tenantId) cursor) := by
  intro sound
  have tenant : CursorOwner.tenant tenantId ≠ .anchor := nofun
  rw [DeliveryStore.insertCursor, if_neg tenant]
  split
  · exact ⟨sound, .refl store⟩
  · rename_i absent
    refine ⟨sound.setTenant standing, .setCursor (fun old found => ?_) le_rfl⟩
    rw [has, found] at absent
    exact absurd rfl absent

theorem within_compareTenant {readSeq : Nat} (standing : Standing store tenantId cursor)
    (forward : readSeq ≤ cursor.lastSeq) :
    Within store (store.compareAndSetCursor (.tenant tenantId) cursor readSeq) := by
  intro sound
  rw [DeliveryStore.compareAndSetCursor]
  split
  · rename_i stored
    refine ⟨sound.setTenant standing, .setCursor (fun old found => ?_) le_rfl⟩
    rw [found] at stored
    rw [← some.inj stored] at forward
    exact forward
  · exact ⟨sound, .refl store⟩

theorem within_insertAnchor {lastSeq : Nat} (reached : lastSeq ≤ store.dispatched.length) :
    Within store (store.insertCursor .anchor { lastSeq }) := by
  intro sound
  rw [DeliveryStore.insertCursor, if_pos rfl]
  split
  · exact ⟨sound, .refl store⟩
  · rename_i absent
    have unseen : store.cursors.get .anchor = none := by
      rw [has] at absent
      exact not_isSome_iff_eq_none.mp absent
    have le : store.origin ≤ lastSeq := by
      rw [sound.unseen unseen]
      exact Nat.zero_le _
    refine ⟨sound.setAnchor le le_rfl reached fun event _ _ _ after le => ?_, .setCursor (fun old found => ?_) le⟩
    · exact absurd le (Nat.not_le_of_lt after)
    · rw [unseen] at found
      cases found

theorem within_compareAnchor {readSeq : Nat} (reached : cursor.lastSeq ≤ store.dispatched.length)
    (forward : readSeq ≤ cursor.lastSeq)
    (own : ∀ event ∈ store.dispatched, ∀ tenantId, event.tenantId = some tenantId → store.origin < event.seq →
      event.seq ≤ cursor.lastSeq → (store.cursors.get (.tenant tenantId)).isSome) :
    Within store (store.compareAndSetCursor .anchor cursor readSeq) := by
  intro sound
  rw [DeliveryStore.compareAndSetCursor]
  split
  · rename_i stored
    obtain ⟨anchor, found, same⟩ := map_eq_some_iff.mp stored
    have first := (sound.anchor anchor found).1
    refine ⟨sound.setAnchor le_rfl (first.trans (same.trans_le forward)) reached own,
      .setCursor (fun old there => ?_) le_rfl⟩
    obtain rfl := some.inj (found.symm.trans there)
    exact same.trans_le forward
  · exact ⟨sound, .refl store⟩

/-! ## A call of the plugin -/

theorem done_answered {log : List DeliveryEntry} (seq : Nat) : Done (.answered seq true :: log) seq :=
  .inl mem_cons_self

theorem failed_again {log : List DeliveryEntry} {seq failures : Nat} (counted : failures ≤ failedAttempts log seq) :
    failures + 1 ≤ failedAttempts (.answered seq false :: log) seq := by
  rw [failedAttempts, count_cons_self]
  exact Nat.succ_le_succ counted

variable (answers : PassAnswers)

theorem safe_callPlugin (sound : Sound store) (next : Next store row tenantId cursor) :
    Safe (callPlugin answers row.seq cursor) (fun result now => Standing now tenantId result.1 ∧
      cursor.lastSeq ≤ result.1.lastSeq ∧ (result.2 = false → row.seq ≤ result.1.lastSeq)) store := by
  refine safe_note (.attempted row.seq _) sound (fun _ => rfl)
    (fun now sound later => (next.later later sound.numbered).attempted _) fun _ _ _ sound later => ?_
  replace next := next.later later sound.numbered
  refine safe_note (.answered row.seq (answers.resolves row.seq)) sound (fun _ => rfl)
    (fun _ _ _ => trivial) fun before sound later noted later' => ?_
  have counted := (next.later later sound.numbered).failures_le
  replace next := next.later later' noted.numbered
  refine .ite (fun ok => ?_) fun failed => ?_
  · rw [ok] at noted next ⊢
    refine fun now step => ?_
    obtain ⟨sound, later⟩ := step noted
    have done := later.done (done_answered row.seq)
    exact ⟨(next.later later sound.numbered).finish sound.numbered done _, next.above.le, fun _ => le_rfl⟩
  rw [Bool.not_eq_true] at failed
  rw [failed] at noted next ⊢
  replace counted := failed_again counted
  refine .ite (fun enough => ?_) fun _ => ?_
  · refine safe_note (.deadLettered row.seq) noted (fun _ => rfl) (fun now sound later => ?_)
      fun now sound later noted later' => ?_
    · exact enough.trans (counted.trans (later.failedAttempts_le row.seq))
    · refine fun now' step => ?_
      obtain ⟨sound, later⟩ := step noted
      have done := later.done (.inr (.inl mem_cons_self))
      exact ⟨(next.later (later'.trans later) sound.numbered).finish sound.numbered done _, next.above.le,
        fun _ => le_rfl⟩
  · refine fun now step => ?_
    obtain ⟨sound, later⟩ := step noted
    exact ⟨(next.later later sound.numbered).fail (counted.trans (later.failedAttempts_le row.seq)), le_rfl, nofun⟩

/-! ## A pass -/

/-- A pass with the rows ahead of it: they are all the events up to each of them, every tenant's cursor stands where
the tenant's examined events are behind it, and a tenant without a cursor has no event at the anchor. -/
structure Walk (store : DeliveryStore) (anchorSeq : Nat) (pass : Pass) (rows : List DomainEvent) : Prop where
  examined : pass.examined ≤ store.dispatched.length
  listed : ∀ row ∈ rows, row ∈ store.dispatched ∧ pass.examined < row.seq
  sorted : rows.Pairwise (·.seq < ·.seq)
  whole : ∀ row ∈ rows, ∀ event ∈ store.dispatched, pass.examined < event.seq → event.seq ≤ row.seq → event ∈ rows
  standing : ∀ tenantId, Standing store tenantId (pass.tracked anchorSeq tenantId).row
  passed : ∀ tenantId, tenantId ∉ pass.blocked → ∀ event ∈ store.dispatched, event.tenantId = some tenantId →
    event.seq ≤ pass.examined → event.seq ≤ (pass.tracked anchorSeq tenantId).row.lastSeq
  read : ∀ tenantId readSeq, (pass.tracked anchorSeq tenantId).readSeq = some readSeq →
    readSeq ≤ (pass.tracked anchorSeq tenantId).row.lastSeq ∧ (store.cursors.get (.tenant tenantId)).isSome
  untracked : ∀ tenantId, pass.byTenant.get tenantId = none → tenantId ∉ pass.blocked ∧
    ∀ event ∈ store.dispatched, event.tenantId = some tenantId → store.origin < event.seq → anchorSeq < event.seq

section
variable {anchorSeq : Nat} {pass : Pass} {rows : List DomainEvent}

theorem Pass.tracked_of_none (absent : pass.byTenant.get tenantId = none) :
    pass.tracked anchorSeq tenantId = { row := { lastSeq := anchorSeq }, readSeq := none } := by
  rw [Pass.tracked, absent]
  rfl

theorem Pass.tracked_track (pass : Pass) (tenantId : Nat) (tracked : TrackedCursor) (other : Nat) :
    (pass.track tenantId tracked).tracked anchorSeq other =
      if other = tenantId then tracked else pass.tracked anchorSeq other := by
  rw [Pass.tracked, Pass.track, get_set]
  split
  · rfl
  · rfl

theorem Pass.track_isSome (pass : Pass) (tenantId : Nat) (tracked : TrackedCursor) :
    ((pass.track tenantId tracked).byTenant.get tenantId).isSome := by
  rw [Pass.track, get_set, if_pos rfl]
  rfl

theorem Walk.later {before after : DeliveryStore} (walk : Walk before anchorSeq pass rows) (later : Later before after)
    (numbered : Numbered after.dispatched) : Walk after anchorSeq pass rows := by
  have within := later.numbered numbered
  refine ⟨walk.examined.trans later.dispatched.length_le, fun row there => ?_, walk.sorted,
    fun row there event listed above le => ?_, fun tenantId => (walk.standing tenantId).later later numbered,
    fun tenantId free event listed owned le => ?_, fun tenantId readSeq found => ?_, fun tenantId absent => ?_⟩
  · exact ⟨later.dispatched.subset (walk.listed row there).1, (walk.listed row there).2⟩
  · have reached := le.trans (within.seq_le (walk.listed row there).1)
    exact walk.whole row there event (numbered.mem_of_le later.dispatched listed reached) above le
  · have reached := le.trans walk.examined
    exact walk.passed tenantId free event (numbered.mem_of_le later.dispatched listed reached) owned le
  · exact ⟨(walk.read tenantId readSeq found).1, later.isSome (walk.read tenantId readSeq found).2⟩
  · refine ⟨(walk.untracked tenantId absent).1, fun event listed owned after => ?_⟩
    rcases later.mem_or_above numbered listed with old | beyond
    · exact (walk.untracked tenantId absent).2 event old owned (later.origin.trans_lt after)
    · have reached := (walk.standing tenantId).reached
      rw [Pass.tracked_of_none absent] at reached
      exact reached.trans_lt beyond

theorem Walk.track (walk : Walk store anchorSeq pass rows) (tracked : TrackedCursor)
    (standing : Standing store tenantId tracked.row) (readSeq : tracked.readSeq = (pass.tracked anchorSeq tenantId).readSeq)
    (forward : (pass.tracked anchorSeq tenantId).row.lastSeq ≤ tracked.row.lastSeq) :
    Walk store anchorSeq (pass.track tenantId tracked) rows := by
  refine ⟨walk.examined, walk.listed, walk.sorted, walk.whole, fun other => ?_, fun other free event listed owned le => ?_,
    fun other seq found => ?_, fun other absent => ?_⟩
  · rw [Pass.tracked_track]
    split
    · rename_i same
      rw [same]
      exact standing
    · exact walk.standing other
  · have passed := walk.passed other free event listed owned le
    rw [Pass.tracked_track]
    split
    · rename_i same
      rw [same] at passed
      exact passed.trans forward
    · exact passed
  · rw [Pass.tracked_track] at found ⊢
    split at found
    · rename_i same
      rw [if_pos same]
      rw [readSeq] at found
      have read := walk.read tenantId seq found
      rw [same]
      exact ⟨read.1.trans forward, read.2⟩
    · rename_i apart
      rw [if_neg apart]
      exact walk.read other seq found
  · rw [Pass.track, get_set] at absent
    split at absent
    · cases absent
    · exact walk.untracked other absent

theorem Walk.skip (walk : Walk store anchorSeq pass (row :: rows)) (numbered : Numbered store.dispatched)
    (behind : ∀ tenantId, row.tenantId = some tenantId → tenantId ∉ pass.blocked →
      row.seq ≤ (pass.tracked anchorSeq tenantId).row.lastSeq) :
    Walk store anchorSeq { pass with examined := row.seq } rows := by
  have above := (walk.listed row mem_cons_self).2
  have sorted := pairwise_cons.mp walk.sorted
  refine ⟨numbered.seq_le (walk.listed row mem_cons_self).1, fun other there => ?_, sorted.2,
    fun other there event listed beyond le => ?_, walk.standing, fun tenantId free event listed owned le => ?_, walk.read,
    walk.untracked⟩
  · exact ⟨(walk.listed other (mem_cons_of_mem _ there)).1, sorted.1 other there⟩
  · have beyond : row.seq < event.seq := beyond
    rcases mem_cons.mp (walk.whole other (mem_cons_of_mem _ there) event listed (above.trans beyond) le) with
      rfl | rest
    · exact absurd beyond (lt_irrefl _)
    · exact rest
  · have le : event.seq ≤ row.seq := le
    by_cases early : event.seq ≤ pass.examined
    · exact walk.passed tenantId free event listed owned early
    · have there := walk.whole row mem_cons_self event listed (Nat.lt_of_not_le early) le
      rcases mem_cons.mp there with rfl | rest
      · exact behind tenantId owned free
      · exact absurd (sorted.1 event rest) (Nat.not_lt_of_le le)

theorem Walk.block (walk : Walk store anchorSeq pass rows) (there : (pass.byTenant.get tenantId).isSome) :
    Walk store anchorSeq { pass with blocked := tenantId :: pass.blocked } rows := by
  refine ⟨walk.examined, walk.listed, walk.sorted, walk.whole, walk.standing,
    fun other free => walk.passed other (fun blocked => free (mem_cons_of_mem _ blocked)), walk.read,
    fun other absent => ⟨fun blocked => ?_, (walk.untracked other absent).2⟩⟩
  rcases mem_cons.mp blocked with rfl | old
  · rw [show pass.byTenant.get other = none from absent] at there
    cases there
  · exact (walk.untracked other absent).1 old

theorem Walk.next (walk : Walk store anchorSeq pass (row :: rows)) (owned : row.tenantId = some tenantId)
    (free : tenantId ∉ pass.blocked) (above : (pass.tracked anchorSeq tenantId).row.lastSeq < row.seq) :
    Next store row tenantId (pass.tracked anchorSeq tenantId).row := by
  refine ⟨(walk.listed row mem_cons_self).1, owned, walk.standing tenantId, above,
    fun event listed its beyond => Nat.le_of_not_lt fun lt => ?_⟩
  by_cases early : event.seq ≤ pass.examined
  · exact absurd (walk.passed tenantId free event listed its early) (Nat.not_le_of_lt beyond)
  · have there := walk.whole row mem_cons_self event listed (Nat.lt_of_not_le early) lt.le
    rcases mem_cons.mp there with rfl | rest
    · exact absurd lt (lt_irrefl _)
    · exact absurd ((pairwise_cons.mp walk.sorted).1 event rest) (Nat.lt_asymm lt)

theorem Walk.stop (walk : Walk store anchorSeq pass rows) : Walk store anchorSeq pass [] :=
  ⟨walk.examined, nofun, .nil, nofun, walk.standing, walk.passed, walk.read, walk.untracked⟩

theorem Walk.cache (walk : Walk store anchorSeq pass rows) (enabledCache : OrderedMap Nat Bool) :
    Walk store anchorSeq { pass with enabledCache } rows :=
  ⟨walk.examined, walk.listed, walk.sorted, walk.whole, walk.standing, walk.passed, walk.read, walk.untracked⟩

theorem safe_isEnabledForTenant (sound : Sound store) (tenantId : Nat) (cache : OrderedMap Nat Bool) :
    Safe (isEnabledForTenant tenantId cache) (fun _ _ => True) store := by
  rw [isEnabledForTenant.eq_def]
  split
  · exact fun _ _ => trivial
  · exact safe_read sound (fun _ => rfl) fun _ _ _ _ _ => trivial

theorem safe_wantedAndEnabled (sound : Sound store) (row : DomainEvent) (tenantId : Nat) (cache : OrderedMap Nat Bool) :
    Safe (wantedAndEnabled row tenantId cache) (fun _ _ => True) store := by
  refine safe_read sound (fun _ => rfl) fun now sound _ => ?_
  exact .ite (fun _ => safe_isEnabledForTenant sound tenantId cache) fun _ _ _ => trivial

def WalkOn (anchorSeq : Nat) (rows : List DomainEvent) (result : Pass × Bool) (now : DeliveryStore) : Prop :=
  Walk now anchorSeq result.1 (if result.2 then [] else rows)

variable {tracked : TrackedCursor}

theorem Walk.past (walk : Walk store anchorSeq pass (row :: rows)) (numbered : Numbered store.dispatched)
    (owned : row.tenantId = some tenantId) (standing : Standing store tenantId tracked.row)
    (readSeq : tracked.readSeq = (pass.tracked anchorSeq tenantId).readSeq)
    (forward : (pass.tracked anchorSeq tenantId).row.lastSeq ≤ tracked.row.lastSeq)
    (past : row.seq ≤ tracked.row.lastSeq) :
    Walk store anchorSeq { pass.track tenantId tracked with examined := row.seq } rows := by
  refine (walk.track _ standing readSeq forward).skip numbered fun other its _ => ?_
  obtain rfl := some.inj (owned.symm.trans its)
  rw [Pass.tracked_track, if_pos rfl]
  exact past

theorem safe_deliverRow (sound : Sound store) (walk : Walk store anchorSeq pass (row :: rows))
    (owned : row.tenantId = some tenantId) (free : tenantId ∉ pass.blocked)
    (above : (pass.tracked anchorSeq tenantId).row.lastSeq < row.seq) :
    Safe (deliverRow answers row tenantId (pass.tracked anchorSeq tenantId) pass) (WalkOn anchorSeq rows) store := by
  refine .bind Within.refl (safe_track sound (safe_wantedAndEnabled sound row tenantId _)) ?_
  rintro ⟨deliver, enabledCache⟩ now ⟨⟨sound, later⟩, -⟩
  replace walk := (walk.later later sound.numbered).cache enabledCache
  have next := walk.next owned free above
  refine .ite (fun _ => ?_) fun _ => .ite (fun _ => ?_) fun _ => ?_
  · refine safe_note (.passedOver row.seq) sound (fun _ => rfl) (fun _ _ _ => trivial)
      fun _ _ _ sound later => ?_
    intro now step
    obtain ⟨sound', later'⟩ := step sound
    have done := later'.done (.inr (.inr mem_cons_self))
    have ahead := later.trans later'
    exact (walk.later ahead sound'.numbered).past sound'.numbered owned
      ((next.later ahead sound'.numbered).finish sound'.numbered done _) rfl above.le le_rfl
  · intro now step
    obtain ⟨sound, later⟩ := step sound
    exact (walk.later later sound.numbered).stop
  · refine .bind Within.refl (safe_track sound (safe_callPlugin answers sound next)) ?_
    rintro ⟨cursor, isBlocked⟩ called ⟨⟨sound, later⟩, standing, forward, past⟩ now step
    obtain ⟨sound', later'⟩ := step sound
    replace walk := walk.later (later.trans later') sound'.numbered
    replace standing := standing.later later' sound'.numbered
    cases isBlocked with
    | true =>
      have track := walk.track ⟨cursor, _, true⟩ standing rfl forward
      refine (track.block (Pass.track_isSome _ _ _)).skip sound'.numbered fun other its blocked => ?_
      obtain rfl := some.inj (owned.symm.trans its)
      exact absurd mem_cons_self blocked
    | false => exact walk.past sound'.numbered owned standing rfl forward (past rfl)

theorem safe_examineRow (sound : Sound store)
    (walk : Walk store anchorSeq pass (row :: rows)) :
    Safe (examineRow answers anchorSeq row pass) (WalkOn anchorSeq rows) store := by
  have skipped {pass : Pass} (walk : Walk store anchorSeq pass (row :: rows)) (behind : ∀ tenantId,
      row.tenantId = some tenantId → tenantId ∉ pass.blocked →
        row.seq ≤ (pass.tracked anchorSeq tenantId).row.lastSeq) :
      Safe (pure ({ pass with examined := row.seq }, false)) (WalkOn anchorSeq rows) store := by
    intro now step
    obtain ⟨sound, later⟩ := step sound
    exact (walk.later later sound.numbered).skip sound.numbered behind
  rw [examineRow.eq_def]
  split
  · rename_i nobody
    exact skipped walk fun tenantId owned => absurd (nobody.symm.trans owned) nofun
  rename_i tenantId owned
  refine .ite (fun blocked => skipped walk fun other its free => ?_) fun free => ?_
  · obtain rfl := some.inj (owned.symm.trans its)
    exact absurd blocked free
  replace walk := walk.track _ (walk.standing tenantId) rfl le_rfl
  have same : (pass.track tenantId (pass.tracked anchorSeq tenantId)).tracked anchorSeq tenantId =
      pass.tracked anchorSeq tenantId := by
    rw [Pass.tracked_track, if_pos rfl]
  refine .ite (fun above => ?_) fun behind => skipped walk fun other its _ => ?_
  · have safe := safe_deliverRow answers sound walk owned free (by rw [same]; exact above)
    rw [same] at safe
    exact safe
  · obtain rfl := some.inj (owned.symm.trans its)
    rw [same]
    exact Nat.le_of_not_lt behind

theorem safe_examineRows (sound : Sound store) (walk : Walk store anchorSeq pass rows) :
    Safe (examineRows answers anchorSeq rows pass) (fun pass now => Walk now anchorSeq pass []) store := by
  induction rows generalizing pass store with
  | nil =>
    intro now step
    obtain ⟨sound, later⟩ := step sound
    exact walk.later later sound.numbered
  | cons row rest ih =>
    refine .bind Within.refl (safe_track sound (safe_examineRow answers sound walk)) ?_
    rintro ⟨pass, leaseLost⟩ now ⟨⟨sound, -⟩, walk⟩
    refine .ite (fun _ => ?_) fun goesOn => ?_
    · intro now step
      obtain ⟨sound, later⟩ := step sound
      exact (walk.later later sound.numbered).stop
    · have goesOn : leaseLost = false := Bool.not_eq_true _ ▸ goesOn
      subst goesOn
      exact ih sound walk

/-! ## The writes of a pass -/

structure Writable (store : DeliveryStore) (tenantId : Nat) (tracked : TrackedCursor) : Prop where
  standing : Standing store tenantId tracked.row
  read : ∀ readSeq, tracked.readSeq = some readSeq →
    readSeq ≤ tracked.row.lastSeq ∧ (store.cursors.get (.tenant tenantId)).isSome

theorem Writable.later {before after : DeliveryStore}
    (writable : Writable before tenantId tracked) (later : Later before after) (numbered : Numbered after.dispatched) :
    Writable after tenantId tracked :=
  ⟨writable.standing.later later numbered, fun readSeq found =>
    ⟨(writable.read readSeq found).1, later.isSome (writable.read readSeq found).2⟩⟩

theorem insertCursor_isSome (store : DeliveryStore) (owner : CursorOwner) (cursor : PluginEventCursor) :
    ((store.insertCursor owner cursor).cursors.get owner).isSome := by
  rw [DeliveryStore.insertCursor]
  split
  · rename_i there
    exact there
  · rw [get_set, if_pos rfl]
    rfl

theorem safe_writeCursor (sound : Sound store) (writable : Writable store tenantId tracked) :
    Safe (writeCursor tenantId tracked) (fun _ now => (now.cursors.get (.tenant tenantId)).isSome) store := by
  have kept {now : DeliveryStore} {readSeq : Nat} (found : tracked.readSeq = some readSeq) (later : Later store now) :
      (now.cursors.get (.tenant tenantId)).isSome := later.isSome (writable.read readSeq found).2
  refine .ite (fun _ => ?_) fun unchanged now step => ?_
  · split
    · intro now step
      obtain ⟨sound', later⟩ := step sound
      have within := within_insertTenant (writable.standing.later later sound'.numbered)
      refine ⟨within, fun last step' => ?_⟩
      obtain ⟨sound'', later'⟩ := within sound'
      exact (step' sound'').2.isSome (insertCursor_isSome now _ _)
    · rename_i readSeq found
      intro now step
      obtain ⟨sound', later⟩ := step sound
      have within := within_compareTenant (writable.standing.later later sound'.numbered) (writable.read readSeq found).1
      refine ⟨within, fun last step' => ?_⟩
      obtain ⟨sound'', later'⟩ := within sound'
      exact kept found ((later.trans later').trans (step' sound'').2)
  · obtain ⟨readSeq, found⟩ : ∃ readSeq, tracked.readSeq = some readSeq := by
      cases read : tracked.readSeq with
      | none => exact absurd (by rw [TrackedCursor.changed, read]; rfl) unchanged
      | some readSeq => exact ⟨readSeq, rfl⟩
    exact kept found (step sound).2

theorem safe_writeCursors {entries : List (Nat × TrackedCursor)} (sound : Sound store)
    (writable : ∀ entry ∈ entries, Writable store entry.1 entry.2) :
    Safe (writeCursors entries) (fun _ now => ∀ entry ∈ entries, (now.cursors.get (.tenant entry.1)).isSome) store := by
  induction entries generalizing store with
  | nil => exact fun _ _ => nofun
  | cons entry rest ih =>
    obtain ⟨tenantId, tracked⟩ := entry
    refine .bind Within.refl (safe_track sound (safe_writeCursor sound (writable _ mem_cons_self))) ?_
    rintro - now ⟨⟨sound, later⟩, there⟩
    refine (safe_track sound (ih sound fun entry listed => ?_)).weaken ?_
    · exact (writable entry (mem_cons_of_mem _ listed)).later later sound.numbered
    · rintro - last ⟨⟨sound', later'⟩, others⟩ entry listed
      rcases mem_cons.mp listed with rfl | rest
      · exact later'.isSome there
      · exact others entry rest

theorem Walk.writable (walk : Walk store anchorSeq pass rows)
    (there : pass.moved.get tenantId = some tracked) : Writable store tenantId tracked := by
  rw [Pass.moved, get_mapValues] at there
  obtain ⟨before, found, rfl⟩ := map_eq_some_iff.mp there
  have same : pass.tracked anchorSeq tenantId = before := by
    rw [Pass.tracked, found]
    rfl
  have standing := same ▸ walk.standing tenantId
  have read := same ▸ walk.read tenantId
  split
  · exact ⟨standing, read⟩
  rename_i free
  have passed := same ▸ walk.passed tenantId free
  split
  · rename_i behind
    refine ⟨⟨walk.examined, fun event listed owned after le => ?_, ?_⟩, fun readSeq given => ?_⟩
    · exact standing.covered event listed owned after (passed event listed owned le)
    · refine standing.failures.imp_right fun ⟨next, listed, owned, above, least, counted⟩ => ?_
      have beyond : pass.examined < next.seq := by
        by_contra within
        exact absurd (passed next listed owned (Nat.le_of_not_lt within)) (Nat.not_le_of_lt above)
      exact ⟨next, listed, owned, beyond, fun event there its le => least event there its (behind.trans le), counted⟩
    · exact ⟨(read readSeq given).1.trans behind.le, (read readSeq given).2⟩
  · exact ⟨standing, read⟩

theorem safe_deliverEvents {anchor : PluginEventCursor} (sound : Sound store)
    (walk : Walk store anchor.lastSeq pass rows) :
    Safe (deliverEvents answers anchor pass rows) (fun _ _ => True) store := by
  refine .bind Within.refl (safe_track sound (safe_examineRows answers sound walk)) ?_
  rintro pass examined ⟨⟨sound, -⟩, walk⟩
  refine .bind Within.refl (safe_track sound (safe_writeCursors sound fun entry listed => ?_)) ?_
  · exact walk.writable (get_eq_some.mpr listed)
  rintro - written ⟨⟨sound', later⟩, there⟩
  refine .ite (fun further now step => ?_) fun _ _ _ => trivial
  obtain ⟨sound'', later'⟩ := step sound'
  replace walk := walk.later (later.trans later') sound''.numbered
  refine ⟨within_compareAnchor walk.examined further.le fun event listed tenantId owned after le => ?_,
    fun _ _ => trivial⟩
  cases found : pass.byTenant.get tenantId with
  | none =>
    -- A tenant without a cursor of its own has no event between the anchor and where the pass came.
    obtain ⟨free, beyond⟩ := walk.untracked tenantId found
    have passed := walk.passed tenantId free event listed owned le
    rw [Pass.tracked_of_none found] at passed
    exact absurd (beyond event listed owned after) (Nat.not_lt_of_le passed)
  | some tracked =>
    have moved : ∃ tracked, pass.moved.get tenantId = some tracked := by
      rw [Pass.moved, get_mapValues, found]
      exact ⟨_, rfl⟩
    obtain ⟨tracked, moved⟩ := moved
    exact later'.isSome (there _ (get_eq_some.mp moved))

/-! ## The start of a pass -/

theorem get_trackedCursors (cursors : OrderedMap CursorOwner PluginEventCursor) (tenantId : Nat) :
    (trackedCursors cursors).get tenantId =
      (cursors.get (.tenant tenantId)).map fun cursor => { row := cursor, readSeq := some cursor.lastSeq } := by
  refine Option.ext fun tracked => ?_
  simp only [get_eq_some, map_eq_some_iff, trackedCursors, mem_filterMap, Prod.mk.injEq,
    Prod.exists]
  constructor
  · rintro ⟨owner, cursor, listed, id, named, rfl, rfl⟩
    cases owner with
    | anchor => cases named
    | tenant other =>
      obtain rfl := some.inj named
      exact ⟨cursor, listed, rfl⟩
  · rintro ⟨cursor, listed, rfl⟩
    exact ⟨.tenant tenantId, cursor, listed, tenantId, rfl, rfl, rfl⟩

theorem foldl_min_le (seqs : List Nat) (first : Nat) :
    seqs.foldl min first ≤ first ∧ ∀ seq ∈ seqs, seqs.foldl min first ≤ seq := by
  induction seqs generalizing first with
  | nil => exact ⟨le_rfl, nofun⟩
  | cons head rest ih =>
    obtain ⟨all, each⟩ := ih (min first head)
    refine ⟨all.trans (Nat.min_le_left _ _), fun seq listed => ?_⟩
    rcases mem_cons.mp listed with rfl | later
    · exact all.trans (Nat.min_le_right _ _)
    · exact each seq later

theorem walk_start (sound : Sound store) {anchor : PluginEventCursor} (found : store.cursors.get .anchor = some anchor) :
    Walk store anchor.lastSeq { byTenant := trackedCursors store.cursors,
                                examined := scanStart anchor.lastSeq (trackedCursors store.cursors) } [] := by
  obtain ⟨-, reached, own⟩ := sound.anchor anchor found
  have slowest := foldl_min_le ((trackedCursors store.cursors).values.filterMap (·.readSeq)) anchor.lastSeq
  let pass : Pass :=
    { byTenant := trackedCursors store.cursors
      examined := scanStart anchor.lastSeq (trackedCursors store.cursors) }
  have tracked (tenantId : Nat) :
      (∃ cursor, store.cursors.get (.tenant tenantId) = some cursor ∧
        pass.tracked anchor.lastSeq tenantId = { row := cursor, readSeq := some cursor.lastSeq }) ∨
      (store.cursors.get (.tenant tenantId) = none ∧
        pass.tracked anchor.lastSeq tenantId = { row := { lastSeq := anchor.lastSeq }, readSeq := none }) := by
    rw [Pass.tracked, get_trackedCursors]
    cases store.cursors.get (.tenant tenantId) with
    | none => exact .inr ⟨rfl, rfl⟩
    | some cursor => exact .inl ⟨cursor, rfl, rfl⟩
  change Walk store anchor.lastSeq pass []
  refine ⟨slowest.1.trans reached, nofun, .nil, nofun, fun tenantId => ?_, fun tenantId _ event listed owned le => ?_,
    fun tenantId readSeq given => ?_, fun tenantId absent => ⟨nofun, fun event listed owned after => ?_⟩⟩
  · rcases tracked tenantId with ⟨cursor, there, same⟩ | ⟨absent, same⟩
    · rw [same]
      exact sound.tenants tenantId cursor there
    · rw [same]
      refine ⟨reached, fun event listed owned after le => ?_, .inl rfl⟩
      have some := own event listed tenantId owned after le
      rw [absent] at some
      cases some
  · refine le.trans ?_
    rcases tracked tenantId with ⟨cursor, there, same⟩ | ⟨absent, same⟩
    · rw [same]
      have listed : { row := cursor, readSeq := some cursor.lastSeq } ∈ (trackedCursors store.cursors).values := by
        rw [mem_values]
        exact ⟨tenantId, by rw [get_trackedCursors, there, map_some]⟩
      exact slowest.2 cursor.lastSeq (mem_filterMap.mpr ⟨_, listed, rfl⟩)
    · rw [same]
      exact slowest.1
  · rcases tracked tenantId with ⟨cursor, there, same⟩ | ⟨absent, same⟩
    · rw [same] at given ⊢
      obtain rfl := some.inj given
      exact ⟨le_rfl, there ▸ rfl⟩
    · rw [same] at given
      cases given
  · have absent : (trackedCursors store.cursors).get tenantId = none := absent
    rw [get_trackedCursors, map_eq_none_iff] at absent
    refine Nat.lt_of_not_le fun le => ?_
    have some := own event listed tenantId owned after le
    rw [absent] at some
    cases some

theorem Walk.batch (walk : Walk store anchorSeq pass []) (numbered : Numbered store.dispatched) (count : Nat) :
    Walk store anchorSeq pass ((store.dispatched.filter (pass.examined < ·.seq)).take count) := by
  have sorted := numbered.pairwise.filter (pass.examined < ·.seq)
  refine ⟨walk.examined, fun row there => ?_, sorted.sublist (take_sublist _ _),
    fun row there event listed above le => ?_, walk.standing, walk.passed, walk.read, walk.untracked⟩
  · have both := mem_filter.mp (mem_of_mem_take there)
    exact ⟨both.1, of_decide_eq_true both.2⟩
  · have listed : event ∈ store.dispatched.filter (pass.examined < ·.seq) :=
      mem_filter.mpr ⟨listed, decide_eq_true above⟩
    rw [← take_append_drop count (store.dispatched.filter _)] at sorted listed
    rcases mem_append.mp listed with inside | beyond
    · exact inside
    · exact absurd ((pairwise_append.mp sorted).2.2 row there event beyond) (Nat.not_lt_of_le le)

theorem safe_deliverFor (sound : Sound store) :
    Safe (deliverFor answers) (fun _ _ => True) store := by
  refine safe_read sound (fun _ => rfl) fun first sound _ => ?_
  split
  · refine safe_read sound (fun _ => rfl) fun second sound _ now step => ?_
    refine ⟨within_insertAnchor (step sound).2.dispatched.length_le, fun _ _ => trivial⟩
  · rename_i anchor found
    have walk := walk_start sound found
    refine safe_read sound (fun _ => rfl) fun second sound later => ?_
    refine .ite (fun _ _ _ => trivial) fun _ => ?_
    exact safe_deliverEvents answers sound ((walk.later later sound.numbered).batch sound.numbered PLUGIN_BATCH)

theorem safe_run (job : DeliveryJob) (sound : Sound store) : Safe job.run (fun _ _ => True) store := by
  have frame {now after : DeliveryStore} (same : after.dispatched = now.dispatched) (log : after.log = now.log)
      (cursors : after.cursors = now.cursors) (origin : after.origin = now.origin) : Within now after := by
    cases now
    cases after
    subst same log cursors origin
    exact fun sound => ⟨⟨sound.numbered, sound.entries, sound.unseen, sound.anchor, fun tenantId cursor found =>
      have standing := sound.tenants tenantId cursor found
      ⟨standing.reached, standing.covered, standing.failures⟩⟩, ⟨prefix_rfl, suffix_rfl, le_rfl, .refl _⟩⟩
  cases job with
  | pass answers => exact safe_deliverFor answers sound
  | dispatch tenantId type =>
    exact fun now _ => ⟨fun sound => ⟨sound.dispatch tenantId type, .dispatch now tenantId type⟩, fun _ _ => trivial⟩
  | subscribe patterns => exact fun now _ => ⟨frame rfl rfl rfl rfl, fun _ _ => trivial⟩
  | enable tenantIds => exact fun now _ => ⟨frame rfl rfl rfl rfl, fun _ _ => trivial⟩
  | purge upTo => exact fun now _ => ⟨frame rfl rfl rfl rfl, fun _ _ => trivial⟩

end

end

/-! ## Runs -/

theorem run_deliveries {pool : DeliveryPool} {schedule : List Nat}
    (inStep : Pool.InStep serveUnfailed (fun _ => Within) (fun _ => Within) pool) (sound : Sound pool.state)
    (retained : Along (Pool.step serveDelivery Empty.elim) NextRetained pool schedule)
    (unfailed : Along (Pool.step serveDelivery Empty.elim) NextUnfailed pool schedule) :
    let ran := run (Pool.step serveDelivery Empty.elim) pool schedule
    Pool.InStep serveUnfailed (fun _ => Within) (fun _ => Within) ran ∧ Sound ran.state ∧ Later pool.state ran.state := by
  have same : run (Pool.step serveUnfailed Empty.elim) pool schedule =
      run (Pool.step serveDelivery Empty.elim) pool schedule := by
    refine Pool.run_congr (along_mono (fun pool place both request rest found => ?_) (along_and retained unfailed))
    rw [NextRetained, NextUnfailed, found] at both
    exact serve_unfailed both.1 both.2
  have keeps : ∀ place ∈ schedule, ∀ before after : DeliveryStore, Sound before ∧ Later pool.state before →
      Within before after → Sound after ∧ Later pool.state after :=
    fun _ _ _ _ holds step => ⟨(step holds.1).1, holds.2.trans (step holds.1).2⟩
  have ran : Pool.InStep serveUnfailed (fun _ => Within) (fun _ => Within)
      (run (Pool.step serveUnfailed Empty.elim) pool schedule) ∧
      Sound (run (Pool.step serveUnfailed Empty.elim) pool schedule).state ∧
      Later pool.state (run (Pool.step serveUnfailed Empty.elim) pool schedule).state :=
    Pool.run_inStep (fun _ => Within.refl) (fun _ _ _ _ => Within.trans) (fun _ _ _ _ _ step => step) keeps inStep
      ⟨sound, .refl pool.state⟩
  rw [same] at ran
  exact ran

theorem sound_start : Sound {} where
  numbered _ _ := nofun
  entries entry older isSuffix := by cases suffix_nil.mp isSuffix
  unseen _ := rfl
  anchor _ := nofun
  tenants _ _ := nofun

/-- Where no event is purged above a position that a pass reads from and none is passed over by a cursor that counts
failures, delivery is at least once and in order, and cursors never move backwards. -/
theorem atLeastOnce_of_unfailed (jobs : List DeliveryJob) (schedule : List Nat)
    (retained : Along (Pool.step serveDelivery Empty.elim) NextRetained (deliveryPool jobs) schedule)
    (unfailed : Along (Pool.step serveDelivery Empty.elim) NextUnfailed (deliveryPool jobs) schedule) :
    AtLeastOnce (afterDelivery jobs schedule) ∧ ∀ first rest, first ++ rest = schedule →
      NeverBack (afterDelivery jobs first) (afterDelivery jobs schedule) := by
  have start : Pool.InStep serveUnfailed (fun _ => Within) (fun _ => Within) (deliveryPool jobs) := by
    intro place program there
    obtain ⟨job, _, rfl⟩ := mem_map.mp (mem_of_getElem? there)
    exact safe_run job sound_start
  refine ⟨(run_deliveries start sound_start retained unfailed).2.1.atLeastOnce, ?_⟩
  rintro first rest rfl
  rw [along_append] at retained unfailed
  obtain ⟨inStep, sound, -⟩ := run_deliveries start sound_start retained.1 unfailed.1
  have later := (run_deliveries inStep sound retained.2 unfailed.2).2.2
  rw [← run_append] at later
  exact later.cursors

/-! ## Failures of another event -/

def leading (resolves : Bool) : PassAnswers := ⟨fun _ => true, fun _ => resolves⟩

/-- The plugin is seen, two events of a tenant are dispatched, and the first fails at nine passes. -/
def failingJobs : List DeliveryJob :=
  [.subscribe ["*"], .enable [7], .pass (leading true), .dispatch (some 7) "task.created",
    .dispatch (some 7) "agent.created"] ++ replicate 9 (.pass (leading false))

def failingSchedule : List Nat :=
  [0, 1, 2, 2, 2, 3, 4] ++ ((range 9).map fun pass => replicate 8 (pass + 5)).flatten

/-- The tenth pass calls the plugin for the first event once more, and for the second. -/
theorem failing_recovers :
    let jobs := failingJobs ++ [.pass (leading true)]
    let schedule := failingSchedule ++ replicate 12 14
    (afterDelivery jobs schedule).position 7 = some 2 ∧ AtLeastOnce (afterDelivery jobs schedule) := by
  intro jobs schedule
  have retained : Along (Pool.step serveDelivery Empty.elim) NextRetained (deliveryPool jobs) schedule := by
    decide +kernel
  have unfailed : Along (Pool.step serveDelivery Empty.elim) NextUnfailed (deliveryPool jobs) schedule := by
    decide +kernel
  exact ⟨by decide +kernel, (atLeastOnce_of_unfailed jobs schedule retained unfailed).1⟩

/-- Nine calls for the first event fail, the plugin unsubscribes from its type, and the second event is given up after
its first failure. -/
theorem failures_carried_over :
    let jobs := failingJobs ++ [.subscribe ["agent.*"], .pass (leading false)]
    let schedule := failingSchedule ++ [14] ++ replicate 12 15
    Along (Pool.step serveDelivery Empty.elim) NextRetained (deliveryPool jobs) schedule ∧
      failedAttempts (afterDelivery jobs schedule).log 2 = 1 ∧ ¬ AtLeastOnce (afterDelivery jobs schedule) := by
  intro jobs schedule
  have retained : Along (Pool.step serveDelivery Empty.elim) NextRetained (deliveryPool jobs) schedule := by
    decide +kernel
  have failed : failedAttempts (afterDelivery jobs schedule).log 2 = 1 := by
    decide +kernel
  have dispatched : (afterDelivery jobs schedule).dispatched[1]? = some ⟨2, some 7, "agent.created"⟩ := by
    decide +kernel
  have position : (afterDelivery jobs schedule).position 7 = some 2 := by
    decide +kernel
  have log : .passedOver 2 ∉ (afterDelivery jobs schedule).log ∧
      .answered 2 true ∉ (afterDelivery jobs schedule).log ∧ (afterDelivery jobs schedule).origin = 0 := by
    decide +kernel
  refine ⟨retained, failed, fun kept => ?_⟩
  have settled := kept.settled _ (mem_of_getElem? dispatched) (by rw [log.2.2]; decide) 7 rfl log.1 2 position
  rcases settled with delivered | ahead | dead
  · exact log.2.1 delivered
  · exact absurd ahead (lt_irrefl _)
  · have enough := dead.2
    rw [failed] at enough
    exact absurd enough (by decide)

end EverWorks.DomainEvents
