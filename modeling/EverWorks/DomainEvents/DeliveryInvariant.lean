import EverWorks.DomainEvents.PluginDelivery
import Mathlib.Order.Nat

/-!
A tenant's cursor has its events behind it delivered, given up or passed over, and counts no more failures than its
next event has had; events, entries and cursors only go on. Each change of the store keeps it.
-/

namespace EverWorks.DomainEvents
open Lib Program List

def failedAttempts (log : List DeliveryEntry) (seq : Nat) : Nat := log.count (.answered seq false)

def DeliveryStore.position (store : DeliveryStore) (tenantId : Nat) : Option Nat :=
  ((store.cursors.get (.tenant tenantId)).or (store.cursors.get .anchor)).map (·.lastSeq)

/-- An event after the anchor that was never passed over is delivered, ahead of its tenant's position, or dead-lettered
after the maximum of failed attempts on it; an event is attempted after its tenant's earlier ones. -/
structure AtLeastOnce (store : DeliveryStore) : Prop where
  settled : ∀ event ∈ store.dispatched, store.origin < event.seq → ∀ tenantId ∈ event.tenantId,
    .passedOver event.seq ∉ store.log → ∀ position ∈ store.position tenantId,
      .answered event.seq true ∈ store.log ∨ position < event.seq ∨
        .deadLettered event.seq ∈ store.log ∧ DOMAIN_EVENT_PLUGIN_MAX_FAILURES ≤ failedAttempts store.log event.seq
  deadLetters : ∀ seq older, .deadLettered seq :: older <:+ store.log →
    DOMAIN_EVENT_PLUGIN_MAX_FAILURES ≤ failedAttempts older seq
  inOrder : ∀ seq attempt older, .attempted seq attempt :: older <:+ store.log →
    ∃ event ∈ store.dispatched, event.seq = seq ∧ ∃ tenantId ∈ event.tenantId, ∀ earlier ∈ store.dispatched,
      tenantId ∈ earlier.tenantId → store.origin < earlier.seq → earlier.seq < seq → .passedOver earlier.seq ∉ older →
        .answered earlier.seq true ∈ older ∨ .deadLettered earlier.seq ∈ older

/-- No cursor is further back, and none is gone. -/
def NeverBack (before after : DeliveryStore) : Prop :=
  ∀ owner cursor, before.cursors.get owner = some cursor →
    ∃ later, after.cursors.get owner = some later ∧ cursor.lastSeq ≤ later.lastSeq

def Numbered (events : List DomainEvent) : Prop := ∀ i event, events[i]? = some event → event.seq = i + 1

section
variable {events : List DomainEvent}

theorem Numbered.seq_le (numbered : Numbered events) {event : DomainEvent} (listed : event ∈ events) :
    event.seq ≤ events.length := by
  obtain ⟨i, there⟩ := mem_iff_getElem?.mp listed
  rw [numbered i event there]
  exact (List.getElem?_eq_some_iff.mp there).1

theorem Numbered.pairwise (numbered : Numbered events) : events.Pairwise (·.seq < ·.seq) := by
  rw [pairwise_iff_getElem]
  intro i j hi hj lt
  rw [numbered i _ (getElem?_eq_getElem hi), numbered j _ (getElem?_eq_getElem hj)]
  omega

theorem Numbered.dispatch (numbered : Numbered events) (tenantId : Option Nat) (type : String) :
    Numbered (events ++ [⟨events.length + 1, tenantId, type⟩]) := by
  intro i event there
  rw [getElem?_append] at there
  split at there
  · exact numbered i event there
  · rename_i beyond
    obtain ⟨inside, rfl⟩ := List.getElem?_eq_some_iff.mp there
    rw [length_singleton] at inside
    simp only [getElem_singleton]
    omega

theorem Numbered.mem_of_le {before : List DomainEvent} (numbered : Numbered events) (isPrefix : before <+: events)
    {event : DomainEvent} (listed : event ∈ events) (within : event.seq ≤ before.length) : event ∈ before := by
  obtain ⟨rest, rfl⟩ := isPrefix
  obtain ⟨i, there⟩ := mem_iff_getElem?.mp listed
  rw [numbered i event there] at within
  rw [getElem?_append_left (by omega)] at there
  exact mem_of_getElem? there

end

def Done (log : List DeliveryEntry) (seq : Nat) : Prop :=
  .answered seq true ∈ log ∨ .deadLettered seq ∈ log ∨ .passedOver seq ∈ log

def Fits (store : DeliveryStore) (older : List DeliveryEntry) : DeliveryEntry → Prop
  | .attempted seq _ => ∃ event ∈ store.dispatched, event.seq = seq ∧ ∃ tenantId ∈ event.tenantId,
      ∀ earlier ∈ store.dispatched, tenantId ∈ earlier.tenantId → store.origin < earlier.seq → earlier.seq < seq →
        Done older earlier.seq
  | .deadLettered seq => DOMAIN_EVENT_PLUGIN_MAX_FAILURES ≤ failedAttempts older seq
  | .answered _ _ | .passedOver _ => True

structure Standing (store : DeliveryStore) (tenantId : Nat) (cursor : PluginEventCursor) : Prop where
  reached : cursor.lastSeq ≤ store.dispatched.length
  covered : ∀ event ∈ store.dispatched, event.tenantId = some tenantId → store.origin < event.seq →
    event.seq ≤ cursor.lastSeq → Done store.log event.seq
  failures : cursor.consecutiveFailures = 0 ∨ ∃ next ∈ store.dispatched, next.tenantId = some tenantId ∧
    cursor.lastSeq < next.seq ∧
    (∀ event ∈ store.dispatched, event.tenantId = some tenantId → cursor.lastSeq < event.seq → next.seq ≤ event.seq) ∧
    cursor.consecutiveFailures ≤ failedAttempts store.log next.seq

structure Sound (store : DeliveryStore) : Prop where
  numbered : Numbered store.dispatched
  entries : ∀ entry older, entry :: older <:+ store.log → Fits store older entry
  unseen : store.cursors.get .anchor = none → store.origin = 0
  anchor : ∀ anchor, store.cursors.get .anchor = some anchor →
    store.origin ≤ anchor.lastSeq ∧ anchor.lastSeq ≤ store.dispatched.length ∧
    ∀ event ∈ store.dispatched, ∀ tenantId, event.tenantId = some tenantId → store.origin < event.seq →
      event.seq ≤ anchor.lastSeq → (store.cursors.get (.tenant tenantId)).isSome
  tenants : ∀ tenantId cursor, store.cursors.get (.tenant tenantId) = some cursor → Standing store tenantId cursor

theorem Sound.atLeastOnce {store : DeliveryStore} (sound : Sound store) : AtLeastOnce store := by
  have deadLetters (seq : Nat) (older : List DeliveryEntry) (isSuffix : .deadLettered seq :: older <:+ store.log) :
      DOMAIN_EVENT_PLUGIN_MAX_FAILURES ≤ failedAttempts older seq :=
    sound.entries (.deadLettered seq) older isSuffix
  refine ⟨fun event listed after tenantId owned notPassed position there => ?_, deadLetters,
    fun seq attempt older isSuffix => ?_⟩
  · by_cases ahead : position < event.seq
    · exact .inr (.inl ahead)
    have behind := Nat.le_of_not_lt ahead
    have done : Done store.log event.seq := by
      rw [Option.mem_def, DeliveryStore.position, Option.map_eq_some_iff] at there
      obtain ⟨cursor, found, rfl⟩ := there
      rcases Option.or_eq_some_iff.mp found with own | ⟨none, anchor⟩
      · exact (sound.tenants tenantId cursor own).covered event listed owned after behind
      · have some := (sound.anchor cursor anchor).2.2 event listed tenantId owned after behind
        rw [none] at some
        cases some
    rcases done with delivered | dead | passed
    · exact .inl delivered
    · refine .inr (.inr ⟨dead, ?_⟩)
      obtain ⟨newer, older, split⟩ := append_of_mem dead
      have isSuffix : .deadLettered event.seq :: older <:+ store.log := ⟨newer, split.symm⟩
      refine (deadLetters _ _ isSuffix).trans (List.Sublist.count_le _ ?_)
      exact (sublist_cons_self _ _).trans isSuffix.sublist
    · exact absurd passed notPassed
  · obtain ⟨event, listed, same, tenantId, owned, earlier⟩ := sound.entries (.attempted seq attempt) older isSuffix
    refine ⟨event, listed, same, tenantId, owned, fun other there its after before notPassed => ?_⟩
    rcases earlier other there its after before with delivered | dead | passed
    · exact .inl delivered
    · exact .inr dead
    · exact absurd passed notPassed

structure Later (before after : DeliveryStore) : Prop where
  dispatched : before.dispatched <+: after.dispatched
  log : before.log <:+ after.log
  origin : before.origin ≤ after.origin
  cursors : NeverBack before after

section
variable {store before after : DeliveryStore} {tenantId : Nat} {cursor : PluginEventCursor}

theorem NeverBack.refl (store : DeliveryStore) : NeverBack store store :=
  fun _ cursor found => ⟨cursor, found, le_rfl⟩

theorem Later.refl (store : DeliveryStore) : Later store store :=
  ⟨prefix_rfl, suffix_rfl, le_rfl, .refl store⟩

theorem Later.trans {a b c : DeliveryStore} (first : Later a b) (second : Later b c) : Later a c := by
  refine ⟨first.dispatched.trans second.dispatched, first.log.trans second.log, first.origin.trans second.origin,
    fun owner cursor found => ?_⟩
  obtain ⟨next, there, le⟩ := first.cursors owner cursor found
  obtain ⟨last, found', le'⟩ := second.cursors owner next there
  exact ⟨last, found', le.trans le'⟩

theorem Later.isSome (later : Later before after) {owner : CursorOwner} (some : (before.cursors.get owner).isSome) :
    (after.cursors.get owner).isSome := by
  obtain ⟨cursor, found⟩ := Option.isSome_iff_exists.mp some
  obtain ⟨last, there, _⟩ := later.cursors owner cursor found
  rw [there]
  rfl

theorem Later.failedAttempts_le (later : Later before after) (seq : Nat) :
    failedAttempts before.log seq ≤ failedAttempts after.log seq :=
  List.Sublist.count_le _ later.log.sublist

theorem Later.done (later : Later before after) {seq : Nat} (done : Done before.log seq) : Done after.log seq :=
  done.imp (later.log.subset ·) (.imp (later.log.subset ·) (later.log.subset ·))

theorem Later.mem_or_above (later : Later before after) (numbered : Numbered after.dispatched) {event : DomainEvent}
    (listed : event ∈ after.dispatched) : event ∈ before.dispatched ∨ before.dispatched.length < event.seq := by
  by_cases within : event.seq ≤ before.dispatched.length
  · exact .inl (numbered.mem_of_le later.dispatched listed within)
  · exact .inr (Nat.lt_of_not_le within)

theorem Later.numbered (later : Later before after) (numbered : Numbered after.dispatched) :
    Numbered before.dispatched := by
  obtain ⟨rest, whole⟩ := later.dispatched
  intro i event there
  refine numbered i event ?_
  rw [← whole, getElem?_append_left (List.getElem?_eq_some_iff.mp there).1, there]

theorem Standing.later (standing : Standing before tenantId cursor) (later : Later before after)
    (numbered : Numbered after.dispatched) : Standing after tenantId cursor := by
  refine ⟨standing.reached.trans later.dispatched.length_le, fun event listed owned after le => ?_, ?_⟩
  · have there := numbered.mem_of_le later.dispatched listed (le.trans standing.reached)
    exact later.done (standing.covered event there owned (later.origin.trans_lt after) le)
  · refine standing.failures.imp_right fun ⟨next, listed, owned, above, least, counted⟩ => ?_
    refine ⟨next, later.dispatched.subset listed, owned, above, fun event there its le => ?_,
      counted.trans (later.failedAttempts_le _)⟩
    rcases later.mem_or_above numbered there with old | beyond
    · exact least event old its le
    · exact ((later.numbered numbered).seq_le listed).trans beyond.le

theorem Sound.extend (sound : Sound before) (later : Later before after) (numbered : Numbered after.dispatched)
    (cursors : after.cursors = before.cursors) (origin : after.origin = before.origin)
    (entries : ∀ entry older, entry :: older <:+ after.log → Fits after older entry) : Sound after := by
  refine ⟨numbered, entries, ?_, fun anchor found => ?_, fun tenantId cursor found => ?_⟩
  · rw [cursors, origin]
    exact sound.unseen
  · rw [cursors] at found ⊢
    rw [origin]
    obtain ⟨first, reached, own⟩ := sound.anchor anchor found
    refine ⟨first, reached.trans later.dispatched.length_le, fun event listed tenantId owned after le => ?_⟩
    exact own event (numbered.mem_of_le later.dispatched listed (le.trans reached)) tenantId owned after le
  · rw [cursors] at found
    exact (sound.tenants tenantId cursor found).later later numbered

theorem Later.note (store : DeliveryStore) (entry : DeliveryEntry) : Later store (store.note entry) :=
  ⟨prefix_rfl, suffix_cons _ _, le_rfl, .refl store⟩

theorem Sound.note (sound : Sound store) {entry : DeliveryEntry} (fits : Fits store store.log entry) :
    Sound (store.note entry) := by
  refine sound.extend (.note store entry) sound.numbered rfl rfl fun other older isSuffix => ?_
  rcases suffix_cons_iff.mp isSuffix with same | old
  · obtain ⟨rfl, rfl⟩ := List.cons.inj same
    exact fits
  · exact sound.entries other older old

theorem Later.dispatch (store : DeliveryStore) (owner : Option Nat) (type : String) :
    Later store (store.dispatch owner type) :=
  ⟨prefix_append _ _, suffix_rfl, le_rfl, .refl store⟩

theorem Sound.dispatch (sound : Sound store) (owner : Option Nat) (type : String) :
    Sound (store.dispatch owner type) := by
  have later := Later.dispatch store owner type
  have numbered := sound.numbered.dispatch owner type
  refine sound.extend later numbered rfl rfl fun entry older isSuffix => ?_
  have fits := sound.entries entry older isSuffix
  cases entry with
  | attempted seq attempt =>
    obtain ⟨event, listed, rfl, tenantId, owned, earlier⟩ := fits
    refine ⟨event, later.dispatched.subset listed, rfl, tenantId, owned, fun other there its after le => ?_⟩
    rcases later.mem_or_above numbered there with old | beyond
    · exact earlier other old its after le
    · exact absurd (sound.numbered.seq_le listed) (by omega)
  | deadLettered seq => exact fits
  | answered seq ok => exact fits
  | passedOver seq => exact fits

theorem get_set_isSome {cursors : OrderedMap CursorOwner PluginEventCursor} {owner other : CursorOwner}
    (some : (cursors.get other).isSome) : ((cursors.set owner cursor).get other).isSome := by
  rw [OrderedMap.get_set]
  split
  · rfl
  · exact some

theorem Sound.setTenant (sound : Sound store) (standing : Standing store tenantId cursor) :
    Sound { store with cursors := store.cursors.set (.tenant tenantId) cursor } := by
  have anchorKept : (store.cursors.set (.tenant tenantId) cursor).get .anchor = store.cursors.get .anchor := by
    rw [OrderedMap.get_set, if_neg nofun]
  refine ⟨sound.numbered, sound.entries, fun none => sound.unseen (anchorKept ▸ none), fun anchor found => ?_,
    fun other theirs found => ?_⟩
  · obtain ⟨first, reached, own⟩ := sound.anchor anchor (anchorKept ▸ found)
    exact ⟨first, reached, fun event listed owner owned after le =>
      get_set_isSome (own event listed owner owned after le)⟩
  · rw [OrderedMap.get_set] at found
    split at found
    · rename_i same
      obtain rfl := CursorOwner.tenant.inj same
      obtain rfl := Option.some.inj found
      exact ⟨standing.reached, standing.covered, standing.failures⟩
    · have standing := sound.tenants other theirs found
      exact ⟨standing.reached, standing.covered, standing.failures⟩

/-- A row for a tenant that has none, or one in the place of a row that is not ahead of it. -/
theorem Later.setCursor {owner : CursorOwner} {origin : Nat}
    (forward : ∀ old, store.cursors.get owner = some old → old.lastSeq ≤ cursor.lastSeq) (le : store.origin ≤ origin) :
    Later store { store with cursors := store.cursors.set owner cursor, origin } := by
  refine ⟨prefix_rfl, suffix_rfl, le, fun other old found => ?_⟩
  by_cases same : other = owner
  · subst same
    exact ⟨cursor, by rw [OrderedMap.get_set, if_pos rfl], forward old found⟩
  · exact ⟨old, by rw [OrderedMap.get_set, if_neg same, found], le_rfl⟩

theorem Sound.setAnchor (sound : Sound store) {origin : Nat} (le : store.origin ≤ origin)
    (first : origin ≤ cursor.lastSeq) (reached : cursor.lastSeq ≤ store.dispatched.length)
    (own : ∀ event ∈ store.dispatched, ∀ tenantId, event.tenantId = some tenantId → origin < event.seq →
      event.seq ≤ cursor.lastSeq → (store.cursors.get (.tenant tenantId)).isSome) :
    Sound { store with cursors := store.cursors.set .anchor cursor, origin } := by
  refine ⟨sound.numbered, fun entry older isSuffix => ?_, fun none => ?_, fun anchor found => ?_,
    fun tenantId theirs found => ?_⟩
  · have fits := sound.entries entry older isSuffix
    cases entry with
    | attempted seq attempt =>
      obtain ⟨event, listed, same, tenantId, owned, earlier⟩ := fits
      exact ⟨event, listed, same, tenantId, owned, fun other there its after =>
        earlier other there its (le.trans_lt after)⟩
    | deadLettered seq => exact fits
    | answered seq ok => exact fits
    | passedOver seq => exact fits
  · rw [OrderedMap.get_set, if_pos rfl] at none
    cases none
  · rw [OrderedMap.get_set, if_pos rfl] at found
    obtain rfl := Option.some.inj found
    exact ⟨first, reached, fun event listed tenantId owned after le =>
      get_set_isSome (own event listed tenantId owned after le)⟩
  · rw [OrderedMap.get_set, if_neg nofun] at found
    have standing := sound.tenants tenantId theirs found
    exact ⟨standing.reached, fun event listed owned after =>
      standing.covered event listed owned (le.trans_lt after), standing.failures⟩

structure Next (store : DeliveryStore) (row : DomainEvent) (tenantId : Nat) (cursor : PluginEventCursor) : Prop where
  listed : row ∈ store.dispatched
  owned : row.tenantId = some tenantId
  standing : Standing store tenantId cursor
  above : cursor.lastSeq < row.seq
  least : ∀ event ∈ store.dispatched, event.tenantId = some tenantId → cursor.lastSeq < event.seq →
    row.seq ≤ event.seq

section
variable {row : DomainEvent}

theorem Next.later (next : Next before row tenantId cursor) (later : Later before after)
    (numbered : Numbered after.dispatched) : Next after row tenantId cursor := by
  refine ⟨later.dispatched.subset next.listed, next.owned, next.standing.later later numbered, next.above,
    fun event listed owned above => ?_⟩
  rcases later.mem_or_above numbered listed with old | beyond
  · exact next.least event old owned above
  · exact ((later.numbered numbered).seq_le next.listed).trans beyond.le

theorem Next.failures_le (next : Next store row tenantId cursor) :
    cursor.consecutiveFailures ≤ failedAttempts store.log row.seq := by
  rcases next.standing.failures with zero | ⟨other, listed, owned, above, least, counted⟩
  · rw [zero]
    exact Nat.zero_le _
  · have same : other.seq = row.seq :=
      le_antisymm (least row next.listed next.owned next.above) (next.least other listed owned above)
    rw [← same]
    exact counted

theorem Next.earlier (next : Next store row tenantId cursor) : ∀ event ∈ store.dispatched,
    event.tenantId = some tenantId → store.origin < event.seq → event.seq < row.seq → Done store.log event.seq := by
  intro event listed owned after lt
  refine next.standing.covered event listed owned after (Nat.le_of_not_lt fun above => ?_)
  exact absurd (next.least event listed owned above) (Nat.not_le_of_lt lt)

theorem Next.attempted (next : Next store row tenantId cursor) (attempt : Nat) :
    Fits store store.log (.attempted row.seq attempt) :=
  ⟨row, next.listed, rfl, tenantId, next.owned, next.earlier⟩

theorem Next.finish (next : Next store row tenantId cursor) (numbered : Numbered store.dispatched)
    (done : Done store.log row.seq) (deadLetterCount : Nat) :
    Standing store tenantId { lastSeq := row.seq, consecutiveFailures := 0, deadLetterCount } := by
  refine ⟨numbered.seq_le next.listed, fun event listed owned after le => ?_, .inl rfl⟩
  rcases Nat.lt_or_eq_of_le le with lt | same
  · exact next.earlier event listed owned after lt
  · have same : event.seq = row.seq := same
    rw [same]
    exact done

theorem Next.fail (next : Next store row tenantId cursor) {failures : Nat}
    (counted : failures ≤ failedAttempts store.log row.seq) :
    Standing store tenantId { cursor with consecutiveFailures := failures } :=
  ⟨next.standing.reached, next.standing.covered, .inr ⟨row, next.listed, next.owned, next.above, next.least, counted⟩⟩

end

end

end EverWorks.DomainEvents
