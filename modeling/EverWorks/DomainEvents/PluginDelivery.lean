import EverWorks.DomainEvents.Catalog
import EverWorks.Lib.Guarantee
import EverWorks.Lib.OrderedMap

/-!
One subscriber plugin of `domain-event-plugin-delivery.service.ts`: the cursors of its tenants, the anchor for tenants
without one, and the passes of the replicas, call by call, beside the relay that dispatches events.
-/

namespace EverWorks.DomainEvents
open Lib Program Program

def DOMAIN_EVENT_PLUGIN_MAX_FAILURES : Nat := 10

def PLUGIN_BATCH : Nat := 200

structure DomainEvent where
  seq : Nat
  tenantId : Option Nat
  type : String
deriving DecidableEq

/-- Whose position a cursor row holds: a tenant's, or that of the tenants without a row of their own. -/
inductive CursorOwner
  | anchor
  | tenant (id : Nat)
deriving DecidableEq

structure PluginEventCursor where
  lastSeq : Nat
  consecutiveFailures : Nat := 0
  deadLetterCount : Nat := 0
deriving DecidableEq

/-- A cursor being worked on, with the `lastSeq` it was read at (none: not stored yet). -/
structure TrackedCursor where
  row : PluginEventCursor
  readSeq : Option Nat
  touched : Bool := false

inductive DeliveryEntry
  | attempted (seq attempt : Nat)
  | answered (seq : Nat) (ok : Bool)
  | deadLettered (seq : Nat)
  | passedOver (seq : Nat)
deriving DecidableEq

structure DeliveryStore where
  /-- Every event given a position, in the order of the positions. -/
  dispatched : List DomainEvent := []
  /-- Retention has deleted the events up to here. -/
  purgedTo : Nat := 0
  cursors : OrderedMap CursorOwner PluginEventCursor := .empty
  subscribes : List String := []
  /-- The tenants that have the plugin enabled. -/
  enabled : List Nat := []
  /-- Newest first. -/
  log : List DeliveryEntry := []
  /-- Where the anchor was set first. -/
  origin : Nat := 0

inductive DeliveryCall
  | findCursors
  | findState
  | findEvents (after : Nat)
  | insertCursor (owner : CursorOwner) (cursor : PluginEventCursor)
  | compareAndSetCursor (owner : CursorOwner) (cursor : PluginEventCursor) (readSeq : Nat)
  | subscribes
  | isPluginEnabledForScope (tenantId : Nat)
  | onDomainEvent (seq attempt : Nat)
  | answered (seq : Nat) (ok : Bool)
  | deadLetter (seq : Nat)
  | passOver (seq failures : Nat)
  | dispatch (tenantId : Option Nat) (type : String)
  | subscribe (patterns : List String)
  | enable (tenantIds : List Nat)
  | purge (upTo : Nat)

abbrev DeliveryReply : DeliveryCall → Type
  | .findCursors => OrderedMap CursorOwner PluginEventCursor
  | .findState => Nat
  | .findEvents _ => List DomainEvent
  | .subscribes => List String
  | .isPluginEnabledForScope _ => Bool
  | .passOver _ _ => Nat
  | .insertCursor _ _ | .compareAndSetCursor _ _ _ | .onDomainEvent _ _ | .answered _ _ | .deadLetter _
  | .dispatch _ _ | .subscribe _ | .enable _ | .purge _ => Unit

abbrev DeliveryProgram := Program DeliveryCall DeliveryReply Empty

def DeliveryStore.eventsAfter (store : DeliveryStore) (after : Nat) : List DomainEvent :=
  (store.dispatched.filter fun event => after < event.seq && store.purgedTo < event.seq).take PLUGIN_BATCH

def DeliveryStore.insertCursor (store : DeliveryStore) (owner : CursorOwner) (cursor : PluginEventCursor) :
    DeliveryStore :=
  if store.cursors.has owner then store
  else { store with
    cursors := store.cursors.set owner cursor
    origin := if owner = .anchor then cursor.lastSeq else store.origin }

def DeliveryStore.compareAndSetCursor (store : DeliveryStore) (owner : CursorOwner) (cursor : PluginEventCursor)
    (readSeq : Nat) : DeliveryStore :=
  if (store.cursors.get owner).map (·.lastSeq) = some readSeq then
    { store with cursors := store.cursors.set owner cursor }
  else store

def DeliveryStore.note (store : DeliveryStore) (entry : DeliveryEntry) : DeliveryStore :=
  { store with log := entry :: store.log }

def DeliveryStore.dispatch (store : DeliveryStore) (tenantId : Option Nat) (type : String) : DeliveryStore :=
  { store with dispatched := store.dispatched ++ [⟨store.dispatched.length + 1, tenantId, type⟩] }

def serveDelivery : (request : DeliveryCall) → DeliveryStore → DeliveryReply request × DeliveryStore
  | .findCursors, store => (store.cursors, store)
  | .findState, store => (store.dispatched.length, store)
  | .findEvents after, store => (store.eventsAfter after, store)
  | .insertCursor owner cursor, store => ((), store.insertCursor owner cursor)
  | .compareAndSetCursor owner cursor readSeq, store => ((), store.compareAndSetCursor owner cursor readSeq)
  | .subscribes, store => (store.subscribes, store)
  | .isPluginEnabledForScope tenantId, store => (decide (tenantId ∈ store.enabled), store)
  | .onDomainEvent seq attempt, store => ((), store.note (.attempted seq attempt))
  | .answered seq ok, store => ((), store.note (.answered seq ok))
  | .deadLetter seq, store => ((), store.note (.deadLettered seq))
  | .passOver seq failures, store => (failures, store.note (.passedOver seq))
  | .dispatch tenantId type, store => ((), store.dispatch tenantId type)
  | .subscribe patterns, store => ((), { store with subscribes := patterns })
  | .enable tenantIds, store => ((), { store with enabled := tenantIds })
  | .purge upTo, store => ((), { store with purgedTo := max store.purgedTo upTo })

structure PassAnswers where
  keepLease : Nat → Bool
  resolves : Nat → Bool

structure Pass where
  byTenant : OrderedMap Nat TrackedCursor
  blocked : List Nat := []
  enabledCache : OrderedMap Nat Bool := .empty
  /-- The highest position this pass examined. -/
  examined : Nat

/-- The cursor a pass works with for a tenant: the stored one, or a new one at the anchor. -/
def Pass.tracked (pass : Pass) (anchorSeq tenantId : Nat) : TrackedCursor :=
  (pass.byTenant.get tenantId).getD { row := { lastSeq := anchorSeq }, readSeq := none }

def Pass.track (pass : Pass) (tenantId : Nat) (tracked : TrackedCursor) : Pass :=
  { pass with byTenant := pass.byTenant.set tenantId tracked }

def isEnabledForTenant (tenantId : Nat) (cache : OrderedMap Nat Bool) :
    DeliveryProgram (Bool × OrderedMap Nat Bool) :=
  match cache.get tenantId with
  | some cached => pure (cached, cache)
  | none => do
    let enabled : Bool ← ask (DeliveryCall.isPluginEnabledForScope tenantId)
    pure (enabled, cache.set tenantId enabled)

def wantedAndEnabled (row : DomainEvent) (tenantId : Nat) (cache : OrderedMap Nat Bool) :
    DeliveryProgram (Bool × OrderedMap Nat Bool) := do
  let patterns : List String ← ask DeliveryCall.subscribes
  if matchesAnyDomainEventPattern row.type patterns then isEnabledForTenant tenantId cache else pure (false, cache)

def callPlugin (answers : PassAnswers) (seq : Nat) (cursor : PluginEventCursor) :
    DeliveryProgram (PluginEventCursor × Bool) := do
  let attempt := cursor.consecutiveFailures + 1
  ask (DeliveryCall.onDomainEvent seq attempt)
  ask (DeliveryCall.answered seq (answers.resolves seq))
  if answers.resolves seq then pure ({ cursor with lastSeq := seq, consecutiveFailures := 0 }, false)
  else if DOMAIN_EVENT_PLUGIN_MAX_FAILURES ≤ attempt then do
    ask (DeliveryCall.deadLetter seq)
    pure ({ lastSeq := seq, consecutiveFailures := 0, deadLetterCount := cursor.deadLetterCount + 1 }, false)
  else pure ({ cursor with consecutiveFailures := attempt }, true)

def deliverRow (answers : PassAnswers) (row : DomainEvent) (tenantId : Nat) (tracked : TrackedCursor) (pass : Pass) :
    DeliveryProgram (Pass × Bool) := do
  let (deliver, enabledCache) ← wantedAndEnabled row tenantId pass.enabledCache
  let pass := { pass with enabledCache }
  if !deliver then do
    let failures : Nat ← ask (DeliveryCall.passOver row.seq tracked.row.consecutiveFailures)
    let cursor := { tracked.row with lastSeq := row.seq, consecutiveFailures := failures }
    pure ({ pass.track tenantId { tracked with row := cursor } with examined := row.seq }, false)
  else if !answers.keepLease row.seq then pure (pass, true)
  else do
    let (cursor, isBlocked) ← callPlugin answers row.seq tracked.row
    let pass := pass.track tenantId { tracked with row := cursor, touched := true }
    let blocked := if isBlocked then tenantId :: pass.blocked else pass.blocked
    pure ({ pass with blocked, examined := row.seq }, false)

def examineRow (answers : PassAnswers) (anchorSeq : Nat) (row : DomainEvent) (pass : Pass) :
    DeliveryProgram (Pass × Bool) :=
  match row.tenantId with
  | none => pure ({ pass with examined := row.seq }, false)
  | some tenantId =>
    if tenantId ∈ pass.blocked then pure ({ pass with examined := row.seq }, false)
    else
      let tracked := pass.tracked anchorSeq tenantId
      let pass := pass.track tenantId tracked
      if tracked.row.lastSeq < row.seq then deliverRow answers row tenantId tracked pass
      else pure ({ pass with examined := row.seq }, false)

def examineRows (answers : PassAnswers) (anchorSeq : Nat) : List DomainEvent → Pass → DeliveryProgram Pass
  | [], pass => pure pass
  | row :: rest, pass => do
    let (pass, leaseLost) ← examineRow answers anchorSeq row pass
    if leaseLost then pure pass else examineRows answers anchorSeq rest pass

/-- A tenant with nothing pending up to `examined` moves there; only tenants that failed in this pass stay put. -/
def Pass.moved (pass : Pass) : OrderedMap Nat TrackedCursor :=
  pass.byTenant.mapValues fun tenantId tracked =>
    if tenantId ∈ pass.blocked then tracked
    else if tracked.row.lastSeq < pass.examined then
      { tracked with row := { tracked.row with lastSeq := pass.examined } }
    else tracked

def TrackedCursor.changed (tracked : TrackedCursor) : Bool :=
  tracked.readSeq = none || tracked.touched || some tracked.row.lastSeq ≠ tracked.readSeq

def writeCursor (tenantId : Nat) (tracked : TrackedCursor) : DeliveryProgram Unit :=
  if tracked.changed then
    match tracked.readSeq with
    | none => ask (DeliveryCall.insertCursor (.tenant tenantId) tracked.row)
    | some readSeq => ask (DeliveryCall.compareAndSetCursor (.tenant tenantId) tracked.row readSeq)
  else pure ()

def writeCursors : List (Nat × TrackedCursor) → DeliveryProgram Unit
  | [] => pure ()
  | (tenantId, tracked) :: rest => do
    writeCursor tenantId tracked
    writeCursors rest

def CursorOwner.tenantId? : CursorOwner → Option Nat
  | .anchor => none
  | .tenant id => some id

/-- The tenants' cursors, with the `lastSeq` each was read at. -/
def trackedCursors (cursors : OrderedMap CursorOwner PluginEventCursor) : OrderedMap Nat TrackedCursor where
  entries := cursors.entries.filterMap fun entry =>
    entry.1.tenantId?.map fun tenantId => (tenantId, { row := entry.2, readSeq := some entry.2.lastSeq })
  nodup := by
    have keys : (cursors.entries.filterMap fun entry => entry.1.tenantId?.map fun tenantId =>
        (tenantId, ({ row := entry.2, readSeq := some entry.2.lastSeq } : TrackedCursor))).map Prod.fst =
        (cursors.entries.map Prod.fst).filterMap CursorOwner.tenantId? := by
      rw [List.map_filterMap, List.filterMap_map]
      refine List.filterMap_congr fun entry _ => ?_
      rw [Option.map_map, Function.comp_apply]
      exact Option.map_id'
    rw [keys]
    refine cursors.nodup.filterMap fun first second id one other => ?_
    cases first <;> cases second <;> simp_all [CursorOwner.tenantId?]

def scanStart (anchorSeq : Nat) (byTenant : OrderedMap Nat TrackedCursor) : Nat :=
  (byTenant.values.filterMap (·.readSeq)).foldl min anchorSeq

def deliverEvents (answers : PassAnswers) (anchor : PluginEventCursor) (pass : Pass) (events : List DomainEvent) :
    DeliveryProgram Unit := do
  let pass ← examineRows answers anchor.lastSeq events pass
  writeCursors pass.moved.entries
  if anchor.lastSeq < pass.examined then
    ask (DeliveryCall.compareAndSetCursor .anchor { anchor with lastSeq := pass.examined } anchor.lastSeq)
  else pure ()

def deliverFor (answers : PassAnswers) : DeliveryProgram Unit := do
  let cursors : OrderedMap CursorOwner PluginEventCursor ← ask DeliveryCall.findCursors
  match cursors.get .anchor with
  | none => do
    let lastSeq : Nat ← ask DeliveryCall.findState
    ask (DeliveryCall.insertCursor .anchor { lastSeq })
  | some anchor => do
    let byTenant := trackedCursors cursors
    let start := scanStart anchor.lastSeq byTenant
    let events : List DomainEvent ← ask (DeliveryCall.findEvents start)
    if events = [] then pure () else deliverEvents answers anchor { byTenant, examined := start } events

/-- What may run side by side: a pass, the relay giving an event its position, a change of what the plugin subscribes
to or of the tenants that have it enabled, and retention. -/
inductive DeliveryJob
  | pass (answers : PassAnswers)
  | dispatch (tenantId : Option Nat) (type : String)
  | subscribe (patterns : List String)
  | enable (tenantIds : List Nat)
  | purge (upTo : Nat)

def DeliveryJob.run : DeliveryJob → DeliveryProgram Unit
  | .pass answers => deliverFor answers
  | .dispatch tenantId type => ask (DeliveryCall.dispatch tenantId type)
  | .subscribe patterns => ask (DeliveryCall.subscribe patterns)
  | .enable tenantIds => ask (DeliveryCall.enable tenantIds)
  | .purge upTo => ask (DeliveryCall.purge upTo)

abbrev DeliveryPool := Pool DeliveryStore DeliveryCall DeliveryReply Empty

def deliveryPool (jobs : List DeliveryJob) : DeliveryPool := ⟨{}, jobs.map DeliveryJob.run⟩

def afterDelivery (jobs : List DeliveryJob) (schedule : List Nat) : DeliveryStore :=
  (run (Pool.step serveDelivery Empty.elim) (deliveryPool jobs) schedule).state

end EverWorks.DomainEvents
