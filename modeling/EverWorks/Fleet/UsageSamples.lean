import EverWorks.Lib.Guarantee
import EverWorks.Lib.Number
import EverWorks.Lib.Slices
import EverWorks.Lib.Table

/-!
One sample for each bucket of a node's usage. An ingest reads samples in chunks, merges its own rows into what it
read, and writes the result back. Each repository call is served at once.
-/

namespace EverWorks.Fleet
open Lib

structure FleetUsageTokens where
  input : Nat
  output : Nat
  cacheRead : Nat
  cacheWrite : Nat
  deriving DecidableEq

def maxFleetUsageTokens (a b : FleetUsageTokens) : FleetUsageTokens where
  input := max a.input b.input
  output := max a.output b.output
  cacheRead := max a.cacheRead b.cacheRead
  cacheWrite := max a.cacheWrite b.cacheWrite

structure FleetUsageRow where
  provider : String
  providerSessionId : Option String
  model : String
  bucketStart : String
  folderBucket : Option String
  tokens : FleetUsageTokens
  requests : Nat
  firstAt : Int
  lastAt : Int
  deriving DecidableEq

structure KeyedRow where
  row : FleetUsageRow
  key : String
  checkoutPath : Option String
  deriving DecidableEq

inductive Attribution where
  | fleetSession (id : String)
  | agentRun (id : String)
  deriving DecidableEq

def Attribution.fleetSessionId : Attribution → Option String
  | fleetSession id => some id
  | agentRun _ => none

def Attribution.agentRunId : Attribution → Option String
  | fleetSession _ => none
  | agentRun id => some id

structure FleetUsageSample where
  nodeId : String
  fleetSessionId : Option String := none
  agentRunId : Option String := none
  provider : String
  providerSessionId : Option String
  model : String
  tokens : FleetUsageTokens
  requests : Nat
  costCents : Option Int := none
  bucketStart : String
  checkoutPath : Option String := none
  priceListVersion : Option Nat := none
  dedupeKey : String
  firstAt : Option Int
  lastAt : Option Int
  deriving DecidableEq

/-- What the ingest takes from elsewhere: the digest of a key's parts, and the list prices. -/
structure UsageDeps where
  digest : List String → String
  price : FleetUsageTokens → String → Option Nat → Option (ℚ × Nat)

/-- `other:` and eight hexadecimal digits. -/
def isFleetUsageOtherFolder (value : String) : Bool :=
  let digits := value.toList.drop 6
  value.toList.take 6 = "other:".toList && digits.length = 8 &&
    digits.all fun c => ('0' ≤ c && c ≤ '9') || ('a' ≤ c && c ≤ 'f')

def fleetUsageCheckoutPath (folderBucket : Option String) : Option String :=
  folderBucket.filter fun folder => folder ≠ "" && !isFleetUsageOtherFolder folder

def fleetUsageDedupeKey (deps : UsageDeps) (nodeId : String) (row : FleetUsageRow) : String :=
  deps.digest [nodeId, row.bucketStart, row.provider, row.model, row.providerSessionId.getD "",
    row.folderBucket.getD ""]

structure MergedBucket where
  tokens : FleetUsageTokens
  requests : Nat
  firstAt : Int
  lastAt : Int
  changed : Bool

structure StoredBucket where
  tokens : FleetUsageTokens
  requests : Nat
  firstAt : Option Int
  lastAt : Option Int

def mergeBucket (stored : StoredBucket) (row : FleetUsageRow) : MergedBucket :=
  let tokens := maxFleetUsageTokens stored.tokens row.tokens
  let requests := max stored.requests row.requests
  let firstAt := match stored.firstAt with
    | some firstAt => if firstAt ≤ row.firstAt then firstAt else row.firstAt
    | none => row.firstAt
  let lastAt := match stored.lastAt with
    | some lastAt => if lastAt ≥ row.lastAt then lastAt else row.lastAt
    | none => row.lastAt
  { tokens, requests, firstAt, lastAt
    changed := tokens ≠ stored.tokens || requests ≠ stored.requests || some firstAt ≠ stored.firstAt ||
      some lastAt ≠ stored.lastAt }

def mergeRows (seen row : FleetUsageRow) : FleetUsageRow :=
  let merged := mergeBucket ⟨seen.tokens, seen.requests, some seen.firstAt, some seen.lastAt⟩ row
  { seen with
    tokens := merged.tokens
    requests := merged.requests
    firstAt := merged.firstAt
    lastAt := merged.lastAt }

def keyRow (deps : UsageDeps) (nodeId : String) (byKey : List KeyedRow) (row : FleetUsageRow) : List KeyedRow :=
  let key := fleetUsageDedupeKey deps nodeId row
  if byKey.any (·.key = key) then
    byKey.map fun seen => if seen.key = key then { seen with row := mergeRows seen.row row } else seen
  else byKey ++ [⟨row, key, fleetUsageCheckoutPath row.folderBucket⟩]

def keyRows (deps : UsageDeps) (nodeId : String) (rows : List FleetUsageRow) : List KeyedRow :=
  rows.foldl (keyRow deps nodeId) []

structure SamplePatch where
  counts : Option (MergedBucket × Option Int) := none
  priceListVersion : Option Nat := none
  owner : Option Attribution := none

def SamplePatch.isEmpty (patch : SamplePatch) : Bool := patch.counts.isNone && patch.owner.isNone

def ownedBy (sample : FleetUsageSample) : Attribution → FleetUsageSample
  | .fleetSession id => { sample with fleetSessionId := some id }
  | .agentRun id => { sample with agentRunId := some id }

def SamplePatch.apply (patch : SamplePatch) (sample : FleetUsageSample) : FleetUsageSample :=
  let counted := match patch.counts with
    | some (merged, costCents) =>
      { sample with
        tokens := merged.tokens
        requests := merged.requests
        firstAt := some merged.firstAt
        lastAt := some merged.lastAt
        costCents }
    | none => sample
  let priced := { counted with priceListVersion := patch.priceListVersion.or counted.priceListVersion }
  match patch.owner with
  | some owner => ownedBy priced owner
  | none => priced

def FleetUsageSample.attributed (sample : FleetUsageSample) : Bool :=
  sample.fleetSessionId.isSome || sample.agentRunId.isSome

/-- The samples in the order of their inserts, and the ingests that have finished. -/
structure UsageStore where
  samples : List FleetUsageSample := []
  finished : List Nat := []

inductive UsageCall where
  | find (keys : List String)
  | insert (sample : FleetUsageSample)
  | findOne (key : String)
  /-- `samples.update(stored.id, patch)`, with the row that was merged into what was read. -/
  | update (stored : FleetUsageSample) (row : FleetUsageRow) (patch : SamplePatch)
  | claim (nodeId provider providerSessionId : String) (owner : Attribution)
  | finish (ingest : Nat)

abbrev UsageReply : UsageCall → Type
  | .find _ => List FleetUsageSample
  | .insert _ => Bool
  | .findOne _ => Option FleetUsageSample
  | .update .. => Unit
  | .claim .. => Unit
  | .finish _ => Unit

def serveUsage : (request : UsageCall) → UsageStore → UsageReply request × UsageStore
  | .find keys, store => (store.samples.filter fun sample => keys.contains sample.dedupeKey, store)
  | .insert sample, store =>
    if sample.dedupeKey ∈ store.samples.map (·.dedupeKey) then (false, store)
    else (true, { store with samples := store.samples ++ [sample] })
  | .findOne key, store => (store.samples.find? (·.dedupeKey = key), store)
  | .update stored _ patch, store =>
    ((), { store with samples := Table.update (·.dedupeKey) stored.dedupeKey patch.apply store.samples })
  | .claim nodeId provider providerSessionId owner, store =>
    ((), { store with samples := store.samples.map fun sample =>
      if sample.nodeId = nodeId ∧ sample.provider = provider ∧ sample.providerSessionId = some providerSessionId ∧
        sample.attributed = false then ownedBy sample owner else sample })
  | .finish ingest, store => ((), { store with finished := store.finished ++ [ingest] })

abbrev UsageProgram := Program UsageCall UsageReply Empty

inductive UpsertResult where
  | created | updated | unchanged
  deriving DecidableEq

structure UpsertOutcome where
  result : UpsertResult
  fleetSessionId : Option String
  agentRunId : Option String
  deriving DecidableEq

section
variable (deps : UsageDeps)

def newSample (nodeId : String) (keyed : KeyedRow) (owner : Option Attribution) : FleetUsageSample :=
  let row := keyed.row
  let priced := deps.price row.tokens row.model none
  { nodeId
    fleetSessionId := owner.bind (·.fleetSessionId)
    agentRunId := owner.bind (·.agentRunId)
    provider := row.provider
    providerSessionId := row.providerSessionId
    model := row.model
    tokens := row.tokens
    requests := row.requests
    costCents := priced.map fun (cents, _) => jsRound cents
    bucketStart := row.bucketStart
    checkoutPath := keyed.checkoutPath
    priceListVersion := priced.map (·.2)
    dedupeKey := keyed.key
    firstAt := some row.firstAt
    lastAt := some row.lastAt }

def samplePatch (stored : FleetUsageSample) (row : FleetUsageRow) (owner : Option Attribution) : SamplePatch :=
  let merged := mergeBucket ⟨stored.tokens, stored.requests, stored.firstAt, stored.lastAt⟩ row
  let priced := deps.price merged.tokens stored.model stored.priceListVersion
  { counts := if merged.changed then some (merged, priced.map fun (cents, _) => jsRound cents) else none
    priceListVersion := if merged.changed && stored.priceListVersion.isNone then priced.map (·.2) else none
    owner := if stored.attributed then none else owner }

def mergeStored (keyed : KeyedRow) (owner : Option Attribution) (stored : FleetUsageSample) :
    UsageProgram UpsertOutcome := do
  let patch := samplePatch deps stored keyed.row owner
  let fleetSessionId := stored.fleetSessionId.or (patch.owner.bind (·.fleetSessionId))
  let agentRunId := stored.agentRunId.or (patch.owner.bind (·.agentRunId))
  if patch.isEmpty then return ⟨.unchanged, fleetSessionId, agentRunId⟩
  else
    let _ ← Program.ask (UsageCall.update stored keyed.row patch)
    return ⟨.updated, fleetSessionId, agentRunId⟩

def upsert (nodeId : String) (keyed : KeyedRow) (owner : Option Attribution) (stored : Option FleetUsageSample) :
    UsageProgram (Option UpsertOutcome) :=
  match stored with
  | some stored => some <$> mergeStored deps keyed owner stored
  | none => do
    let inserted ← Program.ask (UsageCall.insert (newSample deps nodeId keyed owner))
    if inserted then
      return some ⟨.created, owner.bind (·.fleetSessionId), owner.bind (·.agentRunId)⟩
    else
      match ← Program.ask (UsageCall.findOne keyed.key) with
      | none => return none
      | some raced => some <$> mergeStored deps keyed owner raced

/-- A report that a node's scan delivered, with the owner that its sessions and runs give a bucket. -/
structure UsageReport where
  nodeId : String
  rows : List FleetUsageRow
  attribution : KeyedRow → Option Attribution

namespace UsageReport

def owner (report : UsageReport) (keyed : KeyedRow) : Option Attribution :=
  keyed.row.providerSessionId.bind fun _ => report.attribution keyed

/-- One claim for each provider and session that the report attributes: the first bucket's. -/
def claimable (report : UsageReport) : List KeyedRow → List (String × String × Attribution) →
    List (String × String × Attribution)
  | [], out => out
  | keyed :: rest, out =>
    match report.owner keyed, keyed.row.providerSessionId with
    | some owner, some id =>
      if out.any fun entry => entry.1 = keyed.row.provider && entry.2.1 = id then report.claimable rest out
      else report.claimable rest (out ++ [(keyed.row.provider, id, owner)])
    | _, _ => report.claimable rest out

end UsageReport

def upsertEach (report : UsageReport) (existing : List FleetUsageSample) :
    List KeyedRow → UsageProgram (Option (List UpsertOutcome))
  | [] => pure (some [])
  | keyed :: rest => do
    match ← upsert deps report.nodeId keyed (report.owner keyed)
        (existing.find? (·.dedupeKey = keyed.key)) with
    | none => return none
    | some outcome =>
      match ← upsertEach report existing rest with
      | none => return none
      | some outcomes => return some (outcome :: outcomes)

def ingestChunks (report : UsageReport) : List (List KeyedRow) → UsageProgram (Option (List UpsertOutcome))
  | [] => pure (some [])
  | chunk :: rest => do
    let existing ← Program.ask (UsageCall.find (chunk.map (·.key)))
    match ← upsertEach deps report existing chunk with
    | none => return none
    | some outcomes =>
      match ← ingestChunks report rest with
      | none => return none
      | some later => return some (outcomes ++ later)

def claimEach (nodeId : String) : List (String × String × Attribution) → UsageProgram Unit
  | [] => pure ()
  | (provider, providerSessionId, owner) :: rest => do
    let _ ← Program.ask (UsageCall.claim nodeId provider providerSessionId owner)
    claimEach nodeId rest

def usageChunk : Nat := 100

def ingest (number : Nat) (report : UsageReport) : UsageProgram Unit := do
  let rows := keyRows deps report.nodeId report.rows
  match ← ingestChunks deps report (chunks usageChunk rows) with
  | none => return ()
  | some _ =>
    claimEach report.nodeId (report.claimable rows [])
    Program.ask (UsageCall.finish number)

def usagePool (reports : List UsageReport) : Pool UsageStore UsageCall UsageReply Empty :=
  ⟨{}, reports.mapIdx (ingest deps)⟩

def afterIngests (reports : List UsageReport) (schedule : List Nat) : UsageStore :=
  (run (Pool.step serveUsage Empty.elim) (usagePool deps reports) schedule).state

end

end EverWorks.Fleet
