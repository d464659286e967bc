import EverWorks.Fleet.UsageSamples

/-!
What an ingest does once it has merged its samples: each run that the report touched is priced anew from all its
samples, and its ledger rows are topped up to that figure.
-/

namespace EverWorks.Fleet
open Lib Program

structure TopUp where
  owner : Attribution
  figure : Int
  already : Nat
  deriving DecidableEq

/-- A row of the ledger; `topUp` is none for a row that a headless run wrote. -/
structure PluginUsageEvent where
  runId : String
  pluginId : String
  costCents : Nat
  failed : Bool := false
  topUp : Option TopUp := none
  deriving DecidableEq

structure FleetSession where
  id : String
  provider : String
  agentRunId : Option String
  costCents : Option Int := none
  deriving DecidableEq

/-- A run, with the provider of its `fleetCliSession`. -/
structure AgentRun where
  id : String
  provider : Option String
  costCents : Option Int := none
  deriving DecidableEq

/-- `readings` are the samples that settlements have priced, with their owner. -/
structure LedgerStore where
  usage : UsageStore := {}
  sessions : List FleetSession := []
  runs : List AgentRun := []
  events : List PluginUsageEvent := []
  readings : List (Attribution × List FleetUsageSample) := []

structure UsageGroup where
  model : String
  priceListVersion : Option Nat
  tokens : FleetUsageTokens
  deriving DecidableEq

def addFleetUsageTokens (a b : FleetUsageTokens) : FleetUsageTokens where
  input := a.input + b.input
  output := a.output + b.output
  cacheRead := a.cacheRead + b.cacheRead
  cacheWrite := a.cacheWrite + b.cacheWrite

def addToGroups (groups : List UsageGroup) (row : FleetUsageSample) : List UsageGroup :=
  let same (group : UsageGroup) : Bool := group.model = row.model && group.priceListVersion = row.priceListVersion
  if groups.any same then
    groups.map fun group => if same group then { group with tokens := addFleetUsageTokens group.tokens row.tokens } else group
  else groups ++ [⟨row.model, row.priceListVersion, row.tokens⟩]

def groupFleetUsageSamples (rows : List FleetUsageSample) : List UsageGroup := rows.foldl addToGroups []

def priceUsageGroups (deps : UsageDeps) (groups : List UsageGroup) : Option Int :=
  match groups.filterMap fun group => deps.price group.tokens group.model group.priceListVersion with
  | [] => none
  | priced => some (jsRound (priced.map (·.1)).sum)

def fleetModelPluginId (provider : String) : String := "fleet-node:" ++ provider

inductive LedgerCall
  | samples (request : UsageCall)
  | findSession (id : String)
  | findSamples (owner : Attribution)
  | updateSession (id : String) (costCents : Option Int)
  | findRun (id : String)
  | getRunCostByPlugin (runId : String)
  | record (event : PluginUsageEvent)
  | stampCostCents (runId : String) (costCents : Int)

abbrev LedgerReply : LedgerCall → Type
  | .samples request => UsageReply request
  | .findSession _ => Option FleetSession
  | .findSamples _ => List FleetUsageSample
  | .findRun _ => Option AgentRun
  | .getRunCostByPlugin _ => List (String × Nat)
  | .updateSession _ _ | .record _ | .stampCostCents _ _ => Unit

abbrev LedgerProgram := Program LedgerCall LedgerReply Empty

def pluginCents (events : List PluginUsageEvent) (runId pluginId : String) : Nat :=
  ((events.filter fun event => event.runId = runId && event.pluginId = pluginId && !event.failed).map (·.costCents)).sum

def getRunCostByPlugin (events : List PluginUsageEvent) (runId : String) : List (String × Nat) :=
  (((events.filter fun event => event.runId = runId && !event.failed).map (·.pluginId)).eraseDups).map fun pluginId =>
    (pluginId, pluginCents events runId pluginId)

def FleetUsageSample.ownedBy (sample : FleetUsageSample) : Attribution → Bool
  | .fleetSession id => sample.fleetSessionId = some id
  | .agentRun id => sample.agentRunId = some id

def serveLedger : (request : LedgerCall) → LedgerStore → LedgerReply request × LedgerStore
  | .samples request, store =>
    let (reply, usage) := serveUsage request store.usage
    (reply, { store with usage })
  | .findSession id, store => (store.sessions.find? (·.id = id), store)
  | .findSamples owner, store =>
    let rows := store.usage.samples.filter (·.ownedBy owner)
    (rows, { store with readings := (owner, rows) :: store.readings })
  | .updateSession id costCents, store =>
    ((), { store with sessions := Table.update (·.id) id (fun session => { session with costCents }) store.sessions })
  | .findRun id, store => (store.runs.find? (·.id = id), store)
  | .getRunCostByPlugin runId, store => (getRunCostByPlugin store.events runId, store)
  | .record event, store => ((), { store with events := store.events ++ [event] })
  | .stampCostCents runId costCents, store =>
    ((), { store with runs := Table.update (·.id) runId (fun run => { run with costCents := some costCents }) store.runs })

section
variable (deps : UsageDeps)

def pricedFor (owner : Attribution) : LedgerProgram (Option Int) := do
  let rows : List FleetUsageSample ← ask (LedgerCall.findSamples owner)
  pure (priceUsageGroups deps (groupFleetUsageSamples rows))

def stampDirect (run : AgentRun) (cents : Int) : LedgerProgram Unit :=
  let next := max (run.costCents.getD 0) cents
  if some next ≠ run.costCents then ask (LedgerCall.stampCostCents run.id next) else pure ()

def settleRun (ledger : Bool) (owner : Attribution) (runId provider : String) (priced : Option Int) :
    LedgerProgram Unit :=
  match priced with
  | none => pure ()
  | some figure => do
    let found : Option AgentRun ← ask (LedgerCall.findRun runId)
    match found with
    | none => pure ()
    | some run =>
      if !ledger then stampDirect run figure
      else do
        let byPlugin : List (String × Nat) ← ask (LedgerCall.getRunCostByPlugin runId)
        let already : Nat := ((byPlugin.find? (·.1 = fleetModelPluginId provider)).map (·.2)).getD 0
        if 1 ≤ figure - already then
          ask (LedgerCall.record {
            runId
            pluginId := fleetModelPluginId provider
            costCents := (figure - already).toNat
            topUp := some ⟨owner, figure, already⟩ })
        let after : List (String × Nat) ← ask (LedgerCall.getRunCostByPlugin runId)
        let total : Int := (after.map (·.2)).sum
        if some total ≠ run.costCents then ask (LedgerCall.stampCostCents runId total) else pure ()

def isUsageProvider (provider : String) : Bool := provider = "claude-code" || provider = "codex"

def deriveSession (ledger : Bool) (sessionId : String) : LedgerProgram Unit := do
  let found : Option FleetSession ← ask (LedgerCall.findSession sessionId)
  match found with
  | none => pure ()
  | some session => do
    let priced ← pricedFor deps (.fleetSession sessionId)
    ask (LedgerCall.updateSession sessionId priced)
    match session.agentRunId with
    | some runId =>
      if runId ≠ "" ∧ isUsageProvider session.provider then
        settleRun ledger (.fleetSession sessionId) runId session.provider priced
      else pure ()
    | none => pure ()

def deriveTaskRun (ledger : Bool) (runId : String) : LedgerProgram Unit := do
  let found : Option AgentRun ← ask (LedgerCall.findRun runId)
  match found.bind (·.provider) with
  | none => pure ()
  | some provider =>
    if isUsageProvider provider then do
      let priced ← pricedFor deps (.agentRun runId)
      settleRun ledger (.agentRun runId) runId provider priced
    else pure ()

def eachOf {α : Type} (program : α → LedgerProgram Unit) : List α → LedgerProgram Unit
  | [] => pure ()
  | one :: rest => do
    program one
    eachOf program rest

def onSamples {α : Type} (program : UsageProgram α) : LedgerProgram α :=
  program.lift LedgerCall.samples fun _ reply => reply

def ingestReport (ledger : Bool) (number : Nat) (report : UsageReport) : LedgerProgram Unit := do
  let rows := keyRows deps report.nodeId report.rows
  let merged ← onSamples (ingestChunks deps report (chunks usageChunk rows))
  match merged with
  | none => pure ()
  | some outcomes => do
    onSamples (claimEach report.nodeId (report.claimable rows []))
    eachOf (deriveSession deps ledger) (outcomes.filterMap (·.fleetSessionId)).eraseDups
    eachOf (deriveTaskRun deps ledger)
      ((outcomes.filter (·.fleetSessionId.isNone)).filterMap (·.agentRunId)).eraseDups
    onSamples (ask (UsageCall.finish number))

/-- What may run side by side: the ingest of a report, and the usage row of a headless run. -/
inductive LedgerJob
  | scan (report : UsageReport)
  | headless (runId pluginId : String) (costCents : Nat) (failed : Bool)

def LedgerJob.run (ledger : Bool) (number : Nat) : LedgerJob → LedgerProgram Unit
  | .scan report => ingestReport deps ledger number report
  | .headless runId pluginId costCents failed => ask (LedgerCall.record { runId, pluginId, costCents, failed })

abbrev LedgerPool := Pool LedgerStore LedgerCall LedgerReply Empty

def ledgerPool (ledger : Bool) (store : LedgerStore) (jobs : List LedgerJob) : LedgerPool :=
  ⟨store, jobs.mapIdx (LedgerJob.run deps ledger)⟩

def afterLedger (ledger : Bool) (store : LedgerStore) (jobs : List LedgerJob) (schedule : List Nat) : LedgerStore :=
  (run (Pool.step serveLedger Empty.elim) (ledgerPool deps ledger store jobs) schedule).state

end

end EverWorks.Fleet
