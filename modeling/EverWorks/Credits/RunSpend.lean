import EverWorks.Lib.Grouping

/-!
What `RunCostSettlementService.settleRun` computes from a run's usage rows before it debits: the totals of the
plugins, the exempt part, and the credits that fixed prices ask for.
-/

namespace EverWorks.Credits
open Lib Grouping List List

inductive UsageMeter where
  | model | credits | addon
  deriving DecidableEq

inductive UsagePayer where
  | workspace | platform | unconfirmed
  deriving DecidableEq

inductive UsageOutcome where
  | ok | cached | failed
  deriving DecidableEq

/-- A usage row of the run; the Model Account is the one of its metadata. -/
structure PluginUsageEvent where
  pluginId : String
  costCents : ℕ
  outcome : Option UsageOutcome := none
  modelAccountId : Option String := none
  meter : Option UsageMeter := none
  payer : Option UsagePayer := none
  priceKey : Option String := none
  priceVersion : Option ℤ := none
  creditsCharged : ℕ := 0
  deriving DecidableEq

structure MeterKey where
  pluginId : String
  meter : Option UsageMeter
  payer : Option UsagePayer
  priceKey : Option String
  priceVersion : Option ℤ
  deriving DecidableEq

namespace PluginUsageEvent

variable (row : PluginUsageEvent)

def failed : Bool := row.outcome = some .failed

def accountId : String := row.modelAccountId.getD ""

def meterKey : MeterKey := ⟨row.pluginId, row.meter, row.payer, row.priceKey, row.priceVersion⟩

end PluginUsageEvent

structure RunPluginSpend where
  pluginId : String
  costCents : ℕ
  deriving DecidableEq

structure RunModelAccountSpend where
  pluginId : String
  modelAccountId : String
  costCents : ℕ
  deriving DecidableEq

structure RunMeterGroup extends MeterKey where
  costCents : ℕ
  creditsCharged : ℕ
  deriving DecidableEq

def getRunCostByPlugin (rows : List PluginUsageEvent) : List RunPluginSpend :=
  (groupBy (·.pluginId) (rows.filter fun row => !row.failed)).map fun group =>
    { pluginId := group.1
      costCents := (group.2.map (·.costCents)).sum }

def getRunCostByModelAccount (rows : List PluginUsageEvent) : List RunModelAccountSpend :=
  (groupBy (fun row => (row.pluginId, row.accountId))
    (rows.filter fun row => 0 < row.costCents && row.accountId ≠ "")).map fun group =>
    { pluginId := group.1.1
      modelAccountId := group.1.2
      costCents := (group.2.map (·.costCents)).sum }

def meterGroup (group : MeterKey × List PluginUsageEvent) : RunMeterGroup :=
  { group.1 with
    costCents := (group.2.map (·.costCents)).sum
    creditsCharged := (group.2.map (·.creditsCharged)).sum }

def getRunMeterGroups (rows : List PluginUsageEvent) : List RunMeterGroup := (groupBy (·.meterKey) rows).map meterGroup

inductive SettingSource where
  | default | env | admin | work | user | platform
  deriving DecidableEq

structure ModelAccount where
  workspaceKey : String
  providerPluginId : String
  deriving DecidableEq

structure OwnerPaidUsageFacts where
  pluginId : String
  apiKeySource : Option SettingSource := none
  modelAccountId : Option String := none
  modelAccount : Option ModelAccount := none
  workspaceKey : Option String := none

def isFleetModelPluginId (pluginId : String) : Bool := "fleet-node:".toList.isPrefixOf pluginId.toList

def isOwnerPaidUsage (facts : OwnerPaidUsageFacts) : Bool :=
  if isFleetModelPluginId facts.pluginId then true
  else if facts.apiKeySource = some .user ∨ facts.apiKeySource = some .work then true
  else match facts.modelAccount with
    | some account => facts.modelAccountId.getD "" ≠ "" && facts.workspaceKey.getD "" ≠ "" &&
        some account.workspaceKey = facts.workspaceKey && account.providerPluginId = facts.pluginId
    | none => false

/-- The run that is settled. -/
structure SettledRun where
  userId : String
  organizationId : Option String := none
  deriving DecidableEq

def modelWorkspaceKey (run : SettledRun) : String :=
  if run.organizationId.getD "" ≠ "" then "org:" ++ run.organizationId.getD "" else "user:" ++ run.userId

inductive CreditSettlementMode where
  | providerCost | priceList
  deriving DecidableEq

/-- What a settlement is told by others. -/
structure SettlementDeps where
  /-- Where a plugin's `apiKey` resolves from for the run; `none` when that is not resolved. -/
  apiKeySource : String → Option SettingSource
  /-- The Model Account stored under an id. -/
  findOwnership : String → Option ModelAccount
  creditsForCostCents : ℕ → ℕ

section
variable (deps : SettlementDeps) (run : SettledRun)

def resolveExemptPlugins (spend : List RunPluginSpend) : List String :=
  (spend.filter fun row => 0 < row.costCents && (isOwnerPaidUsage { pluginId := row.pluginId } ||
    isOwnerPaidUsage { pluginId := row.pluginId, apiKeySource := deps.apiKeySource row.pluginId })).map (·.pluginId)

structure ModelAccountPaid where
  byPlugin : OrderedMap String ℕ
  accountIds : List String

def resolveModelAccountPaidSpend (rows : List PluginUsageEvent) (exemptPluginIds : List String) : ModelAccountPaid :=
  let rows := (getRunCostByModelAccount rows).filter fun row => 0 < row.costCents && row.pluginId ∉ exemptPluginIds
  let paid := rows.filter fun row => isOwnerPaidUsage
    { pluginId := row.pluginId
      modelAccountId := some row.modelAccountId
      modelAccount := deps.findOwnership row.modelAccountId
      workspaceKey := some (modelWorkspaceKey run) }
  { byPlugin := tally (paid.map fun row => (row.pluginId, row.costCents))
    accountIds := (paid.map (·.modelAccountId)).eraseDups }

structure FixedPricedRow where
  pluginId : String
  costCents : ℕ
  creditsCharged : ℕ
  unconfirmed : Bool
  deriving DecidableEq

structure MeteredSpend where
  fixedRows : List FixedPricedRow
  workspacePluginIds : List String
  legacySpend : List RunPluginSpend

def isFixed (meter : Option UsageMeter) (payer : Option UsagePayer) (priceVersion : Option ℤ) : Bool :=
  meter = some .credits && priceVersion ≠ none && payer ≠ some .workspace

def notDebited (meter : Option UsageMeter) (payer : Option UsagePayer) : Bool :=
  meter = some .model || meter = some .addon || (meter = some .credits && payer = some .workspace)

def splitMeteredSpend (spend : List RunPluginSpend) (groups : List RunMeterGroup) : MeteredSpend :=
  let fixed := groups.filter fun group => isFixed group.meter group.payer group.priceVersion
  let elsewhere := groups.filter fun group =>
    isFixed group.meter group.payer group.priceVersion || notDebited group.meter group.payer
  let settledElsewhere := tally (elsewhere.map fun group => (group.pluginId, group.costCents))
  { fixedRows := fixed.map fun group =>
      { pluginId := group.pluginId
        costCents := group.costCents
        creditsCharged := group.creditsCharged
        unconfirmed := group.payer ≠ some .platform }
    workspacePluginIds := ((elsewhere.filter fun group =>
      !isFixed group.meter group.payer group.priceVersion && group.meter ≠ some .addon && 0 < group.costCents).map
        (·.pluginId)).eraseDups
    legacySpend := spend.map fun row =>
      { pluginId := row.pluginId
        costCents := row.costCents - (settledElsewhere.get row.pluginId).getD 0 } }

def settleEverythingFromProviderCost (spend : List RunPluginSpend) : MeteredSpend :=
  { fixedRows := [], workspacePluginIds := [], legacySpend := spend }

def dedupeByPlugin (pluginIds : List String) : List RunPluginSpend :=
  pluginIds.eraseDups.map fun pluginId => { pluginId, costCents := 1 }

def meteredSpend (mode : CreditSettlementMode) (rows : List PluginUsageEvent) : MeteredSpend :=
  match mode with
  | .priceList => splitMeteredSpend (getRunCostByPlugin rows) (getRunMeterGroups rows)
  | .providerCost => settleEverythingFromProviderCost (getRunCostByPlugin rows)

namespace MeteredSpend

variable (metered : MeteredSpend)

def exempt : List String := resolveExemptPlugins deps metered.legacySpend

def exemptFixed : List String :=
  let unconfirmedFixedPlugins := metered.fixedRows.filter fun row => row.unconfirmed && row.pluginId ∉ metered.exempt deps
  resolveExemptPlugins deps (dedupeByPlugin (unconfirmedFixedPlugins.map (·.pluginId)))

def exemptPluginIds : List String :=
  (metered.exempt deps ++ metered.workspacePluginIds ++ metered.exemptFixed deps).eraseDups

end MeteredSpend

structure SettlementLegs where
  exemptPluginIds : List String
  exemptModelAccountIds : List String
  legacyBillable : List RunPluginSpend
  fixedRows : List FixedPricedRow
  billedFixed : List FixedPricedRow

def settlementLegs (mode : CreditSettlementMode) (rows : List PluginUsageEvent) : SettlementLegs :=
  let metered := meteredSpend mode rows
  let exemptPluginIds := metered.exemptPluginIds deps
  let accountPaid := resolveModelAccountPaidSpend deps run rows exemptPluginIds
  { exemptPluginIds := exemptPluginIds ++ (metered.legacySpend.filter fun row =>
      0 < row.costCents && row.costCents ≤ (accountPaid.byPlugin.get row.pluginId).getD 0 &&
        row.pluginId ∉ exemptPluginIds).map (·.pluginId)
    exemptModelAccountIds := accountPaid.accountIds
    legacyBillable := (metered.legacySpend.filter fun row => row.pluginId ∉ metered.exempt deps).map fun row =>
      { pluginId := row.pluginId
        costCents := row.costCents - (accountPaid.byPlugin.get row.pluginId).getD 0 }
    fixedRows := metered.fixedRows
    billedFixed := metered.fixedRows.filter fun row =>
      !(row.unconfirmed && (row.pluginId ∈ metered.exempt deps || row.pluginId ∈ metered.exemptFixed deps)) }

namespace SettlementLegs

variable (legs : SettlementLegs)

def legacyBillableCents : ℕ := (legs.legacyBillable.map (·.costCents)).sum

def fixedCents : ℕ := (legs.billedFixed.map (·.costCents)).sum

def fixedCredits : ℕ := (legs.billedFixed.map (·.creditsCharged)).sum

def billableCostCents : ℕ := legs.legacyBillableCents + legs.fixedCents

end SettlementLegs

/-- The arguments of `consumeForRun`; without credits the ledger converts the cost. -/
structure ConsumeForRun where
  costCents : ℕ
  credits : Option ℕ
  deriving DecidableEq

structure RunSettlement where
  totalCostCents : ℕ := 0
  billableCostCents : ℕ := 0
  exemptPluginIds : List String := []
  exemptModelAccountIds : List String := []
  consume : Option ConsumeForRun := none
  deriving DecidableEq

def settleRun (mode : CreditSettlementMode) (rows : List PluginUsageEvent) : RunSettlement :=
  let spend := getRunCostByPlugin rows
  if spend = [] then {}
  else
    let legs := settlementLegs deps run mode rows
    { totalCostCents := (spend.map (·.costCents)).sum
      billableCostCents := legs.billableCostCents
      exemptPluginIds := legs.exemptPluginIds
      exemptModelAccountIds := legs.exemptModelAccountIds
      consume := if legs.billableCostCents = 0 ∧ legs.fixedCredits = 0 then none
        else some
          { costCents := legs.billableCostCents
            credits := if legs.fixedRows = [] then none
              else some (legs.fixedCredits + deps.creditsForCostCents legs.legacyBillableCents) } }

end

def exemptPlugin (deps : SettlementDeps) (pluginId : String) : Bool :=
  isFleetModelPluginId pluginId || deps.apiKeySource pluginId = some .user || deps.apiKeySource pluginId = some .work

def servedByOwnAccount (deps : SettlementDeps) (run : SettledRun) (row : PluginUsageEvent) : Bool :=
  row.accountId ≠ "" && (deps.findOwnership row.accountId).any fun account =>
    account.workspaceKey = modelWorkspaceKey run && account.providerPluginId = row.pluginId

section
variable {deps : SettlementDeps} {run : SettledRun} {rows : List PluginUsageEvent} {pluginId : String}

abbrev cents (rows : List PluginUsageEvent) (p : PluginUsageEvent → Bool) : ℕ := sumOf rows (·.costCents) p

abbrev spendOf (spend : List RunPluginSpend) (pluginId : String) : ℕ :=
  sumOf spend (·.costCents) fun row => row.pluginId = pluginId

theorem spendOf_getRunCostByPlugin : spendOf (getRunCostByPlugin rows) pluginId =
    cents rows fun row => row.pluginId = pluginId && !row.failed := by
  rw [spendOf, getRunCostByPlugin]
  refine (sumOf_map_groupBy PluginUsageEvent.costCents (fun key => decide (key = pluginId)) ?_ ?_ _).trans sumOf_filter
  · exact fun _ => rfl
  · exact fun _ => rfl

theorem nodup_getRunCostByPlugin : ((getRunCostByPlugin rows).map (·.pluginId)).Nodup := by
  rw [getRunCostByPlugin, groupBy, map_map, map_map]
  exact (map_id _).symm ▸ nodup_dedup _

theorem spendOf_reduced {spend : List RunPluginSpend} (distinct : (spend.map (·.pluginId)).Nodup) (taken : String → ℕ) :
    spendOf (spend.map fun row => { pluginId := row.pluginId, costCents := row.costCents - taken row.pluginId })
      pluginId = spendOf spend pluginId - taken pluginId := by
  induction spend with
  | nil => exact (Nat.zero_sub _).symm
  | cons row rest ih =>
    obtain ⟨absent, distinct⟩ := nodup_cons.mp distinct
    have ih : sumOf (rest.map fun row => RunPluginSpend.mk row.pluginId (row.costCents - taken row.pluginId))
        (·.costCents) (fun row => row.pluginId = pluginId) = spendOf rest pluginId - taken pluginId := ih distinct
    rw [spendOf, map_cons, sumOf_cons, ih, spendOf, spendOf, sumOf_cons]
    by_cases same : row.pluginId = pluginId
    · have nothing : spendOf rest pluginId = 0 := sumOf_eq_zero_iff.mpr fun other member equal =>
        absurd (mem_map.mpr ⟨other, member, (of_decide_eq_true equal).trans same.symm⟩) absent
      rw [spendOf] at nothing
      rw [if_pos (decide_eq_true same), if_pos (decide_eq_true same), nothing, same, Nat.zero_sub, Nat.add_zero,
        Nat.add_zero]
    · have other : ¬ decide (row.pluginId = pluginId) = true := fun equal => same (of_decide_eq_true equal)
      rw [if_neg other, if_neg other, Nat.zero_add, Nat.zero_add]

theorem spendOf_filter {spend : List RunPluginSpend} (p : String → Bool) :
    spendOf (spend.filter fun row => p row.pluginId) pluginId = if p pluginId then spendOf spend pluginId else 0 := by
  rw [spendOf, sumOf_filter]
  split
  · rename_i holds
    exact sumOf_congr fun row _ _ => by by_cases same : row.pluginId = pluginId <;> simp [same, holds]
  · rename_i fails
    exact sumOf_eq_zero_iff.mpr fun row _ here => by
      rw [Bool.and_eq_true] at here
      exact absurd (of_decide_eq_true here.1 ▸ here.2) fails

theorem isOwnerPaidUsage_apiKey : isOwnerPaidUsage { pluginId, apiKeySource := deps.apiKeySource pluginId } =
    exemptPlugin deps pluginId := by
  rw [isOwnerPaidUsage, exemptPlugin]
  cases isFleetModelPluginId pluginId <;> simp

theorem isOwnerPaidUsage_account {row : RunModelAccountSpend} (owned : isFleetModelPluginId row.pluginId = false) :
    isOwnerPaidUsage
      { pluginId := row.pluginId
        modelAccountId := some row.modelAccountId
        modelAccount := deps.findOwnership row.modelAccountId
        workspaceKey := some (modelWorkspaceKey run) } =
      (row.modelAccountId ≠ "" && (deps.findOwnership row.modelAccountId).any fun account =>
        account.workspaceKey = modelWorkspaceKey run && account.providerPluginId = row.pluginId) := by
  have named : modelWorkspaceKey run ≠ "" := by
    rw [modelWorkspaceKey]
    split
    · exact fun empty => absurd (congrArg String.toList empty) (by simp)
    · exact fun empty => absurd (congrArg String.toList empty) (by simp)
  rw [isOwnerPaidUsage]
  cases deps.findOwnership row.modelAccountId <;> simp [owned, named, Bool.and_assoc]

theorem mem_resolveExemptPlugins (spend : List RunPluginSpend) (pluginId : String) : pluginId ∈ resolveExemptPlugins deps spend ↔
    0 < spendOf spend pluginId ∧ exemptPlugin deps pluginId := by
  have paid (pluginId : String) : (isOwnerPaidUsage { pluginId } ||
      isOwnerPaidUsage { pluginId, apiKeySource := deps.apiKeySource pluginId }) = exemptPlugin deps pluginId := by
    rw [isOwnerPaidUsage_apiKey, isOwnerPaidUsage, exemptPlugin]
    cases isFleetModelPluginId pluginId <;> simp
  rw [resolveExemptPlugins, mem_map, Nat.pos_iff_ne_zero, Ne, sumOf_eq_zero_iff]
  constructor
  · rintro ⟨row, member, rfl⟩
    obtain ⟨member, costed⟩ := mem_filter.mp member
    rw [paid, Bool.and_eq_true, decide_eq_true_eq] at costed
    exact ⟨fun none => absurd (none row member (decide_eq_true rfl)) costed.1.ne', costed.2⟩
  · rintro ⟨some, exempt⟩
    push Not at some
    obtain ⟨row, member, same, costed⟩ := some
    obtain rfl := of_decide_eq_true same
    refine ⟨row, mem_filter.mpr ⟨member, ?_⟩, rfl⟩
    rw [paid, exempt, Bool.and_true]
    exact decide_eq_true (Nat.pos_of_ne_zero costed)

theorem getD_byPlugin {exemptPluginIds : List String} (owned : isFleetModelPluginId pluginId = false) :
    ((resolveModelAccountPaidSpend deps run rows exemptPluginIds).byPlugin.get pluginId).getD 0 =
      if pluginId ∈ exemptPluginIds then 0
      else cents rows fun row => row.pluginId = pluginId && servedByOwnAccount deps run row := by
  rw [resolveModelAccountPaidSpend, getD_tally, sumOf_map, sumOf_filter, sumOf_filter]
  split
  · rename_i exempt
    refine sumOf_eq_zero_iff.mpr fun row _ here => ?_
    simp only [Bool.and_eq_true, decide_eq_true_eq] at here
    exact absurd (here.1.1 ▸ exempt) here.2.2
  · rename_i counted
    let own (key : String × String) : Bool := key.1 = pluginId && (key.2 ≠ "" &&
      (deps.findOwnership key.2).any fun account =>
        account.workspaceKey = modelWorkspaceKey run && account.providerPluginId = key.1)
    have groups : sumOf (getRunCostByModelAccount rows) (·.costCents) (fun row => own (row.pluginId, row.modelAccountId)) =
        cents rows fun row => own (row.pluginId, row.accountId) && (0 < row.costCents && row.accountId ≠ "") := by
      rw [getRunCostByModelAccount]
      refine (sumOf_map_groupBy PluginUsageEvent.costCents own ?_ ?_ _).trans sumOf_filter
      · exact fun _ => rfl
      · exact fun _ => rfl
    refine (sumOf_congr fun row _ costed => ?_).trans (groups.trans (sumOf_congr fun row _ costed => ?_))
    · by_cases same : row.pluginId = pluginId
      · have owned : isFleetModelPluginId row.pluginId = false := same ▸ owned
        have costed : 0 < row.costCents := costed
        rw [isOwnerPaidUsage_account owned]
        simp only [own, same, counted, costed, decide_true, not_false_eq_true, Bool.true_and, Bool.and_true]
      · simp only [same, own, decide_false, Bool.false_and]
    · have costed : 0 < row.costCents := costed
      simp only [own, servedByOwnAccount, costed, decide_true, Bool.true_and]
      cases decide (row.accountId ≠ "") <;> simp

theorem mem_exemptPluginIds {metered : MeteredSpend} (billed : ¬ exemptPlugin deps pluginId) :
    pluginId ∈ metered.exemptPluginIds deps ↔ pluginId ∈ metered.workspacePluginIds := by
  have free : ∀ spend, pluginId ∉ resolveExemptPlugins deps spend :=
    fun spend listed => billed ((mem_resolveExemptPlugins spend pluginId).mp listed).2
  rw [MeteredSpend.exemptPluginIds, mem_eraseDups, mem_append, mem_append, MeteredSpend.exempt,
    MeteredSpend.exemptFixed]
  simp only [free, false_or, or_false]

theorem pluginIds_legacySpend (mode : CreditSettlementMode) (rows : List PluginUsageEvent) :
    (meteredSpend mode rows).legacySpend.map (·.pluginId) = (getRunCostByPlugin rows).map (·.pluginId) := by
  cases mode with
  | priceList => exact map_map
  | providerCost => rfl

/-- What is billed for a plugin at provider cost: nothing where it is exempt, and otherwise its spend, less what Model
Accounts served where no row of it is stamped as paid by the Workspace. -/
theorem spendOf_legacyBillable (mode : CreditSettlementMode) (rows : List PluginUsageEvent) (pluginId : String) :
    spendOf (settlementLegs deps run mode rows).legacyBillable pluginId =
    if exemptPlugin deps pluginId then 0
    else spendOf (meteredSpend mode rows).legacySpend pluginId -
      if pluginId ∈ (meteredSpend mode rows).workspacePluginIds then 0
      else cents rows fun row => row.pluginId = pluginId && servedByOwnAccount deps run row := by
  have distinct : ((meteredSpend mode rows).legacySpend.map (·.pluginId)).Nodup :=
    pluginIds_legacySpend mode rows ▸ nodup_getRunCostByPlugin
  have kept := distinct.sublist (filter_sublist (p := fun row => row.pluginId ∉
    (meteredSpend mode rows).exempt deps) |>.map RunPluginSpend.pluginId)
  have exempted : (if decide (pluginId ∉ (meteredSpend mode rows).exempt deps) then
      spendOf (meteredSpend mode rows).legacySpend pluginId else 0) =
      if exemptPlugin deps pluginId then 0 else spendOf (meteredSpend mode rows).legacySpend pluginId := by
    have listed : pluginId ∈ (meteredSpend mode rows).exempt deps ↔ _ := mem_resolveExemptPlugins _ pluginId
    grind
  rw [settlementLegs]
  dsimp only
  rw [spendOf_reduced kept fun pluginId => ((resolveModelAccountPaidSpend deps run rows
    ((meteredSpend mode rows).exemptPluginIds deps)).byPlugin.get pluginId).getD 0,
    spendOf_filter fun pluginId => pluginId ∉ (meteredSpend mode rows).exempt deps, exempted]
  split
  · exact Nat.zero_sub _
  · rename_i billed
    have owned : isFleetModelPluginId pluginId = false := by
      rw [exemptPlugin] at billed
      cases fleet : isFleetModelPluginId pluginId
      · rfl
      · rw [fleet] at billed
        exact absurd rfl billed
    rw [getD_byPlugin owned]
    simp only [mem_exemptPluginIds billed]

theorem legacyBillableCents_eq (mode : CreditSettlementMode) (rows : List PluginUsageEvent) :
    (settlementLegs deps run mode rows).legacyBillableCents = ((rows.map (·.pluginId)).dedup.map fun pluginId =>
      spendOf (settlementLegs deps run mode rows).legacyBillable pluginId).sum := by
  have listed : ∀ row ∈ (settlementLegs deps run mode rows).legacyBillable,
      row.pluginId ∈ (rows.map (·.pluginId)).dedup := by
    intro row member
    obtain ⟨spent, kept, rfl⟩ := mem_map.mp member
    have id := mem_map_of_mem (f := RunPluginSpend.pluginId) (mem_of_mem_filter kept)
    rw [pluginIds_legacySpend, getRunCostByPlugin, groupBy, map_map, map_map] at id
    obtain ⟨key, there, same⟩ := mem_map.mp id
    obtain ⟨first, present, rfl⟩ := mem_map.mp (mem_dedup.mp there)
    exact mem_dedup.mpr (mem_map.mpr ⟨first, mem_of_mem_filter present, same⟩)
  have total := sum_over_keys (nodup_dedup _) listed (·.costCents) fun _ => true
  simp only [Bool.and_true] at total
  rw [SettlementLegs.legacyBillableCents, ← sumOf_true]
  exact total.symm

end

end EverWorks.Credits
