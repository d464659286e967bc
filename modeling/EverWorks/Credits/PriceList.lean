import EverWorks.Credits.ProviderCost

/-!
In the `price_list` mode a row is settled by its stamp: at a fixed price, not at all, or at provider cost. What Model
Accounts served comes off a plugin's cost as one sum, whatever the stamps of the rows.
-/

namespace EverWorks.Credits
open Lib Grouping List

theorem isFixed_of_notDebited {meter : Option UsageMeter} {payer : Option UsagePayer} (stamped : notDebited meter payer)
    (priceVersion : Option ℤ) : isFixed meter payer priceVersion = false := by
  rw [notDebited] at stamped
  rw [isFixed]
  grind

namespace PluginUsageEvent

variable (row : PluginUsageEvent)

def fixedPrice : Bool := isFixed row.meter row.payer row.priceVersion

def undebited : Bool := notDebited row.meter row.payer

def workspaceStamped : Bool := row.undebited && row.meter ≠ some .addon

def atProviderCost : Bool := !row.fixedPrice && !row.undebited

theorem atProviderCost_eq : row.atProviderCost = (!row.fixedPrice && !row.undebited) := rfl

def unconfirmed : Bool := row.payer ≠ some .platform

end PluginUsageEvent

section
variable (deps : SettlementDeps) (run : SettledRun)

def billedFixedPrice (row : PluginUsageEvent) : Bool :=
  row.fixedPrice && !(row.unconfirmed && exemptPlugin deps row.pluginId)

def dueAtCost (row : PluginUsageEvent) : Bool :=
  row.atProviderCost && !exemptPlugin deps row.pluginId && !servedByOwnAccount deps run row

def dueFixedPrice (row : PluginUsageEvent) : Bool := billedFixedPrice deps row && !servedByOwnAccount deps run row

def exempted (row : PluginUsageEvent) : Bool :=
  !row.undebited && !dueAtCost deps run row && !dueFixedPrice deps run row

/-- The debit takes the cost of every row that is owed, and of no other: plugin by plugin at provider cost, and at the
fixed prices. -/
structure CountsOnce (rows : List PluginUsageEvent) : Prop where
  providerCost : ∀ pluginId, spendOf (settlementLegs deps run .priceList rows).legacyBillable pluginId =
    cents rows fun row => row.pluginId = pluginId && dueAtCost deps run row
  fixedCents : (settlementLegs deps run .priceList rows).fixedCents = cents rows (dueFixedPrice deps run)
  fixedCredits : (settlementLegs deps run .priceList rows).fixedCredits =
    sumOf rows (·.creditsCharged) (dueFixedPrice deps run)
  accounts : (settleRun deps run .priceList rows).consumedCents + cents rows (exempted deps run) +
    cents rows (·.undebited) = cents rows fun _ => true

/-- Where the stamps and the Model Accounts of a run keep apart. -/
structure AccountsApart (rows : List PluginUsageEvent) : Prop where
  /-- No account served a row that a fixed price bills. -/
  fixedPrice : ∀ row ∈ rows, billedFixedPrice deps row → servedByOwnAccount deps run row →
    row.costCents = 0 ∧ row.creditsCharged = 0
  /-- Where a plugin has a cost stamped as paid by the Workspace, no account served its provider cost. -/
  stamped : ∀ stamped ∈ rows, stamped.workspaceStamped → 0 < stamped.costCents →
    exemptPlugin deps stamped.pluginId = false →
    ∀ row ∈ rows, row.pluginId = stamped.pluginId → row.atProviderCost → servedByOwnAccount deps run row →
      row.costCents = 0
  /-- Where it has none and an account served an add-on's cost of it, accounts served all its provider cost. -/
  addon : ∀ addon ∈ rows, addon.meter = some .addon → servedByOwnAccount deps run addon → 0 < addon.costCents →
    exemptPlugin deps addon.pluginId = false →
    (∀ row ∈ rows, row.pluginId = addon.pluginId → row.workspaceStamped → row.costCents = 0) →
    ∀ row ∈ rows, row.pluginId = addon.pluginId → row.atProviderCost → servedByOwnAccount deps run row = false →
      row.costCents = 0

variable {deps run} {rows : List PluginUsageEvent}

theorem sumOf_getRunMeterGroups (rows : List PluginUsageEvent) (column : RunMeterGroup → ℕ)
    (rowColumn : PluginUsageEvent → ℕ) (p : MeterKey → Bool)
    (columns : ∀ group, column (meterGroup group) = (group.2.map rowColumn).sum) :
    sumOf (getRunMeterGroups rows) column (fun group => p group.toMeterKey) =
      sumOf rows rowColumn fun row => p row.meterKey := by
  rw [getRunMeterGroups]
  refine sumOf_map_groupBy rowColumn p columns ?_ _
  exact fun _ => rfl

theorem spendOf_legacySpend (zeroRated : ∀ row ∈ rows, row.failed → row.costCents = 0) (pluginId : String) :
    spendOf (meteredSpend .priceList rows).legacySpend pluginId =
      cents rows fun row => row.pluginId = pluginId && row.atProviderCost := by
  have elsewhere := sumOf_getRunMeterGroups rows (·.costCents) (·.costCents) (fun key =>
    key.pluginId = pluginId && (isFixed key.meter key.payer key.priceVersion || notDebited key.meter key.payer))
    fun _ => rfl
  have charged : (cents rows fun row => row.pluginId = pluginId && !row.failed) =
      sumOf rows (·.costCents) fun row => row.pluginId = pluginId :=
    sumOf_congr fun row member costed => by
      have worked : row.failed = false := Bool.eq_false_iff.mpr fun fails => absurd (zeroRated row member fails) costed.ne'
      rw [worked, Bool.not_false, Bool.and_true]
  have parts := sumOf_split rows (·.costCents) (fun row => row.pluginId = pluginId)
    fun row => row.fixedPrice || row.undebited
  have rest : (cents rows fun row => row.pluginId = pluginId && row.atProviderCost) =
      sumOf rows (·.costCents) fun row => decide (row.pluginId = pluginId) && !(row.fixedPrice || row.undebited) :=
    sumOf_congr fun row _ _ => by rw [PluginUsageEvent.atProviderCost, Bool.not_or]
  rw [meteredSpend, splitMeteredSpend]
  dsimp only
  rw [spendOf_reduced nodup_getRunCostByPlugin fun pluginId => ((tally _).get pluginId).getD 0, getD_tally, sumOf_map,
    sumOf_filter, elsewhere, spendOf_getRunCostByPlugin, charged, rest, parts]
  exact Nat.add_sub_cancel_left _ _

theorem mem_workspacePluginIds (pluginId : String) : pluginId ∈ (meteredSpend .priceList rows).workspacePluginIds ↔
    ∃ row ∈ rows, row.pluginId = pluginId ∧ row.workspaceStamped ∧ 0 < row.costCents := by
  have stamped := sumOf_getRunMeterGroups rows (·.costCents) (·.costCents) (fun key =>
    key.pluginId = pluginId && (notDebited key.meter key.payer && key.meter ≠ some .addon)) fun _ => rfl
  have listed := sumOf_pos_iff.symm.trans ((Eq.to_iff (congrArg (0 < ·) stamped)).trans sumOf_pos_iff)
  rw [meteredSpend, splitMeteredSpend, mem_eraseDups, mem_map]
  constructor
  · rintro ⟨group, member, rfl⟩
    rw [filter_filter, mem_filter] at member
    obtain ⟨row, present, asked, costed⟩ := listed.mp ⟨group, member.1, by grind⟩
    rw [Bool.and_eq_true, decide_eq_true_eq] at asked
    exact ⟨row, present, asked.1, asked.2, costed⟩
  · rintro ⟨row, member, rfl, asked, costed⟩
    obtain ⟨group, present, here, costed⟩ := listed.mpr
      ⟨row, member, Bool.and_eq_true_iff.mpr ⟨decide_eq_true rfl, asked⟩, costed⟩
    refine ⟨group, ?_, by grind⟩
    rw [filter_filter, mem_filter]
    grind [isFixed_of_notDebited]

theorem billedFixed_eq (mode : CreditSettlementMode) : (settlementLegs deps run mode rows).billedFixed =
    (meteredSpend mode rows).fixedRows.filter fun row => !(row.unconfirmed && exemptPlugin deps row.pluginId) := by
  refine filter_congr fun row member => ?_
  have exempt : row.pluginId ∈ (meteredSpend mode rows).exempt deps → exemptPlugin deps row.pluginId :=
    fun listed => ((mem_resolveExemptPlugins _ _).mp listed).2
  have exemptFixed : row.pluginId ∈ (meteredSpend mode rows).exemptFixed deps → exemptPlugin deps row.pluginId :=
    fun listed => ((mem_resolveExemptPlugins _ _).mp listed).2
  have asked : row.unconfirmed → row.pluginId ∉ (meteredSpend mode rows).exempt deps →
      exemptPlugin deps row.pluginId → row.pluginId ∈ (meteredSpend mode rows).exemptFixed deps := by
    intro unconfirmed free owned
    refine (mem_resolveExemptPlugins _ _).mpr ⟨sumOf_pos_iff.mpr ⟨⟨row.pluginId, 1⟩, ?_, decide_eq_true rfl, Nat.one_pos⟩, owned⟩
    refine mem_map.mpr ⟨row.pluginId, mem_eraseDups.mpr (mem_map_of_mem ?_), rfl⟩
    exact mem_filter.mpr ⟨member, by rw [unconfirmed, Bool.true_and]; exact decide_eq_true free⟩
  grind

theorem sum_billedFixed (column : FixedPricedRow → ℕ) (groupColumn : RunMeterGroup → ℕ) (rowColumn : PluginUsageEvent → ℕ)
    (columns : ∀ group, groupColumn (meterGroup group) = (group.2.map rowColumn).sum)
    (made : ∀ group : RunMeterGroup, column
      { pluginId := group.pluginId
        costCents := group.costCents
        creditsCharged := group.creditsCharged
        unconfirmed := group.payer ≠ some .platform } = groupColumn group) :
    ((settlementLegs deps run .priceList rows).billedFixed.map column).sum =
      sumOf rows rowColumn (billedFixedPrice deps) := by
  have groups := sumOf_getRunMeterGroups rows groupColumn rowColumn (fun key =>
    isFixed key.meter key.payer key.priceVersion && !(decide (key.payer ≠ some .platform) && exemptPlugin deps key.pluginId))
    columns
  refine Eq.trans ?_ groups
  rw [billedFixed_eq, meteredSpend, splitMeteredSpend]
  dsimp only
  have order : ∀ group : RunMeterGroup, (isFixed group.meter group.payer group.priceVersion &&
      !(decide (group.payer ≠ some .platform) && exemptPlugin deps group.pluginId)) =
      (!(decide (group.payer ≠ some .platform) && exemptPlugin deps group.pluginId) &&
        isFixed group.meter group.payer group.priceVersion) := fun group => Bool.and_comm _ _
  rw [← sumOf_true, sumOf, filter_true, filter_map, List.map_map, filter_filter, sumOf,
    filter_congr fun group _ => order group]
  exact congrArg List.sum (map_congr_left fun group _ => made group)

theorem fixedCents_eq : (settlementLegs deps run .priceList rows).fixedCents = cents rows (billedFixedPrice deps) :=
  sum_billedFixed _ (·.costCents) _ (fun _ => rfl) fun _ => rfl

theorem fixedCredits_eq : (settlementLegs deps run .priceList rows).fixedCredits =
    sumOf rows (·.creditsCharged) (billedFixedPrice deps) :=
  sum_billedFixed _ (·.creditsCharged) _ (fun _ => rfl) fun _ => rfl

theorem sumOf_billedFixedPrice (run : SettledRun) (rows : List PluginUsageEvent) (column : PluginUsageEvent → ℕ) :
    sumOf rows column (billedFixedPrice deps) = sumOf rows column (dueFixedPrice deps run) +
      sumOf rows column fun row => billedFixedPrice deps row && servedByOwnAccount deps run row := by
  rw [sumOf_split rows column _ (servedByOwnAccount deps run), Nat.add_comm]
  rfl

def centsIn (rows : List PluginUsageEvent) (pluginId : String) (p : PluginUsageEvent → Bool) : ℕ :=
  sumOf rows (·.costCents) fun row => row.pluginId = pluginId && p row

variable {pluginId : String}

theorem centsIn_congr {p q : PluginUsageEvent → Bool}
    (same : ∀ row, row.pluginId = pluginId → p row = q row) : centsIn rows pluginId p = centsIn rows pluginId q :=
  sumOf_congr fun row _ _ => by
    by_cases here : row.pluginId = pluginId
    · rw [same row here]
    · simp only [here, decide_false, Bool.false_and]

theorem centsIn_pos_iff {p : PluginUsageEvent → Bool} : 0 < centsIn rows pluginId p ↔
    ∃ row ∈ rows, row.pluginId = pluginId ∧ p row ∧ 0 < row.costCents := by
  rw [centsIn, sumOf_pos_iff]
  simp only [Bool.and_eq_true, decide_eq_true_eq, and_assoc]

theorem centsIn_split (rows : List PluginUsageEvent) (pluginId : String) (p r : PluginUsageEvent → Bool) : centsIn rows pluginId p =
    centsIn rows pluginId (fun row => p row && r row) + centsIn rows pluginId fun row => p row && !r row := by
  rw [centsIn, sumOf_split _ _ _ r]
  simp only [centsIn, Bool.and_assoc]

theorem spendOf_priceList (zeroRated : ∀ row ∈ rows, row.failed → row.costCents = 0)
    (billed : exemptPlugin deps pluginId = false) :
    spendOf (settlementLegs deps run .priceList rows).legacyBillable pluginId =
      centsIn rows pluginId (·.atProviderCost) -
        if ∃ row ∈ rows, row.pluginId = pluginId ∧ row.workspaceStamped ∧ 0 < row.costCents then 0
        else centsIn rows pluginId (servedByOwnAccount deps run) := by
  rw [spendOf_legacyBillable, spendOf_legacySpend zeroRated, billed]
  simp only [mem_workspacePluginIds, Bool.false_eq_true, if_false]
  rfl

theorem centsIn_served (deps : SettlementDeps) (run : SettledRun) (rows : List PluginUsageEvent) (pluginId : String) :
    centsIn rows pluginId (servedByOwnAccount deps run) =
    centsIn rows pluginId (fun row => row.atProviderCost && servedByOwnAccount deps run row) +
    (centsIn rows pluginId (fun row => row.fixedPrice && servedByOwnAccount deps run row) +
      centsIn rows pluginId fun row => row.undebited && servedByOwnAccount deps run row) := by
  have first := centsIn_split rows pluginId (servedByOwnAccount deps run) (·.atProviderCost)
  have second := centsIn_split rows pluginId (fun row => servedByOwnAccount deps run row && !row.atProviderCost)
    (·.fixedPrice)
  have atCost : centsIn rows pluginId (fun row => servedByOwnAccount deps run row && row.atProviderCost) =
      centsIn rows pluginId fun row => row.atProviderCost && servedByOwnAccount deps run row :=
    centsIn_congr fun row _ => Bool.and_comm _ _
  have fixed : centsIn rows pluginId (fun row => (servedByOwnAccount deps run row && !row.atProviderCost) && row.fixedPrice) =
      centsIn rows pluginId fun row => row.fixedPrice && servedByOwnAccount deps run row :=
    centsIn_congr fun row _ => by
      rw [row.atProviderCost_eq]
      cases row.fixedPrice <;> simp
  have undebited : centsIn rows pluginId (fun row => (servedByOwnAccount deps run row && !row.atProviderCost) && !row.fixedPrice) =
      centsIn rows pluginId fun row => row.undebited && servedByOwnAccount deps run row :=
    centsIn_congr fun row _ => by
      rw [row.atProviderCost_eq]
      cases stamped : row.undebited
      · cases row.fixedPrice <;> simp
      · have unfixed : row.fixedPrice = false := isFixed_of_notDebited stamped _
        simp [unfixed]
  omega

theorem spendOf_due_iff (zeroRated : ∀ row ∈ rows, row.failed → row.costCents = 0)
    (billed : exemptPlugin deps pluginId = false)
    (fixed : centsIn rows pluginId (fun row => row.fixedPrice && servedByOwnAccount deps run row) = 0) :
    spendOf (settlementLegs deps run .priceList rows).legacyBillable pluginId =
      centsIn rows pluginId (dueAtCost deps run) ↔
    if ∃ row ∈ rows, row.pluginId = pluginId ∧ row.workspaceStamped ∧ 0 < row.costCents then
      centsIn rows pluginId (fun row => row.atProviderCost && servedByOwnAccount deps run row) = 0
    else centsIn rows pluginId (fun row => row.undebited && servedByOwnAccount deps run row) = 0 ∨
      centsIn rows pluginId (dueAtCost deps run) = 0 := by
  have whole := centsIn_split rows pluginId (·.atProviderCost) (servedByOwnAccount deps run)
  have served := centsIn_served deps run rows pluginId
  have owed : centsIn rows pluginId (fun row => row.atProviderCost && !servedByOwnAccount deps run row) =
      centsIn rows pluginId (dueAtCost deps run) :=
    centsIn_congr fun row same => by rw [dueAtCost, same, billed, Bool.not_false, Bool.and_true]
  rw [spendOf_priceList zeroRated billed]
  split <;> omega

theorem consumedCents_priceList (zeroRated : ∀ row ∈ rows, row.failed → row.costCents = 0) :
    (settleRun deps run .priceList rows).consumedCents =
      (settlementLegs deps run .priceList rows).legacyBillableCents +
        (settlementLegs deps run .priceList rows).fixedCents := by
  rw [settleRun]
  dsimp only
  split
  · rename_i none
    have legacy : (settlementLegs deps run .priceList rows).legacyBillable = [] := by
      rw [settlementLegs, meteredSpend, splitMeteredSpend, none]
      rfl
    have fixed : (settlementLegs deps run .priceList rows).fixedCents = 0 := by
      rw [fixedCents_eq, cents, sumOf_eq_zero_iff]
      intro row member _
      refine Nat.eq_zero_of_not_pos fun costed => ?_
      have worked : row.failed = false := Bool.eq_false_iff.mpr fun fails => absurd (zeroRated row member fails) costed.ne'
      have charged : 0 = cents rows fun other => other.pluginId = row.pluginId && !other.failed :=
        (congrArg (spendOf · row.pluginId) none).symm.trans spendOf_getRunCostByPlugin
      refine absurd charged.symm (sumOf_pos_iff.mpr ⟨row, member, ?_, costed⟩).ne'
      rw [worked, decide_eq_true rfl]
      rfl
    rw [SettlementLegs.legacyBillableCents, legacy, fixed]
    rfl
  · rw [RunSettlement.consumedCents]
    dsimp only
    split
    · rename_i nothing
      exact nothing.1.symm
    · rfl

theorem cents_parts (deps : SettlementDeps) (run : SettledRun) (rows : List PluginUsageEvent) : (cents rows fun _ => true) =
    cents rows (dueAtCost deps run) + cents rows (dueFixedPrice deps run) + cents rows (exempted deps run) +
      cents rows (·.undebited) := by
  have parts (row : PluginUsageEvent) : (dueAtCost deps run row → dueFixedPrice deps run row = false) ∧
      (row.undebited → dueAtCost deps run row = false ∧ dueFixedPrice deps run row = false) := by
    have apart : row.undebited → row.fixedPrice = false := fun stamped => isFixed_of_notDebited stamped _
    rw [dueAtCost, dueFixedPrice, billedFixedPrice, row.atProviderCost_eq]
    grind
  have atCost : (cents rows fun _ => true) = cents rows (dueAtCost deps run) + cents rows fun row => !dueAtCost deps run row :=
    sumOf_split rows (·.costCents) (fun _ => true) (dueAtCost deps run)
  have fixed := sumOf_split rows (·.costCents) (fun row => !dueAtCost deps run row) (dueFixedPrice deps run)
  have stamped := sumOf_split rows (·.costCents) (fun row => !dueAtCost deps run row && !dueFixedPrice deps run row)
    (·.undebited)
  have isFixed : (sumOf rows (·.costCents) fun row => !dueAtCost deps run row && dueFixedPrice deps run row) =
      cents rows (dueFixedPrice deps run) := sumOf_congr fun row _ _ => by grind
  have isStamped : (sumOf rows (·.costCents) fun row =>
      (!dueAtCost deps run row && !dueFixedPrice deps run row) && row.undebited) = cents rows (·.undebited) :=
    sumOf_congr fun row _ _ => by grind
  have isExempted : (sumOf rows (·.costCents) fun row =>
      (!dueAtCost deps run row && !dueFixedPrice deps run row) && !row.undebited) = cents rows (exempted deps run) :=
    sumOf_congr fun row _ _ => by grind [exempted]
  simp only [cents] at atCost isFixed isStamped isExempted ⊢
  omega

theorem fixedLeg_iff : ((settlementLegs deps run .priceList rows).fixedCents = cents rows (dueFixedPrice deps run) ∧
    (settlementLegs deps run .priceList rows).fixedCredits =
      sumOf rows (·.creditsCharged) (dueFixedPrice deps run)) ↔
    ∀ row ∈ rows, billedFixedPrice deps row → servedByOwnAccount deps run row →
      row.costCents = 0 ∧ row.creditsCharged = 0 := by
  have extra (column : PluginUsageEvent → ℕ) :
      sumOf rows column (billedFixedPrice deps) = sumOf rows column (dueFixedPrice deps run) ↔
        ∀ row ∈ rows, billedFixedPrice deps row && servedByOwnAccount deps run row → column row = 0 := by
    rw [sumOf_billedFixedPrice run, Nat.add_eq_left, sumOf_eq_zero_iff]
  rw [fixedCents_eq, fixedCredits_eq, extra, extra]
  simp only [Bool.and_eq_true]
  exact ⟨fun both row member billed served => ⟨both.1 row member ⟨billed, served⟩, both.2 row member ⟨billed, served⟩⟩,
    fun both => ⟨fun row member here => (both row member here.1 here.2).1,
      fun row member here => (both row member here.1 here.2).2⟩⟩

theorem centsIn_fixed (billed : exemptPlugin deps pluginId = false)
    (fixedPrice : ∀ row ∈ rows, billedFixedPrice deps row → servedByOwnAccount deps run row →
      row.costCents = 0 ∧ row.creditsCharged = 0) :
    centsIn rows pluginId (fun row => row.fixedPrice && servedByOwnAccount deps run row) = 0 := by
  refine Nat.eq_zero_of_not_pos fun some => ?_
  obtain ⟨row, member, rfl, here, costed⟩ := centsIn_pos_iff.mp some
  obtain ⟨fixed, served⟩ := Bool.and_eq_true_iff.mp here
  have isBilled : billedFixedPrice deps row := by rw [billedFixedPrice, fixed, billed, Bool.and_false]; rfl
  exact absurd (fixedPrice row member isBilled served).1 costed.ne'

/-- The debit counts every row once exactly where the stamps and the Model Accounts of the run keep apart. -/
theorem countsOnce_iff (zeroRated : ∀ row ∈ rows, row.failed → row.costCents = 0) :
    CountsOnce deps run rows ↔ AccountsApart deps run rows := by
  constructor
  · intro once
    have fixedPrice := fixedLeg_iff.mp ⟨once.fixedCents, once.fixedCredits⟩
    have due {pluginId : String} (billed : exemptPlugin deps pluginId = false) :=
      (spendOf_due_iff zeroRated billed (centsIn_fixed billed fixedPrice)).mp (once.providerCost pluginId)
    refine ⟨fixedPrice, ?_, ?_⟩
    · intro stamped member isStamped costed billed row member' same atCost served
      have none := due billed
      rw [if_pos ⟨stamped, member, rfl, isStamped, costed⟩] at none
      refine Nat.eq_zero_of_not_pos fun some => ?_
      exact absurd none (centsIn_pos_iff.mpr ⟨row, member', same, by rw [atCost, served]; rfl, some⟩).ne'
    · intro addon member isAddon served costed billed unstamped row member' same atCost unserved
      have none := due billed
      rw [if_neg fun ⟨row, member, same, stamped, costed⟩ =>
        absurd (unstamped row member same stamped) costed.ne'] at none
      refine Nat.eq_zero_of_not_pos fun some => ?_
      obtain off | nothing := none
      · have isUndebited : addon.undebited = true := by rw [PluginUsageEvent.undebited, notDebited, isAddon]; rfl
        exact absurd off (centsIn_pos_iff.mpr ⟨addon, member, rfl, by rw [isUndebited, served]; rfl, costed⟩).ne'
      · refine absurd nothing (centsIn_pos_iff.mpr ⟨row, member', same, ?_, some⟩).ne'
        rw [dueAtCost, atCost, same, billed, unserved]
        rfl
  · intro apart
    obtain ⟨fixedCents, fixedCredits⟩ := fixedLeg_iff.mpr apart.fixedPrice
    have providerCost (pluginId : String) : spendOf (settlementLegs deps run .priceList rows).legacyBillable pluginId =
        centsIn rows pluginId (dueAtCost deps run) := by
      cases billed : exemptPlugin deps pluginId with
      | true =>
        rw [spendOf_legacyBillable, if_pos billed]
        refine (Nat.eq_zero_of_not_pos fun some => ?_).symm
        obtain ⟨row, member, rfl, here, costed⟩ := centsIn_pos_iff.mp some
        rw [dueAtCost, billed] at here
        exact absurd here (by simp)
      | false =>
        rw [spendOf_due_iff zeroRated billed (centsIn_fixed billed apart.fixedPrice)]
        split
        · rename_i isStamped
          obtain ⟨stamped, member, rfl, isStamped, costed⟩ := isStamped
          refine Nat.eq_zero_of_not_pos fun some => ?_
          obtain ⟨row, member', same, here, cost⟩ := centsIn_pos_iff.mp some
          obtain ⟨atCost, served⟩ := Bool.and_eq_true_iff.mp here
          exact absurd (apart.stamped stamped member isStamped costed billed row member' same atCost served) cost.ne'
        · rename_i unstamped
          refine or_iff_not_imp_left.mpr fun part => ?_
          obtain ⟨addon, member, rfl, here, costed⟩ := centsIn_pos_iff.mp (Nat.pos_of_ne_zero part)
          obtain ⟨isUndebited, served⟩ := Bool.and_eq_true_iff.mp here
          have free : ∀ row ∈ rows, row.pluginId = addon.pluginId → row.workspaceStamped → row.costCents = 0 :=
            fun row member same stamped => Nat.eq_zero_of_not_pos fun cost => unstamped ⟨row, member, same, stamped, cost⟩
          have isAddon : addon.meter = some .addon := by
            by_contra other
            have stamped : addon.workspaceStamped = true := by
              rw [PluginUsageEvent.workspaceStamped, isUndebited, Bool.true_and]
              exact decide_eq_true other
            exact absurd (free addon member rfl stamped) costed.ne'
          refine Nat.eq_zero_of_not_pos fun some => ?_
          obtain ⟨row, member', same, here, cost⟩ := centsIn_pos_iff.mp some
          rw [dueAtCost, Bool.and_eq_true, Bool.and_eq_true, Bool.not_eq_true'] at here
          exact absurd (apart.addon addon member isAddon served costed billed free row member' same here.1.1
            (Bool.not_eq_true' _ ▸ here.2)) cost.ne'
    refine ⟨providerCost, fixedCents, fixedCredits, ?_⟩
    have listed : ∀ row ∈ rows, row.pluginId ∈ (rows.map (·.pluginId)).dedup :=
      fun row member => mem_dedup.mpr (mem_map_of_mem member)
    have total := sum_over_keys (nodup_dedup _) listed (·.costCents) (dueAtCost deps run)
    rw [consumedCents_priceList zeroRated, legacyBillableCents_eq, map_congr_left fun pluginId _ => providerCost pluginId,
      fixedCents, cents_parts deps run rows]
    exact congrArg (· + _ + _ + _) total

/-- A search at its fixed price, a failed one, and calls of a model that the platform and the workspace's account served. -/
theorem countsOnce_mixed :
    let rows : List PluginUsageEvent :=
      [{ pluginId := "tavily", costCents := 1, meter := some .credits, payer := some .platform, priceVersion := some 1,
          creditsCharged := 2 },
        { pluginId := "tavily", costCents := 0, outcome := some .failed, meter := some .credits,
          payer := some .platform, priceVersion := some 1 },
        { pluginId := "openrouter", costCents := 10, meter := some .credits, payer := some .platform },
        { pluginId := "openrouter", costCents := 4, meter := some .credits, payer := some .platform,
          modelAccountId := some "account" }]
    CountsOnce oneAccountDeps acmeRun rows := by
  intro rows
  have noAddon : ∀ row ∈ rows, row.meter ≠ some .addon := by decide
  have apart : AccountsApart oneAccountDeps acmeRun rows :=
    { fixedPrice := by decide
      stamped := by decide
      addon := fun row listed isAddon => absurd isAddon (noAddon row listed) }
  exact (countsOnce_iff (by decide)).mpr apart

/-- Beside a call stamped as paid by the Workspace, a call that the workspace's account served is debited. -/
theorem served_call_debited :
    let rows : List PluginUsageEvent :=
      [{ pluginId := "openrouter", costCents := 5, meter := some .model, payer := some .workspace },
        { pluginId := "openrouter", costCents := 10, meter := some .credits, payer := some .platform,
          modelAccountId := some "account" }]
    (settleRun oneAccountDeps acmeRun .priceList rows).consumedCents = 10 ∧
      ¬ CountsOnce oneAccountDeps acmeRun rows := by
  intro rows
  have debited : (settleRun oneAccountDeps acmeRun .priceList rows).consumedCents = 10 := by decide
  refine ⟨debited, fun once => ?_⟩
  have accounts := once.accounts
  rw [debited] at accounts
  exact absurd accounts (by decide)

end

end EverWorks.Credits
