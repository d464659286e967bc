import EverWorks.Credits.RunSpend

/-!
In the `provider_cost` mode the billable cents are the totals of the plugins that are not exempt, less what Model
Accounts of the run's workspace served. The total leaves failed calls out and the served part does not.
-/

namespace EverWorks.Credits
open Lib Grouping List

section
variable (deps : SettlementDeps) (run : SettledRun)

def due (row : PluginUsageEvent) : Bool :=
  !row.failed && !exemptPlugin deps row.pluginId && !servedByOwnAccount deps run row

/-- The cents that `consumeForRun` is called with; none where it is not called. -/
def RunSettlement.consumedCents (settlement : RunSettlement) : ℕ := (settlement.consume.map (·.costCents)).getD 0

/-- A failed call with a cost that an account of the workspace served stands beside no row of its plugin that costs the
platform. -/
def FailedApart (rows : List PluginUsageEvent) : Prop :=
  ∀ failed ∈ rows, failed.failed → servedByOwnAccount deps run failed → 0 < failed.costCents →
    ∀ row ∈ rows, row.pluginId = failed.pluginId → due deps run row → row.costCents = 0

variable {deps run} {rows : List PluginUsageEvent} {pluginId : String}

theorem spendOf_providerCost (pluginId : String) :
    spendOf (settlementLegs deps run .providerCost rows).legacyBillable pluginId =
    (cents rows fun row => row.pluginId = pluginId && due deps run row) -
      cents rows fun row => row.pluginId = pluginId && (row.failed && servedByOwnAccount deps run row) := by
  refine (spendOf_legacyBillable .providerCost rows pluginId).trans ?_
  split
  · rename_i exempt
    have nothing : (cents rows fun row => row.pluginId = pluginId && due deps run row) = 0 :=
      sumOf_eq_zero_iff.mpr fun row _ here => by
        rw [Bool.and_eq_true, decide_eq_true_eq, due] at here
        rw [← here.1] at exempt
        rw [exempt] at here
        exact absurd here.2 (by simp)
    rw [nothing, Nat.zero_sub]
  · rename_i billed
    have plain : (meteredSpend .providerCost rows).legacySpend = getRunCostByPlugin rows := rfl
    have unstamped : pluginId ∉ (meteredSpend .providerCost rows).workspacePluginIds := not_mem_nil
    have whole := sumOf_split rows (·.costCents) (fun row => row.pluginId = pluginId && !row.failed)
      (servedByOwnAccount deps run)
    have served := sumOf_split rows (·.costCents) (fun row => row.pluginId = pluginId && servedByOwnAccount deps run row)
      (·.failed)
    have paid : (cents rows fun row => (row.pluginId = pluginId && !row.failed) && servedByOwnAccount deps run row) =
        cents rows fun row => (row.pluginId = pluginId && servedByOwnAccount deps run row) && !row.failed :=
      sumOf_congr fun row _ _ => Bool.and_right_comm _ _ _
    have left : (cents rows fun row => (row.pluginId = pluginId && !row.failed) && !servedByOwnAccount deps run row) =
        cents rows fun row => row.pluginId = pluginId && due deps run row :=
      sumOf_congr fun row _ _ => by
        by_cases same : row.pluginId = pluginId
        · rw [due, same, Bool.eq_false_iff.mpr billed, Bool.not_false, Bool.and_true, Bool.and_assoc]
        · simp only [same, decide_false, Bool.false_and]
    have taken : (cents rows fun row => (row.pluginId = pluginId && servedByOwnAccount deps run row) && row.failed) =
        cents rows fun row => row.pluginId = pluginId && (row.failed && servedByOwnAccount deps run row) :=
      sumOf_congr fun row _ _ => by rw [Bool.and_assoc, Bool.and_comm row.failed]
    rw [if_neg unstamped, plain, spendOf_getRunCostByPlugin]
    simp only [cents] at paid left taken ⊢
    omega

theorem consumedCents_providerCost : (settleRun deps run .providerCost rows).consumedCents =
    (settlementLegs deps run .providerCost rows).legacyBillableCents := by
  have whole : (settlementLegs deps run .providerCost rows).billableCostCents =
      (settlementLegs deps run .providerCost rows).legacyBillableCents := Nat.add_zero _
  rw [settleRun]
  dsimp only
  split
  · rename_i none
    have nothing : (settlementLegs deps run .providerCost rows).legacyBillable = [] := by
      rw [settlementLegs, meteredSpend, settleEverythingFromProviderCost, none]
      rfl
    rw [SettlementLegs.legacyBillableCents, nothing]
    rfl
  · rw [RunSettlement.consumedCents, whole]
    dsimp only
    split
    · rename_i nothing
      exact nothing.1.symm
    · rfl

/-- The debit is of the rows the platform paid for where failed calls stand apart, and only there. -/
theorem consumed_due_iff : (settleRun deps run .providerCost rows).consumedCents = cents rows (due deps run) ↔
    FailedApart deps run rows := by
  have listed : ∀ row ∈ rows, row.pluginId ∈ (rows.map (·.pluginId)).dedup :=
    fun row member => mem_dedup.mpr (mem_map_of_mem member)
  have owed := sum_over_keys (nodup_dedup _) listed (·.costCents) (due deps run)
  rw [consumedCents_providerCost, legacyBillableCents_eq, cents, ← owed,
    sum_eq_iff_of_le fun pluginId _ => (spendOf_providerCost pluginId).trans_le (Nat.sub_le _ _)]
  constructor
  · intro each failed member fails served costed row member' same owes
    have parts := each failed.pluginId (listed failed member)
    rw [spendOf_providerCost] at parts
    have off : 0 < cents rows fun row => row.pluginId = failed.pluginId && (row.failed && servedByOwnAccount deps run row) := by
      refine Nat.pos_of_ne_zero fun zero => ?_
      have nothing := sumOf_eq_zero_iff.mp zero failed member
      rw [fails, served, decide_eq_true rfl] at nothing
      exact absurd (nothing rfl) costed.ne'
    have zero : (cents rows fun row => row.pluginId = failed.pluginId && due deps run row) = 0 := by omega
    refine sumOf_eq_zero_iff.mp zero row member' ?_
    rw [owes, decide_eq_true same]
    rfl
  · intro apart pluginId _
    rw [spendOf_providerCost]
    by_cases off : (cents rows fun row => row.pluginId = pluginId && (row.failed && servedByOwnAccount deps run row)) = 0
    · rw [off, Nat.sub_zero]
    · rw [sumOf_eq_zero_iff] at off
      push Not at off
      obtain ⟨failed, member, here, costed⟩ := off
      simp only [Bool.and_eq_true, decide_eq_true_eq] at here
      obtain ⟨rfl, fails, served⟩ := here
      have zero : (cents rows fun row => row.pluginId = failed.pluginId && due deps run row) = 0 :=
        sumOf_eq_zero_iff.mpr fun row member' owes => by
          rw [Bool.and_eq_true, decide_eq_true_eq] at owes
          exact apart failed member fails served (Nat.pos_of_ne_zero costed) row member' owes.1 owes.2
      rw [zero, Nat.zero_sub]

def oneAccountDeps : SettlementDeps where
  apiKeySource _ := none
  findOwnership id := if id = "account" then some ⟨"org:acme", "openrouter"⟩ else none
  creditsForCostCents costCents := costCents

def acmeRun : SettledRun := { userId := "user", organizationId := some "acme" }

/-- A failed call that the account served takes its cents off a call that the platform paid for. -/
theorem failed_call_takes_off :
    let rows : List PluginUsageEvent :=
      [{ pluginId := "openrouter", costCents := 10, outcome := some .ok },
        { pluginId := "openrouter", costCents := 4, outcome := some .failed, modelAccountId := some "account" }]
    (settleRun oneAccountDeps acmeRun .providerCost rows).consumedCents = 6 ∧
      cents rows (due oneAccountDeps acmeRun) = 10 := by
  decide

end

end EverWorks.Credits
