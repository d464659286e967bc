import EverWorks.Fleet.UsageLedger

/-!
Every order of the calls of scans and headless runs in which each top-up finds the sum that it was worked out from: a
top-up takes the run's rows to the figure and not past it, and each figure is added once.
-/

namespace EverWorks.Fleet
open Lib Program List List

def AsRead (store : LedgerStore) : LedgerCall → Prop
  | .record event => ∀ topUp ∈ event.topUp, pluginCents store.events event.runId event.pluginId = topUp.already
  | _ => True

instance (store : LedgerStore) (request : LedgerCall) : Decidable (AsRead store request) := by
  unfold AsRead
  split <;> infer_instance

/-- The next call of a program, if it is a top-up, finds the sum that it was worked out from. -/
def NextAsRead (pool : LedgerPool) (place : Nat) : Prop :=
  match pool.programs[place]? with
  | some (.call request _) => AsRead pool.state request
  | _ => True

instance (pool : LedgerPool) (place : Nat) : Decidable (NextAsRead pool place) := by
  unfold NextAsRead
  split <;> infer_instance

section
variable (deps : UsageDeps)

def OwnedByRun (store : LedgerStore) (runId : String) : Attribution → Prop
  | .agentRun id => id = runId
  | .fleetSession id => ∃ session ∈ store.sessions, session.id = id ∧ session.agentRunId = some runId

def ScanFigure (store : LedgerStore) (runId : String) (owner : Attribution) (figure : Int) : Prop :=
  (∃ rows, (owner, rows) ∈ store.readings ∧ priceUsageGroups deps (groupFleetUsageSamples rows) = some figure) ∧
    OwnedByRun store runId owner

def headlessCents (events : List PluginUsageEvent) (runId pluginId : String) : Nat :=
  pluginCents (events.filter (·.topUp.isNone)) runId pluginId

def topUpCents (events : List PluginUsageEvent) (runId pluginId : String) : Nat :=
  pluginCents (events.filter (·.topUp.isSome)) runId pluginId

/-- After each row of the ledger, the run's rows of its plugin hold no more than what the headless rows hold with the
top-ups made before it, or than what a scan made of the run's samples at some moment; and of two top-ups of a run and
a plugin the later is of a larger figure. -/
structure NeverDoubled (store : LedgerStore) : Prop where
  bounded : ∀ before event, before ++ [event] <+: store.events →
    pluginCents (before ++ [event]) event.runId event.pluginId ≤
        headlessCents (before ++ [event]) event.runId event.pluginId + topUpCents before event.runId event.pluginId ∨
      ∃ owner figure, ScanFigure deps store event.runId owner figure ∧
        (pluginCents (before ++ [event]) event.runId event.pluginId : Int) ≤ figure
  once : store.events.Pairwise fun first second => first.runId = second.runId → first.pluginId = second.pluginId →
    ∀ one ∈ first.topUp, ∀ other ∈ second.topUp, one.figure < other.figure

end

section
variable {events : List PluginUsageEvent}

theorem pluginCents_append (events more : List PluginUsageEvent) (runId pluginId : String) :
    pluginCents (events ++ more) runId pluginId =
      pluginCents events runId pluginId + pluginCents more runId pluginId := by
  rw [pluginCents, filter_append, map_append, sum_append, pluginCents, pluginCents]

theorem pluginCents_le_of_prefix (runId pluginId : String) {before : List PluginUsageEvent}
    (isPrefix : before <+: events) : pluginCents before runId pluginId ≤ pluginCents events runId pluginId := by
  obtain ⟨rest, rfl⟩ := isPrefix
  rw [pluginCents_append]
  exact Nat.le_add_right _ _

theorem pluginCents_split (events : List PluginUsageEvent) (runId pluginId : String) :
    pluginCents events runId pluginId = headlessCents events runId pluginId + topUpCents events runId pluginId := by
  induction events with
  | nil => rfl
  | cons event rest ih =>
    simp only [headlessCents, topUpCents, pluginCents, filter_cons] at ih ⊢
    cases source : event.topUp with
    | none =>
      by_cases counts : (decide (event.runId = runId) && decide (event.pluginId = pluginId) && !event.failed) = true
      · simp [counts, -filter_filter]
        omega
      · simp [counts, -filter_filter]
        omega
    | some topUp =>
      by_cases counts : (decide (event.runId = runId) && decide (event.pluginId = pluginId) && !event.failed) = true
      · simp [counts, -filter_filter]
        omega
      · simp [counts, -filter_filter]
        omega

end

structure Later (before after : LedgerStore) : Prop where
  readings : ∀ reading ∈ before.readings, reading ∈ after.readings
  sessions : ∀ session ∈ before.sessions, ∃ same ∈ after.sessions,
    same.id = session.id ∧ same.agentRunId = session.agentRunId

section
variable {deps : UsageDeps} {before after store : LedgerStore}

theorem Later.refl (store : LedgerStore) : Later store store :=
  ⟨fun _ => id, fun session listed => ⟨session, listed, rfl, rfl⟩⟩

theorem Later.trans {a b c : LedgerStore} (first : Later a b) (second : Later b c) : Later a c := by
  refine ⟨fun reading listed => second.readings reading (first.readings reading listed), fun session listed => ?_⟩
  obtain ⟨same, there, id, run⟩ := first.sessions session listed
  obtain ⟨last, found, id', run'⟩ := second.sessions same there
  exact ⟨last, found, id'.trans id, run'.trans run⟩

variable {owner : Attribution}

variable {runId : String}

theorem OwnedByRun.later (owned : OwnedByRun before runId owner)
    (later : Later before after) : OwnedByRun after runId owner := by
  cases owner with
  | agentRun id => exact owned
  | fleetSession id =>
    obtain ⟨session, there, rfl, run⟩ := owned
    obtain ⟨same, found, id, run'⟩ := later.sessions session there
    exact ⟨same, found, id, run'.trans run⟩

theorem ScanFigure.later {figure : Int}
    (scan : ScanFigure deps before runId owner figure) (later : Later before after) :
    ScanFigure deps after runId owner figure := by
  obtain ⟨⟨rows, listed, priced⟩, owned⟩ := scan
  exact ⟨⟨rows, later.readings _ listed, priced⟩, owned.later later⟩

structure Topped (deps : UsageDeps) (store : LedgerStore) : Prop where
  figure : ∀ before event, before ++ [event] <+: store.events → ∀ topUp ∈ event.topUp,
    (pluginCents (before ++ [event]) event.runId event.pluginId : Int) = topUp.figure ∧
      ScanFigure deps store event.runId topUp.owner topUp.figure
  once : store.events.Pairwise fun first second => first.runId = second.runId → first.pluginId = second.pluginId →
    ∀ one ∈ first.topUp, ∀ other ∈ second.topUp, one.figure < other.figure

theorem Topped.neverDoubled (topped : Topped deps store) : NeverDoubled deps store := by
  refine ⟨fun before event isPrefix => ?_, topped.once⟩
  cases source : event.topUp with
  | some topUp =>
    obtain ⟨figure, scan⟩ := topped.figure before event isPrefix topUp source
    exact .inr ⟨topUp.owner, topUp.figure, scan, figure.le⟩
  | none =>
    refine .inl (le_of_eq ?_)
    have last : topUpCents [event] event.runId event.pluginId = 0 := by
      rw [topUpCents, filter_cons_of_neg (by rw [source]; exact Bool.false_ne_true)]
      rfl
    have both : topUpCents (before ++ [event]) event.runId event.pluginId =
        topUpCents before event.runId event.pluginId := by
      rw [topUpCents, filter_append, pluginCents_append]
      change _ + topUpCents [event] _ _ = _
      rw [last]
      rfl
    rw [pluginCents_split, both]

theorem Topped.later (topped : Topped deps before) (later : Later before after) (same : after.events = before.events) :
    Topped deps after := by
  refine ⟨fun front event isPrefix topUp given => ?_, same ▸ topped.once⟩
  obtain ⟨figure, scan⟩ := topped.figure front event (same ▸ isPrefix) topUp given
  exact ⟨figure, scan.later later⟩

theorem Topped.record (topped : Topped deps store) {event : PluginUsageEvent}
    (given : ∀ topUp ∈ event.topUp, pluginCents store.events event.runId event.pluginId < topUp.figure ∧
      (pluginCents (store.events ++ [event]) event.runId event.pluginId : Int) = topUp.figure ∧
      ScanFigure deps store event.runId topUp.owner topUp.figure) :
    Topped deps { store with events := store.events ++ [event] } := by
  constructor
  · intro front last isPrefix topUp listed
    rcases prefix_concat_iff.mp isPrefix with whole | old
    · obtain ⟨rfl, same⟩ := append_inj' whole rfl
      obtain rfl := head_eq_of_cons_eq same
      exact (given topUp listed).2
    · exact topped.figure front last old topUp listed
  · rw [pairwise_append]
    refine ⟨topped.once, pairwise_singleton _ _, fun first listed second there => ?_⟩
    obtain rfl := mem_singleton.mp there
    intro run plugin one topUp other last
    obtain ⟨front, back, split⟩ := append_of_mem listed
    have isPrefix : front ++ [first] <+: store.events := ⟨back, by rw [split, append_assoc]; rfl⟩
    have figure := (topped.figure front first isPrefix one topUp).1
    have within := pluginCents_le_of_prefix second.runId second.pluginId isPrefix
    have below := (given other last).1
    rw [← run, ← plugin] at within below
    omega

def serveAsRead (request : LedgerCall) (store : LedgerStore) : LedgerReply request × LedgerStore :=
  match request with
  | .record event => if AsRead store (.record event) then serveLedger (.record event) store else ((), store)
  | request => serveLedger request store

variable {request : LedgerCall}

theorem serve_asRead (asRead : AsRead store request) :
    serveAsRead request store = serveLedger request store := by
  cases request with
  | record event => exact if_pos asRead
  | samples | findSession | findSamples | updateSession | findRun | getRunCostByPlugin | stampCostCents => rfl

def Within (deps : UsageDeps) (before after : LedgerStore) : Prop :=
  (Topped deps before → Topped deps after) ∧ Later before after

theorem Within.refl (deps : UsageDeps) (store : LedgerStore) : Within deps store store := ⟨id, .refl store⟩

theorem Within.same (later : Later before after) (same : after.events = before.events) : Within deps before after :=
  ⟨fun topped => topped.later later same, later⟩

abbrev Safe (deps : UsageDeps) {α : Type} (program : LedgerProgram α) (post : α → LedgerStore → Prop)
    (store : LedgerStore) : Prop :=
  program.Holds serveAsRead Later (Within deps) post store

theorem within_serve (other : ∀ event, request ≠ .record event) :
    Within deps store (serveAsRead request store).2 := by
  cases request with
  | record event => exact absurd rfl (other event)
  | samples | findSession | findRun | getRunCostByPlugin | stampCostCents => exact .same ⟨fun _ => id, fun session listed => ⟨session, listed, rfl, rfl⟩⟩ rfl
  | findSamples owner =>
    exact .same ⟨fun _ => mem_cons_of_mem _, fun session listed => ⟨session, listed, rfl, rfl⟩⟩ rfl
  | updateSession id costCents =>
    refine .same ⟨fun _ here => here, fun session listed => ?_⟩ rfl
    by_cases hit : session.id = id
    · exact ⟨{ session with costCents }, Table.mem_update.mpr ⟨session, listed, .inl ⟨hit, rfl⟩⟩, rfl, rfl⟩
    · exact ⟨session, Table.mem_update_of_ne listed hit, rfl, rfl⟩

theorem within_record {event : PluginUsageEvent} (given : ∀ topUp ∈ event.topUp,
    event.failed = false ∧ 1 ≤ topUp.figure - topUp.already ∧ event.costCents = (topUp.figure - topUp.already).toNat ∧
      ScanFigure deps store event.runId topUp.owner topUp.figure) :
    Within deps store (serveAsRead (.record event) store).2 := by
  by_cases asRead : AsRead store (.record event)
  swap
  · rw [serveAsRead, if_neg asRead]
    exact .refl deps store
  rw [serveAsRead, if_pos asRead]
  refine ⟨fun topped => topped.record fun topUp listed => ?_, fun _ here => here,
    fun session listed => ⟨session, listed, rfl, rfl⟩⟩
  obtain ⟨counted, more, cents, scan⟩ := given topUp listed
  have already := asRead topUp listed
  have own : pluginCents [event] event.runId event.pluginId = event.costCents := by
    simp [pluginCents, counted]
  rw [pluginCents_append, own, cents, already]
  refine ⟨by omega, ?_, scan⟩
  omega

theorem safe_ask {α : Type} {f : LedgerReply request → LedgerProgram α}
    {post : α → LedgerStore → Prop} (other : ∀ event, request ≠ .record event)
    (rest : ∀ now, Later store now → Safe deps (f (serveAsRead request now).1) post (serveAsRead request now).2) :
    Safe deps (ask request >>= f) post store :=
  .ask fun now later => ⟨within_serve other, rest now later⟩

theorem safe_onSamples {α : Type} (program : UsageProgram α) (store : LedgerStore) :
    Safe deps (onSamples program) (fun _ _ => True) store := by
  induction program generalizing store with
  | done value => exact fun _ _ => trivial
  | call request next ih => exact fun now _ => ⟨within_serve nofun, ih _ _⟩
  | fork job next => exact job.elim

def Priced (deps : UsageDeps) (owner : Attribution) (priced : Option Int) (store : LedgerStore) : Prop :=
  ∀ figure ∈ priced, ∃ rows, (owner, rows) ∈ store.readings ∧
    priceUsageGroups deps (groupFleetUsageSamples rows) = some figure

theorem safe_pricedFor (owner : Attribution) (store : LedgerStore) :
    Safe deps (pricedFor deps owner) (fun priced now => Later store now ∧ Priced deps owner priced now) store := by
  have priced : Safe deps (pricedFor deps owner) (Priced deps owner) store := by
    refine safe_ask nofun fun now _ last later figure priced => ?_
    exact ⟨_, later.readings _ mem_cons_self, priced⟩
  exact priced.track (fun _ _ => id) (fun _ _ => And.right) (fun _ _ _ => Later.trans) (.refl store)

theorem safe_stamp {costCents : Int} {run : AgentRun} (store : LedgerStore) :
    Safe deps (if some costCents ≠ run.costCents then Program.ask (LedgerCall.stampCostCents runId costCents) else pure ())
      (fun _ _ => True) store := by
  split
  · exact fun now _ => ⟨within_serve nofun, fun _ _ => trivial⟩
  · exact fun _ _ => trivial

theorem safe_settleRun {ledger : Bool} {runId provider : String} {priced : Option Int}
    (scan : ∀ figure ∈ priced, ScanFigure deps store runId owner figure) :
    Safe deps (settleRun ledger owner runId provider priced) (fun _ _ => True) store := by
  rw [settleRun.eq_def]
  split
  · exact fun _ _ => trivial
  rename_i figure
  refine safe_ask nofun fun first later => ?_
  split
  · exact fun _ _ => trivial
  rename_i run _
  refine .ite (fun _ => safe_stamp _) fun _ => ?_
  refine safe_ask nofun fun second later' => ?_
  have scan := (scan figure rfl).later (later.trans later')
  have total (store : LedgerStore) : Safe deps (do
      let after : List (String × Nat) ← Program.ask (LedgerCall.getRunCostByPlugin runId)
      let total : Int := (after.map (·.2)).sum
      if some total ≠ run.costCents then Program.ask (LedgerCall.stampCostCents runId total) else pure ())
      (fun _ _ => True) store := safe_ask nofun fun now _ => safe_stamp _
  dsimp only
  generalize (((serveAsRead (.getRunCostByPlugin runId) second).1 : List (String × Nat)).find?
    fun line => decide (line.1 = fleetModelPluginId provider)) = line
  refine .ite (fun more => ?_) fun _ => total _
  refine .ask fun third later'' => ⟨within_record fun topUp given => ?_, total _⟩
  obtain rfl := Option.some.inj given
  exact ⟨rfl, more, rfl, scan.later later''⟩

theorem Priced.scan {priced : Option Int} (read : Priced deps owner priced store)
    (owned : OwnedByRun store runId owner) : ∀ figure ∈ priced, ScanFigure deps store runId owner figure :=
  fun figure given => ⟨read figure given, owned⟩

theorem safe_deriveSession (ledger : Bool) (sessionId : String) (store : LedgerStore) :
    Safe deps (deriveSession deps ledger sessionId) (fun _ _ => True) store := by
  refine safe_ask nofun fun first _ => ?_
  split
  · exact fun _ _ => trivial
  rename_i session found
  have listed := mem_of_find?_eq_some found
  have same := find?_some (show first.sessions.find? (·.id = sessionId) = some session from found)
  refine .bind Later.refl (safe_pricedFor _ _) fun priced second read => ?_
  refine safe_ask nofun fun third later => ?_
  split
  swap
  · exact fun _ _ => trivial
  rename_i runId bound
  refine .ite (fun _ => safe_settleRun fun figure given => ?_) fun _ _ _ => trivial
  have owned : OwnedByRun first runId (.fleetSession sessionId) := ⟨session, listed, of_decide_eq_true same, bound⟩
  have wrote : Within deps third (serveAsRead (.updateSession sessionId priced) third).2 := within_serve nofun
  exact ((read.2.scan (owned.later read.1) figure given).later later).later wrote.2

theorem safe_deriveTaskRun (ledger : Bool) (runId : String) (store : LedgerStore) :
    Safe deps (deriveTaskRun deps ledger runId) (fun _ _ => True) store := by
  refine safe_ask nofun fun first _ => ?_
  split
  · exact fun _ _ => trivial
  refine .ite (fun _ => ?_) fun _ _ _ => trivial
  exact .bind Later.refl (safe_pricedFor _ _) fun priced state read => safe_settleRun (read.2.scan rfl)

theorem safe_eachOf {α : Type} {program : α → LedgerProgram Unit}
    (safe : ∀ one store, Safe deps (program one) (fun _ _ => True) store) (list : List α) (store : LedgerStore) :
    Safe deps (eachOf program list) (fun _ _ => True) store := by
  induction list generalizing store with
  | nil => exact fun _ _ => trivial
  | cons one rest ih => exact .bind Later.refl (safe one store) fun _ state _ => ih state

theorem safe_run (ledger : Bool) (number : Nat) (job : LedgerJob) (store : LedgerStore) :
    Safe deps (job.run deps ledger number) (fun _ _ => True) store := by
  cases job with
  | headless runId pluginId costCents failed =>
    exact fun now _ => ⟨within_record nofun, fun _ _ => trivial⟩
  | scan report =>
    refine .bind Later.refl (safe_onSamples _ _) fun merged state _ => ?_
    split
    · exact fun _ _ => trivial
    refine .bind Later.refl (safe_onSamples _ _) fun _ state _ => ?_
    refine .bind Later.refl (safe_eachOf (safe_deriveSession ledger) _ _) fun _ state _ => ?_
    refine .bind Later.refl (safe_eachOf (safe_deriveTaskRun ledger) _ _) fun _ state _ => ?_
    exact safe_onSamples _ _

end

/-- Where every top-up finds the sum that it was worked out from, no run's ledger is doubled. -/
theorem neverDoubled_of_asRead (deps : UsageDeps) (ledger : Bool) (store : LedgerStore) (jobs : List LedgerJob)
    (schedule : List Nat) (empty : store.events = [])
    (asRead : Along (Pool.step serveLedger Empty.elim) NextAsRead (ledgerPool deps ledger store jobs) schedule) :
    NeverDoubled deps (afterLedger deps ledger store jobs schedule) := by
  have start : Pool.InStep serveAsRead (fun _ => Later) (fun _ => Within deps) (ledgerPool deps ledger store jobs) := by
    intro place program there
    obtain ⟨job, _, rfl⟩ := mem_mapIdx.mp (mem_of_getElem? there)
    exact safe_run ledger job _ store
  have topped : Topped deps (ledgerPool deps ledger store jobs).state := by
    constructor
    · intro before event isPrefix
      rw [ledgerPool, empty, prefix_nil] at isPrefix
      exact absurd isPrefix (append_ne_nil_of_right_ne_nil _ (cons_ne_nil _ _))
    · rw [ledgerPool, empty]
      exact .nil
  have same : run (Pool.step serveAsRead Empty.elim) (ledgerPool deps ledger store jobs) schedule =
      run (Pool.step serveLedger Empty.elim) (ledgerPool deps ledger store jobs) schedule := by
    refine Pool.run_congr (along_mono (fun pool place next request rest found => ?_) asRead)
    rw [NextAsRead, found] at next
    exact serve_asRead next
  have ran : Pool.InStep serveAsRead (fun _ => Later) (fun _ => Within deps)
        (run (Pool.step serveAsRead Empty.elim) (ledgerPool deps ledger store jobs) schedule) ∧
      Topped deps (run (Pool.step serveAsRead Empty.elim) (ledgerPool deps ledger store jobs) schedule).state :=
    Pool.run_inStep (fun _ => Later.refl) (fun _ _ _ _ => Later.trans) (fun _ _ _ _ _ step => step.2)
      (fun _ _ _ _ topped step => step.1 topped) start topped
  rw [same] at ran
  exact ran.2.neverDoubled

def centDeps : UsageDeps where
  digest parts := "|".intercalate parts
  price tokens _ _ := some (tokens.input, 1)

def hourReport (input : Nat) : UsageReport where
  nodeId := "n"
  rows := [
    { provider := "codex"
      providerSessionId := some "p"
      model := "m"
      bucketStart := "h"
      folderBucket := none
      tokens := ⟨input, 0, 0, 0⟩
      requests := 1
      firstAt := 0
      lastAt := 1 }]
  attribution _ := some (.fleetSession "s")

def oneRun : LedgerStore where
  sessions := [⟨"s", "codex", some "r", none⟩]
  runs := [⟨"r", some "codex", none⟩]

def topUpJobs : List LedgerJob :=
  [.headless "r" "fleet-node:codex" 30 false, .scan (hourReport 100), .scan (hourReport 100)]

def topUpSchedule : List Nat := [0] ++ replicate 14 1 ++ replicate 14 2

theorem topped_up_once :
    (afterLedger centDeps true oneRun topUpJobs topUpSchedule).events.map (·.costCents) = [30, 70] ∧
      NeverDoubled centDeps (afterLedger centDeps true oneRun topUpJobs topUpSchedule) := by
  have inTurn : Along (Pool.step serveLedger Empty.elim) NextAsRead (ledgerPool centDeps true oneRun topUpJobs)
      topUpSchedule := by
    decide +kernel
  exact ⟨by decide +kernel, neverDoubled_of_asRead centDeps true oneRun topUpJobs topUpSchedule rfl inTurn⟩

/-- Two scans of 100 cents that both read the sum before either records its row add the 100 cents twice. -/
theorem topped_up_twice :
    let store := afterLedger centDeps true oneRun [.scan (hourReport 100), .scan (hourReport 100)]
      (replicate 8 0 ++ replicate 7 1 ++ [0, 1])
    pluginCents store.events "r" "fleet-node:codex" = 200 ∧ ¬ NeverDoubled centDeps store := by
  let topUp : PluginUsageEvent :=
    { runId := "r"
      pluginId := "fleet-node:codex"
      costCents := 100
      topUp := some ⟨.fleetSession "s", 100, 0⟩ }
  have events : (afterLedger centDeps true oneRun [.scan (hourReport 100), .scan (hourReport 100)]
      (replicate 8 0 ++ replicate 7 1 ++ [0, 1])).events = [topUp, topUp] := by
    decide +kernel
  refine ⟨by rw [events]; decide +kernel, fun kept => ?_⟩
  have once := kept.once
  rw [events, pairwise_pair] at once
  exact absurd (once rfl rfl _ rfl _ rfl) (lt_irrefl _)

end EverWorks.Fleet
