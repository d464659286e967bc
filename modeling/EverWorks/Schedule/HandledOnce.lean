import EverWorks.Schedule.ScheduleLoop

/-!
# Each fire once

A fire is marked on the stored schedule that the tick found. While a `replace` is under way another entry of the
schedule may miss the mark, and once that entry is held the fire is owed again. Where no mark is lost like this, each
schedule's fires are handled once and in order.
-/

namespace EverWorks.Schedule
open Lib List Option Function

namespace ScheduleLoop

section Kept

variable (loop : ScheduleLoop)

def ahead : List ℕ :=
  match loop.ticking with
  | some (.marking _ _ _ _ rest) => rest
  | some (.recording _ rest) => rest
  | _ => []

/-- The entries held, and those a `replace` has built. -/
def copies : List ℕ := loop.schedules ++ loop.replacing.flatMap (·.held)

def since (stored : ℕ) : ℤ := (loop.entries stored).since

def underMark : List ℕ :=
  match loop.ticking with
  | some (.marking _ stored _ _ _) => [stored]
  | _ => []

def pending : List (String × ℤ) :=
  match loop.ticking with
  | some (.marking _ stored fire _ _) => [(loop.idOf stored, fire)]
  | _ => []

def marked : List (String × ℤ) := loop.handled ++ loop.pending

variable (letters : JsString.LowerCase) (intl : Intl) (lease : Bool)

def goesOver : ScheduleEvent → Option (Option String × ℤ × List ℕ)
  | .tick now timeZone => (loop.tickStart lease now).map (timeZone, ·)
  | .tickGoesOn now timeZone _ => (loop.tickAhead now).map (timeZone, ·)
  | .resumeGoesOn now timeZone =>
    if loop.resuming = 0 then none else (loop.tickStart lease now).map (timeZone, ·)
  | _ => none

def Counts (stored : ℕ) (fire : ℤ) : Prop :=
  ∀ other ∈ loop.copies, other ≠ stored → loop.idOf other = loop.idOf stored → fire ≤ loop.since other

/-- The fire that the loop of a tick marks is counted. -/
def MarkCounts (timeZone : Option String) (now : ℤ) (ahead : List ℕ) : Prop :=
  ∀ due ∈ loop.nextDue letters intl timeZone now ahead, loop.Counts due.1 due.2.1

/-- A schedule that `replace` arms anew, not held or with another cadence, is armed no earlier than its fires. -/
def ArmsAfter (definition : FleetScheduleDefinition) (now : ℤ) : Prop :=
  (∃ stored ∈ loop.get definition.id, StoredSchedule.SameClock definition (loop.entries stored)) ∨
    ∀ fire ∈ loop.marked, fire.1 = definition.id → fire.2 ≤ now

/-- What a `replace` builds next is armed no earlier than its fires. -/
def BuildCounts : ScheduleEvent → Prop
  | .replaceGoesOn place =>
    ∀ call ∈ loop.replacing[place]?, ∀ definition ∈ call.definitions.head?, loop.ArmsAfter definition call.now
  | _ => True

/-- No mark is lost in a step. -/
def NoneLost (loop : ScheduleLoop) (event : ScheduleEvent) : Prop :=
  (∀ going ∈ loop.goesOver lease event, loop.MarkCounts letters intl going.1 going.2.1 going.2.2) ∧
    loop.BuildCounts event

instance (stored : ℕ) (fire : ℤ) : Decidable (loop.Counts stored fire) :=
  inferInstanceAs (Decidable (∀ other ∈ loop.copies, other ≠ stored → loop.idOf other = loop.idOf stored →
    fire ≤ loop.since other))

instance (timeZone : Option String) (now : ℤ) (ahead : List ℕ) :
    Decidable (loop.MarkCounts letters intl timeZone now ahead) :=
  inferInstanceAs (Decidable (∀ due ∈ loop.nextDue letters intl timeZone now ahead, loop.Counts due.1 due.2.1))

instance (definition : FleetScheduleDefinition) (now : ℤ) : Decidable (loop.ArmsAfter definition now) :=
  inferInstanceAs (Decidable ((∃ stored ∈ loop.get definition.id,
    StoredSchedule.SameClock definition (loop.entries stored)) ∨
      ∀ fire ∈ loop.marked, fire.1 = definition.id → fire.2 ≤ now))

instance decidableBuildCounts : (event : ScheduleEvent) → Decidable (loop.BuildCounts event)
  | .replaceGoesOn place => inferInstanceAs (Decidable (∀ call ∈ loop.replacing[place]?,
      ∀ definition ∈ call.definitions.head?, loop.ArmsAfter definition call.now))
  | .tick .. | .tickGoesOn .. | .replace .. | .replaceFails _ | .runNow .. | .runFindsFolder _ | .runStarts _
  | .runTimesOut _ | .runExits .. | .runFails .. | .runReturns _ | .pause | .resume | .resumeGoesOn .. | .drain
  | .dispose => isTrue trivial

instance (loop : ScheduleLoop) (event : ScheduleEvent) :
    Decidable (NoneLost letters intl lease loop event) :=
  inferInstanceAs (Decidable ((∀ going ∈ loop.goesOver lease event,
    loop.MarkCounts letters intl going.1 going.2.1 going.2.2) ∧ loop.BuildCounts event))

/-- Each schedule's fires are handled once and in order, and its runs follow each other. -/
structure HandledOnce : Prop where
  inOrder : loop.handled.Pairwise fun first later => first.1 = later.1 → first.2 < later.2
  oneRun : (loop.runs.map (·.base.scheduleId)).Nodup

structure Counted : Prop where
  fresh : ∀ stored ∈ loop.copies ++ loop.ahead, stored < loop.next
  freshMark : ∀ stored ∈ loop.underMark, stored < loop.next
  heldIds : (loop.schedules.map loop.idOf).Nodup
  aheadIds : (loop.ahead.map loop.idOf).Nodup
  ordered : loop.marked.Pairwise fun first later => first.1 = later.1 → first.2 < later.2
  counted : ∀ stored ∈ loop.copies ++ loop.ahead, ∀ fire ∈ loop.marked, fire.1 = loop.idOf stored →
    fire.2 ≤ loop.since stored

structure RunsKnown : Prop where
  keys : (loop.running.map (·.1)).Nodup
  known : ∀ run ∈ loop.runs, (run.base.scheduleId, run.number) ∈ loop.running
  numbers : (loop.runs.map (·.number)).Nodup
  below : ∀ run ∈ loop.runs, run.number < loop.nextRun

end Kept

section Runs

variable {loop : ScheduleLoop}

theorem RunsKnown.oneRun (known : loop.RunsKnown) : (loop.runs.map (·.base.scheduleId)).Nodup := by
  rw [nodup_map_iff_inj_on (known.numbers.of_map _)]
  intro run member other otherMember same
  have first := known.known run member
  have second := known.known other otherMember
  have pair := inj_on_of_nodup_map known.keys first second same
  have numbers := (Prod.mk.inj pair).2
  exact inj_on_of_nodup_map known.numbers member otherMember numbers

theorem RunsKnown.congr {after : ScheduleLoop} (known : loop.RunsKnown) (runs : after.runs = loop.runs)
    (running : after.running = loop.running) (nextRun : after.nextRun = loop.nextRun) : after.RunsKnown where
  keys := by rw [running]; exact known.keys
  known := by rw [runs, running]; exact known.known
  numbers := by rw [runs]; exact known.numbers
  below := by rw [runs, nextRun]; exact known.below

theorem RunsKnown.map {after : ScheduleLoop} (known : loop.RunsKnown) (change : RunningRun → RunningRun)
    (number : ∀ run, (change run).number = run.number) (base : ∀ run, (change run).base = run.base)
    (runs : after.runs = loop.runs.map change) (running : after.running = loop.running)
    (nextRun : after.nextRun = loop.nextRun) : after.RunsKnown where
  keys := by rw [running]; exact known.keys
  known := by
    rw [runs, running]
    intro run member
    obtain ⟨before, inRuns, rfl⟩ := mem_map.mp member
    rw [number, base]
    exact known.known before inRuns
  numbers := by
    have same : (loop.runs.map change).map (·.number) = loop.runs.map (·.number) := by
      rw [List.map_map]
      exact map_congr_left fun run _ => number run
    rw [runs, same]
    exact known.numbers
  below := by
    rw [runs, nextRun]
    intro run member
    obtain ⟨before, inRuns, rfl⟩ := mem_map.mp member
    rw [number]
    exact known.below before inRuns

@[simp] theorem RunningRun_stop_number (run : RunningRun) (reason : FleetCommandNodeEndReason) :
    (run.stop reason).number = run.number := rfl

@[simp] theorem RunningRun_stop_base (run : RunningRun) (reason : FleetCommandNodeEndReason) :
    (run.stop reason).base = run.base := rfl

theorem RunsKnown.runGoesOn (known : loop.RunsKnown) {number : ℕ} {phases : List RunPhase}
    {change : RunningRun → RunningRun} {report : RunningRun → Option FleetScheduleRunReport}
    (sameNumber : ∀ run, (change run).number = run.number) (sameBase : ∀ run, (change run).base = run.base) :
    (loop.runGoesOn number phases change report).RunsKnown := by
  refine known.map (fun run => if run.number = number ∧ run.phase ∈ phases then change run else run) ?_ ?_ rfl
    rfl rfl
  · intro run
    split
    · exact sameNumber run
    · rfl
  · intro run
    split
    · exact sameBase run
    · rfl

theorem RunsKnown.stopAll (known : loop.RunsKnown) (reason : FleetCommandNodeEndReason) :
    (loop.stopAll reason).RunsKnown := by
  refine known.map (fun run => if loop.running.any (·.2 = run.number) then run.stop reason else run) ?_ ?_ rfl
    rfl rfl <;>
  · intro run
    split <;> rfl

theorem RunsKnown.runReturns (known : loop.RunsKnown) (number : ℕ) : (loop.runReturns number).RunsKnown where
  keys := known.keys.sublist ((filter_sublist).map _)
  known run member := by
    obtain ⟨inRuns, other⟩ := mem_filter.mp member
    exact mem_filter.mpr ⟨known.known run inRuns, other⟩
  numbers := known.numbers.sublist ((filter_sublist).map _)
  below run member := known.below run (mem_filter.mp member).1

theorem RunsKnown.run (known : loop.RunsKnown) {stored : StoredSchedule} {runId : String}
    {scheduledFor : Option ℤ} {trigger : FleetScheduleRunTrigger} {now : ℤ}
    (idle : loop.isRunning stored.definition.id = false) :
    (loop.run stored runId scheduledFor trigger now).RunsKnown := by
  have absent : ∀ pair ∈ loop.running, pair.1 ≠ stored.definition.id := by
    simpa [isRunning] using idle
  have kept : loop.running.filter (·.1 ≠ stored.definition.id) = loop.running :=
    filter_eq_self.mpr fun pair member => by simpa using absent pair member
  constructor
  · simp only [ScheduleLoop.run, kept, map_append, map_cons, map_nil]
    refine nodup_append.mpr ⟨known.keys, nodup_singleton _, ?_⟩
    intro key member other otherMember same
    obtain ⟨pair, inMap, rfl⟩ := mem_map.mp member
    exact absent pair inMap (same.trans (mem_singleton.mp otherMember))
  · simp only [ScheduleLoop.run, kept]
    intro run member
    rcases mem_append.mp member with earlier | new
    · exact mem_append_left _ (known.known run earlier)
    · rw [mem_singleton.mp new]
      exact mem_append_right _ (mem_singleton_self _)
  · simp only [ScheduleLoop.run, map_append, map_cons, map_nil]
    refine nodup_append.mpr ⟨known.numbers, nodup_singleton _, ?_⟩
    intro number member other otherMember same
    obtain ⟨run, inRuns, rfl⟩ := mem_map.mp member
    exact absurd (known.below run inRuns) (by rw [same, mem_singleton.mp otherMember]; exact lt_irrefl _)
  · intro run member
    rcases mem_append.mp member with earlier | new
    · exact Nat.lt_succ_of_lt (known.below run earlier)
    · rw [mem_singleton.mp new]
      exact Nat.lt_succ_self _

variable {letters : JsString.LowerCase} {intl : Intl} {lease : Bool}

theorem RunsKnown.tickLoop (known : loop.RunsKnown) (timeZone : Option String) (now : ℤ) (ahead : List ℕ) :
    (loop.tickLoop letters intl timeZone now ahead).RunsKnown := by
  unfold ScheduleLoop.tickLoop
  split <;> exact known.congr rfl rfl rfl

theorem RunsKnown.tick (known : loop.RunsKnown) (now : ℤ) (timeZone : Option String) :
    (loop.tick letters intl lease now timeZone).RunsKnown := by
  unfold ScheduleLoop.tick
  split
  · exact known.tickLoop ..
  · split_ifs <;> exact known.congr rfl rfl rfl

theorem RunsKnown.tickResume (known : loop.RunsKnown) (clock : ℤ) (newId : String) :
    (loop.tickResume clock newId).RunsKnown := by
  unfold ScheduleLoop.tickResume
  split
  case h_2 now stored fire runs rest marking =>
    dsimp only
    generalize (if now - fire ≤ 120000 then FleetScheduleRunTrigger.timer else .catchUp) = trigger
    split_ifs with run busy
    · exact known.congr rfl rfl rfl
    · have idle : loop.isRunning (loop.entries stored).definition.id = false := by simpa using busy
      exact (known.run idle).congr rfl rfl rfl
    · exact known.congr rfl rfl rfl
  all_goals exact known.congr rfl rfl rfl

theorem RunsKnown.step (known : loop.RunsKnown) (event : ScheduleEvent) :
    (loop.step letters intl lease event).RunsKnown := by
  cases event with
  | tick now timeZone => exact known.tick now timeZone
  | tickGoesOn now timeZone newId =>
    unfold ScheduleLoop.step tickGoesOn
    dsimp only
    split
    · exact (known.tickResume _ _).tickLoop ..
    · exact known.tickResume ..
  | replace definitions now => exact known.congr rfl rfl rfl
  | replaceGoesOn place =>
    unfold ScheduleLoop.step replaceGoesOn
    dsimp only
    split
    · exact known
    · split <;> exact known.congr rfl rfl rfl
  | replaceFails place => exact known.congr rfl rfl rfl
  | runNow id runId now =>
    unfold ScheduleLoop.step ScheduleLoop.runNow
    dsimp only
    split
    · exact known
    · split
      case h_1 => exact known
      case h_2 stored found =>
        split_ifs with busy
        · exact known
        · have named : loop.idOf stored = id := by simpa using find?_some found
          have idle : loop.isRunning (loop.entries stored).definition.id = false := by
            rw [← idOf, named]
            simpa using busy
          exact known.run idle
  | runFindsFolder number => exact known.runGoesOn (fun _ => rfl) fun _ => rfl
  | runStarts number =>
    refine known.runGoesOn ?_ ?_ <;>
    · intro run
      split <;> rfl
  | runTimesOut number => exact known.runGoesOn (fun _ => rfl) fun _ => rfl
  | runExits number exitCode now => exact known.runGoesOn (fun _ => rfl) fun _ => rfl
  | runFails number now => exact known.runGoesOn (fun _ => rfl) fun _ => rfl
  | runReturns number => exact known.runReturns number
  | pause =>
    unfold ScheduleLoop.step
    dsimp only
    split
    · exact known
    · exact (known.stopAll _).congr rfl rfl rfl
  | resume =>
    unfold ScheduleLoop.step
    dsimp only
    split
    · exact known.congr rfl rfl rfl
    · exact known
  | resumeGoesOn now timeZone =>
    unfold ScheduleLoop.step
    dsimp only
    split
    · exact known
    · have resumed : RunsKnown { loop with resuming := loop.resuming - 1 } := known.congr rfl rfl rfl
      exact resumed.tick now timeZone
  | drain => exact known.stopAll _
  | dispose => exact known.congr rfl rfl rfl

end Runs

section Map

variable {loop : ScheduleLoop}

theorem mem_set {schedules : List ℕ} {stored other : ℕ} (member : other ∈ loop.set schedules stored) :
    other ∈ schedules ∨ other = stored := by
  unfold set at member
  split at member
  · obtain ⟨before, inSchedules, rfl⟩ := mem_map.mp member
    split
    · exact .inr rfl
    · exact .inl inSchedules
  · rcases mem_append.mp member with earlier | new
    · exact .inl earlier
    · exact .inr (mem_singleton.mp new)

theorem nodup_set {schedules : List ℕ} {stored : ℕ} (distinct : (schedules.map loop.idOf).Nodup) :
    ((loop.set schedules stored).map loop.idOf).Nodup := by
  unfold set
  split
  case isTrue =>
    have same : (schedules.map fun other => if loop.idOf other = loop.idOf stored then stored else other).map
        loop.idOf = schedules.map loop.idOf := by
      rw [List.map_map]
      apply map_congr_left
      intro other _
      rw [comp_apply]
      split
      · rename_i same
        exact same.symm
      · rfl
    rw [same]
    exact distinct
  case isFalse absent =>
    rw [map_append, map_cons, map_nil]
    refine nodup_append.mpr ⟨distinct, nodup_singleton _, ?_⟩
    intro id member other otherMember same
    obtain ⟨earlier, inSchedules, rfl⟩ := mem_map.mp member
    rw [mem_singleton] at otherMember
    exact absent (any_eq_true.mpr ⟨earlier, inSchedules, by simpa using same.trans otherMember⟩)

theorem mem_setAll {held : List ℕ} {stored : ℕ} (member : stored ∈ (loop.setAll held).schedules) :
    stored ∈ held := by
  have each : ∀ held schedules : List ℕ, stored ∈ held.foldl loop.set schedules →
      stored ∈ schedules ∨ stored ∈ held := by
    intro held
    induction held with
    | nil => exact fun schedules member => .inl member
    | cons first rest ih =>
      intro schedules member
      rcases ih _ member with inSet | later
      · rcases mem_set inSet with earlier | rfl
        · exact .inl earlier
        · exact .inr mem_cons_self
      · exact .inr (mem_cons_of_mem _ later)
  rcases each held [] member with none_ | inHeld
  · cases none_
  · exact inHeld

theorem nodup_setAll (held : List ℕ) : ((loop.setAll held).schedules.map loop.idOf).Nodup := by
  have each : ∀ held schedules : List ℕ, (schedules.map loop.idOf).Nodup →
      ((held.foldl loop.set schedules).map loop.idOf).Nodup := by
    intro held
    induction held with
    | nil => exact fun schedules distinct => distinct
    | cons first rest ih => exact fun schedules distinct => ih _ (nodup_set distinct)
  exact each held [] nodup_nil

end Map

section Marks

variable {loop after : ScheduleLoop} {letters : JsString.LowerCase} {intl : Intl} {lease : Bool}

theorem Counted.keep (counted : loop.Counted) (entries : after.entries = loop.entries)
    (next : after.next = loop.next) (schedules : after.schedules = loop.schedules)
    (replacing : ∀ stored ∈ after.replacing.flatMap (·.held), stored ∈ loop.replacing.flatMap (·.held))
    (marked : after.marked = loop.marked) (ahead : after.ahead.Sublist loop.ahead)
    (underMark : ∀ stored ∈ after.underMark, stored ∈ loop.underMark) : after.Counted := by
  have ids : after.idOf = loop.idOf := by
    unfold idOf
    rw [entries]
  have sinces : after.since = loop.since := by
    unfold since
    rw [entries]
  have inside : ∀ stored ∈ after.copies ++ after.ahead, stored ∈ loop.copies ++ loop.ahead := by
    intro stored member
    simp only [copies, schedules, mem_append] at member ⊢
    rcases member with (held | built) | later
    · exact .inl (.inl held)
    · exact .inl (.inr (replacing stored built))
    · exact .inr (ahead.subset later)
  constructor
  · intro stored member
    rw [next]
    exact counted.fresh stored (inside stored member)
  · intro stored member
    rw [next]
    exact counted.freshMark stored (underMark stored member)
  · rw [schedules, ids]
    exact counted.heldIds
  · rw [ids]
    exact counted.aheadIds.sublist (ahead.map _)
  · rw [marked]
    exact counted.ordered
  · rw [marked, ids, sinces]
    exact fun stored member => counted.counted stored (inside stored member)

variable {timeZone : Option String}

theorem catchUp_after {cadence : FleetScheduleCadence} {sinceMs nowMs fire : ℤ}
    {graceSec : Option ℤ}
    (due : (fleetScheduleCatchUp letters intl cadence timeZone sinceMs nowMs graceSec).run = some fire ∨
      (fleetScheduleCatchUp letters intl cadence timeZone sinceMs nowMs graceSec).skipped = some fire) :
    sinceMs < fire := by
  unfold fleetScheduleCatchUp at due
  split at due
  · simp at due
  · split_ifs at due <;> simp at due <;> omega

variable {now : ℤ}

variable {ahead : List ℕ}

theorem nextDue_spec {stored : ℕ} {fire : ℤ} {runs : Bool}
    {rest : List ℕ}
    (due : loop.nextDue letters intl timeZone now ahead = some (stored, fire, runs, rest)) :
    loop.since stored < fire ∧ ∃ passed, ahead = passed ++ stored :: rest := by
  induction ahead with
  | nil => cases due
  | cons first others ih =>
    unfold nextDue at due
    dsimp only at due
    split at due
    case h_1 at_ found =>
      cases some.inj due
      exact ⟨catchUp_after (.inl found), [], rfl⟩
    case h_2 at_ _ found =>
      cases some.inj due
      exact ⟨catchUp_after (.inr found), [], rfl⟩
    case h_3 =>
      obtain ⟨later, passed, rfl⟩ := ih due
      exact ⟨later, first :: passed, rfl⟩

theorem nextDue_congr (entries : after.entries = loop.entries) (timeZone : Option String) (now : ℤ)
    (ahead : List ℕ) :
    after.nextDue letters intl timeZone now ahead = loop.nextDue letters intl timeZone now ahead := by
  induction ahead with
  | nil => rfl
  | cons first rest ih =>
    unfold nextDue
    rw [entries, ih]

theorem since_markFired (stored : StoredSchedule) (at_ : ℤ) :
    stored.since ≤ (stored.markFired at_).since ∧ at_ ≤ (stored.markFired at_).since := by
  unfold StoredSchedule.since StoredSchedule.markFired
  dsimp only [getD_some]
  omega

theorem Counted.tickLoop (counted : loop.Counted) (settled : loop.ahead = [] ∧ loop.pending = [])
    (fresh : ∀ stored ∈ ahead, stored < loop.next)
    (ids : (ahead.map loop.idOf).Nodup)
    (aheadCounted : ∀ stored ∈ ahead, ∀ fire ∈ loop.marked, fire.1 = loop.idOf stored →
      fire.2 ≤ loop.since stored)
    (counts : loop.MarkCounts letters intl timeZone now ahead) :
    (loop.tickLoop letters intl timeZone now ahead).Counted := by
  have handled : loop.marked = loop.handled := by rw [marked, settled.2, append_nil]
  unfold ScheduleLoop.tickLoop
  split
  case h_2 =>
    refine counted.keep rfl rfl rfl (fun _ member => member) ?_ (nil_sublist _) (by simp [underMark])
    rw [handled]
    exact append_nil _
  case h_1 stored fire runs rest due =>
    obtain ⟨later, passed, rfl⟩ := nextDue_spec due
    have others := counts _ due
    set after : ScheduleLoop := { loop with
      entries := update loop.entries stored ((loop.entries stored).markFired fire)
      ticking := some (.marking now stored fire runs rest) } with afterEq
    have sameIds : after.idOf = loop.idOf := by
      funext other
      by_cases same : other = stored
      · rw [same, afterEq]
        simp [idOf, StoredSchedule.markFired]
      · rw [afterEq]
        simp [idOf, same]
    have sinceOther : ∀ other, other ≠ stored → after.since other = loop.since other := by
      intro other different
      rw [afterEq]
      simp [since, different]
    have sinceStored : loop.since stored ≤ after.since stored ∧ fire ≤ after.since stored := by
      have := since_markFired (loop.entries stored) fire
      rw [afterEq]
      simpa [since] using this
    have markedEq : after.marked = loop.handled ++ [(loop.idOf stored, fire)] := by
      rw [marked, pending, sameIds]
    have restIds : ((stored :: rest).map loop.idOf).Nodup :=
      ids.sublist ((sublist_append_right _ _).map _)
    rw [map_cons, nodup_cons] at restIds
    have inAhead : ∀ other ∈ rest, other ∈ passed ++ stored :: rest := fun other member =>
      mem_append_right _ (mem_cons_of_mem _ member)
    have storedCounted := aheadCounted stored (mem_append_right _ mem_cons_self)
    rw [handled] at aheadCounted storedCounted
    constructor
    · intro other member
      rcases mem_append.mp member with copy | inRest
      · exact counted.fresh other (mem_append_left _ copy)
      · exact fresh other (inAhead other inRest)
    · intro other member
      rw [mem_singleton.mp member]
      exact fresh stored (mem_append_right _ mem_cons_self)
    · rw [sameIds]
      exact counted.heldIds
    · rw [sameIds]
      exact restIds.2
    · rw [markedEq]
      have ordered := counted.ordered
      rw [handled] at ordered
      refine pairwise_append.mpr ⟨ordered, pairwise_singleton _ _, ?_⟩
      intro earlier member new newMember same
      rw [mem_singleton] at newMember
      subst newMember
      exact lt_of_le_of_lt (storedCounted earlier member same) later
    · rw [markedEq, sameIds]
      intro other member at_ atMember same
      by_cases isStored : other = stored
      · subst isStored
        rcases mem_append.mp atMember with earlier | new
        · exact (storedCounted at_ earlier same).trans sinceStored.1
        · rw [mem_singleton.mp new]
          exact sinceStored.2
      · rw [sinceOther other isStored]
        rcases mem_append.mp atMember with earlier | new
        · rcases mem_append.mp member with copy | inRest
          · exact counted.counted other (mem_append_left _ copy) at_ (by rwa [handled]) same
          · exact aheadCounted other (inAhead other inRest) at_ earlier same
        · rw [mem_singleton.mp new] at same ⊢
          rcases mem_append.mp member with copy | inRest
          · exact others other copy isStored same.symm
          · exact absurd (mem_map.mpr ⟨other, inRest, same.symm⟩) restIds.1

theorem markCounts_congr (entries : after.entries = loop.entries) (schedules : after.schedules = loop.schedules)
    (replacing : after.replacing = loop.replacing)
    (counts : loop.MarkCounts letters intl timeZone now ahead) :
    after.MarkCounts letters intl timeZone now ahead := by
  intro due found other copy different same
  rw [nextDue_congr entries] at found
  rw [copies, schedules, replacing] at copy
  rw [idOf, idOf, entries] at same
  rw [since, entries]
  exact counts due found other copy different same

theorem Counted.tickHeld (counted : loop.Counted) (settled : loop.ahead = [] ∧ loop.pending = [])
    (counts : loop.MarkCounts letters intl timeZone now loop.schedules) :
    (loop.tickLoop letters intl timeZone now loop.schedules).Counted := by
  have held : ∀ stored ∈ loop.schedules, stored ∈ loop.copies ++ loop.ahead := fun stored member =>
    mem_append_left _ (mem_append_left _ member)
  exact counted.tickLoop settled (fun stored member => counted.fresh stored (held stored member))
    counted.heldIds (fun stored member => counted.counted stored (held stored member)) counts

theorem Counted.ticking (counted : loop.Counted) (none_ : loop.pending = []) {ticking : Option Ticking}
    (state : ticking = none ∨ ticking = some .touching ∨ ticking = some .settling) :
    Counted { loop with ticking } := by
  have marked : loop.marked = loop.handled := by rw [marked, none_, append_nil]
  have nothing : ahead { loop with ticking } = [] ∧ pending { loop with ticking } = [] ∧
      underMark { loop with ticking } = [] := by
    rcases state with rfl | rfl | rfl <;> exact ⟨rfl, rfl, rfl⟩
  refine counted.keep rfl rfl rfl (fun _ member => member) ?_ ?_ ?_
  · rw [marked, ScheduleLoop.marked, nothing.2.1, append_nil]
  · rw [nothing.1]
    exact nil_sublist _
  · rw [nothing.2.2]
    simp

theorem Counted.tick (counted : loop.Counted)
    (counts : ∀ going ∈ loop.tickStart lease now, loop.MarkCounts letters intl timeZone going.1 going.2) :
    (loop.tick letters intl lease now timeZone).Counted := by
  have idle : loop.ticking.isSome = false → loop.ahead = [] ∧ loop.pending = [] := by
    intro none_
    rw [isSome_eq_false_iff, isNone_iff_eq_none] at none_
    simp [ahead, pending, none_]
  unfold ScheduleLoop.tick
  split
  case h_1 now' going start =>
    have counts := counts _ start
    unfold tickStart at start
    split at start
    · cases start
    · rename_i free
      cases some.inj start
      have none_ : loop.ticking.isSome = false := by
        by_contra busy
        simp [Bool.not_eq_false _ ▸ busy] at free
      exact counted.tickHeld (idle none_) counts
  case h_2 =>
    split_ifs with busy stopped touches
    · exact counted
    all_goals
      have none_ := (idle (Bool.not_eq_true _ ▸ busy)).2
      first
      | exact counted.ticking none_ (.inr (.inl rfl))
      | exact counted.ticking none_ (.inr (.inr rfl))

theorem underMark_of_pending (none_ : loop.pending = []) : loop.underMark = [] := by
  rcases ticking : loop.ticking with _ | (_ | ⟨now, stored, fire, runs, rest⟩ | ⟨now, rest⟩ | _)
  case some.marking => simp [pending, ticking] at none_
  all_goals simp [underMark, ticking]

theorem tickResume_frame (clock : ℤ) (newId : String) :
    (loop.tickResume clock newId).entries = loop.entries ∧ (loop.tickResume clock newId).next = loop.next ∧
      (loop.tickResume clock newId).schedules = loop.schedules ∧
      (loop.tickResume clock newId).replacing = loop.replacing := by
  unfold tickResume
  split
  case h_2 =>
    dsimp only
    split_ifs <;> exact ⟨rfl, rfl, rfl, rfl⟩
  all_goals exact ⟨rfl, rfl, rfl, rfl⟩

theorem tickResume_marked (clock : ℤ) (newId : String) :
    (loop.tickResume clock newId).marked = loop.marked ∧
      (loop.tickResume clock newId).pending = [] ∧
      (loop.tickResume clock newId).ahead.Sublist loop.ahead ∧
      ∀ going ∈ loop.tickAhead clock, (loop.tickResume clock newId).ahead = [] ∧
        (going.2 = loop.schedules ∨ going.2 = loop.ahead) := by
  rcases ticking : loop.ticking with _ | (_ | ⟨now, stored, fire, runs, rest⟩ | ⟨now, rest⟩ | _)
  · -- No tick is going on.
    simp [tickResume, tickAhead, pending, ticking]
  · -- The lease was touched.
    simp only [tickResume, tickAhead, ticking]
    refine ⟨by simp [marked, pending, ticking], rfl, nil_sublist _, ?_⟩
    intro going start
    split at start
    · cases start
    · cases some.inj start
      exact ⟨rfl, .inl rfl⟩
  · -- A fire was marked.
    have aheadEq : loop.ahead = rest := by simp [ahead, ticking]
    have markedEq : loop.marked = loop.handled ++ [((loop.entries stored).definition.id, fire)] := by
      simp [marked, pending, ticking, idOf]
    simp only [markedEq, aheadEq, tickResume, tickAhead, ticking]
    cases runs with
    | false => exact ⟨by simp [marked, pending, record], rfl, List.Sublist.refl _, by simp⟩
    | true =>
      cases busy : loop.isRunning (loop.entries stored).definition.id with
      | true => exact ⟨by simp [marked, pending, record], rfl, List.Sublist.refl _, by simp [idOf, busy]⟩
      | false =>
        refine ⟨by simp [marked, pending, run], rfl, nil_sublist _, ?_⟩
        intro going start
        simp only [idOf, busy, Bool.not_false, Bool.and_self, if_true, mem_some_iff] at start
        subst start
        exact ⟨rfl, .inr rfl⟩
  · -- A skipped fire was recorded.
    have aheadEq : loop.ahead = rest := by simp [ahead, ticking]
    simp only [tickResume, tickAhead, ticking]
    refine ⟨by simp [marked, pending, ticking], rfl, nil_sublist _, ?_⟩
    intro going start
    cases some.inj start
    exact ⟨rfl, .inr aheadEq.symm⟩
  · -- The tick was over.
    simp only [tickResume, tickAhead, ticking]
    exact ⟨by simp [marked, pending, ticking], rfl, nil_sublist _, by simp⟩

theorem Counted.tickGoesOn (counted : loop.Counted) {clock : ℤ} {newId : String}
    (counts : ∀ going ∈ loop.tickAhead clock, loop.MarkCounts letters intl timeZone going.1 going.2) :
    (loop.tickGoesOn letters intl clock timeZone newId).Counted := by
  obtain ⟨entries, next, schedules, replacing⟩ := loop.tickResume_frame clock newId
  obtain ⟨marked, pending, ahead, going⟩ := loop.tickResume_marked clock newId
  have unmarked := underMark_of_pending pending
  have resumed : (loop.tickResume clock newId).Counted :=
    counted.keep entries next schedules (by rw [replacing]; exact fun _ member => member) marked ahead
      (by simp [unmarked])
  unfold ScheduleLoop.tickGoesOn
  split
  case h_2 => exact resumed
  case h_1 now list start =>
    obtain ⟨none_, which⟩ := going _ start
    have counts := markCounts_congr entries schedules replacing (counts _ start)
    have ids : (loop.tickResume clock newId).idOf = loop.idOf := by
      unfold idOf
      rw [entries]
    have sinces : (loop.tickResume clock newId).since = loop.since := by
      unfold since
      rw [entries]
    have inside : ∀ stored ∈ list, stored ∈ loop.copies ++ loop.ahead := by
      rcases which with rfl | rfl
      · exact fun stored member => mem_append_left _ (mem_append_left _ member)
      · exact fun stored member => mem_append_right _ member
    have distinct : (list.map loop.idOf).Nodup := by
      rcases which with rfl | rfl
      · exact counted.heldIds
      · exact counted.aheadIds
    refine resumed.tickLoop ⟨none_, pending⟩ ?_ ?_ ?_ counts
    · rw [next]
      exact fun stored member => counted.fresh stored (inside stored member)
    · rwa [ids]
    · rw [marked, ids, sinces]
      exact fun stored member => counted.counted stored (inside stored member)

theorem Counted.swap (counted : loop.Counted) {place : ℕ} {call : Replacing}
    (found : loop.replacing[place]? = some call) :
    Counted { loop.setAll call.held with replacing := loop.replacing.eraseIdx place } := by
  set after : ScheduleLoop := { loop.setAll call.held with replacing := loop.replacing.eraseIdx place } with afterEq
  have schedules : after.schedules = (loop.setAll call.held).schedules := rfl
  have inside : ∀ stored ∈ after.copies ++ after.ahead, stored ∈ loop.copies ++ loop.ahead := by
    intro stored member
    simp only [copies, schedules, mem_append] at member ⊢
    rcases member with (held | built) | later
    · have inHeld := mem_setAll held
      have inReplacing := mem_of_getElem? found
      exact .inl (.inr (mem_flatMap.mpr ⟨call, inReplacing, inHeld⟩))
    · obtain ⟨other, member, inHeld⟩ := mem_flatMap.mp built
      have inReplacing := mem_of_mem_eraseIdx member
      exact .inl (.inr (mem_flatMap.mpr ⟨other, inReplacing, inHeld⟩))
    · exact .inr later
  exact {
    fresh := fun stored member => counted.fresh stored (inside stored member)
    freshMark := counted.freshMark
    heldIds := nodup_setAll call.held
    aheadIds := counted.aheadIds
    ordered := counted.ordered
    counted := fun stored member => counted.counted stored (inside stored member) }

theorem idOf_get {id : String} {stored : ℕ} (found : stored ∈ loop.get id) :
    stored ∈ loop.schedules ∧ loop.idOf stored = id :=
  ⟨mem_of_find?_eq_some found, by simpa using find?_some found⟩

theorem Counted.hold (counted : loop.Counted) {definition : FleetScheduleDefinition}
    (arms : loop.ArmsAfter definition now) {fire : String × ℤ} (member : fire ∈ loop.marked)
    (same : fire.1 = definition.id) :
    fire.2 ≤ (StoredSchedule.hold definition now ((loop.get definition.id).map loop.entries)).since := by
  have kept : ∀ stored ∈ loop.get definition.id, fire.2 ≤ loop.since stored := by
    intro stored found
    obtain ⟨held, id⟩ := idOf_get found
    exact counted.counted stored (mem_append_left _ (mem_append_left _ held)) fire member
      (same.trans id.symm)
  have armed : ¬ (∃ stored ∈ loop.get definition.id,
      StoredSchedule.SameClock definition (loop.entries stored)) →
      fire.2 ≤ (StoredSchedule.arm definition now).since := by
    intro anew
    have := (arms.resolve_left anew) fire member same
    exact this.trans (le_max_left _ _)
  cases found : loop.get definition.id with
  | none => exact armed (by simp [found])
  | some stored =>
    rw [map_some, StoredSchedule.hold]
    split
    · exact kept stored found
    · rename_i changed
      exact armed (by simpa [found] using changed)

theorem Counted.build (counted : loop.Counted) {place : ℕ} {call : Replacing}
    {definition : FleetScheduleDefinition} {rest : List FleetScheduleDefinition}
    (found : loop.replacing[place]? = some call) (arms : loop.ArmsAfter definition call.now) :
    Counted { loop with
      entries := update loop.entries loop.next
        (.hold definition call.now ((loop.get definition.id).map loop.entries))
      next := loop.next + 1
      replacing := loop.replacing.set place { call with
        definitions := rest, held := call.held ++ [loop.next] } } := by
  set entry := StoredSchedule.hold definition call.now ((loop.get definition.id).map loop.entries) with entryEq
  set after : ScheduleLoop := { loop with
    entries := update loop.entries loop.next entry
    next := loop.next + 1
    replacing := loop.replacing.set place { call with
      definitions := rest, held := call.held ++ [loop.next] } } with afterEq
  have older : ∀ stored < loop.next, after.entries stored = loop.entries stored := fun stored small =>
    update_of_ne (Nat.ne_of_lt small) _ _
  have newest : after.entries loop.next = entry := update_self ..
  have newestId : after.idOf loop.next = definition.id := by
    rw [idOf, newest, entryEq]
    unfold StoredSchedule.hold
    split
    · split <;> rfl
    · rfl
  have heldSmall : ∀ stored ∈ loop.schedules, stored < loop.next := fun stored member =>
    counted.fresh stored (mem_append_left _ (mem_append_left _ member))
  have aheadSmall : ∀ stored ∈ loop.ahead, stored < loop.next := fun stored member =>
    counted.fresh stored (mem_append_right _ member)
  have sameIds : ∀ list : List ℕ, (∀ stored ∈ list, stored < loop.next) →
      list.map after.idOf = list.map loop.idOf := fun list small =>
    map_congr_left fun stored member => by rw [idOf, idOf, older stored (small stored member)]
  have marked : after.marked = loop.marked := by
    have pending : after.pending = loop.pending := by
      rcases ticking : loop.ticking with _ | (_ | ⟨now, stored, fire, runs, rest⟩ | ⟨now, rest⟩ | _)
      case some.marking =>
        have small := counted.freshMark stored (by simp [underMark, ticking])
        simp [ScheduleLoop.pending, afterEq, ticking, idOf, update_of_ne (Nat.ne_of_lt small)]
      all_goals simp [ScheduleLoop.pending, afterEq, ticking]
    rw [ScheduleLoop.marked, ScheduleLoop.marked, pending]
  have inside : ∀ stored ∈ after.copies ++ after.ahead,
      stored ∈ loop.copies ++ loop.ahead ∨ stored = loop.next := by
    intro stored member
    simp only [copies, mem_append] at member ⊢
    rcases member with (held | built) | later
    · exact .inl (.inl (.inl held))
    · obtain ⟨other, member, inHeld⟩ := mem_flatMap.mp built
      rcases mem_or_eq_of_mem_set member with old | rfl
      · exact .inl (.inl (.inr (mem_flatMap.mpr ⟨other, old, inHeld⟩)))
      · rcases mem_append.mp inHeld with earlier | new
        · exact .inl (.inl (.inr (mem_flatMap.mpr ⟨call, mem_of_getElem? found, earlier⟩)))
        · exact .inr (mem_singleton.mp new)
    · exact .inl (.inr later)
  constructor
  · intro stored member
    rcases inside stored member with old | rfl
    · exact Nat.lt_succ_of_lt (counted.fresh stored old)
    · exact Nat.lt_succ_self _
  · exact fun stored member => Nat.lt_succ_of_lt (counted.freshMark stored member)
  · rw [sameIds _ heldSmall]
    exact counted.heldIds
  · have distinct : (loop.ahead.map after.idOf).Nodup := by
      rw [sameIds _ aheadSmall]
      exact counted.aheadIds
    exact distinct
  · rw [marked]
    exact counted.ordered
  · rw [marked]
    intro stored member fire inMarked same
    rcases inside stored member with old | rfl
    · have small := counted.fresh stored old
      rw [idOf, older stored small] at same
      rw [since, older stored small]
      exact counted.counted stored old fire inMarked same
    · rw [since, newest]
      exact counted.hold arms inMarked (same.trans newestId)

theorem Counted.replaceGoesOn (counted : loop.Counted) {place : ℕ}
    (arms : ∀ call ∈ loop.replacing[place]?, ∀ definition ∈ call.definitions.head?,
      loop.ArmsAfter definition call.now) : (loop.replaceGoesOn place).Counted := by
  unfold ScheduleLoop.replaceGoesOn
  split
  · exact counted
  · rename_i call found
    split
    · rename_i definition rest definitions
      exact counted.build found (arms call found definition (by rw [definitions]; rfl))
    · exact counted.swap found

theorem Counted.runs (counted : loop.Counted) (entries : after.entries = loop.entries)
    (next : after.next = loop.next) (schedules : after.schedules = loop.schedules)
    (replacing : after.replacing = loop.replacing) (ticking : after.ticking = loop.ticking)
    (handled : after.handled = loop.handled) : after.Counted := by
  have pending : after.pending = loop.pending := by
    unfold pending idOf
    rw [ticking, entries]
  refine counted.keep entries next schedules (by rw [replacing]; exact fun _ member => member) ?_ ?_ ?_
  · rw [marked, marked, handled, pending]
  · rw [ahead, ahead, ticking]
  · rw [underMark, underMark, ticking]
    exact fun _ member => member

theorem Counted.step (counted : loop.Counted) {event : ScheduleEvent}
    (kept : NoneLost letters intl lease loop event) : (loop.step letters intl lease event).Counted := by
  obtain ⟨counts, arms⟩ := kept
  cases event with
  | tick now timeZone =>
    refine counted.tick fun going start => ?_
    exact counts (timeZone, going) (map_eq_some_iff.mpr ⟨going, start, rfl⟩)
  | tickGoesOn now timeZone newId =>
    refine counted.tickGoesOn fun going start => ?_
    exact counts (timeZone, going) (map_eq_some_iff.mpr ⟨going, start, rfl⟩)
  | replace definitions now =>
    have same : (loop.replacing ++ [(⟨definitions, now, []⟩ : Replacing)]).flatMap (·.held) =
        loop.replacing.flatMap (·.held) := by simp
    exact counted.keep rfl rfl rfl (fun stored member => same ▸ member) rfl (List.Sublist.refl _)
      fun _ member => member
  | replaceGoesOn place => exact counted.replaceGoesOn arms
  | replaceFails place =>
    refine counted.keep rfl rfl rfl (fun stored member => ?_) rfl (List.Sublist.refl _) fun _ member => member
    obtain ⟨call, inReplacing, inHeld⟩ := mem_flatMap.mp member
    exact mem_flatMap.mpr ⟨call, mem_of_mem_eraseIdx inReplacing, inHeld⟩
  | runNow id runId now =>
    unfold ScheduleLoop.step ScheduleLoop.runNow
    dsimp only
    split
    · exact counted
    · split
      · exact counted
      · split
        · exact counted
        · exact counted.runs rfl rfl rfl rfl rfl (by simp [run])
  | pause =>
    unfold ScheduleLoop.step
    dsimp only
    split
    · exact counted
    · exact counted.runs rfl rfl rfl rfl rfl rfl
  | resume =>
    unfold ScheduleLoop.step
    dsimp only
    split
    · exact counted.runs rfl rfl rfl rfl rfl rfl
    · exact counted
  | resumeGoesOn now timeZone =>
    unfold ScheduleLoop.step
    dsimp only
    split
    · exact counted
    · rename_i some_
      have resumed : Counted { loop with resuming := loop.resuming - 1 } :=
        counted.runs rfl rfl rfl rfl rfl rfl
      refine resumed.tick fun going start => ?_
      have found : loop.goesOver lease (.resumeGoesOn now timeZone) =
          (loop.tickStart lease now).map (timeZone, ·) := if_neg some_
      have counts := counts (timeZone, going) (by
        rw [found]
        exact map_eq_some_iff.mpr ⟨going, start, rfl⟩)
      set after : ScheduleLoop := { loop with resuming := loop.resuming - 1 }
      have same : after.entries = loop.entries ∧ after.schedules = loop.schedules ∧
        after.replacing = loop.replacing := ⟨rfl, rfl, rfl⟩
      exact markCounts_congr same.1 same.2.1 same.2.2 counts
  | runFindsFolder | runStarts | runTimesOut | runExits | runFails | runReturns | drain | dispose =>
    exact counted.runs rfl rfl rfl rfl rfl rfl

theorem counted_start (stored : List StoredSchedule) (paused : Bool) : (start stored paused).Counted := by
  unfold start
  dsimp only
  constructor
  · intro place member
    simp only [copies, ahead, setAll, mem_append, flatMap_nil, not_mem_nil, or_false] at member
    exact mem_range.mp (mem_setAll member)
  · simp [underMark, setAll]
  · exact nodup_setAll _
  · simp [ahead, setAll]
  · simp [marked, pending, setAll]
  · simp [marked, pending, setAll]

theorem runsKnown_start (stored : List StoredSchedule) (paused : Bool) : (start stored paused).RunsKnown := by
  constructor <;> simp [start, setAll]

theorem Counted.handledOnce (counted : loop.Counted) (known : loop.RunsKnown) : loop.HandledOnce where
  inOrder := (pairwise_append.mp counted.ordered).1
  oneRun := known.oneRun

/-- Where no mark is lost, each schedule's fires are handled once and in order, through every step. -/
theorem handled_once (stored : List StoredSchedule) (paused : Bool) {events first : List ScheduleEvent}
    (kept : Along (step letters intl lease) (NoneLost letters intl lease) (start stored paused) events)
    (isPre : first <+: events) :
    (Lib.run (step letters intl lease) (start stored paused) first).HandledOnce := by
  have preserve : ∀ (loop : ScheduleLoop) (event : ScheduleEvent), (loop.Counted ∧ loop.RunsKnown) →
      NoneLost letters intl lease loop event →
        (loop.step letters intl lease event).Counted ∧ (loop.step letters intl lease event).RunsKnown :=
    fun loop event both kept => ⟨both.1.step kept, both.2.step event⟩
  have both : (Lib.run (step letters intl lease) (start stored paused) first).Counted ∧
      (Lib.run (step letters intl lease) (start stored paused) first).RunsKnown :=
    initial_along preserve ⟨counted_start stored paused, runsKnown_start stored paused⟩ kept isPre
  exact both.1.handledOnce both.2

/-- Whatever marks are lost, two runs of a schedule are never in progress at a time. -/
theorem one_run_at_a_time (stored : List StoredSchedule) (paused : Bool) (events : List ScheduleEvent) :
    ((Lib.run (step letters intl lease) (start stored paused) events).runs.map (·.base.scheduleId)).Nodup := by
  have preserve : ∀ (loop : ScheduleLoop) (event : ScheduleEvent), loop.RunsKnown → True →
      (loop.step letters intl lease event).RunsKnown := fun loop event known _ => known.step event
  have known : (Lib.run (step letters intl lease) (start stored paused) events).RunsKnown :=
    run_along preserve (runsKnown_start stored paused)
      (along_of_forall (p := fun _ => True) (fun _ _ => trivial) _)
  exact known.oneRun

end Marks

def everyMinute : FleetScheduleDefinition := ⟨"backup", { kind := .interval, expr := some "1" }⟩

/-- Two fires and a `replace` between them. -/
def twoMinutes : List ScheduleEvent := [
  .tick 60000 none, .tickGoesOn 60000 none "first", .tickGoesOn 60001 none "first", .tickGoesOn 60002 none "first",
  .replace [everyMinute] 70000, .replaceGoesOn 0, .replaceGoesOn 0, .runReturns 0,
  .tick 120000 none, .tickGoesOn 120000 none "second", .tickGoesOn 120001 none "second"]

theorem handled_once_two_minutes :
    (Lib.run (step .ascii .utcOnly true) (start [.arm everyMinute 0] false) twoMinutes).HandledOnce := by
  have kept : Along (step .ascii .utcOnly true) (NoneLost .ascii .utcOnly true)
      (start [.arm everyMinute 0] false) twoMinutes := by decide +kernel
  exact handled_once [.arm everyMinute 0] false kept prefix_rfl

/-- A fire marked between what `replace` builds and what it holds. -/
def markLost : List ScheduleEvent := [
  .replace [everyMinute] 50000, .replaceGoesOn 0, .tick 60000 none, .tickGoesOn 60000 none "first",
  .replaceGoesOn 0, .tickGoesOn 60001 none "first", .tickGoesOn 60002 none "first", .runReturns 0,
  .tick 61000 none, .tickGoesOn 61000 none "second", .tickGoesOn 61001 none "second"]

/-- The fire is run twice. -/
theorem mark_lost_runs_twice :
    (Lib.run (step .ascii .utcOnly true) (start [.arm everyMinute 0] false) markLost).handled =
        [("backup", 60000), ("backup", 60000)] ∧
      ¬ (Lib.run (step .ascii .utcOnly true) (start [.arm everyMinute 0] false) markLost).HandledOnce := by
  have handled : (Lib.run (step .ascii .utcOnly true) (start [.arm everyMinute 0] false) markLost).handled =
      [("backup", 60000), ("backup", 60000)] := by decide +kernel
  refine ⟨handled, fun once => ?_⟩
  have inOrder := once.inOrder
  rw [handled] at inOrder
  exact absurd inOrder (by decide)

end ScheduleLoop

end EverWorks.Schedule
