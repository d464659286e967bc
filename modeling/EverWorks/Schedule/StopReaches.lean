import EverWorks.Schedule.HandledOnce

/-!
# A stop and the launch it races

`stop` on a run whose shell is still starting leaves its reason only. Once the handle is there, a kill switch that
still holds is told to it; a drain, or a kill switch lifted before, is not. Such a run goes on and is put down as
ended by the stop.
-/

namespace EverWorks.Schedule
open Lib List

namespace ScheduleLoop

variable (loop : ScheduleLoop)

def asks : ScheduleEvent → List ℕ
  | .pause | .drain => loop.runs.map (·.number)
  | _ => []

def withHandle : List ℕ :=
  (loop.runs.filter fun run => run.phase = .started ∧ loop.running.any (·.2 = run.number)).map (·.number)

def tells : ScheduleEvent → List ℕ
  | .pause => if loop.paused then [] else loop.withHandle
  | .drain => loop.withHandle
  | .runStarts number =>
    if loop.paused then
      (loop.runs.filter fun run => run.number = number ∧ run.phase ∈ [.starting]).map (·.number)
    else []
  | _ => []

def outcomesOf : ScheduleEvent → List (ℕ × Option FleetCommandNodeEndReason)
  | .runExits number exitCode _ =>
    (loop.runs.filter fun run => run.number = number ∧ run.phase ∈ [.started]).map fun run =>
      (run.number, (fleetCommandRunEndFor (some (runExitCode run.endReason exitCode)) run.endReason).2)
  | _ => []

end ScheduleLoop

/-- The loop, the runs asked to stop and told to, and the outcomes put down. -/
structure StopLog where
  loop : ScheduleLoop
  asked : List ℕ
  told : List ℕ
  outcomes : List (ℕ × Option FleetCommandNodeEndReason)

def FleetCommandNodeEndReason.IsStop (reason : FleetCommandNodeEndReason) : Prop :=
  reason = .killSwitch ∨ reason = .drain

instance (reason : FleetCommandNodeEndReason) : Decidable reason.IsStop :=
  inferInstanceAs (Decidable (_ ∨ _))

namespace StopLog
open ScheduleLoop

section Step

variable (letters : JsString.LowerCase) (intl : Intl) (lease : Bool)

def step (log : StopLog) (event : ScheduleEvent) : StopLog where
  loop := log.loop.step letters intl lease event
  asked := log.asked ++ log.loop.asks event
  told := log.told ++ log.loop.tells event
  outcomes := log.outcomes ++ log.loop.outcomesOf event

end Step

def start (stored : List StoredSchedule) (paused : Bool) : StopLog where
  loop := .start stored paused
  asked := []
  told := []
  outcomes := []

/-- Every stop has reached its runs: those it found in flight and those said to have ended by it. -/
structure StopsReach (log : StopLog) : Prop where
  recorded : ∀ outcome ∈ log.outcomes, ∀ reason ∈ outcome.2, reason.IsStop → outcome.1 ∈ log.told
  reached : ∀ run ∈ log.loop.runs, run.phase = .started → run.number ∈ log.asked → run.number ∈ log.told

/-- A launch that returns its handle was not asked to stop, or the kill switch still holds. -/
def LaunchUnasked (log : StopLog) : ScheduleEvent → Prop
  | .runStarts number => ∀ run ∈ log.loop.runs, run.number = number → run.phase = .starting →
      run.number ∈ log.asked → log.loop.paused = true
  | _ => True

end StopLog

namespace ScheduleLoop

def Begins (loop after : ScheduleLoop) : Prop :=
  (after.paused = true → loop.paused = true) ∧
    (after.runs = loop.runs ∧ after.nextRun = loop.nextRun ∨
      ∃ run : RunningRun, run.number = loop.nextRun ∧ run.endReason = none ∧ run.phase = .resolving ∧
        after.runs = loop.runs ++ [run] ∧ after.nextRun = loop.nextRun + 1)

section Begins

variable {loop after : ScheduleLoop} {letters : JsString.LowerCase} {intl : Intl} {lease : Bool}

theorem Begins.refl (loop : ScheduleLoop) : loop.Begins loop := ⟨id, .inl ⟨rfl, rfl⟩⟩

theorem Begins.tickLoop (begins : loop.Begins after) (timeZone : Option String) (now : ℤ) (ahead : List ℕ) :
    loop.Begins (after.tickLoop letters intl timeZone now ahead) := by
  unfold ScheduleLoop.tickLoop
  split <;> exact begins

theorem Begins.tick (begins : loop.Begins after) (now : ℤ) (timeZone : Option String) :
    loop.Begins (after.tick letters intl lease now timeZone) := by
  unfold ScheduleLoop.tick
  split
  · exact begins.tickLoop ..
  · split_ifs <;> exact begins

theorem begins_run (stored : StoredSchedule) (runId : String) (scheduledFor : Option ℤ)
    (trigger : FleetScheduleRunTrigger) (now : ℤ) :
    loop.Begins (loop.run stored runId scheduledFor trigger now) :=
  ⟨id, .inr ⟨_, rfl, rfl, rfl, rfl, rfl⟩⟩

theorem begins_tickResume (clock : ℤ) (newId : String) : loop.Begins (loop.tickResume clock newId) := by
  unfold ScheduleLoop.tickResume
  split
  case h_2 now stored fire runs rest marking =>
    dsimp only
    generalize (if now - fire ≤ 120000 then FleetScheduleRunTrigger.timer else .catchUp) = trigger
    split_ifs with run busy
    · exact Begins.refl loop
    · have ran : loop.Begins (loop.run (loop.entries stored) newId (some fire) trigger clock) := begins_run ..
      exact ran
    · exact Begins.refl loop
  all_goals exact Begins.refl loop

theorem begins_runNow (id runId : String) (now : ℤ) : loop.Begins (loop.runNow id runId now) := by
  unfold ScheduleLoop.runNow
  split
  · exact Begins.refl loop
  · split
    · exact Begins.refl loop
    · split
      · exact Begins.refl loop
      · exact begins_run ..

theorem begins_replaceGoesOn (place : ℕ) : loop.Begins (loop.replaceGoesOn place) := by
  unfold ScheduleLoop.replaceGoesOn
  split
  · exact Begins.refl loop
  · split <;> exact Begins.refl loop

theorem begins_tickGoesOn (clock : ℤ) (timeZone : Option String) (newId : String) :
    loop.Begins (loop.tickGoesOn letters intl clock timeZone newId) := by
  unfold ScheduleLoop.tickGoesOn
  split
  · exact (begins_tickResume clock newId).tickLoop ..
  · exact begins_tickResume clock newId

theorem begins_resumeGoesOn (now : ℤ) (timeZone : Option String) :
    loop.Begins (loop.step letters intl lease (.resumeGoesOn now timeZone)) := by
  unfold ScheduleLoop.step
  dsimp only
  split
  · exact Begins.refl loop
  · have resumed : loop.Begins { loop with resuming := loop.resuming - 1 } := Begins.refl loop
    exact resumed.tick now timeZone

end Begins

end ScheduleLoop

namespace StopLog
open ScheduleLoop

section Sound

variable {log : StopLog} {letters : JsString.LowerCase} {intl : Intl} {lease : Bool}

structure RunSound (log : StopLog) (run : RunningRun) : Prop where
  early : run.phase = .resolving ∨ run.phase = .starting → run.number ∉ log.told
  cause : ∀ reason ∈ run.endReason, reason.IsStop → run.number ∈ log.asked ∨ run.number ∈ log.told
  paused : log.loop.paused = true → run.phase = .started → run.number ∈ log.told

structure Sound (log : StopLog) : Prop where
  known : log.loop.RunsKnown
  asked : ∀ number ∈ log.asked, number < log.loop.nextRun
  told : ∀ number ∈ log.told, number < log.loop.nextRun
  runs : ∀ run ∈ log.loop.runs, log.RunSound run

theorem sound_start (stored : List StoredSchedule) (paused : Bool) : (start stored paused).Sound where
  known := runsKnown_start stored paused
  asked := by simp [start]
  told := by simp [start]
  runs := by simp [start, ScheduleLoop.start, setAll]

theorem stopsReach_start (stored : List StoredSchedule) (paused : Bool) : (start stored paused).StopsReach where
  recorded := by simp [start]
  reached := by simp [start, ScheduleLoop.start, setAll]

variable {run : RunningRun}

theorem mem_withHandle {loop : ScheduleLoop} (known : loop.RunsKnown) (member : run ∈ loop.runs)
    (started : run.phase = .started) : run.number ∈ loop.withHandle := by
  refine mem_map.mpr ⟨run, mem_filter.mpr ⟨member, ?_⟩, rfl⟩
  have inMap := known.known run member
  simpa [started] using ⟨_, inMap⟩

theorem started_of_withHandle {loop : ScheduleLoop} (known : loop.RunsKnown)
    (member : run ∈ loop.runs) (inHandles : run.number ∈ loop.withHandle) : run.phase = .started := by
  obtain ⟨other, inFilter, same⟩ := mem_map.mp inHandles
  obtain ⟨otherMember, started⟩ := mem_filter.mp inFilter
  have one : other = run := inj_on_of_nodup_map known.numbers otherMember member same
  rw [← one]
  exact (by simpa using started : other.phase = .started ∧ _).1

theorem withHandle_below {loop : ScheduleLoop} (known : loop.RunsKnown) :
    ∀ number ∈ loop.withHandle, number < loop.nextRun := by
  intro number member
  obtain ⟨run, inFilter, rfl⟩ := mem_map.mp member
  exact known.below run (mem_filter.mp inFilter).1

theorem Sound.begins (sound : log.Sound) {after : StopLog} (begins : log.loop.Begins after.loop)
    (known : after.loop.RunsKnown) (asked : after.asked = log.asked) (told : after.told = log.told) :
    after.Sound := by
  obtain ⟨paused, kept | ⟨run, number, endReason, phase, runs, nextRun⟩⟩ := begins
  · obtain ⟨runs, nextRun⟩ := kept
    refine ⟨known, ?_, ?_, ?_⟩
    · rw [asked, nextRun]; exact sound.asked
    · rw [told, nextRun]; exact sound.told
    · intro run member
      rw [runs] at member
      have before := sound.runs run member
      exact ⟨by rw [told]; exact before.early, by rw [asked, told]; exact before.cause,
        by rw [told]; exact fun still => before.paused (paused still)⟩
  · refine ⟨known, ?_, ?_, ?_⟩
    · rw [asked, nextRun]; exact fun other member => Nat.lt_succ_of_lt (sound.asked other member)
    · rw [told, nextRun]; exact fun other member => Nat.lt_succ_of_lt (sound.told other member)
    · intro other member
      rw [runs] at member
      rcases mem_append.mp member with earlier | new
      · have before := sound.runs other earlier
        exact ⟨by rw [told]; exact before.early, by rw [asked, told]; exact before.cause,
          by rw [told]; exact fun still => before.paused (paused still)⟩
      · rw [mem_singleton.mp new]
        refine ⟨fun _ inTold => ?_, ?_, ?_⟩
        · rw [told, number] at inTold
          exact absurd (sound.told _ inTold) (lt_irrefl _)
        · simp [endReason]
        · simp [phase]

theorem StopsReach.begins (reach : log.StopsReach) {after : StopLog} (begins : log.loop.Begins after.loop)
    (asked : after.asked = log.asked) (told : after.told = log.told) (outcomes : after.outcomes = log.outcomes) :
    after.StopsReach := by
  refine ⟨by rw [outcomes, told]; exact reach.recorded, ?_⟩
  obtain ⟨_, kept | ⟨run, _, _, phase, runs, _⟩⟩ := begins
  · rw [kept.1, asked, told]; exact reach.reached
  · intro other member started inAsked
    rw [runs] at member
    rcases mem_append.mp member with earlier | new
    · rw [told]
      rw [asked] at inAsked
      exact reach.reached other earlier started inAsked
    · rw [mem_singleton.mp new, phase] at started
      cases started

variable {change : RunningRun → RunningRun}

theorem Sound.stops (sound : log.Sound) {after : StopLog} {more : List ℕ}
    (number : ∀ run, (change run).number = run.number) (phase : ∀ run, (change run).phase = run.phase)
    (runs : after.loop.runs = log.loop.runs.map change) (nextRun : after.loop.nextRun = log.loop.nextRun)
    (known : after.loop.RunsKnown) (asked : after.asked = log.asked ++ log.loop.runs.map (·.number))
    (told : after.told = log.told ++ more) (inHandles : ∀ number ∈ more, number ∈ log.loop.withHandle)
    (all : ∀ run ∈ log.loop.runs, run.phase = .started → run.number ∈ after.told) : after.Sound := by
  refine ⟨known, ?_, ?_, ?_⟩
  · rw [asked, nextRun]
    intro other member
    rcases mem_append.mp member with earlier | new
    · exact sound.asked other earlier
    · obtain ⟨run, inRuns, rfl⟩ := mem_map.mp new
      exact sound.known.below run inRuns
  · rw [told, nextRun]
    intro other member
    rcases mem_append.mp member with earlier | new
    · exact sound.told other earlier
    · exact withHandle_below sound.known other (inHandles other new)
  · rw [runs]
    intro run member
    obtain ⟨before, inRuns, rfl⟩ := mem_map.mp member
    refine ⟨?_, ?_, ?_⟩ <;> rw [number]
    · rw [phase, told]
      intro early inTold
      rcases mem_append.mp inTold with earlier | new
      · exact (sound.runs before inRuns).early early earlier
      · have started := started_of_withHandle sound.known inRuns (inHandles _ new)
        rcases early with resolving | starting
        · rw [resolving] at started; cases started
        · rw [starting] at started; cases started
    · intro reason _ _
      rw [asked]
      exact .inl (mem_append_right _ (mem_map_of_mem inRuns))
    · rw [phase]
      exact fun _ => all before inRuns

theorem StopsReach.stops (reach : log.StopsReach) {after : StopLog} {more : List ℕ}
    (number : ∀ run, (change run).number = run.number) (phase : ∀ run, (change run).phase = run.phase)
    (runs : after.loop.runs = log.loop.runs.map change) (told : after.told = log.told ++ more)
    (outcomes : after.outcomes = log.outcomes)
    (all : ∀ run ∈ log.loop.runs, run.phase = .started → run.number ∈ after.told) : after.StopsReach := by
  refine ⟨?_, ?_⟩
  · rw [outcomes, told]
    exact fun outcome member reason isReason isStop =>
      mem_append_left _ (reach.recorded outcome member reason isReason isStop)
  · rw [runs]
    intro run member started _
    obtain ⟨before, inRuns, rfl⟩ := mem_map.mp member
    rw [number]
    exact all before inRuns (by rw [← phase]; exact started)

variable {number : ℕ}

variable {report : RunningRun → Option FleetScheduleRunReport}

variable {phases : List RunPhase}

theorem Sound.goesOn (sound : log.Sound) {after : StopLog}
    (loop : after.loop = log.loop.runGoesOn number phases change report) (known : after.loop.RunsKnown)
    (asked : after.asked = log.asked) (told : after.told = log.told)
    (each : ∀ run ∈ log.loop.runs, run.phase ∈ phases → log.RunSound (change run)) : after.Sound := by
  refine ⟨known, ?_, ?_, ?_⟩
  · rw [asked, loop]; exact sound.asked
  · rw [told, loop]; exact sound.told
  · intro run member
    rw [loop] at member
    obtain ⟨before, inRuns, rfl⟩ := mem_map.mp member
    have soundRun : log.RunSound (if before.number = number ∧ before.phase ∈ phases then change before else before) := by
      split
      case isTrue goes => exact each before inRuns goes.2
      case isFalse => exact sound.runs before inRuns
    exact ⟨by rw [told]; exact soundRun.early, by rw [asked, told]; exact soundRun.cause,
      by rw [told, loop]; exact soundRun.paused⟩

theorem StopsReach.goesOn (reach : log.StopsReach) {after : StopLog}
    (loop : after.loop = log.loop.runGoesOn number phases change report) (asked : after.asked = log.asked)
    (told : after.told = log.told) (sameNumber : ∀ run, (change run).number = run.number)
    (phase : ∀ run, run.phase ∈ phases → (change run).phase = .started → run.phase = .started)
    (recorded : ∀ outcome ∈ after.outcomes, ∀ reason ∈ outcome.2, reason.IsStop → outcome.1 ∈ log.told) :
    after.StopsReach := by
  refine ⟨by rw [told]; exact recorded, ?_⟩
  intro run member started inAsked
  rw [loop] at member
  obtain ⟨before, inRuns, rfl⟩ := mem_map.mp member
  rw [asked] at inAsked
  rw [told]
  by_cases goes : before.number = number ∧ before.phase ∈ phases
  · simp only [if_pos goes] at started inAsked ⊢
    rw [sameNumber] at inAsked ⊢
    exact reach.reached before inRuns (phase before goes.2 started) inAsked
  · simp only [if_neg goes] at started inAsked ⊢
    exact reach.reached before inRuns started inAsked

theorem recorded_outcomesOf (sound : log.Sound) (reach : log.StopsReach) {exitCode : Option ℤ}
    {now : ℤ} : ∀ outcome ∈ log.loop.outcomesOf (.runExits number exitCode now), ∀ reason ∈ outcome.2,
      reason.IsStop → outcome.1 ∈ log.told := by
  intro outcome member reason isReason isStop
  obtain ⟨run, inFilter, rfl⟩ := mem_map.mp member
  obtain ⟨inRuns, goes⟩ := mem_filter.mp inFilter
  have started : run.phase = .started := by
    have both : run.number = number ∧ run.phase ∈ [RunPhase.started] := by simpa using goes
    exact mem_singleton.mp both.2
  have cause : reason ∈ run.endReason := by
    dsimp only [fleetCommandRunEndFor] at isReason
    split at isReason
    · cases isReason
    · rename_i given _ isGiven
      rw [isGiven]
      exact isReason
    · split at isReason <;> cases isReason
  rcases (sound.runs run inRuns).cause reason cause isStop with asked | told
  · exact reach.reached run inRuns started asked
  · exact told

theorem runSound_timeout (before : log.RunSound run) : log.RunSound (run.stop .timeout) := by
  refine ⟨before.early, ?_, before.paused⟩
  intro reason isReason isStop
  cases given : run.endReason with
  | none =>
    have same : FleetCommandNodeEndReason.timeout = reason := by simpa [RunningRun.stop, given] using isReason
    rw [← same] at isStop
    rcases isStop with killSwitch | drain
    · cases killSwitch
    · cases drain
  | some first =>
    have same : first = reason := by simpa [RunningRun.stop, given] using isReason
    exact before.cause reason (by rw [given, same]; rfl) isStop

theorem runSound_ended (before : log.RunSound run) :
    log.RunSound { run with phase := .ended } := by
  refine ⟨?_, before.cause, ?_⟩
  · rintro (resolving | starting)
    · cases resolving
    · cases starting
  · intro _ started
    cases started

def launched (log : StopLog) (run : RunningRun) : RunningRun :=
  if log.loop.paused then { run with phase := .started }.stop .killSwitch else { run with phase := .started }

theorem launched_number (run : RunningRun) : (log.launched run).number = run.number := by
  unfold launched
  split <;> rfl

theorem launched_phase (run : RunningRun) : (log.launched run).phase = .started := by
  unfold launched
  split <;> rfl

theorem runs_runStarts (number : ℕ) : (log.loop.step letters intl lease (.runStarts number)).runs =
    log.loop.runs.map fun run => if run.number = number ∧ run.phase ∈ [.starting] then log.launched run else run :=
  rfl

theorem mem_tells_runStarts (known : log.loop.RunsKnown)
    (inRuns : run ∈ log.loop.runs) (told : run.number ∈ log.loop.tells (.runStarts number)) :
    log.loop.paused = true ∧ run.number = number ∧ run.phase ∈ [RunPhase.starting] := by
  unfold tells at told
  dsimp only at told
  split at told
  case isTrue paused =>
    obtain ⟨other, inFilter, same⟩ := mem_map.mp told
    obtain ⟨otherMember, goes⟩ := mem_filter.mp inFilter
    have one : other = run := inj_on_of_nodup_map known.numbers otherMember inRuns same
    rw [← one]
    exact ⟨paused, of_decide_eq_true goes⟩
  case isFalse => cases told

theorem told_launched (paused : log.loop.paused = true)
    (inRuns : run ∈ log.loop.runs) (goes : run.number = number ∧ run.phase ∈ [RunPhase.starting]) :
    run.number ∈ log.loop.tells (.runStarts number) := by
  unfold tells
  dsimp only
  rw [if_pos paused]
  exact mem_map_of_mem (mem_filter.mpr ⟨inRuns, decide_eq_true goes⟩)

theorem Sound.runStarts (sound : log.Sound) (number : ℕ) :
    (log.step letters intl lease (.runStarts number)).Sound := by
  have known : (log.loop.step letters intl lease (.runStarts number)).RunsKnown := sound.known.step _
  refine ⟨known, ?_, ?_, ?_⟩
  · intro other member
    rcases mem_append.mp member with earlier | new
    · exact sound.asked other earlier
    · cases new
  · intro other member
    rcases mem_append.mp member with earlier | new
    · exact sound.told other earlier
    · unfold tells at new
      dsimp only at new
      split at new
      · obtain ⟨run, inFilter, rfl⟩ := mem_map.mp new
        exact sound.known.below run (mem_filter.mp inFilter).1
      · cases new
  · intro run member
    change run ∈ (log.loop.step letters intl lease (.runStarts number)).runs at member
    rw [runs_runStarts] at member
    obtain ⟨before, inRuns, rfl⟩ := mem_map.mp member
    by_cases goes : before.number = number ∧ before.phase ∈ [RunPhase.starting]
    · rw [if_pos goes]
      refine ⟨?_, ?_, ?_⟩
      · rw [launched_phase]
        rintro (resolving | starting)
        · cases resolving
        · cases starting
      · rw [launched_number]
        intro reason isReason isStop
        by_cases paused : log.loop.paused = true
        · exact .inr (mem_append_right _ (told_launched paused inRuns goes))
        · have given : reason ∈ before.endReason := by simpa [launched, paused] using isReason
          exact ((sound.runs before inRuns).cause reason given isStop).imp (mem_append_left _)
            (mem_append_left _)
      · rw [launched_number]
        exact fun paused _ => mem_append_right _ (told_launched paused inRuns goes)
    · rw [if_neg goes]
      have soundRun := sound.runs before inRuns
      refine ⟨?_, ?_, ?_⟩
      · intro early inTold
        rcases mem_append.mp inTold with earlier | new
        · exact soundRun.early early earlier
        · exact goes (mem_tells_runStarts sound.known inRuns new).2
      · exact fun reason isReason isStop => (soundRun.cause reason isReason isStop).imp (mem_append_left _)
          (mem_append_left _)
      · exact fun paused started => mem_append_left _ (soundRun.paused paused started)

theorem stopsReach_runStarts_iff (sound : log.Sound) (reach : log.StopsReach) (number : ℕ) :
    (log.step letters intl lease (.runStarts number)).StopsReach ↔ log.LaunchUnasked (.runStarts number) := by
  constructor
  · intro after run inRuns isNumber starting asked
    by_contra notPaused
    have goes : run.number = number ∧ run.phase ∈ [RunPhase.starting] := ⟨isNumber, by simp [starting]⟩
    have inAfter : log.launched run ∈ (log.loop.step letters intl lease (.runStarts number)).runs := by
      rw [runs_runStarts]
      exact mem_map.mpr ⟨run, inRuns, by rw [if_pos goes]⟩
    have told := after.reached _ inAfter (launched_phase run)
      (by rw [launched_number]; exact mem_append_left _ asked)
    rw [launched_number] at told
    rcases mem_append.mp told with earlier | new
    · exact (sound.runs run inRuns).early (.inr starting) earlier
    · exact notPaused (mem_tells_runStarts sound.known inRuns new).1
  · intro unasked
    refine ⟨?_, ?_⟩
    · intro outcome member reason isReason isStop
      rcases mem_append.mp member with earlier | new
      · exact mem_append_left _ (reach.recorded outcome earlier reason isReason isStop)
      · cases new
    · intro run member started asked
      change run ∈ (log.loop.step letters intl lease (.runStarts number)).runs at member
      rw [runs_runStarts] at member
      obtain ⟨before, inRuns, rfl⟩ := mem_map.mp member
      have inAsked : (if before.number = number ∧ before.phase ∈ [RunPhase.starting] then log.launched before
          else before).number ∈ log.asked := by
        rcases mem_append.mp asked with earlier | new
        · exact earlier
        · cases new
      by_cases goes : before.number = number ∧ before.phase ∈ [RunPhase.starting]
      · rw [if_pos goes, launched_number] at inAsked
        rw [if_pos goes, launched_number]
        have paused := unasked before inRuns goes.1 (mem_singleton.mp goes.2) inAsked
        exact mem_append_right _ (told_launched paused inRuns goes)
      · rw [if_neg goes] at started inAsked ⊢
        exact mem_append_left _ (reach.reached before inRuns started inAsked)

theorem quiet_step (sound : log.Sound) (reach : log.StopsReach) {event : ScheduleEvent}
    (begins : log.loop.Begins (log.loop.step letters intl lease event)) (asks : log.loop.asks event = [])
    (tells : log.loop.tells event = []) (outcomes : log.loop.outcomesOf event = []) :
    (log.step letters intl lease event).Sound ∧ (log.step letters intl lease event).StopsReach := by
  have known : (log.loop.step letters intl lease event).RunsKnown := sound.known.step event
  have asked : (log.step letters intl lease event).asked = log.asked := by simp [step, asks]
  have told : (log.step letters intl lease event).told = log.told := by simp [step, tells]
  have same : (log.step letters intl lease event).outcomes = log.outcomes := by simp [step, outcomes]
  exact ⟨sound.begins begins known asked told, reach.begins begins asked told same⟩

theorem goesOn_step (sound : log.Sound) (reach : log.StopsReach) {event : ScheduleEvent}
    (loop : log.loop.step letters intl lease event = log.loop.runGoesOn number phases change report)
    (asks : log.loop.asks event = []) (tells : log.loop.tells event = [])
    (sameNumber : ∀ run, (change run).number = run.number)
    (phase : ∀ run, run.phase ∈ phases → (change run).phase = .started → run.phase = .started)
    (each : ∀ run, run.phase ∈ phases → log.RunSound run → log.RunSound (change run))
    (recorded : ∀ outcome ∈ log.loop.outcomesOf event, ∀ reason ∈ outcome.2, reason.IsStop →
      outcome.1 ∈ log.told) :
    (log.step letters intl lease event).Sound ∧ (log.step letters intl lease event).StopsReach := by
  have known : (log.loop.step letters intl lease event).RunsKnown := sound.known.step event
  have asked : (log.step letters intl lease event).asked = log.asked := by simp [step, asks]
  have told : (log.step letters intl lease event).told = log.told := by simp [step, tells]
  refine ⟨sound.goesOn loop known asked told fun run inRuns inPhases => each run inPhases (sound.runs run inRuns),
    reach.goesOn loop asked told sameNumber phase ?_⟩
  intro outcome member
  rcases mem_append.mp member with earlier | new
  · exact reach.recorded outcome earlier
  · exact recorded outcome new

theorem pause_step (sound : log.Sound) (reach : log.StopsReach) :
    (log.step letters intl lease .pause).Sound ∧ (log.step letters intl lease .pause).StopsReach := by
  have known : (log.loop.step letters intl lease .pause).RunsKnown := sound.known.step .pause
  by_cases paused : log.loop.paused = true
  · have loop : log.loop.step letters intl lease .pause = log.loop := by simp [ScheduleLoop.step, paused]
    have runs : (log.step letters intl lease .pause).loop.runs = log.loop.runs.map id := by
      rw [map_id, step, loop]
    have told : (log.step letters intl lease .pause).told = log.told ++ [] := by simp [step, tells, paused]
    have all : ∀ run ∈ log.loop.runs, run.phase = .started →
        run.number ∈ (log.step letters intl lease .pause).told := by
      intro run inRuns started
      rw [told, append_nil]
      exact (sound.runs run inRuns).paused paused started
    have same : (log.step letters intl lease .pause).outcomes = log.outcomes := by simp [step, outcomesOf]
    refine ⟨sound.stops (fun _ => rfl) (fun _ => rfl) runs (by rw [step, loop]) known rfl told (by simp) all,
      reach.stops (fun _ => rfl) (fun _ => rfl) runs told same all⟩
  · have loop : log.loop.step letters intl lease .pause = { log.loop.stopAll .killSwitch with paused := true } := by
      simp [ScheduleLoop.step, paused]
    have told : (log.step letters intl lease .pause).told = log.told ++ log.loop.withHandle := by
      simp [step, tells, paused]
    have all : ∀ run ∈ log.loop.runs, run.phase = .started →
        run.number ∈ (log.step letters intl lease .pause).told := by
      intro run inRuns started
      rw [told]
      exact mem_append_right _ (mem_withHandle sound.known inRuns started)
    have same : (log.step letters intl lease .pause).outcomes = log.outcomes := by simp [step, outcomesOf]
    have number : ∀ run : RunningRun, (if log.loop.running.any (·.2 = run.number) then run.stop .killSwitch
        else run).number = run.number := by
      intro run
      split <;> rfl
    have phase : ∀ run : RunningRun, (if log.loop.running.any (·.2 = run.number) then run.stop .killSwitch
        else run).phase = run.phase := by
      intro run
      split <;> rfl
    exact ⟨sound.stops number phase (by rw [step, loop]; rfl) (by rw [step, loop]; rfl) known rfl told
      (fun _ member => member) all, reach.stops number phase (by rw [step, loop]; rfl) told same all⟩

theorem drain_step (sound : log.Sound) (reach : log.StopsReach) :
    (log.step letters intl lease .drain).Sound ∧ (log.step letters intl lease .drain).StopsReach := by
  have known : (log.loop.step letters intl lease .drain).RunsKnown := sound.known.step .drain
  have all : ∀ run ∈ log.loop.runs, run.phase = .started →
      run.number ∈ (log.step letters intl lease .drain).told := fun run inRuns started =>
    mem_append_right _ (mem_withHandle sound.known inRuns started)
  have same : (log.step letters intl lease .drain).outcomes = log.outcomes := by simp [step, outcomesOf]
  have number : ∀ run : RunningRun, (if log.loop.running.any (·.2 = run.number) then run.stop .drain
      else run).number = run.number := by
    intro run
    split <;> rfl
  have phase : ∀ run : RunningRun, (if log.loop.running.any (·.2 = run.number) then run.stop .drain
      else run).phase = run.phase := by
    intro run
    split <;> rfl
  exact ⟨sound.stops number phase rfl rfl known rfl rfl (fun _ member => member) all,
    reach.stops number phase rfl rfl same all⟩

theorem runReturns_step (sound : log.Sound) (reach : log.StopsReach) (number : ℕ) :
    (log.step letters intl lease (.runReturns number)).Sound ∧
      (log.step letters intl lease (.runReturns number)).StopsReach := by
  have known : (log.loop.step letters intl lease (.runReturns number)).RunsKnown := sound.known.step _
  have asked : (log.step letters intl lease (.runReturns number)).asked = log.asked := by simp [step, asks]
  have told : (log.step letters intl lease (.runReturns number)).told = log.told := by simp [step, tells]
  have outcomes : (log.step letters intl lease (.runReturns number)).outcomes = log.outcomes := by
    simp [step, outcomesOf]
  refine ⟨⟨known, by rw [asked]; exact sound.asked, by rw [told]; exact sound.told, ?_⟩,
    by rw [outcomes, told]; exact reach.recorded, ?_⟩
  · intro run member
    have before := sound.runs run (mem_filter.mp member).1
    exact ⟨by rw [told]; exact before.early, by rw [asked, told]; exact before.cause,
      by rw [told]; exact before.paused⟩
  · intro run member
    rw [asked, told]
    exact reach.reached run (mem_filter.mp member).1

theorem stopsReach_step_iff (sound : log.Sound) (reach : log.StopsReach) (event : ScheduleEvent) :
    (log.step letters intl lease event).Sound ∧
      ((log.step letters intl lease event).StopsReach ↔ log.LaunchUnasked event) := by
  have always : (log.step letters intl lease event).Sound ∧ (log.step letters intl lease event).StopsReach →
      log.LaunchUnasked event → (log.step letters intl lease event).Sound ∧
        ((log.step letters intl lease event).StopsReach ↔ log.LaunchUnasked event) :=
    fun both unasked => ⟨both.1, iff_of_true both.2 unasked⟩
  cases event with
  | runStarts number => exact ⟨sound.runStarts number, stopsReach_runStarts_iff sound reach number⟩
  | pause => exact always (pause_step sound reach) trivial
  | drain => exact always (drain_step sound reach) trivial
  | runReturns number => exact always (runReturns_step sound reach number) trivial
  | runFindsFolder number =>
    refine always (goesOn_step sound reach rfl rfl rfl (fun _ => rfl) ?_ ?_ ?_) trivial
    · intro run _ started
      cases started
    · intro run resolving before
      refine ⟨fun _ => before.early (.inl (mem_singleton.mp resolving)), before.cause, ?_⟩
      intro _ started
      cases started
    · intro outcome member
      cases member
  | runTimesOut number =>
    refine always (goesOn_step sound reach rfl rfl rfl (fun _ => rfl) (fun _ _ started => started)
      (fun _ _ before => runSound_timeout before) ?_) trivial
    intro outcome member
    cases member
  | runExits number exitCode now =>
    refine always (goesOn_step sound reach rfl rfl rfl (fun _ => rfl) ?_ (fun _ _ before => runSound_ended before)
      (recorded_outcomesOf sound reach)) trivial
    intro run _ started
    cases started
  | runFails number now =>
    refine always (goesOn_step sound reach rfl rfl rfl (fun _ => rfl) ?_ (fun _ _ before => runSound_ended before)
      ?_) trivial
    · intro run _ started
      cases started
    · intro outcome member
      cases member
  | tick now timeZone => exact always (quiet_step sound reach ((Begins.refl _).tick now timeZone) rfl rfl rfl) trivial
  | tickGoesOn now timeZone newId =>
    exact always (quiet_step sound reach (begins_tickGoesOn now timeZone newId) rfl rfl rfl) trivial
  | replace definitions now => exact always (quiet_step sound reach (Begins.refl _) rfl rfl rfl) trivial
  | replaceGoesOn place =>
    exact always (quiet_step sound reach (begins_replaceGoesOn place) rfl rfl rfl) trivial
  | replaceFails place => exact always (quiet_step sound reach (Begins.refl _) rfl rfl rfl) trivial
  | runNow id runId now => exact always (quiet_step sound reach (begins_runNow id runId now) rfl rfl rfl) trivial
  | resume =>
    have begins : log.loop.Begins (log.loop.step letters intl lease .resume) := by
      unfold ScheduleLoop.step
      dsimp only
      split
      · exact ⟨fun still => absurd still (by simp), .inl ⟨rfl, rfl⟩⟩
      · exact Begins.refl _
    exact always (quiet_step sound reach begins rfl rfl rfl) trivial
  | resumeGoesOn now timeZone =>
    exact always (quiet_step sound reach (begins_resumeGoesOn now timeZone) rfl rfl rfl) trivial
  | dispose => exact always (quiet_step sound reach (Begins.refl _) rfl rfl rfl) trivial

/-- Every stop reaches every run, at every point of a run of the loop, exactly if no launch returns its handle
after a drain or a lifted kill switch. -/
theorem stops_reach_iff (letters : JsString.LowerCase) (intl : Intl) (lease : Bool) (stored : List StoredSchedule)
    (paused : Bool) (events : List ScheduleEvent) :
    (∀ first, first <+: events → (Lib.run (step letters intl lease) (start stored paused) first).StopsReach) ↔
      Along (step letters intl lease) LaunchUnasked (start stored paused) events := by
  have each : ∀ (log : StopLog) (event : ScheduleEvent), log.Sound → log.StopsReach →
      (log.step letters intl lease event).Sound ∧
        ((log.step letters intl lease event).StopsReach ↔ log.LaunchUnasked event) :=
    fun log event sound reach => stopsReach_step_iff sound reach event
  exact initial_iff_along_of each (sound_start stored paused) (stopsReach_start stored paused)

end Sound

def drainedLaunch : List ScheduleEvent := [
  .runNow "backup" "first" 1000, .runFindsFolder 0, .drain, .runStarts 0, .runExits 0 (some 0) 2000]

/-- The run is put down as drained, and was told nothing. -/
theorem drain_lost_in_launch :
    (Lib.run (step .ascii .utcOnly true) (start [.arm everyMinute 0] false) drainedLaunch).outcomes =
        [(0, some .drain)] ∧
      (Lib.run (step .ascii .utcOnly true) (start [.arm everyMinute 0] false) drainedLaunch).told = [] ∧
      ¬ (Lib.run (step .ascii .utcOnly true) (start [.arm everyMinute 0] false) drainedLaunch).StopsReach := by
  have outcomes : (Lib.run (step .ascii .utcOnly true) (start [.arm everyMinute 0] false) drainedLaunch).outcomes =
      [(0, some .drain)] := by decide
  have told : (Lib.run (step .ascii .utcOnly true) (start [.arm everyMinute 0] false) drainedLaunch).told = [] := by
    decide
  refine ⟨outcomes, told, fun reach => ?_⟩
  have recorded := reach.recorded (0, some .drain) (by rw [outcomes]; exact mem_singleton_self _) .drain rfl
    (.inr rfl)
  rw [told] at recorded
  cases recorded

end StopLog

end EverWorks.Schedule
