import EverWorks.Schedule.Fires

/-!
Both searches go through the minutes in the clock's order. Where the clock is set forward or back they find every fire
in its order exactly when the zone leaves the fires unmoved.
-/

namespace EverWorks.Schedule
open Lib Lib.Calendar List

def fireSet (fields : FleetCronFields) (zone : TimeZone) : Set ℤ :=
  {ms | ∃ day, ∃ hour ∈ fields.hours, ∃ minute ∈ fields.minutes,
    dayMatches fields (dateOf day).month (dateOf day).day (weekdayOf day) = true ∧
      ms = fleetZonedInstant (dateOf day).year (dateOf day).month (dateOf day).day hour minute zone}

section Order

variable (letters : JsString.LowerCase) (intl : Intl) (cadence : FleetScheduleCadence)
  (timeZone : Option String)

def nthFire (afterMs : ℤ) : ℕ → Option ℤ
  | 0 => nextFleetScheduleFire letters intl cadence timeZone afterMs
  | n + 1 => (nthFire afterMs n).bind (nextFleetScheduleFire letters intl cadence timeZone)

def FleetScheduleMissed.Reports (missed : FleetScheduleMissed) (fire : ℤ) : Prop :=
  missed.run = some fire ∨ missed.skipped = some fire

/-- The searches go through a set of instants in their order, missing and repeating none. -/
structure FiresInOrder (fires : Set ℤ) : Prop where
  next : ∀ afterMs, ∃ at_, nextFleetScheduleFire letters intl cadence timeZone afterMs = some at_ ∧
    IsLeast {fire | fire ∈ fires ∧ afterMs < fire} at_
  previous : ∀ atMs, ∃ at_, previousFleetScheduleFire letters intl cadence timeZone atMs = some at_ ∧
    IsGreatest {fire | fire ∈ fires ∧ fire ≤ atMs} at_
  enumerates : ∀ afterMs, ∀ fire ∈ fires, afterMs < fire →
    ∃ n, nthFire letters intl cadence timeZone afterMs n = some fire
  catchUp : ∀ sinceMs nowMs graceSec latest,
    (fleetScheduleCatchUp letters intl cadence timeZone sinceMs nowMs graceSec).Reports latest ↔
      IsGreatest {fire | fire ∈ fires ∧ sinceMs < fire ∧ fire ≤ nowMs} latest

variable {letters intl cadence timeZone} {fields : FleetCronFields}

theorem mem_fireSet (wellFormed : fields.WellFormed) {zone : TimeZone} {ms : ℤ} :
    ms ∈ fireSet fields zone ↔ ∃ minute ∈ zone.clock.fires fields.shown, ms = minute * 60000 := by
  constructor
  · rintro ⟨day, hour, inHours, minute, inMinutes, falls, rfl⟩
    have inDay := wellFormed.hours.high hour inHours
    have inHour := wellFormed.minutes.high minute inMinutes
    exact ⟨_, ⟨_, (mem_shown inDay inHour).mpr ⟨falls, inHours, inMinutes⟩, rfl⟩,
      fleetZonedInstant_eq inDay inHour⟩
  · rintro ⟨_, ⟨shown, held, rfl⟩, rfl⟩
    obtain ⟨hour, inHours, minute, inMinutes, falls, inDay, inHour, shownEq⟩ := shown_eq held
    refine ⟨shown / 1440, hour, inHours, minute, inMinutes, falls, ?_⟩
    rw [fleetZonedInstant_eq inDay inHour, ← shownEq]

theorem nthFire_succ {afterMs at_ : ℤ}
    (next : nextFleetScheduleFire letters intl cadence timeZone afterMs = some at_) (n : ℕ) :
    nthFire letters intl cadence timeZone afterMs (n + 1) = nthFire letters intl cadence timeZone at_ n := by
  induction n with
  | zero => simp [nthFire, next]
  | succ n ih => rw [nthFire, ih, nthFire]

theorem firesInOrder_of {fires : Set ℤ}
    (next : ∀ afterMs, ∃ at_, nextFleetScheduleFire letters intl cadence timeZone afterMs = some at_ ∧
      IsLeast {fire | fire ∈ fires ∧ afterMs < fire} at_)
    (previous : ∀ atMs, ∃ at_, previousFleetScheduleFire letters intl cadence timeZone atMs = some at_ ∧
      IsGreatest {fire | fire ∈ fires ∧ fire ≤ atMs} at_) :
    FiresInOrder letters intl cadence timeZone fires where
  next := next
  previous := previous
  enumerates afterMs fire held later := by
    induction distance : (fire - afterMs).toNat using Nat.strong_induction_on generalizing afterMs with
    | _ distance ih =>
      obtain ⟨at_, found, ⟨-, after⟩, least⟩ := next afterMs
      rcases Int.lt_or_eq_of_le (least ⟨held, later⟩) with lt | rfl
      · obtain ⟨n, nth⟩ := ih (fire - at_).toNat (by omega) at_ lt rfl
        exact ⟨n + 1, (nthFire_succ found n).trans nth⟩
      · exact ⟨0, found⟩
  catchUp sinceMs nowMs graceSec latest := by
    obtain ⟨at_, found, ⟨held, reached⟩, greatest⟩ := previous nowMs
    rw [fleetScheduleCatchUp, found, FleetScheduleMissed.Reports]
    dsimp only
    have only : IsGreatest {fire | fire ∈ fires ∧ sinceMs < fire ∧ fire ≤ nowMs} latest ↔
        sinceMs < at_ ∧ at_ = latest := by
      constructor
      · rintro ⟨⟨inFires, after, until_⟩, last⟩
        have le := greatest ⟨inFires, until_⟩
        exact ⟨by omega, le_antisymm (last ⟨held, by omega, reached⟩) le⟩
      · rintro ⟨after, rfl⟩
        exact ⟨⟨held, after, reached⟩, fun other ⟨inFires, _, until_⟩ => greatest ⟨inFires, until_⟩⟩
    rw [only]
    split_ifs with handled within
    · simp
      omega
    · simp
      omega
    · simp
      omega

end Order

/-- Central European winter: an hour ahead of UTC until 01:00 UTC on the first day, then none. -/
def setBack : TimeZone where
  offset ms := if ms < 3600000 then 60 else 0
  bounded _ := by split <;> omega
  small _ := by split <;> split <;> omega
  spaced lt := by split_ifs <;> omega

def setBackZones : Intl where
  zone name := if name = "UTC" then some (.constant 0 zero_bounded) else some setBack
  utc := rfl

def everyHalfHour : JsValue := .object [("kind", .string "interval"), ("expr", .string "30")]

def halfHourly : FleetScheduleCadence := { kind := .interval, expr := some "30" }

def halfHourlyFields : FleetCronFields where
  minutes := [0, 30]
  hours := range 24
  days := range' 1 31
  months := range' 1 12
  weekdays := range 7
  dayRestricted := false
  weekdayRestricted := false

end EverWorks.Schedule
