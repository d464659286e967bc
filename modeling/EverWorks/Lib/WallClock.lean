import Mathlib.Order.Bounds.Basic
import Mathlib.Data.Int.Basic
import Mathlib.Tactic.Common

/-!
# Clocks that are set forward and back

A clock shows UTC plus an offset, in minutes, which now and then takes a step. A search that goes through the minutes
in the clock's order finds instants in the order of time exactly when no step moves one past another: `unmoved_iff`.
-/

namespace EverWorks.Lib

/-- Between two points no farther apart than its changes, a function takes at most one step. -/
theorem one_step_between {f : ℤ → ℤ} {gap : ℤ}
    (spaced : ∀ {i j}, i < j → f (i - 1) ≠ f i → f (j - 1) ≠ f j → i + gap ≤ j)
    {a b : ℤ} (le : a ≤ b) (near : b ≤ a + gap) :
    (∀ k, a ≤ k → k ≤ b → f k = f a) ∨
      ∃ j, a < j ∧ j ≤ b ∧ f (j - 1) ≠ f j ∧ (∀ k, a ≤ k → k < j → f k = f a) ∧
        ∀ k, j ≤ k → k ≤ b → f k = f b := by
  induction b, le using Int.leInduction with
  | base =>
    left
    intro k low high
    rw [Int.le_antisymm high low]
  | succ b le ih =>
    by_cases same : f b = f (b + 1)
    · rcases ih (by omega) with flat | ⟨j, low, high, change, before, after⟩
      · left
        intro k low high
        rcases Int.le_iff_lt_or_eq.mp high with lt | rfl
        · exact flat k low (by omega)
        · rw [← same]
          exact flat b le le_rfl
      · right
        refine ⟨j, low, by omega, change, before, fun k from_ until_ => ?_⟩
        rcases Int.le_iff_lt_or_eq.mp until_ with lt | rfl
        · rw [← same]
          exact after k from_ (by omega)
        · rfl
    · have change : f (b + 1 - 1) ≠ f (b + 1) := by rwa [Int.add_sub_cancel]
      rcases ih (by omega) with flat | ⟨j, low, high, earlier, -⟩
      · right
        refine ⟨b + 1, by omega, le_rfl, change, fun k low high => flat k low (by omega), ?_⟩
        intro k low high
        rw [Int.le_antisymm high low]
      · have : j + gap ≤ b + 1 := spaced (by omega) earlier change
        omega

/-- A clock by its offset from UTC: minutes in, minutes out. It changes by at most three hours and at most
once in two days. -/
structure Clock where
  offset : ℤ → ℤ
  bounded : ∀ minute, -1440 ≤ offset minute ∧ offset minute ≤ 1440
  small : ∀ minute, offset minute ≤ offset (minute - 1) + 180 ∧ offset (minute - 1) ≤ offset minute + 180
  spaced : ∀ {i j}, i < j → offset (i - 1) ≠ offset i → offset (j - 1) ≠ offset j → i + 2880 ≤ j

namespace Clock

def wall (clock : Clock) (minute : ℤ) : ℤ := minute + clock.offset minute

/-- When the clock shows a minute: first if it does so twice, and as far past the jump as the minute lies in
it if the clock jumps over it. -/
def instant (clock : Clock) (shown : ℤ) : ℤ :=
  if clock.wall (shown - clock.offset (shown - 1440)) = shown then shown - clock.offset (shown - 1440)
  else if clock.wall (shown - clock.offset (shown + 1440)) = shown then shown - clock.offset (shown + 1440)
  else shown - min (clock.offset (shown - 1440)) (clock.offset (shown + 1440))

variable {clock : Clock}

theorem offsets (clock : Clock) {a b : ℤ} (le : a ≤ b) (near : b ≤ a + 2880) :
    (∀ k, a ≤ k → k ≤ b → clock.offset k = clock.offset a) ∨
      ∃ j, a < j ∧ j ≤ b ∧ clock.offset (j - 1) ≠ clock.offset j ∧
        (∀ k, a ≤ k → k < j → clock.offset k = clock.offset a) ∧
        ∀ k, j ≤ k → k ≤ b → clock.offset k = clock.offset b :=
  one_step_between clock.spaced le near

variable {i j : ℤ}

theorem wall_lt_near (far : i + 180 < j) (near : j ≤ i + 2880) :
    clock.wall i < clock.wall j := by
  unfold wall
  rcases clock.offsets (by omega) near with flat | ⟨k, low, high, -, before, after⟩
  · have := flat j (by omega) le_rfl
    omega
  · have := clock.small k
    have := before (k - 1) (by omega) (by omega)
    have := after k le_rfl high
    omega

theorem wall_lt (far : i + 180 < j) : clock.wall i < clock.wall j := by
  induction n : (j - i).toNat using Nat.strong_induction_on generalizing i with
  | _ n ih =>
    by_cases near : j ≤ i + 2880
    · exact wall_lt_near far near
    · exact (wall_lt_near (by omega) (by omega : i + 1440 ≤ i + 2880)).trans
        (ih (j - (i + 1440)).toNat (by omega) (by omega) rfl)

theorem set_back (lt : i < j) (le : clock.wall j ≤ clock.wall i) :
    ∃ k, i < k ∧ k ≤ j ∧ clock.offset k < clock.offset (k - 1) ∧ clock.offset i = clock.offset (k - 1) ∧
      clock.offset j = clock.offset k ∧ j ≤ i + 180 := by
  have near : ¬ i + 180 < j := by
    intro far
    have : clock.wall i < clock.wall j := wall_lt far
    omega
  unfold wall at le
  rcases clock.offsets (by omega) (by omega : j ≤ i + 2880) with flat | ⟨k, low, high, -, before, after⟩
  · have := flat j (by omega) le_rfl
    omega
  · have first := before (k - 1) (by omega) (by omega)
    have last := after k le_rfl high
    exact ⟨k, low, high, by omega, first.symm, last.symm, by omega⟩

theorem instant_shown {shown minute : ℤ} (shows : clock.wall minute = shown) :
    clock.wall (clock.instant shown) = shown ∧ clock.instant shown ≤ minute := by
  have bounds := clock.bounded minute
  have equation : minute = shown - clock.offset minute := by
    unfold wall at shows
    omega
  rcases clock.offsets (by omega : shown - 1440 ≤ shown + 1440) (by omega) with
    flat | ⟨k, low, high, -, before, after⟩
  · have first := flat minute (by omega) (by omega)
    rw [first] at equation
    unfold instant
    rw [← equation, if_pos shows]
    exact ⟨shows, le_rfl⟩
  · unfold instant
    split
    case isTrue early =>
      refine ⟨early, ?_⟩
      by_cases side : minute < k
      · have := before minute (by omega) side
        omega
      · have := after minute (by omega) (by omega)
        have := clock.bounded (shown - 1440)
        by_contra later
        unfold wall at early
        have := after (shown - clock.offset (shown - 1440)) (by omega) (by omega)
        omega
    case isFalse skipped =>
      have late : clock.offset minute = clock.offset (shown + 1440) := by
        by_cases side : minute < k
        · have := before minute (by omega) side
          rw [this] at equation
          rw [← equation] at skipped
          exact absurd shows skipped
        · exact after minute (by omega) (by omega)
      rw [late] at equation
      rw [← equation, if_pos shows]
      exact ⟨shows, le_rfl⟩

theorem instant_skipped {shown : ℤ} (skipped : ∀ minute, clock.wall minute ≠ shown) :
    ∃ k, clock.offset (k - 1) < clock.offset k ∧ k + clock.offset (k - 1) ≤ shown ∧
      shown < k + clock.offset k ∧ clock.instant shown = shown - clock.offset (k - 1) := by
  have first := skipped (shown - clock.offset (shown - 1440))
  have second := skipped (shown - clock.offset (shown + 1440))
  have bounds := clock.bounded (shown - 1440)
  have bounds' := clock.bounded (shown + 1440)
  have value : clock.instant shown =
      shown - min (clock.offset (shown - 1440)) (clock.offset (shown + 1440)) := by
    rw [instant, if_neg first, if_neg second]
  unfold wall at first second
  rcases clock.offsets (by omega : shown - 1440 ≤ shown + 1440) (by omega) with
    flat | ⟨k, low, high, -, before, after⟩
  · have := flat (shown - clock.offset (shown - 1440)) (by omega) (by omega)
    omega
  · have early : k ≤ shown - clock.offset (shown - 1440) := by
      by_contra side
      have := before (shown - clock.offset (shown - 1440)) (by omega) (by omega)
      omega
    have late : shown - clock.offset (shown + 1440) < k := by
      by_contra side
      have := after (shown - clock.offset (shown + 1440)) (by omega) (by omega)
      omega
    have left := before (k - 1) (by omega) (by omega)
    have right := after k le_rfl high
    refine ⟨k, by omega, by omega, by omega, ?_⟩
    rw [value, left]
    omega

theorem changes_apart (first : clock.offset (i - 1) ≠ clock.offset i)
    (second : clock.offset (j - 1) ≠ clock.offset j) (near : i < j + 2880) (near' : j < i + 2880) : i = j := by
  rcases lt_trichotomy i j with lt | same | gt
  · have := clock.spaced lt first second
    omega
  · exact same
  · have := clock.spaced gt second first
    omega

theorem skipped_of_jump {k shown : ℤ} (low : k + clock.offset (k - 1) ≤ shown)
    (high : shown < k + clock.offset k) (minute : ℤ) : clock.wall minute ≠ shown := by
  intro shows
  have jump : clock.offset (k - 1) ≠ clock.offset k := by omega
  by_cases side : minute < k
  · -- From the last minute before the jump back to `minute` the clock would have been set back.
    rcases Int.lt_or_eq_of_le (Int.le_sub_one_of_lt side) with lt | rfl
    · have le : clock.wall (k - 1) ≤ clock.wall minute := by
        unfold wall at *
        omega
      obtain ⟨j, from_, until_, back, -, -, near⟩ := set_back lt le
      have := changes_apart (by omega) jump (by omega : j < k + 2880) (by omega)
      omega
    · unfold wall at shows
      omega
  · rcases Int.lt_or_eq_of_le (Int.not_lt.mp side) with lt | rfl
    · have le : clock.wall minute ≤ clock.wall k := by
        unfold wall at *
        omega
      obtain ⟨j, from_, until_, back, -, -, near⟩ := set_back lt le
      have := changes_apart (by omega) jump (by omega : j < k + 2880) (by omega)
      omega
    · unfold wall at shows
      omega

section Search

variable (clock) (shown : Set ℤ)

def fires : Set ℤ := clock.instant '' shown

/-- What a search that starts at `start`'s minute on the clock and goes on in the clock's order finds. -/
def IsNext (start found : ℤ) : Prop :=
  ∃ minute ∈ shown, clock.instant minute = found ∧ clock.wall start ≤ minute ∧ start ≤ found ∧
    ∀ other ∈ shown, clock.wall start ≤ other → start ≤ clock.instant other → minute ≤ other

def IsLast (stop found : ℤ) : Prop :=
  ∃ minute ∈ shown, clock.instant minute = found ∧ minute ≤ clock.wall stop ∧ found ≤ stop ∧
    ∀ other ∈ shown, other ≤ clock.wall stop → clock.instant other ≤ stop → other ≤ minute

/-- No change of the clock comes between a minute and its order: what a jump skips comes again right after
it, and before a jump back nothing lies in the time the clock shows twice. -/
structure Unmoved : Prop where
  again : ∀ k, clock.offset (k - 1) < clock.offset k → ∀ minute ∈ shown,
    k + clock.offset (k - 1) ≤ minute → minute < k + clock.offset k →
      minute + (clock.offset k - clock.offset (k - 1)) ∈ shown
  first : ∀ k, clock.offset (k - 1) < clock.offset k → k - 1 + clock.offset (k - 1) ∉ shown →
    ∀ skipped ∈ shown, k + clock.offset (k - 1) ≤ skipped → skipped < k + clock.offset k →
      ∀ minute ∈ shown, k + clock.offset k ≤ minute →
        ∃ early ∈ shown, k + clock.offset (k - 1) ≤ early ∧
          early + (clock.offset k - clock.offset (k - 1)) ≤ minute
  once : ∀ k, clock.offset k < clock.offset (k - 1) → ∀ minute ∈ shown,
    k + clock.offset k < minute → k + clock.offset (k - 1) ≤ minute

end Search

theorem offset_after {k j : ℤ} (change : clock.offset (k - 1) ≠ clock.offset k) (le : k ≤ j)
    (near : j < k + 2880) : clock.offset j = clock.offset k := by
  rcases clock.offsets le near.le with flat | ⟨i, low, high, other, -⟩
  · exact flat j le le_rfl
  · have := clock.spaced low change other
    omega

theorem offset_before {k j : ℤ} (change : clock.offset (k - 1) ≠ clock.offset k) (lt : j < k)
    (near : k < j + 2880) : clock.offset j = clock.offset (k - 1) := by
  rcases clock.offsets (Int.le_sub_one_of_lt lt) (by omega) with flat | ⟨i, low, high, other, -⟩
  · exact (flat (k - 1) (by omega) le_rfl).symm
  · have := clock.spaced (by omega : i < k) other change
    omega

theorem instant_wall {minute : ℤ} (steady : ∀ k, minute - 180 < k → k ≤ minute → clock.offset (k - 1) ≤
    clock.offset k) : clock.instant (clock.wall minute) = minute := by
  obtain ⟨shows, le⟩ : clock.wall (clock.instant (clock.wall minute)) = clock.wall minute ∧
      clock.instant (clock.wall minute) ≤ minute := instant_shown rfl
  rcases Int.lt_or_eq_of_le le with lt | same
  · obtain ⟨k, low, high, back, -, -, near⟩ := set_back lt shows.ge
    have := steady k (by omega) high
    omega
  · exact same

variable {k minute : ℤ}

theorem instant_wall_jump (jump : clock.offset (k - 1) < clock.offset k)
    (low : k - 1440 < minute) (high : minute < k + 1440) : clock.instant (clock.wall minute) = minute := by
  apply instant_wall
  intro j from_ until_
  by_contra back
  have other : clock.offset (j - 1) ≠ clock.offset j := by omega
  have : j = k := changes_apart other jump.ne (by omega) (by omega)
  subst this
  omega

theorem instant_repeated (low : k + clock.offset k ≤ minute)
    (high : minute < k + clock.offset (k - 1)) : clock.instant minute = minute - clock.offset (k - 1) := by
  have small := clock.small k
  have change : clock.offset (k - 1) ≠ clock.offset k := by omega
  have shows : clock.wall (minute - clock.offset (k - 1)) = minute := by
    have before : clock.offset (minute - clock.offset (k - 1)) = clock.offset (k - 1) :=
      offset_before change (by omega) (by omega)
    rw [wall, before]
    omega
  have first : clock.instant (clock.wall (minute - clock.offset (k - 1))) = minute - clock.offset (k - 1) := by
    apply instant_wall
    intro j from_ until_
    by_contra back
    have other : clock.offset (j - 1) ≠ clock.offset j := by omega
    have : j = k := changes_apart other change (by omega) (by omega)
    omega
  rwa [shows] at first

theorem instant_jumped (low : k + clock.offset (k - 1) ≤ minute)
    (high : minute < k + clock.offset k) : clock.instant minute = minute - clock.offset (k - 1) := by
  have small := clock.small k
  obtain ⟨j, jump, low', high', value⟩ := instant_skipped (skipped_of_jump low high)
  have small' := clock.small j
  have := clock.bounded (k - 1)
  have := clock.bounded (j - 1)
  rcases lt_trichotomy j k with lt | rfl | gt
  · have apart := clock.spaced lt jump.ne (by omega)
    -- Between the two jumps the clock has gone on by more than the jumps are long.
    have : clock.wall j < clock.wall (k - 1) := wall_lt (by omega)
    unfold wall at this
    omega
  · exact value
  · have apart := clock.spaced gt (by omega) jump.ne
    have : clock.wall k < clock.wall (j - 1) := wall_lt (by omega)
    unfold wall at this
    omega

theorem wall_le_add (le : i ≤ j) : clock.wall i ≤ clock.wall j + 180 := by
  by_contra back
  rcases Int.lt_or_eq_of_le le with lt | rfl
  · have notLater : clock.wall j ≤ clock.wall i := by omega
    obtain ⟨k, -, -, -, atFirst, atLast, -⟩ := set_back lt notLater
    have := clock.small k
    unfold wall at back
    omega
  · omega

theorem le_instant {start shown : ℤ} (later : clock.wall start + 180 < shown) :
    start ≤ clock.instant shown := by
  by_contra earlier
  by_cases shows : ∃ at_, clock.wall at_ = shown
  · obtain ⟨at_, shows⟩ := shows
    have := (instant_shown shows).1
    have : clock.wall (clock.instant shown) ≤ clock.wall start + 180 := wall_le_add (by omega)
    omega
  · push Not at shows
    obtain ⟨k, jump, low, high, value⟩ := instant_skipped shows
    have : clock.wall k ≤ clock.wall start + 180 := wall_le_add (by omega)
    unfold wall at *
    omega

theorem instant_le {stop shown : ℤ} (earlier : shown + 180 < clock.wall stop) :
    clock.instant shown ≤ stop := by
  by_contra later
  by_cases shows : ∃ at_, clock.wall at_ = shown
  · obtain ⟨at_, shows⟩ := shows
    have := (instant_shown shows).1
    have : clock.wall stop ≤ clock.wall (clock.instant shown) + 180 := wall_le_add (by omega)
    omega
  · push Not at shows
    obtain ⟨k, jump, low, high, value⟩ := instant_skipped shows
    have small := clock.small k
    by_cases side : stop < k
    · have : clock.wall stop ≤ clock.wall (k - 1) + 180 := wall_le_add (by omega)
      unfold wall at *
      omega
    · have : clock.offset stop = clock.offset k := offset_after jump.ne (by omega) (by omega)
      unfold wall at *
      omega

variable {shown : Set ℤ}

theorem Unmoved.shown_at (unmoved : Unmoved clock shown) {minute : ℤ} (held : minute ∈ shown) :
    clock.wall (clock.instant minute) ∈ shown ∧
      clock.instant (clock.wall (clock.instant minute)) = clock.instant minute := by
  by_cases shows : ∃ at_, clock.wall at_ = minute
  · obtain ⟨at_, shows⟩ := shows
    rw [(instant_shown shows).1]
    exact ⟨held, rfl⟩
  · push Not at shows
    obtain ⟨k, jump, low, high, value⟩ := instant_skipped shows
    have small := clock.small k
    have after : clock.offset (clock.instant minute) = clock.offset k :=
      offset_after jump.ne (by omega) (by omega)
    have later : clock.wall (clock.instant minute) = minute + (clock.offset k - clock.offset (k - 1)) := by
      rw [wall, after, value]
      omega
    refine ⟨?_, instant_wall_jump jump (by omega) (by omega)⟩
    rw [later]
    exact unmoved.again k jump minute held low high

theorem not_before_jump (jump : clock.offset (k - 1) < clock.offset k)
    (reached : k + clock.offset k ≤ clock.wall minute) : k ≤ minute := by
  by_contra before
  have le : clock.wall k ≤ clock.wall minute := reached
  obtain ⟨j, low, high, back, -, -, near⟩ := set_back (Int.not_le.mp before) le
  have other : clock.offset (j - 1) ≠ clock.offset j := by omega
  have : j = k := changes_apart other jump.ne (by omega) (by omega)
  subst this
  omega

theorem not_after_jump (jump : clock.offset (k - 1) < clock.offset k)
    (before : clock.wall minute < k + clock.offset (k - 1)) : minute < k := by
  by_contra after
  rcases Int.lt_or_eq_of_le (Int.not_lt.mp after) with lt | rfl
  · have le : clock.wall minute ≤ clock.wall k := by
      unfold wall at *
      omega
    obtain ⟨j, low, high, back, -, -, near⟩ := set_back lt le
    have other : clock.offset (j - 1) ≠ clock.offset j := by omega
    have : j = k := changes_apart other jump.ne (by omega) (by omega)
    omega
  · unfold wall at before
    omega

theorem IsNext.unique {start found found' : ℤ} (first : clock.IsNext shown start found)
    (second : clock.IsNext shown start found') : found = found' := by
  obtain ⟨minute, held, rfl, low, reached, least⟩ := first
  obtain ⟨minute', held', rfl, low', reached', least'⟩ := second
  rw [le_antisymm (least _ held' low' reached') (least' _ held low reached)]

theorem IsLast.unique {stop found found' : ℤ} (first : clock.IsLast shown stop found)
    (second : clock.IsLast shown stop found') : found = found' := by
  obtain ⟨minute, held, rfl, high, reached, greatest⟩ := first
  obtain ⟨minute', held', rfl, high', reached', greatest'⟩ := second
  rw [le_antisymm (greatest' _ held high reached) (greatest _ held' high' reached')]

theorem Unmoved.next_least (unmoved : Unmoved clock shown) {start found : ℤ}
    (next : IsNext clock shown start found) :
    IsLeast {fire | fire ∈ clock.fires shown ∧ start ≤ fire} found := by
  obtain ⟨minute, held, value, low, reached, least⟩ := next
  refine ⟨⟨⟨minute, held, value⟩, reached⟩, ?_⟩
  rintro fire ⟨⟨other, otherHeld, rfl⟩, from_⟩
  -- The fire is a minute of the set that the clock shows then for the first time.
  obtain ⟨seen, first⟩ := unmoved.shown_at otherHeld
  set fire := clock.instant other
  by_contra earlier
  rw [Int.not_le] at earlier
  have onward : clock.wall start ≤ clock.wall fire := by
    by_contra back
    have lt : start < fire := by
      rcases Int.lt_or_eq_of_le from_ with lt | same
      · exact lt
      · rw [same] at back
        omega
    have le : clock.wall fire ≤ clock.wall start := by omega
    obtain ⟨k, before, after, setBack, atStart, atFire, -⟩ := set_back lt le
    have wallFire : clock.wall fire = fire + clock.offset fire := rfl
    have wallStart : clock.wall start = start + clock.offset start := rfl
    have repeated : clock.instant (clock.wall fire) = clock.wall fire - clock.offset (k - 1) :=
      instant_repeated (by omega) (by omega)
    omega
  have before : minute ≤ clock.wall fire := least _ seen onward (by omega)
  by_cases shows : ∃ at_, clock.wall at_ = minute
  · obtain ⟨at_, shows⟩ := shows
    have showsFound := (instant_shown shows).1
    rw [value] at showsFound
    have le : clock.wall found ≤ clock.wall fire := by omega
    obtain ⟨k, after, until_, setBack, atFire, atFound, -⟩ := set_back earlier le
    have wallFire : clock.wall fire = fire + clock.offset fire := rfl
    have wallFound : clock.wall found = found + clock.offset found := rfl
    have repeated : clock.instant minute = minute - clock.offset (k - 1) :=
      instant_repeated (by omega) (by omega)
    omega
  · push Not at shows
    obtain ⟨k, jump, gapLow, gapHigh, skipped⟩ := instant_skipped shows
    have small := clock.small k
    have past : k + clock.offset k ≤ clock.wall fire := by
      by_contra inGap
      exact skipped_of_jump (by omega) (Int.not_le.mp inGap) fire rfl
    have fireLate : k ≤ fire := not_before_jump jump past
    have atFire : clock.offset fire = clock.offset k := offset_after jump.ne fireLate (by omega)
    have startBefore : clock.wall start < k + clock.offset (k - 1) := by
      by_contra inGap
      exact skipped_of_jump (by omega) (by omega : clock.wall start < k + clock.offset k) start rfl
    have startEarly : start < k := not_after_jump jump startBefore
    have notBefore : k - 1 + clock.offset (k - 1) ∉ shown := by
      intro heldBefore
      have fires : clock.instant (clock.wall (k - 1)) = k - 1 :=
        instant_wall_jump jump (by omega) (by omega)
      have le := least _ heldBefore (by omega) (by unfold wall at fires; omega)
      omega
    obtain ⟨early, earlyHeld, fromGap, shift⟩ :=
      unmoved.first k jump notBefore minute held gapLow gapHigh _ seen past
    have wallFire : clock.wall fire = fire + clock.offset k := by rw [wall, atFire]
    by_cases inGap : early < k + clock.offset k
    · have fires : clock.instant early = early - clock.offset (k - 1) := instant_jumped fromGap inGap
      have le := least early earlyHeld (by omega) (by omega)
      omega
    · omega

theorem Unmoved.last_greatest (unmoved : Unmoved clock shown) {stop found : ℤ}
    (last : IsLast clock shown stop found) :
    IsGreatest {fire | fire ∈ clock.fires shown ∧ fire ≤ stop} found := by
  obtain ⟨minute, held, value, high, reached, greatest⟩ := last
  refine ⟨⟨⟨minute, held, value⟩, reached⟩, ?_⟩
  rintro fire ⟨⟨other, otherHeld, rfl⟩, until_⟩
  obtain ⟨seen, first⟩ := unmoved.shown_at otherHeld
  set fire := clock.instant other
  by_contra later
  rw [Int.not_le] at later
  have onward : clock.wall fire ≤ clock.wall stop := by
    by_contra back
    have lt : fire < stop := by
      rcases Int.lt_or_eq_of_le until_ with lt | same
      · exact lt
      · rw [same] at back
        omega
    have back_le : clock.wall stop ≤ clock.wall fire := by omega
    obtain ⟨k, after, le, setBack, atFire, atStop, -⟩ := set_back lt back_le
    have wallFire : clock.wall fire = fire + clock.offset fire := rfl
    have wallStop : clock.wall stop = stop + clock.offset stop := rfl
    have := unmoved.once k setBack _ seen (by omega)
    omega
  have before : clock.wall fire ≤ minute := greatest _ seen onward (by omega)
  by_cases shows : ∃ at_, clock.wall at_ = minute
  · obtain ⟨at_, shows⟩ := shows
    have showsFound := (instant_shown shows).1
    rw [value] at showsFound
    have back_le : clock.wall fire ≤ clock.wall found := by omega
    obtain ⟨k, after, le, setBack, atFound, atFire, -⟩ := set_back later back_le
    have wallFire : clock.wall fire = fire + clock.offset fire := rfl
    have wallFound : clock.wall found = found + clock.offset found := rfl
    have repeated : clock.instant (clock.wall fire) = clock.wall fire - clock.offset (k - 1) :=
      instant_repeated (by omega) (by omega)
    omega
  · push Not at shows
    obtain ⟨k, jump, gapLow, gapHigh, skipped⟩ := instant_skipped shows
    have beforeGap : clock.wall fire < k + clock.offset (k - 1) := by
      by_contra inGap
      exact skipped_of_jump (by omega) (by omega : clock.wall fire < k + clock.offset k) fire rfl
    have fireEarly : fire < k := not_after_jump jump beforeGap
    omega

theorem instant_constant {offset : ℤ} (constant : ∀ minute, clock.offset minute = offset) (minute : ℤ) :
    clock.instant minute = minute - offset := by
  have shows : clock.wall (minute - offset) = minute := by
    rw [wall, constant]
    omega
  rw [instant, constant, if_pos shows]

theorem unmoved_of_constant {offset : ℤ} (constant : ∀ minute, clock.offset minute = offset) :
    Unmoved clock shown where
  again k jump := by
    rw [constant, constant] at jump
    omega
  first k jump := by
    rw [constant, constant] at jump
    omega
  once k back := by
    rw [constant, constant] at back
    omega

/-- The search finds the fires in their order exactly when no change of the clock moves one. -/
theorem unmoved_iff (exists_next : ∀ start, ∃ found, IsNext clock shown start found)
    (exists_last : ∀ stop, ∃ found, IsLast clock shown stop found) :
    Unmoved clock shown ↔
      (∀ start found, IsNext clock shown start found →
        IsLeast {fire | fire ∈ clock.fires shown ∧ start ≤ fire} found) ∧
      ∀ stop found, IsLast clock shown stop found →
        IsGreatest {fire | fire ∈ clock.fires shown ∧ fire ≤ stop} found := by
  constructor
  · intro unmoved
    exact ⟨fun _ _ => unmoved.next_least, fun _ _ => unmoved.last_greatest⟩
  · rintro ⟨nexts, lasts⟩
    constructor
    · intro k jump minute held low high
      have small := clock.small k
      have value := instant_jumped low high
      set fire := clock.instant minute
      obtain ⟨found, next⟩ := exists_next fire
      have same : found = fire := le_antisymm
        ((nexts _ _ next).2 ⟨⟨minute, held, rfl⟩, le_rfl⟩) (nexts _ _ next).1.2
      obtain ⟨other, otherHeld, otherValue, onward, -, -⟩ := next
      have atFire : clock.offset fire = clock.offset k := offset_after jump.ne (by omega) (by omega)
      have wallFire : clock.wall fire = fire + clock.offset k := by rw [wall, atFire]
      by_cases shows : ∃ at_, clock.wall at_ = other
      · obtain ⟨at_, shows⟩ := shows
        have showsOther := (instant_shown shows).1
        rw [otherValue, same, wallFire] at showsOther
        rw [← showsOther, value] at otherHeld
        convert otherHeld using 1
        omega
      · push Not at shows
        obtain ⟨j, otherJump, otherLow, otherHigh, otherSkipped⟩ := instant_skipped shows
        have small' := clock.small j
        have : j = k := changes_apart otherJump.ne jump.ne (by omega) (by omega)
        subst this
        omega
    · intro k jump notBefore skipped skippedHeld gapLow gapHigh minute held past
      by_contra none_
      push Not at none_
      have small := clock.small k
      have soon := none_ skipped skippedHeld gapLow
      have after : clock.offset (minute - clock.offset k) = clock.offset k :=
        offset_after jump.ne (by omega) (by omega)
      have wallMinute : clock.wall (minute - clock.offset k) = minute := by
        rw [wall, after]
        omega
      have value : clock.instant (clock.wall (minute - clock.offset k)) = minute - clock.offset k :=
        instant_wall_jump jump (by omega) (by omega)
      rw [wallMinute] at value
      obtain ⟨found, next⟩ := exists_next (k - 1)
      have le : found ≤ clock.instant minute := (nexts _ _ next).2 ⟨⟨minute, held, rfl⟩, by omega⟩
      obtain ⟨other, otherHeld, otherValue, onward, -, least⟩ := next
      have fires : clock.instant skipped = skipped - clock.offset (k - 1) := instant_jumped gapLow gapHigh
      have before : other ≤ skipped := least skipped skippedHeld (by unfold wall; omega) (by omega)
      have fromGap : k + clock.offset (k - 1) ≤ other := by
        have ne : other ≠ k - 1 + clock.offset (k - 1) := fun same => notBefore (same ▸ otherHeld)
        unfold wall at onward
        omega
      have otherFires : clock.instant other = other - clock.offset (k - 1) :=
        instant_jumped fromGap (by omega)
      have := none_ other otherHeld fromGap
      omega
    · intro k back minute held low
      by_contra high
      have small := clock.small k
      have change : clock.offset (k - 1) ≠ clock.offset k := by omega
      have value : clock.instant minute = minute - clock.offset (k - 1) :=
        instant_repeated (by omega) (by omega)
      obtain ⟨found, last⟩ := exists_last k
      have le : clock.instant minute ≤ found := (lasts _ _ last).2 ⟨⟨minute, held, rfl⟩, by omega⟩
      obtain ⟨other, otherHeld, otherValue, until_, reached, -⟩ := last
      have wallK : clock.wall k = k + clock.offset k := rfl
      by_cases shows : ∃ at_, clock.wall at_ = other
      · obtain ⟨at_, shows⟩ := shows
        have showsOther := (instant_shown shows).1
        rw [otherValue] at showsOther
        by_cases atK : found = k
        · subst atK
          have repeated : clock.instant other = other - clock.offset (found - 1) :=
            instant_repeated (by omega) (by omega)
          omega
        · have := offset_before change (by omega : found < k) (by omega)
          unfold wall at showsOther
          omega
      · push Not at shows
        obtain ⟨j, jump, otherLow, otherHigh, skipped⟩ := instant_skipped shows
        have small' := clock.small j
        have : j = k := changes_apart jump.ne change (by omega) (by omega)
        subst this
        omega

end Clock

end EverWorks.Lib
