import EverWorks.Agents.Fingerprint
import EverWorks.Lib.JsValue
import Mathlib.Data.List.Duplicate

/-!
Whether a trail of attempts goes in circles: one failure at its end again and again, or many attempts without progress
in which a failure came back.
-/

namespace EverWorks.Agents.LoopDetector
open Lib List

structure LoopAttemptSample where
  fingerprint : Utf16
  progressed : Option Bool := none
  deriving DecidableEq

structure DoomLoopOptions where
  repeatThreshold : Option JsNumber := none
  maxRetries : Option JsNumber := none

inductive DoomLoopSignal where
  | repeatedFailure | retryStorm
  deriving DecidableEq

structure DoomLoopVerdict where
  detected : Bool
  signal : Option DoomLoopSignal
  repeats : ℕ
  distinctFailures : ℕ
  attempts : ℕ
  fingerprint : Option Utf16
  reason : String

def minLoopRepeatThreshold : ℕ := 2
def maxLoopRepeatThreshold : ℕ := 10
def minLoopMaxRetries : ℕ := 1
def maxLoopMaxRetries : ℕ := 20

/-- A threshold cut to a whole number between its bounds; one that is no finite number is replaced. -/
def threshold (low high otherwise : ℕ) (value : Option JsNumber) : ℕ :=
  match value.getD .nan with
  | .finite value => min high (max low (if 0 ≤ value then ⌊value⌋ else ⌈value⌉).toNat)
  | _ => otherwise

def resolveLoopThresholds (options : DoomLoopOptions) : ℕ × ℕ :=
  (threshold minLoopRepeatThreshold maxLoopRepeatThreshold (minLoopRepeatThreshold + 1) options.repeatThreshold,
    threshold minLoopMaxRetries maxLoopMaxRetries 4 options.maxRetries)

def trailingRun : List LoopAttemptSample → Option Utf16 → ℕ → Option Utf16 × ℕ
  | [], fingerprint, repeats => (fingerprint, repeats)
  | sample :: earlier, fingerprint, repeats =>
    if sample.fingerprint = [] then (fingerprint, repeats)
    else if sample.progressed = some true then (fingerprint, repeats)
    else
      match fingerprint with
      | none => trailingRun earlier (some sample.fingerprint) 1
      | some current =>
        if sample.fingerprint ≠ current then (fingerprint, repeats)
        else trailingRun earlier fingerprint (repeats + 1)

def countDistinct (trail : List LoopAttemptSample) : ℕ :=
  ((trail.map (·.fingerprint)).filter (· ≠ [])).dedup.length

def detectDoomLoop (samples : List (Option LoopAttemptSample)) (options : DoomLoopOptions) : DoomLoopVerdict :=
  let (repeatThreshold, maxRetries) := resolveLoopThresholds options
  let trail := samples.filterMap id
  let attempts := trail.length
  let distinctFailures := countDistinct trail
  let (current, repeats) := trailingRun trail.reverse none 0
  let fingerprint := if 2 ≤ repeats then current else none
  if repeatThreshold ≤ repeats then
    { detected := true
      signal := some .repeatedFailure
      repeats, distinctFailures, attempts, fingerprint
      reason := s!"The same failure repeated {repeats} times in a row with no progress (threshold {repeatThreshold})." }
  else
    let anyProgress := trail.any fun sample => sample.progressed = some true
    if maxRetries ≤ attempts ∧ ¬ anyProgress ∧ distinctFailures < attempts then
      { detected := true
        signal := some .retryStorm
        repeats, distinctFailures, attempts, fingerprint
        reason := s!"{attempts} attempts made no progress and only produced {distinctFailures} distinct failure(s) " ++
          s!"(retry ceiling {maxRetries})." }
    else
      { detected := false
        signal := none
        repeats, distinctFailures, attempts, fingerprint
        reason :=
          if attempts = 0 then "No attempts recorded."
          else s!"{attempts} attempt(s), {distinctFailures} distinct failure(s), longest identical run {repeats}." }

/-- So many attempts at the end of the trail failed alike, with a failure that is known, and none of them progressed. -/
def Repeats (trail : List LoopAttemptSample) (count : ℕ) : Prop :=
  count ≤ trail.length ∧ ∃ failure ≠ [], ∀ sample ∈ trail.rtake count,
    sample.fingerprint = failure ∧ sample.progressed ≠ some true

/-- So many attempts were made, none progressed, and a failure that is known came twice. -/
def Storm (trail : List LoopAttemptSample) (maxRetries : ℕ) : Prop :=
  maxRetries ≤ trail.length ∧ (∀ sample ∈ trail, sample.progressed ≠ some true) ∧
    ∃ failure ≠ [], List.Duplicate failure (trail.map (·.fingerprint))

/-- What a trail is a loop by. -/
def Loops (samples : List (Option LoopAttemptSample)) (options : DoomLoopOptions) : Prop :=
  Repeats (samples.filterMap id) (resolveLoopThresholds options).1 ∨
    Storm (samples.filterMap id) (resolveLoopThresholds options).2

section
variable {trail : List LoopAttemptSample} {failure : Utf16}

def goesOn (failure : Utf16) (sample : LoopAttemptSample) : Bool :=
  sample.fingerprint = failure ∧ sample.progressed ≠ some true

theorem le_takeWhile_iff {α : Type} {p : α → Bool} {items : List α} {count : ℕ} :
    count ≤ (items.takeWhile p).length ↔ count ≤ items.length ∧ ∀ item ∈ items.take count, p item = true := by
  induction items generalizing count with
  | nil => simp
  | cons item items ih =>
    cases count with
    | zero => simp
    | succ count =>
      cases holds : p item with
      | false => simp [holds]
      | true => simp [holds, ih]

theorem trailingRun_some (known : failure ≠ []) (repeats : ℕ) : trailingRun trail (some failure) repeats =
    (some failure, repeats + (trail.takeWhile (goesOn failure)).length) := by
  induction trail generalizing repeats with
  | nil => rfl
  | cons sample earlier ih =>
    unfold trailingRun
    split
    · rename_i unknown
      have stops : ¬ goesOn failure sample := by simp [goesOn, unknown, Ne.symm known]
      rw [takeWhile_cons_of_neg stops]
      rfl
    · split
      · rename_i progress
        have stops : ¬ goesOn failure sample := by simp [goesOn, progress]
        rw [takeWhile_cons_of_neg stops]
        rfl
      · rename_i progress
        dsimp only
        split
        · rename_i other
          have stops : ¬ goesOn failure sample := by simp [goesOn, other]
          rw [takeWhile_cons_of_neg stops]
          rfl
        · rename_i same
          have goes : goesOn failure sample := by simpa [goesOn, progress] using same
          rw [ih, takeWhile_cons_of_pos goes, length_cons, Nat.add_assoc, Nat.add_comm 1]

theorem rtake_eq (count : ℕ) : trail.rtake count = (trail.reverse.take count).reverse := rtake_eq_reverse_take_reverse _ _

theorem repeats_iff {count : ℕ} : Repeats trail count ↔ count ≤ (trailingRun trail.reverse none 0).2 := by
  have turned : Repeats trail count ↔ ∃ failure ≠ [], count ≤ (trail.reverse.takeWhile (goesOn failure)).length := by
    simp only [Repeats, rtake_eq, mem_reverse, le_takeWhile_iff, length_reverse, goesOn, decide_eq_true_eq]
    constructor
    · rintro ⟨le, failure, known, alike⟩
      exact ⟨failure, known, le, alike⟩
    · rintro ⟨failure, known, le, alike⟩
      exact ⟨le, failure, known, alike⟩
  rw [turned]
  cases trail.reverse with
  | nil => exact ⟨fun ⟨_, _, le⟩ => le, fun le => ⟨[0], cons_ne_nil _ _, le⟩⟩
  | cons sample earlier =>
    have stopped (never : ∀ failure ≠ [], ¬ goesOn failure sample) :
        (∃ failure ≠ [], count ≤ ((sample :: earlier).takeWhile (goesOn failure)).length) ↔ count ≤ 0 := by
      constructor
      · rintro ⟨failure, known, le⟩
        rw [takeWhile_cons_of_neg (never failure known)] at le
        exact le
      · intro le
        exact ⟨[0], cons_ne_nil _ _, le.trans (Nat.zero_le _)⟩
    unfold trailingRun
    split
    · rename_i unknown
      exact stopped fun failure known => by simp [goesOn, unknown, Ne.symm known]
    · rename_i known
      split
      · rename_i progress
        exact stopped fun failure known => by simp [goesOn, progress]
      · rename_i progress
        dsimp only
        rw [trailingRun_some known]
        have first : goesOn sample.fingerprint sample := by simp [goesOn, progress]
        constructor
        · rintro ⟨failure, known', le⟩
          by_cases same : sample.fingerprint = failure
          · rw [← same, takeWhile_cons_of_pos first, length_cons] at le
            omega
          · rw [takeWhile_cons_of_neg (by simp [goesOn, same])] at le
            exact le.trans (Nat.zero_le _)
        · intro le
          refine ⟨_, known, ?_⟩
          rw [takeWhile_cons_of_pos first, length_cons]
          omega

theorem countDistinct_lt_iff : countDistinct trail < trail.length ↔
    [] ∈ trail.map (·.fingerprint) ∨ ∃ failure ≠ [], List.Duplicate failure (trail.map (·.fingerprint)) := by
  have length : trail.length = (trail.map (·.fingerprint)).length :=
    (length_map _).symm
  rw [countDistinct, length]
  generalize trail.map (·.fingerprint) = failures
  have fewer : (failures.filter (· ≠ [])).length ≤ failures.length := length_filter_le _ _
  have told := (dedup_sublist (failures.filter (· ≠ []))).length_le
  have twice : (∃ failure ≠ [], List.Duplicate failure failures) ↔ ¬ (failures.filter (· ≠ [])).Nodup := by
    rw [← exists_duplicate_iff_not_nodup]
    refine exists_congr fun failure => ?_
    rw [duplicate_iff_sublist, duplicate_iff_sublist]
    constructor
    · rintro ⟨known, two⟩
      have kept := two.filter (· ≠ [])
      rwa [filter_eq_self.mpr (by simpa using known)] at kept
    · intro two
      exact ⟨by simpa using (mem_filter.mp (two.subset mem_cons_self)).2, two.trans filter_sublist⟩
  rw [twice]
  constructor
  · intro lt
    by_contra neither
    rw [not_or, not_not] at neither
    have all : failures.filter (· ≠ []) = failures :=
      filter_eq_self.mpr fun text mem => decide_eq_true fun unknown => neither.1 (unknown ▸ mem)
    rw [List.Nodup.dedup neither.2, all] at lt
    exact absurd lt (lt_irrefl _)
  · rintro (unknown | repeated)
    · have less : (failures.filter (· ≠ [])).length < failures.length :=
        length_filter_lt_length_iff_exists.mpr ⟨[], unknown, by simp⟩
      omega
    · have less : (failures.filter (· ≠ [])).dedup.length < (failures.filter (· ≠ [])).length := by
        refine lt_of_le_of_ne told fun same => repeated ?_
        rw [← (dedup_sublist _).eq_of_length same]
        exact nodup_dedup _
      omega

theorem twice_of_repeats {count : ℕ} (two : 2 ≤ count) (repeats : Repeats trail count) :
    ∃ failure ≠ [], List.Duplicate failure (trail.map (·.fingerprint)) := by
  obtain ⟨le, failure, known, alike⟩ := repeats
  refine ⟨failure, known, duplicate_iff_sublist.mpr ?_⟩
  have all : (trail.rtake count).map (·.fingerprint) = List.replicate count failure := by
    refine eq_replicate_iff.mpr ⟨?_, fun text mem => ?_⟩
    · rw [length_map, rtake_eq, length_reverse, length_take, length_reverse]
      omega
    · obtain ⟨sample, mem', rfl⟩ := mem_map.mp mem
      exact (alike sample mem').1
  have sub : ((trail.rtake count).map (·.fingerprint)).Sublist (trail.map (·.fingerprint)) :=
    (drop_sublist _ _).map _
  rw [all] at sub
  exact (replicate_sublist_replicate failure |>.mpr two).trans sub

theorem two_le_threshold (options : DoomLoopOptions) : 2 ≤ (resolveLoopThresholds options).1 := by
  unfold resolveLoopThresholds threshold
  dsimp only [minLoopRepeatThreshold, maxLoopRepeatThreshold]
  split <;> omega

end

section
variable (samples : List (Option LoopAttemptSample)) (options : DoomLoopOptions)

theorem detectDoomLoop_repeats :
    (detectDoomLoop samples options).repeats = (trailingRun (samples.filterMap id).reverse none 0).2 := by
  unfold detectDoomLoop
  dsimp only
  split
  · rfl
  · split <;> rfl

theorem detected_iff : (detectDoomLoop samples options).detected = true ↔
    Repeats (samples.filterMap id) (resolveLoopThresholds options).1 ∨
      (resolveLoopThresholds options).2 ≤ (samples.filterMap id).length ∧
        (∀ sample ∈ samples.filterMap id, sample.progressed ≠ some true) ∧
          countDistinct (samples.filterMap id) < (samples.filterMap id).length := by
  have progress : (¬ ((samples.filterMap id).any fun sample => sample.progressed = some true) = true) ↔
      ∀ sample ∈ samples.filterMap id, sample.progressed ≠ some true := by
    simp only [any_eq_true, decide_eq_true_eq, not_exists, not_and, ne_eq]
  rw [repeats_iff, ← progress]
  unfold detectDoomLoop
  dsimp only
  split
  · rename_i reached
    exact iff_of_true rfl (.inl reached)
  · rename_i reached
    split
    · rename_i storm
      exact iff_of_true rfl (.inr storm)
    · rename_i calm
      exact iff_of_false Bool.false_ne_true (not_or.mpr ⟨reached, calm⟩)

/-- Attempts that failed in no known way are no evidence of a storm: there are too few attempts for one, one of them
progressed, none of them is unknown, or a known failure came twice. -/
def Evident : Prop :=
  (samples.filterMap id).length < (resolveLoopThresholds options).2 ∨
    (∃ sample ∈ samples.filterMap id, sample.progressed = some true) ∨
    (∀ sample ∈ samples.filterMap id, sample.fingerprint ≠ []) ∨
    ∃ failure ≠ [], List.Duplicate failure ((samples.filterMap id).map (·.fingerprint))

theorem detected_iff_loops :
    ((detectDoomLoop samples options).detected = true ↔ Loops samples options) ↔ Evident samples options := by
  have unknown : (∀ sample ∈ samples.filterMap id, sample.fingerprint ≠ []) ↔
      [] ∉ (samples.filterMap id).map (·.fingerprint) := by simp
  have twice := @twice_of_repeats (samples.filterMap id) _ (two_le_threshold options)
  rw [detected_iff, countDistinct_lt_iff, Loops, Storm, Evident, unknown, ← not_le]
  generalize (∃ failure ≠ [], List.Duplicate failure ((samples.filterMap id).map (·.fingerprint))) = repeated at twice ⊢
  have moved : (∃ sample ∈ samples.filterMap id, sample.progressed = some true) ↔
      ¬ ∀ sample ∈ samples.filterMap id, sample.progressed ≠ some true := by simp
  rw [moved]
  tauto

/-- A loop is reported exactly where there is one but for attempts that failed in no known way, the repeats are the
longest run at the end, and the order in which an attempt's failures are listed is not seen. -/
theorem detects_exactly (toLowerCase : Utf16 → Utf16) :
    (((detectDoomLoop samples options).detected = true ↔ Loops samples options) ↔ Evident samples options) ∧
      IsGreatest {count | Repeats (samples.filterMap id) count} (detectDoomLoop samples options).repeats ∧
      ∀ failures others : List (Option Failure), failures.Perm others →
        fingerprintFailures toLowerCase failures = fingerprintFailures toLowerCase others := by
  refine ⟨detected_iff_loops samples options, ?_, fun _ _ => fingerprintFailures_perm toLowerCase⟩
  rw [detectDoomLoop_repeats]
  exact ⟨repeats_iff.mpr le_rfl, fun _ => repeats_iff.mp⟩

end

/-- Four attempts of which two failed alike in no known way are no loop, and are reported as one. -/
theorem unknown_failures_storm : ¬ ((detectDoomLoop [some ⟨[0x61], none⟩, some ⟨[], none⟩, some ⟨[0x62], none⟩, some ⟨[], none⟩]
    {}).detected = true ↔ Loops [some ⟨[0x61], none⟩, some ⟨[], none⟩, some ⟨[0x62], none⟩, some ⟨[], none⟩] {}) := by
  rw [detected_iff_loops, Evident]
  rintro (few | ⟨sample, mem, progress⟩ | known | ⟨failure, known, two⟩)
  · exact absurd few (by decide)
  · simp at mem
    rcases mem with rfl | rfl | rfl | rfl <;> cases progress
  · exact known ⟨[], none⟩ (by simp) rfl
  · have different : ([[0x61], [], [0x62], []] : List Utf16).filter (· ≠ []) = [[0x61], [0x62]] := rfl
    have kept := (duplicate_iff_sublist.mp two).filter (· ≠ [])
    rw [filter_eq_self.mpr (by simpa using known)] at kept
    exact (duplicate_iff_sublist.mpr kept).not_nodup (by decide)

end EverWorks.Agents.LoopDetector
