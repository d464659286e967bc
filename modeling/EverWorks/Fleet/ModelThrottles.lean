import EverWorks.Lib.Json
import EverWorks.Lib.OrderedMap
import EverWorks.Lib.Run
import Mathlib.Data.List.Sort
import Mathlib.Data.Finset.Max

/-!
A `completeJob` call that parks its job for a usage limit writes the node's whole list of throttles, made from
the list it read when it authenticated. Calls of one node overlap freely between that read and the write.
-/

namespace EverWorks.Fleet
open Lib List

inductive FleetModelUsageLimitWindow where
  | weekly | session | daily | rate | usage
  deriving DecidableEq

/-- An entry of `modelThrottles`, with instants in milliseconds. -/
structure FleetNodeModelThrottle where
  provider : Utf16
  window : FleetModelUsageLimitWindow
  until_ : Int
  reason : Utf16
  since : Int
  deriving DecidableEq

/-- What `readFleetJobModelUsageLimit` recognised in a result. -/
structure FleetModelUsageLimit where
  provider : Utf16
  window : FleetModelUsageLimitWindow
  retryAfter : Int
  message : Utf16
  deriving DecidableEq

/-! ## The list of throttles -/

section

/-- `text.replace(/[…]+/g, ' ')`; `inside` is whether the unit before belonged to the class. -/
def blankRuns (belongs : UInt16 → Bool) : Bool → Utf16 → Utf16
  | _, [] => []
  | inside, unit :: rest =>
    if belongs unit then (if inside then [] else [0x20]) ++ blankRuns belongs true rest
    else unit :: blankRuns belongs false rest

/-- `Array.from(text)` -/
def textPoints : Utf16 → List Utf16
  | [] => []
  | [unit] => [[unit]]
  | unit :: next :: rest =>
    if Utf16.isHighSurrogate unit && Utf16.isLowSurrogate next then [unit, next] :: textPoints rest
    else [unit] :: textPoints (next :: rest)

def fleetModelUsageLimitMaxMessageLength : Nat := 300

def trimSentence (text : Utf16) : Utf16 :=
  let clean := Utf16.trim (blankRuns Utf16.isWhiteSpace false
    (blankRuns (fun unit => unit ≤ 0x1F || unit == 0x7F) false text))
  let points := textPoints clean
  if fleetModelUsageLimitMaxMessageLength < points.length then
    (((points.take (fleetModelUsageLimitMaxMessageLength - 1)).flatten.reverse.dropWhile
      Utf16.isWhiteSpace).reverse) ++ [0x2026]
  else clean

/-- `left.localeCompare(right)`, by its sign. -/
abbrev LocaleCompare := Utf16 → Utf16 → Int

/-- One turn of the loop of `activeFleetNodeModelThrottles`. -/
def addActive (now : Int) (byProvider : OrderedMap Utf16 FleetNodeModelThrottle) (row : FleetNodeModelThrottle) :
    OrderedMap Utf16 FleetNodeModelThrottle :=
  let provider := Utf16.trim row.provider
  if provider = [] ∨ row.until_ ≤ now then byProvider
  else
    let view := { row with provider, reason := trimSentence row.reason }
    match byProvider.get provider with
    | some previous => if previous.until_ < view.until_ then byProvider.set provider view else byProvider
    | none => byProvider.set provider view

def activeFleetNodeModelThrottles (compare : LocaleCompare) (stored : List FleetNodeModelThrottle) (now : Int) :
    List FleetNodeModelThrottle :=
  (stored.foldl (addActive now) .empty).values.insertionSort fun a b => compare a.provider b.provider ≤ 0

/-- The list `recordModelThrottle` writes, and whether it opens a new window. -/
def recordModelThrottle (compare : LocaleCompare) (modelThrottles : List FleetNodeModelThrottle)
    (limit : FleetModelUsageLimit) (now : Int) : List FleetNodeModelThrottle × Bool :=
  let active := activeFleetNodeModelThrottles compare modelThrottles now
  let previous := active.find? (·.provider = limit.provider)
  let entry : FleetNodeModelThrottle := match previous with
    | some previous =>
      if previous.until_ < limit.retryAfter then
        ⟨limit.provider, limit.window, limit.retryAfter, limit.message, previous.since⟩
      else ⟨limit.provider, previous.window, previous.until_, previous.reason, previous.since⟩
    | none => ⟨limit.provider, limit.window, limit.retryAfter, limit.message, now⟩
  (active.filter (·.provider ≠ limit.provider) ++ [entry], previous.isNone)

end

/-! ## Calls that park -/

/-- Where a `completeJob` call stands: the list it authenticated with, then the limit it read and when. -/
inductive ParkCall where
  | idle
  | authenticated (modelThrottles : List FleetNodeModelThrottle)
  | parking (modelThrottles : List FleetNodeModelThrottle) (limit : FleetModelUsageLimit) (now : Int)
  | recording (modelThrottles : List FleetNodeModelThrottle) (limit : FleetModelUsageLimit) (now : Int)
  deriving DecidableEq

/-- The row of a node and the `completeJob` calls of it. -/
structure ThrottledNode where
  clock : Int
  modelThrottles : List FleetNodeModelThrottle
  calls : Nat → ParkCall := fun _ => .idle
  /-- The limits that calls parked for and finished. -/
  reported : List FleetModelUsageLimit := []

inductive ThrottleEvent where
  | pass (milliseconds : Nat)
  | authenticate (call : Nat)
  /-- `limit` is what the call's job and result lead to; without one the call does not park. -/
  | read (call : Nat) (limit : Option FleetModelUsageLimit)
  /-- `parked` is whether the update of the job's row found the claim still there. -/
  | park (call : Nat) (parked : Bool)
  | record (call : Nat)
  deriving DecidableEq

namespace ThrottledNode

def step (compare : LocaleCompare) (node : ThrottledNode) : ThrottleEvent → ThrottledNode
  | .pass milliseconds => { node with clock := node.clock + milliseconds }
  | .authenticate call =>
    match node.calls call with
    | .idle => { node with calls := Function.update node.calls call (.authenticated node.modelThrottles) }
    | _ => node
  | .read call limit =>
    match node.calls call, limit with
    | .authenticated modelThrottles, some limit =>
      { node with calls := Function.update node.calls call (.parking modelThrottles limit node.clock) }
    | .authenticated _, none => { node with calls := Function.update node.calls call .idle }
    | _, _ => node
  | .park call parked =>
    match node.calls call with
    | .parking modelThrottles limit now =>
      let next := if parked then .recording modelThrottles limit now else .idle
      { node with calls := Function.update node.calls call next }
    | _ => node
  | .record call =>
    match node.calls call with
    | .recording modelThrottles limit now =>
      { node with
          modelThrottles := (recordModelThrottle compare modelThrottles limit now).1
          calls := Function.update node.calls call .idle
          reported := node.reported ++ [limit] }
    | _ => node

/-- Once no call is under way, every provider that reported a limit still in force has an entry that lasts as long
as the latest it reported. -/
def ThrottlesKept (node : ThrottledNode) : Prop :=
  (∀ call, node.calls call = .idle) → ∀ limit ∈ node.reported, node.clock < limit.retryAfter →
    ∃ entry ∈ node.modelThrottles, entry.provider = limit.provider ∧
      ∀ other ∈ node.reported, other.provider = limit.provider → other.retryAfter ≤ entry.until_

def cleanName (provider : Utf16) : Bool := provider ≠ [] && Utf16.trim provider = provider

/-- What the call read at its authentication, or its own report, stands for every throttle in force that its write
replaces. -/
def writesCurrent (node : ThrottledNode) : ThrottleEvent → Bool
  | .record call =>
    match node.calls call with
    | .recording modelThrottles limit _ => cleanName limit.provider &&
      node.modelThrottles.all fun entry => entry.until_ ≤ node.clock ||
        (entry.provider = limit.provider && entry.until_ ≤ limit.retryAfter) ||
        modelThrottles.any fun old => old.provider = entry.provider && entry.until_ ≤ old.until_
    | _ => true
  | _ => true

end ThrottledNode

/-! ## What a write holds -/

section

variable {compare : LocaleCompare} {now : Int}

def Keyed (byProvider : OrderedMap Utf16 FleetNodeModelThrottle) : Prop :=
  ∀ provider view, byProvider.get provider = some view → view.provider = provider

variable {byProvider : OrderedMap Utf16 FleetNodeModelThrottle}

theorem addActive_keyed (keyed : Keyed byProvider)
    (row : FleetNodeModelThrottle) : Keyed (addActive now byProvider row) := by
  have written : Keyed (byProvider.set (Utf16.trim row.provider)
      { row with provider := Utf16.trim row.provider, reason := trimSentence row.reason }) := by
    intro provider view found
    rw [OrderedMap.get_set] at found
    split at found
    · next same =>
      rw [← Option.some.inj found, same]
    · exact keyed provider view found
  unfold addActive
  dsimp only
  split
  · exact keyed
  · split
    · split
      · exact written
      · exact keyed
    · exact written

variable {view : FleetNodeModelThrottle}

theorem addActive_later (byProvider : OrderedMap Utf16 FleetNodeModelThrottle) (row : FleetNodeModelThrottle)
    {provider : Utf16} (found : byProvider.get provider = some view) :
    ∃ later, (addActive now byProvider row).get provider = some later ∧ view.until_ ≤ later.until_ := by
  unfold addActive
  dsimp only
  split
  · exact ⟨view, found, le_refl _⟩
  · split
    · next previous here =>
      split
      · next longer =>
        rw [OrderedMap.get_set]
        split
        · next same =>
          obtain rfl := Option.some.inj ((same ▸ found).symm.trans here)
          exact ⟨_, rfl, longer.le⟩
        · exact ⟨view, found, le_refl _⟩
      · exact ⟨view, found, le_refl _⟩
    · next absent =>
      rw [OrderedMap.get_set, if_neg]
      · exact ⟨view, found, le_refl _⟩
      · rintro rfl
        rw [absent] at found
        cases found

variable {row : FleetNodeModelThrottle}

theorem addActive_covers (byProvider : OrderedMap Utf16 FleetNodeModelThrottle)
    (named : Utf16.trim row.provider ≠ []) (force : now < row.until_) :
    ∃ view, (addActive now byProvider row).get (Utf16.trim row.provider) = some view ∧
      row.until_ ≤ view.until_ := by
  unfold addActive
  dsimp only
  rw [if_neg (by simp [named, force])]
  split
  · next previous here =>
    split
    · exact ⟨{ row with provider := Utf16.trim row.provider, reason := trimSentence row.reason },
        (OrderedMap.get_set ..).trans (if_pos rfl), le_refl _⟩
    · next shorter => exact ⟨previous, here, not_lt.mp shorter⟩
  · exact ⟨{ row with provider := Utf16.trim row.provider, reason := trimSentence row.reason },
      (OrderedMap.get_set ..).trans (if_pos rfl), le_refl _⟩

theorem fold_keyed (keyed : Keyed byProvider)
    (stored : List FleetNodeModelThrottle) : Keyed (stored.foldl (addActive now) byProvider) := by
  induction stored generalizing byProvider with
  | nil => exact keyed
  | cons row rest ih => exact ih (addActive_keyed keyed row)

theorem fold_later (stored : List FleetNodeModelThrottle)
    {provider : Utf16} (found : byProvider.get provider = some view) :
    ∃ later, (stored.foldl (addActive now) byProvider).get provider = some later ∧ view.until_ ≤ later.until_ := by
  induction stored generalizing byProvider view with
  | nil => exact ⟨view, found, le_refl _⟩
  | cons row rest ih =>
    obtain ⟨next, there, longer⟩ := addActive_later byProvider row found
    obtain ⟨later, last, longest⟩ := ih there
    exact ⟨later, last, longer.trans longest⟩

variable {stored : List FleetNodeModelThrottle}

theorem fold_covers
    (member : row ∈ stored) (named : Utf16.trim row.provider ≠ [])
    (force : now < row.until_) :
    ∃ view, (stored.foldl (addActive now) byProvider).get (Utf16.trim row.provider) = some view ∧
      row.until_ ≤ view.until_ := by
  induction stored generalizing byProvider with
  | nil => cases member
  | cons first rest ih =>
    rcases mem_cons.mp member with rfl | later
    · obtain ⟨view, here, longer⟩ := addActive_covers byProvider named force
      obtain ⟨last, there, longest⟩ := fold_later rest here
      exact ⟨last, there, longer.trans longest⟩
    · exact ih later

theorem active_keyed (stored : List FleetNodeModelThrottle) : Keyed (stored.foldl (addActive now) .empty) :=
  fold_keyed (by simp [Keyed]) stored

theorem mem_active :
    view ∈ activeFleetNodeModelThrottles compare stored now ↔
      (stored.foldl (addActive now) .empty).get view.provider = some view := by
  rw [activeFleetNodeModelThrottles, mem_insertionSort, OrderedMap.mem_values]
  constructor
  · rintro ⟨provider, found⟩
    have same : view.provider = provider := active_keyed stored provider view found
    rwa [same]
  · exact fun found => ⟨_, found⟩

variable (compare) in
theorem active_covers (member : row ∈ stored)
    (clean : ThrottledNode.cleanName row.provider = true) (force : now < row.until_) :
    ∃ view ∈ activeFleetNodeModelThrottles compare stored now,
      view.provider = row.provider ∧ row.until_ ≤ view.until_ := by
  simp only [ThrottledNode.cleanName, Bool.and_eq_true, decide_eq_true_eq] at clean
  obtain ⟨named, trimmed⟩ := clean
  obtain ⟨view, found, longer⟩ : ∃ view, (stored.foldl (addActive now) .empty).get (Utf16.trim row.provider) =
      some view ∧ row.until_ ≤ view.until_ := fold_covers member (by rwa [trimmed]) force
  have same : view.provider = Utf16.trim row.provider := active_keyed stored _ view found
  refine ⟨view, mem_active.mpr (same ▸ found), same.trans trimmed, longer⟩

theorem active_once {view other : FleetNodeModelThrottle}
    (member : view ∈ activeFleetNodeModelThrottles compare stored now)
    (member' : other ∈ activeFleetNodeModelThrottles compare stored now) (same : view.provider = other.provider) :
    view = other := by
  have here := mem_active.mp member
  rw [same, mem_active.mp member', Option.some.injEq] at here
  exact here.symm

variable (compare now) in
theorem recordModelThrottle_own (stored : List FleetNodeModelThrottle) (limit : FleetModelUsageLimit) :
    ∃ entry ∈ (recordModelThrottle compare stored limit now).1, entry.provider = limit.provider ∧
      limit.retryAfter ≤ entry.until_ ∧
      ∀ view ∈ activeFleetNodeModelThrottles compare stored now, view.provider = limit.provider →
        view.until_ ≤ entry.until_ := by
  unfold recordModelThrottle
  dsimp only
  refine ⟨_, mem_append_right _ mem_cons_self, ?_⟩
  split
  · next previous found =>
    have named : previous.provider = limit.provider := by simpa using find?_some found
    have only : ∀ view ∈ activeFleetNodeModelThrottles compare stored now, view.provider = limit.provider →
        view = previous :=
      fun view member same => active_once member (mem_of_find?_eq_some found) (same.trans named.symm)
    split
    · next longer =>
      refine ⟨rfl, le_refl _, fun view member same => ?_⟩
      rw [only view member same]
      exact longer.le
    · next shorter =>
      refine ⟨rfl, not_lt.mp shorter, fun view member same => ?_⟩
      rw [only view member same]
  · next absent =>
    refine ⟨rfl, le_refl _, fun view member same => ?_⟩
    have apart := find?_eq_none.mp absent view member
    simp [same] at apart

theorem recordModelThrottle_others (stored : List FleetNodeModelThrottle) (limit : FleetModelUsageLimit)
    (member : view ∈ activeFleetNodeModelThrottles compare stored now)
    (apart : view.provider ≠ limit.provider) : view ∈ (recordModelThrottle compare stored limit now).1 :=
  mem_append_left _ (mem_filter.mpr ⟨member, by simpa using apart⟩)

end

/-! ## Runs -/

namespace ThrottledNode

variable {compare : LocaleCompare} {node : ThrottledNode}

/-- Every limit that was reported and is in force has an entry; the calls under way read the clock before. -/
structure Kept (node : ThrottledNode) : Prop where
  clean : ∀ limit ∈ node.reported, cleanName limit.provider = true
  covered : ∀ limit ∈ node.reported, node.clock < limit.retryAfter →
    ∃ entry ∈ node.modelThrottles, entry.provider = limit.provider ∧ limit.retryAfter ≤ entry.until_
  parking : ∀ call modelThrottles limit now, node.calls call = .parking modelThrottles limit now →
    now ≤ node.clock
  recording : ∀ call modelThrottles limit now, node.calls call = .recording modelThrottles limit now →
    now ≤ node.clock

theorem start_kept (clock : Int) (modelThrottles : List FleetNodeModelThrottle) : Kept { clock, modelThrottles } := by
  constructor <;> simp

theorem Kept.moved (kept : node.Kept) (call : Nat) {next : ParkCall}
    (parking : ∀ modelThrottles limit now, next = .parking modelThrottles limit now → now ≤ node.clock)
    (recording : ∀ modelThrottles limit now, next = .recording modelThrottles limit now → now ≤ node.clock) :
    Kept { node with calls := Function.update node.calls call next } := by
  refine ⟨kept.clean, kept.covered, fun other modelThrottles limit now here => ?_,
    fun other modelThrottles limit now here => ?_⟩
  · by_cases same : other = call
    · subst same
      exact parking modelThrottles limit now ((Function.update_self ..).symm.trans here)
    · exact kept.parking other modelThrottles limit now ((Function.update_of_ne same ..).symm.trans here)
  · by_cases same : other = call
    · subst same
      exact recording modelThrottles limit now ((Function.update_self ..).symm.trans here)
    · exact kept.recording other modelThrottles limit now ((Function.update_of_ne same ..).symm.trans here)

variable (compare) in
theorem record_covers (kept : node.Kept) {call : Nat} {modelThrottles : List FleetNodeModelThrottle}
    {limit : FleetModelUsageLimit} {now : Int} (calls : node.calls call = .recording modelThrottles limit now)
    (current : node.writesCurrent (.record call) = true) :
    ∀ other ∈ node.reported ++ [limit], node.clock < other.retryAfter →
      ∃ entry ∈ (recordModelThrottle compare modelThrottles limit now).1,
        entry.provider = other.provider ∧ other.retryAfter ≤ entry.until_ := by
  have early : now ≤ node.clock := kept.recording call _ _ _ calls
  obtain ⟨own, listed, named, lasts, longest⟩ :=
    recordModelThrottle_own compare now modelThrottles limit
  intro other member force
  rcases mem_append.mp member with before | last
  · obtain ⟨entry, here, provider, longer⟩ := kept.covered other before force
    simp only [writesCurrent, calls, Bool.and_eq_true, all_eq_true, Bool.or_eq_true, decide_eq_true_eq,
      any_eq_true] at current
    rcases current.2 entry here with (over_ | ⟨mine, shorter⟩) | ⟨old, inside, same, shorter⟩
    · omega
    · exact ⟨own, listed, named.trans (mine.symm.trans provider), by omega⟩
    · have clean : cleanName old.provider = true := by
        rw [same, provider]
        exact kept.clean other before
      have force' : now < old.until_ := by omega
      obtain ⟨view, active, viewed, longer'⟩ := active_covers compare inside clean force'
      by_cases mine : view.provider = limit.provider
      · have ends := longest view active mine
        exact ⟨own, listed, by rw [named, ← mine, viewed, same, provider], by omega⟩
      · exact ⟨view, recordModelThrottle_others modelThrottles limit active mine,
          by rw [viewed, same, provider], by omega⟩
  · obtain rfl := mem_singleton.mp last
    exact ⟨own, listed, named, lasts⟩

theorem step_kept (kept : node.Kept) (event : ThrottleEvent) (current : node.writesCurrent event = true) :
    (node.step compare event).Kept := by
  cases event with
  | pass milliseconds =>
    refine ⟨kept.clean, fun limit member force => ?_, fun call _ _ now here => ?_, fun call _ _ now here => ?_⟩
    · refine kept.covered limit member ?_
      dsimp only [step] at force
      omega
    · have := kept.parking call _ _ now here
      dsimp only [step]
      omega
    · have := kept.recording call _ _ now here
      dsimp only [step]
      omega
  | authenticate call =>
    dsimp only [step]
    split
    · exact kept.moved call (by simp) (by simp)
    · exact kept
  | read call limit =>
    dsimp only [step]
    split
    · exact kept.moved call (by simp) (by simp)
    · exact kept.moved call (by simp) (by simp)
    · exact kept
  | park call parked =>
    dsimp only [step]
    split
    · next modelThrottles limit now calls =>
      have early : now ≤ node.clock := kept.parking call _ _ _ calls
      split
      · refine kept.moved call (by simp) ?_
        rintro _ _ _ ⟨⟩
        exact early
      · exact kept.moved call (by simp) (by simp)
    · exact kept
  | record call =>
    cases calls : node.calls call with
    | recording modelThrottles limit now =>
      have covers := record_covers compare kept calls current
      have clean : cleanName limit.provider = true := by
        simp only [writesCurrent, calls, Bool.and_eq_true] at current
        exact current.1
      have idle : Kept { node with calls := Function.update node.calls call .idle } :=
        kept.moved call (by simp) (by simp)
      simp only [step, calls]
      refine ⟨fun other member => ?_, covers, idle.parking, idle.recording⟩
      rcases mem_append.mp member with before | last
      · exact kept.clean other before
      · obtain rfl := mem_singleton.mp last
        exact clean
    | _ => simpa only [step, calls] using kept

theorem Kept.throttlesKept (kept : node.Kept) : node.ThrottlesKept := by
  intro _ limit member force
  obtain ⟨latest, among, last⟩ := Finset.exists_max_image
    (node.reported.filter (·.provider = limit.provider)).toFinset FleetModelUsageLimit.retryAfter
    ⟨limit, by simp [member]⟩
  simp only [mem_toFinset, mem_filter, decide_eq_true_eq] at among last
  have later := last limit ⟨member, rfl⟩
  obtain ⟨entry, listed, named, longer⟩ := kept.covered latest among.1 (by omega)
  refine ⟨entry, listed, named.trans among.2, fun other reported same => ?_⟩
  exact (last other ⟨reported, same⟩).trans longer

end ThrottledNode

open ThrottledNode

/-- Along every interleaving of a node's `completeJob` calls whose writes are made from a list that stands for what
they replace, no throttle in force is lost. -/
theorem throttles_never_lost (compare : LocaleCompare) (clock : Int) (modelThrottles : List FleetNodeModelThrottle)
    (events : List ThrottleEvent)
    (current : Along (step compare) (fun node event => node.writesCurrent event) { clock, modelThrottles } events) :
    (run (step compare) { clock, modelThrottles } events).ThrottlesKept := by
  have steps : ∀ (node : ThrottledNode) (event : ThrottleEvent), Kept node → node.writesCurrent event = true →
      Kept (node.step compare event) := fun _ event kept current => step_kept kept event current
  exact (run_along steps (start_kept clock modelThrottles) current).throttlesKept

def sameOrder : LocaleCompare := fun _ _ => 0

def weeklyLimit (provider : Utf16) (retryAfter : Int) : FleetModelUsageLimit :=
  ⟨provider, .weekly, retryAfter, ascii "limit"⟩

def parkCalls (call : Nat) (limit : FleetModelUsageLimit) : List ThrottleEvent :=
  [.authenticate call, .read call (some limit), .park call true, .record call]

theorem parks_in_turn_kept : (run (step sameOrder) { clock := 0, modelThrottles := [] }
    (parkCalls 0 (weeklyLimit (ascii "claude-code") 900) ++ .pass 10 ::
      parkCalls 1 (weeklyLimit (ascii "codex") 500))).ThrottlesKept := by
  refine throttles_never_lost sameOrder 0 [] _ ?_
  decide

def overlappingParks : List ThrottleEvent :=
  [.authenticate 0, .authenticate 1, .read 0 (some (weeklyLimit (ascii "claude-code") 900)),
    .read 1 (some (weeklyLimit (ascii "codex") 500)), .park 0 true, .park 1 true, .record 0, .record 1]

theorem overlapping_park_lost :
    ¬(run (step sameOrder) { clock := 0, modelThrottles := [] } overlappingParks).ThrottlesKept := by
  intro kept
  have idle : ∀ call, (run (step sameOrder) { clock := 0, modelThrottles := [] } overlappingParks).calls call =
      .idle := by
    intro call
    match call with
    | 0 => rfl
    | 1 => rfl
    | n + 2 => rfl
  have lost : ∀ entry ∈ (run (step sameOrder) { clock := 0, modelThrottles := [] } overlappingParks).modelThrottles,
      entry.provider ≠ ascii "claude-code" := by decide
  have reported : weeklyLimit (ascii "claude-code") 900 ∈
      (run (step sameOrder) { clock := 0, modelThrottles := [] } overlappingParks).reported := by decide
  obtain ⟨entry, listed, named, -⟩ := kept idle _ reported (by decide)
  exact lost entry listed named

end EverWorks.Fleet
