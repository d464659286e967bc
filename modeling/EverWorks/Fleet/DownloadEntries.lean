import EverWorks.Fleet.DownloadZip

/-!
What a stream that the tracker lets through holds: its headers, each with its bytes, within the limits.
-/

namespace EverWorks.Fleet
open Lib Lib.Utf16 Lib.Json List Option

structure FleetFilesStreamHeader.Limited (header : FleetFilesStreamHeader) : Prop where
  path : header.path.length ≤ filesPathMaxLength
  mode : header.mode < 512
  link : header.kind = .link ↔ header.target.isSome = true
  target : ∀ target, header.target = some target → target ≠ [] ∧ target.length ≤ filesPathMaxLength

theorem length_intercalate_le {α : Type*} (separator : α) {segments others : List (List α)}
    (sub : segments.Sublist others) :
    ([separator].intercalate segments).length ≤ ([separator].intercalate others).length := by
  have cons (segment : List α) (rest : List (List α)) :
      ([separator].intercalate (segment :: rest)).length =
        segment.length + if rest = [] then 0 else 1 + ([separator].intercalate rest).length := by
    cases rest with
    | nil => simp
    | cons next rest =>
      rw [intercalate_cons_cons, length_append, length_append, if_neg (cons_ne_nil _ _)]
      exact Nat.add_assoc _ _ _
  induction sub with
  | slnil => exact le_rfl
  | cons segment sub ih =>
    rw [cons]
    split_ifs with empty
    · rw [empty, sublist_nil] at sub
      rw [sub]
      exact Nat.zero_le _
    · omega
  | @cons_cons rest others segment sub ih =>
    rw [cons, cons]
    by_cases none : rest = []
    · rw [if_pos none]
      omega
    · have some : others ≠ [] := by
        rintro rfl
        exact none (sublist_nil.mp sub)
      rw [if_neg none, if_neg some]
      omega

theorem normalized_length {value : Option JsonValue} {path : Utf16}
    (ok : normalizeFleetFileRelativePath value = some path) : path.length ≤ filesPathMaxLength := by
  unfold normalizeFleetFileRelativePath at ok
  split at ok
  case h_3 text =>
    simp only [] at ok
    split_ifs at ok with empty long
    · cases ok
      exact Nat.zero_le _
    · cases ok
      refine (length_intercalate_le slash filter_sublist).trans ?_
      have whole : [slash].intercalate (splitPath text) = text := intercalate_splitOn slash
      rw [whole]
      omega
  case h_4 => cases ok
  all_goals
    cases ok
    exact Nat.zero_le _

theorem readMode_lt (value : Option JsonValue) : readMode value < 512 := by
  unfold readMode
  split
  · rename_i n
    split_ifs
    · unfold JsNumber.toUint
      split
      · rename_i value _
        have nonneg := Int.emod_nonneg (if 0 ≤ value then ⌊value⌋ else ⌈value⌉) (show (2 ^ 9 : Int) ≠ 0 by decide)
        have small := Int.emod_lt_of_pos (if 0 ≤ value then ⌊value⌋ else ⌈value⌉) (show (0 : Int) < 2 ^ 9 by decide)
        omega
      · decide
    · decide
  · decide

theorem readTarget_limits {value : Option JsonValue} {target : Utf16} (ok : readTarget value = some target) :
    target ≠ [] ∧ target.length ≤ filesPathMaxLength := by
  unfold readTarget at ok
  split at ok
  case h_1 text =>
    split_ifs at ok with bounds
    obtain rfl := some.inj ok
    simp only [Bool.or_eq_true, decide_eq_true_eq, not_or, not_lt] at bounds
    exact bounds
  case h_2 => cases ok

theorem sanitize_limited {value : JsonValue} {header : FleetFilesStreamHeader}
    (ok : sanitizeFleetFilesStreamHeader value = some header) : header.Limited := by
  unfold sanitizeFleetFilesStreamHeader at ok
  split at ok
  case h_2 => cases ok
  split at ok
  case h_2 => cases ok
  case h_1 raw _ kind path size _ normal _ =>
    simp only [] at ok
    split_ifs at ok with empty sized link
    · obtain ⟨target, read, same⟩ := map_eq_some_iff.mp ok
      subst same
      exact ⟨normalized_length normal, readMode_lt _, ⟨fun _ => rfl, fun _ => link⟩,
        fun found same => some.inj same ▸ readTarget_limits read⟩
    · obtain rfl := some.inj ok
      exact ⟨normalized_length normal, readMode_lt _, ⟨fun is => absurd is link, nofun⟩, nofun⟩

/-- A header with the bytes that came behind it. -/
structure DownloadEntry where
  header : FleetFilesStreamHeader
  bytes : List UInt8 := []

def addRecord (entries : List DownloadEntry) : FleetFilesRecord → List DownloadEntry
  | .header header => entries ++ [{ header }]
  | .bytes bytes =>
    match entries.getLast? with
    | some last => entries.dropLast ++ [{ last with bytes := last.bytes ++ bytes }]
    | none => []

def entriesOf (records : List FleetFilesRecord) : List DownloadEntry := records.foldl addRecord []

def DownloadEntry.content (entry : DownloadEntry) : List UInt8 :=
  match entry.header.kind with
  | .file => entry.bytes
  | .folder => []
  | .link => utf8 (entry.header.target.getD [])

def totalBytes (entries : List DownloadEntry) : Nat := (entries.map (·.bytes.length)).sum

structure Tracked (tracker : FleetFilesStreamTracker) (entries : List DownloadEntry) : Prop where
  count : tracker.entries = entries.length
  few : entries.length ≤ filesMaxEntries
  sum : tracker.bytes = totalBytes entries
  light : totalBytes entries ≤ filesMaxOpBytes
  current : tracker.current = entries.getLast?.map (·.header)
  remaining : ∀ last, entries.getLast? = some last → last.bytes.length + tracker.remaining = last.header.size
  idle : entries = [] → tracker.remaining = 0
  whole : ∀ entry ∈ entries.dropLast, entry.bytes.length = entry.header.size
  sized : ∀ entry ∈ entries, entry.header.kind ≠ .file → entry.header.size = 0

theorem tracked_new : Tracked .new [] where
  count := rfl
  few := Nat.zero_le _
  sum := rfl
  light := Nat.zero_le _
  current := rfl
  remaining := nofun
  idle _ := rfl
  whole := nofun
  sized := nofun

theorem totalBytes_append (front back : List DownloadEntry) :
    totalBytes (front ++ back) = totalBytes front + totalBytes back := by
  simp [totalBytes]

section
variable {tracker tracker' : FleetFilesStreamTracker} {entries : List DownloadEntry}

theorem Tracked.all_whole (tracked : Tracked tracker entries) (done : tracker.remaining = 0) :
    ∀ entry ∈ entries, entry.bytes.length = entry.header.size := by
  intro entry listed
  rcases eq_nil_or_concat entries with rfl | ⟨front, last, rfl⟩
  · cases listed
  · have value := tracked.remaining last (by simp)
    have before := tracked.whole
    rw [concat_eq_append, dropLast_concat] at before
    rw [concat_eq_append, mem_append, mem_singleton] at listed
    obtain inFront | rfl := listed
    · exact before entry inFront
    · omega

theorem tracked_header (tracked : Tracked tracker entries) {header : FleetFilesStreamHeader}
    (sized : header.kind ≠ .file → header.size = 0) (pushed : tracker.push (.header header) = .ok tracker') :
    Tracked tracker' (addRecord entries (.header header)) := by
  unfold FleetFilesStreamTracker.push at pushed
  split_ifs at pushed with owed many
  cases pushed
  have done : tracker.remaining = 0 := not_ne_iff.mp owed
  have whole := tracked.all_whole done
  have count := tracked.count
  exact {
    count := by
      rw [addRecord, length_append, ← count]
      rfl
    few := by
      rw [addRecord, length_append, length_singleton]
      omega
    sum := by
      rw [addRecord, totalBytes_append, ← tracked.sum]
      rfl
    light := by
      rw [addRecord, totalBytes_append]
      exact tracked.light
    current := by simp [addRecord]
    remaining := by
      intro last same
      rw [addRecord, getLast?_concat, some.injEq] at same
      subst same
      by_cases file : header.kind = .file
      · simp [file]
      · simp [file, sized file]
    idle := fun none => absurd none (by simp [addRecord])
    whole := by
      rw [addRecord, dropLast_concat]
      exact whole
    sized := by
      intro entry listed other
      rw [addRecord, mem_append, mem_singleton] at listed
      obtain before | rfl := listed
      · exact tracked.sized entry before other
      · exact sized other }

theorem tracked_bytes (tracked : Tracked tracker entries) {bytes : List UInt8}
    (pushed : tracker.push (.bytes bytes) = .ok tracker') :
    ∃ front last, entries = front ++ [last] ∧ last.header.kind = .file ∧
      Tracked tracker' (front ++ [{ last with bytes := last.bytes ++ bytes }]) := by
  unfold FleetFilesStreamTracker.push at pushed
  dsimp only at pushed
  split at pushed
  · cases pushed
  rename_i current open_
  split_ifs at pushed with other long heavy
  cases pushed
  rcases eq_nil_or_concat entries with rfl | ⟨front, last, rfl⟩
  · rw [tracked.current] at open_
    cases open_
  rw [concat_eq_append] at tracked
  have now := tracked.current
  rw [getLast?_concat, open_] at now
  obtain rfl := some.inj now
  have value := tracked.remaining last getLast?_concat
  have sum := tracked.sum
  have all : totalBytes (front ++ [{ last with bytes := last.bytes ++ bytes }]) =
      totalBytes (front ++ [last]) + bytes.length := by
    simp [totalBytes]
    omega
  refine ⟨front, last, by simp, not_ne_iff.mp other, ?_⟩
  exact {
    count := by
      have count := tracked.count
      simpa using count
    few := by
      have few := tracked.few
      simpa using few
    sum := by
      rw [all, ← sum]
    light := by
      rw [all, ← sum]
      omega
    current := by simp [open_]
    remaining := by
      intro found same
      rw [getLast?_concat, some.injEq] at same
      subst same
      simp only [length_append]
      omega
    idle := fun none => absurd none (by simp)
    whole := by
      have before := tracked.whole
      rw [dropLast_concat] at before ⊢
      exact before
    sized := by
      intro entry listed kind
      rw [mem_append, mem_singleton] at listed
      obtain before | rfl := listed
      · exact tracked.sized entry (mem_append_left _ before) kind
      · exact tracked.sized last (by simp) kind }

end

end EverWorks.Fleet
