import EverWorks.AppEnv.DotenvScan
import Mathlib.Data.List.Nodup

/-!
`scanLines` collects the assignments of a rendered text in order, `resolveDuplicates` keeps the last
of each name, and nothing is refused.
-/

namespace EverWorks.AppEnv
open List Option

open Lib Lib.Utf16

def Written.occurrence (written : Written) : Occurrence :=
  ⟨written.name, written.value.read, written.line⟩

variable {text : Utf16}

theorem scanLines_end {cursor : Nat} (done : text.length ≤ cursor) (lineNumber : Nat)
    (occurrences : List Occurrence) (refused : List AppEnvDotenvRefusal) :
    scanLines text cursor lineNumber occurrences refused = (occurrences, refused) := by
  rw [scanLines, if_neg (by omega)]

theorem writtenFrom_line (first : Nat) (line : DotenvLine) (rest : List DotenvLine) :
    writtenFrom first (line :: rest) = writtenFrom first [line] ++ writtenFrom (first + 1) rest := by
  cases line <;> rfl

variable {line : DotenvLine}

theorem writtenFrom_empty (empty : line.render = []) (first : Nat) :
    writtenFrom first [line] = [] := by
  cases line with
  | blank gap => rfl
  | comment indent text => rfl
  | assignment written => simp [DotenvLine.render, Assignment.render] at empty

theorem scanLines_step {cursor lineNumber next newlines : Nat}
    (scan : scanLine text cursor = ⟨next, newlines, line.outcome⟩) (inside : cursor < text.length)
    (forward : cursor < next) (occurrences : List Occurrence) (refused : List AppEnvDotenvRefusal) :
    scanLines text cursor lineNumber occurrences refused =
      scanLines text next (lineNumber + newlines)
        (occurrences ++ (writtenFrom lineNumber [line]).map Written.occurrence) refused := by
  rw [scanLines, if_pos inside]
  simp only [scan, forward, if_true]
  cases line <;> simp [DotenvLine.outcome, writtenFrom, Written.occurrence]

theorem scanLines_render (small : byteLength text ≤ appEnvValueMaxBytes) (closed : Bool)
    (lines : List DotenvLine) {cursor : Nat} (here : text.drop cursor = renderLines closed lines)
    (inside : cursor ≤ text.length) (lineNumber : Nat) (occurrences : List Occurrence)
    (refused : List AppEnvDotenvRefusal) :
    scanLines text cursor lineNumber occurrences refused =
      (occurrences ++ (writtenFrom lineNumber lines).map Written.occurrence, refused) := by
  induction lines generalizing cursor lineNumber occurrences with
  | nil =>
    have done : text.length ≤ cursor := drop_eq_nil_iff.mp here
    simp [scanLines_end done, writtenFrom]
  | cons line rest ih =>
    rw [writtenFrom_line, map_append, ← append_assoc]
    rw [renderLines] at here
    by_cases last : (rest.isEmpty && !closed) = true
    · have alone : rest = [] := by simp at last; exact last.1
      rw [if_pos last] at here
      have lengths := length_of_drop here inside
      by_cases done : text.length ≤ cursor
      · have empty : line.render = [] := eq_nil_of_length_eq_zero (by omega)
        simp [scanLines_end done, writtenFrom_empty empty, alone, writtenFrom]
      · have scan := scanLine_spec line here inside (.inl rfl) small
        simp only [length_nil] at lengths
        rw [scanLines_step scan (by omega) (by omega), scanLines_end (by omega), alone]
        simp [writtenFrom]
    · rw [if_neg last] at here
      have lengths := length_of_drop here inside
      have scan := scanLine_spec line here inside (.inr ⟨_, rfl⟩) small
      have one : min 1 (lineFeed :: renderLines closed rest).length = 1 := Nat.min_eq_left (by simp)
      rw [one] at scan
      have later := drop_succ_of_drop (drop_add_of_drop _ here)
      simp only [length_cons] at lengths
      rw [scanLines_step scan (by omega) (by omega), ih later (by omega)]

theorem normalizeNewlines_eq (stays : carriageReturn ∉ text) :
    normalizeNewlines text = text := by
  induction text using normalizeNewlines.induct with
  | case1 => rfl
  | case2 => simp at stays
  | case3 unit other => simp [normalizeNewlines, other]
  | case4 => simp at stays
  | case5 => simp at stays
  | case6 unit next rest other ih =>
    rw [mem_cons, not_or] at stays
    simp [normalizeNewlines, other, ih stays.2]

theorem renderLines_noReturn (closed : Bool) (lines : List DotenvLine) :
    carriageReturn ∉ renderLines closed lines := by
  induction lines with
  | nil => exact not_mem_nil
  | cons line rest ih =>
    rw [renderLines, mem_append, not_or]
    refine ⟨(inline_line line).2, ?_⟩
    split
    · exact not_mem_nil
    · exact not_mem_cons_of_ne_of_not_mem (by decide) ih

theorem head_gap {gap : Gap} {rest : Utf16} {unit : UInt16}
    (isHead : (gap.val ++ rest).head? = some unit) :
    isHorizontal unit = true ∨ rest.head? = some unit := by
  obtain ⟨gap, spaces⟩ := gap
  cases gap with
  | nil => exact .inr isHead
  | cons first gap =>
    simp only [cons_append, head?_cons, some.injEq] at isHead
    exact .inl (isHead ▸ spaces first mem_cons_self)

theorem head_line {unit : UInt16} (isHead : line.render.head? = some unit) :
    isHorizontal unit = true ∨ unit = hash ∨ isBodyStart unit = true := by
  cases line with
  | blank gap =>
    rw [DotenvLine.render, ← append_nil gap.val] at isHead
    rcases head_gap isHead with space | nothing
    · exact .inl space
    · exact absurd nothing (by simp)
  | comment indent text =>
    rcases head_gap isHead with space | isHash
    · exact .inl space
    · simp only [head?_cons, some.injEq] at isHash
      exact .inr (.inl isHash.symm)
  | assignment written =>
    rcases head_gap isHead with space | isBody
    · exact .inl space
    · obtain ⟨first, others, body, start⟩ := body_starts written.exportGap written.name
        (written.gap.val ++ equalsSign :: written.value.render)
      rw [body, head?_cons, some.injEq] at isBody
      exact .inr (.inr (isBody ▸ start))

theorem stripBom_renderLines (closed : Bool) (lines : List DotenvLine) :
    stripBom (renderLines closed lines) = renderLines closed lines := by
  cases isText : renderLines closed lines with
  | nil => rfl
  | cons unit rest =>
    suffices unit ≠ byteOrderMark by simp [stripBom, this]
    rintro rfl
    cases lines with
    | nil => simp [renderLines] at isText
    | cons line others =>
      rw [renderLines] at isText
      cases isLine : line.render with
      | nil =>
        rw [isLine, nil_append] at isText
        split at isText
        · simp at isText
        · simp only [List.cons.injEq] at isText
          exact absurd isText.1 (by decide)
      | cons first restOfLine =>
        rw [isLine, cons_append, List.cons.injEq] at isText
        have isHead : line.render.head? = some byteOrderMark := by simp [isLine, isText.1]
        rcases head_line isHead with
          space | isHash | start
        · exact absurd space (by decide)
        · exact absurd isHash (by decide)
        · exact absurd start (by decide)

theorem parse_render {text : DotenvText} (bytes : byteLength text.render ≤ appEnvDotenvMaxBytes)
    (lines : countLines text.render ≤ appEnvDotenvMaxLines) :
    parseAppEnvDotenv text.render =
      .parsed ⟨(resolveDuplicates (text.written.map Written.occurrence)).1, [],
        (resolveDuplicates (text.written.map Written.occurrence)).2, countLines text.render⟩ := by
  have same : normalizeNewlines (stripBom text.render) = text.render := by
    rw [DotenvText.render, stripBom_renderLines, normalizeNewlines_eq (renderLines_noReturn _ _)]
  have scanned : scanLines text.render 0 1 [] [] = (text.written.map Written.occurrence, []) := by
    exact scanLines_render bytes text.closed text.lines rfl (Nat.zero_le _) 1 [] []
  unfold parseAppEnvDotenv
  dsimp only
  rw [if_neg (by omega), same, if_neg (by omega), scanned]

def lastOf (occurrences : List Occurrence) (name : Utf16) : Option Occurrence :=
  occurrences.reverse.find? fun later => later.name = name

theorem lastOf_append (occurrences : List Occurrence) (last : Occurrence) (name : Utf16) :
    lastOf (occurrences ++ [last]) name =
      if name = last.name then some last else lastOf occurrences name := by
  by_cases same : name = last.name
  · simp [lastOf, same]
  · simp [lastOf, same, Ne.symm same]

variable {occurrences : List Occurrence}

theorem lastOf_isNone {name : Utf16} :
    lastOf occurrences name = none ↔ name ∉ occurrences.map (·.name) := by
  simp [lastOf]

structure Collected (occurrences : List Occurrence) (firstSeen : List Utf16)
    (winners : Utf16 → Option Occurrence) : Prop where
  winners_eq : ∀ name, winners name = lastOf occurrences name
  distinct : firstSeen.Nodup
  mem_iff : ∀ name, name ∈ firstSeen ↔ name ∈ occurrences.map (·.name)

theorem collectWinners_spec {firstSeen : List Utf16}
    {winners : Utf16 → Option Occurrence} (rest : List Occurrence)
    (collected : Collected occurrences firstSeen winners) :
    Collected (occurrences ++ rest) (collectWinners (firstSeen, winners) rest).1
      (collectWinners (firstSeen, winners) rest).2 := by
  induction rest generalizing occurrences firstSeen winners with
  | nil => simpa [collectWinners] using collected
  | cons occurrence rest ih =>
    rw [show occurrences ++ occurrence :: rest = (occurrences ++ [occurrence]) ++ rest by simp]
    refine ih ⟨?_, ?_, ?_⟩
    · intro name
      rw [lastOf_append, collected.winners_eq]
    · rw [collected.winners_eq]
      split
      case isTrue unseen =>
        have fresh : occurrence.name ∉ firstSeen := by
          rw [collected.mem_iff]
          exact lastOf_isNone.mp (isNone_iff_eq_none.mp unseen)
        refine nodup_append.mpr ⟨collected.distinct, nodup_singleton _, ?_⟩
        intro name seen other isLast
        rw [mem_singleton] at isLast
        exact fun same => fresh (isLast ▸ same ▸ seen)
      case isFalse => exact collected.distinct
    · intro name
      rw [collected.winners_eq]
      split
      case isTrue => simp [collected.mem_iff]
      case isFalse seen =>
        have present : occurrence.name ∈ occurrences.map (·.name) := by
          by_contra absent
          exact seen (isNone_iff_eq_none.mpr (lastOf_isNone.mpr absent))
        rw [collected.mem_iff, map_append, mem_append]
        constructor
        · exact .inl
        · rintro (before | here)
          · exact before
          · simp only [map_cons, map_nil, mem_singleton] at here
            exact here ▸ present

theorem lastOf_cases {name : Utf16} (present : name ∈ occurrences.map (·.name)) :
    ∃ winner, lastOf occurrences name = some winner := by
  cases found : lastOf occurrences name with
  | none => exact absurd present (lastOf_isNone.mp found)
  | some winner => exact ⟨winner, rfl⟩

theorem lastOf_spec (ordered : occurrences.Pairwise (·.line < ·.line))
    {name : Utf16} {winner : Occurrence} (found : lastOf occurrences name = some winner) :
    winner ∈ occurrences ∧ winner.name = name ∧
      ∀ occurrence ∈ occurrences, occurrence.name = name → occurrence.line ≤ winner.line := by
  induction occurrences using List.reverseRecOn with
  | nil => simp [lastOf] at found
  | append_singleton before last ih =>
    rw [pairwise_append] at ordered
    obtain ⟨ordered, -, increases⟩ := ordered
    rw [lastOf_append] at found
    split at found
    case isTrue same =>
      simp only [some.injEq] at found
      subst found
      refine ⟨by simp, same.symm, ?_⟩
      intro occurrence inside _
      rcases mem_append.mp inside with earlier | here
      · exact (increases occurrence earlier last mem_cons_self).le
      · exact (mem_singleton.mp here) ▸ Nat.le_refl _
    case isFalse other =>
      obtain ⟨inside, isName, latest⟩ := ih ordered found
      refine ⟨mem_append_left _ inside, isName, ?_⟩
      intro occurrence member same
      rcases mem_append.mp member with earlier | here
      · exact latest occurrence earlier same
      · rw [mem_singleton.mp here] at same
        exact absurd same.symm other

theorem collected_all (occurrences : List Occurrence) :
    Collected occurrences (collectWinners ([], fun _ => none) occurrences).1
      (collectWinners ([], fun _ => none) occurrences).2 := by
  have start : Collected [] [] (fun _ => none) := ⟨fun _ => rfl, nodup_nil, by simp⟩
  simpa using collectWinners_spec occurrences start

theorem entries_spec (occurrences : List Occurrence) :
    ((resolveDuplicates occurrences).1.map (·.name)).Nodup ∧
      (∀ name, name ∈ (resolveDuplicates occurrences).1.map (·.name) ↔
        name ∈ occurrences.map (·.name)) ∧
      ∀ entry ∈ (resolveDuplicates occurrences).1, ∃ winner,
        lastOf occurrences entry.name = some winner ∧ entry.value = winner.value ∧
          entry.line = winner.line := by
  have collected := collected_all occurrences
  obtain ⟨firstSeen, isSeen⟩ : ∃ seen, seen = (collectWinners ([], fun _ => none) occurrences).1 := ⟨_, rfl⟩
  obtain ⟨winners, isWinners⟩ : ∃ winners, winners = (collectWinners ([], fun _ => none) occurrences).2 :=
    ⟨_, rfl⟩
  rw [← isSeen, ← isWinners] at collected
  have entries : (resolveDuplicates occurrences).1 = firstSeen.filterMap fun name =>
      (winners name).map fun winner => ⟨name, winner.value, winner.line⟩ := by
    rw [isSeen, isWinners]
    rfl
  have names : (resolveDuplicates occurrences).1.map (·.name) = firstSeen := by
    rw [entries, map_filterMap]
    have each : ∀ name ∈ firstSeen, (((winners name).map fun winner =>
        (⟨name, winner.value, winner.line⟩ : AppEnvDotenvEntry)).map (·.name)) = some name := by
      intro name inside
      obtain ⟨winner, found⟩ := lastOf_cases ((collected.mem_iff name).mp inside)
      simp [collected.winners_eq, found]
    rw [filterMap_congr each, filterMap_some]
  refine ⟨names ▸ collected.distinct, fun name => names ▸ collected.mem_iff name, ?_⟩
  intro entry inside
  rw [entries, mem_filterMap] at inside
  obtain ⟨name, -, made⟩ := inside
  rw [collected.winners_eq, map_eq_some_iff] at made
  obtain ⟨winner, found, rfl⟩ := made
  exact ⟨winner, found, rfl, rfl⟩

theorem superseded_eq_some {winners : Utf16 → Option Occurrence} {occurrence : Occurrence}
    {duplicate : AppEnvDotenvDuplicate} :
    superseded winners occurrence = some duplicate ↔ ∃ winner, winners occurrence.name = some winner ∧
      winner.line ≠ occurrence.line ∧ duplicate = ⟨occurrence.line, occurrence.name, winner.line⟩ := by
  unfold superseded
  cases winners occurrence.name with
  | none => simp
  | some winner =>
    by_cases same : winner.line = occurrence.line
    · simp [same]
    · simp only [ne_eq, same, not_false_iff, if_true, some.injEq]
      constructor
      · rintro rfl
        exact ⟨winner, rfl, same, rfl⟩
      · rintro ⟨_, rfl, -, rfl⟩
        rfl

/-- Each occurrence that does not win is listed once, in order, with the line that wins. -/
theorem duplicates_spec
    (ordered : occurrences.Pairwise (·.line < ·.line)) :
    (resolveDuplicates occurrences).2.Pairwise (·.line < ·.line) ∧
      ∀ duplicate, duplicate ∈ (resolveDuplicates occurrences).2 ↔
        ∃ occurrence ∈ occurrences, ∃ winner, lastOf occurrences occurrence.name = some winner ∧
          occurrence.line < winner.line ∧
          duplicate = ⟨occurrence.line, occurrence.name, winner.line⟩ := by
  have collected := collected_all occurrences
  have winners : (collectWinners ([], fun _ => none) occurrences).2 = lastOf occurrences :=
    funext collected.winners_eq
  have duplicates : (resolveDuplicates occurrences).2 =
      occurrences.filterMap (superseded (lastOf occurrences)) := by
    rw [← winners]
    rfl
  rw [duplicates]
  constructor
  · refine pairwise_filterMap.mpr (ordered.imp ?_)
    intro first second less _ fromFirst _ fromSecond
    obtain ⟨_, -, -, rfl⟩ := superseded_eq_some.mp fromFirst
    obtain ⟨_, -, -, rfl⟩ := superseded_eq_some.mp fromSecond
    exact less
  · intro duplicate
    rw [mem_filterMap]
    constructor
    · rintro ⟨occurrence, inside, made⟩
      obtain ⟨winner, found, apart, same⟩ := superseded_eq_some.mp made
      have latest := (lastOf_spec ordered found).2.2 occurrence inside rfl
      exact ⟨occurrence, inside, winner, found, by omega, same⟩
    · rintro ⟨occurrence, inside, winner, found, less, same⟩
      exact ⟨occurrence, inside, superseded_eq_some.mpr ⟨winner, found, by omega, same⟩⟩

theorem writtenFrom_ordered (first : Nat) (lines : List DotenvLine) :
    (∀ written ∈ writtenFrom first lines, first ≤ written.line) ∧
      (writtenFrom first lines).Pairwise (·.line < ·.line) := by
  induction lines generalizing first with
  | nil => simp [writtenFrom]
  | cons line rest ih =>
    obtain ⟨later, ordered⟩ := ih (first + 1)
    have after : ∀ written ∈ writtenFrom (first + 1) rest, first ≤ written.line :=
      fun written inside => Nat.le_of_succ_le (later written inside)
    cases line with
    | blank gap => exact ⟨after, ordered⟩
    | comment indent text => exact ⟨after, ordered⟩
    | assignment assigned =>
      exact ⟨forall_mem_cons.mpr ⟨Nat.le_refl _, after⟩,
        pairwise_cons.mpr ⟨later, ordered⟩⟩

theorem occurrences_ordered (text : DotenvText) :
    (text.written.map Written.occurrence).Pairwise (·.line < ·.line) :=
  pairwise_map.mpr (writtenFrom_ordered 1 text.lines).2

theorem lastOf_written (written : List Written) (name : Utf16) :
    lastOf (written.map Written.occurrence) name = (lastWritten written name).map Written.occurrence := by
  rw [lastOf, ← map_reverse, find?_map, lastWritten]
  rfl

theorem read_iff_stated (value : ValueText) :
    value.read = value.stated ↔ value.opensComment = false := by
  cases value with
  | quoted before value after comment => simp [ValueText.read, ValueText.stated, ValueText.opensComment]
  | unquoted raw plain => exact read_eq_stated_iff raw.val

/-- Within its limits a rendered text is parsed without a refusal into one entry for each name, on the
line of its last assignment and with the value that line states unless a comment opens it, and every
earlier assignment is listed once with the line that wins. An unquoted value of any text is what its line
states under the same condition. -/
theorem dotenv_round_trip (text : DotenvText) :
    (byteLength text.render ≤ appEnvDotenvMaxBytes → countLines text.render ≤ appEnvDotenvMaxLines →
      ∃ result, parseAppEnvDotenv text.render = .parsed result ∧ result.refused = [] ∧
        (result.entries.map (·.name)).Nodup ∧
        (∀ name, name ∈ result.entries.map (·.name) ↔ ∃ written ∈ text.written, written.name = name) ∧
        (∀ entry ∈ result.entries, ∃ winner, lastWritten text.written entry.name = some winner ∧
          entry.line = winner.line ∧
          (entry.value = winner.value.stated ↔ winner.value.opensComment = false)) ∧
        result.duplicates.Pairwise (·.line < ·.line) ∧
        ∀ duplicate, duplicate ∈ result.duplicates ↔ ∃ written ∈ text.written, ∃ winner,
          lastWritten text.written written.name = some winner ∧ written.line < winner.line ∧
          duplicate = ⟨written.line, written.name, winner.line⟩) ∧
    ∀ (units : Utf16) (start lineEnd next newlines : Nat),
      opensQuote (slice units start lineEnd) = false →
      ∃ value, scanValue units start lineEnd next newlines = ⟨next, newlines, .value value⟩ ∧
        (value = trimHorizontal (beforeComment (slice units start lineEnd)) ↔
          opensComment (slice units start lineEnd) = false) := by
  constructor
  · intro bytes lines
    obtain ⟨distinct, names, values⟩ := entries_spec (text.written.map Written.occurrence)
    obtain ⟨ordered, listed⟩ := duplicates_spec (occurrences_ordered text)
    refine ⟨_, parse_render bytes lines, rfl, distinct, ?_, ?_, ordered, ?_⟩
    · intro name
      rw [names, List.map_map, List.mem_map]
      rfl
    · intro entry inside
      obtain ⟨winner, found, value, line⟩ := values entry inside
      rw [lastOf_written, map_eq_some_iff] at found
      obtain ⟨written, isLast, rfl⟩ := found
      exact ⟨written, isLast, line, value ▸ read_iff_stated written.value⟩
    · intro duplicate
      rw [listed]
      constructor
      · rintro ⟨occurrence, inside, winner, found, less, same⟩
        obtain ⟨written, member, rfl⟩ := mem_map.mp inside
        rw [lastOf_written, map_eq_some_iff] at found
        obtain ⟨last, isLast, rfl⟩ := found
        exact ⟨written, member, last, isLast, less, same⟩
      · rintro ⟨written, member, last, isLast, less, same⟩
        refine ⟨written.occurrence, mem_map_of_mem member, last.occurrence, ?_, less, same⟩
        rw [lastOf_written]
        exact congrArg (Option.map Written.occurrence) isLast
  · intro units start lineEnd next newlines plain
    exact ⟨_, scanValue_unquoted next newlines plain, read_eq_stated_iff _⟩

/-- `A= #x` -/
def commentedLine : DotenvText :=
  ⟨[.assignment ⟨⟨[], by simp⟩, none, ⟨[0x41], by decide⟩, ⟨[], by simp⟩,
    .unquoted ⟨[space, hash, 0x78], by unfold Inline; decide⟩ (by decide)⟩], false⟩

/-- The comment of an empty value is read as the value. -/
theorem comment_read_as_value :
    parseAppEnvDotenv commentedLine.render =
      .parsed ⟨[⟨[0x41], [hash, 0x78], 1⟩], [], [], 1⟩ ∧
    commentedLine.written.map (·.value.stated) = [[]] := by
  have bytes : byteLength commentedLine.render ≤ appEnvDotenvMaxBytes := by decide
  have lines : countLines commentedLine.render ≤ appEnvDotenvMaxLines := by decide
  rw [parse_render bytes lines]
  decide

end EverWorks.AppEnv
