import EverWorks.AppEnv.DotenvQuotes

/-!
The lines the scanner comes to in order, the outcomes they leave, and when none of them lies inside a quoted value.
-/

namespace EverWorks.AppEnv
open Lib Lib.Utf16 List Option

variable {text : Utf16} {start : Nat}

def cursors (text : Utf16) (cursor : Nat) : List Nat :=
  if cursor < text.length then cursor :: cursors text (scanNext text cursor) else []
termination_by text.length - cursor
decreasing_by
  rename_i inside
  have := (forward_scan inside).later
  omega

theorem cursors_inside (inside : start < text.length) : cursors text start = start :: cursors text (scanNext text start) := by
  rw [cursors, if_pos inside]

theorem cursors_done (done : text.length ≤ start) : cursors text start = [] := by
  rw [cursors, if_neg (Nat.not_lt.mpr done)]

theorem cursors_spec (text : Utf16) (start : Nat) :
    (∀ cursor ∈ cursors text start, start ≤ cursor ∧ cursor < text.length) ∧
      (cursors text start).Pairwise (lineAt text · < lineAt text ·) := by
  induction start using cursors.induct text with
  | case1 start inside ih =>
    have forward := forward_scan inside
    obtain ⟨within, ordered⟩ := ih
    rw [cursors_inside inside]
    refine ⟨forall_mem_cons.mpr ⟨⟨le_rfl, inside⟩, fun cursor mem => ?_⟩,
      pairwise_cons.mpr ⟨fun cursor mem => ?_, ordered⟩⟩
    · exact ⟨forward.later.le.trans (within cursor mem).1, (within cursor mem).2⟩
    · obtain ⟨after, room⟩ := within cursor mem
      exact (forward.lineAt_lt (after.trans_lt room)).trans_le (lineAt_mono after)
  | case2 start done =>
    rw [cursors_done (Nat.not_lt.mp done)]
    exact ⟨nofun, List.Pairwise.nil⟩

variable {cursor : Nat}

theorem cursors_next (mem : cursor ∈ cursors text start) :
    (scanNext text cursor < text.length → scanNext text cursor ∈ cursors text start) ∧
      ∀ other ∈ cursors text start, other ≤ cursor ∨ scanNext text cursor ≤ other := by
  induction start using cursors.induct text with
  | case1 start inside ih =>
    have after := (cursors_spec text (scanNext text start)).1
    have forward := forward_scan inside
    rw [cursors_inside inside] at mem ⊢
    rcases mem_cons.mp mem with rfl | mem
    · refine ⟨fun room => ?_, forall_mem_cons.mpr ⟨Or.inl le_rfl, fun other mem => Or.inr (after other mem).1⟩⟩
      rw [cursors_inside room]
      exact mem_cons_of_mem _ mem_cons_self
    · obtain ⟨next, others⟩ := ih mem
      refine ⟨fun room => mem_cons_of_mem _ (next room), forall_mem_cons.mpr ⟨Or.inl ?_, others⟩⟩
      exact forward.later.le.trans (after cursor mem).1
  | case2 start done =>
    rw [cursors_done (Nat.not_lt.mp done)] at mem
    cases mem

def occurrenceAt (text : Utf16) (cursor : Nat) : Option Occurrence :=
  match (scanLine text cursor).outcome with
  | .entry name value => some ⟨name, value, lineAt text cursor⟩
  | _ => none

def refusalAt (text : Utf16) (cursor : Nat) : Option AppEnvDotenvRefusal :=
  match (scanLine text cursor).outcome with
  | .refusal reason => some ⟨lineAt text cursor, reason, refusalMessage (lineAt text cursor) reason⟩
  | _ => none

theorem scanLines_cursors (text : Utf16) (start : Nat) (occurrences : List Occurrence)
    (refused : List AppEnvDotenvRefusal) :
    scanLines text start (lineAt text start) occurrences refused =
      (occurrences ++ (cursors text start).filterMap (occurrenceAt text),
        refused ++ (cursors text start).filterMap (refusalAt text)) := by
  induction start using cursors.induct text generalizing occurrences refused with
  | case1 start inside ih =>
    have scanned : LineScanned text start (scanLine text start) := scanLine_scanned inside.le
    have next : (if start < (scanLine text start).next then (scanLine text start).next else text.length) =
        scanNext text start := by
      rw [scanned.next, if_pos (forward_scan inside).later]
    rw [scanLines, if_pos inside, cursors_inside inside]
    simp only [next, scanned.newlines, ih]
    cases outcome : (scanLine text start).outcome <;> simp [occurrenceAt, refusalAt, outcome]
  | case2 start done =>
    rw [scanLines_end (Nat.not_lt.mp done), cursors_done (Nat.not_lt.mp done)]
    simp

def outcomeLines (result : AppEnvDotenvParsed) : List Nat :=
  result.entries.map (·.line) ++ result.duplicates.map (·.line) ++ result.refused.map (·.line)

/-- A line whose quoted value closes below has at most one outcome, and the lines inside the quotes have none. -/
def KeptTogether (text : Utf16) (result : AppEnvDotenvParsed) : Prop :=
  ∀ start name close, LogicalLine text start → Spans text start name close →
    (outcomeLines result).count (lineAt text start) ≤ 1 ∧
      ∀ line ∈ outcomeLines result, ¬ (lineAt text start < line ∧ line ≤ lineAt text close)

theorem resolved_lines {occurrences : List Occurrence} (ordered : occurrences.Pairwise (·.line < ·.line)) :
    ((resolveDuplicates occurrences).1.map (·.line) ++ (resolveDuplicates occurrences).2.map (·.line)).Nodup ∧
      ∀ line, line ∈ (resolveDuplicates occurrences).1.map (·.line) ++ (resolveDuplicates occurrences).2.map (·.line) ↔
        line ∈ occurrences.map (·.line) := by
  have apart : (occurrences.map (·.line)).Nodup := (pairwise_map.mpr ordered).imp Nat.ne_of_lt
  have one {first second : Occurrence} (mem : first ∈ occurrences) (mem' : second ∈ occurrences)
      (same : first.line = second.line) : first = second := inj_on_of_nodup_map apart mem mem' same
  obtain ⟨distinct, names, values⟩ := entries_spec occurrences
  obtain ⟨increasing, listed⟩ := duplicates_spec ordered
  constructor
  · refine nodup_append.mpr ⟨List.Nodup.map_on ?_ (List.Nodup.of_map _ distinct),
      (pairwise_map.mpr increasing).imp Nat.ne_of_lt, ?_⟩
    · intro first mem second mem' same
      obtain ⟨winner, found, -, line⟩ := values first mem
      obtain ⟨winner', found', -, line'⟩ := values second mem'
      obtain ⟨inside, name, -⟩ := lastOf_spec ordered found
      obtain ⟨inside', name', -⟩ := lastOf_spec ordered found'
      have winners := one inside inside' (line ▸ line' ▸ same)
      exact inj_on_of_nodup_map distinct mem mem' (name ▸ name' ▸ congrArg Occurrence.name winners)
    · rintro line fromEntry _ fromDuplicate rfl
      obtain ⟨entry, mem, rfl⟩ := mem_map.mp fromEntry
      obtain ⟨duplicate, mem', same⟩ := mem_map.mp fromDuplicate
      obtain ⟨winner, found, -, line⟩ := values entry mem
      obtain ⟨occurrence, inside', winner', found', less, rfl⟩ := (listed duplicate).mp mem'
      obtain ⟨inside, name, -⟩ := lastOf_spec ordered found
      have winners := one inside' inside (same.trans line)
      rw [winners, name, found] at found'
      obtain rfl := some.inj found'
      exact absurd (winners ▸ less) (Nat.lt_irrefl _)
  · intro line
    rw [mem_append, List.mem_map, List.mem_map, List.mem_map]
    constructor
    · rintro (⟨entry, mem, rfl⟩ | ⟨duplicate, mem, rfl⟩)
      · obtain ⟨winner, found, -, line⟩ := values entry mem
        exact ⟨winner, (lastOf_spec ordered found).1, line.symm⟩
      · obtain ⟨occurrence, inside, -, -, -, rfl⟩ := (listed duplicate).mp mem
        exact ⟨occurrence, inside, rfl⟩
    · rintro ⟨occurrence, mem, rfl⟩
      have present : occurrence.name ∈ occurrences.map (·.name) := mem_map_of_mem mem
      obtain ⟨winner, found⟩ := lastOf_cases present
      obtain ⟨inside, -, latest⟩ := lastOf_spec ordered found
      rcases (latest occurrence mem rfl).lt_or_eq with less | same
      · exact Or.inr ⟨_, (listed _).mpr ⟨occurrence, mem, winner, found, less, rfl⟩, rfl⟩
      · obtain ⟨entry, member, name⟩ := mem_map.mp ((names _).mpr present)
        obtain ⟨winner', found', -, line⟩ := values entry member
        rw [name, found] at found'
        obtain rfl := some.inj found'
        exact Or.inl ⟨entry, member, line.trans same.symm⟩

theorem occurrenceAt_eq_some {occurrence : Occurrence}
    (found : occurrenceAt text cursor = some occurrence) :
    (scanLine text cursor).outcome = .entry occurrence.name occurrence.value ∧ occurrence.line = lineAt text cursor := by
  rw [occurrenceAt] at found
  split at found
  · rename_i outcome
    obtain rfl := some.inj found
    exact ⟨outcome, rfl⟩
  · cases found

theorem refusalAt_eq_some {refusal : AppEnvDotenvRefusal} (found : refusalAt text cursor = some refusal) :
    (scanLine text cursor).outcome = .refusal refusal.reason ∧ refusal.line = lineAt text cursor := by
  rw [refusalAt] at found
  split at found
  · rename_i outcome
    obtain rfl := some.inj found
    exact ⟨outcome, rfl⟩
  · cases found

structure ParsedFrom (text : Utf16) (result : AppEnvDotenvParsed) : Prop where
  resolved : (result.entries, result.duplicates) = resolveDuplicates ((cursors text 0).filterMap (occurrenceAt text))
  refused : result.refused = (cursors text 0).filterMap (refusalAt text)

variable {result : AppEnvDotenvParsed}

theorem parsedFrom_of_parse {source : Utf16}
    (parse : parseAppEnvDotenv source = .parsed result) : ParsedFrom (normalizeNewlines (stripBom source)) result := by
  have scanned := scanLines_cursors (normalizeNewlines (stripBom source)) 0 [] []
  have first : lineAt (normalizeNewlines (stripBom source)) 0 = 1 := rfl
  rw [first, nil_append, nil_append] at scanned
  rw [parseAppEnvDotenv] at parse
  simp only [scanned] at parse
  split at parse
  · cases parse
  · split at parse
    · cases parse
    · obtain rfl := AppEnvDotenvParseResult.parsed.inj parse
      exact ⟨rfl, rfl⟩

theorem occurrences_pairwise (text : Utf16) (start : Nat) :
    ((cursors text start).filterMap (occurrenceAt text)).Pairwise (·.line < ·.line) := by
  refine pairwise_filterMap.mpr ((cursors_spec text start).2.imp ?_)
  intro first second less occurrence found later found'
  rw [(occurrenceAt_eq_some found).2, (occurrenceAt_eq_some found').2]
  exact less

theorem refusals_pairwise (text : Utf16) (start : Nat) :
    ((cursors text start).filterMap (refusalAt text)).Pairwise (·.line < ·.line) := by
  refine pairwise_filterMap.mpr ((cursors_spec text start).2.imp ?_)
  intro first second less refusal found later found'
  rw [(refusalAt_eq_some found).2, (refusalAt_eq_some found').2]
  exact less

theorem cursor_eq {first second : Nat} (mem : first ∈ cursors text start) (mem' : second ∈ cursors text start)
    (same : lineAt text first = lineAt text second) : first = second :=
  inj_on_of_nodup_map ((pairwise_map.mpr (cursors_spec text start).2).imp Nat.ne_of_lt) mem mem' same

theorem outcomeLines_spec (parsed : ParsedFrom text result) :
    (outcomeLines result).Nodup ∧ ∀ line, line ∈ outcomeLines result ↔
      ∃ cursor ∈ cursors text 0, lineAt text cursor = line ∧ isSilentLine text cursor = false := by
  have entries := congrArg Prod.fst parsed.resolved
  have duplicates := congrArg Prod.snd parsed.resolved
  simp only at entries duplicates
  obtain ⟨distinct, lines⟩ := resolved_lines (occurrences_pairwise text 0)
  have blank {cursor : Nat} (mem : cursor ∈ cursors text 0) :
      (scanLine text cursor).outcome = .blank ↔ isSilentLine text cursor = true :=
    (scanLine_scanned ((cursors_spec text 0).1 cursor mem).2.le).blank
  rw [outcomeLines, entries, duplicates, parsed.refused]
  constructor
  · refine nodup_append.mpr ⟨distinct, (pairwise_map.mpr (refusals_pairwise text 0)).imp Nat.ne_of_lt, ?_⟩
    rintro line resolved _ refused rfl
    rw [lines] at resolved
    obtain ⟨occurrence, mem, rfl⟩ := mem_map.mp resolved
    obtain ⟨refusal, mem', same⟩ := mem_map.mp refused
    obtain ⟨cursor, inside, found⟩ := mem_filterMap.mp mem
    obtain ⟨cursor', inside', found'⟩ := mem_filterMap.mp mem'
    obtain ⟨isEntry, line⟩ := occurrenceAt_eq_some found
    obtain ⟨isRefusal, line'⟩ := refusalAt_eq_some found'
    obtain rfl := cursor_eq inside' inside (line' ▸ line ▸ same)
    rw [isEntry] at isRefusal
    cases isRefusal
  · intro line
    rw [mem_append, lines]
    constructor
    · rintro (occurs | refused)
      · obtain ⟨occurrence, mem, rfl⟩ := mem_map.mp occurs
        obtain ⟨cursor, inside, found⟩ := mem_filterMap.mp mem
        obtain ⟨isEntry, line⟩ := occurrenceAt_eq_some found
        refine ⟨cursor, inside, line.symm, ?_⟩
        rw [← Bool.not_eq_true, ← blank inside, isEntry]
        exact nofun
      · obtain ⟨refusal, mem, rfl⟩ := mem_map.mp refused
        obtain ⟨cursor, inside, found⟩ := mem_filterMap.mp mem
        obtain ⟨isRefusal, line⟩ := refusalAt_eq_some found
        refine ⟨cursor, inside, line.symm, ?_⟩
        rw [← Bool.not_eq_true, ← blank inside, isRefusal]
        exact nofun
    · rintro ⟨cursor, inside, rfl, loud⟩
      rw [← Bool.not_eq_true, ← blank inside] at loud
      cases outcome : (scanLine text cursor).outcome with
      | blank => exact absurd outcome loud
      | refusal reason =>
        have found : refusalAt text cursor = some ⟨lineAt text cursor, reason, refusalMessage (lineAt text cursor) reason⟩ := by
          rw [refusalAt, outcome]
        exact Or.inr (mem_map.mpr ⟨_, mem_filterMap.mpr ⟨cursor, inside, found⟩, rfl⟩)
      | entry name value =>
        have found : occurrenceAt text cursor = some ⟨name, value, lineAt text cursor⟩ := by rw [occurrenceAt, outcome]
        exact Or.inl (mem_map.mpr ⟨_, mem_filterMap.mpr ⟨cursor, inside, found⟩, rfl⟩)

theorem scanNext_silent (silent : isSilentLine text start = true) : scanNext text start = lineNext text start := by
  rw [scanNext, quotedAt, if_pos silent]

theorem cursors_starts (mem : cursor ∈ cursors text start) :
    cursor = start ∨ text[cursor - 1]? = some lineFeed := by
  induction start using cursors.induct text with
  | case1 start inside ih =>
    rw [cursors_inside inside] at mem
    rcases mem_cons.mp mem with rfl | mem
    · exact Or.inl rfl
    · rcases ih mem with rfl | breaks
      · exact Or.inr ((forward_scan inside).starts ((cursors_spec text _).1 _ mem).2)
      · exact Or.inr breaks
  | case2 start done =>
    rw [cursors_done (Nat.not_lt.mp done)] at mem
    cases mem

theorem lineNext_le_of_break {target : Nat} (order : start < target) (breaks : text[target - 1]? = some lineFeed) :
    lineNext text start ≤ target := by
  rcases lineNext_cases text start with ⟨-, -, absent⟩ | ⟨stop, -, next, -, -, earlier⟩
  · exact absurd breaks (absent (target - 1) (by omega))
  · by_contra beyond
    exact earlier (target - 1) (by omega) (by omega) breaks

theorem walk {target : Nat} (mem : start ∈ cursors text 0) (order : start ≤ target) (inside : target < text.length)
    (breaks : start < target → text[target - 1]? = some lineFeed)
    (silent : ∀ inner, start ≤ inner → inner < target → inner = start ∨ text[inner - 1]? = some lineFeed →
      isSilentLine text inner = true) : target ∈ cursors text 0 := by
  induction left : target - start using Nat.strong_induction_on generalizing start with
  | _ left ih =>
    rcases order.eq_or_lt with rfl | less
    · exact mem
    · have room := less.trans inside
      have quiet := scanNext_silent (silent start le_rfl less (Or.inl rfl))
      have forward := forward_line room
      have within := lineNext_le_of_break less (breaks less)
      have next := (cursors_next mem).1 (quiet ▸ within.trans_lt inside)
      rw [quiet] at next
      have later := forward.later
      refine ih (target - lineNext text start) (by omega) next within (fun _ => breaks less) ?_ rfl
      intro inner from_ until_ starts
      refine silent inner (later.le.trans from_) until_ (Or.inr ?_)
      rcases starts with rfl | starts
      · exact forward.starts (until_.trans inside)
      · exact starts

theorem logicalNext_inside (inside : logicalNext text start < text.length) : start < text.length := by
  by_contra beyond
  have none : quotedAt text start = none := by
    cases quoted : quotedAt text start with
    | none => rfl
    | some found =>
      obtain ⟨later, before, -⟩ := quotedAt_spec quoted
      have := stop_le text start
      omega
  rw [logicalNext, none] at inside
  rcases lineNext_cases text start with ⟨-, next, -⟩ | ⟨stop, -, next, from_, -, -⟩
  · simp only [next, Nat.lt_irrefl] at inside
  · simp only [next] at inside
    omega

theorem lineNext_beyond {close : Nat} (from_ : start ≤ close) (here : text[close]? = some doubleQuote)
    (before : close < lineNext text start) : lineNext text (close + 1) = lineNext text start := by
  refine lineNext_inside from_ ?_
  rcases lineNext_cases text start with ⟨found, next, -⟩ | ⟨stop, found, next, -, breaks, -⟩
  · rw [found, getD_none, ← next]
    exact before
  · have apart : close ≠ stop := by
      rintro rfl
      rw [here] at breaks
      exact absurd breaks (by decide)
    rw [found, getD_some]
    omega

theorem reach (line : LogicalLine text start) (inside : start < text.length)
    (reads : ∀ before name close, before < start → LogicalLine text before → Spans text before name close →
      ReadsOrSilent text before name close) : start ∈ cursors text 0 := by
  induction line with
  | first =>
    rw [cursors_inside inside]
    exact mem_cons_self
  | @next start line ih =>
    have room := logicalNext_inside inside
    have forward := forward_logical room
    have mem := ih room fun before name close less => reads before name close (less.trans forward.later)
    have stays (same : scanNext text start = logicalNext text start) : logicalNext text start ∈ cursors text 0 :=
      same ▸ (cursors_next mem).1 (same ▸ inside)
    cases quoted : quotedAt text start with
    | none => exact stays (by rw [scanNext, logicalNext, quoted])
    | some found =>
      obtain ⟨name, opening⟩ := found
      by_cases taken : readsName name = true
      · exact stays (by rw [scanNext, quoted]; exact if_pos taken)
      · have skips : scanNext text start = lineNext text start := by
          rw [scanNext, quoted]
          exact if_neg taken
        have after := (quotedAt_spec quoted).1
        cases closes : closingQuote text opening with
        | none =>
          rw [logicalNext, quoted] at inside
          simp only [closes, Nat.lt_irrefl] at inside
        | some close =>
          obtain ⟨later, here⟩ := closingQuote_spec closes
          have target : logicalNext text start = lineNext text (close + 1) := by
            rw [logicalNext, quoted]
            simp only [closes]
          by_cases within : lineNext text start ≤ close
          · have first := forward_line room
            have closeInside : close < text.length := (List.getElem?_eq_some_iff.mp here).1
            have below := (first.lineAt_lt (within.trans_lt closeInside)).trans_le (lineAt_mono within)
            have silent := (reads start name close forward.later line ⟨⟨opening, quoted, closes⟩, below⟩).resolve_left taken
            have next := (cursors_next mem).1 (skips ▸ within.trans_lt closeInside)
            rw [skips] at next
            have behind : close + 1 ≤ lineNext text (close + 1) := le_lineNext closeInside
            rw [target] at inside forward ⊢
            refine walk next (by omega) inside (fun _ => forward.starts inside) fun inner from_ until_ starts => ?_
            have breaks : text[inner - 1]? = some lineFeed := by
              rcases starts with rfl | starts
              · exact first.starts (within.trans_lt closeInside)
              · exact starts
            rcases Nat.lt_or_ge close inner with beyond | inner_le
            · have apart : inner - 1 ≠ close := by
                intro same
                rw [same, here] at breaks
                exact absurd breaks (by decide)
              have : lineNext text (close + 1) ≤ inner := lineNext_le_of_break (by omega) breaks
              omega
            · exact silent inner (first.later.trans_le from_) inner_le breaks
          · have from_ : start ≤ close := by omega
            exact stays (by rw [skips, target, lineNext_beyond from_ here (Nat.not_le.mp within)])

theorem Spans.spec {name : Utf16} {close : Nat} (spans : Spans text start name close) :
    start < text.length ∧ start < close ∧ text[close]? = some doubleQuote ∧
      logicalNext text start = lineNext text (close + 1) := by
  obtain ⟨opening, quoted, closes⟩ := spans.quoted
  obtain ⟨later, here⟩ := closingQuote_spec closes
  have after := (quotedAt_spec quoted).1
  have closeInside : close < text.length := (List.getElem?_eq_some_iff.mp here).1
  refine ⟨by omega, by omega, here, ?_⟩
  rw [logicalNext, quoted]
  simp only [closes]

theorem cursor_between {cursor close : Nat} (mem : cursor ∈ cursors text 0) (after : lineAt text start < lineAt text cursor)
    (before : lineAt text cursor ≤ lineAt text close) :
    start < cursor ∧ cursor ≤ close ∧ text[cursor - 1]? = some lineFeed := by
  have later : start < cursor := by
    by_contra early
    have : lineAt text cursor ≤ lineAt text start := lineAt_mono (Nat.not_lt.mp early)
    omega
  have breaks : text[cursor - 1]? = some lineFeed := (cursors_starts mem).resolve_left (by omega)
  refine ⟨later, ?_, breaks⟩
  by_contra beyond
  have := lineAt_lt (Nat.not_le.mp beyond) breaks
  omega

theorem keptTogether_of_namesRead (parsed : ParsedFrom text result)
    (reads : NamesRead text) : KeptTogether text result := by
  obtain ⟨distinct, lines⟩ := outcomeLines_spec parsed
  intro start name close line spans
  refine ⟨nodup_iff_count_le_one.mp distinct _, fun number member ⟨after, before⟩ => ?_⟩
  obtain ⟨inside, -, quote, target⟩ := spans.spec
  obtain ⟨cursor, mem, rfl, loud⟩ := (lines number).mp member
  obtain ⟨later, until_, breaks⟩ := cursor_between mem after before
  rcases reads start name close line spans with taken | silent
  · have here := reach line inside fun before name close _ => reads before name close
    obtain ⟨opening, quoted, -⟩ := spans.quoted
    have next : scanNext text start = lineNext text (close + 1) := by
      rw [← target, scanNext, quoted]
      exact if_pos taken
    have closeInside : close < text.length := (List.getElem?_eq_some_iff.mp quote).1
    have behind : close + 1 ≤ lineNext text (close + 1) := le_lineNext closeInside
    rcases (cursors_next here).2 cursor mem with early | beyond <;> omega
  · rw [silent cursor later until_ breaks] at loud
    cases loud

theorem namesRead_of_keptTogether (parsed : ParsedFrom text result)
    (kept : KeptTogether text result) : NamesRead text := by
  obtain ⟨-, lines⟩ := outcomeLines_spec parsed
  intro start
  induction start using Nat.strong_induction_on with
  | _ start ih =>
    intro name close line spans
    by_cases taken : readsName name = true
    · exact Or.inl taken
    refine Or.inr fun inner => ?_
    obtain ⟨inside, order, here, -⟩ := spans.spec
    have mem := reach line inside fun before name close less => ih before less name close
    obtain ⟨opening, quoted, -⟩ := spans.quoted
    have skips : scanNext text start = lineNext text start := by
      rw [scanNext, quoted]
      exact if_neg taken
    have first := forward_line inside
    induction inner using Nat.strong_induction_on with
    | _ inner earlier =>
      intro later until_ breaks
      have room : inner < text.length := until_.trans_lt (List.getElem?_eq_some_iff.mp here).1
      have within := lineNext_le_of_break later breaks
      have next := (cursors_next mem).1 (skips ▸ within.trans_lt room)
      rw [skips] at next
      have come : inner ∈ cursors text 0 := by
        refine walk next within room (fun _ => breaks) fun before from_ less starts => ?_
        refine earlier before less (first.later.trans_le from_) (less.le.trans until_) ?_
        rcases starts with rfl | starts
        · exact first.starts (less.trans room)
        · exact starts
      by_contra loud
      refine (kept start name close line spans).2 (lineAt text inner) ((lines _).mpr ⟨inner, come, rfl, ?_⟩)
        ⟨lineAt_lt later breaks, lineAt_mono until_⟩
      rwa [Bool.not_eq_true] at loud

/-- In a paste within its limits, the lines inside a quoted value have no outcome of their own exactly if behind each
name that is refused they are blank or comments. -/
theorem keptTogether_iff (source : Utf16) (result : AppEnvDotenvParsed)
    (parse : parseAppEnvDotenv source = .parsed result) :
    KeptTogether (normalizeNewlines (stripBom source)) result ↔ NamesRead (normalizeNewlines (stripBom source)) :=
  ⟨namesRead_of_keptTogether (parsedFrom_of_parse parse), keptTogether_of_namesRead (parsedFrom_of_parse parse)⟩

theorem exists_parsed {source : Utf16} (bytes : byteLength source ≤ appEnvDotenvMaxBytes)
    (lines : countLines (normalizeNewlines (stripBom source)) ≤ appEnvDotenvMaxLines) :
    ∃ result, parseAppEnvDotenv source = .parsed result := by
  rw [parseAppEnvDotenv, if_neg (Nat.not_lt.mpr bytes)]
  simp only [if_neg (Nat.not_lt.mpr lines)]
  exact ⟨_, rfl⟩

/-- A name, and behind it in quotes `a`, `FOO=1` and an empty line. -/
def quotedAssignment (name : Utf16) : Utf16 :=
  name ++ [equalsSign, doubleQuote, 0x61, lineFeed, 0x46, 0x4F, 0x4F, equalsSign, 0x31, lineFeed, doubleQuote]

/-- `A` is a valid name. -/
theorem valid_name_keeps_together : ∃ result, parseAppEnvDotenv (quotedAssignment [0x41]) = .parsed result ∧
    KeptTogether (normalizeNewlines (stripBom (quotedAssignment [0x41]))) result := by
  have bytes : byteLength (quotedAssignment [0x41]) ≤ appEnvDotenvMaxBytes := by decide
  obtain ⟨result, parse⟩ := exists_parsed bytes (by decide)
  refine ⟨result, parse, (keptTogether_iff _ result parse).mpr fun start name close line spans => ?_⟩
  have text : normalizeNewlines (stripBom (quotedAssignment [0x41])) = quotedAssignment [0x41] := by decide
  rw [text] at line spans ⊢
  have starts (start : Nat) (line : LogicalLine (quotedAssignment [0x41]) start) : start = 0 ∨ start = 12 := by
    induction line with
    | first => exact Or.inl rfl
    | next line ih =>
      rcases ih with rfl | rfl
      · exact Or.inr (by decide)
      · exact Or.inr (by decide)
  obtain ⟨opening, quoted, -⟩ := spans.quoted
  rcases starts start line with rfl | rfl
  · have first : quotedAt (quotedAssignment [0x41]) 0 = some ([0x41], 2) := by decide
    rw [first] at quoted
    obtain ⟨rfl, -⟩ := Prod.mk.inj (some.inj quoted)
    exact Or.inl (by decide)
  · have last : quotedAt (quotedAssignment [0x41]) 12 = none := by decide
    rw [last] at quoted
    cases quoted

/-- `a` is not: the scanner goes on inside the quotes and reads `FOO` on the second line. -/
theorem refused_name_reads_inside : ∃ result, parseAppEnvDotenv (quotedAssignment [0x61]) = .parsed result ∧
    2 ∈ outcomeLines result ∧ ¬ KeptTogether (normalizeNewlines (stripBom (quotedAssignment [0x61]))) result := by
  have bytes : byteLength (quotedAssignment [0x61]) ≤ appEnvDotenvMaxBytes := by decide
  obtain ⟨result, parse⟩ := exists_parsed bytes (by decide)
  have parsed := parsedFrom_of_parse parse
  have text : normalizeNewlines (stripBom (quotedAssignment [0x61])) = quotedAssignment [0x61] := by decide
  rw [text] at parsed ⊢
  have second : 2 ∈ outcomeLines result := by
    have next : scanNext (quotedAssignment [0x61]) 0 = 5 := by decide
    refine ((outcomeLines_spec parsed).2 2).mpr ⟨5, ?_, by decide, by decide⟩
    rw [cursors_inside (by decide), next, cursors_inside (by decide)]
    exact mem_cons_of_mem _ mem_cons_self
  have spans : Spans (quotedAssignment [0x61]) 0 [0x61] 11 := ⟨⟨2, by decide, by decide⟩, by decide⟩
  exact ⟨result, parse, second, fun kept => (kept 0 _ _ .first spans).2 2 second ⟨by decide, by decide⟩⟩

end EverWorks.AppEnv
