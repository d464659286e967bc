import EverWorks.AppEnv.DotenvRoundTrip

/-!
Where the lines of a paste end when a double-quoted value may run past its first line, and where the scanner goes on.
They agree except behind a name that is refused: the scanner then leaves the quotes unread and goes on inside them.
-/

namespace EverWorks.AppEnv
open Lib Lib.Utf16 List Option

def lineAt (text : Utf16) (position : Nat) : Nat := (text.take position).count lineFeed + 1

def lineNext (text : Utf16) (start : Nat) : Nat := pastBreak text (indexOf text lineFeed start)

def isSilentLine (text : Utf16) (start : Nat) : Bool :=
  let stop := (indexOf text lineFeed start).getD text.length
  let afterIndent := skipHorizontalWhitespace text start stop
  stop ≤ afterIndent || text[afterIndent]? == some hash

/-- The name and the opening quote of a line of the form `NAME="…`. -/
def quotedAt (text : Utf16) (start : Nat) : Option (Utf16 × Nat) :=
  let stop := (indexOf text lineFeed start).getD text.length
  if isSilentLine text start then none
  else
    let bodyStart := skipExportPrefix text (skipHorizontalWhitespace text start stop) stop
    match indexOf text equalsSign bodyStart with
    | none => none
    | some equals =>
      if stop ≤ equals then none
      else
        let index := skipHorizontalWhitespace text (equals + 1) stop
        if index < stop ∧ text[index]? = some doubleQuote then some (trimHorizontal (slice text bodyStart equals), index)
        else none

def closingIn : Utf16 → Option Nat
  | [] => none
  | [unit] => if unit = doubleQuote then some 0 else none
  | unit :: next :: rest =>
    if unit = backslash then (closingIn rest).map (· + 2)
    else if unit = doubleQuote then some 0 else (closingIn (next :: rest)).map (· + 1)

def closingQuote (text : Utf16) (opening : Nat) : Option Nat :=
  (closingIn (text.drop (opening + 1))).map (opening + 1 + ·)

def logicalNext (text : Utf16) (start : Nat) : Nat :=
  match quotedAt text start with
  | none => lineNext text start
  | some (_, opening) =>
    match closingQuote text opening with
    | none => text.length
    | some close => lineNext text (close + 1)

inductive LogicalLine (text : Utf16) : Nat → Prop
  | first : LogicalLine text 0
  | next {start : Nat} (line : LogicalLine text start) : LogicalLine text (logicalNext text start)

/-- The line is `NAME=` and a double-quoted value that closes on a later line. -/
structure Spans (text : Utf16) (start : Nat) (name : Utf16) (close : Nat) : Prop where
  quoted : ∃ opening, quotedAt text start = some (name, opening) ∧ closingQuote text opening = some close
  below : lineAt text start < lineAt text close

def readsName (name : Utf16) : Bool := matchesNamePattern name && !appEnvReservedPrefix.isPrefixOf name

/-- Behind a refused name, the lines inside the quotes are blank or comments. -/
def ReadsOrSilent (text : Utf16) (start : Nat) (name : Utf16) (close : Nat) : Prop :=
  readsName name = true ∨ ∀ inner, start < inner → inner ≤ close → text[inner - 1]? = some lineFeed →
    isSilentLine text inner = true

def NamesRead (text : Utf16) : Prop :=
  ∀ start name close, LogicalLine text start → Spans text start name close → ReadsOrSilent text start name close

variable {text : Utf16} {start index : Nat}

theorem lineAt_succ (text : Utf16) (index : Nat) :
    lineAt text (index + 1) = lineAt text index + if text[index]? = some lineFeed then 1 else 0 := by
  rw [lineAt, lineAt, take_add_one, count_append]
  cases text[index]? with
  | none => simp
  | some unit =>
    by_cases same : unit = lineFeed <;> simp [same]

variable {first second : Nat}

theorem lineAt_mono (order : first ≤ second) : lineAt text first ≤ lineAt text second := by
  have front : text.take first <+: text.take second := take_prefix_take_left order
  exact Nat.add_le_add_right (front.sublist.count_le lineFeed) 1

theorem lineAt_lt (order : first < second) (breaks : text[second - 1]? = some lineFeed) :
    lineAt text first < lineAt text second := by
  obtain ⟨last, rfl⟩ := Nat.exists_eq_succ_of_ne_zero (Nat.ne_of_gt (Nat.zero_lt_of_lt order))
  have front : lineAt text first ≤ lineAt text last := lineAt_mono (Nat.le_of_lt_succ order)
  rw [Nat.succ_eq_add_one, Nat.add_sub_cancel] at breaks
  rw [Nat.succ_eq_add_one, lineAt_succ, if_pos breaks]
  omega

theorem lineAt_eq (order : first ≤ second)
    (inline : ∀ index, first ≤ index → index < second → text[index]? ≠ some lineFeed) :
    lineAt text second = lineAt text first := by
  induction second, order using Nat.le_induction with
  | base => rfl
  | succ second order ih =>
    rw [lineAt_succ, if_neg (inline second order (Nat.lt_succ_self second)), Nat.add_zero,
      ih fun index from_ until_ => inline index from_ (Nat.lt_succ_of_lt until_)]

theorem lineNext_cases (text : Utf16) (start : Nat) :
    (indexOf text lineFeed start = none ∧ lineNext text start = text.length ∧
      ∀ index, start ≤ index → text[index]? ≠ some lineFeed) ∨
    ∃ stop, indexOf text lineFeed start = some stop ∧ lineNext text start = stop + 1 ∧ start ≤ stop ∧
      text[stop]? = some lineFeed ∧ ∀ index, start ≤ index → index < stop → text[index]? ≠ some lineFeed := by
  cases found : indexOf text lineFeed start with
  | none => exact Or.inl ⟨rfl, by rw [lineNext, found]; rfl, indexOf_eq_none.mp found⟩
  | some stop =>
    obtain ⟨from_, here, earlier⟩ := indexOf_eq_some.mp found
    exact Or.inr ⟨stop, rfl, by rw [lineNext, found]; rfl, from_, here, earlier⟩

theorem lineNext_le (text : Utf16) (start : Nat) : lineNext text start ≤ text.length := by
  rcases lineNext_cases text start with ⟨-, next, -⟩ | ⟨stop, -, next, -, here, -⟩
  · exact next.le
  · obtain ⟨inside, -⟩ := List.getElem?_eq_some_iff.mp here
    omega

theorem lt_lineNext (inside : start < text.length) : start < lineNext text start := by
  rcases lineNext_cases text start with ⟨-, next, -⟩ | ⟨stop, -, next, from_, -⟩ <;> omega

theorem le_lineNext (inside : start ≤ text.length) : start ≤ lineNext text start := by
  rcases lineNext_cases text start with ⟨-, next, -⟩ | ⟨stop, -, next, from_, -⟩ <;> omega

theorem lineNext_break (inside : lineNext text start < text.length) :
    text[lineNext text start - 1]? = some lineFeed := by
  rcases lineNext_cases text start with ⟨-, next, -⟩ | ⟨stop, -, next, -, here, -⟩
  · omega
  · rw [next, Nat.add_sub_cancel]
    exact here

theorem lineAt_lineNext (inside : start ≤ text.length) :
    lineAt text (lineNext text start) = lineAt text start + breakCount (indexOf text lineFeed start) := by
  rcases lineNext_cases text start with ⟨found, next, absent⟩ | ⟨stop, found, next, from_, here, earlier⟩
  · rw [found, next, lineAt_eq inside fun index from_ _ => absent index from_]
    rfl
  · rw [found, next, lineAt_succ, if_pos here, lineAt_eq from_ earlier]
    rfl

theorem lineNext_succ (plain : text[start]? ≠ some lineFeed) : lineNext text (start + 1) = lineNext text start := by
  have same : indexOf text lineFeed (start + 1) = indexOf text lineFeed start := by
    cases found : indexOf text lineFeed start with
    | none => exact indexOf_eq_none.mpr fun index from_ => indexOf_eq_none.mp found index (by omega)
    | some stop =>
      obtain ⟨from_, here, earlier⟩ := indexOf_eq_some.mp found
      have apart : start ≠ stop := fun same => plain (same ▸ here)
      exact indexOf_eq_some.mpr ⟨by omega, here, fun index after until_ => earlier index (by omega) until_⟩
  rw [lineNext, lineNext, same]

theorem closingIn_cons (unit : UInt16) (rest : Utf16) : closingIn (unit :: rest) =
    if unit = backslash then (closingIn (rest.drop 1)).map (· + 2)
    else if unit = doubleQuote then some 0 else (closingIn rest).map (· + 1) := by
  cases rest with
  | nil =>
    have apart : backslash ≠ doubleQuote := by decide
    by_cases slash : unit = backslash
    · simp [closingIn, slash, apart]
    · simp [closingIn, slash]
  | cons next rest => rw [closingIn, drop_one, tail_cons]

/-- Where the scanner goes on after a double-quoted value that is read up to `index`. -/
def quotedNext (text : Utf16) (index : Nat) : Nat :=
  match closingIn (text.drop index) with
  | none => text.length
  | some offset => lineNext text (index + offset + 1)

structure EndsAt (text : Utf16) (index newlines target : Nat) (scan : ValueScan) : Prop where
  next : scan.next = target
  newlines : lineAt text index + scan.newlines = lineAt text target + newlines

theorem EndsAt.skip {newlines target : Nat} {scan : ValueScan} (ends : EndsAt text (index + 1) newlines target scan)
    (plain : text[index]? ≠ some lineFeed) : EndsAt text index newlines target scan := by
  have counted := ends.newlines
  rw [lineAt_succ, if_neg plain] at counted
  exact ⟨ends.next, counted⟩

theorem EndsAt.break {newlines target : Nat} {scan : ValueScan} (ends : EndsAt text (index + 1) (newlines + 1) target scan)
    (here : text[index]? = some lineFeed) : EndsAt text index newlines target scan := by
  have counted := ends.newlines
  rw [lineAt_succ, if_pos here] at counted
  exact ⟨ends.next, by omega⟩

theorem quotedNext_end (done : text.length ≤ index) : quotedNext text index = text.length := by
  rw [quotedNext, drop_eq_nil_of_le done]
  rfl

theorem quotedNext_quote (here : text[index]? = some doubleQuote) : quotedNext text index = lineNext text (index + 1) := by
  obtain ⟨inside, here⟩ := List.getElem?_eq_some_iff.mp here
  rw [quotedNext, drop_eq_getElem_cons inside, here, closingIn_cons, if_neg (by decide), if_pos rfl]

theorem quotedNext_escape (here : text[index]? = some backslash) : quotedNext text index = quotedNext text (index + 2) := by
  obtain ⟨inside, here⟩ := List.getElem?_eq_some_iff.mp here
  rw [quotedNext, quotedNext, drop_eq_getElem_cons inside, here, closingIn_cons, if_pos rfl, drop_drop]
  cases closingIn (text.drop (index + 2)) with
  | none => rfl
  | some offset =>
    simp only [map_some]
    congr 1
    omega

theorem quotedNext_other (inside : index < text.length) (noEscape : text[index] ≠ backslash)
    (noQuote : text[index] ≠ doubleQuote) : quotedNext text index = quotedNext text (index + 1) := by
  rw [quotedNext, quotedNext, drop_eq_getElem_cons inside, closingIn_cons, if_neg noEscape, if_neg noQuote]
  cases closingIn (text.drop (index + 1)) with
  | none => rfl
  | some offset =>
    simp only [map_some]
    congr 1
    omega

theorem closeQuotedValue_ends (value : Utf16) (newlines : Nat) (inside : index < text.length) :
    EndsAt text (index + 1) newlines (lineNext text (index + 1)) (closeQuotedValue text index value newlines) := by
  have counted : lineAt text (lineNext text (index + 1)) =
      lineAt text (index + 1) + breakCount (indexOf text lineFeed (index + 1)) := lineAt_lineNext inside
  rw [closeQuotedValue]
  split
  · exact ⟨rfl, by rw [counted]; exact (Nat.add_assoc _ _ _).symm.trans (Nat.add_right_comm _ _ _)⟩
  · split <;> exact ⟨rfl, by rw [counted]; exact (Nat.add_assoc _ _ _).symm.trans (Nat.add_right_comm _ _ _)⟩

theorem malformed_end (inside : index ≤ text.length) (newlines : Nat)
    (inline : ∀ before, index ≤ before → before < text.length → text[before]? ≠ some lineFeed) :
    EndsAt text index newlines text.length (malformed text.length newlines) :=
  ⟨rfl, by rw [lineAt_eq inside inline]; rfl⟩

theorem scanQuotedFrom_double (value : Utf16) (newlines : Nat) (inside : index ≤ text.length) :
    EndsAt text index newlines (quotedNext text index) (scanQuotedFrom text doubleQuote index value newlines) := by
  induction index, value, newlines using scanQuotedFrom.induct text doubleQuote with
  | case1 index value newlines less _ escape last =>
    have here : text[index]? = some backslash := List.getElem?_eq_some_iff.mpr ⟨less, escape.2⟩
    have short : text.length ≤ index + 1 := List.getElem?_eq_none_iff.mp last
    rw [scanQuotedFrom, dif_pos less, if_pos escape]
    simp only [last]
    rw [quotedNext_escape here, quotedNext_end (by omega)]
    refine malformed_end inside newlines fun before from_ until_ found => ?_
    obtain rfl : before = index := by omega
    rw [here] at found
    cases found
  | case2 index value newlines less _ escape continued ih =>
    have here : text[index]? = some backslash := List.getElem?_eq_some_iff.mpr ⟨less, escape.2⟩
    obtain ⟨room, -⟩ := List.getElem?_eq_some_iff.mp continued
    rw [scanQuotedFrom, dif_pos less, if_pos escape]
    simp only [continued, if_true]
    rw [quotedNext_escape here]
    refine EndsAt.skip ((ih room).break continued) ?_
    rw [here]
    decide
  | case3 index value newlines less _ escape escaped follows plain ih =>
    have here : text[index]? = some backslash := List.getElem?_eq_some_iff.mpr ⟨less, escape.2⟩
    obtain ⟨room, -⟩ := List.getElem?_eq_some_iff.mp follows
    rw [scanQuotedFrom, dif_pos less, if_pos escape]
    simp only [follows, plain, if_false]
    rw [quotedNext_escape here]
    refine EndsAt.skip (EndsAt.skip (ih room) ?_) ?_
    · rw [follows]
      exact fun same => plain (some.inj same)
    · rw [here]
      decide
  | case4 index value newlines less _ noEscape quote =>
    have here : text[index]? = some doubleQuote := List.getElem?_eq_some_iff.mpr ⟨less, quote⟩
    rw [scanQuotedFrom, dif_pos less, if_neg noEscape, if_pos quote, quotedNext_quote here]
    refine EndsAt.skip (closeQuotedValue_ends value newlines less) ?_
    rw [here]
    decide
  | case5 index value newlines less _ noEscape noQuote isBreak single => exact absurd rfl single
  | case6 index value newlines less _ noEscape noQuote isBreak _ ih =>
    have here : text[index]? = some lineFeed := List.getElem?_eq_some_iff.mpr ⟨less, isBreak⟩
    rw [scanQuotedFrom, dif_pos less, if_neg noEscape, if_neg noQuote, if_pos isBreak, if_neg (not_not.mpr rfl),
      quotedNext_other less (fun slash => noEscape ⟨rfl, slash⟩) noQuote]
    exact (ih less).break here
  | case7 index value newlines less _ noEscape noQuote noBreak ih =>
    have here : text[index]? ≠ some lineFeed := fun found => noBreak (List.getElem?_eq_some_iff.mp found).2
    rw [scanQuotedFrom, dif_pos less, if_neg noEscape, if_neg noQuote, if_neg noBreak,
      quotedNext_other less (fun slash => noEscape ⟨rfl, slash⟩) noQuote]
    exact (ih less).skip here
  | case8 index value newlines over_ =>
    rw [scanQuotedFrom, dif_neg over_, quotedNext_end (by omega)]
    exact malformed_end inside newlines fun before from_ until_ => absurd (from_.trans_lt until_) over_

theorem scanQuotedFrom_single (value : Utf16) (newlines : Nat) (inside : index ≤ text.length) :
    EndsAt text index newlines (lineNext text index) (scanQuotedFrom text singleQuote index value newlines) := by
  have apart : ∀ unit, ¬ (singleQuote = doubleQuote ∧ unit = backslash) := fun _ both => absurd both.1 (by decide)
  induction index, value, newlines using scanQuotedFrom.induct text singleQuote with
  | case1 index value newlines less _ escape => exact absurd escape (apart _)
  | case2 index value newlines less _ escape => exact absurd escape (apart _)
  | case3 index value newlines less _ escape => exact absurd escape (apart _)
  | case4 index value newlines less _ noEscape quote =>
    have here : text[index]? ≠ some lineFeed := by
      rw [List.getElem?_eq_some_iff.mpr ⟨less, quote⟩]
      decide
    rw [scanQuotedFrom, dif_pos less, if_neg noEscape, if_pos quote, ← lineNext_succ here]
    exact EndsAt.skip (closeQuotedValue_ends value newlines less) here
  | case5 index value newlines less _ noEscape noQuote isBreak single =>
    have here : text[index]? = some lineFeed := List.getElem?_eq_some_iff.mpr ⟨less, isBreak⟩
    have found : indexOf text lineFeed index = some index :=
      indexOf_eq_some.mpr ⟨le_rfl, here, fun before from_ until_ => absurd (from_.trans_lt until_) (Nat.lt_irrefl _)⟩
    rw [scanQuotedFrom, dif_pos less, if_neg noEscape, if_neg noQuote, if_pos isBreak, if_pos single, lineNext, found]
    exact EndsAt.break ⟨rfl, rfl⟩ here
  | case6 index value newlines less _ noEscape noQuote isBreak double => exact absurd (not_not.mp double) (by decide)
  | case7 index value newlines less _ noEscape noQuote noBreak ih =>
    have here : text[index]? ≠ some lineFeed := fun found => noBreak (List.getElem?_eq_some_iff.mp found).2
    rw [scanQuotedFrom, dif_pos less, if_neg noEscape, if_neg noQuote, if_neg noBreak, ← lineNext_succ here]
    exact (ih less).skip here
  | case8 index value newlines over_ =>
    have done : lineNext text index = text.length := by
      have low := le_lineNext inside
      have high := lineNext_le text index
      omega
    rw [scanQuotedFrom, dif_neg over_, done]
    exact malformed_end inside newlines fun before from_ until_ => absurd (from_.trans_lt until_) over_

def scanNext (text : Utf16) (start : Nat) : Nat :=
  match quotedAt text start with
  | none => lineNext text start
  | some (name, _) => if readsName name then logicalNext text start else lineNext text start

theorem logicalNext_quoted {name : Utf16} {opening : Nat} (quoted : quotedAt text start = some (name, opening)) :
    logicalNext text start = quotedNext text (opening + 1) := by
  rw [logicalNext, quoted, quotedNext]
  simp only [closingQuote]
  cases closingIn (text.drop (opening + 1)) <;> rfl

theorem inline_before_stop (from_ : start ≤ index) (before : index < (indexOf text lineFeed start).getD text.length) :
    text[index]? ≠ some lineFeed := by
  rcases lineNext_cases text start with ⟨found, -, absent⟩ | ⟨stop, found, -, -, -, earlier⟩
  · exact absent index from_
  · rw [found] at before
    exact earlier index from_ before

theorem stop_le (text : Utf16) (start : Nat) : (indexOf text lineFeed start).getD text.length ≤ text.length := by
  rcases lineNext_cases text start with ⟨found, -, -⟩ | ⟨stop, found, -, -, here, -⟩
  · rw [found]
    exact le_rfl
  · obtain ⟨inside, -⟩ := List.getElem?_eq_some_iff.mp here
    rw [found]
    exact Nat.le_of_lt inside

theorem lineNext_inside (from_ : start ≤ index) (before : index < (indexOf text lineFeed start).getD text.length) :
    lineNext text (index + 1) = lineNext text start := by
  induction index, from_ using Nat.le_induction with
  | base => exact lineNext_succ (inline_before_stop le_rfl before)
  | succ index from_ ih =>
    rw [lineNext_succ (inline_before_stop (Nat.le_succ_of_le from_) before), ih (Nat.lt_of_succ_lt before)]

theorem lineAt_inside (from_ : start ≤ index) (before : index < (indexOf text lineFeed start).getD text.length) :
    lineAt text (index + 1) = lineAt text start := by
  refine lineAt_eq (Nat.le_succ_of_le from_) fun other from_ until_ => inline_before_stop from_ ?_
  omega

theorem le_skip (text : Utf16) (start stop : Nat) : start ≤ skipHorizontalWhitespace text start stop :=
  Nat.le_add_right _ _

theorem le_skipExport (text : Utf16) (start stop : Nat) : start ≤ skipExportPrefix text start stop := by
  rw [skipExportPrefix]
  split
  · exact Nat.le_add_right _ _
  · exact le_rfl

theorem isSilentLine_iff : isSilentLine text start = true ↔
    (indexOf text lineFeed start).getD text.length ≤
        skipHorizontalWhitespace text start ((indexOf text lineFeed start).getD text.length) ∨
      text[skipHorizontalWhitespace text start ((indexOf text lineFeed start).getD text.length)]? = some hash := by
  rw [isSilentLine, Bool.or_eq_true, decide_eq_true_eq, beq_iff_eq]

theorem scanValue_ends {valueStart : Nat} (inside : start ≤ text.length) (from_ : start ≤ valueStart) :
    let stop := (indexOf text lineFeed start).getD text.length
    let index := skipHorizontalWhitespace text valueStart stop
    EndsAt text start 0
      (if index < stop ∧ text[index]? = some doubleQuote then quotedNext text (index + 1) else lineNext text start)
      (scanValue text valueStart stop (lineNext text start) (breakCount (indexOf text lineFeed start))) := by
  intro stop index
  have line : lineAt text start + breakCount (indexOf text lineFeed start) = lineAt text (lineNext text start) + 0 :=
    (lineAt_lineNext inside).symm
  have after : start ≤ index := from_.trans (le_skip text valueStart stop)
  rw [scanValue]
  by_cases before : index < stop
  · have room : index < text.length := before.trans_le (stop_le text start)
    have here : (if index < stop then text[index]? else none) = some text[index] := by
      rw [if_pos before, getElem?_eq_getElem room]
    simp only [show skipHorizontalWhitespace text valueStart stop = index from rfl, here]
    have number := lineAt_inside after before
    by_cases double : text[index] = doubleQuote
    · rw [if_pos (Or.inl double), if_pos ⟨before, List.getElem?_eq_some_iff.mpr ⟨room, double⟩⟩, double]
      have ends : EndsAt text (index + 1) 0 (quotedNext text (index + 1))
          (scanQuotedFrom text doubleQuote (index + 1) [] 0) := scanQuotedFrom_double [] 0 room
      exact ⟨ends.next, number ▸ ends.newlines⟩
    · rw [if_neg (c := index < stop ∧ _) fun both => double (List.getElem?_eq_some_iff.mp both.2).2]
      by_cases single : text[index] = singleQuote
      · rw [if_pos (Or.inr single), single, ← lineNext_inside after before]
        have ends : EndsAt text (index + 1) 0 (lineNext text (index + 1))
            (scanQuotedFrom text singleQuote (index + 1) [] 0) := scanQuotedFrom_single [] 0 room
        exact ⟨ends.next, number ▸ ends.newlines⟩
      · rw [if_neg (not_or.mpr ⟨double, single⟩)]
        exact ⟨rfl, line⟩
  · have none : (if index < stop then text[index]? else none) = none := if_neg before
    simp only [show skipHorizontalWhitespace text valueStart stop = index from rfl, none]
    rw [if_neg fun both => before both.1]
    exact ⟨rfl, line⟩

structure LineScanned (text : Utf16) (start : Nat) (scan : LineScan) : Prop where
  next : scan.next = scanNext text start
  newlines : lineAt text start + scan.newlines = lineAt text (scanNext text start)
  blank : scan.outcome = .blank ↔ isSilentLine text start = true

theorem lineScanned_of_line {outcome : LineOutcome} (inside : start ≤ text.length)
    (next : scanNext text start = lineNext text start) (blank : outcome = .blank ↔ isSilentLine text start = true) :
    LineScanned text start ⟨lineNext text start, breakCount (indexOf text lineFeed start), outcome⟩ :=
  ⟨next.symm, by rw [next, lineAt_lineNext inside], blank⟩

theorem scanLine_scanned (inside : start ≤ text.length) : LineScanned text start (scanLine text start) := by
  by_cases silent : isSilentLine text start = true
  · have quoted : quotedAt text start = none := by rw [quotedAt, if_pos silent]
    rw [scanLine, if_pos (isSilentLine_iff.mp silent)]
    exact lineScanned_of_line inside (by rw [scanNext, quoted]) (iff_of_true rfl silent)
  · have refusal (reason : AppEnvDotenvLineRefusalReason) : LineOutcome.refusal reason = .blank ↔ isSilentLine text start = true :=
      iff_of_false nofun silent
    rw [scanLine, if_neg fun quiet => silent (isSilentLine_iff.mpr quiet)]
    generalize hstop : (indexOf text lineFeed start).getD text.length = stop
    have bodyFrom : start ≤ skipExportPrefix text (skipHorizontalWhitespace text start stop) stop :=
      (le_skip text start stop).trans (le_skipExport text _ stop)
    generalize hbody : skipExportPrefix text (skipHorizontalWhitespace text start stop) stop = bodyStart at bodyFrom
    have quoted : quotedAt text start = (match indexOf text equalsSign bodyStart with
        | none => none
        | some equals =>
          if stop ≤ equals then none
          else
            let index := skipHorizontalWhitespace text (equals + 1) stop
            if index < stop ∧ text[index]? = some doubleQuote then
              some (trimHorizontal (slice text bodyStart equals), index)
            else none) := by
      rw [quotedAt, if_neg silent]
      simp only [hstop, hbody]
    cases found : indexOf text equalsSign bodyStart with
    | none =>
      simp only [found] at quoted ⊢
      exact lineScanned_of_line inside (by rw [scanNext, quoted]) (refusal _)
    | some equals =>
      simp only [found] at quoted ⊢
      split
      · rename_i outside
        rw [if_pos outside] at quoted
        exact lineScanned_of_line inside (by rw [scanNext, quoted]) (refusal _)
      · rename_i within
        rw [if_neg within] at quoted
        have from_ : start ≤ equals + 1 := by
          have := (indexOf_eq_some.mp found).1
          omega
        have ends := scanValue_ends inside from_
        simp only [hstop] at ends
        generalize trimHorizontal (slice text bodyStart equals) = name at quoted
        generalize skipHorizontalWhitespace text (equals + 1) stop = index at quoted ends
        -- A refused name leaves the value unread.
        have refused (bad : readsName name = false) : scanNext text start = lineNext text start := by
          rw [scanNext, quoted]
          by_cases opens : index < stop ∧ text[index]? = some doubleQuote
          · simp only [if_pos opens, bad, Bool.false_eq_true, if_false]
          · simp only [if_neg opens]
        split
        · rename_i bad
          refine lineScanned_of_line inside (refused ?_) (refusal _)
          rw [readsName, (Bool.not_eq_true' _).mp bad, Bool.false_and]
        · rename_i valid
          split
          · rename_i reserved
            refine lineScanned_of_line inside (refused ?_) (refusal _)
            rw [readsName, reserved, Bool.not_true, Bool.and_false]
          · rename_i free
            have reads : readsName name = true := by
              rw [readsName, Bool.and_eq_true, Bool.not_eq_true', ← Bool.not_eq_true]
              exact ⟨by simpa using valid, free⟩
            have target : scanNext text start =
                if index < stop ∧ text[index]? = some doubleQuote then quotedNext text (index + 1)
                else lineNext text start := by
              rw [scanNext, quoted]
              by_cases opens : index < stop ∧ text[index]? = some doubleQuote
              · rw [if_pos opens] at quoted
                simp only [if_pos opens, reads, if_true, logicalNext_quoted quoted]
              · simp only [if_neg opens]
            rw [← target] at ends
            split
            · exact ⟨ends.next, ends.newlines, refusal _⟩
            · exact ⟨ends.next, ends.newlines, iff_of_false nofun silent⟩

theorem closingIn_spec {units : Utf16} {offset : Nat} (found : closingIn units = some offset) :
    units[offset]? = some doubleQuote := by
  induction units using closingIn.induct generalizing offset with
  | case1 => cases found
  | case2 =>
    rw [closingIn, if_pos rfl] at found
    obtain rfl := some.inj found
    rfl
  | case3 unit other =>
    rw [closingIn, if_neg other] at found
    cases found
  | case4 next rest ih =>
    rw [closingIn, if_pos rfl] at found
    obtain ⟨inner, there, rfl⟩ := map_eq_some_iff.mp found
    exact ih there
  | case5 next rest =>
    rw [closingIn, if_neg (by decide), if_pos rfl] at found
    obtain rfl := some.inj found
    rfl
  | case6 unit next rest noEscape noQuote ih =>
    rw [closingIn, if_neg noEscape, if_neg noQuote] at found
    obtain ⟨inner, there, rfl⟩ := map_eq_some_iff.mp found
    exact ih there

theorem closingQuote_spec {opening close : Nat} (found : closingQuote text opening = some close) :
    opening < close ∧ text[close]? = some doubleQuote := by
  obtain ⟨offset, there, rfl⟩ := map_eq_some_iff.mp found
  have here := closingIn_spec there
  rw [getElem?_drop] at here
  exact ⟨by omega, here⟩

theorem quotedAt_spec {name : Utf16} {opening : Nat} (quoted : quotedAt text start = some (name, opening)) :
    start < opening ∧ opening < (indexOf text lineFeed start).getD text.length ∧ isSilentLine text start = false := by
  rw [quotedAt] at quoted
  by_cases silent : isSilentLine text start = true
  · rw [if_pos silent] at quoted
    cases quoted
  · simp only [silent, Bool.false_eq_true, if_false] at quoted
    split at quoted
    · cases quoted
    · rename_i equals found
      have from_ := (indexOf_eq_some.mp found).1
      have body := (le_skip text start ((indexOf text lineFeed start).getD text.length)).trans
        (le_skipExport text _ ((indexOf text lineFeed start).getD text.length))
      have value := le_skip text (equals + 1) ((indexOf text lineFeed start).getD text.length)
      split at quoted
      · cases quoted
      · split at quoted
        · rename_i opens
          obtain ⟨-, rfl⟩ := Prod.mk.inj (some.inj quoted)
          exact ⟨by omega, opens.1, by simpa using silent⟩
        · cases quoted

structure Forward (text : Utf16) (start target : Nat) : Prop where
  later : start < target
  inside : target ≤ text.length
  starts : target < text.length → text[target - 1]? = some lineFeed

theorem forward_line (inside : start < text.length) : Forward text start (lineNext text start) :=
  ⟨lt_lineNext inside, lineNext_le text start, lineNext_break⟩

theorem forward_logical (inside : start < text.length) : Forward text start (logicalNext text start) := by
  rw [logicalNext]
  split
  · exact forward_line inside
  · rename_i name opening quoted
    have before := (quotedAt_spec quoted).1
    split
    · exact ⟨inside, le_rfl, fun less => absurd less (Nat.lt_irrefl _)⟩
    · rename_i close found
      obtain ⟨later, here⟩ := closingQuote_spec found
      obtain ⟨room, -⟩ := List.getElem?_eq_some_iff.mp here
      have behind : close + 1 ≤ lineNext text (close + 1) := le_lineNext room
      exact ⟨by omega, lineNext_le text _, lineNext_break⟩

theorem forward_scan (inside : start < text.length) : Forward text start (scanNext text start) := by
  rw [scanNext]
  split
  · exact forward_line inside
  · split
    · exact forward_logical inside
    · exact forward_line inside

theorem Forward.lineAt_lt {target : Nat} (forward : Forward text start target) (inside : target < text.length) :
    lineAt text start < lineAt text target := AppEnv.lineAt_lt forward.later (forward.starts inside)

end EverWorks.AppEnv
