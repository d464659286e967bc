import EverWorks.AppEnv.Dotenv

/-!
# What a `.env` text says

A text as its author wrote it: lines that are blank, comments or assignments, each built from pieces
that are what they should be. `render` spells it out, `occurrencesOf` is what it assigns.
-/

namespace EverWorks.AppEnv
open List

open Lib Lib.Utf16

abbrev Gap := {gap : Utf16 // ∀ unit ∈ gap, isHorizontal unit = true}

def Inline (text : Utf16) : Prop := lineFeed ∉ text ∧ carriageReturn ∉ text

abbrev LineText := {text : Utf16 // Inline text}

abbrev AppEnvName :=
  {name : Utf16 // matchesNamePattern name = true ∧ appEnvReservedPrefix.isPrefixOf name = false}

def opensQuote (raw : Utf16) : Bool :=
  (trimStart raw).head? == some doubleQuote || (trimStart raw).head? == some singleQuote

/-- What stands after the `=`. -/
inductive ValueText where
  | quoted (before : Gap) (value : Utf16) (after : Gap) (comment : Option LineText)
  | unquoted (raw : LineText) (plain : opensQuote raw.val = false)

structure Assignment where
  indent : Gap
  /-- The spaces after `export`. -/
  exportGap : Option {gap : Gap // gap.val ≠ []}
  name : AppEnvName
  gap : Gap
  value : ValueText

inductive DotenvLine where
  | blank (gap : Gap)
  | comment (indent : Gap) (text : LineText)
  | assignment (written : Assignment)

/-- Lines, and whether a line break ends the last one. -/
structure DotenvText where
  lines : List DotenvLine
  closed : Bool

def escapeUnit (unit : UInt16) : Utf16 :=
  if unit = backslash then [backslash, backslash]
  else if unit = doubleQuote then [backslash, doubleQuote]
  else if unit = lineFeed then [backslash, 0x6E]
  else if unit = tab then [backslash, 0x74]
  else if unit = carriageReturn then [backslash, 0x72]
  else [unit]

def escape (value : Utf16) : Utf16 := value.flatMap escapeUnit

def renderComment : Option LineText → Utf16
  | none => []
  | some text => hash :: text.val

def ValueText.render : ValueText → Utf16
  | quoted before value after comment =>
    before.val ++ (doubleQuote :: (escape value ++ (doubleQuote :: (after.val ++ renderComment comment))))
  | unquoted raw _ => raw.val

def renderExport : Option {gap : Gap // gap.val ≠ []} → Utf16
  | none => []
  | some gap => exportWord ++ gap.val.val

def Assignment.render (written : Assignment) : Utf16 :=
  written.indent.val ++ (renderExport written.exportGap ++ (written.name.val ++ (written.gap.val ++
    (equalsSign :: written.value.render))))

def DotenvLine.render : DotenvLine → Utf16
  | blank gap => gap.val
  | comment indent text => indent.val ++ (hash :: text.val)
  | assignment written => written.render

def renderLines (closed : Bool) : List DotenvLine → Utf16
  | [] => []
  | line :: rest =>
    line.render ++ if rest.isEmpty && !closed then [] else lineFeed :: renderLines closed rest

def DotenvText.render (text : DotenvText) : Utf16 := renderLines text.closed text.lines

/-- Up to the first whitespace with a `#` behind it. -/
def beforeComment : Utf16 → Utf16
  | [] => []
  | unit :: rest =>
    if isHorizontal unit && rest.head? == some hash then [] else unit :: beforeComment rest

/-- The value the text states: quotes hold it literally, without them it ends before a comment. -/
def ValueText.stated : ValueText → Utf16
  | quoted _ value _ _ => value
  | unquoted raw _ => trimHorizontal (beforeComment raw.val)

def ValueText.read : ValueText → Utf16
  | quoted _ value _ _ => value
  | unquoted raw _ => trimUnquotedValue (trimStart raw.val)

/-- Whitespace directly after the `=`, and a comment behind it. -/
def opensComment (raw : Utf16) : Bool :=
  raw.head?.any isHorizontal && (trimStart raw).head? == some hash

def ValueText.opensComment : ValueText → Bool
  | quoted _ _ _ _ => false
  | unquoted raw _ => AppEnv.opensComment raw.val

/-- An assignment and the line it stands on. -/
structure Written where
  name : Utf16
  value : ValueText
  line : Nat

def writtenFrom : Nat → List DotenvLine → List Written
  | _, [] => []
  | first, .assignment written :: rest =>
    ⟨written.name.val, written.value, first⟩ :: writtenFrom (first + 1) rest
  | first, .blank _ :: rest | first, .comment _ _ :: rest => writtenFrom (first + 1) rest

def DotenvText.written (text : DotenvText) : List Written := writtenFrom 1 text.lines

def lastWritten (written : List Written) (name : Utf16) : Option Written :=
  written.reverse.find? fun later => later.name = name

end EverWorks.AppEnv

/-!
## What the scanner reads from a line

For each kind of line, what `scanLine` answers where that line stands. Along a quoted value the
invariant is that reading the escaped value adds the value itself.
-/

namespace EverWorks.AppEnv

open Lib Lib.Utf16

def Solid (text : Utf16) : Prop := ∀ unit, text.head? = some unit → isHorizontal unit = false

theorem solid_cons {unit : UInt16} (solid : isHorizontal unit = false) (rest : Utf16) :
    Solid (unit :: rest) := by
  intro first same
  simp only [List.head?_cons, Option.some.injEq] at same
  exact same ▸ solid

theorem takeWhile_solid {text : Utf16} (solid : Solid text) : text.takeWhile isHorizontal = [] := by
  cases text with
  | nil => rfl
  | cons unit rest => simp [List.takeWhile, solid unit rfl]

theorem trimStart_solid {text : Utf16} (solid : Solid text) : trimStart text = text := by
  cases text with
  | nil => rfl
  | cons unit rest => simp [trimStart, List.dropWhile, solid unit rfl]

theorem takeWhile_gap (gap : Gap) {text : Utf16} (solid : Solid text) :
    (gap.val ++ text).takeWhile isHorizontal = gap.val := by
  rw [List.takeWhile_append_of_pos gap.property, takeWhile_solid solid, List.append_nil]

theorem trimStart_gap (gap : Gap) (text : Utf16) : trimStart (gap.val ++ text) = trimStart text :=
  List.dropWhile_append_of_pos gap.property

theorem solid_trimStart (text : Utf16) : Solid (trimStart text) := by
  induction text with
  | nil => simp [trimStart, Solid]
  | cons unit rest ih =>
    by_cases horizontal : isHorizontal unit = true
    · simpa [trimStart, List.dropWhile, horizontal] using ih
    · simpa [trimStart, List.dropWhile, horizontal] using
        solid_cons (Bool.eq_false_iff.mpr horizontal) rest

theorem exists_gap (text : Utf16) : ∃ gap : Gap, text = gap.val ++ trimStart text := by
  refine ⟨⟨text.takeWhile isHorizontal, fun unit inside => List.mem_takeWhile_imp inside⟩, ?_⟩
  exact (List.takeWhile_append_dropWhile (p := isHorizontal)).symm

theorem trimHorizontal_gap_append (gap : Gap) (text : Utf16) :
    trimHorizontal (gap.val ++ text) = trimHorizontal text := by
  rw [trimHorizontal, trimStart_gap, trimHorizontal]

theorem trimHorizontal_append_gap (text : Utf16) (gap : Gap) :
    trimHorizontal (text ++ gap.val) = trimHorizontal text := by
  have reversed : ∀ unit ∈ gap.val.reverse, isHorizontal unit = true := by
    intro unit inside
    exact gap.property unit (List.mem_reverse.mp inside)
  unfold trimHorizontal trimStart
  rw [List.dropWhile_append]
  by_cases empty : (text.dropWhile isHorizontal).isEmpty = true
  · have nothing : gap.val.dropWhile isHorizontal = [] := List.dropWhile_eq_nil_iff.mpr gap.property
    rw [if_pos empty, nothing, List.isEmpty_iff.mp empty]
  · rw [if_neg empty, List.reverse_append, List.dropWhile_append_of_pos reversed]

theorem trimHorizontal_solid {text : Utf16} (solid : ∀ unit ∈ text, isHorizontal unit = false) :
    trimHorizontal text = text := by
  have forward : Solid text := fun unit head => solid unit (List.mem_of_head? head)
  have backward : Solid text.reverse := by
    intro unit head
    exact solid unit (List.mem_reverse.mp (List.mem_of_head? head))
  rw [trimHorizontal, trimStart_solid forward, trimStart_solid backward, List.reverse_reverse]

theorem trimHorizontal_gap (gap : Gap) : trimHorizontal gap.val = [] := by
  simpa [trimHorizontal, trimStart] using trimHorizontal_gap_append gap []

theorem hash_not_horizontal : isHorizontal hash = false := by decide

theorem beforeComment_spaces {text : Utf16} (comment : (trimStart text).head? = some hash)
    (later : text.head? ≠ some hash) : ∀ unit ∈ beforeComment text, isHorizontal unit = true := by
  induction text with
  | nil => simp [beforeComment]
  | cons unit rest ih =>
    by_cases horizontal : isHorizontal unit = true
    · have inner : (trimStart rest).head? = some hash := by
        simpa [trimStart, List.dropWhile, horizontal] using comment
      by_cases here : rest.head? = some hash
      · simp [beforeComment, horizontal, here]
      · simp only [beforeComment, horizontal, Bool.true_and, beq_iff_eq, here, if_false]
        exact List.forall_mem_cons.mpr ⟨horizontal, ih inner here⟩
    · refine absurd ?_ later
      simpa [trimStart, List.dropWhile, horizontal] using comment

theorem beforeComment_eq (text : Utf16) :
    ∃ gap : Gap, beforeComment text = (match commentAt text with
      | some index => text.take index
      | none => text) ++ gap.val := by
  induction text with
  | nil => exact ⟨⟨[], by simp⟩, rfl⟩
  | cons unit rest ih =>
    by_cases opens : isHorizontal unit = true ∧ (trimStart rest).head? = some hash
    · have found : commentAt (unit :: rest) = some 0 := by simp [commentAt, opens]
      refine ⟨⟨beforeComment (unit :: rest), ?_⟩, by simp [found]⟩
      by_cases here : rest.head? = some hash
      · simp [beforeComment, opens.1, here]
      · simp only [beforeComment, opens.1, Bool.true_and, beq_iff_eq, here, if_false]
        exact List.forall_mem_cons.mpr ⟨opens.1, beforeComment_spaces opens.2 here⟩
    · have apart : ¬ (isHorizontal unit = true ∧ rest.head? = some hash) := by
        rintro ⟨horizontal, here⟩
        have solid : Solid rest := by
          intro first head
          rw [here, Option.some.injEq] at head
          exact head ▸ hash_not_horizontal
        exact opens ⟨horizontal, (trimStart_solid solid).symm ▸ here⟩
      obtain ⟨gap, same⟩ := ih
      refine ⟨gap, ?_⟩
      simp only [beforeComment, commentAt, Bool.and_eq_true, beq_iff_eq, opens, apart, if_false, same]
      cases commentAt rest <;> simp

theorem trimUnquotedValue_eq (text : Utf16) :
    trimUnquotedValue text = trimHorizontal (beforeComment text) := by
  obtain ⟨gap, same⟩ := beforeComment_eq text
  rw [same, trimHorizontal_append_gap, trimUnquotedValue]
  cases commentAt text <;> rfl

theorem trimHorizontal_cons {unit : UInt16} (solid : isHorizontal unit = false) (rest : Utf16) :
    trimHorizontal (unit :: rest) = unit :: (trimStart rest.reverse).reverse := by
  rw [trimHorizontal, trimStart_solid (solid_cons solid rest), List.reverse_cons, trimStart,
    List.dropWhile_append]
  split
  case isTrue empty => simp [trimStart, List.isEmpty_iff.mp empty, List.dropWhile, solid]
  case isFalse => simp [trimStart]

theorem beforeComment_gap_append (gap : Gap) {text : Utf16} (solid : Solid text)
    (plain : text.head? ≠ some hash) :
    beforeComment (gap.val ++ text) = gap.val ++ beforeComment text := by
  obtain ⟨gap, spaces⟩ := gap
  induction gap with
  | nil => rfl
  | cons unit gap ih =>
    have later : ∀ unit ∈ gap, isHorizontal unit = true := (List.forall_mem_cons.mp spaces).2
    have next : (gap ++ text).head? ≠ some hash := by
      cases gap with
      | nil => exact plain
      | cons first gap =>
        have horizontal := later first List.mem_cons_self
        intro same
        simp only [List.cons_append, List.head?_cons, Option.some.injEq] at same
        rw [same, hash_not_horizontal] at horizontal
        exact Bool.false_ne_true horizontal
    have goes_on : ((gap ++ text).head? == some hash) = false := beq_eq_false_iff_ne.mpr next
    simp only [List.cons_append, beforeComment, goes_on, Bool.and_false, Bool.false_eq_true, if_false]
    exact congrArg (unit :: ·) (ih later)

/-- The parser reads an unquoted value as the text states it unless a comment opens it. -/
theorem read_eq_stated_iff (raw : Utf16) :
    trimUnquotedValue (trimStart raw) = trimHorizontal (beforeComment raw) ↔
      opensComment raw = false := by
  rw [trimUnquotedValue_eq]
  obtain ⟨gap, split⟩ := exists_gap raw
  have solid := solid_trimStart raw
  by_cases comment : (trimStart raw).head? = some hash
  · obtain ⟨rest, isRest⟩ := List.head?_eq_some_iff.mp comment
    by_cases here : raw.head? = some hash
    · have solidRaw : Solid raw := by
        intro first head
        rw [here, Option.some.injEq] at head
        exact head ▸ hash_not_horizontal
      simp [trimStart_solid solidRaw, opensComment, here, hash_not_horizontal]
    · have spaces : trimHorizontal (beforeComment raw) = [] :=
        trimHorizontal_gap ⟨_, beforeComment_spaces comment here⟩
      have opens : opensComment raw = true := by
        cases raw with
        | nil => exact absurd comment (by simp [trimStart])
        | cons unit rest =>
          by_cases horizontal : isHorizontal unit = true
          · simp [opensComment, horizontal, comment]
          · rw [trimStart_solid (solid_cons (Bool.eq_false_iff.mpr horizontal) rest)] at comment
            exact absurd comment here
      simp only [opens, Bool.true_eq_false, iff_false, spaces, isRest]
      simp only [beforeComment, hash_not_horizontal, Bool.false_and, Bool.false_eq_true, if_false]
      simp [trimHorizontal_cons hash_not_horizontal]
  · have plain : opensComment raw = false := by simp [opensComment, comment]
    have same := beforeComment_gap_append gap solid comment
    rw [← split] at same
    simp [plain, same, trimHorizontal_gap_append]

theorem resolve_unescaped {unit : UInt16} (plain : escapeUnit unit = [unit]) :
    unit ≠ backslash ∧ unit ≠ doubleQuote ∧ unit ≠ lineFeed := by
  refine ⟨?_, ?_, ?_⟩ <;> (rintro rfl; revert plain; decide)

theorem escapeUnit_cases (unit : UInt16) :
    (escapeUnit unit = [unit] ∧ unit ≠ carriageReturn) ∨
      ∃ letter, escapeUnit unit = [backslash, letter] ∧ resolveEscape letter = [unit] ∧
        letter < 0x80 ∧ unit < 0x80 ∧ letter ≠ lineFeed ∧ letter ≠ carriageReturn := by
  by_cases isBackslash : unit = backslash
  · subst isBackslash
    exact .inr ⟨backslash, by decide⟩
  by_cases isQuote : unit = doubleQuote
  · subst isQuote
    exact .inr ⟨doubleQuote, by decide⟩
  by_cases isBreak : unit = lineFeed
  · subst isBreak
    exact .inr ⟨0x6E, by decide⟩
  by_cases isTab : unit = tab
  · subst isTab
    exact .inr ⟨0x74, by decide⟩
  by_cases isReturn : unit = carriageReturn
  · subst isReturn
    exact .inr ⟨0x72, by decide⟩
  exact .inl ⟨by simp [escapeUnit, isBackslash, isQuote, isBreak, isTab, isReturn], isReturn⟩

theorem scanQuotedFrom_escape {text rest : Utf16} {index : Nat} (value read : Utf16) (newlines : Nat)
    (here : text.drop index = escape value ++ rest) :
    scanQuotedFrom text doubleQuote index read newlines =
      scanQuotedFrom text doubleQuote (index + (escape value).length) (read ++ value) newlines := by
  induction value generalizing index read with
  | nil => simp [escape]
  | cons unit value ih =>
    have split : escape (unit :: value) = escapeUnit unit ++ escape value := rfl
    rw [split, List.append_assoc] at here
    have later := drop_add_of_drop _ here
    have rest_read := ih (read ++ [unit]) later
    rw [List.append_assoc, List.singleton_append, Nat.add_assoc, ← List.length_append] at rest_read
    rw [split, ← rest_read]
    rcases escapeUnit_cases unit with ⟨plain, _⟩ | ⟨letter, escaped, resolves, -, -, notBreak, -⟩
    · obtain ⟨notBackslash, notQuote, notBreak⟩ := resolve_unescaped plain
      rw [plain] at here ⊢
      have inside := inside_of_drop here
      have at_index := getElem_of_drop here inside
      rw [scanQuotedFrom]
      simp [inside, at_index, notBackslash, notQuote, notBreak]
    · rw [escaped] at here ⊢
      have inside := inside_of_drop here
      have at_index := getElem_of_drop here inside
      have next := getElem?_of_drop (drop_succ_of_drop here)
      rw [scanQuotedFrom]
      simp [inside, at_index, next, notBreak, resolves]

def EndsLine (tail : Utf16) : Prop := tail = [] ∨ ∃ later, tail = lineFeed :: later

theorem lineEnd_spec {text front tail : Utf16} {start : Nat} (here : text.drop start = front ++ tail)
    (inside : start ≤ text.length) (stays : lineFeed ∉ front) (ends : EndsLine tail) :
    (indexOf text lineFeed start).getD text.length = start + front.length ∧
      pastBreak text (indexOf text lineFeed start) = start + front.length + min 1 tail.length ∧
      breakCount (indexOf text lineFeed start) = min 1 tail.length := by
  rcases ends with rfl | ⟨later, rfl⟩
  · rw [List.append_nil] at here
    have nowhere : indexOf text lineFeed start = none := indexOf_none (here ▸ stays)
    have lengths : text.length - start = front.length := by
      rw [← here, List.length_drop]
    have whole : text.length = start + front.length := by omega
    simp [nowhere, pastBreak, breakCount, whole]
  · rw [indexOf_of_drop here stays]
    have one : min 1 (lineFeed :: later).length = 1 := Nat.min_eq_left (by simp)
    simp [pastBreak, breakCount, one]

theorem inline_append {front rest : Utf16} (first : Inline front) (second : Inline rest) :
    Inline (front ++ rest) := by
  simp only [Inline, List.mem_append, not_or]
  exact ⟨⟨first.1, second.1⟩, first.2, second.2⟩

theorem inline_cons {unit : UInt16} {rest : Utf16} (notBreak : unit ≠ lineFeed)
    (notReturn : unit ≠ carriageReturn) (later : Inline rest) : Inline (unit :: rest) :=
  ⟨List.not_mem_cons_of_ne_of_not_mem notBreak.symm later.1,
    List.not_mem_cons_of_ne_of_not_mem notReturn.symm later.2⟩

theorem inline_nil : Inline [] := ⟨List.not_mem_nil, List.not_mem_nil⟩

theorem inline_gap (gap : Gap) : Inline gap.val :=
  ⟨fun inside => absurd (gap.property _ inside) (by decide),
    fun inside => absurd (gap.property _ inside) (by decide)⟩

theorem inline_comment (comment : Option LineText) : Inline (renderComment comment) := by
  cases comment with
  | none => exact inline_nil
  | some text => exact inline_cons (by decide) (by decide) text.property

theorem inline_escape (value : Utf16) : Inline (escape value) := by
  induction value with
  | nil => exact inline_nil
  | cons unit value ih =>
    refine inline_append ?_ ih
    rcases escapeUnit_cases unit with ⟨plain, notReturn⟩ | ⟨letter, escaped, -, -, -, notBreak, notReturn⟩
    · rw [plain]
      exact inline_cons (resolve_unescaped plain).2.2 notReturn inline_nil
    · rw [escaped]
      exact inline_cons (by decide) (by decide) (inline_cons notBreak notReturn inline_nil)

theorem inline_value (value : ValueText) : Inline value.render := by
  cases value with
  | quoted before value after comment =>
    exact inline_append (inline_gap before) (inline_cons (by decide) (by decide)
      (inline_append (inline_escape value) (inline_cons (by decide) (by decide)
        (inline_append (inline_gap after) (inline_comment comment)))))
  | unquoted raw => exact raw.property

def isNameUnit (unit : UInt16) : Bool := isNameStart unit || isDigit unit

theorem name_cases (name : AppEnvName) :
    ∃ first rest, name.val = first :: rest ∧ isNameStart first = true ∧
      ∀ unit ∈ name.val, isNameUnit unit = true := by
  obtain ⟨name, pattern, -⟩ := name
  cases name with
  | nil => exact absurd pattern Bool.false_ne_true
  | cons first rest =>
    simp only [matchesNamePattern, Bool.and_eq_true, List.all_eq_true] at pattern
    refine ⟨first, rest, rfl, pattern.1.1, List.forall_mem_cons.mpr ⟨?_, pattern.1.2⟩⟩
    simp [isNameUnit, pattern.1.1]

theorem not_mem_name (name : AppEnvName) {unit : UInt16} (other : isNameUnit unit = false) :
    unit ∉ name.val := by
  obtain ⟨_, _, -, -, units⟩ := name_cases name
  exact fun inside => absurd (units unit inside) (by simp [other])

theorem inline_name (name : AppEnvName) : Inline name.val :=
  ⟨not_mem_name name (by decide), not_mem_name name (by decide)⟩

theorem inline_export (gap : Option {gap : Gap // gap.val ≠ []}) : Inline (renderExport gap) := by
  cases gap with
  | none => exact inline_nil
  | some gap => exact inline_append (by unfold Inline; decide) (inline_gap gap.val)

theorem inline_line (line : DotenvLine) : Inline line.render := by
  cases line with
  | blank gap => exact inline_gap gap
  | comment indent text =>
    exact inline_append (inline_gap indent) (inline_cons (by decide) (by decide) text.property)
  | assignment written =>
    exact inline_append (inline_gap written.indent) (inline_append (inline_export written.exportGap)
      (inline_append (inline_name written.name) (inline_append (inline_gap written.gap)
        (inline_cons (by decide) (by decide) (inline_value written.value)))))

theorem closeQuotedValue_spec {text tail value : Utf16} {index : Nat} {after : Gap}
    {comment : Option LineText} (newlines : Nat)
    (here : text.drop (index + 1) = (after.val ++ renderComment comment) ++ tail)
    (inside : index + 1 ≤ text.length) (ends : EndsLine tail)
    (small : byteLength value ≤ appEnvValueMaxBytes) :
    closeQuotedValue text index value newlines =
      ⟨index + 1 + (after.val ++ renderComment comment).length + min 1 tail.length,
        newlines + min 1 tail.length, .value value⟩ := by
  have stays := inline_append (inline_gap after) (inline_comment comment)
  obtain ⟨stop, next, count⟩ := lineEnd_spec here inside stays.1 ends
  have remainder : trimHorizontal (after.val ++ renderComment comment) = [] ∨
      (trimHorizontal (after.val ++ renderComment comment)).head? = some hash := by
    rw [trimHorizontal_gap_append]
    cases comment with
    | none => exact .inl (by simp [renderComment, trimHorizontal, trimStart])
    | some text => exact .inr (by simp [renderComment, trimHorizontal_cons hash_not_horizontal])
  unfold closeQuotedValue
  dsimp only
  rw [stop, next, count, slice_of_drop here, if_neg (by tauto), if_neg (by omega)]

@[simp] theorem escape_cons (unit : UInt16) (rest : Utf16) :
    escape (unit :: rest) = escapeUnit unit ++ escape rest := rfl

theorem byteLength_letter {letter : UInt16} (ascii : letter < 0x80) (rest : Utf16) :
    byteLength (backslash :: letter :: rest) = 2 + byteLength rest := by
  rw [byteLength_cons_ascii (by decide), byteLength_cons_ascii ascii]
  omega

theorem byteLength_escape (value : Utf16) : byteLength value ≤ byteLength (escape value) := by
  induction value using byteLength.induct with
  | case1 => exact Nat.le_refl _
  | case2 unit =>
    rcases escapeUnit_cases unit with ⟨plain, -⟩ | ⟨letter, escaped, -, asciiLetter, asciiUnit, -⟩
    · simp [escape, plain]
    · rw [escape_cons, escaped, byteLength_cons_ascii asciiUnit]
      simp only [List.cons_append, List.nil_append, byteLength_letter asciiLetter]
      simp [byteLength]
      omega
  | case3 high low rest pair ih =>
    have isPair := (Bool.and_eq_true _ _).mp pair
    rcases escapeUnit_cases high with ⟨plainHigh, -⟩ | ⟨_, -, -, -, ascii, -⟩
    · rcases escapeUnit_cases low with ⟨plainLow, -⟩ | ⟨_, -, -, -, ascii, -⟩
      · simp only [escape_cons, plainHigh, plainLow, List.cons_append, List.nil_append, byteLength, pair,
          if_true]
        omega
      · simp [not_low_of_ascii ascii] at isPair
    · simp [not_high_of_ascii ascii] at isPair
  | case4 unit next rest apart ih =>
    have alone : byteLength (unit :: next :: rest) = width unit + byteLength (next :: rest) := by
      simp [byteLength, apart]
    rcases escapeUnit_cases unit with ⟨plain, -⟩ | ⟨letter, escaped, -, asciiLetter, asciiUnit, -⟩
    · have first : isHighSurrogate unit = true →
          ∀ head, (escape (next :: rest)).head? = some head → isLowSurrogate head = false := by
        intro high head isHead
        rcases escapeUnit_cases next with ⟨plainNext, -⟩ | ⟨letter, escaped, -⟩
        · simp only [escape_cons, plainNext, List.cons_append, List.head?_cons, Option.some.injEq] at isHead
          simpa [high, isHead] using apart
        · simp only [escape_cons, escaped, List.cons_append, List.head?_cons, Option.some.injEq] at isHead
          rw [← isHead]
          decide
      rw [escape_cons, plain, List.singleton_append, byteLength_cons first, alone]
      omega
    · rw [escape_cons, escaped, alone]
      simp only [List.cons_append, List.nil_append, byteLength_letter asciiLetter, width, asciiUnit, if_true]
      omega

theorem scanQuotedFrom_close {text rest value : Utf16} {index newlines : Nat}
    (here : text.drop index = doubleQuote :: rest) :
    scanQuotedFrom text doubleQuote index value newlines = closeQuotedValue text index value newlines := by
  rw [scanQuotedFrom]
  have inside := inside_of_drop here
  have at_index := getElem_of_drop here inside
  have notBackslash : doubleQuote ≠ backslash := by decide
  simp [inside, at_index, notBackslash]

theorem skip_of_drop {text tail rest : Utf16} {start : Nat} (gap : Gap) (solid : Solid rest)
    (here : text.drop start = (gap.val ++ rest) ++ tail) :
    skipHorizontalWhitespace text start (start + (gap.val ++ rest).length) = start + gap.val.length := by
  rw [skipHorizontalWhitespace, slice_of_drop here, takeWhile_gap gap solid]

theorem value_small {text rest value : Utf16} {index : Nat}
    (here : text.drop index = doubleQuote :: (escape value ++ doubleQuote :: rest)) :
    byteLength value ≤ byteLength text := by
  have split : text = text.take index ++ doubleQuote :: (escape value ++ doubleQuote :: rest) := by
    rw [← here, List.take_append_drop]
  rw [split, byteLength_append_ascii (by decide), byteLength_cons_ascii (by decide),
    byteLength_append_ascii (by decide)]
  have grows := byteLength_escape value
  omega

/-- Without quotes the value is what the rest of the line comes to, whatever stands around it. -/
theorem scanValue_unquoted {text : Utf16} {start lineEnd : Nat} (next newlines : Nat)
    (plain : opensQuote (slice text start lineEnd) = false) :
    scanValue text start lineEnd next newlines =
      ⟨next, newlines, .value (trimUnquotedValue (trimStart (slice text start lineEnd)))⟩ := by
  have drops (units : Utf16) :
      units.drop (units.takeWhile isHorizontal).length = trimStart units := by
    induction units with
    | nil => rfl
    | cons unit units ih =>
      by_cases horizontal : isHorizontal unit = true
      · simpa [trimStart, List.dropWhile, List.takeWhile, horizontal] using ih
      · simp [trimStart, List.dropWhile, List.takeWhile, horizontal]
  have rest : slice text (skipHorizontalWhitespace text start lineEnd) lineEnd =
      trimStart (slice text start lineEnd) := by
    rw [← drops, skipHorizontalWhitespace]
    simp [slice]
  simp only [opensQuote, Bool.or_eq_false_iff, beq_eq_false_iff_ne, ← rest] at plain
  simp only [scanValue, rest]
  split
  case h_1 unit isUnit =>
    have opens : (slice text (skipHorizontalWhitespace text start lineEnd) lineEnd).head? = some unit := by
      split at isUnit
      case isTrue inside => rw [slice, List.head?_drop, List.getElem?_take_of_lt inside, isUnit]
      case isFalse => exact absurd isUnit (by simp)
    rw [opens] at plain
    rw [if_neg (by simpa using plain)]
  case h_2 => rfl

theorem scanValue_spec {text tail : Utf16} {start : Nat} (value : ValueText)
    (here : text.drop start = value.render ++ tail) (inside : start ≤ text.length)
    (ends : EndsLine tail) (small : byteLength text ≤ appEnvValueMaxBytes) :
    scanValue text start (start + value.render.length)
        (start + value.render.length + min 1 tail.length) (min 1 tail.length) =
      ⟨start + value.render.length + min 1 tail.length, min 1 tail.length, .value value.read⟩ := by
  cases value with
  | quoted before value after comment =>
    have solid : Solid (doubleQuote ::
        (escape value ++ (doubleQuote :: (after.val ++ renderComment comment)))) :=
      solid_cons (by decide) _
    have skipped := skip_of_drop before solid here
    have total : (ValueText.quoted before value after comment).render.length = before.val.length + 1 +
        (escape value).length + 1 + (after.val ++ renderComment comment).length := by
      simp [ValueText.render]
      omega
    simp only [ValueText.render, List.append_assoc, List.cons_append] at here
    have atQuote := drop_add_of_drop _ here
    have atValue := drop_succ_of_drop atQuote
    have atClose := drop_add_of_drop _ atValue
    have atAfter := drop_succ_of_drop atClose
    rw [← List.append_assoc] at atAfter
    have lengths := inside_of_drop atClose
    have closed := closeQuotedValue_spec 0 atAfter (by omega) ends
      (Nat.le_trans (value_small atQuote) small)
    have opened : text[start + before.val.length]? = some doubleQuote := getElem?_of_drop atQuote
    have room : start + before.val.length < start +
        (before.val.length + 1 + (escape value).length + 1 +
          (after.val ++ renderComment comment).length) := by omega
    have read : scanQuotedValue text (start + before.val.length) doubleQuote =
        closeQuotedValue text (start + before.val.length + 1 + (escape value).length) value 0 := by
      rw [scanQuotedValue, scanQuotedFrom_escape value [] 0 atValue, List.nil_append,
        scanQuotedFrom_close atClose]
    simp only [ValueText.render] at total ⊢
    rw [total] at skipped ⊢
    simp only [scanValue, skipped, room, if_true, opened, read, closed, true_or, ValueText.read]
    simp
    omega
  | unquoted raw plain =>
    have isRaw : slice text start (start + raw.val.length) = raw.val := slice_of_drop here
    have read := scanValue_unquoted (start + raw.val.length + min 1 tail.length) (min 1 tail.length)
      (isRaw.symm ▸ plain)
    rw [isRaw] at read
    exact read

/-- What an assignment begins with: a name, or `export`. -/
def isBodyStart (unit : UInt16) : Bool := isNameStart unit || unit == 0x65

theorem bodyStart_not {unit other : UInt16} (start : isBodyStart unit = true)
    (apart : isBodyStart other = false) : unit ≠ other := by
  rintro rfl
  simp [apart] at start

theorem bodyStart_solid {unit : UInt16} (start : isBodyStart unit = true) :
    isHorizontal unit = false := by
  simp [isHorizontal, bodyStart_not start (show isBodyStart tab = false by decide),
    bodyStart_not start (show isBodyStart space = false by decide)]

theorem name_solid (name : AppEnvName) : ∀ unit ∈ name.val, isHorizontal unit = false := by
  obtain ⟨_, _, -, -, units⟩ := name_cases name
  intro unit inside
  have isName := units unit inside
  by_contra horizontal
  simp only [isHorizontal, Bool.not_eq_false, Bool.or_eq_true, beq_iff_eq] at horizontal
  rcases horizontal with rfl | rfl
  · exact absurd isName (by decide)
  · exact absurd isName (by decide)

theorem body_starts (gap : Option {gap : Gap // gap.val ≠ []}) (name : AppEnvName) (rest : Utf16) :
    ∃ first others, renderExport gap ++ (name.val ++ rest) = first :: others ∧
      isBodyStart first = true := by
  cases gap with
  | none =>
    obtain ⟨first, others, isName, start, -⟩ := name_cases name
    exact ⟨first, others ++ rest, by simp [renderExport, isName], by simp [isBodyStart, start]⟩
  | some gap => exact ⟨0x65, _, rfl, by decide⟩

theorem skipExport_spec {text tail rest : Utf16} {start : Nat} {gap : Option {gap : Gap // gap.val ≠ []}}
    {name : AppEnvName} (here : text.drop start = (renderExport gap ++ (name.val ++ rest)) ++ tail) :
    skipExportPrefix text start (start + (renderExport gap ++ (name.val ++ rest)).length) =
      start + (renderExport gap).length := by
  obtain ⟨first, others, isName, isStart, -⟩ := name_cases name
  have solid : Solid (name.val ++ rest) := by
    rw [isName]
    exact solid_cons (name_solid name first (by simp [isName])) _
  rw [skipExportPrefix, slice_of_drop here]
  cases gap with
  | none =>
    have other : exportWord.isPrefixOf (renderExport none ++ (name.val ++ rest)) = false := by
      have apart : (0x65 : UInt16) ≠ first := by
        rintro rfl
        exact absurd isStart (by decide)
      simp [renderExport, exportWord, isName, List.isPrefixOf, apart]
    simp only [other, Bool.false_and, Bool.false_eq_true, if_false]
    simp [renderExport]
  | some gap =>
    have isExport : exportWord.isPrefixOf (renderExport (some gap) ++ (name.val ++ rest)) = true := by
      rw [List.isPrefixOf_iff_prefix, renderExport, List.append_assoc]
      exact List.prefix_append _ _
    have behind : (renderExport (some gap) ++ (name.val ++ rest)).drop exportWord.length =
        gap.val.val ++ (name.val ++ rest) := by
      rw [renderExport, List.append_assoc, List.drop_left]
    have some_gap := List.length_pos_iff.mpr gap.property
    simp only [isExport, behind, takeWhile_gap gap.val solid, some_gap, decide_true, Bool.and_self, if_true]
    simp [renderExport]

def DotenvLine.outcome : DotenvLine → LineOutcome
  | blank _ | comment _ _ => .blank
  | assignment written => .entry written.name.val written.value.read

theorem scanLine_spec {text tail : Utf16} {start : Nat} (line : DotenvLine)
    (here : text.drop start = line.render ++ tail) (inside : start ≤ text.length)
    (ends : EndsLine tail) (small : byteLength text ≤ appEnvValueMaxBytes) :
    scanLine text start =
      ⟨start + line.render.length + min 1 tail.length, min 1 tail.length, line.outcome⟩ := by
  obtain ⟨stop, next, count⟩ := lineEnd_spec here inside (inline_line line).1 ends
  unfold scanLine
  dsimp only
  rw [stop, next, count]
  cases line with
  | blank gap =>
    have solid : Solid [] := by simp [Solid]
    have skipped := skip_of_drop gap solid (by simpa [DotenvLine.render] using here)
    rw [List.append_nil] at skipped
    simp [DotenvLine.render, skipped, DotenvLine.outcome]
  | comment indent comment =>
    have skipped := skip_of_drop indent (solid_cons hash_not_horizontal comment.val) here
    have atHash := drop_add_of_drop indent.val ((List.append_assoc _ _ _).symm ▸ here)
    have found := getElem?_of_drop atHash
    rw [if_pos (.inr (skipped ▸ found)), DotenvLine.outcome]
  | assignment written =>
    obtain ⟨first, others, isBody, isStart⟩ := body_starts written.exportGap written.name
      (written.gap.val ++ equalsSign :: written.value.render)
    have skipped : skipHorizontalWhitespace text start
        (start + (DotenvLine.assignment written).render.length) = start + written.indent.val.length :=
      skip_of_drop written.indent (isBody ▸ solid_cons (bodyStart_solid isStart) others) here
    have atBody := drop_add_of_drop written.indent.val ((List.append_assoc _ _ _).symm ▸ here)
    have atExport := skipExport_spec atBody
    have total : (DotenvLine.assignment written).render.length = written.indent.val.length +
        ((renderExport written.exportGap).length + ((written.name.val ++ written.gap.val).length + 1 +
          written.value.render.length)) := by
      simp [DotenvLine.render, Assignment.render]
      omega
    have body : start + (DotenvLine.assignment written).render.length =
        start + written.indent.val.length + (renderExport written.exportGap ++ (written.name.val ++
          (written.gap.val ++ equalsSign :: written.value.render))).length := by
      simp [DotenvLine.render, Assignment.render, Nat.add_assoc]
    have bodyStart : skipExportPrefix text
        (skipHorizontalWhitespace text start (start + (DotenvLine.assignment written).render.length))
        (start + (DotenvLine.assignment written).render.length) =
          start + written.indent.val.length + (renderExport written.exportGap).length := by
      rw [skipped, body, atExport]
    have atName : text.drop (start + written.indent.val.length + (renderExport written.exportGap).length) =
        (written.name.val ++ written.gap.val) ++ equalsSign :: (written.value.render ++ tail) := by
      rw [List.append_assoc] at atBody
      simpa using drop_add_of_drop _ atBody
    have noEquals : equalsSign ∉ written.name.val ++ written.gap.val := by
      rw [List.mem_append, not_or]
      exact ⟨not_mem_name _ (by decide), fun inside => absurd (written.gap.property _ inside) (by decide)⟩
    have atValue := drop_succ_of_drop (drop_add_of_drop _ atName)
    have lengths := inside_of_drop (drop_add_of_drop _ atName)
    have value := scanValue_spec written.value atValue lengths ends small
    have name : trimHorizontal (written.name.val ++ written.gap.val) = written.name.val := by
      rw [trimHorizontal_append_gap, trimHorizontal_solid (name_solid written.name)]
    have notBlank : ¬ (start + (DotenvLine.assignment written).render.length ≤
        skipHorizontalWhitespace text start (start + (DotenvLine.assignment written).render.length) ∨
          text[skipHorizontalWhitespace text start
            (start + (DotenvLine.assignment written).render.length)]? = some hash) := by
      rw [skipped, not_or]
      rw [isBody] at atBody
      refine ⟨by omega, ?_⟩
      rw [getElem?_of_drop atBody]
      simpa using bodyStart_not isStart (by decide)
    have after : start + written.indent.val.length + (renderExport written.exportGap).length +
        (written.name.val ++ written.gap.val).length + 1 + written.value.render.length =
          start + (DotenvLine.assignment written).render.length := by omega
    rw [after] at value
    have before : ¬ start + (DotenvLine.assignment written).render.length ≤
        start + written.indent.val.length + (renderExport written.exportGap).length +
          (written.name.val ++ written.gap.val).length := by omega
    rw [if_neg notBlank, bodyStart, indexOf_of_drop atName noEquals]
    simp only [before, if_false, slice_of_drop atName, name, written.name.property, value,
      DotenvLine.outcome]
    simp

end EverWorks.AppEnv
