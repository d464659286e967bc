import EverWorks.Fleet.DownloadEntries

/-!
What the writer has sent after each record: the parts of the entries so far, and what it keeps for the directory.
-/

namespace EverWorks.Fleet
open Lib Lib.Utf16 Lib.Int32 List Option LittleEndian FleetZipWriter

structure StoredEntry where
  header : FleetFilesStreamHeader
  content : List UInt8 := []

def DownloadEntry.stored (entry : DownloadEntry) : StoredEntry := ⟨entry.header, entry.content⟩

def localPart (dates : ZipDates) (header : FleetFilesStreamHeader) : List UInt8 :=
  let (time, date) := dosDateTime dates header.mtimeMs
  bytes (localFields time date (zipName header).length) ++ zipName header

namespace StoredEntry

def crc (entry : StoredEntry) : Int := ofWord (Crc32.crc32 entry.content)

def descriptor (entry : StoredEntry) : List UInt8 :=
  bytes (descriptorFields entry.crc entry.content.length)

def part (dates : ZipDates) (entry : StoredEntry) : List UInt8 :=
  localPart dates entry.header ++ entry.content ++ entry.descriptor

def central (dates : ZipDates) (entry : StoredEntry) (offset : Nat) : CentralEntry where
  name := zipName entry.header
  crc := entry.crc
  size := entry.content.length
  offset := offset
  time := (dosDateTime dates entry.header.mtimeMs).1
  date := (dosDateTime dates entry.header.mtimeMs).2
  attributes := zipAttributes entry.header

end StoredEntry

def body (dates : ZipDates) (entries : List StoredEntry) : List UInt8 := entries.flatMap (·.part dates)

def centralOf (dates : ZipDates) : Nat → List StoredEntry → List CentralEntry
  | _, [] => []
  | offset, entry :: entries =>
    entry.central dates offset :: centralOf dates (offset + (entry.part dates).length) entries

theorem dosDateTime_fits (dates : ZipDates) (mtimeMs : ℚ) :
    (dosDateTime dates mtimeMs).1 < 2 ^ 16 ∧ (dosDateTime dates mtimeMs).2 < 2 ^ 16 := by
  have shifted {x bits w : Nat} (small : x < 2 ^ w) (sum : w + bits ≤ 16) : x <<< bits < 2 ^ 16 := by
    rw [Nat.shiftLeft_eq]
    calc x * 2 ^ bits < 2 ^ w * 2 ^ bits := Nat.mul_lt_mul_of_pos_right small (Nat.two_pow_pos bits)
      _ = 2 ^ (w + bits) := (Nat.pow_add 2 w bits).symm
      _ ≤ 2 ^ 16 := Nat.pow_le_pow_right (by decide) sum
  unfold dosDateTime
  split
  · exact ⟨by decide, by decide⟩
  · rename_i day _
    have hours := day.hours.isLt
    have minutes := day.minutes.isLt
    have seconds := day.seconds.isLt
    have month := day.month.isLt
    have date := day.day.isLt
    constructor
    · refine Nat.or_lt_two_pow (Nat.or_lt_two_pow ?_ ?_) ?_
      · exact shifted (w := 5) (by omega) (by decide)
      · exact shifted (w := 6) (by omega) (by decide)
      · omega
    · refine Nat.or_lt_two_pow (Nat.or_lt_two_pow ?_ ?_) ?_
      · exact shifted (w := 7) (by omega) (by decide)
      · exact shifted (w := 4) (by omega) (by decide)
      · omega

theorem zipAttributes_fits (header : FleetFilesStreamHeader) : zipAttributes header < 2 ^ 32 := by
  have low : (unixMode header &&& 0xffff) < 2 ^ 16 := Nat.and_lt_two_pow _ (by decide)
  refine Nat.or_lt_two_pow ?_ (by split_ifs <;> decide)
  rw [Nat.shiftLeft_eq]
  omega

theorem uint16_fits {n : Nat} (small : n < 2 ^ 16) : (uint16 n).Fits := by
  refine ⟨Int.natCast_nonneg n, ?_⟩
  show (n : Int) < 256 ^ 2
  omega

theorem uint32_fits {n : Nat} (small : n < 2 ^ 32) : (uint32 n).Fits := by
  refine ⟨Int.natCast_nonneg n, ?_⟩
  show (n : Int) < 256 ^ 4
  omega

theorem word_fits (w : Crc32.Word) : (uint32 (ofWord w)).Fits := uint32_fits w.isLt

theorem localFields_fit {time date nameLength : Nat} (t : time < 2 ^ 16) (d : date < 2 ^ 16)
    (name : nameLength < 2 ^ 16) : ∀ field ∈ localFields time date nameLength, field.Fits := by
  simp only [localFields, forall_mem_cons, uint16_fits t, uint16_fits d, uint16_fits name, true_and]
  decide

theorem descriptorFields_fit (w : Crc32.Word) {size : Nat} (small : size < 2 ^ 32) :
    ∀ field ∈ descriptorFields (ofWord w) size, field.Fits := by
  simp only [descriptorFields, forall_mem_cons, word_fits, uint32_fits small, true_and]
  decide

theorem centralFields_fit (dates : ZipDates) {entry : StoredEntry} {offset : Nat}
    (name : (zipName entry.header).length < 2 ^ 16) (size : entry.content.length < 2 ^ 32) (start : offset < 2 ^ 32) :
    ∀ field ∈ centralFields (entry.central dates offset), field.Fits := by
  obtain ⟨time, date⟩ := dosDateTime_fits dates entry.header.mtimeMs
  have crc : (uint32 entry.crc).Fits := word_fits _
  simp only [centralFields, StoredEntry.central, forall_mem_cons, uint16_fits time, uint16_fits date, crc,
    uint32_fits size, uint16_fits name, uint32_fits (zipAttributes_fits entry.header), uint32_fits start, true_and]
  decide

theorem endFields_fit {count size start : Nat} (s : size < 2 ^ 32) (o : start < 2 ^ 32) :
    ∀ field ∈ endFields count size start, field.Fits := by
  have c : min count 0xffff < 2 ^ 16 := by omega
  simp only [endFields, forall_mem_cons, uint16_fits c, uint32_fits s, uint32_fits o, true_and]
  decide

def StoredEntry.openPart (dates : ZipDates) (entry : StoredEntry) : List UInt8 :=
  localPart dates entry.header ++ entry.content

structure Zipped (dates : ZipDates) (zip : FleetZipWriter) (closed : List StoredEntry) (opened : Option StoredEntry) :
    Prop where
  archive : zip.archive = body dates closed ++ (opened.map (·.openPart dates)).getD []
  offset : zip.offset = zip.archive.length
  central : zip.central = centralOf dates 0 closed
  current : zip.current = opened.map fun entry => entry.central dates (body dates closed).length
  unfinished : zip.finished = false

theorem zipped_new (dates : ZipDates) : Zipped dates {} [] none := ⟨rfl, rfl, rfl, rfl, rfl⟩

section
variable {dates : ZipDates} {zip : FleetZipWriter} {closed : List StoredEntry} {opened : Option StoredEntry}

theorem body_cons (dates : ZipDates) (entry : StoredEntry) (entries : List StoredEntry) :
    body dates (entry :: entries) = entry.part dates ++ body dates entries := flatMap_cons

theorem body_append (dates : ZipDates) (front back : List StoredEntry) :
    body dates (front ++ back) = body dates front ++ body dates back := flatMap_append

theorem centralOf_append (dates : ZipDates) (offset : Nat) (front back : List StoredEntry) :
    centralOf dates offset (front ++ back) =
      centralOf dates offset front ++ centralOf dates (offset + (body dates front).length) back := by
  induction front generalizing offset with
  | nil => rfl
  | cons entry front ih =>
    rw [cons_append, centralOf, ih, centralOf, cons_append, body_cons, length_append, Nat.add_assoc]

theorem closeEntry_of_current {entry : CentralEntry} (current : zip.current = some entry) {descriptor : List UInt8}
    (written : write (descriptorFields entry.crc entry.size) = some descriptor) :
    zip.closeEntry = some
      { offset := zip.offset + descriptor.length, central := zip.central ++ [entry], current := none
        finished := zip.finished, archive := zip.archive ++ descriptor } := by
  rw [closeEntry, current]
  dsimp only
  rw [written]
  rfl

theorem zipped_closeEntry (zipped : Zipped dates zip closed opened)
    (fits : ∀ entry ∈ opened, entry.content.length < 2 ^ 32) :
    ∃ zip', zip.closeEntry = some zip' ∧ Zipped dates zip' (closed ++ opened.toList) none := by
  cases opened with
  | none =>
    rw [toList_none, append_nil, closeEntry, zipped.current]
    exact ⟨zip, rfl, zipped⟩
  | some entry =>
    have written := write_eq (descriptorFields_fit (Crc32.crc32 entry.content) (fits entry rfl))
    refine ⟨_, closeEntry_of_current zipped.current written, ?_⟩
    have whole : body dates (closed ++ [entry]) = body dates closed ++ entry.part dates := by
      rw [body_append, body_cons]
      exact congrArg _ (append_nil _)
    exact {
      archive := by
        dsimp only
        rw [zipped.archive, toList_some, whole, map_none, getD_none, append_nil,
          map_some, getD_some, append_assoc]
        rfl
      offset := by
        dsimp only
        rw [zipped.offset, length_append]
      central := by
        dsimp only
        rw [zipped.central, toList_some, centralOf_append, Nat.zero_add]
        rfl
      current := rfl
      unfinished := zipped.unfinished }

theorem zipped_data {entry : StoredEntry} (zipped : Zipped dates zip closed (some entry)) (bytes : List UInt8) :
    Zipped dates (zip.data bytes) closed (some { entry with content := entry.content ++ bytes }) := by
  rw [data, zipped.current, map_some]
  dsimp only
  split_ifs with empty
  · rw [empty, append_nil]
    exact zipped
  · exact {
      archive := by
        rw [emit]
        dsimp only
        rw [zipped.archive, append_assoc, map_some, getD_some, map_some, getD_some,
          StoredEntry.openPart, StoredEntry.openPart, append_assoc]
      offset := by
        rw [emit]
        dsimp only
        rw [zipped.offset, length_append]
      central := zipped.central
      current := by
        have crc : crc32Update entry.crc bytes = ofWord (Crc32.crc32 (entry.content ++ bytes)) := by
          rw [StoredEntry.crc, crc32Update_eq, Crc32.crc32, Crc32.crc32, BitVec.not_not, foldl_append]
        rw [emit]
        dsimp only [StoredEntry.central]
        rw [crc, map_some, length_append]
        rfl
      unfinished := zipped.unfinished }

theorem zipped_open (zipped : Zipped dates zip closed none) (header : FleetFilesStreamHeader) :
    Zipped dates
      ((({ zip with
          current := some
            { name := zipName header, crc := 0, size := 0, offset := zip.offset
              time := (dosDateTime dates header.mtimeMs).1, date := (dosDateTime dates header.mtimeMs).2
              attributes := zipAttributes header } } : FleetZipWriter).emit
        (bytes (localFields (dosDateTime dates header.mtimeMs).1 (dosDateTime dates header.mtimeMs).2
          (zipName header).length))).emit (zipName header)) closed (some { header }) where
  archive := by
    rw [emit, emit]
    dsimp only
    rw [zipped.archive, map_none, getD_none, append_nil, map_some, getD_some,
      StoredEntry.openPart, append_nil, append_assoc, localPart]
  offset := by
    rw [emit, emit]
    dsimp only
    rw [zipped.offset, length_append, length_append]
  central := zipped.central
  current := by
    have start := zipped.archive
    rw [map_none, getD_none, append_nil] at start
    rw [emit, emit]
    dsimp only
    have none : ofWord (Crc32.crc32 []) = 0 := by decide
    rw [zipped.offset, start, map_some, StoredEntry.central, StoredEntry.crc, none]
    rfl
  unfinished := zipped.unfinished

theorem zipped_entry (zipped : Zipped dates zip closed opened)
    (fits : ∀ entry ∈ opened, entry.content.length < 2 ^ 32) {header : FleetFilesStreamHeader}
    (name : (zipName header).length < 2 ^ 16) (target : (utf8 (header.target.getD [])).length < 2 ^ 32)
    (link : header.kind = .link ↔ header.target.isSome = true) :
    ∃ zip', zip.entry dates header = some zip' ∧
      if header.kind = .file then Zipped dates zip' (closed ++ opened.toList) (some { header })
      else Zipped dates zip' (closed ++ opened.toList ++ [(DownloadEntry.mk header []).stored]) none := by
  obtain ⟨zip₁, closes, zipped₁⟩ := zipped_closeEntry zipped fits
  have written := write_eq (localFields_fit (dosDateTime_fits dates header.mtimeMs).1
    (dosDateTime_fits dates header.mtimeMs).2 name)
  have opens := zipped_open zipped₁ header
  rw [entry, closes, bind_eq_bind, bind_some]
  dsimp only
  rw [written, bind_eq_bind, bind_some]
  generalize (emit (emit _ _) _) = zip₂ at opens ⊢
  cases kind : header.kind with
  | file => exact ⟨zip₂, rfl, opens⟩
  | folder =>
    have content : (DownloadEntry.mk header []).stored = { header } := by
      rw [DownloadEntry.stored, DownloadEntry.content, kind]
    rw [content]
    exact zipped_closeEntry opens fun entry same => by
      cases same
      exact Nat.two_pow_pos 32
  | link =>
    obtain ⟨text, given⟩ := isSome_iff_exists.mp (link.mp kind)
    have content : (DownloadEntry.mk header []).stored = { header, content := utf8 text } := by
      rw [DownloadEntry.stored, DownloadEntry.content, kind, given]
      rfl
    have sent : Zipped dates (if text = [] then zip₂ else zip₂.data (utf8 text)) (closed ++ opened.toList)
        (some { header, content := utf8 text }) := by
      split_ifs with empty
      · rw [empty]
        exact opens
      · exact zipped_data opens (utf8 text)
    rw [content, given]
    exact zipped_closeEntry sent fun entry same => by
      cases same
      rwa [given] at target

end

variable {header : FleetFilesStreamHeader}

theorem length_zipName (limited : header.Limited) : (zipName header).length ≤ 12291 := by
  have path := limited.path
  have limit : filesPathMaxLength = 4096 := rfl
  have three := byteLength_le (if header.kind = .folder then header.path ++ [slash] else header.path)
  have units : (if header.kind = .folder then header.path ++ [slash] else header.path).length ≤ header.path.length + 1 := by
    split_ifs
    · rw [length_append, length_singleton]
    · exact Nat.le_succ _
  rw [zipName, length_utf8]
  omega

theorem length_target (limited : header.Limited) :
    (utf8 (header.target.getD [])).length ≤ 12288 := by
  have limit : filesPathMaxLength = 4096 := rfl
  rw [length_utf8]
  cases given : header.target with
  | none => exact Nat.zero_le _
  | some target =>
    have units := (limited.target target given).2
    have three := byteLength_le target
    rw [getD_some]
    omega

structure Archived (dates : ZipDates) (tracker : FleetFilesStreamTracker) (zip : FleetZipWriter)
    (entries : List DownloadEntry) (closed : List StoredEntry) (opened : Option StoredEntry) : Prop where
  tracked : Tracked tracker entries
  zipped : Zipped dates zip closed opened
  stored : entries.map (·.stored) = closed ++ opened.toList
  file : ∀ entry ∈ opened, entry.header.kind = .file
  noFile : opened = none → ∀ last ∈ entries.getLast?, last.header.kind ≠ .file
  limited : ∀ entry ∈ entries, entry.header.Limited

section
variable {dates : ZipDates} {tracker tracker' : FleetFilesStreamTracker} {zip : FleetZipWriter}
  {entries : List DownloadEntry} {closed : List StoredEntry} {opened : Option StoredEntry}

theorem length_le_totalBytes {entry : DownloadEntry} (listed : entry ∈ entries) :
    entry.bytes.length ≤ totalBytes entries :=
  single_le_sum (by simp) _ (mem_map.mpr ⟨entry, listed, rfl⟩)

theorem Archived.fits (sent : Archived dates tracker zip entries closed opened) :
    ∀ entry ∈ opened, entry.content.length < 2 ^ 32 := by
  intro entry isOpen
  have listed : entry ∈ entries.map (·.stored) := by
    rw [sent.stored, isOpen]
    simp
  obtain ⟨source, inside, rfl⟩ := mem_map.mp listed
  have file : source.header.kind = .file := sent.file _ isOpen
  have content : source.stored.content = source.bytes := by
    rw [DownloadEntry.stored, DownloadEntry.content, file]
  have light := (length_le_totalBytes inside).trans sent.tracked.light
  have limit : filesMaxOpBytes = 2147483648 := rfl
  rw [content]
  omega

theorem archived_header (sent : Archived dates tracker zip entries closed opened)
    (limited : header.Limited) (sized : header.kind ≠ .file → header.size = 0)
    (pushed : tracker.push (.header header) = .ok tracker') :
    ∃ zip' closed' opened', zipRecord dates zip (.header header) = some zip' ∧
      Archived dates tracker' zip' (addRecord entries (.header header)) closed' opened' := by
  have tracked := tracked_header sent.tracked sized pushed
  have name := length_zipName limited
  have target := length_target limited
  obtain ⟨zip', enters, zipped⟩ := zipped_entry sent.zipped sent.fits (show _ < 2 ^ 16 by omega)
    (show _ < 2 ^ 32 by omega) limited.link
  have all : (addRecord entries (.header header)).map (·.stored) =
      closed ++ opened.toList ++ [(DownloadEntry.mk header []).stored] := by
    rw [addRecord, map_append, sent.stored]
    rfl
  have last : (addRecord entries (.header header)).getLast? = some { header } := getLast?_concat
  have every : ∀ entry ∈ addRecord entries (.header header), entry.header.Limited := by
    intro entry listed
    rw [addRecord, mem_append, mem_singleton] at listed
    obtain before | rfl := listed
    · exact sent.limited entry before
    · exact limited
  by_cases file : header.kind = .file
  · rw [if_pos file] at zipped
    refine ⟨zip', _, _, enters, tracked, zipped, ?_, ?_, (fun absent => by cases absent), every⟩
    · rw [all, DownloadEntry.stored, DownloadEntry.content, file]
      rfl
    · intro entry same
      cases same
      exact file
  · rw [if_neg file] at zipped
    refine ⟨zip', _, _, enters, tracked, zipped, ?_, (fun _ same => by cases same), ?_, every⟩
    · rw [all, toList_none, append_nil]
    · intro _ found same
      rw [last] at same
      cases same
      exact file

theorem archived_bytes (sent : Archived dates tracker zip entries closed opened) {bytes : List UInt8}
    (pushed : tracker.push (.bytes bytes) = .ok tracker') :
    ∃ zip' closed' opened', zipRecord dates zip (.bytes bytes) = some zip' ∧
      Archived dates tracker' zip' (addRecord entries (.bytes bytes)) closed' opened' := by
  obtain ⟨front, last, rfl, file, tracked⟩ := tracked_bytes sent.tracked pushed
  have added : addRecord (front ++ [last]) (.bytes bytes) = front ++ [{ last with bytes := last.bytes ++ bytes }] := by
    rw [addRecord, getLast?_concat]
    dsimp only
    rw [dropLast_concat]
  obtain ⟨entry, rfl⟩ : ∃ entry, opened = some entry := by
    refine ne_none_iff_exists'.mp fun none => ?_
    exact sent.noFile none last getLast?_concat file
  have stored := sent.stored
  rw [map_append, toList_some] at stored
  obtain ⟨fronts, lasts⟩ := append_inj' stored rfl
  obtain rfl := (List.cons.inj lasts).1
  have content (bytes : List UInt8) : ({ last with bytes } : DownloadEntry).stored = ⟨last.header, bytes⟩ := by
    rw [DownloadEntry.stored, DownloadEntry.content, file]
  have now : last.stored = ⟨last.header, last.bytes⟩ := content last.bytes
  have zipped := zipped_data sent.zipped bytes
  dsimp only at zipped
  rw [now] at zipped
  refine ⟨_, closed, some ⟨last.header, last.bytes ++ bytes⟩, rfl, ?_⟩
  rw [added]
  exact {
    tracked := tracked
    zipped := zipped
    stored := by
      rw [map_append, fronts, map_singleton, content, toList_some]
    file := by
      intro entry same
      cases same
      exact file
    noFile := fun absent => by cases absent
    limited := by
      intro entry listed
      rw [mem_append, mem_singleton] at listed
      obtain before | rfl := listed
      · exact sent.limited entry (mem_append_left _ before)
      · exact sent.limited last (by simp) }

/-- A header that the reader of a stream lets through. -/
def Sanitized (record : FleetFilesRecord) : Prop :=
  ∀ header, record = .header header → ∃ value, sanitizeFleetFilesStreamHeader value = some header

theorem archived_run {records : List FleetFilesRecord} (sent : Archived dates tracker zip entries closed opened)
    (sanitized : ∀ record ∈ records, Sanitized record)
    (accepted : records.foldlM FleetFilesStreamTracker.push tracker = .ok tracker') :
    ∃ zip' closed' opened', records.foldlM (zipRecord dates) zip = some zip' ∧
      Archived dates tracker' zip' (records.foldl addRecord entries) closed' opened' := by
  induction records generalizing tracker zip entries closed opened with
  | nil =>
    cases accepted
    exact ⟨zip, closed, opened, rfl, sent⟩
  | cons record records ih =>
    rw [foldlM_cons] at accepted
    cases pushed : tracker.push record with
    | error problem =>
      rw [pushed] at accepted
      cases accepted
    | ok next =>
      rw [pushed] at accepted
      obtain ⟨zip₁, closed₁, opened₁, step, sent₁⟩ : ∃ zip' closed' opened', zipRecord dates zip record = some zip' ∧
          Archived dates next zip' (addRecord entries record) closed' opened' := by
        cases record with
        | header header =>
          obtain ⟨value, ok⟩ := sanitized _ mem_cons_self header rfl
          exact archived_header sent (sanitize_limited ok) (sanitize_accepted ok).size pushed
        | bytes bytes => exact archived_bytes sent pushed
      obtain ⟨zip₂, closed₂, opened₂, run, sent₂⟩ :=
        ih sent₁ (fun record listed => sanitized record (mem_cons_of_mem _ listed)) accepted
      refine ⟨zip₂, closed₂, opened₂, ?_, sent₂⟩
      rw [foldlM_cons, step]
      exact run

theorem archived_new (dates : ZipDates) : Archived dates .new {} [] [] none :=
  ⟨tracked_new, zipped_new dates, rfl, nofun, fun _ => nofun, nofun⟩

end

end EverWorks.Fleet
