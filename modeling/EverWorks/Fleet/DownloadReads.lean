import EverWorks.Fleet.DownloadLayout

/-!
A reader that goes from the end record to the directory and from there to the entries, and what it finds in the archive
of a stream.
-/

namespace EverWorks.Fleet
open Lib Lib.Utf16 Lib.Int32 List Option LittleEndian FleetZipWriter

def directory (entries : List CentralEntry) : List UInt8 :=
  entries.flatMap fun entry => bytes (centralFields entry) ++ entry.name

def archiveOf (dates : ZipDates) (entries : List StoredEntry) : List UInt8 :=
  let central := directory (centralOf dates 0 entries)
  body dates entries ++ central ++
    bytes (endFields entries.length central.length (body dates entries).length)

theorem directory_cons (entry : CentralEntry) (entries : List CentralEntry) :
    directory (entry :: entries) = bytes (centralFields entry) ++ entry.name ++ directory entries :=
  flatMap_cons

structure WithinFields (dates : ZipDates) (entries : List StoredEntry) : Prop where
  name : ∀ entry ∈ entries, (zipName entry.header).length < 2 ^ 16
  size : ∀ entry ∈ entries, entry.content.length < 2 ^ 32
  few : entries.length ≤ 5000
  whole : (archiveOf dates entries).length < 2 ^ 32

theorem length_part (dates : ZipDates) (entry : StoredEntry) :
    (entry.part dates).length = 30 + (zipName entry.header).length + entry.content.length + 16 := by
  have thirty (time date nameLength : Nat) : ((localFields time date nameLength).map (·.width)).sum = 30 := rfl
  have sixteen (crc : Int) (size : Nat) : ((descriptorFields crc size).map (·.width)).sum = 16 := rfl
  rw [StoredEntry.part, length_append, length_append, localPart, StoredEntry.descriptor]
  dsimp only
  rw [length_append, length_bytes, length_bytes, thirty, sixteen]

theorem length_central (entry : CentralEntry) :
    (bytes (centralFields entry) ++ entry.name).length = 46 + entry.name.length := by
  have fields : ((centralFields entry).map (·.width)).sum = 46 := by simp [centralFields, uint16, uint32]
  rw [length_append, length_bytes, fields]

theorem length_endRecord (count size start : Nat) :
    (bytes (endFields count size start)).length = 22 := by
  rw [length_bytes]
  rfl

theorem length_centralOf (dates : ZipDates) (start : Nat) (entries : List StoredEntry) :
    (centralOf dates start entries).length = entries.length := by
  induction entries generalizing start with
  | nil => rfl
  | cons entry entries ih => rw [centralOf, length_cons, ih, length_cons]

variable {entries : List StoredEntry}

variable {dates : ZipDates}

theorem mem_centralOf {start : Nat} {listed : CentralEntry}
    (member : listed ∈ centralOf dates start entries) :
    ∃ front entry back, entries = front ++ entry :: back ∧
      listed = entry.central dates (start + (body dates front).length) := by
  induction entries generalizing start with
  | nil => cases member
  | cons entry entries ih =>
    rw [centralOf, mem_cons] at member
    obtain rfl | later := member
    · exact ⟨[], entry, entries, rfl, rfl⟩
    · obtain ⟨front, found, back, rfl, same⟩ := ih later
      refine ⟨entry :: front, found, back, rfl, ?_⟩
      rw [same, body_cons, length_append, Nat.add_assoc]

theorem centralOf_fit (fits : WithinFields dates entries) :
    ∀ listed ∈ centralOf dates 0 entries, ∀ field ∈ centralFields listed, field.Fits := by
  intro listed member
  obtain ⟨front, entry, back, rfl, rfl⟩ := mem_centralOf member
  have inside : entry ∈ front ++ entry :: back := mem_append_right _ mem_cons_self
  have whole := fits.whole
  rw [archiveOf, length_append, length_append, body_append, length_append] at whole
  exact centralFields_fit dates (fits.name entry inside) (fits.size entry inside) (by omega)

theorem foldlM_centralHeader {central : List CentralEntry} (zip : FleetZipWriter)
    (fits : ∀ listed ∈ central, ∀ field ∈ centralFields listed, field.Fits) :
    central.foldlM centralHeader zip =
      some { zip with
        offset := zip.offset + (directory central).length, archive := zip.archive ++ directory central } := by
  induction central generalizing zip with
  | nil =>
    rw [foldlM_nil, directory, flatMap_nil, append_nil]
    rfl
  | cons listed central ih =>
    rw [forall_mem_cons] at fits
    have step : zip.centralHeader listed = some { zip with
        offset := zip.offset + (bytes (centralFields listed) ++ listed.name).length
        archive := zip.archive ++ (bytes (centralFields listed) ++ listed.name) } := by
      rw [centralHeader, write_eq fits.1, length_append, ← append_assoc,
        ← Nat.add_assoc]
      rfl
    rw [foldlM_cons, step, bind_eq_bind, bind_some, ih _ fits.2]
    dsimp only
    rw [directory_cons, @length_append _ _ (directory central), Nat.add_assoc, append_assoc zip.archive]

theorem finish_eq {zip : FleetZipWriter} {closed : List StoredEntry} {opened : Option StoredEntry}
    (zipped : Zipped dates zip closed opened) (fits : WithinFields dates (closed ++ opened.toList)) :
    ∃ zip', zip.finish = some zip' ∧ zip'.archive = archiveOf dates (closed ++ opened.toList) := by
  obtain ⟨zip₁, closes, zipped₁⟩ := zipped_closeEntry zipped fun entry isOpen =>
    fits.size entry (mem_append_right _ (by rw [isOpen]; exact mem_singleton_self entry))
  generalize closed ++ opened.toList = entries at fits zipped₁ ⊢
  have archive := zipped₁.archive
  rw [map_none, getD_none, append_nil] at archive
  have start : zip₁.offset = (body dates entries).length := by rw [zipped₁.offset, archive]
  have whole := fits.whole
  rw [archiveOf, length_append, length_append] at whole
  have count := length_centralOf dates 0 entries
  have ends := write_eq (@endFields_fit entries.length (directory (centralOf dates 0 entries)).length
    (body dates entries).length (by omega) (by omega))
  rw [finish, zipped.unfinished, if_neg Bool.false_ne_true, closes, bind_eq_bind,
    bind_some]
  dsimp only
  rw [zipped₁.central, foldlM_centralHeader _ (centralOf_fit fits), bind_eq_bind, bind_some]
  dsimp only
  rw [start, Nat.add_sub_cancel_left, count, ends, bind_some]
  refine ⟨_, rfl, ?_⟩
  rw [emit, archiveOf]
  dsimp only
  rw [archive]

/-- What a directory says of an entry. -/
structure ListedEntry where
  name : List UInt8
  kind : FilesEntryKind
  crc : Nat
  size : Nat
  offset : Nat
  deriving DecidableEq

def kindOf (attributes : Nat) : FilesEntryKind :=
  if attributes >>> 16 &&& 0o170000 = 0o040000 then .folder
  else if attributes >>> 16 &&& 0o170000 = 0o120000 then .link
  else .file

def readListed (input : List UInt8) : Option (ListedEntry × List UInt8) :=
  match read [4, 2, 2, 2, 2, 2, 2, 4, 4, 4, 2, 2, 2, 2, 2, 4, 4] input with
  | some ([signature, _, _, _, method, _, _, crc, _, size, nameLength, extraLength, commentLength, _, _, attributes,
      offset], rest) =>
    if signature = 0x02014b50 ∧ method = 0 ∧ nameLength ≤ rest.length then
      some (⟨rest.take nameLength, kindOf attributes, crc, size, offset⟩,
        (rest.drop nameLength).drop (extraLength + commentLength))
    else none
  | _ => none

def readDirectory : Nat → List UInt8 → Option (List ListedEntry)
  | 0, _ => some []
  | count + 1, input => do
    let (listed, rest) ← readListed input
    let others ← readDirectory count rest
    return listed :: others

def readListing (archive : List UInt8) : Option (List ListedEntry) :=
  match read [4, 2, 2, 2, 2, 4, 4, 2] (archive.drop (archive.length - 22)) with
  | some ([signature, _, _, _, count, size, start, _], _) =>
    if signature = 0x06054b50 then readDirectory count ((archive.drop start).take size) else none
  | _ => none

def readContent (archive : List UInt8) (listed : ListedEntry) : Option (List UInt8) :=
  match read [4, 2, 2, 2, 2, 2, 4, 4, 4, 2, 2] (archive.drop listed.offset) with
  | some ([signature, _, _, method, _, _, _, _, _, nameLength, extraLength], rest) =>
    let content := (rest.drop (nameLength + extraLength)).take listed.size
    if signature = 0x04034b50 ∧ method = 0 ∧ rest.take nameLength = listed.name ∧ content.length = listed.size ∧
        (Crc32.crc32 content).toNat = listed.crc then
      some content
    else none
  | _ => none

def ListedEntry.path (listed : ListedEntry) : Utf16 :=
  if listed.kind = .folder then (decodeUtf8 listed.name).dropLast else decodeUtf8 listed.name

theorem kindOf_zipAttributes {header : FleetFilesStreamHeader} (mode : header.mode < 512) :
    kindOf (zipAttributes header) = header.kind := by
  have high : zipAttributes header >>> 16 &&& 0o170000 = unixMode header &&& 0o170000 := by
    have flag : (if header.kind = .folder then 0x10 else 0) < 2 ^ 16 := by split_ifs <;> decide
    have mask : 0xffff &&& 0o170000 = 0o170000 := by decide
    rw [zipAttributes, ← Nat.shiftLeft_add_eq_or_of_lt flag, Nat.shiftLeft_eq, Nat.shiftRight_eq_div_pow,
      Nat.mul_comm, Nat.mul_add_div (Nat.two_pow_pos 16), Nat.div_eq_of_lt flag, Nat.add_zero, Nat.and_assoc, mask]
  have permission (fallback : Nat) (small : fallback < 512) : modeOr header.mode fallback < 512 := by
    rw [modeOr]
    split_ifs
    · exact small
    · exact mode
  have folder : ∀ m < 512, (0o040000 ||| m) &&& 0o170000 = 0o040000 := by decide +kernel
  have file : ∀ m < 512, (0o100000 ||| m) &&& 0o170000 = 0o100000 := by decide +kernel
  rw [kindOf, high, unixMode]
  cases header.kind with
  | folder => rw [if_pos (folder _ (permission _ (by decide)))]
  | link =>
    have link : 0o120777 &&& 0o170000 = 0o120000 := by decide
    dsimp only
    rw [link, if_neg (by decide), if_pos rfl]
  | file =>
    dsimp only
    rw [file _ (permission _ (by decide)), if_neg (by decide), if_neg (by decide)]

def StoredEntry.listed (entry : StoredEntry) (offset : Nat) : ListedEntry where
  name := zipName entry.header
  kind := entry.header.kind
  crc := (Crc32.crc32 entry.content).toNat
  size := entry.content.length
  offset := offset

def listingOf (dates : ZipDates) : Nat → List StoredEntry → List ListedEntry
  | _, [] => []
  | offset, entry :: entries => entry.listed offset :: listingOf dates (offset + (entry.part dates).length) entries

theorem length_listingOf (dates : ZipDates) (start : Nat) (entries : List StoredEntry) :
    (listingOf dates start entries).length = entries.length := by
  induction entries generalizing start with
  | nil => rfl
  | cons entry entries ih => rw [listingOf, length_cons, ih, length_cons]

variable {entry : StoredEntry}

theorem readListed_eq {offset : Nat} (mode : entry.header.mode < 512)
    (fits : ∀ field ∈ centralFields (entry.central dates offset), field.Fits) (rest : List UInt8) :
    readListed (bytes (centralFields (entry.central dates offset)) ++ zipName entry.header ++ rest) =
      some (entry.listed offset, rest) := by
  have read := read_bytes fits (zipName entry.header ++ rest)
  have widths : (centralFields (entry.central dates offset)).map (·.width) =
      [4, 2, 2, 2, 2, 2, 2, 4, 4, 4, 2, 2, 2, 2, 2, 4, 4] := rfl
  have values : (centralFields (entry.central dates offset)).map (·.value.toNat) =
      [0x02014b50, versionMadeBy, versionNeeded, flagDescriptor ||| flagUtf8, 0, (dosDateTime dates entry.header.mtimeMs).1,
        (dosDateTime dates entry.header.mtimeMs).2, (Crc32.crc32 entry.content).toNat, entry.content.length,
        entry.content.length, (zipName entry.header).length, 0, 0, 0, 0, zipAttributes entry.header, offset] := rfl
  rw [widths, values] at read
  rw [readListed, append_assoc, read]
  dsimp only
  rw [if_pos ⟨rfl, rfl, by rw [length_append]; exact Nat.le_add_right _ _⟩, take_left, drop_left,
    kindOf_zipAttributes mode]
  rfl

theorem readDirectory_eq {start : Nat}
    (modes : ∀ entry ∈ entries, entry.header.mode < 512)
    (fits : ∀ listed ∈ centralOf dates start entries, ∀ field ∈ centralFields listed, field.Fits) :
    readDirectory entries.length (directory (centralOf dates start entries)) =
      some (listingOf dates start entries) := by
  induction entries generalizing start with
  | nil => rfl
  | cons entry entries ih =>
    rw [forall_mem_cons] at modes
    rw [centralOf, forall_mem_cons] at fits
    rw [length_cons, readDirectory, centralOf, directory_cons]
    have here := readListed_eq modes.1 fits.1 (directory (centralOf dates (start + (entry.part dates).length) entries))
    rw [show (entry.central dates start).name = zipName entry.header from rfl, here, bind_eq_bind,
      bind_some]
    dsimp only
    rw [ih modes.2 fits.2]
    rfl

theorem readListing_eq (fits : WithinFields dates entries)
    (modes : ∀ entry ∈ entries, entry.header.mode < 512) :
    readListing (archiveOf dates entries) = some (listingOf dates 0 entries) := by
  have directory_ := readDirectory_eq modes (centralOf_fit fits)
  have whole := fits.whole
  have few := fits.few
  rw [archiveOf] at whole ⊢
  generalize directory (centralOf dates 0 entries) = central at directory_ whole ⊢
  generalize body dates entries = parts at whole ⊢
  rw [length_append, length_append] at whole
  have ends := read_bytes (@endFields_fit entries.length central.length parts.length (by omega) (by omega)) []
  have widths : (endFields entries.length central.length parts.length).map (·.width) = [4, 2, 2, 2, 2, 4, 4, 2] := rfl
  have values : (endFields entries.length central.length parts.length).map (·.value.toNat) =
      [0x06054b50, 0, 0, min entries.length 0xffff, min entries.length 0xffff, central.length, parts.length, 0] := rfl
  rw [widths, values, append_nil] at ends
  have before : (parts ++ central ++ bytes (endFields entries.length central.length parts.length)).length -
      22 = (parts ++ central).length := by
    rw [length_append, length_endRecord, Nat.add_sub_cancel]
  unfold readListing
  rw [before, drop_left, ends]
  dsimp only
  have count : min entries.length 0xffff = entries.length := by omega
  rw [if_pos rfl, append_assoc, drop_left, take_left, count]
  exact directory_

theorem part_of_listed (dates : ZipDates) (start : Nat) {k : Nat}
    (there : entries[k]? = some entry) :
    ∃ front back, body dates entries = front ++ (entry.part dates ++ back) ∧
      (listingOf dates start entries)[k]? = some (entry.listed (start + front.length)) := by
  induction entries generalizing k start with
  | nil => cases there
  | cons first entries ih =>
    cases k with
    | zero =>
      cases there
      exact ⟨[], body dates entries, body_cons _ _ _, rfl⟩
    | succ k =>
      obtain ⟨front, back, parts, listed⟩ := ih (start + (first.part dates).length) there
      refine ⟨first.part dates ++ front, back, ?_, ?_⟩
      · rw [body_cons, parts, append_assoc]
      · rw [listingOf, getElem?_cons_succ, listed, length_append, Nat.add_assoc]

theorem readContent_eq {offset : Nat} {archive rest : List UInt8}
    (name : (zipName entry.header).length < 2 ^ 16) (there : archive.drop offset = entry.part dates ++ rest) :
    readContent archive (entry.listed offset) = some entry.content := by
  obtain ⟨time, date⟩ := dosDateTime_fits dates entry.header.mtimeMs
  have read := read_bytes (localFields_fit time date name)
    (zipName entry.header ++ (entry.content ++ (entry.descriptor ++ rest)))
  have widths (time date nameLength : Nat) : (localFields time date nameLength).map (·.width) =
      [4, 2, 2, 2, 2, 2, 4, 4, 4, 2, 2] := rfl
  have values (time date nameLength : Nat) : (localFields time date nameLength).map (·.value.toNat) =
      [0x04034b50, versionNeeded, flagDescriptor ||| flagUtf8, 0, time, date, 0, 0, 0, nameLength, 0] := rfl
  rw [widths, values] at read
  have start : archive.drop (entry.listed offset).offset =
      bytes (localFields (dosDateTime dates entry.header.mtimeMs).1
        (dosDateTime dates entry.header.mtimeMs).2 (zipName entry.header).length) ++
        (zipName entry.header ++ (entry.content ++ (entry.descriptor ++ rest))) := by
    show archive.drop offset = _
    rw [there, StoredEntry.part, localPart]
    simp only [append_assoc]
  rw [readContent, start, read]
  dsimp only
  have content : ((zipName entry.header ++ (entry.content ++ (entry.descriptor ++ rest))).drop
      ((zipName entry.header).length + 0)).take (entry.listed offset).size = entry.content := by
    rw [Nat.add_zero, drop_left]
    exact take_left
  rw [content, take_left, if_pos ⟨rfl, rfl, rfl, rfl, rfl⟩]

theorem length_content_le {entry : DownloadEntry} (limited : entry.header.Limited) :
    entry.content.length ≤ entry.bytes.length + 12288 := by
  rw [DownloadEntry.content]
  cases entry.header.kind with
  | file => exact Nat.le_add_right _ _
  | folder => exact Nat.zero_le _
  | link => exact (length_target limited).trans (Nat.le_add_left _ _)

theorem length_body_le (dates : ZipDates) {entries : List DownloadEntry}
    (limited : ∀ entry ∈ entries, entry.header.Limited) :
    (body dates (entries.map (·.stored))).length ≤ entries.length * 24625 + totalBytes entries := by
  induction entries with
  | nil => exact Nat.zero_le _
  | cons entry entries ih =>
    rw [forall_mem_cons] at limited
    have name := length_zipName limited.1
    have content := length_content_le limited.1
    have more := ih limited.2
    have part := length_part dates entry.stored
    have total : totalBytes (entry :: entries) = entry.bytes.length + totalBytes entries := by simp [totalBytes]
    have stored : entry.stored.header = entry.header ∧ entry.stored.content = entry.content := ⟨rfl, rfl⟩
    rw [stored.1, stored.2] at part
    rw [map_cons, body_cons, length_append, part, total, length_cons]
    omega

theorem length_directory_le (dates : ZipDates) (start : Nat)
    (names : ∀ entry ∈ entries, (zipName entry.header).length ≤ 12291) :
    (directory (centralOf dates start entries)).length ≤ entries.length * 12337 := by
  induction entries generalizing start with
  | nil => exact Nat.zero_le _
  | cons entry entries ih =>
    rw [forall_mem_cons] at names
    have more := ih (start + (entry.part dates).length) names.2
    have name : (entry.central dates start).name.length ≤ 12291 := names.1
    rw [centralOf, directory_cons, length_append, length_central, length_cons]
    omega

theorem Archived.fits_all {tracker : FleetFilesStreamTracker} {zip : FleetZipWriter}
    {entries : List DownloadEntry} {closed : List StoredEntry} {opened : Option StoredEntry}
    (sent : Archived dates tracker zip entries closed opened) : WithinFields dates (entries.map (·.stored)) := by
  have names : ∀ entry ∈ entries.map (·.stored), (zipName entry.header).length ≤ 12291 := by
    intro entry listed
    obtain ⟨source, inside, rfl⟩ := mem_map.mp listed
    exact length_zipName (sent.limited source inside)
  have few := sent.tracked.few
  have light := sent.tracked.light
  have most : filesMaxEntries = 5000 := rfl
  have heaviest : filesMaxOpBytes = 2147483648 := rfl
  have parts := length_body_le dates sent.limited
  have central := length_directory_le dates 0 names
  rw [length_map] at central
  have whole : (archiveOf dates (entries.map (·.stored))).length < 2 ^ 32 := by
    rw [archiveOf, length_append, length_append, length_endRecord]
    omega
  refine ⟨fun entry listed => (names entry listed).trans_lt (by decide), fun entry listed => ?_, ?_, whole⟩
  · obtain ⟨source, inside, rfl⟩ := mem_map.mp listed
    have bytes := length_le_totalBytes inside
    have content := length_content_le (sent.limited source inside)
    show source.content.length < 2 ^ 32
    omega
  · rw [length_map]
    omega

/-- A listed entry, and behind its offset the archive, tell of an entry of the stream. -/
structure ReadBack (dates : ZipDates) (archive : List UInt8) (entry : DownloadEntry) (listed : ListedEntry) : Prop where
  name : listed.name = zipName entry.header
  kind : listed.kind = entry.header.kind
  size : listed.size = entry.content.length
  crc : listed.crc = (Crc32.crc32 entry.content).toNat
  /-- At the offset stand the local header, the name, the content and its descriptor. -/
  part : entry.stored.part dates <+: archive.drop listed.offset
  content : readContent archive listed = some entry.content
  whole : entry.bytes.length = entry.header.size
  path : isWellFormed entry.header.path = true → listed.path = entry.header.path

theorem path_listed {header : FleetFilesStreamHeader} (whole : isWellFormed header.path = true) (content : List UInt8)
    (offset : Nat) : ((StoredEntry.mk header content).listed offset).path = header.path := by
  rw [ListedEntry.path, StoredEntry.listed, zipName]
  dsimp only
  split_ifs with folder
  · have closed : isWellFormed (header.path ++ [slash]) = true := by
      rw [isWellFormed_append (by decide), whole]
      rfl
    rw [decodeUtf8_utf8 closed, dropLast_concat]
  · exact decodeUtf8_utf8 whole

/-- The archive of a stream that is let through to its end is written, with every number in its field; it lists the
entries in their order, and each of them is read back. -/
theorem download_readsBack (dates : ZipDates) {records : List FleetFilesRecord} {tracker : FleetFilesStreamTracker}
    (sanitized : ∀ record ∈ records, Sanitized record) (accepted : trackRecords records = .ok tracker)
    (complete : tracker.complete = true) :
    (∀ chunks : List (List UInt8), chunks.foldl crc32Update 0 = ofWord (Crc32.crc32 chunks.flatten)) ∧
    ∃ (archive : List UInt8) (listing : List ListedEntry),
      zipRecords dates records = some archive ∧ readListing archive = some listing ∧
      listing.length = (entriesOf records).length ∧
      ∀ (k : Nat) (entry : DownloadEntry), (entriesOf records)[k]? = some entry →
        ∃ listed, listing[k]? = some listed ∧ ReadBack dates archive entry listed := by
  obtain ⟨zip, closed, opened, sends, sent⟩ := archived_run (archived_new dates) sanitized accepted
  have fits := sent.fits_all
  have modes : ∀ entry ∈ (entriesOf records).map (·.stored), entry.header.mode < 512 := by
    intro entry listed
    obtain ⟨source, inside, rfl⟩ := mem_map.mp listed
    exact (sent.limited source inside).mode
  have closes := finish_eq sent.zipped (sent.stored ▸ fits)
  rw [← sent.stored] at closes
  obtain ⟨zip', finishes, archive⟩ := closes
  have listing := readListing_eq fits modes
  refine ⟨crc32Update_chunks, _, _, ?_, listing, ?_, fun k entry there => ?_⟩
  · rw [zipRecords, sends, bind_eq_bind, bind_some, finishes, bind_some]
    exact congrArg some archive
  · rw [length_listingOf, length_map]
    rfl
  · have stored : ((entriesOf records).map (·.stored))[k]? = some entry.stored := by
      rw [getElem?_map, there]
      rfl
    obtain ⟨front, back, parts, listed⟩ := part_of_listed dates 0 stored
    have stands : ∃ rest, (archiveOf dates ((entriesOf records).map (·.stored))).drop (0 + front.length) =
        entry.stored.part dates ++ rest := by
      rw [archiveOf, parts, Nat.zero_add]
      simp only [append_assoc, drop_left]
      exact ⟨_, rfl⟩
    obtain ⟨rest, stands⟩ := stands
    have done : tracker.remaining = 0 := of_decide_eq_true complete
    refine ⟨_, listed, ?_⟩
    exact {
      name := rfl
      kind := rfl
      size := rfl
      crc := rfl
      part := ⟨rest, stands.symm⟩
      content := readContent_eq (fits.name _ (mem_of_getElem? stored)) stands
      whole := sent.tracked.all_whole done entry (mem_of_getElem? there)
      path := fun whole => path_listed whole _ _ }

def fixedDates : ZipDates where
  now := ⟨2026, 9, 21, 9, 40, 0⟩
  ofTime _ := some ⟨2026, 9, 21, 9, 40, 0⟩

def fileHeader : FleetFilesStreamHeader where
  path := ascii "app.ts"
  kind := .file
  size := 3
  mode := 0o644
  mtimeMs := 0
  target := none

/-- A file in two pieces is read back. -/
theorem file_readsBack : ∃ (archive : List UInt8) (listing : List ListedEntry),
    zipRecords fixedDates [.header fileHeader, .bytes [1, 2], .bytes [3]] = some archive ∧
      readListing archive = some listing ∧ listing.length = 1 ∧
      ∃ listed, listing[0]? = some listed ∧ ReadBack fixedDates archive ⟨fileHeader, [1, 2, 3]⟩ listed := by
  have sanitized : ∀ record ∈ [FleetFilesRecord.header fileHeader, .bytes [1, 2], .bytes [3]], Sanitized record := by
    have read : sanitizeFleetFilesStreamHeader
        (.object [(ascii "path", .string (ascii "app.ts")), (ascii "kind", .string (ascii "file")),
          (ascii "size", .number 3)]) = some fileHeader := by decide +kernel
    rintro record listed header rfl
    simp only [mem_cons, FleetFilesRecord.header.injEq, reduceCtorEq, not_mem_nil, or_false] at listed
    exact ⟨_, listed ▸ read⟩
  obtain ⟨-, archive, listing, sent, found, length, each⟩ :=
    @download_readsBack fixedDates _ ⟨1, 3, 0, some fileHeader⟩ sanitized rfl rfl
  exact ⟨archive, listing, sent, found, length, each 0 _ rfl⟩

def loneHeader : FleetFilesStreamHeader where
  path := [0xD800]
  kind := .folder
  size := 0
  mode := 0o644
  mtimeMs := 0
  target := none

/-- Its name is read back as the replacement character. -/
theorem lone_surrogate_replaced :
    sanitizeFleetFilesStreamHeader (.object [(ascii "path", .string [0xD800]), (ascii "kind", .string (ascii "folder")),
      (ascii "size", .number 0)]) = some loneHeader ∧
    (trackRecords [.header loneHeader]).toOption.map (·.complete) = some true ∧
    ((zipRecords fixedDates [.header loneHeader]).bind readListing).map (·.map (·.path)) = some [[0xFFFD]] := by
  decide +kernel

end EverWorks.Fleet
