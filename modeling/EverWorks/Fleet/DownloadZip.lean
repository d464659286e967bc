import EverWorks.Fleet.FilesStream
import EverWorks.Lib.Crc32
import EverWorks.Lib.Int32
import EverWorks.Lib.Utf8

/-!
A stream of headers and bytes, written as an archive while it is read: local headers, bytes and descriptors first, the
central directory and its end record last.
-/

namespace EverWorks.Fleet
open Lib Lib.Utf16 Lib.Int32 List

/-- An entry of `CRC_TABLE`. -/
def crcTableEntry (n : Nat) : Int :=
  toUint32 <| (List.range 8).foldl (fun c _ =>
    if bitAnd c 1 ≠ 0 then bitXor 0xedb88320 (shiftRightUnsigned c 1) else shiftRightUnsigned c 1) (n : Int)

def crcTable : List Int := (List.range 256).map crcTableEntry

def crcStep (c : Int) (byte : UInt8) : Int :=
  bitXor (crcTable.getD (bitAnd (bitXor c byte.toNat) 0xff).toNat 0) (shiftRightUnsigned c 8)

def crc32Update (crc : Int) (bytes : List UInt8) : Int :=
  toUint32 (bitXor (bytes.foldl crcStep (bitXor crc 0xffffffff)) 0xffffffff)

theorem low_bit (c : Int) : bitAnd c 1 ≠ 0 ↔ (word c).getLsbD 0 = true := by
  have one : word 1 = 1#32 := rfl
  rw [bitAnd, one, BitVec.and_one_eq_setWidth_ofBool_getLsbD]
  cases (word c).getLsbD 0 <;> decide

theorem word_crcTableEntry (n : Nat) : word (crcTableEntry n) = Crc32.shifts 8 (BitVec.ofNat 32 n) := by
  have one (c : Int) : word (if bitAnd c 1 ≠ 0 then bitXor 0xedb88320 (shiftRightUnsigned c 1)
      else shiftRightUnsigned c 1) = Crc32.shift (word c) := by
    rw [apply_ite word, word_bitXor, word_shiftRightUnsigned, Crc32.shift]
    exact if_congr (low_bit c) rfl rfl
  have many (k : Nat) (c : Int) : word ((List.range k).foldl (fun c _ =>
      if bitAnd c 1 ≠ 0 then bitXor 0xedb88320 (shiftRightUnsigned c 1) else shiftRightUnsigned c 1) c) =
        Crc32.shifts k (word c) := by
    induction k with
    | zero => rfl
    | succ k ih => rw [range_succ, foldl_append, foldl_cons, foldl_nil, one, ih, Crc32.shifts_succ]
  rw [crcTableEntry, word_toUint32, many, word, BitVec.ofInt_natCast]

theorem word_crcStep (c : Int) (byte : UInt8) : word (crcStep c byte) = Crc32.addByte (word c) byte := by
  have number : word byte.toNat = BitVec.ofNat 32 byte.toNat := BitVec.ofInt_natCast _ _
  have mask : word 0xff = 0xff#32 := rfl
  have small : ((word c ^^^ BitVec.ofNat 32 byte.toNat) &&& 0xff#32).toNat < 256 := by
    rw [BitVec.toNat_and]
    exact Nat.and_lt_two_pow _ (show (0xff#32).toNat < 2 ^ 8 by decide)
  have index : (bitAnd (bitXor c byte.toNat) 0xff).toNat = ((word c ^^^ BitVec.ofNat 32 byte.toNat) &&& 0xff#32).toNat := by
    rw [bitAnd, word_bitXor, number, mask, BitVec.toInt_eq_toNat_of_lt (by omega), Int.toNat_natCast]
  have found : crcTable.getD ((word c ^^^ BitVec.ofNat 32 byte.toNat) &&& 0xff#32).toNat 0 =
      crcTableEntry ((word c ^^^ BitVec.ofNat 32 byte.toNat) &&& 0xff#32).toNat := by
    rw [getD_eq_getElem?_getD, crcTable, getElem?_map, getElem?_range small]
    rfl
  have moved : word c >>> 8 = (word c ^^^ BitVec.ofNat 32 byte.toNat) >>> 8 := by
    have gone : BitVec.ofNat 32 byte.toNat >>> 8 = 0#32 := by
      have := byte.toNat_lt
      apply BitVec.eq_of_toNat_eq
      rw [BitVec.toNat_ushiftRight, BitVec.toNat_ofNat, Nat.shiftRight_eq_div_pow, BitVec.toNat_zero]
      omega
    rw [BitVec.ushiftRight_xor_distrib, gone, BitVec.xor_zero]
  rw [crcStep, word_bitXor, index, found, word_crcTableEntry, BitVec.ofNat_toNat, BitVec.setWidth_eq,
    word_shiftRightUnsigned, Crc32.addByte, Crc32.shifts_eight (_ ^^^ _), ← moved]
  rfl

theorem crc32Update_eq (w : Crc32.Word) (bytes : List UInt8) :
    crc32Update (ofWord w) bytes = ofWord (~~~bytes.foldl Crc32.addByte (~~~w)) := by
  have ones (c : Int) : word (bitXor c 0xffffffff) = ~~~word c := by
    have all : word 0xffffffff = BitVec.allOnes 32 := rfl
    rw [word_bitXor, all, BitVec.xor_allOnes]
  have fold (c : Int) : word (bytes.foldl crcStep c) = bytes.foldl Crc32.addByte (word c) := by
    induction bytes generalizing c with
    | nil => rfl
    | cons byte rest ih => rw [foldl_cons, ih, word_crcStep, foldl_cons]
  rw [crc32Update, toUint32_eq, ones, fold, ones, word_ofWord]

theorem crc32Update_chunks (chunks : List (List UInt8)) :
    chunks.foldl crc32Update 0 = ofWord (Crc32.crc32 chunks.flatten) := by
  have fold (w : Crc32.Word) : chunks.foldl crc32Update (ofWord w) =
      ofWord (~~~chunks.flatten.foldl Crc32.addByte (~~~w)) := by
    induction chunks generalizing w with
    | nil =>
      show ofWord w = ofWord (~~~(~~~w))
      rw [BitVec.not_not]
    | cons chunk chunks ih =>
      rw [foldl_cons, crc32Update_eq, ih, BitVec.not_not, flatten_cons, foldl_append]
  exact fold 0

/-- What a valid `Date` answers in the local time zone. -/
structure DateFields where
  year : Int
  month : Fin 12
  day : Fin 32
  hours : Fin 24
  minutes : Fin 60
  seconds : Fin 60

/-- The clock, and the dates of times; an invalid date has no fields. -/
structure ZipDates where
  now : DateFields
  ofTime : ℚ → Option DateFields

/-- Time and date; where every field is `NaN` both are zero. -/
def dosDateTime (dates : ZipDates) (mtimeMs : ℚ) : Nat × Nat :=
  match if 0 < mtimeMs then dates.ofTime mtimeMs else some dates.now with
  | none => (0, 0)
  | some day =>
    let year := min (max day.year 1980) 2107
    (day.hours.val <<< 11 ||| day.minutes.val <<< 5 ||| day.seconds.val / 2,
      (year - 1980).toNat <<< 9 ||| (day.month.val + 1) <<< 5 ||| day.day.val)

def flagDescriptor : Nat := 0x0008

def flagUtf8 : Nat := 0x0800

def versionNeeded : Nat := 20

def versionMadeBy : Nat := 3 <<< 8 ||| 20

structure CentralEntry where
  name : List UInt8
  crc : Int
  size : Nat
  offset : Nat
  time : Nat
  date : Nat
  attributes : Nat
  deriving DecidableEq

/-- `archive` is what `write` has received. -/
structure FleetZipWriter where
  offset : Nat := 0
  central : List CentralEntry := []
  current : Option CentralEntry := none
  finished : Bool := false
  archive : List UInt8 := []

def zipName (header : FleetFilesStreamHeader) : List UInt8 :=
  utf8 (if header.kind = .folder then header.path ++ [slash] else header.path)

/-- `header.mode || fallback` -/
def modeOr (mode fallback : Nat) : Nat := if mode = 0 then fallback else mode

def unixMode (header : FleetFilesStreamHeader) : Nat :=
  match header.kind with
  | .folder => 0o040000 ||| modeOr header.mode 0o755
  | .link => 0o120777
  | .file => 0o100000 ||| modeOr header.mode 0o644

def zipAttributes (header : FleetFilesStreamHeader) : Nat :=
  (unixMode header &&& 0xffff) <<< 16 ||| if header.kind = .folder then 0x10 else 0

def uint16 (value : Int) : LittleEndian.Field := ⟨2, value⟩

def uint32 (value : Int) : LittleEndian.Field := ⟨4, value⟩

def localFields (time date nameLength : Nat) : List LittleEndian.Field :=
  [uint32 0x04034b50, uint16 versionNeeded, uint16 (flagDescriptor ||| flagUtf8 : Nat), uint16 0, uint16 time,
    uint16 date, uint32 0, uint32 0, uint32 0, uint16 nameLength, uint16 0]

def descriptorFields (crc : Int) (size : Nat) : List LittleEndian.Field :=
  [uint32 0x08074b50, uint32 crc, uint32 size, uint32 size]

def centralFields (entry : CentralEntry) : List LittleEndian.Field :=
  [uint32 0x02014b50, uint16 versionMadeBy, uint16 versionNeeded, uint16 (flagDescriptor ||| flagUtf8 : Nat), uint16 0,
    uint16 entry.time, uint16 entry.date, uint32 entry.crc, uint32 entry.size, uint32 entry.size,
    uint16 entry.name.length, uint16 0, uint16 0, uint16 0, uint16 0, uint32 entry.attributes, uint32 entry.offset]

def endFields (count size start : Nat) : List LittleEndian.Field :=
  [uint32 0x06054b50, uint16 0, uint16 0, uint16 (min count 0xffff : Nat), uint16 (min count 0xffff : Nat), uint32 size,
    uint32 start, uint16 0]

namespace FleetZipWriter

def emit (zip : FleetZipWriter) (chunk : List UInt8) : FleetZipWriter :=
  { zip with offset := zip.offset + chunk.length, archive := zip.archive ++ chunk }

def closeEntry (zip : FleetZipWriter) : Option FleetZipWriter :=
  match zip.current with
  | none => some zip
  | some entry => do
    let descriptor ← LittleEndian.write (descriptorFields entry.crc entry.size)
    let zip := { zip with current := none }.emit descriptor
    return { zip with central := zip.central ++ [entry] }

def data (zip : FleetZipWriter) (bytes : List UInt8) : FleetZipWriter :=
  match zip.current with
  | none => zip
  | some entry =>
    if bytes = [] then zip
    else
      { zip with
        current := some
          { entry with crc := crc32Update entry.crc bytes, size := entry.size + bytes.length } }.emit bytes

def entry (dates : ZipDates) (zip : FleetZipWriter) (header : FleetFilesStreamHeader) : Option FleetZipWriter := do
  let zip ← zip.closeEntry
  let name := zipName header
  let (time, date) := dosDateTime dates header.mtimeMs
  let local_ ← LittleEndian.write (localFields time date name.length)
  let zip := { zip with
    current := some
      { name, crc := 0, size := 0, offset := zip.offset, time, date, attributes := zipAttributes header } }
  let zip := (zip.emit local_).emit name
  let zip := match header.kind, header.target with
    | .link, some target => if target = [] then zip else zip.data (utf8 target)
    | _, _ => zip
  if header.kind ≠ .file then zip.closeEntry else return zip

def centralHeader (zip : FleetZipWriter) (entry : CentralEntry) : Option FleetZipWriter := do
  let header ← LittleEndian.write (centralFields entry)
  return (zip.emit header).emit entry.name

def finish (zip : FleetZipWriter) : Option FleetZipWriter :=
  if zip.finished then some zip
  else do
    let zip ← zip.closeEntry
    let zip := { zip with finished := true }
    let start := zip.offset
    let zip ← zip.central.foldlM centralHeader zip
    let end_ ← LittleEndian.write (endFields zip.central.length (zip.offset - start) start)
    return zip.emit end_

end FleetZipWriter

def zipRecord (dates : ZipDates) (zip : FleetZipWriter) : FleetFilesRecord → Option FleetZipWriter
  | .header header => zip.entry dates header
  | .bytes bytes => some (zip.data bytes)

def trackRecords (records : List FleetFilesRecord) : Except Utf16 FleetFilesStreamTracker :=
  records.foldlM FleetFilesStreamTracker.push .new

def zipRecords (dates : ZipDates) (records : List FleetFilesRecord) : Option (List UInt8) := do
  let zip ← records.foldlM (zipRecord dates) {}
  let zip ← zip.finish
  return zip.archive

end EverWorks.Fleet
