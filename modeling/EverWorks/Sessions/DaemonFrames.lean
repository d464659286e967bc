import EverWorks.Lib.Slices
import EverWorks.Lib.Incremental

/-!
A frame is a kind, the length of its payload and the payload. The reader takes a stream in chunks and gives the frames that
each chunk completes; a header of no known kind, or of a payload over its cap, breaks the stream for good.
-/

namespace EverWorks.Sessions.DaemonFrames
open Lib Bytes Incremental List

inductive DaemonFrameKind where
  | data | resize | exit | json | close
  deriving DecidableEq

def DaemonFrameKind.code : DaemonFrameKind → UInt8
  | .data => 1
  | .resize => 2
  | .exit => 3
  | .json => 10
  | .close => 11

/-- `FRAME_KINDS.has(kind)`, with the kind. -/
def kindOf (code : UInt8) : Option DaemonFrameKind :=
  [.data, .resize, .exit, .json, .close].find? fun kind => kind.code = code

def daemonFrameHeaderBytes : ℕ := 5

def daemonMaxPayloadBytes : ℕ := 16 * 1024 * 1024

structure DaemonFrame where
  kind : DaemonFrameKind
  payload : List UInt8
  deriving DecidableEq

def encodeDaemonFrame (kind : DaemonFrameKind) (payload : List UInt8) : Except String (List UInt8) :=
  if daemonMaxPayloadBytes < payload.length then .error "daemon frame over 16 MiB"
  else .ok (kind.code :: putUint32 payload.length ++ payload)

structure DaemonFrameReader where
  buffer : List UInt8 := []
  broken : Bool := false
  maxPayload : ℕ := daemonMaxPayloadBytes
  deriving DecidableEq

def headerOf (buffer : List UInt8) : Except OutOfRange (UInt8 × ℕ) := do
  let kind ← getUint8 buffer 0
  let length ← getUint32 buffer 1
  return (UInt8.ofNat kind, length)

/-- The loop over the buffer: the frames and what is left, or none where the stream breaks. A turn takes five bytes or more
off the buffer. -/
def drain (maxPayload : ℕ) : ℕ → List UInt8 → List DaemonFrame → Option (List DaemonFrame × List UInt8)
  | 0, buffer, frames => some (frames, buffer)
  | fuel + 1, buffer, frames =>
    if buffer.length < daemonFrameHeaderBytes then some (frames, buffer)
    else
      match headerOf buffer with
      | .error _ => none
      | .ok (code, length) =>
        match kindOf code with
        | none => none
        | some kind =>
          if maxPayload < length then none
          else if buffer.length < daemonFrameHeaderBytes + length then some (frames, buffer)
          else
            let payload := (buffer.drop daemonFrameHeaderBytes).take length
            drain maxPayload fuel (buffer.drop (daemonFrameHeaderBytes + length)) (frames ++ [⟨kind, payload⟩])

namespace DaemonFrameReader

def push (reader : DaemonFrameReader) (chunk : List UInt8) : Option (List DaemonFrame) × DaemonFrameReader :=
  if reader.broken then (none, reader)
  else
    let buffer := reader.buffer ++ chunk
    match drain reader.maxPayload (buffer.length + 1) buffer [] with
    | none => (none, { reader with broken := true, buffer := [] })
    | some (frames, rest) => (some frames, { reader with buffer := rest })

def pushAll (reader : DaemonFrameReader) : List (List UInt8) → List (Option (List DaemonFrame)) × DaemonFrameReader
  | [] => ([], reader)
  | chunk :: chunks =>
    let answer := reader.push chunk
    let later := pushAll answer.2 chunks
    (answer.1 :: later.1, later.2)

end DaemonFrameReader

theorem kindOf_code (kind : DaemonFrameKind) : kindOf kind.code = some kind := by
  cases kind <;> rfl

theorem headerOf_eq {buffer : List UInt8} (whole : daemonFrameHeaderBytes ≤ buffer.length) : ∃ code length,
    length < 4294967296 ∧ headerOf buffer = .ok (code, length) ∧
      buffer = code :: putUint32 length ++ buffer.drop daemonFrameHeaderBytes := by
  have whole : 5 ≤ buffer.length := whole
  obtain ⟨code, readCode, atCode⟩ := getUint8_inside buffer 0 (by omega)
  obtain ⟨length, small, readLength, atLength⟩ := getUint32_inside buffer 1 (by omega)
  refine ⟨code, length, small, ?_, ?_⟩
  · rw [headerOf, readCode, readLength]
    show Except.ok (UInt8.ofNat code.toNat, length) = _
    rw [UInt8.ofNat_toNat]
  · rw [drop_zero, Nat.zero_add, atLength] at atCode
    exact atCode

variable {length : ℕ}

theorem headerOf_cons (code : UInt8) (small : length < 4294967296) (rest : List UInt8) :
    headerOf (code :: putUint32 length ++ rest) = .ok (code, length) := by
  have readCode : getUint8 (code :: putUint32 length ++ rest) 0 = .ok code.toNat :=
    @getUint8_of_drop _ (putUint32 length ++ rest) 0 _ rfl
  have readLength : getUint32 (code :: putUint32 length ++ rest) 1 = .ok length :=
    @getUint32_of_drop_small _ rest 1 _ rfl small
  rw [headerOf, readCode, readLength]
  show Except.ok (UInt8.ofNat code.toNat, length) = _
  rw [UInt8.ofNat_toNat]

def next (maxPayload : ℕ) (stream : List UInt8) : Next DaemonFrame UInt8 :=
  if stream.length < daemonFrameHeaderBytes then .more
  else
    match headerOf stream with
    | .error _ => .broken
    | .ok (code, length) =>
      match kindOf code with
      | none => .broken
      | some kind =>
        if maxPayload < length then .broken
        else if stream.length < daemonFrameHeaderBytes + length then .more
        else .item ⟨kind, (stream.drop daemonFrameHeaderBytes).take length⟩ (stream.drop (daemonFrameHeaderBytes + length))

section
variable {maxPayload : ℕ} {stream : List UInt8}

theorem headerOf_append (whole : daemonFrameHeaderBytes ≤ stream.length) (back : List UInt8) :
    headerOf (stream ++ back) = headerOf stream := by
  obtain ⟨code, length, small, header, split⟩ := headerOf_eq whole
  rw [header, split, append_assoc]
  exact headerOf_cons code small _

def nextOf (maxPayload : ℕ) (stream : List UInt8) (code : UInt8) (length : ℕ) : Next DaemonFrame UInt8 :=
  match kindOf code with
  | none => .broken
  | some kind =>
    if maxPayload < length then .broken
    else if stream.length < daemonFrameHeaderBytes + length then .more
    else .item ⟨kind, (stream.drop daemonFrameHeaderBytes).take length⟩ (stream.drop (daemonFrameHeaderBytes + length))

theorem next_of_header {code : UInt8} (whole : daemonFrameHeaderBytes ≤ stream.length)
    (header : headerOf stream = .ok (code, length)) :
    next maxPayload stream = nextOf maxPayload stream code length := by
  rw [next, if_neg (Nat.not_lt.mpr whole), header]
  rfl

theorem whole_of_next {stream : List UInt8} (told : next maxPayload stream ≠ .more) :
    daemonFrameHeaderBytes ≤ stream.length := by
  by_contra short
  exact told (if_pos (Nat.not_le.mp short))

theorem nextOf_item {code : UInt8} {frame : DaemonFrame} {rest : List UInt8} :
    nextOf maxPayload stream code length = .item frame rest ↔
      kindOf code = some frame.kind ∧ length ≤ maxPayload ∧ daemonFrameHeaderBytes + length ≤ stream.length ∧
        frame.payload = (stream.drop daemonFrameHeaderBytes).take length ∧
        rest = stream.drop (daemonFrameHeaderBytes + length) := by
  unfold nextOf
  cases kindOf code with
  | none => exact iff_of_false (fun same => nomatch same) fun both => nomatch both.1
  | some kind =>
    dsimp only
    split
    · rename_i large
      exact iff_of_false (fun same => nomatch same) fun both => by omega
    · rename_i fits
      split
      · rename_i short
        exact iff_of_false (fun same => nomatch same) fun both => by omega
      · rename_i inside
        constructor
        · intro same
          obtain ⟨rfl, rfl⟩ := Next.item.inj same
          exact ⟨rfl, by omega, by omega, rfl, rfl⟩
        · rintro ⟨sameKind, -, -, payload, rfl⟩
          obtain rfl := Option.some.inj sameKind
          rw [← payload]

theorem nextOf_broken {code : UInt8} :
    nextOf maxPayload stream code length = .broken ↔ kindOf code = none ∨ maxPayload < length := by
  unfold nextOf
  cases kindOf code with
  | none => exact iff_of_true rfl (.inl rfl)
  | some kind =>
    dsimp only
    split
    · rename_i large
      exact iff_of_true rfl (.inr large)
    · rename_i fits
      refine iff_of_false ?_ fun either => either.elim (fun none => nomatch none) fits
      split
      · exact fun same => nomatch same
      · exact fun same => nomatch same

end

def wire (maxPayload : ℕ) : Grammar DaemonFrame UInt8 where
  next := next maxPayload
  shorter {front value rest} item := by
    have whole : daemonFrameHeaderBytes ≤ front.length := whole_of_next (by rw [item]; exact fun same => nomatch same)
    obtain ⟨code, length, -, header, -⟩ := headerOf_eq whole
    rw [next_of_header whole header, nextOf_item] at item
    obtain ⟨-, -, inside, -, rfl⟩ := item
    have header : daemonFrameHeaderBytes = 5 := rfl
    rw [length_drop]
    omega
  item_append {front value rest} back item := by
    have whole : daemonFrameHeaderBytes ≤ front.length := whole_of_next (by rw [item]; exact fun same => nomatch same)
    obtain ⟨code, length, -, header, -⟩ := headerOf_eq whole
    have longer : front.length ≤ (front ++ back).length := length_append ▸ Nat.le_add_right _ _
    rw [next_of_header whole header, nextOf_item] at item
    obtain ⟨kind, fits, inside, payload, rfl⟩ := item
    rw [next_of_header (Nat.le_trans whole longer) ((headerOf_append whole back).trans header), nextOf_item]
    refine ⟨kind, fits, Nat.le_trans inside longer, ?_, ?_⟩
    · rw [payload, drop_append_of_le_length whole, take_append_of_le_length]
      rw [length_drop]
      omega
    · rw [drop_append_of_le_length inside]
  broken_append {front} back broken := by
    have whole : daemonFrameHeaderBytes ≤ front.length := whole_of_next (by rw [broken]; exact fun same => nomatch same)
    obtain ⟨code, length, -, header, -⟩ := headerOf_eq whole
    have longer : front.length ≤ (front ++ back).length := length_append ▸ Nat.le_add_right _ _
    rw [next_of_header whole header, nextOf_broken] at broken
    rw [next_of_header (Nat.le_trans whole longer) ((headerOf_append whole back).trans header), nextOf_broken]
    exact broken

theorem wire_next (maxPayload : ℕ) (stream : List UInt8) : (wire maxPayload).next stream = next maxPayload stream := rfl

theorem drain_eq (maxPayload fuel : ℕ) (buffer : List UInt8) (frames : List DaemonFrame) :
    drain maxPayload fuel buffer frames = (readUpTo (wire maxPayload) fuel buffer).2.map fun rest =>
      (frames ++ (readUpTo (wire maxPayload) fuel buffer).1, rest) := by
  induction fuel generalizing buffer frames with
  | zero =>
    rw [readUpTo, append_nil]
    rfl
  | succ fuel ih =>
    unfold drain readUpTo
    by_cases short : buffer.length < daemonFrameHeaderBytes
    · have more : (wire maxPayload).next buffer = .more := if_pos short
      rw [if_pos short, more]
      show _ = some (frames ++ [], buffer)
      rw [append_nil]
    · rw [if_neg short]
      obtain ⟨code, length, -, header, -⟩ := headerOf_eq (Nat.not_lt.mp short)
      have front : (wire maxPayload).next buffer = nextOf maxPayload buffer code length :=
        next_of_header (Nat.not_lt.mp short) header
      rw [front, header]
      unfold nextOf
      dsimp only
      cases kindOf code with
      | none => rfl
      | some kind =>
        dsimp only
        split
        · rfl
        · split
          · show some (frames, buffer) = some (frames ++ [], buffer)
            rw [append_nil]
          · rw [ih]
            dsimp only
            simp only [append_assoc, singleton_append]

def kept (reader : DaemonFrameReader) : Option (List UInt8) := if reader.broken then none else some reader.buffer

theorem push_eq (reader : DaemonFrameReader) (chunk : List UInt8) :
    (reader.push chunk).1 = (Incremental.push (wire reader.maxPayload) (kept reader) chunk).1 ∧
      kept (reader.push chunk).2 = (Incremental.push (wire reader.maxPayload) (kept reader) chunk).2 ∧
      (reader.push chunk).2.maxPayload = reader.maxPayload := by
  unfold DaemonFrameReader.push
  by_cases broken : reader.broken
  · have gone : kept reader = none := if_pos broken
    rw [if_pos broken, gone]
    exact ⟨rfl, rfl, rfl⟩
  · have here : kept reader = some reader.buffer := if_neg broken
    rw [if_neg broken, here]
    dsimp only
    rw [drain_eq, ← readAll, Incremental.push]
    cases ends : (readAll (wire reader.maxPayload) (reader.buffer ++ chunk)).2 with
    | none => exact ⟨rfl, rfl, rfl⟩
    | some rest => exact ⟨rfl, if_neg broken, rfl⟩

theorem pushAll_eq (reader : DaemonFrameReader) (chunks : List (List UInt8)) :
    (reader.pushAll chunks).1 = (feed (wire reader.maxPayload) (kept reader) chunks).1 ∧
      kept (reader.pushAll chunks).2 = (feed (wire reader.maxPayload) (kept reader) chunks).2 := by
  induction chunks generalizing reader with
  | nil => exact ⟨rfl, rfl⟩
  | cons chunk chunks ih =>
    obtain ⟨answer, keeps, cap⟩ := push_eq reader chunk
    obtain ⟨answers, ends⟩ := ih (reader.push chunk).2
    rw [cap, keeps] at answers ends
    rw [DaemonFrameReader.pushAll, feed]
    exact ⟨by rw [answer, answers], ends⟩

def fresh (maxPayload : ℕ) : DaemonFrameReader := { maxPayload }

section
variable {maxPayload : ℕ} {chunks : List (List UInt8)}

theorem next_nil : (wire maxPayload).next [] = .more := rfl

theorem broken_iff {reader : DaemonFrameReader} : reader.broken = true ↔ kept reader = none := by
  unfold kept
  split
  · rename_i broken
    exact iff_of_true broken rfl
  · rename_i whole
    exact iff_of_false whole (Option.some_ne_none _)

theorem pushAll_broken : ((fresh maxPayload).pushAll chunks).2.broken = true ↔
    (readAll (wire maxPayload) chunks.flatten).2 = none := by
  rw [broken_iff, (pushAll_eq (fresh maxPayload) chunks).2]
  show (feed (wire maxPayload) (some []) chunks).2 = none ↔ _
  cases ends : (readAll (wire maxPayload) chunks.flatten).2 with
  | none =>
    obtain ⟨_, _, _, _, _, _, _, _, _, gone⟩ := feed_broken next_nil rfl ends
    exact iff_of_true gone rfl
  | some rest =>
    rw [(feed_whole next_nil rfl ends).2.2]

theorem encode_next {frame : DaemonFrame} {bytes : List UInt8}
    (encoded : encodeDaemonFrame frame.kind frame.payload = .ok bytes) (fits : frame.payload.length ≤ maxPayload)
    (rest : List UInt8) : (wire maxPayload).next (bytes ++ rest) = .item frame rest := by
  unfold encodeDaemonFrame at encoded
  split at encoded
  case isTrue => cases encoded
  rename_i small
  obtain rfl := Except.ok.inj encoded
  have small : frame.payload.length < 4294967296 := by
    have bound : daemonMaxPayloadBytes = 16777216 := rfl
    omega
  have length : (frame.kind.code :: putUint32 frame.payload.length ++ frame.payload ++ rest).length =
      daemonFrameHeaderBytes + frame.payload.length + rest.length := by
    simp only [length_append, length_cons, length_putUint32, daemonFrameHeaderBytes]
  have header : headerOf (frame.kind.code :: putUint32 frame.payload.length ++ frame.payload ++ rest) =
      .ok (frame.kind.code, frame.payload.length) := by
    rw [append_assoc]
    exact headerOf_cons _ small _
  have behind : (frame.kind.code :: putUint32 frame.payload.length ++ frame.payload ++ rest).drop daemonFrameHeaderBytes =
      frame.payload ++ rest := by
    rw [append_assoc]
    rfl
  rw [wire_next, next_of_header (by omega) header, nextOf_item]
  refine ⟨kindOf_code _, fits, by omega, ?_, ?_⟩
  · rw [behind, take_left]
  · rw [← drop_drop, behind, drop_left]

theorem readAll_encodings {frames : List DaemonFrame} {encodings : List (List UInt8)}
    (encoded : List.Forall₂ (fun frame bytes => encodeDaemonFrame frame.kind frame.payload = .ok bytes) frames encodings)
    (fit : ∀ frame ∈ frames, frame.payload.length ≤ maxPayload) :
    readAll (wire maxPayload) encodings.flatten = (frames, some []) := by
  induction encoded with
  | nil => exact readAll_more next_nil
  | @cons frame bytes frames encodings first later ih =>
    have ih := ih fun frame listed => fit frame (mem_cons_of_mem _ listed)
    rw [flatten_cons, readAll_item (encode_next first (fit frame mem_cons_self) _), ih]

theorem pushAll_at_break (broken : ((fresh maxPayload).pushAll chunks).2.broken = true) :
    ∃ front chunk later, chunks = front ++ chunk :: later ∧
      ((fresh maxPayload).pushAll front).2.broken = false ∧
      ((fresh maxPayload).pushAll (front ++ [chunk])).2.broken = true ∧
      ((fresh maxPayload).pushAll chunks).1 = ((fresh maxPayload).pushAll front).1 ++ (chunk :: later).map (fun _ => none) ∧
      delivered ((fresh maxPayload).pushAll chunks).1 = (readAll (wire maxPayload) front.flatten).1 := by
  obtain ⟨front, chunk, later, rest, split, whole, ends, answers, items, -⟩ :=
    feed_broken next_nil rfl (pushAll_broken.mp broken)
  rw [nil_append] at whole ends items
  refine ⟨front, chunk, later, split, ?_, pushAll_broken.mpr ends, ?_, ?_⟩
  · rw [← Bool.not_eq_true, pushAll_broken, whole]
    exact Option.some_ne_none _
  · rw [(pushAll_eq _ _).1, (pushAll_eq _ _).1]
    exact answers
  · rw [(pushAll_eq _ _).1]
    exact items

theorem pushAll_whole (whole : ((fresh maxPayload).pushAll chunks).2.broken = false) :
    (∀ answer ∈ ((fresh maxPayload).pushAll chunks).1, answer ≠ none) ∧
      delivered ((fresh maxPayload).pushAll chunks).1 = (readAll (wire maxPayload) chunks.flatten).1 := by
  rw [← Bool.not_eq_true, pushAll_broken] at whole
  obtain ⟨rest, ends⟩ := Option.ne_none_iff_exists'.mp whole
  obtain ⟨answered, items, -⟩ := feed_whole next_nil rfl ends
  rw [(pushAll_eq _ _).1]
  exact ⟨answered, items⟩

theorem prefix_of_fronts {stream front front' back back' : List UInt8} (cut : front ++ back = stream)
    (cut' : front' ++ back' = stream) (shorter : front.length ≤ front'.length) :
    (readAll (wire maxPayload) front).1 <+: (readAll (wire maxPayload) front').1 := by
  obtain ⟨between, rfl⟩ := prefix_of_prefix_length_le ⟨back, cut⟩ ⟨back', cut'⟩ shorter
  exact items_prefix front between

theorem bytes_flatten (stream : List UInt8) : (stream.map fun byte => [byte]).flatten = stream := by
  induction stream with
  | nil => rfl
  | cons byte rest ih => exact congrArg (byte :: ·) ih

theorem prefix_of_bytes (broken : ((fresh maxPayload).pushAll chunks).2.broken = true) :
    delivered ((fresh maxPayload).pushAll chunks).1 <+:
      delivered ((fresh maxPayload).pushAll (chunks.flatten.map fun byte => [byte])).1 := by
  have same := bytes_flatten chunks.flatten
  have broken' : ((fresh maxPayload).pushAll (chunks.flatten.map fun byte => [byte])).2.broken = true := by
    rw [pushAll_broken, same]
    exact pushAll_broken.mp broken
  obtain ⟨front, chunk, later, cut, whole, ends, -, items⟩ := pushAll_at_break broken
  obtain ⟨front', chunk', later', cut', whole', ends', -, items'⟩ := pushAll_at_break broken'
  rw [items, items']
  have stream : front.flatten ++ (chunk :: later).flatten = chunks.flatten := by rw [cut, flatten_append]
  have stream' : front'.flatten ++ (chunk' :: later').flatten = chunks.flatten := by
    rw [← flatten_append, ← cut', same]
  obtain ⟨byte, -, rfl⟩ : ∃ byte ∈ chunks.flatten, [byte] = chunk' := by
    have listed : chunk' ∈ chunks.flatten.map fun byte => [byte] := by
      rw [cut']
      exact mem_append_right _ mem_cons_self
    exact mem_map.mp listed
  refine prefix_of_fronts stream stream' ?_
  -- A longer front would hold the byte that breaks the stream.
  by_contra longer
  have holds : (front' ++ [[byte]]).flatten <+: front.flatten := by
    refine @prefix_of_prefix_length_le _ _ _ chunks.flatten ⟨later'.flatten, ?_⟩ ⟨_, stream⟩ ?_
    · rw [flatten_append, flatten_singleton, append_assoc, ← stream', flatten_cons]
    · rw [flatten_append, flatten_singleton, length_append, length_singleton]
      omega
  obtain ⟨behind, split⟩ := holds
  rw [← Bool.not_eq_true, pushAll_broken, ← split] at whole
  exact whole (broken_stays (pushAll_broken.mp ends') behind)

end

/-- Frames survive any chunking, and whether a stream breaks depends on the stream alone. The frames that were delivered when
it broke are those that the chunks before the one it broke with completed: a prefix of those it gives byte by byte. -/
theorem frames_survive (maxPayload : ℕ) :
    (∀ (frames : List DaemonFrame) (encodings chunks : List (List UInt8)),
      List.Forall₂ (fun frame bytes => encodeDaemonFrame frame.kind frame.payload = .ok bytes) frames encodings →
      (∀ frame ∈ frames, frame.payload.length ≤ maxPayload) → chunks.flatten = encodings.flatten →
      (∀ answer ∈ ((fresh maxPayload).pushAll chunks).1, answer ≠ none) ∧
        delivered ((fresh maxPayload).pushAll chunks).1 = frames) ∧
    (∀ chunks chunks' : List (List UInt8), chunks.flatten = chunks'.flatten →
      ((fresh maxPayload).pushAll chunks).2.broken = ((fresh maxPayload).pushAll chunks').2.broken) ∧
    ∀ chunks : List (List UInt8), ((fresh maxPayload).pushAll chunks).2.broken = true →
      (∃ front chunk later, chunks = front ++ chunk :: later ∧
        ((fresh maxPayload).pushAll front).2.broken = false ∧
        ((fresh maxPayload).pushAll (front ++ [chunk])).2.broken = true ∧
        ((fresh maxPayload).pushAll chunks).1 =
          ((fresh maxPayload).pushAll front).1 ++ (chunk :: later).map (fun _ => none) ∧
        delivered ((fresh maxPayload).pushAll chunks).1 = delivered ((fresh maxPayload).pushAll [front.flatten]).1) ∧
      delivered ((fresh maxPayload).pushAll chunks).1 <+:
        delivered ((fresh maxPayload).pushAll (chunks.flatten.map fun byte => [byte])).1 := by
  refine ⟨fun frames encodings chunks encoded fit cut => ?_, fun chunks chunks' cut => ?_, fun chunks broken => ⟨?_, ?_⟩⟩
  · have read := readAll_encodings encoded fit
    have whole : ((fresh maxPayload).pushAll chunks).2.broken = false := by
      rw [← Bool.not_eq_true, pushAll_broken, cut, read]
      exact Option.some_ne_none _
    obtain ⟨answered, items⟩ := pushAll_whole whole
    rw [cut, read] at items
    exact ⟨answered, items⟩
  · rw [Bool.eq_iff_iff, pushAll_broken, pushAll_broken, cut]
  · obtain ⟨front, chunk, later, split, whole, ends, answers, items⟩ := pushAll_at_break broken
    have together : ((fresh maxPayload).pushAll [front.flatten]).2.broken = false := by
      rw [← Bool.not_eq_true, pushAll_broken, flatten_singleton, ← pushAll_broken, whole]
      exact Bool.false_ne_true
    refine ⟨front, chunk, later, split, whole, ends, answers, ?_⟩
    rw [items, (pushAll_whole together).2, flatten_singleton]
  · exact prefix_of_bytes broken

/-- A frame of two bytes whose header is cut in two. -/
theorem cut_frame_survives : delivered ((fresh daemonMaxPayloadBytes).pushAll [[1, 0, 0], [0, 2, 7, 8]]).1 = [⟨.data, [7, 8]⟩] :=
  ((frames_survive daemonMaxPayloadBytes).1 [⟨.data, [7, 8]⟩] [[1, 0, 0, 0, 2, 7, 8]] _ (.cons rfl .nil)
    (by decide) rfl).2

/-- An empty frame and then a header of no known kind: in one chunk nothing is delivered, in two the frame is. -/
theorem delivered_depends_on_cut : ¬ ∀ chunks chunks' : List (List UInt8), chunks.flatten = chunks'.flatten →
    ((fresh daemonMaxPayloadBytes).pushAll chunks).2.broken = true →
    delivered ((fresh daemonMaxPayloadBytes).pushAll chunks).1 = delivered ((fresh daemonMaxPayloadBytes).pushAll chunks').1 := by
  intro same
  have one : ((fresh daemonMaxPayloadBytes).pushAll [[1, 0, 0, 0, 0, 9, 0, 0, 0, 0]]).1 = [none] := by decide
  have two : ((fresh daemonMaxPayloadBytes).pushAll [[1, 0, 0, 0, 0], [9, 0, 0, 0, 0]]).1 =
      [some [⟨.data, []⟩], none] := by decide
  have equal := same [[1, 0, 0, 0, 0, 9, 0, 0, 0, 0]] [[1, 0, 0, 0, 0], [9, 0, 0, 0, 0]] rfl (by decide)
  rw [one, two] at equal
  cases equal

end EverWorks.Sessions.DaemonFrames
