import EverWorks.Lib.Slices
import EverWorks.Lib.JsValue

/-!
`encodeDesktopTiles` and `decodeDesktopTiles`: the payload that carries the changed regions of a
picture, each a JPEG of its own. Reads go through a checked view, so a decoder that returns has read
inside its payload.
-/

namespace EverWorks.Fleet
open List

open Lib Lib.Bytes

structure FleetDesktopTile where
  x : JsNumber
  y : JsNumber
  w : JsNumber
  h : JsNumber
  data : List UInt8
  deriving DecidableEq

structure FleetDesktopTiles where
  width : JsNumber
  height : JsNumber
  tiles : List FleetDesktopTile
  deriving DecidableEq

def fleetDesktopTilesHeaderBytes : Nat := 6

def fleetDesktopTileHeaderBytes : Nat := 12

def fleetDesktopMaxTiles : Nat := 16384

def fleetDesktopTileSize : JsNumber := 64

def fleetDesktopMaxDimension : JsNumber := 8192

def validPicture (width height : JsNumber) : Bool :=
  width.isInteger && height.isInteger && JsNumber.atMost 1 width && JsNumber.atMost 1 height &&
    width.atMost fleetDesktopMaxDimension && height.atMost fleetDesktopMaxDimension

def validTile (tile : FleetDesktopTile) (width height : JsNumber) : Bool :=
  tile.x.isInteger && tile.y.isInteger && tile.w.isInteger && tile.h.isInteger &&
    JsNumber.atMost 0 tile.x && JsNumber.atMost 0 tile.y &&
    JsNumber.atMost 1 tile.w && JsNumber.atMost 1 tile.h &&
    tile.w.atMost fleetDesktopTileSize && tile.h.atMost fleetDesktopTileSize &&
    (tile.x.add tile.w).atMost width && (tile.y.add tile.h).atMost height

def looksLikeJpeg (bytes : List UInt8) (offset length : Nat) : Except OutOfRange Bool :=
  if length < 4 then .ok false
  else do
    let first ← getUint8 bytes offset
    if first ≠ 0xff then .ok false
    else do
      let second ← getUint8 bytes (offset + 1)
      .ok (decide (second = 0xd8))

/-- The first loop of `encodeDesktopTiles`: checks each tile and adds up the size. -/
def tilesTotal (input : FleetDesktopTiles) (maxBytes : JsNumber) :
    Nat → List FleetDesktopTile → Except OutOfRange (Option Nat)
  | total, [] => .ok (some total)
  | total, tile :: rest =>
    if !validTile tile input.width input.height then .ok none
    else do
      let jpeg ← looksLikeJpeg tile.data 0 tile.data.length
      if !jpeg then .ok none
      else if maxBytes.less ↑(total + (fleetDesktopTileHeaderBytes + tile.data.length)) then .ok none
      else tilesTotal input maxBytes (total + (fleetDesktopTileHeaderBytes + tile.data.length)) rest

def encodeTile (tile : FleetDesktopTile) : List UInt8 :=
  putUint16 (tile.x.toUint 16) ++ (putUint16 (tile.y.toUint 16) ++ (putUint16 (tile.w.toUint 16) ++
    (putUint16 (tile.h.toUint 16) ++ (putUint32 tile.data.length ++ tile.data))))

def encodeDesktopTiles (input : FleetDesktopTiles) (maxBytes : JsNumber) :
    Except OutOfRange (Option (List UInt8)) :=
  if !validPicture input.width input.height then .ok none
  else if input.tiles.length = 0 || fleetDesktopMaxTiles < input.tiles.length then .ok none
  else do
    match ← tilesTotal input maxBytes fleetDesktopTilesHeaderBytes input.tiles with
    | none => .ok none
    | some _ =>
      .ok (some (putUint16 (input.width.toUint 16) ++ (putUint16 (input.height.toUint 16) ++
        (putUint16 input.tiles.length ++ input.tiles.flatMap encodeTile))))

/-- One turn of the loop of `decodeDesktopTiles`: the tile at `offset`, and the offset after it. -/
def decodeTile (payload : List UInt8) (width height : JsNumber) (offset : Nat) :
    Except OutOfRange (Option (FleetDesktopTile × Nat)) :=
  if payload.length < offset + fleetDesktopTileHeaderBytes then .ok none
  else do
    let x ← getUint16 payload offset
    let y ← getUint16 payload (offset + 2)
    let w ← getUint16 payload (offset + 4)
    let h ← getUint16 payload (offset + 6)
    let length ← getUint32 payload (offset + 8)
    let start := offset + fleetDesktopTileHeaderBytes
    let tile : FleetDesktopTile := ⟨x, y, w, h, (payload.drop start).take length⟩
    if !validTile tile width height then .ok none
    else if length = 0 || payload.length < start + length then .ok none
    else do
      let jpeg ← looksLikeJpeg payload start length
      if !jpeg then .ok none
      else .ok (some (tile, start + length))

def decodeTileList (payload : List UInt8) (width height : JsNumber) :
    Nat → Nat → Except OutOfRange (Option (List FleetDesktopTile × Nat))
  | 0, offset => .ok (some ([], offset))
  | count + 1, offset => do
    match ← decodeTile payload width height offset with
    | none => .ok none
    | some (tile, next) =>
      match ← decodeTileList payload width height count next with
      | none => .ok none
      | some (tiles, last) => .ok (some (tile :: tiles, last))

def decodeDesktopTiles (payload : List UInt8) (maxBytes : JsNumber) :
    Except OutOfRange (Option FleetDesktopTiles) :=
  if maxBytes.less payload.length then .ok none
  else if payload.length < fleetDesktopTilesHeaderBytes then .ok none
  else do
    let width ← getUint16 payload 0
    let height ← getUint16 payload 2
    let count ← getUint16 payload 4
    if !validPicture width height || count = 0 || fleetDesktopMaxTiles < count then .ok none
    else if payload.length < fleetDesktopTilesHeaderBytes + count * fleetDesktopTileHeaderBytes then
      .ok none
    else
      match ← decodeTileList payload width height count fleetDesktopTilesHeaderBytes with
      | none => .ok none
      | some (tiles, offset) =>
        if offset ≠ payload.length then .ok none
        else .ok (some ⟨width, height, tiles⟩)

def isJpeg (data : List UInt8) : Bool :=
  decide (4 ≤ data.length) && decide (data[0]? = some 0xff) && decide (data[1]? = some 0xd8)

variable {bytes : List UInt8}

theorem looksLikeJpeg_inside {offset length : Nat}
    (inside : offset + length ≤ bytes.length) :
    looksLikeJpeg bytes offset length = .ok (isJpeg ((bytes.drop offset).take length)) := by
  by_cases short : length < 4
  · simp [looksLikeJpeg, isJpeg, short]
  · obtain ⟨first, readFirst, atFirst⟩ := getUint8_inside bytes offset (by omega)
    obtain ⟨second, readSecond, atSecond⟩ := getUint8_inside bytes (offset + 1) (by omega)
    have taken : (bytes.drop offset).take length =
        first :: second :: ((bytes.drop (offset + 1 + 1)).take (length - 2)) := by
      rw [atFirst, atSecond, show length = length - 2 + 1 + 1 by omega]
      rfl
    have long : 4 ≤ ((bytes.drop offset).take length).length := by
      simp
      omega
    have firstIs : first.toNat = 0xff ↔ first = 0xff := UInt8.toNat_inj (b := 0xff)
    have secondIs : second.toNat = 0xd8 ↔ second = 0xd8 := UInt8.toNat_inj (b := 0xd8)
    rw [isJpeg, decide_eq_true long, taken]
    by_cases head : first = 0xff
    · simp [looksLikeJpeg, short, readFirst, readSecond, head, secondIs]
    · simp [looksLikeJpeg, short, readFirst, firstIs, head]

theorem looksLikeJpeg_all (data : List UInt8) :
    looksLikeJpeg data 0 data.length = .ok (isJpeg data) := by
  have inside : 0 + data.length ≤ data.length := by omega
  simpa using looksLikeJpeg_inside inside

theorem isJpeg_length {data : List UInt8} (jpeg : isJpeg data = true) : 4 ≤ data.length := by
  simp [isJpeg] at jpeg
  exact jpeg.1.1

@[simp] theorem length_encodeTile (tile : FleetDesktopTile) :
    (encodeTile tile).length = fleetDesktopTileHeaderBytes + tile.data.length := by
  simp [encodeTile, fleetDesktopTileHeaderBytes]
  omega

variable {width height : JsNumber}

theorem validPicture_nat (valid : validPicture width height = true) :
    ∃ m n : Nat, width = m ∧ height = n ∧ m ≤ 8192 ∧ n ≤ 8192 := by
  simp only [validPicture, Bool.and_eq_true] at valid
  obtain ⟨⟨⟨⟨⟨intWidth, intHeight⟩, posWidth⟩, posHeight⟩, maxWidth⟩, maxHeight⟩ := valid
  obtain ⟨m, rfl⟩ := JsNumber.exists_nat intWidth (JsNumber.zero_atMost posWidth)
  obtain ⟨n, rfl⟩ := JsNumber.exists_nat intHeight (JsNumber.zero_atMost posHeight)
  exact ⟨m, n, rfl, rfl, JsNumber.cast_atMost.mp maxWidth, JsNumber.cast_atMost.mp maxHeight⟩

theorem validTile_nat {tile : FleetDesktopTile}
    (picture : validPicture width height = true) (valid : validTile tile width height = true) :
    ∃ x y w h : Nat, tile = ⟨x, y, w, h, tile.data⟩ ∧ x < 65536 ∧ y < 65536 ∧ w < 65536 ∧ h < 65536 := by
  obtain ⟨m, n, rfl, rfl, maxWidth, maxHeight⟩ := validPicture_nat picture
  obtain ⟨x, y, w, h, data⟩ := tile
  simp only [validTile, Bool.and_eq_true] at valid
  obtain ⟨⟨⟨⟨⟨⟨⟨⟨⟨⟨⟨intX, intY⟩, intW⟩, intH⟩, nonnegX⟩, nonnegY⟩, posW⟩, posH⟩, maxW⟩, maxH⟩,
    sumX⟩, sumY⟩ := valid
  obtain ⟨x, rfl⟩ := JsNumber.exists_nat intX nonnegX
  obtain ⟨y, rfl⟩ := JsNumber.exists_nat intY nonnegY
  obtain ⟨w, rfl⟩ := JsNumber.exists_nat intW (JsNumber.zero_atMost posW)
  obtain ⟨h, rfl⟩ := JsNumber.exists_nat intH (JsNumber.zero_atMost posH)
  have boundX := JsNumber.le_of_add_atMost sumX
  have boundY := JsNumber.le_of_add_atMost sumY
  have boundW : w ≤ 64 := JsNumber.cast_atMost.mp maxW
  have boundH : h ≤ 64 := JsNumber.cast_atMost.mp maxH
  exact ⟨x, y, w, h, rfl, by omega, by omega, by omega, by omega⟩

theorem decodeTile_encodeTile {payload rest : List UInt8} {offset : Nat}
    {tile : FleetDesktopTile} (written : payload.drop offset = encodeTile tile ++ rest)
    (picture : validPicture width height = true) (valid : validTile tile width height = true)
    (jpeg : isJpeg tile.data = true) (fits : tile.data.length < 4294967296) :
    decodeTile payload width height offset =
      .ok (some (tile, offset + (fleetDesktopTileHeaderBytes + tile.data.length))) := by
  have inside : offset ≤ payload.length := by
    have lengths := congrArg List.length written
    simp [fleetDesktopTileHeaderBytes] at lengths
    omega
  have lengths := length_of_drop written inside
  rw [length_encodeTile, fleetDesktopTileHeaderBytes] at lengths
  obtain ⟨x, y, w, h, shape, smallX, smallY, smallW, smallH⟩ := validTile_nat picture valid
  obtain ⟨_, _, _, _, data⟩ := tile
  simp only [FleetDesktopTile.mk.injEq] at shape
  obtain ⟨rfl, rfl, rfl, rfl, -⟩ := shape
  dsimp only at jpeg fits lengths ⊢
  simp only [encodeTile, JsNumber.toUint_small smallX, JsNumber.toUint_small smallY,
    JsNumber.toUint_small smallW, JsNumber.toUint_small smallH, append_assoc] at written
  have atY := drop_add_of_drop _ written
  have atW := drop_add_of_drop _ atY
  have atH := drop_add_of_drop _ atW
  have atLength := drop_add_of_drop _ atH
  have atData := drop_add_of_drop _ atLength
  simp only [length_putUint16, length_putUint32, Nat.add_assoc, Nat.reduceAdd] at atY atW atH atLength atData
  have data_eq : (payload.drop (offset + 12)).take data.length = data := by
    rw [atData, take_left]
  have long := isJpeg_length jpeg
  have looks : looksLikeJpeg payload (offset + 12) data.length = .ok true := by
    rw [looksLikeJpeg_inside (by omega), data_eq, jpeg]
  have room : ¬ payload.length < offset + 12 := by omega
  have nonempty : data ≠ [] := ne_nil_of_length_pos (by omega)
  simp [decodeTile, fleetDesktopTileHeaderBytes, room, getUint16_of_drop_small written smallX,
    getUint16_of_drop_small atY smallY, getUint16_of_drop_small atW smallW,
    getUint16_of_drop_small atH smallH, getUint32_of_drop_small atLength fits, data_eq, valid, looks,
    nonempty, Nat.add_assoc]
  omega

theorem decodeTile_spec (payload : List UInt8) (width height : JsNumber) (offset : Nat) :
    decodeTile payload width height offset = .ok none ∨
      ∃ tile next, decodeTile payload width height offset = .ok (some (tile, next)) ∧
        validTile tile width height = true ∧ isJpeg tile.data = true ∧
        tile.data.length < 4294967296 ∧ next = offset + (encodeTile tile).length ∧
        next ≤ payload.length ∧ payload.drop offset = encodeTile tile ++ payload.drop next := by
  by_cases short : payload.length < offset + 12
  · exact .inl (if_pos short)
  obtain ⟨x, boundX, readX, atX⟩ := getUint16_inside payload offset (by omega)
  obtain ⟨y, boundY, readY, atY⟩ := getUint16_inside payload (offset + 2) (by omega)
  obtain ⟨w, boundW, readW, atW⟩ := getUint16_inside payload (offset + 4) (by omega)
  obtain ⟨h, boundH, readH, atH⟩ := getUint16_inside payload (offset + 6) (by omega)
  obtain ⟨length, boundLength, readLength, atLength⟩ := getUint32_inside payload (offset + 8) (by omega)
  obtain ⟨tile, isTile⟩ : ∃ tile : FleetDesktopTile,
      tile = ⟨x, y, w, h, (payload.drop (offset + 12)).take length⟩ := ⟨_, rfl⟩
  have unfolded : decodeTile payload width height offset =
      (if !validTile tile width height then .ok none
      else if length = 0 || payload.length < offset + 12 + length then .ok none
      else do
        let jpeg ← looksLikeJpeg payload (offset + 12) length
        if !jpeg then .ok none else .ok (some (tile, offset + 12 + length))) := by
    simp only [decodeTile, fleetDesktopTileHeaderBytes, if_neg short, readX, readY, readW, readH,
      readLength, ok_bind, ← isTile]
    rfl
  rw [unfolded]
  by_cases valid : validTile tile width height = true
  · by_cases beyond : length = 0 ∨ payload.length < offset + 12 + length
    · simp [valid, beyond]
    · rw [not_or] at beyond
      have inside := beyond.2
      have tileData : tile.data = (payload.drop (offset + 12)).take length := by rw [isTile]
      have room : offset + 12 + length ≤ payload.length := by omega
      have dataLength : tile.data.length = length := by
        rw [tileData]
        simp
        omega
      by_cases jpeg : isJpeg tile.data = true
      · right
        refine ⟨tile, offset + 12 + length, ?_, valid, jpeg, by omega, ?_, by omega, ?_⟩
        · simp [valid, beyond.1, inside, looksLikeJpeg_inside room,
            ← tileData, jpeg]
        · rw [length_encodeTile, dataLength, fleetDesktopTileHeaderBytes, Nat.add_assoc]
        · have atData : payload.drop (offset + 12) = tile.data ++ payload.drop (offset + 12 + length) := by
            rw [tileData, ← drop_drop (j := offset + 12), take_append_drop]
          have fields : tile.x = x ∧ tile.y = y ∧ tile.w = w ∧ tile.h = h := by simp [isTile]
          simp only [Nat.add_assoc, Nat.reduceAdd] at atX atY atW atH atLength atData ⊢
          simp only [encodeTile, dataLength, fields, JsNumber.toUint_small boundX,
            JsNumber.toUint_small boundY, JsNumber.toUint_small boundW, JsNumber.toUint_small boundH,
            append_assoc]
          rw [atX, atY, atW, atH, atLength, atData]
      · left
        simp [valid, beyond.1, inside, looksLikeJpeg_inside room,
          ← tileData, jpeg]
  · simp [valid]

def tilesBytes (tiles : List FleetDesktopTile) : List UInt8 := tiles.flatMap encodeTile

@[simp] theorem tilesBytes_nil : tilesBytes [] = [] := rfl

@[simp] theorem tilesBytes_cons (tile : FleetDesktopTile) (rest : List FleetDesktopTile) :
    tilesBytes (tile :: rest) = encodeTile tile ++ tilesBytes rest := rfl

theorem length_tilesBytes_ge (tiles : List FleetDesktopTile) :
    tiles.length * fleetDesktopTileHeaderBytes ≤ (tilesBytes tiles).length := by
  induction tiles with
  | nil => simp
  | cons tile rest ih =>
    simp only [tilesBytes_cons, length_append, length_encodeTile, length_cons,
      fleetDesktopTileHeaderBytes] at ih ⊢
    omega

/-- A tile `encodeDesktopTiles` lets through. -/
def Acceptable (width height : JsNumber) (tile : FleetDesktopTile) : Prop :=
  validTile tile width height = true ∧ isJpeg tile.data = true

def Fits (tile : FleetDesktopTile) : Prop := tile.data.length < 4294967296

instance (width height : JsNumber) : DecidablePred (Acceptable width height) :=
  fun _ => inferInstanceAs (Decidable (_ ∧ _))

instance : DecidablePred Fits := fun _ => inferInstanceAs (Decidable (_ < _))

theorem tilesTotal_eq (input : FleetDesktopTiles) (maxBytes : JsNumber) (total : Nat)
    (tiles : List FleetDesktopTile) :
    tilesTotal input maxBytes total tiles =
      .ok (if (∀ tile ∈ tiles, Acceptable input.width input.height tile) ∧
          (tiles = [] ∨ maxBytes.less ↑(total + (tilesBytes tiles).length) = false)
        then some (total + (tilesBytes tiles).length) else none) := by
  induction tiles generalizing total with
  | nil => simp [tilesTotal]
  | cons tile rest ih =>
    by_cases valid : validTile tile input.width input.height = true
    · by_cases jpeg : isJpeg tile.data = true
      · have sums : total + (fleetDesktopTileHeaderBytes + tile.data.length) + (tilesBytes rest).length =
            total + (tilesBytes (tile :: rest)).length := by
          simp
          omega
        by_cases exceeds : maxBytes.less ↑(total + (fleetDesktopTileHeaderBytes + tile.data.length)) = true
        · have exceeds_all : maxBytes.less ↑(total +
              (fleetDesktopTileHeaderBytes + tile.data.length + (tilesBytes rest).length)) = true :=
            JsNumber.less_cast_mono (by omega) exceeds
          simp [tilesTotal, valid, looksLikeJpeg_all, jpeg, exceeds, exceeds_all]
        · simp only [tilesTotal, valid, looksLikeJpeg_all, jpeg, exceeds, ih, sums]
          simp only [forall_mem_cons, Acceptable, valid, jpeg]
          by_cases empty : rest = []
          · simp [empty]
            simpa using exceeds
          · simp [empty]
      · simp [tilesTotal, valid, looksLikeJpeg_all, jpeg, Acceptable]
    · simp [tilesTotal, valid, Acceptable]

theorem decodeTileList_tilesBytes {payload rest : List UInt8} {offset : Nat}
    {tiles : List FleetDesktopTile} (written : payload.drop offset = tilesBytes tiles ++ rest)
    (picture : validPicture width height = true)
    (acceptable : ∀ tile ∈ tiles, Acceptable width height tile) (fits : ∀ tile ∈ tiles, Fits tile) :
    decodeTileList payload width height tiles.length offset =
      .ok (some (tiles, offset + (tilesBytes tiles).length)) := by
  induction tiles generalizing offset with
  | nil => simp [decodeTileList]
  | cons tile others ih =>
    rw [tilesBytes_cons, append_assoc] at written
    have here := decodeTile_encodeTile written picture (acceptable tile mem_cons_self).1
      (acceptable tile mem_cons_self).2 (fits tile mem_cons_self)
    have after := drop_add_of_drop _ written
    rw [length_encodeTile] at after
    have later := ih after (fun t inside => acceptable t (mem_cons_of_mem _ inside))
      (fun t inside => fits t (mem_cons_of_mem _ inside))
    simp [decodeTileList, here, later, Nat.add_assoc]

theorem decodeTileList_spec (payload : List UInt8) (width height : JsNumber) (count offset : Nat)
    (start : offset ≤ payload.length) :
    decodeTileList payload width height count offset = .ok none ∨
      ∃ tiles last, decodeTileList payload width height count offset = .ok (some (tiles, last)) ∧
        tiles.length = count ∧ (∀ tile ∈ tiles, Acceptable width height tile) ∧
        (∀ tile ∈ tiles, Fits tile) ∧ last = offset + (tilesBytes tiles).length ∧
        payload.drop offset = tilesBytes tiles ++ payload.drop last := by
  induction count generalizing offset with
  | zero => exact .inr ⟨[], offset, rfl, rfl, by simp, by simp, rfl, rfl⟩
  | succ count ih =>
    rcases decodeTile_spec payload width height offset with
      refused | ⟨tile, next, read, valid, jpeg, fits, isNext, inside, here⟩
    · exact .inl (by simp [decodeTileList, refused])
    · rcases ih next inside with stopped | ⟨tiles, last, later, counted, acceptable, fit, isLast, rest⟩
      · exact .inl (by simp [decodeTileList, read, stopped])
      · refine .inr ⟨tile :: tiles, last, by simp [decodeTileList, read, later], by simp [counted], ?_, ?_, ?_, ?_⟩
        · exact forall_mem_cons.mpr ⟨⟨valid, jpeg⟩, acceptable⟩
        · exact forall_mem_cons.mpr ⟨fits, fit⟩
        · rw [isLast, isNext, tilesBytes_cons, length_append]
          omega
        · rw [here, rest, tilesBytes_cons, append_assoc]

def payloadOf (input : FleetDesktopTiles) : List UInt8 :=
  putUint16 (input.width.toUint 16) ++ (putUint16 (input.height.toUint 16) ++
    (putUint16 input.tiles.length ++ tilesBytes input.tiles))

/-- What `encodeDesktopTiles` asks of its input. -/
structure Encodable (input : FleetDesktopTiles) (maxBytes : JsNumber) : Prop where
  picture : validPicture input.width input.height = true
  some_tile : input.tiles ≠ []
  few_tiles : input.tiles.length ≤ fleetDesktopMaxTiles
  acceptable : ∀ tile ∈ input.tiles, Acceptable input.width input.height tile
  small : maxBytes.less ↑(payloadOf input).length = false

theorem length_payloadOf (input : FleetDesktopTiles) :
    (payloadOf input).length = fleetDesktopTilesHeaderBytes + (tilesBytes input.tiles).length := by
  simp [payloadOf, fleetDesktopTilesHeaderBytes]
  omega

variable {input : FleetDesktopTiles}

variable {maxBytes : JsNumber}

theorem encodeDesktopTiles_some :
    encodeDesktopTiles input maxBytes = .ok (some bytes) ↔
      Encodable input maxBytes ∧ bytes = payloadOf input := by
  unfold encodeDesktopTiles
  rw [tilesTotal_eq, ← length_payloadOf]
  by_cases picture : validPicture input.width input.height = true
  case neg =>
    constructor
    · simp [picture]
    · exact fun ⟨encodable, _⟩ => absurd encodable.picture picture
  by_cases counted : input.tiles = [] ∨ fleetDesktopMaxTiles < input.tiles.length
  case pos =>
    constructor
    · simp [picture, counted]
    · rintro ⟨encodable, _⟩
      have few_tiles := encodable.few_tiles
      exact absurd (counted.resolve_left encodable.some_tile) (by omega)
  rw [not_or] at counted
  obtain ⟨some_tile, few_tiles⟩ := counted
  by_cases lets : (∀ tile ∈ input.tiles, Acceptable input.width input.height tile) ∧
      (input.tiles = [] ∨ maxBytes.less ↑(payloadOf input).length = false)
  case neg =>
    constructor
    · rw [if_neg lets]
      simp [picture, some_tile, few_tiles]
    · exact fun ⟨encodable, _⟩ => absurd ⟨encodable.acceptable, .inr encodable.small⟩ lets
  have encodable : Encodable input maxBytes :=
    ⟨picture, some_tile, by omega, lets.1, lets.2.resolve_left some_tile⟩
  rw [if_pos lets]
  simp [picture, some_tile, few_tiles, encodable, payloadOf, tilesBytes, eq_comm]

theorem decodeDesktopTiles_payloadOf
    (encodable : Encodable input maxBytes) (fits : ∀ tile ∈ input.tiles, Fits tile) :
    decodeDesktopTiles (payloadOf input) maxBytes = .ok (some input) := by
  obtain ⟨m, n, isWidth, isHeight, maxWidth, maxHeight⟩ := validPicture_nat encodable.picture
  obtain ⟨width, height, tiles⟩ := input
  dsimp only at isWidth isHeight
  subst isWidth isHeight
  have picture := encodable.picture
  have few_tiles := encodable.few_tiles
  have some_tile := length_pos_iff.mpr encodable.some_tile
  have lengths := length_payloadOf ⟨m, n, tiles⟩
  have headers := length_tilesBytes_ge tiles
  simp only [fleetDesktopTilesHeaderBytes, fleetDesktopTileHeaderBytes, fleetDesktopMaxTiles]
    at few_tiles some_tile lengths headers
  have atWidth : (payloadOf ⟨m, n, tiles⟩).drop 0 = putUint16 m ++ (putUint16 n ++
      (putUint16 tiles.length ++ tilesBytes tiles)) := by
    simp only [payloadOf, JsNumber.toUint_small (show m < 65536 by omega),
      JsNumber.toUint_small (show n < 65536 by omega), drop_zero]
  have atHeight := drop_add_of_drop _ atWidth
  have atCount := drop_add_of_drop _ atHeight
  have atTiles := drop_add_of_drop _ atCount
  rw [← append_nil (tilesBytes tiles)] at atTiles
  have read := decodeTileList_tilesBytes atTiles picture encodable.acceptable fits
  simp only [length_putUint16, Nat.reduceAdd, Nat.zero_add] at atHeight atCount read
  have room : ¬ (payloadOf ⟨m, n, tiles⟩).length < 6 := by omega
  have enough : ¬ (payloadOf ⟨m, n, tiles⟩).length < 6 + tiles.length * 12 := by omega
  have many : ¬ 16384 < tiles.length := by omega
  have empty : tiles ≠ [] := encodable.some_tile
  simp [decodeDesktopTiles, encodable.small, fleetDesktopTilesHeaderBytes, fleetDesktopTileHeaderBytes,
    fleetDesktopMaxTiles, room, getUint16_of_drop_small atWidth (by omega),
    getUint16_of_drop_small atHeight (by omega), getUint16_of_drop_small atCount (by omega), picture,
    empty, many, enough, read, ← lengths]

theorem decodeDesktopTiles_spec (payload : List UInt8) (maxBytes : JsNumber) :
    decodeDesktopTiles payload maxBytes = .ok none ∨
      ∃ value, decodeDesktopTiles payload maxBytes = .ok (some value) ∧
        Encodable value maxBytes ∧ (∀ tile ∈ value.tiles, Fits tile) ∧ payload = payloadOf value := by
  by_cases exceeds : maxBytes.less payload.length = true
  · exact .inl (if_pos exceeds)
  by_cases short : payload.length < 6
  · exact .inl (by simp [decodeDesktopTiles, exceeds, fleetDesktopTilesHeaderBytes, short])
  obtain ⟨width, boundWidth, readWidth, atWidth⟩ := getUint16_inside payload 0 (by omega)
  obtain ⟨height, boundHeight, readHeight, atHeight⟩ := getUint16_inside payload 2 (by omega)
  obtain ⟨count, boundCount, readCount, atCount⟩ := getUint16_inside payload 4 (by omega)
  have unfolded : decodeDesktopTiles payload maxBytes =
      (if !validPicture width height || count = 0 || 16384 < count then .ok none
      else if payload.length < 6 + count * 12 then .ok none
      else do
        match ← decodeTileList payload width height count 6 with
        | none => .ok none
        | some (tiles, offset) =>
          if offset ≠ payload.length then .ok none else .ok (some ⟨width, height, tiles⟩)) := by
    simp only [decodeDesktopTiles, fleetDesktopTilesHeaderBytes, fleetDesktopTileHeaderBytes,
      fleetDesktopMaxTiles, if_neg exceeds, if_neg short, readWidth, readHeight, readCount, ok_bind]
    rfl
  rw [unfolded]
  by_cases bad : validPicture width height = false ∨ count = 0 ∨ 16384 < count
  · exact .inl (by simp [bad, or_assoc])
  rw [not_or, not_or, Bool.not_eq_false] at bad
  obtain ⟨picture, nonzero, few⟩ := bad
  by_cases room : payload.length < 6 + count * 12
  · exact .inl (by simp [picture, nonzero, few, room])
  rcases decodeTileList_spec payload width height count 6 (by omega) with
    refused | ⟨tiles, last, read, counted, acceptable, fits, isLast, written⟩
  · exact .inl (by simp [picture, nonzero, few, room, refused])
  by_cases whole : last = payload.length
  · have isPayload : payload = payloadOf ⟨width, height, tiles⟩ := by
      have atStart : payload = payload.drop 0 := rfl
      simp only [Nat.reduceAdd] at atWidth atHeight atCount
      rw [payloadOf, JsNumber.toUint_small boundWidth, JsNumber.toUint_small boundHeight, counted]
      rw [whole, drop_length, append_nil] at written
      rw [← written, ← atCount, ← atHeight, ← atWidth, drop_zero]
    refine .inr ⟨⟨width, height, tiles⟩, ?_, ⟨picture, ?_, ?_, acceptable, ?_⟩, fits, isPayload⟩
    · simp [picture, nonzero, few, room, read, whole]
    · exact ne_nil_of_length_pos (show 0 < tiles.length by omega)
    · simp only [counted, fleetDesktopMaxTiles]
      omega
    · rw [← isPayload]
      simpa using exceeds
  · exact .inl (by simp [picture, nonzero, few, room, read, whole])

theorem decode_encode_iff
    (written : encodeDesktopTiles input maxBytes = .ok (some bytes)) :
    decodeDesktopTiles bytes maxBytes = .ok (some input) ↔ ∀ tile ∈ input.tiles, Fits tile := by
  obtain ⟨encodable, rfl⟩ := encodeDesktopTiles_some.mp written
  constructor
  · intro read
    rcases decodeDesktopTiles_spec (payloadOf input) maxBytes with refused | ⟨value, found, -, fits, -⟩
    · simp [refused] at read
    · rw [found] at read
      simp only [Except.ok.injEq, Option.some.injEq] at read
      exact read ▸ fits
  · exact decodeDesktopTiles_payloadOf encodable

/-- The codec is a bijection onto its image as long as no tile is too long for its length field: a
value comes back from its bytes exactly then, bytes always come back from their value, and reading
never leaves the payload. -/
theorem tiles_codec (maxBytes : JsNumber) :
    (∀ input bytes, encodeDesktopTiles input maxBytes = .ok (some bytes) →
      (decodeDesktopTiles bytes maxBytes = .ok (some input) ↔
        ∀ tile ∈ input.tiles, tile.data.length < 2 ^ 32)) ∧
    (∀ payload value, decodeDesktopTiles payload maxBytes = .ok (some value) →
      encodeDesktopTiles value maxBytes = .ok (some payload)) ∧
    ∀ payload, ∃ result, decodeDesktopTiles payload maxBytes = .ok result := by
  refine ⟨fun input bytes written => decode_encode_iff written, ?_, ?_⟩
  · intro payload value read
    rcases decodeDesktopTiles_spec payload maxBytes with refused | ⟨found, isFound, encodable, -, isPayload⟩
    · simp [refused] at read
    · rw [isFound] at read
      simp only [Except.ok.injEq, Option.some.injEq] at read
      exact encodeDesktopTiles_some.mpr ⟨read ▸ encodable, read ▸ isPayload⟩
  · intro payload
    rcases decodeDesktopTiles_spec payload maxBytes with refused | ⟨value, found, -⟩
    · exact ⟨none, refused⟩
    · exact ⟨some value, found⟩

/-- A JPEG of `extra` bytes more than its first two. -/
def longTile (extra : Nat) : FleetDesktopTile :=
  ⟨0, 0, 1, 1, 0xff :: 0xd8 :: List.replicate extra 0⟩

theorem length_longTile (extra : Nat) : (longTile extra).data.length = extra + 2 := by
  simp [longTile]

theorem encodable_longTile {extra limit : Nat} (jpeg : 2 ≤ extra) (small : extra + 20 ≤ limit) :
    Encodable ⟨1, 1, [longTile extra]⟩ limit := by
  have sum : (JsNumber.add 0 1).atMost 1 = true := by decide +kernel
  have valid : validTile (longTile extra) 1 1 = true := by
    simp only [validTile, longTile, sum]
    decide
  have looks : isJpeg (longTile extra).data = true := by
    rw [isJpeg, length_longTile]
    simp [longTile]
    omega
  have length : (payloadOf ⟨1, 1, [longTile extra]⟩).length = extra + 20 := by
    rw [length_payloadOf]
    simp [length_longTile, fleetDesktopTilesHeaderBytes, fleetDesktopTileHeaderBytes]
    omega
  have within : ¬ (limit : ℚ) < (extra + 20 : ℕ) := not_lt.mpr (Nat.cast_le.mpr small)
  refine ⟨show validPicture 1 1 = true by decide, by simp, by simp [fleetDesktopMaxTiles], by simp [Acceptable, valid, looks], ?_⟩
  rw [length]
  simpa [JsNumber.cast_eq, JsNumber.less] using within

/-- A tile whose length wraps to 0 in its field is written, and not read back. -/
theorem long_tile_lost :
    ∃ bytes, encodeDesktopTiles ⟨1, 1, [longTile 4294967294]⟩ (8589934592 : ℕ) = .ok (some bytes) ∧
      decodeDesktopTiles bytes (8589934592 : ℕ) ≠ .ok (some ⟨1, 1, [longTile 4294967294]⟩) := by
  have encodable : Encodable ⟨1, 1, [longTile 4294967294]⟩ (8589934592 : ℕ) :=
    encodable_longTile (by omega) (by omega)
  have written := encodeDesktopTiles_some.mpr ⟨encodable, rfl⟩
  refine ⟨_, written, fun read => ?_⟩
  have fits := (decode_encode_iff written).mp read _ mem_cons_self
  rw [Fits, length_longTile] at fits
  omega

end EverWorks.Fleet
