import EverWorks.Fleet.LinkTypes
import EverWorks.Lib.Slices

/-!
Frames (`[channel u32][kind u8][len u32][payload]`) and the link's own control messages, which are read
field by field so that nothing unknown survives.
-/

namespace EverWorks.Fleet

open Lib Lib.Bytes Lib.Json

def maxTokenLength : Nat := 4096

def maxTags : Nat := 64

def maxTagLength : Nat := 128

def maxVersionLength : Nat := 64

def maxResumeKeyLength : Nat := 128

def maxServerTimeLength : Nat := 64

def maxProgressMessageLength : Nat := 500

def maxDrainGraceSec : Nat := 3600

def maxSafeInteger : Nat := 9007199254740991

/-- `Number.isSafeInteger`. -/
def isSafeInteger (n : JsNumber) : Bool :=
  n.isInteger && JsNumber.atMost (.finite (-maxSafeInteger)) n && n.atMost maxSafeInteger

def boundedInt (min max : Nat) : JsonValue → Option JsNumber
  | .number n =>
    if isSafeInteger n && JsNumber.atMost min n && n.atMost max then some n else none
  | _ => none

def channelNumber : JsonValue → Option JsNumber := boundedInt 1 fleetLinkMaxChannelNumber

def boundedString (max : Nat) : JsonValue → Option Utf16
  | .string text => if text.length ≤ max then some text else none
  | _ => none

def recordOf : JsonValue → Option JsonRecord
  | .object fields => some fields
  | _ => none

def isHexUnit (unit : UInt16) : Bool :=
  (0x30 ≤ unit && unit ≤ 0x39) || (0x41 ≤ unit && unit ≤ 0x46) || (0x61 ≤ unit && unit ≤ 0x66)

/-- `/^[0-9a-f]{8}-[0-9a-f]{4}-[0-9a-f]{4}-[0-9a-f]{4}-[0-9a-f]{12}$/i` -/
def matchesUuid (text : Utf16) : Bool :=
  text.length == 36 && text.zipIdx.all fun (unit, index) =>
    if index ∈ [8, 13, 18, 23] then unit == 0x2D else isHexUnit unit

def lowerUnit (unit : UInt16) : UInt16 := if 0x41 ≤ unit && unit ≤ 0x5A then unit + 0x20 else unit

/-- `toLowerCase` of ASCII text. -/
def toLowerCase (text : Utf16) : Utf16 := text.map lowerUnit

/-- `/^[\x21-\x7e]+$/` -/
def matchesResumeKey (text : Utf16) : Bool :=
  !text.isEmpty && text.all fun unit => 0x21 ≤ unit && unit ≤ 0x7E

/-- `/^[A-Za-z0-9_-]{1,64}$/` -/
def matchesId (text : Utf16) : Bool :=
  decide (1 ≤ text.length) && decide (text.length ≤ 64) && text.all fun unit =>
    (0x41 ≤ unit && unit ≤ 0x5A) || (0x61 ≤ unit && unit ≤ 0x7A) || (0x30 ≤ unit && unit ≤ 0x39) ||
      unit == 0x5F || unit == 0x2D

def fleetLinkId : JsonValue → Option Utf16
  | .string text => if matchesId text then some text else none
  | _ => none

def fleetLinkFamily : JsonValue → Option FleetLinkFamily
  | .string text => FleetLinkFamily.all.find? fun family => ascii family.name == text
  | _ => none

def fleetLinkErrorCode : JsonValue → Option FleetLinkErrorCode
  | .string text => FleetLinkErrorCode.all.find? fun code => ascii code.name == text
  | _ => none

def closeReason : JsonValue → Option FleetLinkCloseReason
  | .string text =>
    if text = ascii "normal" then some .normal
    else (fleetLinkErrorCode (.string text)).map .error
  | _ => none

def isTrue : Option JsonValue → Bool
  | some (.bool true) => true
  | _ => false

def normalizeFleetConsents (value : JsonValue) : Option FleetConsents := do
  let record ← recordOf value
  return {
    work := isTrue (field record "work")
    attend := isTrue (field record "attend")
    manage := isTrue (field record "manage")
    usageScan := isTrue (field record "usageScan") }

def hintOf : Option JsonValue → Option Utf16
  | some (.string text) => some (text.take fleetLinkMaxHintLength)
  | _ => none

def detailsOf : Option JsonValue → Option JsonRecord
  | some (.object fields) => some fields
  | _ => none

def normalizeFleetLinkError (value : JsonValue) : Option FleetLinkError := do
  let record ← recordOf value
  let code ← (field record "code").bind fleetLinkErrorCode
  return {
    code
    hint := (hintOf (field record "hint")).getD []
    details := detailsOf (field record "details") }

def capability : JsonValue → Option Utf16
  | .string tag => if tag.length = 0 || maxTagLength < tag.length then none else some tag
  | _ => none

def decodeCapabilities : JsonValue → Option (List Utf16)
  | .array items => if maxTags < items.length then none else readAll capability items
  | _ => none

def resumeKey (value : JsonValue) : Option Utf16 := do
  let key ← boundedString maxResumeKeyLength value
  if matchesResumeKey key then some key else none

def resumeChannel (value : JsonValue) : Option FleetLinkResumeChannel := do
  let record ← recordOf value
  let channel ← (field record "channel").bind channelNumber
  let family ← (field record "family").bind fleetLinkFamily
  let resumeKey ← readOptional resumeKey (field record "resumeKey")
  return { channel, family, resumeKey }

def decodeResumeChannels : JsonValue → Option (List FleetLinkResumeChannel)
  | .array items => if fleetLinkMaxChannels < items.length then none else readAll resumeChannel items
  | _ => none

def decodeChannelList : JsonValue → Option (List JsNumber)
  | .array items => if fleetLinkMaxChannels < items.length then none else readAll channelNumber items
  | _ => none

/-- `value ?? []` -/
def orEmptyList : Option JsonValue → JsonValue
  | none | some .null => .array []
  | some value => value

def decodeLimits (value : JsonValue) : Option FleetLinkLimits := do
  let record ← recordOf value
  let maxFrameBytes ← (field record "maxFrameBytes").bind
    (boundedInt fleetLinkFrameHeaderBytes fleetLinkMaxFrameBytes)
  let maxChannels ← (field record "maxChannels").bind (boundedInt 1 fleetLinkMaxChannels)
  let pingIntervalMs ← (field record "pingIntervalMs").bind (boundedInt 1 3600000)
  let silenceMs ← (field record "silenceMs").bind (boundedInt 1 3600000)
  let inlineReplyMs ← (field record "inlineReplyMs").bind (boundedInt 1 3600000)
  return { maxFrameBytes, maxChannels, pingIntervalMs, silenceMs, inlineReplyMs }

def resumeOffer (value : JsonValue) : Option FleetLinkResumeOffer := do
  let record ← recordOf value
  let linkGeneration ← (field record "linkGeneration").bind (boundedInt 0 maxSafeInteger)
  let channels ← decodeResumeChannels (orEmptyList (field record "channels"))
  return { linkGeneration, channels }

def uuid (value : JsonValue) : Option Utf16 := do
  let text ← boundedString 36 value
  if matchesUuid text then some (toLowerCase text) else none

def token (value : JsonValue) : Option Utf16 := do
  let text ← boundedString maxTokenLength value
  if text.length = 0 then none else some text

def decodeHello (record : JsonRecord) : Option FleetLinkHello := do
  let nodeId ← (field record "nodeId").bind uuid
  let token ← (field record "token").bind token
  let capabilities ← (field record "capabilities").bind decodeCapabilities
  let consents ← (field record "consents").bind normalizeFleetConsents
  let linkVersion ← (field record "linkVersion").bind (boundedInt 1 1000)
  let nodeVersion ← readOptional (boundedString maxVersionLength) (field record "nodeVersion")
  let resume ← readOptional resumeOffer (field record "resume")
  return { nodeId, linkVersion, capabilities, consents, token, nodeVersion, resume }

def decodeReady (record : JsonRecord) : Option FleetLinkReady := do
  let limits ← (field record "limits").bind decodeLimits
  let serverTime ← (field record "serverTime").bind (boundedString maxServerTimeLength)
  let resumed ← decodeChannelList (orEmptyList (field record "resumed"))
  let closed ← decodeChannelList (orEmptyList (field record "closed"))
  let linkGeneration ← (field record "linkGeneration").bind (boundedInt 1 maxSafeInteger)
  return { linkGeneration, limits, serverTime, resumed, closed }

def finiteNumber : JsonValue → Option JsNumber
  | .number (.finite n) => some (.finite n)
  | _ => none

def decodeChannelOpen (record : JsonRecord) : Option FleetLinkChannelOpen := do
  let channel ← (field record "channel").bind channelNumber
  let family ← (field record "family").bind fleetLinkFamily
  let requestId ← (field record "requestId").bind fleetLinkId
  let params ← readOptional recordOf (field record "params")
  return { channel, family, params := params.getD [], requestId }

def decodeChannelReady (record : JsonRecord) : Option FleetLinkChannelReady := do
  let channel ← (field record "channel").bind channelNumber
  let requestId ← (field record "requestId").bind fleetLinkId
  let resumeKey ← readOptional resumeKey (field record "resumeKey")
  return { channel, requestId, resumeKey }

/-- The error under `error`, or spelled out in the message itself. -/
def refusedError (record : JsonRecord) : JsonValue :=
  match field record "error" with
  | some error => error
  | none => .object (optional "code" id (field record "code") ++
      (optional "hint" id (field record "hint") ++ optional "details" id (field record "details")))

def decodeChannelRefused (record : JsonRecord) : Option FleetLinkChannelRefused := do
  let error ← normalizeFleetLinkError (refusedError record)
  let channel ← (field record "channel").bind channelNumber
  let requestId ← (field record "requestId").bind fleetLinkId
  return { channel, requestId, error }

def decodeChannelClose (record : JsonRecord) : Option FleetLinkChannelClose := do
  let reason ← (field record "reason").bind closeReason
  let channel ← (field record "channel").bind channelNumber
  return { channel, reason, hint := hintOf (field record "hint") }

def percent : JsonValue → Option JsNumber
  | .number (.finite n) => if n < 0 || 100 < n then none else some (.finite n)
  | _ => none

def progressMessage : JsonValue → Option Utf16
  | .string text => some (text.take maxProgressMessageLength)
  | _ => none

def decodeOperationProgress (record : JsonRecord) : Option FleetLinkOperationProgress := do
  let operationId ← (field record "operationId").bind fleetLinkId
  let progress ← (field record "progress").bind recordOf
  let percent ← readOptional percent (field progress "percent")
  let message ← readOptional progressMessage (field progress "message")
  return { operationId, percent, message }

def decodeOperationDone (record : JsonRecord) : Option FleetLinkOperationDone := do
  let operationId ← (field record "operationId").bind fleetLinkId
  match field record "error" with
  | some value => do
    let error ← normalizeFleetLinkError value
    return { operationId, result := none, error := some error }
  | none => return { operationId, result := field record "result", error := none }

inductive FleetLinkControlType where
  | hello
  | ready
  | ping
  | pong
  | pause
  | resume
  | drain
  | channelOpen
  | channelReady
  | channelRefused
  | channelClose
  | operationProgress
  | operationDone
  | operationCancel
  deriving DecidableEq

namespace FleetLinkControlType

def name : FleetLinkControlType → String
  | hello => "link.hello"
  | ready => "link.ready"
  | ping => "link.ping"
  | pong => "link.pong"
  | pause => "link.pause"
  | resume => "link.resume"
  | drain => "link.drain"
  | channelOpen => "channel.open"
  | channelReady => "channel.ready"
  | channelRefused => "channel.refused"
  | channelClose => "channel.close"
  | operationProgress => "operation.progress"
  | operationDone => "operation.done"
  | operationCancel => "operation.cancel"

def all : List FleetLinkControlType :=
  [hello, ready, ping, pong, pause, resume, drain, channelOpen, channelReady, channelRefused, channelClose,
    operationProgress, operationDone, operationCancel]

end FleetLinkControlType

def controlType : JsonValue → Option FleetLinkControlType
  | .string text => FleetLinkControlType.all.find? fun type => ascii type.name == text
  | _ => none

def pauseReason : JsonValue → Option Unit
  | .string text => if text = ascii "kill_switch" then some () else none
  | _ => none

/-- What `decodeKnownControl` does for a message of a type. -/
def decodeControlOf (record : JsonRecord) : FleetLinkControlType → Option FleetLinkControlMessage
  | .hello => (decodeHello record).map .hello
  | .ready => (decodeReady record).map .ready
  | .ping => ((field record "t").bind finiteNumber).map .ping
  | .pong => ((field record "t").bind finiteNumber).map .pong
  | .pause => ((field record "reason").bind pauseReason).map fun _ => .pause
  | .resume => some .resume
  | .drain => ((field record "graceSec").bind (boundedInt 0 maxDrainGraceSec)).map .drain
  | .channelOpen => (decodeChannelOpen record).map .channelOpen
  | .channelReady => (decodeChannelReady record).map .channelReady
  | .channelRefused => (decodeChannelRefused record).map .channelRefused
  | .channelClose => (decodeChannelClose record).map .channelClose
  | .operationProgress => (decodeOperationProgress record).map .operationProgress
  | .operationDone => (decodeOperationDone record).map .operationDone
  | .operationCancel => ((field record "operationId").bind fleetLinkId).map .operationCancel

def decodeKnownControl (record : JsonRecord) : Option FleetLinkControlMessage :=
  ((field record "type").bind controlType).bind (decodeControlOf record)

structure FleetLinkFrame where
  channel : JsNumber
  kind : FleetLinkFrameKind
  payload : List UInt8
  deriving DecidableEq

/-- `isChannelNumber(channel, true)` -/
def isAnyChannelNumber (channel : JsNumber) : Bool :=
  isSafeInteger channel && JsNumber.atMost 0 channel && channel.atMost fleetLinkMaxChannelNumber

def encodeFleetLinkFrame (channel : JsNumber) (kind : FleetLinkFrameKind) (payload : List UInt8) :
    Option (List UInt8) :=
  if !isAnyChannelNumber channel then none
  else if fleetLinkMaxFrameBytes < fleetLinkFrameHeaderBytes + payload.length then none
  else some (putUint32 (channel.toUint 32) ++
    (UInt8.ofNat kind.value :: (putUint32 payload.length ++ payload)))

def frameKindOf (value : Nat) : Option FleetLinkFrameKind :=
  FleetLinkFrameKind.all.find? fun kind => kind.value == value

def decodeFleetLinkFrame (bytes : List UInt8) : Except OutOfRange (Option FleetLinkFrame) :=
  if fleetLinkMaxFrameBytes < bytes.length then .ok none
  else if bytes.length < fleetLinkFrameHeaderBytes then .ok none
  else do
    let channel ← getUint32 bytes 0
    let kind ← getUint8 bytes 4
    let length ← getUint32 bytes 5
    match frameKindOf kind with
    | none => .ok none
    | some kind =>
      if length ≠ bytes.length - fleetLinkFrameHeaderBytes then .ok none
      else .ok (some ⟨channel, kind, bytes.drop fleetLinkFrameHeaderBytes⟩)

end EverWorks.Fleet
