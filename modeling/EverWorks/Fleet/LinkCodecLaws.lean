import EverWorks.Fleet.LinkCodec

/-!
Each reader has two laws: what it reads is valid, and a valid value that is written is read back in its
normal form. A message's laws are those of its fields.
-/

namespace EverWorks.Fleet
open List

open Lib Lib.Bytes Lib.Json

def stringJson (text : String) : JsonValue := .string (ascii text)

def FleetConsents.toJson (consents : FleetConsents) : JsonValue :=
  .object [(ascii "work", .bool consents.work), (ascii "attend", .bool consents.attend),
    (ascii "manage", .bool consents.manage), (ascii "usageScan", .bool consents.usageScan)]

def FleetLinkError.toJson (error : FleetLinkError) : JsonValue :=
  .object ((ascii "code", stringJson error.code.name) :: (ascii "hint", .string error.hint) ::
    optional "details" .object error.details)

def FleetLinkCloseReason.toJson : FleetLinkCloseReason → JsonValue
  | normal => stringJson "normal"
  | error code => stringJson code.name

def FleetLinkLimits.toJson (limits : FleetLinkLimits) : JsonValue :=
  .object [(ascii "maxFrameBytes", .number limits.maxFrameBytes),
    (ascii "maxChannels", .number limits.maxChannels),
    (ascii "pingIntervalMs", .number limits.pingIntervalMs),
    (ascii "silenceMs", .number limits.silenceMs),
    (ascii "inlineReplyMs", .number limits.inlineReplyMs)]

def FleetLinkResumeChannel.toJson (channel : FleetLinkResumeChannel) : JsonValue :=
  .object ((ascii "channel", .number channel.channel) ::
    (ascii "family", stringJson channel.family.name) :: optional "resumeKey" .string channel.resumeKey)

def FleetLinkResumeOffer.toJson (offer : FleetLinkResumeOffer) : JsonValue :=
  .object [(ascii "linkGeneration", .number offer.linkGeneration),
    (ascii "channels", .array (offer.channels.map (·.toJson)))]

def FleetLinkHello.toRecord (hello : FleetLinkHello) : JsonRecord :=
  (ascii "nodeId", .string hello.nodeId) :: (ascii "linkVersion", .number hello.linkVersion) ::
    (ascii "capabilities", .array (hello.capabilities.map .string)) ::
    (ascii "consents", hello.consents.toJson) :: (ascii "token", .string hello.token) ::
    (optional "nodeVersion" .string hello.nodeVersion ++ optional "resume" (·.toJson) hello.resume)

def FleetLinkReady.toRecord (ready : FleetLinkReady) : JsonRecord :=
  [(ascii "linkGeneration", .number ready.linkGeneration), (ascii "limits", ready.limits.toJson),
    (ascii "serverTime", .string ready.serverTime), (ascii "resumed", .array (ready.resumed.map .number)),
    (ascii "closed", .array (ready.closed.map .number))]

def FleetLinkChannelOpen.toRecord (opens : FleetLinkChannelOpen) : JsonRecord :=
  [(ascii "channel", .number opens.channel), (ascii "family", stringJson opens.family.name),
    (ascii "params", .object opens.params), (ascii "requestId", .string opens.requestId)]

def FleetLinkChannelReady.toRecord (ready : FleetLinkChannelReady) : JsonRecord :=
  (ascii "channel", .number ready.channel) :: (ascii "requestId", .string ready.requestId) ::
    optional "resumeKey" .string ready.resumeKey

def FleetLinkChannelRefused.toRecord (refused : FleetLinkChannelRefused) : JsonRecord :=
  [(ascii "channel", .number refused.channel), (ascii "requestId", .string refused.requestId),
    (ascii "error", refused.error.toJson)]

def FleetLinkChannelClose.toRecord (close : FleetLinkChannelClose) : JsonRecord :=
  (ascii "channel", .number close.channel) :: (ascii "reason", close.reason.toJson) ::
    optional "hint" .string close.hint

def FleetLinkOperationProgress.toRecord (progress : FleetLinkOperationProgress) : JsonRecord :=
  [(ascii "operationId", .string progress.operationId),
    (ascii "progress", .object (optional "percent" .number progress.percent ++
      optional "message" .string progress.message))]

def FleetLinkOperationDone.toRecord (done : FleetLinkOperationDone) : JsonRecord :=
  (ascii "operationId", .string done.operationId) ::
    (optional "result" id done.result ++ optional "error" (·.toJson) done.error)

namespace FleetLinkControlMessage

def type : FleetLinkControlMessage → FleetLinkControlType
  | hello _ => .hello
  | ready _ => .ready
  | ping _ => .ping
  | pong _ => .pong
  | pause => .pause
  | resume => .resume
  | drain _ => .drain
  | channelOpen _ => .channelOpen
  | channelReady _ => .channelReady
  | channelRefused _ => .channelRefused
  | channelClose _ => .channelClose
  | operationProgress _ => .operationProgress
  | operationDone _ => .operationDone
  | operationCancel _ => .operationCancel

def fields : FleetLinkControlMessage → JsonRecord
  | hello message => message.toRecord
  | ready message => message.toRecord
  | ping t | pong t => [(ascii "t", .number t)]
  | pause => [(ascii "reason", stringJson "kill_switch")]
  | resume => []
  | drain graceSec => [(ascii "graceSec", .number graceSec)]
  | channelOpen message => message.toRecord
  | channelReady message => message.toRecord
  | channelRefused message => message.toRecord
  | channelClose message => message.toRecord
  | operationProgress message => message.toRecord
  | operationDone message => message.toRecord
  | operationCancel operationId => [(ascii "operationId", .string operationId)]

def toRecord (message : FleetLinkControlMessage) : JsonRecord :=
  (ascii "type", stringJson message.type.name) :: message.fields

end FleetLinkControlMessage

def BoundedInt (min max : Nat) (n : JsNumber) : Prop :=
  isSafeInteger n = true ∧ JsNumber.atMost min n = true ∧ n.atMost max = true

def ChannelNumber : JsNumber → Prop := BoundedInt 1 fleetLinkMaxChannelNumber

def ResumeKey (key : Utf16) : Prop := key.length ≤ maxResumeKeyLength ∧ matchesResumeKey key = true

def FleetLinkLimits.Declared (limits : FleetLinkLimits) : Prop :=
  BoundedInt fleetLinkFrameHeaderBytes fleetLinkMaxFrameBytes limits.maxFrameBytes ∧
    BoundedInt 1 fleetLinkMaxChannels limits.maxChannels ∧
    BoundedInt 1 3600000 limits.pingIntervalMs ∧ BoundedInt 1 3600000 limits.silenceMs ∧
    BoundedInt 1 3600000 limits.inlineReplyMs

def FleetLinkResumeChannel.Declared (channel : FleetLinkResumeChannel) : Prop :=
  ChannelNumber channel.channel ∧ ∀ key, channel.resumeKey = some key → ResumeKey key

def FleetLinkResumeOffer.Declared (offer : FleetLinkResumeOffer) : Prop :=
  BoundedInt 0 maxSafeInteger offer.linkGeneration ∧ offer.channels.length ≤ fleetLinkMaxChannels ∧
    ∀ channel ∈ offer.channels, channel.Declared

def Capability (tag : Utf16) : Prop := tag.length ≠ 0 ∧ tag.length ≤ maxTagLength

structure FleetLinkHello.Declared (hello : FleetLinkHello) : Prop where
  nodeId : matchesUuid hello.nodeId = true
  linkVersion : BoundedInt 1 1000 hello.linkVersion
  few_capabilities : hello.capabilities.length ≤ maxTags
  capabilities : ∀ tag ∈ hello.capabilities, Capability tag
  token : hello.token.length ≠ 0 ∧ hello.token.length ≤ maxTokenLength
  nodeVersion : ∀ version, hello.nodeVersion = some version → version.length ≤ maxVersionLength
  resume : ∀ offer, hello.resume = some offer → offer.Declared

def ChannelList (channels : List JsNumber) : Prop :=
  channels.length ≤ fleetLinkMaxChannels ∧ ∀ channel ∈ channels, ChannelNumber channel

structure FleetLinkReady.Declared (ready : FleetLinkReady) : Prop where
  linkGeneration : BoundedInt 1 maxSafeInteger ready.linkGeneration
  limits : ready.limits.Declared
  serverTime : ready.serverTime.length ≤ maxServerTimeLength
  resumed : ChannelList ready.resumed
  closed : ChannelList ready.closed

def Finite (n : JsNumber) : Prop := ∃ q, n = .finite q

def Percent (n : JsNumber) : Prop := ∃ q : ℚ, n = .finite q ∧ 0 ≤ q ∧ q ≤ 100

def FleetLinkControlMessage.Declared : FleetLinkControlMessage → Prop
  | hello message => message.Declared
  | ready message => message.Declared
  | ping t | pong t => Finite t
  | pause | resume => True
  | drain graceSec => BoundedInt 0 maxDrainGraceSec graceSec
  | channelOpen message => ChannelNumber message.channel ∧ matchesId message.requestId = true
  | channelReady message =>
    ChannelNumber message.channel ∧ matchesId message.requestId = true ∧
      ∀ key, message.resumeKey = some key → ResumeKey key
  | channelRefused message => ChannelNumber message.channel ∧ matchesId message.requestId = true
  | channelClose message => ChannelNumber message.channel
  | operationProgress message =>
    matchesId message.operationId = true ∧ ∀ percent, message.percent = some percent → Percent percent
  | operationDone message => matchesId message.operationId = true
  | operationCancel operationId => matchesId operationId = true

def FleetLinkError.normalized (error : FleetLinkError) : FleetLinkError :=
  { error with hint := error.hint.take fleetLinkMaxHintLength }

def FleetLinkControlMessage.normalized : FleetLinkControlMessage → FleetLinkControlMessage
  | hello message => hello { message with nodeId := toLowerCase message.nodeId }
  | channelRefused message => channelRefused { message with error := message.error.normalized }
  | channelClose message =>
    channelClose { message with hint := message.hint.map (·.take fleetLinkMaxHintLength) }
  | operationProgress message =>
    operationProgress { message with message := message.message.map (·.take maxProgressMessageLength) }
  | operationDone message =>
    operationDone { message with error := message.error.map (·.normalized) }
  | message => message

def FleetLinkControlMessage.Exclusive : FleetLinkControlMessage → Prop
  | operationDone message => message.error = none ∨ message.result = none
  | _ => True


variable {value : JsonValue}

variable {n : JsNumber}

theorem boundedInt_valid {min max : Nat}
    (h : boundedInt min max value = some n) : BoundedInt min max n := by
  cases value with
  | number m =>
    simp only [boundedInt] at h
    split at h
    case isTrue inside =>
      simp only [Option.some.injEq] at h
      subst h
      simpa [BoundedInt, and_assoc] using inside
    case isFalse => simp at h
  | _ => simp [boundedInt] at h

theorem boundedInt_write {min max : Nat} (declared : BoundedInt min max n) :
    boundedInt min max (.number n) = some n := by
  obtain ⟨safe, low, high⟩ := declared
  simp [boundedInt, safe, low, high]

theorem channelNumber_valid (h : channelNumber value = some n) :
    ChannelNumber n := boundedInt_valid h

theorem channelNumber_write (declared : ChannelNumber n) :
    channelNumber (.number n) = some n := boundedInt_write declared

variable {text : Utf16}

theorem boundedString_eq_some {max : Nat} :
    boundedString max value = some text ↔ value = .string text ∧ text.length ≤ max := by
  cases value with
  | string other =>
    simp only [boundedString, Option.ite_none_right_eq_some, Option.some.injEq, JsonValue.string.injEq]
    constructor
    · rintro ⟨short, rfl⟩
      exact ⟨rfl, short⟩
    · rintro ⟨rfl, short⟩
      exact ⟨short, rfl⟩
  | _ => simp [boundedString]

theorem fleetLinkId_eq_some :
    fleetLinkId value = some text ↔ value = .string text ∧ matchesId text = true := by
  cases value with
  | string other =>
    simp only [fleetLinkId, Option.ite_none_right_eq_some, Option.some.injEq, JsonValue.string.injEq]
    constructor
    · rintro ⟨isId, rfl⟩
      exact ⟨rfl, isId⟩
    · rintro ⟨rfl, isId⟩
      exact ⟨isId, rfl⟩
  | _ => simp [fleetLinkId]

theorem fleetLinkFamily_write (family : FleetLinkFamily) :
    fleetLinkFamily (stringJson family.name) = some family := by
  cases family <;> decide

theorem fleetLinkErrorCode_write (code : FleetLinkErrorCode) :
    fleetLinkErrorCode (stringJson code.name) = some code := by
  cases code <;> decide

theorem closeReason_write (reason : FleetLinkCloseReason) : closeReason reason.toJson = some reason := by
  cases reason with
  | normal => rfl
  | error code =>
    have apart : ascii code.name ≠ ascii "normal" := by cases code <;> decide
    have reads := fleetLinkErrorCode_write code
    simp only [stringJson] at reads
    simp [FleetLinkCloseReason.toJson, stringJson, closeReason, apart, reads]

theorem controlType_write (type : FleetLinkControlType) :
    controlType (stringJson type.name) = some type := by
  cases type <;> decide

theorem resumeKey_eq_some {key : Utf16} :
    resumeKey value = some key ↔ value = .string key ∧ ResumeKey key := by
  simp only [resumeKey, Option.bind_eq_bind, Option.bind_eq_some_iff, Option.ite_none_right_eq_some,
    boundedString_eq_some, Option.some.injEq, ResumeKey]
  constructor
  · rintro ⟨text, ⟨rfl, short⟩, isKey, rfl⟩
    exact ⟨rfl, short, isKey⟩
  · rintro ⟨rfl, short, isKey⟩
    exact ⟨key, ⟨rfl, short⟩, isKey, rfl⟩

theorem capability_eq_some {tag : Utf16} :
    capability value = some tag ↔ value = .string tag ∧ Capability tag := by
  cases value with
  | string text =>
    simp only [capability, Option.ite_none_left_eq_some, Option.some.injEq, JsonValue.string.injEq,
      Capability, Bool.or_eq_true, decide_eq_true_eq]
    constructor
    · rintro ⟨bounded, rfl⟩
      exact ⟨rfl, by omega, by omega⟩
    · rintro ⟨rfl, nonempty, short⟩
      exact ⟨by omega, rfl⟩
  | _ => simp [capability]

theorem token_eq_some :
    token value = some text ↔
      value = .string text ∧ text.length ≠ 0 ∧ text.length ≤ maxTokenLength := by
  simp only [token, Option.bind_eq_bind, Option.bind_eq_some_iff, Option.ite_none_left_eq_some,
    boundedString_eq_some, Option.some.injEq]
  constructor
  · rintro ⟨other, ⟨rfl, short⟩, nonempty, rfl⟩
    exact ⟨rfl, nonempty, short⟩
  · rintro ⟨rfl, nonempty, short⟩
    exact ⟨text, ⟨rfl, short⟩, nonempty, rfl⟩

theorem finiteNumber_eq_some :
    finiteNumber value = some n ↔ value = .number n ∧ Finite n := by
  constructor
  · intro h
    unfold finiteNumber at h
    split at h
    case h_1 q =>
      cases h
      exact ⟨rfl, q, rfl⟩
    case h_2 => cases h
  · rintro ⟨rfl, q, rfl⟩
    rfl

theorem percent_eq_some :
    percent value = some n ↔ value = .number n ∧ Percent n := by
  constructor
  · intro h
    unfold percent at h
    split at h
    case h_1 q =>
      simp only [Option.ite_none_left_eq_some, Option.some.injEq, Bool.or_eq_true, decide_eq_true_eq,
        not_or, not_lt] at h
      obtain ⟨⟨low, high⟩, rfl⟩ := h
      exact ⟨rfl, q, rfl, low, high⟩
    case h_2 => cases h
  · rintro ⟨rfl, q, rfl, low, high⟩
    simp [percent, not_lt.mpr low, not_lt.mpr high]

theorem toNat_lowerUnit (unit : UInt16) :
    (lowerUnit unit).toNat =
      if 0x41 ≤ unit.toNat ∧ unit.toNat ≤ 0x5A then unit.toNat + 0x20 else unit.toNat := by
  by_cases upper : 0x41 ≤ unit.toNat ∧ unit.toNat ≤ 0x5A
  · have isUpper : (0x41 ≤ unit && unit ≤ 0x5A) = true := by
      simpa [UInt16.le_iff_toNat_le] using upper
    rw [lowerUnit, if_pos isUpper, if_pos upper, UInt16.toNat_add]
    simp
    omega
  · have notUpper : ¬ (0x41 ≤ unit && unit ≤ 0x5A) = true := by
      simpa [UInt16.le_iff_toNat_le] using upper
    rw [lowerUnit, if_neg notUpper, if_neg upper]

theorem lowerUnit_lowerUnit (unit : UInt16) : lowerUnit (lowerUnit unit) = lowerUnit unit := by
  apply UInt16.toNat_inj.mp
  rw [toNat_lowerUnit, toNat_lowerUnit]
  split_ifs <;> omega

theorem toLowerCase_toLowerCase (text : Utf16) : toLowerCase (toLowerCase text) = toLowerCase text := by
  rw [toLowerCase, toLowerCase, map_map]
  exact map_congr_left fun unit _ => lowerUnit_lowerUnit unit

theorem isHexUnit_iff (unit : UInt16) : isHexUnit unit = true ↔
    (0x30 ≤ unit.toNat ∧ unit.toNat ≤ 0x39) ∨ (0x41 ≤ unit.toNat ∧ unit.toNat ≤ 0x46) ∨
      (0x61 ≤ unit.toNat ∧ unit.toNat ≤ 0x66) := by
  simp [isHexUnit, UInt16.le_iff_toNat_le, or_assoc]

theorem isHexUnit_lowerUnit {unit : UInt16} (hex : isHexUnit unit = true) :
    isHexUnit (lowerUnit unit) = true := by
  rw [isHexUnit_iff] at hex ⊢
  rw [toNat_lowerUnit]
  split <;> omega

theorem matchesUuid_toLowerCase (isUuid : matchesUuid text = true) :
    matchesUuid (toLowerCase text) = true := by
  simp only [matchesUuid, Bool.and_eq_true, beq_iff_eq, all_eq_true] at isUuid ⊢
  obtain ⟨length, units⟩ := isUuid
  refine ⟨by simpa [toLowerCase] using length, ?_⟩
  intro entry inside
  rw [toLowerCase, zipIdx_map] at inside
  obtain ⟨⟨unit, index⟩, before, rfl⟩ := mem_map.mp inside
  have here := units (unit, index) before
  simp only [Prod.map_apply, id_eq] at here ⊢
  split at here
  case isTrue dash =>
    rw [beq_iff_eq] at here
    rw [if_pos dash, here]
    rfl
  case isFalse dash =>
    rw [if_neg dash]
    exact isHexUnit_lowerUnit here

theorem length_of_matchesUuid (isUuid : matchesUuid text = true) : text.length = 36 := by
  simp only [matchesUuid, Bool.and_eq_true, beq_iff_eq] at isUuid
  exact isUuid.1

theorem uuid_valid (h : uuid value = some text) :
    matchesUuid text = true ∧ toLowerCase text = text := by
  simp only [uuid, Option.bind_eq_bind, Option.bind_eq_some_iff, Option.ite_none_right_eq_some,
    Option.some.injEq] at h
  obtain ⟨source, _, isUuid, rfl⟩ := h
  exact ⟨matchesUuid_toLowerCase isUuid, toLowerCase_toLowerCase source⟩

theorem uuid_write (isUuid : matchesUuid text = true) :
    uuid (.string text) = some (toLowerCase text) := by
  have short : boundedString 36 (.string text) = some text :=
    boundedString_eq_some.mpr ⟨rfl, by rw [length_of_matchesUuid isUuid]⟩
  simp [uuid, short, isUuid]

theorem hintOf_valid {value : Option JsonValue} {hint : Utf16} (h : hintOf value = some hint) :
    hint.take fleetLinkMaxHintLength = hint := by
  unfold hintOf at h
  split at h
  case h_1 text =>
    simp only [Option.some.injEq] at h
    rw [← h, take_take, Nat.min_self]
  case h_2 => cases h

theorem hintOf_write (hint : Option Utf16) :
    hintOf (hint.map .string) = hint.map (·.take fleetLinkMaxHintLength) := by
  cases hint <;> rfl

theorem detailsOf_write (details : Option JsonRecord) : detailsOf (details.map .object) = details := by
  cases details <;> rfl

theorem normalizeFleetLinkError_valid {error : FleetLinkError}
    (h : normalizeFleetLinkError value = some error) : error.normalized = error := by
  simp only [normalizeFleetLinkError, Option.bind_eq_bind, Option.bind_eq_some_iff, Option.pure_def,
    Option.some.injEq] at h
  obtain ⟨record, _, code, _, rfl⟩ := h
  cases hint : hintOf (field record "hint") with
  | none => rfl
  | some text => simp [FleetLinkError.normalized, hintOf_valid hint]

theorem normalizeFleetLinkError_write (error : FleetLinkError) :
    normalizeFleetLinkError error.toJson = some error.normalized := by
  have code := fleetLinkErrorCode_write error.code
  have details := detailsOf_write error.details
  simp (disch := decide) [normalizeFleetLinkError, FleetLinkError.toJson, recordOf, field_cons,
    field_optional, code, details, hintOf, FleetLinkError.normalized]

theorem normalizeFleetConsents_write (consents : FleetConsents) :
    normalizeFleetConsents consents.toJson = some consents := by
  obtain ⟨work, attend, manage, usageScan⟩ := consents
  cases work <;> cases attend <;> cases manage <;> cases usageScan <;> decide

theorem resumeChannel_valid {channel : FleetLinkResumeChannel}
    (h : resumeChannel value = some channel) : channel.Declared := by
  simp only [resumeChannel, Option.bind_eq_bind, Option.bind_eq_some_iff, Option.pure_def,
    Option.some.injEq] at h
  obtain ⟨record, _, number, ⟨_, _, isNumber⟩, family, _, key, isKey, rfl⟩ := h
  refine ⟨channelNumber_valid isNumber, ?_⟩
  exact readOptional_valid (fun _ _ reads => (resumeKey_eq_some.mp reads).2) isKey

theorem resumeKey_write {key : Option Utf16} (declared : ∀ text, key = some text → ResumeKey text) :
    readOptional resumeKey (key.map .string) = some key :=
  readOptional_write (fun _ isKey => resumeKey_eq_some.mpr ⟨rfl, isKey⟩) declared

theorem resumeChannel_write {channel : FleetLinkResumeChannel} (declared : channel.Declared) :
    resumeChannel channel.toJson = some channel := by
  obtain ⟨isNumber, isKey⟩ := declared
  simp (disch := decide) [resumeChannel, FleetLinkResumeChannel.toJson, recordOf, field_cons,
    field_optional, channelNumber_write isNumber, fleetLinkFamily_write, resumeKey_write isKey]

theorem decodeResumeChannels_valid {channels : List FleetLinkResumeChannel}
    (h : decodeResumeChannels value = some channels) :
    channels.length ≤ fleetLinkMaxChannels ∧ ∀ channel ∈ channels, channel.Declared := by
  cases value with
  | array items =>
    simp only [decodeResumeChannels, Option.ite_none_left_eq_some] at h
    obtain ⟨few, reads⟩ := h
    obtain ⟨lengths, declared⟩ := readAll_valid (fun _ _ => resumeChannel_valid) reads
    exact ⟨by omega, declared⟩
  | _ => simp [decodeResumeChannels] at h

theorem decodeResumeChannels_write {channels : List FleetLinkResumeChannel}
    (few : channels.length ≤ fleetLinkMaxChannels)
    (declared : ∀ channel ∈ channels, channel.Declared) :
    decodeResumeChannels (.array (channels.map (·.toJson))) = some channels := by
  rw [decodeResumeChannels, length_map, if_neg (by omega)]
  exact readAll_write (fun _ => resumeChannel_write) declared

theorem decodeCapabilities_valid {tags : List Utf16}
    (h : decodeCapabilities value = some tags) :
    tags.length ≤ maxTags ∧ ∀ tag ∈ tags, Capability tag := by
  cases value with
  | array items =>
    simp only [decodeCapabilities, Option.ite_none_left_eq_some] at h
    obtain ⟨few, reads⟩ := h
    obtain ⟨lengths, declared⟩ := readAll_valid (fun _ _ read => (capability_eq_some.mp read).2) reads
    exact ⟨by omega, declared⟩
  | _ => simp [decodeCapabilities] at h

theorem decodeCapabilities_write {tags : List Utf16} (few : tags.length ≤ maxTags)
    (declared : ∀ tag ∈ tags, Capability tag) :
    decodeCapabilities (.array (tags.map .string)) = some tags := by
  rw [decodeCapabilities, length_map, if_neg (by omega)]
  exact readAll_write (fun _ isTag => capability_eq_some.mpr ⟨rfl, isTag⟩) declared

theorem decodeChannelList_valid {channels : List JsNumber}
    (h : decodeChannelList value = some channels) : ChannelList channels := by
  cases value with
  | array items =>
    simp only [decodeChannelList, Option.ite_none_left_eq_some] at h
    obtain ⟨few, reads⟩ := h
    obtain ⟨lengths, declared⟩ := readAll_valid (fun _ _ => channelNumber_valid) reads
    exact ⟨by omega, declared⟩
  | _ => simp [decodeChannelList] at h

theorem decodeChannelList_write {channels : List JsNumber} (declared : ChannelList channels) :
    decodeChannelList (.array (channels.map .number)) = some channels := by
  obtain ⟨few, numbers⟩ := declared
  rw [decodeChannelList, length_map, if_neg (by omega)]
  exact readAll_write (fun _ => channelNumber_write) numbers

theorem decodeLimits_valid {limits : FleetLinkLimits}
    (h : decodeLimits value = some limits) : limits.Declared := by
  simp only [decodeLimits, Option.bind_eq_bind, Option.bind_eq_some_iff, Option.pure_def,
    Option.some.injEq] at h
  obtain ⟨record, _, maxFrameBytes, ⟨_, _, frame⟩, maxChannels, ⟨_, _, few⟩, pingIntervalMs, ⟨_, _, ping⟩,
    silenceMs, ⟨_, _, silence⟩, inlineReplyMs, ⟨_, _, inline⟩, rfl⟩ := h
  exact ⟨boundedInt_valid frame, boundedInt_valid few, boundedInt_valid ping, boundedInt_valid silence,
    boundedInt_valid inline⟩

theorem decodeLimits_write {limits : FleetLinkLimits} (declared : limits.Declared) :
    decodeLimits limits.toJson = some limits := by
  obtain ⟨frame, few, ping, silence, inline⟩ := declared
  simp (disch := decide) [decodeLimits, FleetLinkLimits.toJson, recordOf, field_cons,
    boundedInt_write frame, boundedInt_write few, boundedInt_write ping, boundedInt_write silence,
    boundedInt_write inline]

theorem resumeOffer_valid {offer : FleetLinkResumeOffer}
    (h : resumeOffer value = some offer) : offer.Declared := by
  simp only [resumeOffer, Option.bind_eq_bind, Option.bind_eq_some_iff, Option.pure_def,
    Option.some.injEq] at h
  obtain ⟨record, _, generation, ⟨_, _, isGeneration⟩, channels, isChannels, rfl⟩ := h
  obtain ⟨few, declared⟩ := decodeResumeChannels_valid isChannels
  exact ⟨boundedInt_valid isGeneration, few, declared⟩

theorem resumeOffer_write {offer : FleetLinkResumeOffer} (declared : offer.Declared) :
    resumeOffer offer.toJson = some offer := by
  obtain ⟨isGeneration, few, channels⟩ := declared
  simp (disch := decide) [resumeOffer, FleetLinkResumeOffer.toJson, recordOf, field_cons, orEmptyList,
    boundedInt_write isGeneration, decodeResumeChannels_write few channels]

end EverWorks.Fleet
