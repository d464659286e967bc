import EverWorks.Fleet.LinkCodecLaws

/-!
Validation returns what it accepts: a decoded message decodes to itself, a declared message to its normal
form, and a frame's bytes and its parts determine each other.
-/

namespace EverWorks.Fleet
open Option FleetLinkControlMessage List

open Lib Lib.Bytes Lib.Json

theorem decodeHello_valid {record : JsonRecord} {hello : FleetLinkHello}
    (h : decodeHello record = some hello) :
    hello.Declared ∧ toLowerCase hello.nodeId = hello.nodeId := by
  simp only [decodeHello, bind_eq_bind, bind_eq_some_iff, Option.pure_def,
    some.injEq] at h
  obtain ⟨nodeId, ⟨_, _, isNode⟩, secret, ⟨_, _, isToken⟩, capabilities, ⟨_, _, isCapabilities⟩, consents, _,
    linkVersion, ⟨_, _, isVersion⟩, nodeVersion, isNodeVersion, resume, isResume, rfl⟩ := h
  obtain ⟨isUuid, lower⟩ := uuid_valid isNode
  obtain ⟨few, tags⟩ := decodeCapabilities_valid isCapabilities
  refine ⟨⟨isUuid, boundedInt_valid isVersion, few, tags, (token_eq_some.mp isToken).2, ?_, ?_⟩, lower⟩
  · exact readOptional_valid (fun _ _ reads => (boundedString_eq_some.mp reads).2) isNodeVersion
  · exact readOptional_valid (fun _ _ => resumeOffer_valid) isResume

theorem decodeHello_write {hello : FleetLinkHello} (declared : hello.Declared) (type : JsonValue) :
    decodeHello ((ascii "type", type) :: hello.toRecord) =
      some { hello with nodeId := toLowerCase hello.nodeId } := by
  have token : token (.string hello.token) = some hello.token :=
    token_eq_some.mpr ⟨rfl, declared.token⟩
  have version : readOptional (boundedString maxVersionLength) (hello.nodeVersion.map .string) =
      some hello.nodeVersion :=
    readOptional_write (fun _ short => boundedString_eq_some.mpr ⟨rfl, short⟩) declared.nodeVersion
  have resume : readOptional resumeOffer (hello.resume.map (·.toJson)) = some hello.resume :=
    readOptional_write (fun _ => resumeOffer_write) declared.resume
  simp (disch := decide) [decodeHello, FleetLinkHello.toRecord, field_cons, field_append, field_optional,
    uuid_write declared.nodeId, token, decodeCapabilities_write declared.few_capabilities
    declared.capabilities, normalizeFleetConsents_write, boundedInt_write declared.linkVersion, version,
    resume]

theorem decodeReady_valid {record : JsonRecord} {ready : FleetLinkReady}
    (h : decodeReady record = some ready) : ready.Declared := by
  simp only [decodeReady, bind_eq_bind, bind_eq_some_iff, Option.pure_def,
    some.injEq] at h
  obtain ⟨limits, ⟨_, _, isLimits⟩, serverTime, ⟨_, _, isTime⟩, resumed, isResumed, closed, isClosed,
    generation, ⟨_, _, isGeneration⟩, rfl⟩ := h
  exact ⟨boundedInt_valid isGeneration, decodeLimits_valid isLimits, (boundedString_eq_some.mp isTime).2,
    decodeChannelList_valid isResumed, decodeChannelList_valid isClosed⟩

theorem decodeReady_write {ready : FleetLinkReady} (declared : ready.Declared) (type : JsonValue) :
    decodeReady ((ascii "type", type) :: ready.toRecord) = some ready := by
  have time : boundedString maxServerTimeLength (.string ready.serverTime) = some ready.serverTime :=
    boundedString_eq_some.mpr ⟨rfl, declared.serverTime⟩
  simp (disch := decide) [decodeReady, FleetLinkReady.toRecord, field_cons, orEmptyList, time,
    decodeLimits_write declared.limits, decodeChannelList_write declared.resumed,
    decodeChannelList_write declared.closed, boundedInt_write declared.linkGeneration]

theorem decodeChannelOpen_valid {record : JsonRecord} {opens : FleetLinkChannelOpen}
    (h : decodeChannelOpen record = some opens) :
    ChannelNumber opens.channel ∧ matchesId opens.requestId = true := by
  simp only [decodeChannelOpen, bind_eq_bind, bind_eq_some_iff, Option.pure_def,
    some.injEq] at h
  obtain ⟨channel, ⟨_, _, isChannel⟩, family, _, requestId, ⟨_, _, isId⟩, params, _, rfl⟩ := h
  exact ⟨channelNumber_valid isChannel, (fleetLinkId_eq_some.mp isId).2⟩

theorem fleetLinkId_write {text : Utf16} (isId : matchesId text = true) :
    fleetLinkId (.string text) = some text := fleetLinkId_eq_some.mpr ⟨rfl, isId⟩

theorem decodeChannelOpen_write {opens : FleetLinkChannelOpen} (isChannel : ChannelNumber opens.channel)
    (isId : matchesId opens.requestId = true) (type : JsonValue) :
    decodeChannelOpen ((ascii "type", type) :: opens.toRecord) = some opens := by
  simp (disch := decide) [decodeChannelOpen, FleetLinkChannelOpen.toRecord, field_cons, readOptional,
    channelNumber_write isChannel, fleetLinkFamily_write, fleetLinkId_write isId, recordOf]

theorem decodeChannelReady_valid {record : JsonRecord} {ready : FleetLinkChannelReady}
    (h : decodeChannelReady record = some ready) :
    ChannelNumber ready.channel ∧ matchesId ready.requestId = true ∧
      ∀ key, ready.resumeKey = some key → ResumeKey key := by
  simp only [decodeChannelReady, bind_eq_bind, bind_eq_some_iff, Option.pure_def,
    some.injEq] at h
  obtain ⟨channel, ⟨_, _, isChannel⟩, requestId, ⟨_, _, isId⟩, key, isKey, rfl⟩ := h
  refine ⟨channelNumber_valid isChannel, (fleetLinkId_eq_some.mp isId).2, ?_⟩
  exact readOptional_valid (fun _ _ reads => (resumeKey_eq_some.mp reads).2) isKey

theorem decodeChannelReady_write {ready : FleetLinkChannelReady} (isChannel : ChannelNumber ready.channel)
    (isId : matchesId ready.requestId = true) (isKey : ∀ key, ready.resumeKey = some key → ResumeKey key)
    (type : JsonValue) : decodeChannelReady ((ascii "type", type) :: ready.toRecord) = some ready := by
  simp (disch := decide) [decodeChannelReady, FleetLinkChannelReady.toRecord, field_cons, field_optional,
    channelNumber_write isChannel, fleetLinkId_write isId, resumeKey_write isKey]

theorem decodeChannelRefused_valid {record : JsonRecord} {refused : FleetLinkChannelRefused}
    (h : decodeChannelRefused record = some refused) :
    (ChannelNumber refused.channel ∧ matchesId refused.requestId = true) ∧
      refused.error.normalized = refused.error := by
  simp only [decodeChannelRefused, bind_eq_bind, bind_eq_some_iff, Option.pure_def,
    some.injEq] at h
  obtain ⟨error, isError, channel, ⟨_, _, isChannel⟩, requestId, ⟨_, _, isId⟩, rfl⟩ := h
  exact ⟨⟨channelNumber_valid isChannel, (fleetLinkId_eq_some.mp isId).2⟩,
    normalizeFleetLinkError_valid isError⟩

theorem decodeChannelRefused_write {refused : FleetLinkChannelRefused}
    (isChannel : ChannelNumber refused.channel) (isId : matchesId refused.requestId = true)
    (type : JsonValue) : decodeChannelRefused ((ascii "type", type) :: refused.toRecord) =
      some { refused with error := refused.error.normalized } := by
  simp (disch := decide) [decodeChannelRefused, FleetLinkChannelRefused.toRecord, refusedError, field_cons,
    normalizeFleetLinkError_write, channelNumber_write isChannel, fleetLinkId_write isId]

theorem decodeChannelClose_valid {record : JsonRecord} {close : FleetLinkChannelClose}
    (h : decodeChannelClose record = some close) :
    ChannelNumber close.channel ∧ close.hint.map (·.take fleetLinkMaxHintLength) = close.hint := by
  simp only [decodeChannelClose, bind_eq_bind, bind_eq_some_iff, Option.pure_def,
    some.injEq] at h
  obtain ⟨reason, _, channel, ⟨_, _, isChannel⟩, rfl⟩ := h
  refine ⟨channelNumber_valid isChannel, ?_⟩
  cases hint : hintOf (field record "hint") with
  | none => rfl
  | some text => simp [hintOf_valid hint]

theorem decodeChannelClose_write {close : FleetLinkChannelClose} (isChannel : ChannelNumber close.channel)
    (type : JsonValue) : decodeChannelClose ((ascii "type", type) :: close.toRecord) =
      some { close with hint := close.hint.map (·.take fleetLinkMaxHintLength) } := by
  simp (disch := decide) [decodeChannelClose, FleetLinkChannelClose.toRecord, field_cons, field_optional,
    closeReason_write, channelNumber_write isChannel, hintOf_write]

theorem progressMessage_valid {value : JsonValue} {message : Utf16}
    (h : progressMessage value = some message) :
    message.take maxProgressMessageLength = message := by
  cases value with
  | string text =>
    simp only [progressMessage, some.injEq] at h
    rw [← h, take_take, Nat.min_self]
  | _ => simp [progressMessage] at h

theorem decodeOperationProgress_valid {record : JsonRecord} {progress : FleetLinkOperationProgress}
    (h : decodeOperationProgress record = some progress) :
    (matchesId progress.operationId = true ∧
        ∀ percent, progress.percent = some percent → Percent percent) ∧
      progress.message.map (·.take maxProgressMessageLength) = progress.message := by
  simp only [decodeOperationProgress, bind_eq_bind, bind_eq_some_iff, Option.pure_def,
    some.injEq] at h
  obtain ⟨operationId, ⟨_, _, isId⟩, inner, _, percent, isPercent, message, isMessage, rfl⟩ := h
  refine ⟨⟨(fleetLinkId_eq_some.mp isId).2, ?_⟩, ?_⟩
  · exact readOptional_valid (fun _ _ reads => (percent_eq_some.mp reads).2) isPercent
  · have cut := readOptional_valid (fun _ _ => progressMessage_valid) isMessage
    cases message with
    | none => rfl
    | some text => simp [cut text rfl]

theorem decodeOperationProgress_write {progress : FleetLinkOperationProgress}
    (isId : matchesId progress.operationId = true)
    (isPercent : ∀ percent, progress.percent = some percent → Percent percent) (type : JsonValue) :
    decodeOperationProgress ((ascii "type", type) :: progress.toRecord) =
      some { progress with message := progress.message.map (·.take maxProgressMessageLength) } := by
  have percent : readOptional percent (progress.percent.map .number) = some progress.percent :=
    readOptional_write (fun _ is => percent_eq_some.mpr ⟨rfl, is⟩) isPercent
  have message : readOptional progressMessage (progress.message.map .string) =
      some (progress.message.map (·.take maxProgressMessageLength)) := by
    cases progress.message <;> rfl
  simp (disch := decide) [decodeOperationProgress, FleetLinkOperationProgress.toRecord, field_cons,
    field_append, field_optional, fleetLinkId_write isId, recordOf, percent, message]

theorem decodeOperationDone_valid {record : JsonRecord} {done : FleetLinkOperationDone}
    (h : decodeOperationDone record = some done) :
    matchesId done.operationId = true ∧ done.error.map (·.normalized) = done.error ∧
      (done.error = none ∨ done.result = none) := by
  simp only [decodeOperationDone, bind_eq_bind, bind_eq_some_iff] at h
  obtain ⟨operationId, ⟨_, _, isId⟩, h⟩ := h
  have matchesOperation := (fleetLinkId_eq_some.mp isId).2
  split at h
  case h_1 value _ =>
    simp only [bind_eq_some_iff, Option.pure_def, some.injEq] at h
    obtain ⟨error, isError, rfl⟩ := h
    exact ⟨matchesOperation, by simp [normalizeFleetLinkError_valid isError], .inr rfl⟩
  case h_2 =>
    simp only [Option.pure_def, some.injEq] at h
    subst h
    exact ⟨matchesOperation, rfl, .inl rfl⟩

theorem decodeOperationDone_write {done : FleetLinkOperationDone}
    (isId : matchesId done.operationId = true) (exclusive : done.error = none ∨ done.result = none)
    (type : JsonValue) : decodeOperationDone ((ascii "type", type) :: done.toRecord) =
      some { done with error := done.error.map (·.normalized) } := by
  cases error : done.error with
  | none =>
    simp (disch := decide) [decodeOperationDone, FleetLinkOperationDone.toRecord, field_cons, field_append,
      field_optional, fleetLinkId_write isId, error]
  | some value =>
    have result : done.result = none := by simpa [error] using exclusive
    simp (disch := decide) [decodeOperationDone, FleetLinkOperationDone.toRecord, field_cons, field_append,
      field_optional, fleetLinkId_write isId, error, result, normalizeFleetLinkError_write]

theorem decodeKnownControl_toRecord (message : FleetLinkControlMessage) :
    decodeKnownControl message.toRecord = decodeControlOf message.toRecord message.type := by
  have typed : field message.toRecord "type" = some (stringJson message.type.name) := by
    simp (disch := decide) [toRecord, field_cons]
  simp [decodeKnownControl, typed, controlType_write]

theorem decodeKnownControl_valid {record : JsonRecord} {message : FleetLinkControlMessage}
    (h : decodeKnownControl record = some message) :
    message.Declared ∧ message.normalized = message ∧ message.Exclusive := by
  simp only [decodeKnownControl, bind_eq_some_iff] at h
  obtain ⟨type, _, h⟩ := h
  cases type with
  | hello =>
    obtain ⟨hello, read, rfl⟩ := map_eq_some_iff.mp h
    obtain ⟨declared, lower⟩ := decodeHello_valid read
    exact ⟨declared, by simp [normalized, lower], trivial⟩
  | ready =>
    obtain ⟨ready, read, rfl⟩ := map_eq_some_iff.mp h
    exact ⟨decodeReady_valid read, rfl, trivial⟩
  | ping | pong =>
    obtain ⟨t, read, rfl⟩ := map_eq_some_iff.mp h
    obtain ⟨value, _, isFinite⟩ := bind_eq_some_iff.mp read
    exact ⟨(finiteNumber_eq_some.mp isFinite).2, rfl, trivial⟩
  | pause =>
    obtain ⟨_, _, rfl⟩ := map_eq_some_iff.mp h
    exact ⟨trivial, rfl, trivial⟩
  | resume =>
    obtain rfl := some.inj h
    exact ⟨trivial, rfl, trivial⟩
  | drain =>
    obtain ⟨graceSec, read, rfl⟩ := map_eq_some_iff.mp h
    obtain ⟨value, _, isGrace⟩ := bind_eq_some_iff.mp read
    exact ⟨boundedInt_valid isGrace, rfl, trivial⟩
  | channelOpen =>
    obtain ⟨opens, read, rfl⟩ := map_eq_some_iff.mp h
    exact ⟨decodeChannelOpen_valid read, rfl, trivial⟩
  | channelReady =>
    obtain ⟨ready, read, rfl⟩ := map_eq_some_iff.mp h
    exact ⟨decodeChannelReady_valid read, rfl, trivial⟩
  | channelRefused =>
    obtain ⟨refused, read, rfl⟩ := map_eq_some_iff.mp h
    obtain ⟨declared, cut⟩ := decodeChannelRefused_valid read
    exact ⟨declared, by simp [normalized, cut], trivial⟩
  | channelClose =>
    obtain ⟨close, read, rfl⟩ := map_eq_some_iff.mp h
    obtain ⟨declared, cut⟩ := decodeChannelClose_valid read
    exact ⟨declared, by simp [normalized, cut], trivial⟩
  | operationProgress =>
    obtain ⟨progress, read, rfl⟩ := map_eq_some_iff.mp h
    obtain ⟨declared, cut⟩ := decodeOperationProgress_valid read
    exact ⟨declared, by simp [normalized, cut], trivial⟩
  | operationDone =>
    obtain ⟨done, read, rfl⟩ := map_eq_some_iff.mp h
    obtain ⟨declared, cut, exclusive⟩ := decodeOperationDone_valid read
    exact ⟨declared, by simp [normalized, cut], exclusive⟩
  | operationCancel =>
    obtain ⟨operationId, read, rfl⟩ := map_eq_some_iff.mp h
    obtain ⟨value, _, isId⟩ := bind_eq_some_iff.mp read
    exact ⟨(fleetLinkId_eq_some.mp isId).2, rfl, trivial⟩

theorem decodeKnownControl_write {message : FleetLinkControlMessage} (declared : message.Declared)
    (exclusive : message.Exclusive) :
    decodeKnownControl message.toRecord = some message.normalized := by
  rw [decodeKnownControl_toRecord]
  cases message with
  | hello hello => exact map_eq_some_iff.mpr ⟨_, decodeHello_write declared _, rfl⟩
  | ready ready => exact map_eq_some_iff.mpr ⟨_, decodeReady_write declared _, rfl⟩
  | ping t | pong t =>
    have isFinite : finiteNumber (.number t) = some t := finiteNumber_eq_some.mpr ⟨rfl, declared⟩
    simp (disch := decide) [type, decodeControlOf,
      toRecord, fields, field_cons, isFinite,
      normalized]
  | pause =>
    simp (disch := decide) [type, decodeControlOf,
      toRecord, fields, field_cons, stringJson, pauseReason,
      normalized]
  | resume => rfl
  | drain graceSec =>
    have isGrace : boundedInt 0 maxDrainGraceSec (.number graceSec) = some graceSec :=
      boundedInt_write declared
    simp (disch := decide) [type, decodeControlOf,
      toRecord, fields, field_cons, isGrace,
      normalized]
  | channelOpen opens =>
    exact map_eq_some_iff.mpr ⟨_, decodeChannelOpen_write declared.1 declared.2 _, rfl⟩
  | channelReady ready =>
    exact map_eq_some_iff.mpr ⟨_, decodeChannelReady_write declared.1 declared.2.1 declared.2.2 _, rfl⟩
  | channelRefused refused =>
    exact map_eq_some_iff.mpr ⟨_, decodeChannelRefused_write declared.1 declared.2 _, rfl⟩
  | channelClose close => exact map_eq_some_iff.mpr ⟨_, decodeChannelClose_write declared _, rfl⟩
  | operationProgress progress =>
    exact map_eq_some_iff.mpr ⟨_, decodeOperationProgress_write declared.1 declared.2 _, rfl⟩
  | operationDone done =>
    exact map_eq_some_iff.mpr ⟨_, decodeOperationDone_write declared exclusive _, rfl⟩
  | operationCancel operationId =>
    have isId : fleetLinkId (.string operationId) = some operationId := fleetLinkId_write declared
    simp (disch := decide) [type, decodeControlOf,
      toRecord, fields, field_cons, isId,
      normalized]

def FleetLinkControlType.fieldNames : FleetLinkControlType → List String
  | hello => ["nodeId", "linkVersion", "capabilities", "consents", "token", "nodeVersion", "resume"]
  | ready => ["linkGeneration", "limits", "serverTime", "resumed", "closed"]
  | ping | pong => ["t"]
  | pause => ["reason"]
  | resume => []
  | drain => ["graceSec"]
  | channelOpen => ["channel", "family", "params", "requestId"]
  | channelReady => ["channel", "requestId", "resumeKey"]
  | channelRefused => ["channel", "requestId", "error"]
  | channelClose => ["channel", "reason", "hint"]
  | operationProgress => ["operationId", "progress"]
  | operationDone => ["operationId", "result", "error"]
  | operationCancel => ["operationId"]

theorem fields_declared (message : FleetLinkControlMessage) :
    ∀ entry ∈ message.fields, ∃ name ∈ message.type.fieldNames, entry.1 = ascii name := by
  cases message <;>
    simp +contextual [fields, type,
      FleetLinkControlType.fieldNames, mem_optional, or_imp, forall_and, FleetLinkHello.toRecord,
      FleetLinkReady.toRecord, FleetLinkChannelOpen.toRecord, FleetLinkChannelReady.toRecord,
      FleetLinkChannelRefused.toRecord, FleetLinkChannelClose.toRecord,
      FleetLinkOperationProgress.toRecord, FleetLinkOperationDone.toRecord]

theorem frameKindOf_value (kind : FleetLinkFrameKind) : frameKindOf kind.value = some kind := by
  cases kind <;> rfl

theorem value_of_frameKindOf {value : Nat} {kind : FleetLinkFrameKind} (h : frameKindOf value = some kind) :
    kind.value = value := by
  have found := find?_some h
  simpa using found

theorem value_lt (kind : FleetLinkFrameKind) : kind.value < 256 := by
  cases kind <;> decide

theorem isAnyChannelNumber_cast {n : Nat} (small : n < 4294967296) : isAnyChannelNumber n = true := by
  have safe : n ≤ maxSafeInteger := by
    unfold maxSafeInteger
    omega
  have negative : JsNumber.atMost (.finite (-maxSafeInteger)) n = true := by
    rw [JsNumber.cast_eq, JsNumber.atMost_finite]
    have nonneg : (0 : ℚ) ≤ n := Nat.cast_nonneg n
    have limit : (0 : ℚ) ≤ maxSafeInteger := Nat.cast_nonneg _
    linarith
  have zero : JsNumber.atMost 0 n = true := JsNumber.cast_atMost.mpr (Nat.zero_le n)
  have channel : JsNumber.atMost n fleetLinkMaxChannelNumber = true :=
    JsNumber.cast_atMost.mpr (by unfold fleetLinkMaxChannelNumber; omega)
  simp [isAnyChannelNumber, isSafeInteger, negative, JsNumber.cast_atMost.mpr safe, zero, channel]

theorem exists_nat_of_isAnyChannelNumber {channel : JsNumber}
    (isChannel : isAnyChannelNumber channel = true) :
    ∃ n : Nat, channel = n ∧ n < 4294967296 := by
  simp only [isAnyChannelNumber, isSafeInteger, Bool.and_eq_true] at isChannel
  obtain ⟨⟨⟨⟨integer, _⟩, _⟩, zero⟩, high⟩ := isChannel
  obtain ⟨n, rfl⟩ := JsNumber.exists_nat integer zero
  have small : n ≤ fleetLinkMaxChannelNumber := JsNumber.cast_atMost.mp high
  unfold fleetLinkMaxChannelNumber at small
  exact ⟨n, rfl, by omega⟩

theorem decodeFleetLinkFrame_encode {channel : JsNumber} {kind : FleetLinkFrameKind}
    {payload bytes : List UInt8} (h : encodeFleetLinkFrame channel kind payload = some bytes) :
    decodeFleetLinkFrame bytes = .ok (some ⟨channel, kind, payload⟩) := by
  simp only [encodeFleetLinkFrame, Bool.not_eq_true', ite_none_left_eq_some, Bool.not_eq_false,
    not_lt, some.injEq] at h
  obtain ⟨isChannel, fits, written⟩ := h
  obtain ⟨n, rfl, small⟩ := exists_nat_of_isAnyChannelNumber isChannel
  have channel_eq : JsNumber.toUint 32 n = n := by
    rw [JsNumber.toUint_cast]
    omega
  rw [channel_eq] at written
  unfold fleetLinkMaxFrameBytes fleetLinkFrameHeaderBytes at fits
  have atChannel : bytes.drop 0 = putUint32 n ++
      (UInt8.ofNat kind.value :: (putUint32 payload.length ++ payload)) := written.symm
  have atKind := drop_add_of_drop _ atChannel
  have atLength := drop_succ_of_drop atKind
  have atPayload := drop_add_of_drop _ atLength
  simp only [length_putUint32, Nat.zero_add, Nat.reduceAdd] at atKind atLength atPayload
  have length : bytes.length = 9 + payload.length := by
    rw [← written]
    simp
    omega
  have kindByte : (UInt8.ofNat kind.value).toNat = kind.value := by
    simp [Nat.mod_eq_of_lt (value_lt kind)]
  have short : ¬ fleetLinkMaxFrameBytes < bytes.length := by
    unfold fleetLinkMaxFrameBytes
    omega
  have room : ¬ bytes.length < fleetLinkFrameHeaderBytes := by
    unfold fleetLinkFrameHeaderBytes
    omega
  have exactly : payload.length = bytes.length - fleetLinkFrameHeaderBytes := by
    unfold fleetLinkFrameHeaderBytes
    omega
  rw [decodeFleetLinkFrame, if_neg short, if_neg room]
  simp only [getUint32_of_drop_small atChannel small, getUint8_of_drop atKind, kindByte,
    getUint32_of_drop_small atLength (by omega), ok_bind, frameKindOf_value, ← exactly, ne_eq,
    not_true_eq_false, if_false]
  rw [fleetLinkFrameHeaderBytes, atPayload]

theorem decodeFleetLinkFrame_spec (bytes : List UInt8) :
    decodeFleetLinkFrame bytes = .ok none ∨
      ∃ frame, decodeFleetLinkFrame bytes = .ok (some frame) ∧
        encodeFleetLinkFrame frame.channel frame.kind frame.payload = some bytes := by
  by_cases long : fleetLinkMaxFrameBytes < bytes.length
  · exact .inl (by rw [decodeFleetLinkFrame, if_pos long])
  by_cases short : bytes.length < fleetLinkFrameHeaderBytes
  · exact .inl (by rw [decodeFleetLinkFrame, if_neg long, if_pos short])
  have room : 9 ≤ bytes.length := Nat.le_of_not_lt short
  obtain ⟨channel, boundChannel, readChannel, atChannel⟩ := getUint32_inside bytes 0 (by omega)
  obtain ⟨kind, readKind, atKind⟩ := getUint8_inside bytes 4 (by omega)
  obtain ⟨length, boundLength, readLength, atLength⟩ := getUint32_inside bytes 5 (by omega)
  rw [decodeFleetLinkFrame, if_neg long, if_neg short]
  simp only [readChannel, readKind, readLength, ok_bind]
  cases isKind : frameKindOf kind.toNat with
  | none => exact .inl rfl
  | some frameKind =>
    by_cases exactly : length = bytes.length - fleetLinkFrameHeaderBytes
    · right
      refine ⟨⟨channel, frameKind, bytes.drop fleetLinkFrameHeaderBytes⟩, by simp [exactly], ?_⟩
      have fits : ¬ fleetLinkMaxFrameBytes < fleetLinkFrameHeaderBytes + length := by
        unfold fleetLinkFrameHeaderBytes at exactly ⊢
        omega
      have channel_eq : JsNumber.toUint 32 channel = channel := by
        rw [JsNumber.toUint_cast]
        omega
      have payloadLength : (bytes.drop fleetLinkFrameHeaderBytes).length = length := by
        rw [length_drop, exactly]
      have kindByte : UInt8.ofNat frameKind.value = kind := by
        rw [value_of_frameKindOf isKind, UInt8.ofNat_toNat]
      simp only [encodeFleetLinkFrame, isAnyChannelNumber_cast boundChannel, payloadLength, if_neg fits,
        channel_eq, kindByte, Bool.not_true, Bool.false_eq_true, if_false]
      rw [show fleetLinkFrameHeaderBytes = 5 + 4 from rfl, ← atLength, ← atKind,
        show (4 : Nat) = 0 + 4 from rfl, ← atChannel, drop_zero]
    · exact .inl (by simp [exactly])

def doneWithBoth : FleetLinkControlMessage :=
  .operationDone ⟨ascii "op", some (.bool true), some ⟨.busy, ascii "later", none⟩⟩

/-- Of a result and an error only the error is kept. -/
theorem result_lost :
    doneWithBoth.Declared ∧ doneWithBoth.normalized = doneWithBoth ∧
      decodeKnownControl doneWithBoth.toRecord ≠ some doneWithBoth := by
  have decoded : decodeKnownControl doneWithBoth.toRecord =
      some (.operationDone ⟨ascii "op", none, some ⟨.busy, ascii "later", none⟩⟩) := rfl
  refine ⟨show matchesId (ascii "op") = true by decide, rfl, ?_⟩
  rw [decoded, doneWithBoth]
  intro same
  simp at same

/-- What validation accepts is declared and comes back unchanged, what is declared comes back in its
normal form, and frames and their bytes determine each other. -/
theorem control_survives_validation :
    (∀ (record : JsonRecord) (message : FleetLinkControlMessage),
      decodeKnownControl record = some message →
        message.Declared ∧ message.normalized = message ∧
        (∀ entry ∈ message.fields, ∃ name ∈ message.type.fieldNames, entry.1 = ascii name) ∧
        decodeKnownControl message.toRecord = some message) ∧
    (∀ message : FleetLinkControlMessage, message.Declared → message.Exclusive →
      decodeKnownControl message.toRecord = some message.normalized) ∧
    (∀ bytes : List UInt8, decodeFleetLinkFrame bytes = .ok none ∨
      ∃ frame, decodeFleetLinkFrame bytes = .ok (some frame) ∧
        encodeFleetLinkFrame frame.channel frame.kind frame.payload = some bytes) ∧
    ∀ (channel : JsNumber) (kind : FleetLinkFrameKind) (payload bytes : List UInt8),
      encodeFleetLinkFrame channel kind payload = some bytes →
        decodeFleetLinkFrame bytes = .ok (some ⟨channel, kind, payload⟩) := by
  refine ⟨?_, fun _ => decodeKnownControl_write, decodeFleetLinkFrame_spec,
    fun _ _ _ _ => decodeFleetLinkFrame_encode⟩
  intro record message decoded
  obtain ⟨declared, normal, exclusive⟩ := decodeKnownControl_valid decoded
  refine ⟨declared, normal, fields_declared message, ?_⟩
  rw [decodeKnownControl_write declared exclusive, normal]

end EverWorks.Fleet
