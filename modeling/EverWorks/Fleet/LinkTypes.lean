import EverWorks.Lib.Json

/-!
The vocabulary both ends of the link share: channel families, consents and what a family needs of them,
errors, and the messages of channel 0.
-/

namespace EverWorks.Fleet

open Lib

def fleetLinkMaxFrameBytes : Nat := 16 * 1024 * 1024

def fleetLinkFrameHeaderBytes : Nat := 9

def fleetLinkMaxChannelNumber : Nat := 0xFFFFFFFF

def fleetLinkMaxChannels : Nat := 64

def fleetLinkCreditWindowBytes : Nat := 8 * 1024 * 1024

def fleetLinkMaxHintLength : Nat := 500

inductive FleetLinkFrameKind where
  | data
  | resize
  | exit
  | json
  | close
  | frame
  | input
  | tiles
  | ack
  | «end»
  | clip
  deriving DecidableEq

def FleetLinkFrameKind.value : FleetLinkFrameKind → Nat
  | data => 1
  | resize => 2
  | exit => 3
  | json => 10
  | close => 11
  | frame => 20
  | input => 21
  | tiles => 23
  | ack => 30
  | «end» => 31
  | clip => 40

def FleetLinkFrameKind.all : List FleetLinkFrameKind :=
  [data, resize, exit, json, close, frame, input, tiles, ack, «end», clip]

structure FleetConsents where
  work : Bool
  attend : Bool
  manage : Bool
  usageScan : Bool
  deriving DecidableEq

inductive FleetLinkConsentRequirement where
  | link
  | work
  | attend
  | manage
  | workOrManage
  deriving DecidableEq

def isFleetLinkEligible (consents : FleetConsents) : Bool :=
  consents.work || consents.attend || consents.manage

def fleetConsentSatisfies (consents : FleetConsents) : FleetLinkConsentRequirement → Bool
  | .link => isFleetLinkEligible consents
  | .work => consents.work
  | .attend => consents.attend
  | .manage => consents.manage
  | .workOrManage => consents.work || consents.manage

inductive FleetLinkFamily where
  | session
  | desktop
  | logs
  | machine
  | files
  | command
  | schedule
  | tunnel
  | clip
  deriving DecidableEq

namespace FleetLinkFamily

def name : FleetLinkFamily → String
  | session => "session"
  | desktop => "desktop"
  | logs => "logs"
  | machine => "machine"
  | files => "files"
  | command => "command"
  | schedule => "schedule"
  | tunnel => "tunnel"
  | clip => "clip"

def all : List FleetLinkFamily :=
  [session, desktop, logs, machine, files, command, schedule, tunnel, clip]

end FleetLinkFamily

def fleetLinkCreditFamilies : List FleetLinkFamily := [.files, .logs]

inductive FleetLinkErrorCode where
  | notFound
  | invalid
  | unreachable
  | consentMissing
  | permissionDenied
  | confirmationRequired
  | rootRequired
  | killSwitch
  | limitExceeded
  | unsupportedOnNode
  | busy
  | operationFailed
  | internal
  | resumeFailed
  deriving DecidableEq

namespace FleetLinkErrorCode

def name : FleetLinkErrorCode → String
  | notFound => "not_found"
  | invalid => "invalid"
  | unreachable => "unreachable"
  | consentMissing => "consent_missing"
  | permissionDenied => "permission_denied"
  | confirmationRequired => "confirmation_required"
  | rootRequired => "root_required"
  | killSwitch => "kill_switch"
  | limitExceeded => "limit_exceeded"
  | unsupportedOnNode => "unsupported_on_node"
  | busy => "busy"
  | operationFailed => "operation_failed"
  | internal => "internal"
  | resumeFailed => "resume_failed"

def all : List FleetLinkErrorCode :=
  [notFound, invalid, unreachable, consentMissing, permissionDenied, confirmationRequired, rootRequired,
    killSwitch, limitExceeded, unsupportedOnNode, busy, operationFailed, internal, resumeFailed]

end FleetLinkErrorCode

inductive FleetLinkCloseReason where
  | normal
  | error (code : FleetLinkErrorCode)
  deriving DecidableEq

structure FleetLinkError where
  code : FleetLinkErrorCode
  hint : Utf16
  details : Option JsonRecord

structure FleetLinkLimits where
  maxFrameBytes : JsNumber
  maxChannels : JsNumber
  pingIntervalMs : JsNumber
  silenceMs : JsNumber
  inlineReplyMs : JsNumber

structure FleetLinkResumeChannel where
  channel : JsNumber
  family : FleetLinkFamily
  resumeKey : Option Utf16

structure FleetLinkResumeOffer where
  linkGeneration : JsNumber
  channels : List FleetLinkResumeChannel

structure FleetLinkHello where
  nodeId : Utf16
  linkVersion : JsNumber
  capabilities : List Utf16
  consents : FleetConsents
  token : Utf16
  nodeVersion : Option Utf16
  resume : Option FleetLinkResumeOffer

structure FleetLinkReady where
  linkGeneration : JsNumber
  limits : FleetLinkLimits
  serverTime : Utf16
  resumed : List JsNumber
  closed : List JsNumber

structure FleetLinkChannelOpen where
  channel : JsNumber
  family : FleetLinkFamily
  params : JsonRecord
  requestId : Utf16

structure FleetLinkChannelReady where
  channel : JsNumber
  requestId : Utf16
  resumeKey : Option Utf16

structure FleetLinkChannelRefused where
  channel : JsNumber
  requestId : Utf16
  error : FleetLinkError

structure FleetLinkChannelClose where
  channel : JsNumber
  reason : FleetLinkCloseReason
  hint : Option Utf16

structure FleetLinkOperationProgress where
  operationId : Utf16
  percent : Option JsNumber
  message : Option Utf16

structure FleetLinkOperationDone where
  operationId : Utf16
  result : Option JsonValue
  error : Option FleetLinkError

inductive FleetLinkControlMessage where
  | hello (message : FleetLinkHello)
  | ready (message : FleetLinkReady)
  | ping (t : JsNumber)
  | pong (t : JsNumber)
  | pause
  | resume
  | drain (graceSec : JsNumber)
  | channelOpen (message : FleetLinkChannelOpen)
  | channelReady (message : FleetLinkChannelReady)
  | channelRefused (message : FleetLinkChannelRefused)
  | channelClose (message : FleetLinkChannelClose)
  | operationProgress (message : FleetLinkOperationProgress)
  | operationDone (message : FleetLinkOperationDone)
  | operationCancel (operationId : Utf16)

end EverWorks.Fleet
