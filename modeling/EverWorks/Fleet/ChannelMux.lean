import EverWorks.Fleet.Registry

/-!
`ChannelMux` holds the node's channels across drops; `NodeLinkClient` decides when they are suspended,
offered, resumed and given up. The node takes channels, it opens none.
-/

namespace EverWorks.Fleet
open List

open Lib

structure MuxEntry where
  channel : Nat
  family : FleetLinkFamily
  /-- The request a module is still opening the channel for. -/
  pending : Option Utf16
  resumeKey : Option Utf16
  suspended : Bool
  deriving DecidableEq

structure ChannelMux where
  channels : List MuxEntry
  /-- Numbers closed on the current generation. -/
  retired : List Nat
  deriving DecidableEq

namespace ChannelMux

def has (mux : ChannelMux) (channel : Nat) : Bool :=
  mux.channels.any fun entry => entry.channel == channel

/-- `channel N is already in use on this link` -/
def inUse (mux : ChannelMux) (channel : Nat) : Bool := mux.has channel || mux.retired.contains channel

/-- `finish` without the message to the platform. -/
def finish (mux : ChannelMux) (channel : Nat) : ChannelMux :=
  if mux.has channel then
    { channels := mux.channels.filter fun entry => entry.channel != channel
      retired := channel :: mux.retired }
  else mux

/-- `open` up to the module's answer. `declines` is what the kill switch, the module table and the
consents say of the request. -/
def «open» (mux : ChannelMux) (channel : Nat) (family : FleetLinkFamily) (requestId : Utf16)
    (declines : Option FleetLinkErrorCode) : ChannelMux × List NodeMessage :=
  if mux.inUse channel then (mux, [.channelRefused channel requestId .invalid])
  else if fleetLinkMaxChannels ≤ mux.channels.length then
    (mux, [.channelRefused channel requestId .limitExceeded])
  else
    match declines with
    | some code => (mux, [.channelRefused channel requestId code])
    | none =>
      ({ mux with channels := mux.channels ++ [⟨channel, family, some requestId, none, false⟩] }, [])

def opened (mux : ChannelMux) (channel : Nat) (result : Except FleetLinkErrorCode (Option Utf16)) :
    ChannelMux × List NodeMessage :=
  match (mux.channels.find? fun entry => entry.channel == channel).bind (·.pending) with
  | none => (mux, [])
  | some requestId =>
    match result with
    | .error code => (mux.finish channel, [.channelRefused channel requestId code])
    | .ok resumeKey =>
      ({ mux with
          channels := mux.channels.map fun entry =>
            if entry.channel = channel then { entry with pending := none, resumeKey } else entry },
        [.channelReady channel requestId resumeKey])

def closeRemote (mux : ChannelMux) (channel : Nat) : ChannelMux := mux.finish channel

def closeLocal (mux : ChannelMux) (channel : Nat) : ChannelMux × List NodeMessage :=
  (mux.finish channel, if mux.has channel then [.channelClose channel] else [])

def suspend (mux : ChannelMux) : ChannelMux × List OfferedChannel :=
  let kept := mux.channels.filter (·.resumeKey.isSome)
  ({ channels := kept.map fun entry => { entry with suspended := true }
     retired := (mux.channels.filter fun entry => entry.resumeKey.isNone).map (·.channel) ++ mux.retired },
    kept.map fun entry => ⟨entry.channel, entry.family, entry.resumeKey⟩)

def stays (resumed : List Nat) (entry : MuxEntry) : Bool :=
  !entry.suspended || resumed.contains entry.channel

def resumeGeneration (mux : ChannelMux) (resumed : List Nat) : ChannelMux where
  channels := (mux.channels.filter (stays resumed)).map fun entry => { entry with suspended := false }
  retired := (mux.channels.filter fun entry => !stays resumed entry).map (·.channel)

def closeAll (mux : ChannelMux) : ChannelMux where
  channels := []
  retired := mux.channels.map (·.channel) ++ mux.retired

variable {mux : ChannelMux}

variable {channel : Nat}

theorem has_iff :
    mux.has channel = true ↔ ∃ entry ∈ mux.channels, entry.channel = channel := by
  simp [has]

theorem inUse_iff :
    mux.inUse channel = true ↔
      (∃ entry ∈ mux.channels, entry.channel = channel) ∨ channel ∈ mux.retired := by
  simp [inUse, has_iff]

theorem mem_finish {entry : MuxEntry} :
    entry ∈ (mux.finish channel).channels ↔ entry ∈ mux.channels ∧ entry.channel ≠ channel := by
  by_cases there : mux.has channel
  · simp [finish, there]
  · rw [finish, if_neg there]
    have absent : ∀ entry ∈ mux.channels, entry.channel ≠ channel := by
      intro entry inside same
      exact there (Iff.mpr has_iff ⟨entry, inside, same⟩)
    exact ⟨fun inside => ⟨inside, absent entry inside⟩, fun inside => inside.1⟩

theorem finish_sublist (mux : ChannelMux) (channel : Nat) :
    ((mux.finish channel).channels.map (·.channel)).Sublist (mux.channels.map (·.channel)) := by
  unfold finish
  split
  · exact filter_sublist.map _
  · exact List.Sublist.refl _

theorem opened_sublist (mux : ChannelMux) (answered : Nat)
    (result : Except FleetLinkErrorCode (Option Utf16)) :
    ((mux.opened answered result).1.channels.map (·.channel)).Sublist (mux.channels.map (·.channel)) := by
  unfold opened
  split
  case h_1 => exact List.Sublist.refl _
  case h_2 =>
    cases result with
    | error code => exact finish_sublist mux answered
    | ok resumeKey =>
      have same : ∀ entry : MuxEntry,
          (if entry.channel = answered then { entry with pending := none, resumeKey } else entry).channel =
            entry.channel := by
        intro entry
        split <;> rfl
      simp [List.map_map, Function.comp_def, same]

theorem open_distinct {family : FleetLinkFamily} {requestId : Utf16}
    {declines : Option FleetLinkErrorCode} (distinct : (mux.channels.map (·.channel)).Nodup) :
    ((mux.open channel family requestId declines).1.channels.map (·.channel)).Nodup := by
  unfold «open»
  split_ifs with used full
  · exact distinct
  · exact distinct
  · cases declines with
    | some code => exact distinct
    | none =>
      have absent : ∀ entry ∈ mux.channels, entry.channel ≠ channel := by
        intro entry inside same
        exact used (by simpa [inUse] using .inl (Iff.mpr has_iff ⟨entry, inside, same⟩))
      simpa [nodup_append, distinct] using absent

theorem finish_inUse (mux : ChannelMux) (closed channel : Nat) :
    (mux.finish closed).inUse channel = true ↔ mux.inUse channel = true := by
  by_cases there : mux.has closed
  · rw [finish, if_pos there, inUse_iff, inUse_iff]
    obtain ⟨held, inside, isClosed⟩ := Iff.mp has_iff there
    simp only [mem_filter, mem_cons, bne_iff_ne]
    constructor
    · rintro (⟨entry, ⟨inside, _⟩, same⟩ | rfl | retired)
      · exact .inl ⟨entry, inside, same⟩
      · exact .inl ⟨held, inside, isClosed⟩
      · exact .inr retired
    · rintro (⟨entry, inside, same⟩ | retired)
      · by_cases this : entry.channel = closed
        · exact .inr (.inl (same.symm.trans this))
        · exact .inl ⟨entry, ⟨inside, this⟩, same⟩
      · exact .inr (.inr retired)
  · rw [finish, if_neg there]

theorem open_inUse (mux : ChannelMux) (opens : Nat) (family : FleetLinkFamily) (requestId : Utf16)
    (declines : Option FleetLinkErrorCode)
    (used : (mux.open opens family requestId declines).1.inUse channel = true) :
    mux.inUse channel = true ∨ channel = opens := by
  unfold «open» at used
  split_ifs at used
  · exact .inl used
  · exact .inl used
  · cases declines with
    | some code => exact .inl used
    | none =>
      rw [inUse_iff] at used
      simp only [mem_append, mem_singleton] at used
      obtain ⟨entry, inside | rfl, same⟩ | retired := used
      · exact .inl (Iff.mpr inUse_iff (.inl ⟨entry, inside, same⟩))
      · exact .inr same.symm
      · exact .inl (Iff.mpr inUse_iff (.inr retired))

theorem mem_opened {answered : Nat}
    {result : Except FleetLinkErrorCode (Option Utf16)} {entry : MuxEntry}
    (inside : entry ∈ (mux.opened answered result).1.channels) :
    ∃ old ∈ mux.channels, entry.channel = old.channel ∧ entry.suspended = old.suspended ∧
      (entry.pending = none ∨ entry = old) := by
  unfold opened at inside
  split at inside
  case h_1 => exact ⟨entry, inside, rfl, rfl, .inr rfl⟩
  case h_2 requestId waits =>
    cases result with
    | error code => exact ⟨entry, (Iff.mp mem_finish inside).1, rfl, rfl, .inr rfl⟩
    | ok resumeKey =>
      obtain ⟨old, isOld, rfl⟩ := mem_map.mp inside
      refine ⟨old, isOld, ?_⟩
      by_cases answers : old.channel = answered
      · simp [answers]
      · simp [answers]

theorem opened_of_idle (idle : ∀ entry ∈ mux.channels, entry.pending = none)
    (answered : Nat) (result : Except FleetLinkErrorCode (Option Utf16)) :
    mux.opened answered result = (mux, []) := by
  have none : (mux.channels.find? fun entry => entry.channel == answered).bind (·.pending) = none := by
    cases found : mux.channels.find? fun entry => entry.channel == answered with
    | none => rfl
    | some entry => exact idle entry (mem_of_find?_eq_some found)
  rw [opened, none]

theorem opened_inUse (mux : ChannelMux) (answered : Nat)
    (result : Except FleetLinkErrorCode (Option Utf16))
    (used : (mux.opened answered result).1.inUse channel = true) : mux.inUse channel = true := by
  unfold opened at used
  split at used
  case h_1 => exact used
  case h_2 requestId waits =>
    cases result with
    | error code => exact (finish_inUse mux answered channel).mp used
    | ok resumeKey =>
      obtain ⟨entry, inside, same⟩ | retired := Iff.mp inUse_iff used
      · obtain ⟨old, isOld, rfl⟩ := mem_map.mp inside
        refine Iff.mpr inUse_iff (.inl ⟨old, isOld, ?_⟩)
        rw [← same]
        split <;> rfl
      · exact Iff.mpr inUse_iff (.inr retired)

end ChannelMux

structure NodeLinkClient where
  mux : ChannelMux
  /-- It has a socket, whether the ready came yet or not. -/
  socket : Bool
  connected : Bool
  previousGeneration : Option Nat
  resumeChannels : List OfferedChannel
  /-- The timer that gives suspended channels up. -/
  resumeExpiry : Bool
  deriving DecidableEq

namespace NodeLinkClient

def start : NodeLinkClient := ⟨⟨[], []⟩, false, false, none, [], false⟩

def hello (client : NodeLinkClient) (consents : FleetConsents) : LinkHello where
  consents
  resume := client.previousGeneration.map fun generation => ⟨generation, client.resumeChannels⟩

def onReady (client : NodeLinkClient) (ready : LinkReady) : NodeLinkClient :=
  { client with
    mux := client.mux.resumeGeneration ready.resumed
    connected := true
    previousGeneration := some ready.linkGeneration
    resumeChannels := []
    resumeExpiry := false }

/-- `onControl`: before its ready the node takes nothing else, after it no second one. -/
def onControl (client : NodeLinkClient) (message : PlatformMessage)
    (declines : Option FleetLinkErrorCode) : NodeLinkClient × List NodeMessage :=
  if client.connected then
    match message with
    | .channelOpen channel family requestId =>
      let (mux, answer) := client.mux.open channel family requestId declines
      ({ client with mux }, answer)
    | .channelClose channel => ({ client with mux := client.mux.closeRemote channel }, [])
    | .ready _ | .other => (client, [])
  else
    match message with
    | .ready ready => (client.onReady ready, [])
    | _ => (client, [])

def dropSocket (client : NodeLinkClient) : NodeLinkClient :=
  let (mux, resumeChannels) := client.mux.suspend
  { client with
    mux
    socket := false
    connected := false
    resumeChannels
    resumeExpiry := client.resumeExpiry || !resumeChannels.isEmpty }

/-- `armResumeExpiry`'s timer fires. -/
def expire (client : NodeLinkClient) : NodeLinkClient :=
  if !client.resumeExpiry then client
  else if client.connected then { client with resumeExpiry := false }
  else { client with mux := client.mux.closeAll, resumeChannels := [], resumeExpiry := false }

theorem onControl_socket (client : NodeLinkClient) (message : PlatformMessage)
    (declines : Option FleetLinkErrorCode) :
    (client.onControl message declines).1.socket = client.socket := by
  unfold onControl
  split <;> split <;> rfl

theorem onControl_connected {client : NodeLinkClient} (connected : client.connected = true)
    {message : PlatformMessage} {declines : Option FleetLinkErrorCode} :
    (client.onControl message declines).1.connected = true := by
  unfold onControl
  rw [if_pos connected]
  split <;> exact connected

theorem expire_connected (client : NodeLinkClient) : client.expire.connected = client.connected := by
  unfold expire
  split_ifs <;> rfl

theorem expire_inUse {client : NodeLinkClient} {channel : Nat}
    (used : client.expire.mux.inUse channel = true) : client.mux.inUse channel = true := by
  unfold expire at used
  split_ifs at used
  · exact used
  · exact used
  · simp only [ChannelMux.inUse_iff, ChannelMux.closeAll, not_mem_nil, false_and, exists_false,
      false_or, mem_append, mem_map] at used
    rw [ChannelMux.inUse_iff]
    exact used

structure Sound (client : NodeLinkClient) : Prop where
  linked : client.connected = true → client.socket = true
  distinct : (client.mux.channels.map (·.channel)).Nodup
  unanswered : ∀ entry ∈ client.mux.channels, entry.pending = none ∨ entry.resumeKey = none
  waiting : client.connected = false →
    ∀ entry ∈ client.mux.channels, entry.suspended = true ∧ entry.pending = none

theorem sound_start : start.Sound :=
  ⟨fun connected => (by cases connected), .nil, fun entry inside => (by cases inside),
    fun _ entry inside => (by cases inside)⟩

variable {client : NodeLinkClient}

theorem Sound.fewer (sound : client.Sound) {mux : ChannelMux}
    (numbers : (mux.channels.map (·.channel)).Sublist (client.mux.channels.map (·.channel)))
    (fewer : ∀ entry ∈ mux.channels, ∃ old ∈ client.mux.channels, entry.channel = old.channel ∧
      entry.suspended = old.suspended ∧ (entry.pending = none ∨ entry = old)) :
    Sound { client with mux } := by
  refine ⟨sound.linked, sound.distinct.sublist numbers, ?_, ?_⟩
  · intro entry inside
    obtain ⟨old, isOld, -, -, answered | rfl⟩ := fewer entry inside
    · exact .inl answered
    · exact sound.unanswered entry isOld
  · intro down entry inside
    obtain ⟨old, isOld, -, suspended, answered | rfl⟩ := fewer entry inside
    · exact ⟨suspended.trans (sound.waiting down old isOld).1, answered⟩
    · exact sound.waiting down entry isOld

theorem Sound.finish (sound : client.Sound) (channel : Nat) :
    Sound { client with mux := client.mux.finish channel } := by
  apply sound.fewer (ChannelMux.finish_sublist _ _)
  intro entry inside
  exact ⟨entry, (ChannelMux.mem_finish.mp inside).1, rfl, rfl, .inr rfl⟩

theorem Sound.onReady (sound : client.Sound) (socket : client.socket = true) (ready : LinkReady) :
    (client.onReady ready).Sound := by
  refine ⟨fun _ => socket, ?_, ?_, fun down => (by cases down)⟩
  · have kept := filter_sublist (p := ChannelMux.stays ready.resumed) (l := client.mux.channels)
    simpa [NodeLinkClient.onReady, ChannelMux.resumeGeneration, Function.comp_def] using
      sound.distinct.sublist (kept.map _)
  intro entry inside
  obtain ⟨old, isOld, rfl⟩ := mem_map.mp inside
  exact sound.unanswered old (mem_of_mem_filter isOld)

theorem Sound.open (sound : client.Sound) (connected : client.connected = true) (channel : Nat)
    (family : FleetLinkFamily) (requestId : Utf16) (declines : Option FleetLinkErrorCode) :
    Sound { client with mux := (client.mux.open channel family requestId declines).1 } := by
  refine ⟨sound.linked, ?_, ?_, fun down => (by rw [connected] at down; cases down)⟩
  · exact ChannelMux.open_distinct sound.distinct
  intro entry inside
  simp only [ChannelMux.open] at inside
  split_ifs at inside
  · exact sound.unanswered entry inside
  · exact sound.unanswered entry inside
  · cases declines with
    | some code => exact sound.unanswered entry inside
    | none =>
      rcases mem_append.mp inside with before | last
      · exact sound.unanswered entry before
      · rw [mem_singleton.mp last]
        exact .inr rfl

theorem Sound.onControl (sound : client.Sound) (socket : client.socket = true) (message : PlatformMessage)
    (declines : Option FleetLinkErrorCode) : (client.onControl message declines).1.Sound := by
  cases connected : client.connected with
  | true =>
    cases message with
    | channelOpen channel family requestId =>
      simpa [NodeLinkClient.onControl, connected] using sound.open connected channel family requestId declines
    | channelClose channel =>
      simpa [NodeLinkClient.onControl, connected, ChannelMux.closeRemote] using sound.finish channel
    | ready ready => simpa [NodeLinkClient.onControl, connected] using sound
    | other => simpa [NodeLinkClient.onControl, connected] using sound
  | false =>
    cases message with
    | ready ready => simpa [NodeLinkClient.onControl, connected] using sound.onReady socket ready
    | _ => simpa [NodeLinkClient.onControl, connected] using sound

theorem Sound.dropSocket (sound : client.Sound) : client.dropSocket.Sound := by
  have kept : ∀ entry ∈ client.dropSocket.mux.channels,
      entry.suspended = true ∧ entry.pending = none := by
    intro entry inside
    obtain ⟨old, isOld, rfl⟩ := mem_map.mp inside
    obtain ⟨held, keyed⟩ := mem_filter.mp isOld
    refine ⟨rfl, ?_⟩
    rcases sound.unanswered old held with answered | keyless
    · exact answered
    · simp [keyless] at keyed
  refine ⟨fun connected => (by cases connected), ?_, fun entry inside => .inl (kept entry inside).2,
    fun _ => kept⟩
  have keyed := filter_sublist (p := fun entry => entry.resumeKey.isSome) (l := client.mux.channels)
  simpa [NodeLinkClient.dropSocket, ChannelMux.suspend, Function.comp_def] using
    sound.distinct.sublist (keyed.map _)

theorem Sound.expire (sound : client.Sound) : client.expire.Sound := by
  unfold NodeLinkClient.expire
  split_ifs with idle connected
  · exact sound
  · exact ⟨sound.linked, sound.distinct, sound.unanswered, sound.waiting⟩
  · exact ⟨sound.linked, .nil, fun entry inside => (by cases inside),
      fun _ entry inside => (by cases inside)⟩

end NodeLinkClient

end EverWorks.Fleet
