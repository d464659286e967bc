import EverWorks.Fleet.LinkTypes

/-!
What the platform keeps of a node: the link it holds, the generation it last issued or heard of, and the
channels of a dropped link that wait for a reconnect.
-/

namespace EverWorks.Fleet
open List

open Lib

/-- A channel as a hello offers it. -/
structure OfferedChannel where
  channel : Nat
  family : FleetLinkFamily
  resumeKey : Option Utf16
  deriving DecidableEq

structure OfferedResume where
  linkGeneration : Nat
  channels : List OfferedChannel
  deriving DecidableEq

structure LinkHello where
  consents : FleetConsents
  resume : Option OfferedResume
  deriving DecidableEq

structure LinkReady where
  linkGeneration : Nat
  resumed : List Nat
  closed : List Nat
  deriving DecidableEq

inductive NodeMessage where
  | hello (hello : LinkHello)
  | channelReady (channel : Nat) (requestId : Utf16) (resumeKey : Option Utf16)
  | channelRefused (channel : Nat) (requestId : Utf16) (code : FleetLinkErrorCode)
  | channelClose (channel : Nat)
  /-- Anything else: a ping, an operation's progress, a frame on a channel. -/
  | other
  deriving DecidableEq

inductive PlatformMessage where
  | ready (ready : LinkReady)
  | channelOpen (channel : Nat) (family : FleetLinkFamily) (requestId : Utf16)
  | channelClose (channel : Nat)
  | other
  deriving DecidableEq

inductive ChannelState where
  /-- Until the node answers this request. -/
  | opening (requestId : Utf16)
  | «open»
  | suspended
  deriving DecidableEq

structure ChannelEntry where
  channel : Nat
  family : FleetLinkFamily
  consent : FleetLinkConsentRequirement
  state : ChannelState
  resumeKey : Option Utf16
  deriving DecidableEq

structure LinkEntry where
  generation : Nat
  channels : List ChannelEntry
  retired : List Nat
  nextChannel : Nat
  /-- The generation this link's hello resumed from. -/
  resumedFrom : Option Nat
  /-- Some frame arrived on this link. -/
  heard : Bool
  deriving DecidableEq

structure Orphan where
  generation : Nat
  alsoGeneration : Option Nat
  channels : List ChannelEntry
  deriving DecidableEq

structure FleetLinkRegistry where
  link : Option LinkEntry
  /-- `generations.get(nodeId) ?? 0` -/
  generations : Nat
  unconfirmedFrom : Option Nat
  orphan : Option Orphan
  deriving DecidableEq

def FleetLinkRegistry.empty : FleetLinkRegistry := ⟨none, 0, none, none⟩

theorem countP_lt_of_mem {numbers : List Nat} {channel : Nat} (inside : channel ∈ numbers) :
    (numbers.countP fun n => channel + 1 ≤ n) < numbers.countP fun n => channel ≤ n := by
  induction numbers with
  | nil => cases inside
  | cons first rest ih =>
    have le : (rest.countP fun n => channel + 1 ≤ n) ≤ rest.countP fun n => channel ≤ n := by
      apply countP_mono_left
      intro n _ above
      simp only [decide_eq_true_eq] at above ⊢
      omega
    rw [countP_cons, countP_cons]
    rcases mem_cons.mp inside with rfl | later
    · simp only [decide_eq_true_eq]
      split_ifs <;> omega
    · have lt := ih later
      simp only [decide_eq_true_eq]
      split_ifs <;> omega

namespace LinkEntry

def entry (link : LinkEntry) (channel : Nat) : Option ChannelEntry :=
  link.channels.find? fun entry => entry.channel == channel

def finish (link : LinkEntry) (channel : Nat) : LinkEntry :=
  { link with
    channels := link.channels.filter fun entry => entry.channel != channel
    retired := channel :: link.retired }

def taken (link : LinkEntry) (channel : Nat) : Bool :=
  (link.entry channel).isSome || link.retired.contains channel

/-- The loop of `allocate`. A link has at most that many numbers taken, so the bound is never reached. -/
def firstFree (link : LinkEntry) : Nat → Nat → Nat
  | 0, channel => channel
  | bound + 1, channel => if link.taken channel then firstFree link bound (channel + 1) else channel

def allocate (link : LinkEntry) : Option Nat :=
  let channel := link.firstFree (link.channels.length + link.retired.length) link.nextChannel
  if fleetLinkMaxChannelNumber < channel then none else some channel

def opening (link : LinkEntry) (channel : Nat) (family : FleetLinkFamily)
    (consent : FleetLinkConsentRequirement) (requestId : Utf16) : LinkEntry :=
  { link with
    channels := link.channels ++ [⟨channel, family, consent, .opening requestId, none⟩]
    nextChannel := channel + 1 }

/-- `openChannel` up to the node's answer: the number and the table. -/
def openChannel (link : LinkEntry) (family : FleetLinkFamily) (consent : FleetLinkConsentRequirement)
    (requestId : Utf16) : Option (Nat × LinkEntry) :=
  if fleetLinkMaxChannels ≤ link.channels.length then none
  else link.allocate.map fun channel => (channel, link.opening channel family consent requestId)

def awaiting (link : LinkEntry) (channel : Nat) (requestId : Utf16) : Option ChannelEntry :=
  (link.entry channel).filter fun entry => entry.state == .opening requestId

def opened (link : LinkEntry) (channel : Nat) (resumeKey : Option Utf16) : LinkEntry :=
  { link with
    channels := link.channels.map fun entry =>
      if entry.channel = channel then
        { entry with state := .open, resumeKey := resumeKey.or entry.resumeKey }
      else entry }

/-- `receive` and `onControl`: the table after a message, and what the node is told. -/
def receive (link : LinkEntry) (message : NodeMessage) : LinkEntry × List PlatformMessage :=
  let link := { link with heard := true }
  match message with
  | .channelReady channel requestId resumeKey =>
    match link.awaiting channel requestId with
    | some _ => (link.opened channel resumeKey, [])
    | none => (link, if (link.entry channel).isNone then [.channelClose channel] else [])
  | .channelRefused channel requestId _ =>
    match link.awaiting channel requestId with
    | some _ => (link.finish channel, [])
    | none => (link, [])
  | .channelClose channel =>
    match link.entry channel with
    | some _ => (link.finish channel, [])
    | none => (link, [])
  | .hello _ | .other => (link, [])

@[simp] theorem finish_generation (link : LinkEntry) (channel : Nat) :
    (link.finish channel).generation = link.generation := rfl

@[simp] theorem finish_resumedFrom (link : LinkEntry) (channel : Nat) :
    (link.finish channel).resumedFrom = link.resumedFrom := rfl

@[simp] theorem finish_heard (link : LinkEntry) (channel : Nat) :
    (link.finish channel).heard = link.heard := rfl

@[simp] theorem finish_nextChannel (link : LinkEntry) (channel : Nat) :
    (link.finish channel).nextChannel = link.nextChannel := rfl

variable {link : LinkEntry}

theorem entry_channel {channel : Nat} {entry : ChannelEntry}
    (found : link.entry channel = some entry) : entry ∈ link.channels ∧ entry.channel = channel :=
  ⟨mem_of_find?_eq_some found, by simpa using find?_some found⟩

theorem entry_finish {closed channel : Nat} (other : channel ≠ closed) :
    (link.finish closed).entry channel = link.entry channel := by
  simp only [finish, entry, find?_filter]
  apply congrArg (fun test => link.channels.find? test)
  funext held
  by_cases this : held.channel = channel
  · simp [this, other]
  · simp [this]

theorem entry_opening {channel opens : Nat} {family : FleetLinkFamily}
    {consent : FleetLinkConsentRequirement} {requestId : Utf16} (other : channel ≠ opens) :
    (link.opening opens family consent requestId).entry channel = link.entry channel := by
  simp [opening, entry, find?_append, Ne.symm other]

theorem firstFree_free {numbers : List Nat}
    (taken : ∀ n, link.taken n = true ↔ n ∈ numbers) (bound channel : Nat)
    (enough : (numbers.filter fun n => channel ≤ n).length ≤ bound) :
    link.firstFree bound channel ∉ numbers := by
  induction bound generalizing channel with
  | zero =>
    intro inside
    have isIn : channel ∈ numbers.filter fun n => channel ≤ n := by simpa [firstFree] using inside
    have := length_pos_of_mem isIn
    omega
  | succ bound ih =>
    unfold firstFree
    split
    case isTrue isTaken =>
      apply ih
      have inside := (taken channel).mp isTaken
      have fewer : (numbers.filter fun n => channel + 1 ≤ n).length <
          (numbers.filter fun n => channel ≤ n).length := by
        rw [← countP_eq_length_filter, ← countP_eq_length_filter]
        exact countP_lt_of_mem inside
      omega
    case isFalse free =>
      exact fun inside => free ((taken channel).mpr inside)

theorem allocate_free {channel : Nat} (h : link.allocate = some channel) :
    link.entry channel = none ∧ channel ∉ link.retired := by
  have taken : ∀ n, link.taken n = true ↔ n ∈ link.channels.map (·.channel) ++ link.retired := by
    intro n
    simp [LinkEntry.taken, entry]
  simp only [allocate, Option.ite_none_left_eq_some, Option.some.injEq] at h
  have free := firstFree_free taken (link.channels.length + link.retired.length) link.nextChannel (by
    have := length_filter_le (fun n => decide (link.nextChannel ≤ n))
      (link.channels.map (·.channel) ++ link.retired)
    simpa using this)
  rw [h.2, mem_append, not_or] at free
  refine ⟨?_, free.2⟩
  cases found : link.entry channel with
  | none => rfl
  | some held =>
    obtain ⟨inside, same⟩ := entry_channel found
    exact absurd (mem_map.mpr ⟨held, inside, same⟩) free.1

theorem receive_resumedFrom (link : LinkEntry) (message : NodeMessage) :
    (link.receive message).1.resumedFrom = link.resumedFrom := by
  cases message <;> simp only [receive] <;> try split
  all_goals rfl

theorem receive_heard (link : LinkEntry) (message : NodeMessage) :
    (link.receive message).1.heard = true := by
  cases message <;> simp only [receive] <;> try split
  all_goals rfl

end LinkEntry

def ChannelEntry.kept (entry : ChannelEntry) : Bool :=
  entry.state == .open && entry.resumeKey.isSome

namespace FleetLinkRegistry

def alsoGeneration (link : LinkEntry) : Option Nat := if link.heard then none else link.resumedFrom

def drop (registry : FleetLinkRegistry) (keepForResume : Bool) : FleetLinkRegistry :=
  match registry.link with
  | none => registry
  | some link =>
    let keep := (if keepForResume then link.channels.filter (·.kept) else []).map
      fun entry => { entry with state := .suspended }
    { registry with
      link := none
      unconfirmedFrom := alsoGeneration link
      orphan := if keep.isEmpty then registry.orphan
        else some ⟨link.generation, alsoGeneration link, keep⟩ }

def offerOf (offers : List OfferedChannel) (channel : Nat) : Option OfferedChannel :=
  offers.reverse.find? fun offer => offer.channel == channel

def offers (hello : LinkHello) : List OfferedChannel :=
  match hello.resume with
  | some resume => resume.channels
  | none => []

def presented (hello : LinkHello) : Option Nat := hello.resume.map (·.linkGeneration)

def sameChannel (orphan : Orphan) (hello : LinkHello) (entry : ChannelEntry) : Bool :=
  match presented hello, offerOf (offers hello) entry.channel with
  | some generation, some offer =>
    (generation == orphan.generation || some generation == orphan.alsoGeneration) &&
      offer.family == entry.family && offer.resumeKey == entry.resumeKey
  | _, _ => false

def resumes (orphan : Orphan) (hello : LinkHello) (entry : ChannelEntry) : Bool :=
  sameChannel orphan hello entry && fleetConsentSatisfies hello.consents entry.consent

def orphanChannels (registry : FleetLinkRegistry) : List ChannelEntry :=
  match registry.orphan with
  | some orphan => orphan.channels
  | none => []

def resumedEntries (registry : FleetLinkRegistry) (hello : LinkHello) : List ChannelEntry :=
  match registry.orphan with
  | some orphan => (orphan.channels.filter (resumes orphan hello)).map
      fun entry => { entry with state := .open }
  | none => []

def closedChannels (registry : FleetLinkRegistry) (hello : LinkHello) : List Nat :=
  let offered := ((offers hello).map (·.channel)).eraseDups
  let resumed := (registry.resumedEntries hello).map (·.channel)
  let held := registry.orphanChannels.map (·.channel)
  (held.filter fun channel => offered.contains channel && !resumed.contains channel) ++
    offered.filter fun channel => !held.contains channel

def nextChannelAfter (resumed : List Nat) : Nat :=
  if resumed.isEmpty then 1 else resumed.foldr max 0 + 1

def continued (registry : FleetLinkRegistry) (hello : LinkHello) : Bool :=
  match presented hello with
  | none => false
  | some generation =>
    registry.generations == 0 || registry.generations ≤ generation ||
      registry.unconfirmedFrom == some generation

/-- What `accept` does once the older link is gone. -/
def acceptNew (registry : FleetLinkRegistry) (hello : LinkHello) :
    FleetLinkRegistry × LinkReady × Bool :=
  let generation := max registry.generations ((presented hello).getD 0) + 1
  let entries := registry.resumedEntries hello
  let resumed := entries.map (·.channel)
  let link : LinkEntry :=
    { generation
      channels := entries
      retired := []
      nextChannel := nextChannelAfter resumed
      resumedFrom := presented hello
      heard := false }
  ({ link := some link, generations := generation, unconfirmedFrom := none, orphan := none },
    ⟨generation, resumed, registry.closedChannels hello⟩, registry.continued hello)

/-- The registry with the new link, the ready it sends first, and whether the process continues. -/
def accept (registry : FleetLinkRegistry) (hello : LinkHello) : FleetLinkRegistry × LinkReady × Bool :=
  (registry.drop true).acceptNew hello

def observeGeneration (registry : FleetLinkRegistry) (generation : Nat) : FleetLinkRegistry :=
  if registry.generations < generation then { registry with generations := generation } else registry

def finishOrphansBelow (registry : FleetLinkRegistry) (generation : Nat) : FleetLinkRegistry :=
  match registry.orphan with
  | some orphan => if generation ≤ orphan.generation then registry else { registry with orphan := none }
  | none => registry

def expireOrphan (registry : FleetLinkRegistry) : FleetLinkRegistry := { registry with orphan := none }

def receive (registry : FleetLinkRegistry) (message : NodeMessage) :
    FleetLinkRegistry × List PlatformMessage :=
  match registry.link with
  | some link => ({ registry with link := some (link.receive message).1 }, (link.receive message).2)
  | none => (registry, [])

/-- `openChannel`; a request the socket does not take ends the channel at once. -/
def openChannel (registry : FleetLinkRegistry) (family : FleetLinkFamily)
    (consent : FleetLinkConsentRequirement) (requestId : Utf16) (sent : Bool) :
    FleetLinkRegistry × List PlatformMessage :=
  match registry.link with
  | none => (registry, [])
  | some link =>
    match link.openChannel family consent requestId with
    | none => (registry, [])
    | some (channel, link) =>
      if sent then ({ registry with link := some link }, [.channelOpen channel family requestId])
      else ({ registry with link := some (link.finish channel) }, [])

def closeChannel (registry : FleetLinkRegistry) (channel : Nat) (sent : Bool) :
    FleetLinkRegistry × List PlatformMessage :=
  match registry.link with
  | none => (registry, [])
  | some link =>
    match link.entry channel with
    | none => (registry, [])
    | some _ =>
      ({ registry with link := some (link.finish channel) }, if sent then [.channelClose channel] else [])

theorem openChannel_cases (registry : FleetLinkRegistry) (family : FleetLinkFamily)
    (consent : FleetLinkConsentRequirement) (requestId : Utf16) (sent : Bool) :
    registry.openChannel family consent requestId sent = (registry, []) ∨
      ∃ link channel, registry.link = some link ∧ link.allocate = some channel ∧
        registry.openChannel family consent requestId sent =
          if sent then
            ({ registry with link := some (link.opening channel family consent requestId) },
              [.channelOpen channel family requestId])
          else
            ({ registry with link := some ((link.opening channel family consent requestId).finish channel) },
              []) := by
  cases there : registry.link with
  | none => exact .inl (by simp [openChannel, there])
  | some link =>
    by_cases full : fleetLinkMaxChannels ≤ link.channels.length
    · exact .inl (by simp [openChannel, there, LinkEntry.openChannel, full])
    · cases allocated : link.allocate with
      | none => exact .inl (by simp [openChannel, there, LinkEntry.openChannel, full, allocated])
      | some channel =>
        refine .inr ⟨link, channel, rfl, allocated, ?_⟩
        simp [openChannel, there, LinkEntry.openChannel, full, allocated]

theorem closeChannel_cases (registry : FleetLinkRegistry) (channel : Nat) (sent : Bool) :
    registry.closeChannel channel sent = (registry, []) ∨
      ∃ link, registry.link = some link ∧
        registry.closeChannel channel sent =
          ({ registry with link := some (link.finish channel) },
            if sent then [.channelClose channel] else []) := by
  cases there : registry.link with
  | none => exact .inl (by simp [closeChannel, there])
  | some link =>
    cases found : link.entry channel with
    | none => exact .inl (by simp [closeChannel, there, found])
    | some entry => exact .inr ⟨link, rfl, by simp [closeChannel, there, found]⟩

end FleetLinkRegistry

end EverWorks.Fleet
