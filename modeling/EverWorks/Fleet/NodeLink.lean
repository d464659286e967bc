import EverWorks.Fleet.ChannelMux
import EverWorks.Lib.Run

/-!
The platform's registry, one node and the socket between them. A socket carries frames in order until it
drops, which loses what is in flight; either end notices the drop when it notices it.
-/

namespace EverWorks.Fleet

open Lib FleetLinkRegistry

inductive WirePhase where
  /-- The platform has not read the hello. -/
  | greeting
  /-- The hello is being checked, and frames after it are ignored. -/
  | authenticating
  | accepted
  deriving DecidableEq

structure Wire where
  /-- The hello that was sent on this socket. -/
  hello : LinkHello
  phase : WirePhase
  toPlatform : List NodeMessage
  toNode : List PlatformMessage
  deriving DecidableEq

structure NodeLink where
  registry : FleetLinkRegistry
  client : NodeLinkClient
  /-- The node's socket while it is up. -/
  wire : Option Wire
  deriving DecidableEq

inductive LinkEvent where
  | connect (consents : FleetConsents)
  | breaks
  | nodeDrops
  | nodeExpires
  | nodeCloses (channel : Nat)
  | nodeOpened (channel : Nat) (result : Except FleetLinkErrorCode (Option Utf16))
  | nodeSays
  | nodeReceives (declines : Option FleetLinkErrorCode)
  | platformReceives
  | platformAccepts
  | platformDrops (keepForResume : Bool)
  | platformExpires
  | platformOpens (family : FleetLinkFamily) (consent : FleetLinkConsentRequirement) (requestId : Utf16)
      (sent : Bool)
  | platformCloses (channel : Nat) (sent : Bool)
  | platformRestarts

namespace NodeLink

def start : NodeLink := ⟨.empty, .start, none⟩

def tellPlatform (link : NodeLink) (messages : List NodeMessage) : NodeLink :=
  { link with wire := link.wire.map fun wire => { wire with toPlatform := wire.toPlatform ++ messages } }

/-- The platform sends on the link it holds: a link on an earlier socket sends into the void. -/
def tellNode (link : NodeLink) (messages : List PlatformMessage) : NodeLink :=
  { link with
    wire := link.wire.map fun wire =>
      if wire.phase = .accepted then { wire with toNode := wire.toNode ++ messages } else wire }

def platformDrops (link : NodeLink) (keepForResume : Bool) : NodeLink :=
  { link with
    registry := link.registry.drop keepForResume
    wire := link.wire.filter fun wire => wire.phase != .accepted }

def platformReceives (link : NodeLink) : NodeLink :=
  match link.wire with
  | none => link
  | some wire =>
    match wire.toPlatform with
    | [] => link
    | message :: rest =>
      let link := { link with wire := some { wire with toPlatform := rest } }
      match wire.phase with
      | .greeting =>
        match message with
        | .hello _ => { link with wire := some { wire with toPlatform := rest, phase := .authenticating } }
        | _ => link
      | .authenticating => link
      | .accepted =>
        let (registry, answer) := link.registry.receive message
        { link with registry }.tellNode answer

def platformAccepts (link : NodeLink) : NodeLink :=
  match link.wire with
  | none => link
  | some wire =>
    if wire.phase = .authenticating then
      let (registry, ready, _) := link.registry.accept wire.hello
      { link with registry, wire := some { wire with phase := .accepted } }.tellNode [.ready ready]
    else link

def arriving (link : NodeLink) : Option PlatformMessage := link.wire.bind fun wire => wire.toNode.head?

def nodeReceives (link : NodeLink) (declines : Option FleetLinkErrorCode) : NodeLink :=
  match link.wire with
  | none => link
  | some wire =>
    match wire.toNode with
    | [] => link
    | message :: rest =>
      let (client, answer) := link.client.onControl message declines
      { link with client, wire := some { wire with toNode := rest } }.tellPlatform answer

def step (link : NodeLink) : LinkEvent → NodeLink
  | .connect consents =>
    if link.client.socket then link
    else
      let hello := link.client.hello consents
      { link with
        client := { link.client with socket := true }
        wire := some ⟨hello, .greeting, [.hello hello], []⟩ }
  | .breaks => { link with wire := none }
  | .nodeDrops =>
    if link.client.socket then { link with client := link.client.dropSocket, wire := none } else link
  | .nodeExpires => { link with client := link.client.expire }
  | .nodeCloses channel =>
    let (mux, message) := link.client.mux.closeLocal channel
    { link with client := { link.client with mux } }.tellPlatform message
  | .nodeOpened channel result =>
    let (mux, answer) := link.client.mux.opened channel result
    { link with client := { link.client with mux } }.tellPlatform answer
  | .nodeSays => link.tellPlatform [.other]
  | .nodeReceives declines => link.nodeReceives declines
  | .platformReceives => link.platformReceives
  | .platformAccepts => link.platformAccepts
  | .platformDrops keepForResume => link.platformDrops keepForResume
  | .platformExpires => { link with registry := link.registry.expireOrphan }
  | .platformOpens family consent requestId sent =>
    let (registry, message) := link.registry.openChannel family consent requestId sent
    { link with registry }.tellNode message
  | .platformCloses channel sent =>
    let (registry, message) := link.registry.closeChannel channel sent
    { link with registry }.tellNode message
  | .platformRestarts => { link with registry := .empty, wire := none }

theorem platformReceives_cases (link : NodeLink) :
    link.platformReceives = link ∨
      ∃ wire message rest, link.wire = some wire ∧ wire.toPlatform = message :: rest ∧
        ((wire.phase ≠ .accepted ∧ ∃ phase, phase ≠ .accepted ∧
            link.platformReceives = { link with wire := some { wire with toPlatform := rest, phase } }) ∨
          wire.phase = .accepted ∧ link.platformReceives =
            { link with
              registry := (link.registry.receive message).1
              wire := some
                { wire with
                  toPlatform := rest
                  toNode := wire.toNode ++ (link.registry.receive message).2 } }) := by
  cases up : link.wire with
  | none => exact .inl (by rw [platformReceives, up])
  | some wire =>
    cases queue : wire.toPlatform with
    | nil => exact .inl (by simp [platformReceives, up, queue])
    | cons message rest =>
      refine .inr ⟨wire, message, rest, rfl, queue, ?_⟩
      cases phase : wire.phase with
      | greeting =>
        refine .inl ⟨by simp, ?_⟩
        cases message with
        | hello hello =>
          exact ⟨.authenticating, by simp, by simp [platformReceives, up, queue, phase]⟩
        | _ => exact ⟨.greeting, by simp, by simp [platformReceives, up, queue, phase]⟩
      | authenticating =>
        exact .inl ⟨by simp, .authenticating, by simp, by simp [platformReceives, up, queue, phase]⟩
      | accepted =>
        exact .inr ⟨rfl, by simp [platformReceives, up, queue, phase, tellNode]⟩

theorem platformAccepts_cases (link : NodeLink) :
    link.platformAccepts = link ∨
      ∃ wire, link.wire = some wire ∧ wire.phase = .authenticating ∧
        link.platformAccepts =
          { link with
            registry := (link.registry.accept wire.hello).1
            wire := some
              { wire with
                phase := .accepted
                toNode := wire.toNode ++ [.ready (link.registry.accept wire.hello).2.1] } } := by
  cases up : link.wire with
  | none => exact .inl (by rw [platformAccepts, up])
  | some wire =>
    by_cases phase : wire.phase = .authenticating
    · exact .inr ⟨wire, rfl, phase, by simp [platformAccepts, up, phase, tellNode]⟩
    · exact .inl (by simp [platformAccepts, up, phase])

theorem nodeReceives_cases (link : NodeLink) (declines : Option FleetLinkErrorCode) :
    link.nodeReceives declines = link ∨
      ∃ wire message rest, link.wire = some wire ∧ wire.toNode = message :: rest ∧
        link.nodeReceives declines =
          { link with
            client := (link.client.onControl message declines).1
            wire := some
              { wire with
                toNode := rest
                toPlatform := wire.toPlatform ++ (link.client.onControl message declines).2 } } := by
  cases up : link.wire with
  | none => exact .inl (by rw [nodeReceives, up])
  | some wire =>
    cases queue : wire.toNode with
    | nil => exact .inl (by simp [nodeReceives, up, queue])
    | cons message rest =>
      exact .inr ⟨wire, message, rest, rfl, queue, by simp [nodeReceives, up, queue, tellPlatform]⟩

theorem arriving_of_wire {link : NodeLink} {wire : Wire} {message : PlatformMessage}
    {rest : List PlatformMessage} (up : link.wire = some wire) (queue : wire.toNode = message :: rest) :
    link.arriving = some message := by
  simp [arriving, up, queue]

theorem wire_of_arriving {link : NodeLink} {message : PlatformMessage}
    (next : link.arriving = some message) :
    ∃ wire rest, link.wire = some wire ∧ wire.toNode = message :: rest := by
  obtain ⟨wire, up, first⟩ := Option.bind_eq_some_iff.mp next
  obtain ⟨rest, queue⟩ := List.head?_eq_some_iff.mp first
  exact ⟨wire, rest, up, queue⟩

structure Sound (link : NodeLink) : Prop where
  client : link.client.Sound
  plugged : link.wire.isSome = true → link.client.socket = true

theorem sound_start : start.Sound := ⟨NodeLinkClient.sound_start, fun up => (by cases up)⟩

variable {link : NodeLink}

theorem Sound.tellPlatform (sound : link.Sound) (messages : List NodeMessage) :
    (link.tellPlatform messages).Sound :=
  ⟨sound.client, by simpa [NodeLink.tellPlatform] using sound.plugged⟩

theorem Sound.tellNode (sound : link.Sound) (messages : List PlatformMessage) :
    (link.tellNode messages).Sound :=
  ⟨sound.client, by simpa [NodeLink.tellNode] using sound.plugged⟩

theorem Sound.step (sound : link.Sound) (event : LinkEvent) : (link.step event).Sound := by
  cases event with
  | connect consents =>
    cases socket : link.client.socket with
    | true => simpa [NodeLink.step, socket] using sound
    | false =>
      refine ⟨⟨?_, ?_, ?_, ?_⟩, ?_⟩
      · intro connected
        simpa [NodeLink.step, socket] using connected
      all_goals simp [NodeLink.step, socket]
      · exact sound.client.distinct
      · exact sound.client.unanswered
      · intro down entry inside
        exact sound.client.waiting down entry inside
  | breaks => exact ⟨sound.client, fun up => (by cases up)⟩
  | nodeDrops =>
    by_cases socket : link.client.socket = true
    · rw [NodeLink.step, if_pos socket]
      exact ⟨sound.client.dropSocket, fun up => (by cases up)⟩
    · rw [NodeLink.step, if_neg socket]
      exact sound
  | nodeExpires =>
    refine ⟨sound.client.expire, ?_⟩
    intro up
    have socket := sound.plugged up
    simp only [NodeLink.step, NodeLinkClient.expire]
    split_ifs <;> exact socket
  | nodeCloses channel =>
    rw [NodeLink.step]
    apply Sound.tellPlatform
    exact ⟨sound.client.finish channel, sound.plugged⟩
  | nodeOpened channel result =>
    rw [NodeLink.step]
    apply Sound.tellPlatform
    exact ⟨sound.client.fewer (ChannelMux.opened_sublist _ _ _) fun _ => ChannelMux.mem_opened,
      sound.plugged⟩
  | nodeSays => exact sound.tellPlatform _
  | nodeReceives declines =>
    obtain unchanged | ⟨wire, message, rest, up, -, received⟩ := link.nodeReceives_cases declines
    · rw [NodeLink.step, unchanged]
      exact sound
    · have socket : link.client.socket = true := sound.plugged (by rw [up]; rfl)
      rw [NodeLink.step, received]
      exact ⟨sound.client.onControl socket message declines,
        fun _ => (NodeLinkClient.onControl_socket _ _ _).trans socket⟩
  | platformReceives =>
    obtain unchanged | ⟨wire, message, rest, up, -, ⟨-, phase, -, received⟩ | ⟨-, received⟩⟩ :=
      link.platformReceives_cases
    · rw [NodeLink.step, unchanged]
      exact sound
    · rw [NodeLink.step, received]
      exact ⟨sound.client, fun _ => sound.plugged (by rw [up]; rfl)⟩
    · rw [NodeLink.step, received]
      exact ⟨sound.client, fun _ => sound.plugged (by rw [up]; rfl)⟩
  | platformAccepts =>
    obtain unchanged | ⟨wire, up, -, accepted⟩ := link.platformAccepts_cases
    · rw [NodeLink.step, unchanged]
      exact sound
    · rw [NodeLink.step, accepted]
      exact ⟨sound.client, fun _ => sound.plugged (by rw [up]; rfl)⟩
  | platformDrops keepForResume =>
    refine ⟨sound.client, ?_⟩
    intro up
    cases there : link.wire with
    | none => simp [NodeLink.step, platformDrops, there] at up
    | some wire => exact sound.plugged (by rw [there]; rfl)
  | platformExpires => exact ⟨sound.client, sound.plugged⟩
  | platformOpens family consent requestId sent =>
    rw [NodeLink.step]
    apply Sound.tellNode
    exact ⟨sound.client, sound.plugged⟩
  | platformCloses channel sent =>
    rw [NodeLink.step]
    apply Sound.tellNode
    exact ⟨sound.client, sound.plugged⟩
  | platformRestarts => exact ⟨sound.client, fun up => (by cases up)⟩

end NodeLink

end EverWorks.Fleet
