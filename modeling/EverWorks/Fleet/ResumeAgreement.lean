import EverWorks.Fleet.NodeLink

/-!
# A resume leaves both tables in agreement

Between a drop and the next ready the node takes no channel, so what it still holds is what it offered, and the
platform carries over what it matched against the offer, unless an end closes such a channel meanwhile.
-/

namespace EverWorks.Fleet
open List Option NodeLinkClient

open Lib FleetLinkRegistry

def FleetLinkRegistry.entry (registry : FleetLinkRegistry) (channel : Nat) : Option ChannelEntry :=
  registry.link.bind (·.entry channel)

/-- The hello and the ready of a handshake whose ready is the next frame the node receives. -/
def NodeLink.readying (link : NodeLink) : Option (LinkHello × LinkReady) :=
  match link.wire with
  | some ⟨hello, _, _, .ready ready :: _⟩ => if link.client.connected then none else some (hello, ready)
  | _ => none

theorem NodeLink.readying_of_wire {link : NodeLink} {wire : Wire} {ready : LinkReady}
    {rest : List PlatformMessage} (up : link.wire = some wire) (queue : wire.toNode = .ready ready :: rest)
    (down : link.client.connected = false) : link.readying = some (wire.hello, ready) := by
  obtain ⟨hello, phase, toPlatform, toNode⟩ := wire
  obtain rfl : toNode = .ready ready :: rest := queue
  simp [NodeLink.readying, up, down]

theorem NodeLink.wire_of_readying {link : NodeLink} {hello : LinkHello} {ready : LinkReady}
    (next : link.readying = some (hello, ready)) :
    ∃ wire rest, link.wire = some wire ∧ wire.hello = hello ∧ wire.toNode = .ready ready :: rest ∧
      link.client.connected = false := by
  unfold NodeLink.readying at next
  split at next
  case h_1 sent phase toPlatform first rest up =>
    split at next
    case isTrue => cases next
    case isFalse down =>
      simp only [some.injEq, Prod.mk.injEq] at next
      obtain ⟨rfl, rfl⟩ := next
      exact ⟨_, rest, up, rfl, rfl, by simpa using down⟩
  case h_2 => cases next

def SameChannel (held : MuxEntry) (entry : ChannelEntry) : Prop :=
  entry.state = .open ∧ entry.family = held.family ∧ entry.resumeKey = held.resumeKey

/-- What the ready carried over is held by both ends, and neither holds anything else open. -/
structure Agree (resumed : List Nat) (link : NodeLink) : Prop where
  carried : ∀ n ∈ resumed, ∃ held ∈ link.client.mux.channels, held.channel = n ∧
    held.suspended = false ∧ ∃ entry, link.registry.entry n = some entry ∧ SameChannel held entry
  on_node : ∀ held ∈ link.client.mux.channels, held.suspended = false →
    ∃ entry, link.registry.entry held.channel = some entry ∧ entry.state = .open
  on_platform : ∀ n entry, link.registry.entry n = some entry → entry.state = .open →
    ∃ held ∈ link.client.mux.channels, held.channel = n ∧ held.suspended = false

def ReadyAgrees (link : NodeLink) : LinkEvent → Prop
  | .nodeReceives declines =>
    match link.readying with
    | some (_, ready) => Agree ready.resumed (link.nodeReceives declines)
    | none => True
  | _ => True

/-- When a ready is processed the node still holds what its hello offered, and the platform closed nothing
it carried over before that. -/
def ClosesNoneMeanwhile (link : NodeLink) : LinkEvent → Prop
  | .nodeReceives _ =>
    match link.readying with
    | some (hello, _) => ∀ offer ∈ offers hello, link.client.mux.has offer.channel = true
    | none => True
  | .platformCloses channel _ =>
    match link.readying with
    | some (_, ready) => channel ∉ ready.resumed
    | none => True
  | _ => True

def Early (mux : ChannelMux) : NodeMessage → Prop
  | .hello _ | .other => True
  | .channelClose channel => mux.has channel = false
  | .channelReady .. | .channelRefused .. => False

def Truthful (offers : List OfferedChannel) (mux : ChannelMux) : Prop :=
  ∀ offer ∈ offers, ∀ held ∈ mux.channels, held.channel = offer.channel →
    offer.family = held.family ∧ offer.resumeKey = held.resumeKey

/-- A link whose ready is on its way: its open channels are those carried over, as the node holds them. -/
structure Carries (link : LinkEntry) (resumed : List Nat) (hello : LinkHello) (mux : ChannelMux) : Prop where
  offered : ∀ n ∈ resumed, ∃ offer ∈ offers hello, offer.channel = n
  carried : ∀ n ∈ resumed, ∀ held ∈ mux.channels, held.channel = n →
    ∃ entry, link.entry n = some entry ∧ SameChannel held entry
  only : ∀ entry ∈ link.channels, entry.state = .open → entry.channel ∈ resumed

inductive ResumesOn (registry : FleetLinkRegistry) (client : NodeLinkClient) (wire : Wire) : Prop where
  | greeting (phase : wire.phase ≠ .accepted) (down : client.connected = false)
      (silent : wire.toNode = []) (early : ∀ message ∈ wire.toPlatform, Early client.mux message)
      (truthful : Truthful (offers wire.hello) client.mux)
  | readying (entry : LinkEntry) (ready : LinkReady) (rest : List PlatformMessage)
      (phase : wire.phase = .accepted) (holds : registry.link = some entry)
      (down : client.connected = false) (queue : wire.toNode = .ready ready :: rest)
      (early : ∀ message ∈ wire.toPlatform, Early client.mux message)
      (carries : Carries entry ready.resumed wire.hello client.mux)
  | connected (phase : wire.phase = .accepted) (up : client.connected = true)

structure Resumes (link : NodeLink) : Prop where
  snapshot : link.client.connected = false → Truthful link.client.resumeChannels link.client.mux
  on_wire : ∀ wire, link.wire = some wire → ResumesOn link.registry link.client wire

def Shrinks (mux mux' : ChannelMux) : Prop := ∀ held ∈ mux'.channels, held ∈ mux.channels

theorem shrinks_finish (mux : ChannelMux) (channel : Nat) : Shrinks mux (mux.finish channel) :=
  fun _ inside => (ChannelMux.mem_finish.mp inside).1

theorem has_finish (mux : ChannelMux) (channel : Nat) : (mux.finish channel).has channel = false := by
  rw [Bool.eq_false_iff]
  intro there
  obtain ⟨held, inside, same⟩ := ChannelMux.has_iff.mp there
  exact (ChannelMux.mem_finish.mp inside).2 same

theorem NodeLinkClient.shrinks_expire (client : NodeLinkClient) : Shrinks client.mux client.expire.mux := by
  unfold expire
  split_ifs
  · exact fun _ => id
  · exact fun _ => id
  · exact fun held inside => (by cases inside)

variable {channel : Nat}

theorem Shrinks.has {mux mux' : ChannelMux} (shrinks : Shrinks mux mux')
    (gone : mux.has channel = false) : mux'.has channel = false := by
  rw [Bool.eq_false_iff] at gone ⊢
  intro there
  obtain ⟨held, inside, same⟩ := ChannelMux.has_iff.mp there
  exact gone (ChannelMux.has_iff.mpr ⟨held, shrinks held inside, same⟩)

theorem Early.shrink {mux mux' : ChannelMux} (shrinks : Shrinks mux mux') {message : NodeMessage}
    (early : Early mux message) : Early mux' message := by
  cases message with
  | channelClose channel => exact shrinks.has early
  | channelReady => exact early
  | channelRefused => exact early
  | hello => trivial
  | other => trivial

theorem Truthful.shrink {mux mux' : ChannelMux} {offers : List OfferedChannel} (shrinks : Shrinks mux mux')
    (truthful : Truthful offers mux) : Truthful offers mux' :=
  fun offer offered held inside => truthful offer offered held (shrinks held inside)

theorem NodeLinkClient.truthful_expire {client : NodeLinkClient}
    (truthful : Truthful client.resumeChannels client.mux) :
    Truthful client.expire.resumeChannels client.expire.mux := by
  unfold expire
  split_ifs
  · exact truthful
  · exact truthful
  · exact fun offer offered => (by cases offered)

theorem Carries.shrink {link : LinkEntry} {resumed : List Nat} {hello : LinkHello} {mux mux' : ChannelMux}
    (shrinks : Shrinks mux mux') (carries : Carries link resumed hello mux) :
    Carries link resumed hello mux' :=
  ⟨carries.offered, fun n isResumed held inside => carries.carried n isResumed held (shrinks held inside),
    carries.only⟩

variable {registry : FleetLinkRegistry}

theorem ResumesOn.nodeShrinks {client client' : NodeLinkClient} {wire : Wire}
    (resumes : ResumesOn registry client wire) (connected : client'.connected = client.connected)
    (shrinks : client.connected = false → Shrinks client.mux client'.mux) {messages : List NodeMessage}
    (early : client.connected = false → ∀ message ∈ messages, Early client'.mux message) :
    ResumesOn registry client' { wire with toPlatform := wire.toPlatform ++ messages } := by
  have queued : client.connected = false → (∀ message ∈ wire.toPlatform, Early client.mux message) →
      ∀ message ∈ wire.toPlatform ++ messages, Early client'.mux message := by
    intro down before message inside
    rcases mem_append.mp inside with earlier | later
    · exact (before message earlier).shrink (shrinks down)
    · exact early down message later
  cases resumes with
  | greeting phase down silent before truthful =>
    exact .greeting phase (connected.trans down) silent (queued down before)
      (truthful.shrink (shrinks down))
  | readying entry ready rest phase holds down queue before carries =>
    exact .readying entry ready rest phase holds (connected.trans down) queue (queued down before)
      (carries.shrink (shrinks down))
  | connected phase up => exact .connected phase (connected.trans up)

namespace Carries

variable {link : LinkEntry} {resumed : List Nat} {hello : LinkHello} {mux : ChannelMux}

theorem finish (carries : Carries link resumed hello mux)
    (gone : channel ∈ resumed → mux.has channel = false) :
    Carries (link.finish channel) resumed hello mux := by
  refine ⟨carries.offered, ?_, ?_⟩
  · intro n isResumed held inside same
    have other : n ≠ channel := by
      rintro rfl
      have there : mux.has n = true := ChannelMux.has_iff.mpr ⟨held, inside, same⟩
      simp [gone isResumed] at there
    rw [LinkEntry.entry_finish other]
    exact carries.carried n isResumed held inside same
  · intro entry inside
    exact carries.only entry (mem_of_mem_filter inside)

theorem receive (carries : Carries link resumed hello mux) {message : NodeMessage}
    (early : Early mux message) : Carries (link.receive message).1 resumed hello mux := by
  have heard : Carries { link with heard := true } resumed hello mux :=
    ⟨carries.offered, carries.carried, carries.only⟩
  cases message with
  | channelClose channel =>
    simp only [LinkEntry.receive]
    split
    · exact heard.finish fun _ => early
    · exact heard
  | channelReady => exact early.elim
  | channelRefused => exact early.elim
  | hello => exact heard
  | other => exact heard

theorem opening (carries : Carries link resumed hello mux)
    (free : link.entry channel = none) (family : FleetLinkFamily) (consent : FleetLinkConsentRequirement)
    (requestId : Utf16) : Carries (link.opening channel family consent requestId) resumed hello mux := by
  refine ⟨carries.offered, ?_, ?_⟩
  · intro n isResumed held inside same
    obtain ⟨entry, found, isSame⟩ := carries.carried n isResumed held inside same
    have other : n ≠ channel := by
      rintro rfl
      simp [free] at found
    exact ⟨entry, (LinkEntry.entry_opening other).trans found, isSame⟩
  · intro entry inside isOpen
    rcases mem_append.mp inside with before | last
    · exact carries.only entry before isOpen
    · rw [mem_singleton.mp last] at isOpen
      cases isOpen

theorem gone_of_free (carries : Carries link resumed hello mux)
    (free : link.entry channel = none) (isResumed : channel ∈ resumed) : mux.has channel = false := by
  rw [Bool.eq_false_iff]
  intro there
  obtain ⟨held, inside, same⟩ := ChannelMux.has_iff.mp there
  obtain ⟨entry, found, -⟩ := carries.carried channel isResumed held inside same
  simp [free] at found

end Carries

theorem mem_resumedEntries {hello : LinkHello} {entry : ChannelEntry}
    (inside : entry ∈ registry.resumedEntries hello) :
    entry.state = .open ∧ ∃ offer ∈ offers hello, offer.channel = entry.channel ∧
      offer.family = entry.family ∧ offer.resumeKey = entry.resumeKey := by
  unfold resumedEntries at inside
  split at inside
  case h_2 => cases inside
  case h_1 orphan _ =>
    obtain ⟨suspended, isKept, rfl⟩ := mem_map.mp inside
    have resumes := (mem_filter.mp isKept).2
    simp only [FleetLinkRegistry.resumes, sameChannel, Bool.and_eq_true] at resumes
    obtain ⟨same, -⟩ := resumes
    split at same
    case h_2 => cases same
    case h_1 generation offer _ found =>
      simp only [Bool.and_eq_true, beq_iff_eq] at same
      obtain ⟨⟨-, family⟩, resumeKey⟩ := same
      have offered : offer ∈ offers hello := mem_reverse.mp (mem_of_find?_eq_some found)
      have number : offer.channel = suspended.channel := by simpa using find?_some found
      exact ⟨rfl, offer, offered, number, family, resumeKey⟩

theorem carries_accept (registry : FleetLinkRegistry) {hello : LinkHello} {mux : ChannelMux}
    (truthful : Truthful (offers hello) mux) :
    ∃ entry, (registry.accept hello).1.link = some entry ∧
      Carries entry (registry.accept hello).2.1.resumed hello mux := by
  refine ⟨_, rfl, ?_, ?_, ?_⟩
  · intro n isResumed
    obtain ⟨entry, inside, rfl⟩ := mem_map.mp isResumed
    obtain ⟨-, offer, offered, number, -⟩ := mem_resumedEntries inside
    exact ⟨offer, offered, number⟩
  · intro n isResumed held inside same
    obtain ⟨first, isFirst, number⟩ := mem_map.mp isResumed
    have there : ((registry.drop true).resumedEntries hello).find? (fun entry => entry.channel == n) ≠ none := by
      intro none
      have absent := find?_eq_none.mp none first isFirst
      simp [number] at absent
    obtain ⟨entry, found⟩ := ne_none_iff_exists'.mp there
    have isEntry := mem_of_find?_eq_some found
    have entryNumber : entry.channel = n := by simpa using find?_some found
    obtain ⟨isOpen, offer, offered, offerNumber, family, resumeKey⟩ := mem_resumedEntries isEntry
    have holds := truthful offer offered held inside (by rw [same, offerNumber, entryNumber])
    exact ⟨entry, found, isOpen, family.symm.trans holds.1, resumeKey.symm.trans holds.2⟩
  · intro entry inside _
    exact mem_map.mpr ⟨entry, inside, rfl⟩

theorem truthful_suspend {mux : ChannelMux} (distinct : (mux.channels.map (·.channel)).Nodup) :
    Truthful mux.suspend.2 mux.suspend.1 := by
  intro offer offered held inside same
  obtain ⟨kept, isKept, rfl⟩ := mem_map.mp offered
  obtain ⟨other, isOther, rfl⟩ := mem_map.mp inside
  have equal : other = kept :=
    inj_on_of_nodup_map distinct (mem_of_mem_filter isOther) (mem_of_mem_filter isKept) same
  subst equal
  exact ⟨rfl, rfl⟩

namespace Resumes

variable {link : NodeLink}

theorem tellNode (resumes : Resumes link) {messages : List PlatformMessage}
    (changes : ∀ wire entry ready rest, link.wire = some wire → wire.phase = .accepted →
      link.registry.link = some entry → wire.toNode = .ready ready :: rest →
      link.client.connected = false → Carries entry ready.resumed wire.hello link.client.mux →
      ∃ after, registry.link = some after ∧
        Carries after ready.resumed wire.hello link.client.mux) :
    Resumes (NodeLink.tellNode { link with registry } messages) := by
  refine ⟨resumes.snapshot, ?_⟩
  intro wire up
  obtain ⟨before, wasUp, rfl⟩ := map_eq_some_iff.mp up
  cases resumes.on_wire before wasUp with
  | greeting phase down silent early truthful =>
    rw [if_neg phase]
    exact .greeting phase down silent early truthful
  | readying entry ready rest phase holds down queue early carries =>
    rw [if_pos phase]
    obtain ⟨after, isAfter, carries'⟩ := changes before entry ready rest wasUp phase holds queue down carries
    exact .readying after ready (rest ++ messages) phase isAfter down (by simp [queue]) early carries'
  | connected phase up =>
    rw [if_pos phase]
    exact .connected phase up

theorem tellPlatform (resumes : Resumes link) {client : NodeLinkClient}
    (connected : client.connected = link.client.connected)
    (snapshot : client.connected = false → Truthful client.resumeChannels client.mux)
    (shrinks : link.client.connected = false → Shrinks link.client.mux client.mux)
    {messages : List NodeMessage}
    (early : link.client.connected = false → ∀ message ∈ messages, Early client.mux message) :
    Resumes (NodeLink.tellPlatform { link with client } messages) := by
  refine ⟨snapshot, ?_⟩
  intro wire up
  obtain ⟨before, wasUp, rfl⟩ := map_eq_some_iff.mp up
  exact (resumes.on_wire before wasUp).nodeShrinks connected shrinks early

theorem connect (sound : link.Sound) (resumes : Resumes link) (consents : FleetConsents) :
    Resumes (link.step (.connect consents)) := by
  cases socket : link.client.socket with
  | true => simpa [NodeLink.step, socket] using resumes
  | false =>
    have down : link.client.connected = false := by
      cases connected : link.client.connected with
      | false => rfl
      | true => simpa [socket] using sound.client.linked connected
    have truthful := resumes.snapshot down
    have offered : Truthful (offers (link.client.hello consents)) link.client.mux := by
      cases previous : link.client.previousGeneration with
      | none => simp [offers, hello, previous, Truthful]
      | some generation => simpa [offers, hello, previous] using truthful
    refine ⟨?_, ?_⟩
    · simpa [NodeLink.step, socket] using fun _ => truthful
    · intro wire up
      simp only [NodeLink.step, socket, Bool.false_eq_true, if_false, some.injEq] at up ⊢
      subst up
      refine .greeting (by simp) down rfl ?_ offered
      intro message inside
      rw [mem_singleton.mp inside]
      trivial

theorem nodeReceives (resumes : Resumes link) (declines : Option FleetLinkErrorCode) :
    Resumes (link.nodeReceives declines) := by
  obtain unchanged | ⟨wire, message, rest, up, queue, received⟩ := link.nodeReceives_cases declines
  · rw [unchanged]
    exact resumes
  have connected : wire.phase = .accepted ∧ (link.client.onControl message declines).1.connected = true := by
    cases resumes.on_wire wire up with
    | greeting _ _ silent => simp [queue] at silent
    | readying entry ready tail phase _ down queued =>
      rw [queue] at queued
      obtain ⟨rfl, rfl⟩ := List.cons.inj queued
      exact ⟨phase, by simp [onControl, down, onReady]⟩
    | connected phase isUp => exact ⟨phase, onControl_connected isUp⟩
  rw [received]
  refine ⟨fun down => ?_, ?_⟩
  · rw [connected.2] at down
    cases down
  · intro after isAfter
    obtain rfl := some.inj isAfter
    exact .connected connected.1 connected.2

theorem platformReceives (resumes : Resumes link) : Resumes link.platformReceives := by
  obtain unchanged | ⟨wire, message, rest, up, queue, ⟨waits, phase, stillWaits, received⟩ | ⟨phase, received⟩⟩ :=
    link.platformReceives_cases
  · rw [unchanged]
    exact resumes
  · rw [received]
    refine ⟨resumes.snapshot, ?_⟩
    intro after isAfter
    obtain rfl := some.inj isAfter
    cases resumes.on_wire wire up with
    | greeting _ down silent early truthful =>
      refine .greeting stillWaits down silent ?_ truthful
      exact fun message inside => early message (by rw [queue]; exact mem_cons_of_mem _ inside)
    | readying _ _ _ accepted => exact absurd accepted waits
    | connected accepted => exact absurd accepted waits
  · rw [received]
    refine ⟨resumes.snapshot, ?_⟩
    intro after isAfter
    obtain rfl := some.inj isAfter
    cases resumes.on_wire wire up with
    | greeting waits => exact absurd phase waits
    | readying entry ready tail _ holds down queued early carries =>
      rw [queue, forall_mem_cons] at early
      refine .readying (entry.receive message).1 ready (tail ++ (link.registry.receive message).2) phase ?_
        down ?_ early.2 (carries.receive early.1)
      · simp [FleetLinkRegistry.receive, holds]
      · simp [queued]
    | connected _ isUp => exact .connected phase isUp

theorem platformAccepts (resumes : Resumes link) : Resumes link.platformAccepts := by
  obtain unchanged | ⟨wire, up, phase, accepted⟩ := link.platformAccepts_cases
  · rw [unchanged]
    exact resumes
  · rw [accepted]
    refine ⟨resumes.snapshot, ?_⟩
    intro after isAfter
    obtain rfl := some.inj isAfter
    cases resumes.on_wire wire up with
    | greeting _ down silent early truthful =>
      obtain ⟨entry, holds, carries⟩ := carries_accept link.registry truthful
      exact .readying entry _ [] rfl holds down (by rw [silent]; rfl) early carries
    | readying _ _ _ isAccepted => simp [phase] at isAccepted
    | connected isAccepted => simp [phase] at isAccepted

theorem step (sound : link.Sound) (resumes : Resumes link) {event : LinkEvent}
    (none : ClosesNoneMeanwhile link event) : Resumes (link.step event) := by
  cases event with
  | connect consents => exact resumes.connect sound consents
  | breaks => exact ⟨resumes.snapshot, fun wire up => (by cases up)⟩
  | nodeDrops =>
    by_cases socket : link.client.socket = true
    · rw [NodeLink.step, if_pos socket]
      exact ⟨fun _ => truthful_suspend sound.client.distinct, fun wire up => (by cases up)⟩
    · rw [NodeLink.step, if_neg socket]
      exact resumes
  | nodeExpires =>
    refine ⟨fun down => ?_, ?_⟩
    · rw [NodeLink.step, expire_connected] at down
      exact truthful_expire (resumes.snapshot down)
    · intro wire up
      have silent : ∀ message ∈ ([] : List NodeMessage), Early link.client.expire.mux message :=
        forall_mem_nil _
      have shrunk := (resumes.on_wire wire up).nodeShrinks (expire_connected _)
        (fun _ => shrinks_expire _) (fun _ => silent)
      rwa [append_nil] at shrunk
  | nodeCloses channel =>
    rw [NodeLink.step]
    apply resumes.tellPlatform
    · rfl
    · exact fun down => (resumes.snapshot down).shrink (shrinks_finish _ _)
    · exact fun _ => shrinks_finish _ _
    · intro _ message inside
      split at inside
      · rw [mem_singleton.mp inside]
        exact has_finish _ _
      · cases inside
  | nodeOpened channel result =>
    obtain ⟨mux, answer, isOpened⟩ : ∃ mux answer, link.client.mux.opened channel result = (mux, answer) :=
      ⟨_, _, rfl⟩
    have idle : link.client.connected = false → mux = link.client.mux ∧ answer = [] := by
      intro down
      have unchanged := ChannelMux.opened_of_idle
        (fun entry inside => (sound.client.waiting down entry inside).2) channel result
      rw [isOpened] at unchanged
      exact Prod.mk.inj unchanged
    simp only [NodeLink.step, isOpened]
    apply resumes.tellPlatform
    · rfl
    · intro down
      rw [(idle down).1]
      exact resumes.snapshot down
    · intro down
      rw [(idle down).1]
      exact fun _ => id
    · intro down message inside
      rw [(idle down).2] at inside
      cases inside
  | nodeSays =>
    rw [NodeLink.step]
    apply resumes.tellPlatform rfl resumes.snapshot (fun _ _ => id)
    intro _ message inside
    rw [mem_singleton.mp inside]
    trivial
  | nodeReceives declines => exact resumes.nodeReceives declines
  | platformReceives => exact resumes.platformReceives
  | platformAccepts => exact resumes.platformAccepts
  | platformDrops keepForResume =>
    refine ⟨resumes.snapshot, ?_⟩
    intro wire up
    obtain ⟨wasUp, waits⟩ := filter_eq_some_iff.mp up
    rw [bne_iff_ne] at waits
    cases resumes.on_wire wire wasUp with
    | greeting _ down silent early truthful => exact .greeting waits down silent early truthful
    | readying _ _ _ phase => exact absurd phase waits
    | connected phase => exact absurd phase waits
  | platformExpires =>
    refine ⟨resumes.snapshot, ?_⟩
    intro wire up
    cases resumes.on_wire wire up with
    | greeting phase down silent early truthful => exact .greeting phase down silent early truthful
    | readying entry ready rest phase holds down queue early carries =>
      exact .readying entry ready rest phase holds down queue early carries
    | connected phase up => exact .connected phase up
  | platformOpens family consent requestId sent =>
    rw [NodeLink.step]
    obtain unchanged | ⟨held, channel, there, allocated, opened⟩ :=
      link.registry.openChannel_cases family consent requestId sent
    · rw [unchanged]
      exact resumes.tellNode fun _ entry _ _ _ _ holds _ _ carries => ⟨entry, holds, carries⟩
    have free := (LinkEntry.allocate_free allocated).1
    rw [opened]
    cases sent with
    | true =>
      apply resumes.tellNode
      intro wire entry ready rest up phase holds queue down carries
      obtain rfl := some.inj (there.symm.trans holds)
      exact ⟨_, rfl, carries.opening free family consent requestId⟩
    | false =>
      apply resumes.tellNode
      intro wire entry ready rest up phase holds queue down carries
      obtain rfl := some.inj (there.symm.trans holds)
      exact ⟨_, rfl, (carries.opening free family consent requestId).finish (carries.gone_of_free free)⟩
  | platformCloses channel sent =>
    rw [NodeLink.step]
    obtain unchanged | ⟨held, there, closed⟩ := link.registry.closeChannel_cases channel sent
    · rw [unchanged]
      exact resumes.tellNode fun _ entry _ _ _ _ holds _ _ carries => ⟨entry, holds, carries⟩
    rw [closed]
    apply resumes.tellNode
    intro wire entry ready rest up phase holds queue down carries
    obtain rfl := some.inj (there.symm.trans holds)
    refine ⟨_, rfl, carries.finish ?_⟩
    intro isResumed
    simp only [ClosesNoneMeanwhile, NodeLink.readying_of_wire up queue down] at none
    exact absurd isResumed none
  | platformRestarts => exact ⟨resumes.snapshot, fun wire up => (by cases up)⟩

theorem readyAgrees (sound : link.Sound) (resumes : Resumes link) {event : LinkEvent}
    (none : ClosesNoneMeanwhile link event) : ReadyAgrees link event := by
  cases event with
  | nodeReceives declines =>
    simp only [ReadyAgrees]
    split
    case h_2 => trivial
    case h_1 hello ready next =>
      obtain ⟨wire, rest, up, rfl, queue, down⟩ := NodeLink.wire_of_readying next
      simp only [ClosesNoneMeanwhile, next] at none
      have received : (link.nodeReceives declines).client = link.client.onReady ready ∧
          (link.nodeReceives declines).registry = link.registry := by
        simp [NodeLink.nodeReceives, up, queue, onControl, down, NodeLink.tellPlatform]
      cases resumes.on_wire wire up with
      | greeting _ _ silent => simp [queue] at silent
      | connected _ isUp => simp [down] at isUp
      | readying entry ready' tail phase holds _ queued early carries =>
        rw [queue] at queued
        obtain ⟨same, -⟩ := List.cons.inj queued
        obtain rfl := PlatformMessage.ready.inj same
        have onLink : ∀ n, (link.nodeReceives declines).registry.entry n = entry.entry n := by
          intro n
          rw [received.2, FleetLinkRegistry.entry, holds]
          rfl
        have carried : ∀ n ∈ ready.resumed, ∃ held ∈ (link.client.onReady ready).mux.channels,
            held.channel = n ∧ held.suspended = false ∧
              ∃ there, entry.entry n = some there ∧ SameChannel held there := by
          intro n isResumed
          obtain ⟨offer, offered, rfl⟩ := carries.offered n isResumed
          obtain ⟨held, inside, number⟩ := ChannelMux.has_iff.mp (none offer offered)
          obtain ⟨there, found, sameChannel⟩ := carries.carried _ isResumed held inside number
          refine ⟨{ held with suspended := false }, ?_, number, rfl, there, found, sameChannel⟩
          refine mem_map.mpr ⟨held, mem_filter.mpr ⟨inside, ?_⟩, rfl⟩
          simp [ChannelMux.stays, number, isResumed]
        refine ⟨?_, ?_, ?_⟩
        · intro n isResumed
          rw [received.1, onLink]
          exact carried n isResumed
        · intro held inside _
          rw [received.1] at inside
          obtain ⟨waiting, isKept, rfl⟩ := mem_map.mp inside
          obtain ⟨wasHeld, stays⟩ := mem_filter.mp isKept
          have isResumed : waiting.channel ∈ ready.resumed := by
            simpa [ChannelMux.stays, (sound.client.waiting down waiting wasHeld).1] using stays
          obtain ⟨there, found, isOpen, -⟩ := carries.carried _ isResumed waiting wasHeld rfl
          exact ⟨there, (onLink _).trans found, isOpen⟩
        · intro n there found isOpen
          rw [onLink] at found
          obtain ⟨inside, rfl⟩ := LinkEntry.entry_channel found
          obtain ⟨held, isHeld, number, awake, -⟩ := carried _ (carries.only there inside isOpen)
          rw [received.1]
          exact ⟨held, isHeld, number, awake⟩
  | _ => trivial

end Resumes

instance (link : NodeLink) : (event : LinkEvent) → Decidable (ClosesNoneMeanwhile link event)
  | .nodeReceives _ => by
    dsimp only [ClosesNoneMeanwhile]
    rcases link.readying with _ | ⟨_, _⟩ <;> infer_instance
  | .platformCloses .. => by
    dsimp only [ClosesNoneMeanwhile]
    rcases link.readying with _ | ⟨_, _⟩ <;> infer_instance
  | .connect _ | .breaks | .nodeDrops | .nodeExpires | .nodeCloses _ | .nodeOpened .. | .nodeSays | .platformReceives
  | .platformAccepts | .platformDrops _ | .platformExpires | .platformOpens .. | .platformRestarts => .isTrue trivial

/-- A channel closes on the node between the drop and the reconnect, which still offers it. -/
def closedMeanwhile : List LinkEvent :=
  [.connect ⟨true, false, false, false⟩, .platformReceives, .platformAccepts, .nodeReceives none,
    .platformOpens .session .work [] true, .nodeReceives none, .nodeOpened 1 (.ok (some [0x6B])),
    .platformReceives, .breaks, .nodeDrops, .nodeCloses 1, .connect ⟨true, false, false, false⟩,
    .platformReceives, .platformAccepts]

/-- The platform carries the channel over, and the node has none. -/
theorem closed_meanwhile_disagrees :
    ¬ ReadyAgrees (run NodeLink.step NodeLink.start closedMeanwhile) (.nodeReceives none) := by
  have carriedOver : (run NodeLink.step NodeLink.start closedMeanwhile).readying =
      some (⟨⟨true, false, false, false⟩, some ⟨1, [⟨1, .session, some [0x6B]⟩]⟩⟩, ⟨2, [1], []⟩) := by
    decide
  have empty : ((run NodeLink.step NodeLink.start closedMeanwhile).nodeReceives none).client.mux.channels =
      [] := by
    decide
  intro agrees
  simp only [ReadyAgrees, carriedOver] at agrees
  obtain ⟨held, inside, -⟩ := agrees.carried 1 (mem_singleton.mpr rfl)
  rw [empty] at inside
  cases inside

/-- Along every run in which neither end closes a channel of a resume while its ready is on its way, every
ready that is processed leaves the tables in agreement. -/
theorem resume_agrees (events : List LinkEvent)
    (none : Along NodeLink.step ClosesNoneMeanwhile NodeLink.start events) :
    Along NodeLink.step ReadyAgrees NodeLink.start events := by
  have start : Resumes NodeLink.start :=
    ⟨fun _ offer offered => (by cases offered), fun wire up => (by cases up)⟩
  have keeps : ∀ link event, link.Sound ∧ Resumes link → ClosesNoneMeanwhile link event →
      (link.step event).Sound ∧ Resumes (link.step event) := by
    rintro link event ⟨sound, resumes⟩ none
    exact ⟨sound.step event, resumes.step sound none⟩
  refine along_of_inv keeps ?_ ⟨NodeLink.sound_start, start⟩ none
  rintro link event ⟨sound, resumes⟩ none
  exact resumes.readyAgrees sound none

def resumedOnce : List LinkEvent :=
  [.connect ⟨true, false, false, false⟩, .platformReceives, .platformAccepts, .nodeReceives none,
    .platformOpens .session .work [] true, .nodeReceives none, .nodeOpened 1 (.ok (some [0x6B])),
    .platformReceives, .breaks, .nodeDrops, .connect ⟨true, false, false, false⟩, .platformReceives,
    .platformAccepts, .nodeReceives none]

theorem resume_agrees_once :
    Along NodeLink.step ClosesNoneMeanwhile NodeLink.start resumedOnce ∧
      Along NodeLink.step ReadyAgrees NodeLink.start resumedOnce :=
  ⟨by decide, resume_agrees resumedOnce (by decide)⟩

end EverWorks.Fleet
