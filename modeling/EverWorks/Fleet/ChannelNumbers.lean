import EverWorks.Fleet.NodeLink

/-!
The numbers a link's opens carry rise, and the node's table holds none of them yet, as long as the node gives up
nothing above what the platform resumed, which the platform does not see to.
-/

namespace EverWorks.Fleet
open List Option FleetLinkRegistry NodeLinkClient

open Lib FleetLinkRegistry

/-- The numbers rise from `lower` and stay below `upper`. -/
def Between (lower upper : Nat) (numbers : List Nat) : Prop :=
  lower ≤ upper ∧ numbers.Pairwise (· < ·) ∧ ∀ n ∈ numbers, lower ≤ n ∧ n < upper

theorem Between.nil {lower upper : Nat} (le : lower ≤ upper) : Between lower upper [] :=
  ⟨le, .nil, by simp⟩

theorem Between.snoc {lower upper n : Nat} {numbers : List Nat} (between : Between lower upper numbers)
    (above : upper ≤ n) : Between lower (n + 1) (numbers ++ [n]) := by
  obtain ⟨le, rising, inside⟩ := between
  refine ⟨by omega, ?_, ?_⟩
  · rw [pairwise_append]
    refine ⟨rising, pairwise_singleton _ _, ?_⟩
    intro m isIn k isN
    rw [mem_singleton] at isN
    have := inside m isIn
    omega
  · intro m isIn
    rcases mem_append.mp isIn with before | last
    · have := inside m before
      omega
    · rw [mem_singleton] at last
      omega

theorem Between.raise {lower upper n : Nat} {numbers : List Nat} (between : Between lower upper numbers)
    (above : upper ≤ n) : Between lower n numbers := by
  obtain ⟨le, rising, inside⟩ := between
  refine ⟨by omega, rising, ?_⟩
  intro m isIn
  have := inside m isIn
  omega

theorem Between.tail {lower upper n : Nat} {numbers : List Nat}
    (between : Between lower upper (n :: numbers)) : lower ≤ n ∧ Between (n + 1) upper numbers := by
  obtain ⟨le, rising, inside⟩ := between
  have first := inside n mem_cons_self
  rw [pairwise_cons] at rising
  refine ⟨first.1, by omega, rising.2, ?_⟩
  intro m isIn
  have := rising.1 m isIn
  have := inside m (mem_cons_of_mem _ isIn)
  omega

def numbers (messages : List PlatformMessage) : List Nat :=
  messages.filterMap fun message =>
    match message with
    | .channelOpen channel _ _ => some channel
    | _ => none

theorem numbers_append (front rest : List PlatformMessage) :
    numbers (front ++ rest) = numbers front ++ numbers rest :=
  filterMap_append

theorem LinkEntry.le_firstFree (link : LinkEntry) (bound channel : Nat) :
    channel ≤ link.firstFree bound channel := by
  induction bound generalizing channel with
  | zero => exact Nat.le_refl _
  | succ bound ih =>
    unfold LinkEntry.firstFree
    split
    · have := ih (channel + 1)
      omega
    · exact Nat.le_refl _

theorem LinkEntry.le_allocate {link : LinkEntry} {channel : Nat} (h : link.allocate = some channel) :
    link.nextChannel ≤ channel := by
  simp only [LinkEntry.allocate, ite_none_left_eq_some, some.injEq] at h
  rw [← h.2]
  exact link.le_firstFree _ _

theorem LinkEntry.receive_nextChannel (link : LinkEntry) (message : NodeMessage) :
    (link.receive message).1.nextChannel = link.nextChannel := by
  cases message <;> simp only [LinkEntry.receive] <;> try split
  all_goals rfl

theorem LinkEntry.numbers_receive (link : LinkEntry) (message : NodeMessage) :
    numbers (link.receive message).2 = [] := by
  cases message <;> simp only [LinkEntry.receive] <;> try split
  all_goals first
    | rfl
    | (split <;> rfl)

theorem lt_nextChannelAfter {resumed : List Nat} {n m : Nat} (inside : m ∈ resumed) (le : n ≤ m) :
    n < nextChannelAfter resumed := by
  have nonempty : resumed ≠ [] := ne_nil_of_mem inside
  have bounded : m ≤ resumed.foldr max 0 := by
    clear nonempty
    induction resumed with
    | nil => cases inside
    | cons first rest ih =>
      rw [foldr_cons]
      rcases mem_cons.mp inside with rfl | later
      · omega
      · have := ih later
        omega
  simp only [nextChannelAfter, List.isEmpty_iff, nonempty, if_false]
  omega

theorem ChannelMux.resumeGeneration_inUse {mux : ChannelMux} {resumed : List Nat} {channel : Nat}
    (waiting : ∀ entry ∈ mux.channels, entry.suspended = true)
    (used : (mux.resumeGeneration resumed).inUse channel = true) :
    channel ∈ resumed ∨ ∃ entry ∈ mux.channels, entry.channel = channel ∧ channel ∉ resumed := by
  obtain ⟨entry, inside, same⟩ | retired := ChannelMux.inUse_iff.mp used
  · obtain ⟨old, isOld, rfl⟩ := mem_map.mp inside
    obtain ⟨held, stays⟩ := mem_filter.mp isOld
    left
    simpa [ChannelMux.stays, waiting old held, ← same] using stays
  · obtain ⟨old, isOld, rfl⟩ := mem_map.mp retired
    obtain ⟨held, gone⟩ := mem_filter.mp isOld
    right
    exact ⟨old, held, rfl, by simpa [ChannelMux.stays, waiting old held] using gone⟩

inductive FreshOn (registry : FleetLinkRegistry) (client : NodeLinkClient) (wire : Wire) : Prop where
  | greeting (phase : wire.phase ≠ .accepted) (down : client.connected = false)
      (silent : wire.toNode = [])
  | readying (entry : LinkEntry) (ready : LinkReady) (rest : List PlatformMessage)
      (phase : wire.phase = .accepted) (holds : registry.link = some entry)
      (down : client.connected = false) (queue : wire.toNode = .ready ready :: rest)
      (between : Between (nextChannelAfter ready.resumed) entry.nextChannel (numbers rest))
  | connected (entry : LinkEntry) (lower : Nat) (phase : wire.phase = .accepted)
      (holds : registry.link = some entry) (up : client.connected = true)
      (below : ∀ n, client.mux.inUse n = true → n < lower)
      (between : Between lower entry.nextChannel (numbers wire.toNode))

def Fresh (link : NodeLink) : Prop :=
  ∀ wire, link.wire = some wire → FreshOn link.registry link.client wire

theorem FreshOn.carry {registry registry' : FleetLinkRegistry} {client client' : NodeLinkClient}
    {wire wire' : Wire} (fresh : FreshOn registry client wire)
    (phase : wire'.phase = .accepted ↔ wire.phase = .accepted)
    (connected : client'.connected = client.connected)
    (inUse : ∀ n, client'.mux.inUse n = true → client.mux.inUse n = true)
    (next : registry'.link.map (·.nextChannel) = registry.link.map (·.nextChannel))
    (messages : List PlatformMessage) (queue : wire'.toNode = wire.toNode ++ messages)
    (numberless : numbers messages = []) (silent : wire.phase ≠ .accepted → messages = []) :
    FreshOn registry' client' wire' := by
  have holds' : ∀ entry, registry.link = some entry →
      ∃ after, registry'.link = some after ∧ after.nextChannel = entry.nextChannel := by
    intro entry holds
    rw [holds, map_some] at next
    obtain ⟨after, isAfter, same⟩ := map_eq_some_iff.mp next
    exact ⟨after, isAfter, same⟩
  cases fresh with
  | greeting notAccepted down empty =>
    refine .greeting (fun accepted => notAccepted (phase.mp accepted)) (connected.trans down) ?_
    rw [queue, empty, silent notAccepted, append_nil]
  | readying entry ready rest accepted holds down queued between =>
    obtain ⟨after, isAfter, same⟩ := holds' entry holds
    refine .readying after ready (rest ++ messages) (phase.mpr accepted) isAfter (connected.trans down) ?_ ?_
    · rw [queue, queued, cons_append]
    · rw [numbers_append, numberless, append_nil, same]
      exact between
  | connected entry lower accepted holds up below between =>
    obtain ⟨after, isAfter, same⟩ := holds' entry holds
    refine .connected after lower (phase.mpr accepted) isAfter (connected.trans up) ?_ ?_
    · exact fun n used => below n (inUse n used)
    · rw [queue, numbers_append, numberless, append_nil, same]
      exact between

variable {link : NodeLink}

theorem Fresh.tellNode {registry : FleetLinkRegistry} (fresh : Fresh link)
    (next : registry.link.map (·.nextChannel) = link.registry.link.map (·.nextChannel))
    {messages : List PlatformMessage} (numberless : numbers messages = []) :
    Fresh (NodeLink.tellNode { link with registry } messages) := by
  intro wire up
  obtain ⟨before, wasUp, rfl⟩ := map_eq_some_iff.mp up
  have here := fresh before wasUp
  by_cases accepted : before.phase = .accepted
  · rw [if_pos accepted]
    exact here.carry Iff.rfl rfl (fun _ => id) next messages rfl numberless (fun phase => absurd accepted phase)
  · rw [if_neg accepted]
    exact here.carry Iff.rfl rfl (fun _ => id) next [] (append_nil _).symm rfl (fun _ => rfl)

theorem Fresh.tellPlatform {client : NodeLinkClient} (fresh : Fresh link)
    (connected : client.connected = link.client.connected)
    (inUse : ∀ n, client.mux.inUse n = true → link.client.mux.inUse n = true)
    (messages : List NodeMessage) : Fresh (NodeLink.tellPlatform { link with client } messages) := by
  intro wire up
  obtain ⟨before, wasUp, rfl⟩ := map_eq_some_iff.mp up
  exact (fresh before wasUp).carry Iff.rfl connected inUse rfl [] (append_nil _).symm rfl (fun _ => rfl)

/-- When its ready comes, the node gives up only channels below some channel that is resumed. -/
def GivesUpBelow (link : NodeLink) : LinkEvent → Prop
  | .nodeReceives _ =>
    match link.arriving with
    | some (.ready ready) => link.client.connected = false → ∀ entry ∈ link.client.mux.channels,
      entry.channel ∉ ready.resumed → ∃ n ∈ ready.resumed, entry.channel < n
    | _ => True
  | _ => True

theorem Fresh.nodeReceives (sound : link.Sound) (fresh : Fresh link)
    {declines : Option FleetLinkErrorCode} (below : GivesUpBelow link (.nodeReceives declines)) :
    Fresh (link.nodeReceives declines) := by
  obtain unchanged | ⟨wire, message, rest, up, queue, received⟩ := link.nodeReceives_cases declines
  · rw [unchanged]
    exact fresh
  rw [received]
  intro after isAfter
  obtain rfl := some.inj isAfter
  cases fresh wire up with
  | greeting phase down silent => simp [queue] at silent
  | readying entry ready tail phase holds down queued between =>
    rw [queue] at queued
    obtain ⟨rfl, rfl⟩ := List.cons.inj queued
    have onReady : link.client.onControl (.ready ready) declines = (link.client.onReady ready, []) := by
      simp [onControl, down]
    rw [onReady]
    refine .connected entry (nextChannelAfter ready.resumed) phase holds rfl ?_ between
    intro n used
    have waiting : ∀ entry ∈ link.client.mux.channels, entry.suspended = true :=
      fun entry inside => (sound.client.waiting down entry inside).1
    obtain isResumed | ⟨held, inside, rfl, gone⟩ := ChannelMux.resumeGeneration_inUse waiting used
    · exact lt_nextChannelAfter isResumed (Nat.le_refl n)
    · simp only [GivesUpBelow, NodeLink.arriving_of_wire up queue] at below
      obtain ⟨m, isResumed, lt⟩ := below down held inside gone
      exact lt_nextChannelAfter isResumed (Nat.le_of_lt lt)
  | connected entry lower phase holds up held between =>
    rw [queue] at between
    cases message with
    | channelOpen channel family requestId =>
      obtain ⟨le, later⟩ := between.tail
      refine .connected entry (channel + 1) phase holds (onControl_connected up) ?_ later
      intro n used
      simp only [onControl, up, if_true] at used
      rcases ChannelMux.open_inUse _ _ _ _ _ used with before | rfl
      · have := held n before
        omega
      · omega
    | channelClose channel =>
      refine .connected entry lower phase holds (onControl_connected up) ?_ between
      intro n used
      simp only [onControl, up, if_true, ChannelMux.closeRemote] at used
      exact held n ((ChannelMux.finish_inUse _ _ _).mp used)
    | ready ready =>
      refine .connected entry lower phase holds (onControl_connected up) ?_ between
      simpa [onControl, up] using held
    | other =>
      refine .connected entry lower phase holds (onControl_connected up) ?_ between
      simpa [onControl, up] using held

theorem Fresh.platformReceives (fresh : Fresh link) : Fresh link.platformReceives := by
  obtain unchanged | ⟨wire, message, rest, up, -, ⟨waits, phase, stillWaits, received⟩ | ⟨phase, received⟩⟩ :=
    link.platformReceives_cases
  · rw [unchanged]
    exact fresh
  · rw [received]
    intro after isAfter
    obtain rfl := some.inj isAfter
    exact (fresh wire up).carry (iff_of_false stillWaits waits) rfl (fun _ => id) rfl []
      (append_nil _).symm rfl (fun _ => rfl)
  · rw [received]
    intro after isAfter
    obtain rfl := some.inj isAfter
    refine (fresh wire up).carry Iff.rfl rfl (fun _ => id) ?_ _ rfl ?_ (fun waits => absurd phase waits)
    · cases there : link.registry.link with
      | none => simp [receive, there]
      | some entry => simp [receive, there, LinkEntry.receive_nextChannel]
    · cases there : link.registry.link with
      | none => simp [receive, there, numbers]
      | some entry => simp [receive, there, LinkEntry.numbers_receive]

theorem Fresh.platformAccepts (fresh : Fresh link) : Fresh link.platformAccepts := by
  obtain unchanged | ⟨wire, up, phase, accepted⟩ := link.platformAccepts_cases
  · rw [unchanged]
    exact fresh
  · rw [accepted]
    intro after isAfter
    obtain rfl := some.inj isAfter
    cases fresh wire up with
    | greeting _ down silent =>
      refine .readying _ (link.registry.accept wire.hello).2.1 [] rfl rfl down ?_ ?_
      · rw [silent]
        rfl
      · exact Between.nil (Nat.le_refl _)
    | readying _ _ _ isAccepted => simp [phase] at isAccepted
    | connected _ _ isAccepted => simp [phase] at isAccepted

theorem FreshOn.allocated {registry : FleetLinkRegistry} {client : NodeLinkClient} {wire : Wire}
    {entry after : LinkEntry} {channel : Nat} (fresh : FreshOn registry client wire)
    (phase : wire.phase = .accepted) (holds : registry.link = some entry)
    (above : entry.nextChannel ≤ channel) (next : after.nextChannel = channel + 1)
    {messages : List PlatformMessage} (told : numbers messages = [channel] ∨ numbers messages = []) :
    FreshOn { registry with link := some after } client
      { wire with toNode := wire.toNode ++ messages } := by
  have extend : ∀ {lower : Nat} {sent : List PlatformMessage},
      Between lower entry.nextChannel (numbers sent) →
        Between lower after.nextChannel (numbers (sent ++ messages)) := by
    intro lower sent between
    rw [numbers_append, next]
    rcases told with isChannel | none
    · rw [isChannel]
      exact between.snoc above
    · rw [none, append_nil]
      exact between.raise (by omega)
  cases fresh with
  | greeting waits => exact absurd phase waits
  | readying held ready rest _ isHeld down queue between =>
    obtain rfl := some.inj (holds.symm.trans isHeld)
    exact .readying after ready (rest ++ messages) phase rfl down (by simp [queue]) (extend between)
  | connected held lower _ isHeld up below between =>
    obtain rfl := some.inj (holds.symm.trans isHeld)
    exact .connected after lower phase rfl up below (extend between)

theorem Fresh.platformOpens (fresh : Fresh link) (family : FleetLinkFamily)
    (consent : FleetLinkConsentRequirement) (requestId : Utf16) (sent : Bool) :
    Fresh (link.step (.platformOpens family consent requestId sent)) := by
  rw [NodeLink.step]
  obtain unchanged | ⟨entry, channel, there, allocated, opened⟩ :=
    link.registry.openChannel_cases family consent requestId sent
  · rw [unchanged]
    exact fresh.tellNode rfl rfl
  have above := LinkEntry.le_allocate allocated
  rw [opened]
  intro wire up
  obtain ⟨before, wasUp, rfl⟩ := map_eq_some_iff.mp up
  have here : FreshOn link.registry link.client before := fresh before wasUp
  by_cases phase : before.phase = .accepted
  · rw [if_pos phase]
    cases sent
    · exact here.allocated phase there above rfl (.inr rfl)
    · exact here.allocated phase there above rfl (.inl rfl)
  · rw [if_neg phase]
    cases here with
    | greeting waits down silent => exact .greeting waits down silent
    | readying _ _ _ accepted => exact absurd accepted phase
    | connected _ _ accepted => exact absurd accepted phase

theorem Fresh.step (sound : link.Sound) (fresh : Fresh link) {event : LinkEvent}
    (below : GivesUpBelow link event) : Fresh (link.step event) := by
  cases event with
  | connect consents =>
    cases socket : link.client.socket with
    | true => simpa [NodeLink.step, socket] using fresh
    | false =>
      intro wire up
      have down : link.client.connected = false := by
        cases connected : link.client.connected with
        | false => rfl
        | true => simpa [socket] using sound.client.linked connected
      simp only [NodeLink.step, socket, Bool.false_eq_true, if_false, some.injEq] at up ⊢
      subst up
      exact .greeting (by simp) down rfl
  | breaks => exact fun wire up => (by cases up)
  | nodeDrops =>
    by_cases socket : link.client.socket = true
    · rw [NodeLink.step, if_pos socket]
      exact fun wire up => (by cases up)
    · rw [NodeLink.step, if_neg socket]
      exact fresh
  | nodeExpires =>
    intro wire up
    refine (fresh wire up).carry Iff.rfl ?_ ?_ rfl [] (append_nil _).symm rfl (fun _ => rfl)
    · exact expire_connected _
    · exact fun n => expire_inUse
  | nodeCloses channel =>
    rw [NodeLink.step]
    apply fresh.tellPlatform
    · rfl
    · exact fun n => (ChannelMux.finish_inUse _ _ n).mp
  | nodeOpened channel result =>
    rw [NodeLink.step]
    apply fresh.tellPlatform
    · rfl
    · exact fun n => ChannelMux.opened_inUse _ _ _
  | nodeSays => exact fresh.tellPlatform rfl (fun _ => id) _
  | nodeReceives declines => exact fresh.nodeReceives sound below
  | platformReceives => exact fresh.platformReceives
  | platformAccepts => exact fresh.platformAccepts
  | platformDrops keepForResume =>
    intro wire up
    obtain ⟨wasUp, waits⟩ := filter_eq_some_iff.mp up
    rw [bne_iff_ne] at waits
    cases fresh wire wasUp with
    | greeting _ down silent => exact .greeting waits down silent
    | readying _ _ _ phase => exact absurd phase waits
    | connected _ _ phase => exact absurd phase waits
  | platformExpires =>
    intro wire up
    exact (fresh wire up).carry Iff.rfl rfl (fun _ => id) rfl [] (append_nil _).symm rfl (fun _ => rfl)
  | platformOpens family consent requestId sent => exact fresh.platformOpens family consent requestId sent
  | platformCloses channel sent =>
    rw [NodeLink.step]
    obtain unchanged | ⟨entry, there, closed⟩ := link.registry.closeChannel_cases channel sent
    · rw [unchanged]
      exact fresh.tellNode rfl rfl
    · rw [closed]
      apply fresh.tellNode
      · simp [there]
      · cases sent <;> rfl
  | platformRestarts => exact fun wire up => (by cases up)

def OpensFresh (link : NodeLink) : LinkEvent → Prop
  | .nodeReceives _ =>
    match link.arriving with
    | some (.channelOpen channel _ _) => link.client.connected = true →
      link.client.mux.has channel = false ∧ channel ∉ link.client.mux.retired
    | _ => True
  | _ => True

instance (link : NodeLink) (event : LinkEvent) : Decidable (GivesUpBelow link event) := by
  unfold GivesUpBelow
  split
  · split <;> infer_instance
  · infer_instance

instance (link : NodeLink) (event : LinkEvent) : Decidable (OpensFresh link event) := by
  unfold OpensFresh
  split
  · split <;> infer_instance
  · infer_instance

theorem Fresh.opens (fresh : Fresh link) (event : LinkEvent) : OpensFresh link event := by
  cases event with
  | nodeReceives declines =>
    simp only [OpensFresh]
    split
    case h_1 channel family requestId next =>
      intro connected
      obtain ⟨wire, rest, up, queue⟩ := NodeLink.wire_of_arriving next
      have unused : ¬ link.client.mux.inUse channel = true := by
        intro used
        cases fresh wire up with
        | greeting _ down => simp [connected] at down
        | readying _ _ _ _ _ down => simp [connected] at down
        | connected entry lower _ _ _ below between =>
          rw [queue] at between
          have lt := below channel used
          have le := between.tail.1
          omega
      simpa [ChannelMux.inUse] using unused
    case h_2 => trivial
  | _ => trivial

/-- A channel is opened and resumable, the platform restarts, and the node comes back with it. -/
def restarted : List LinkEvent :=
  [.connect ⟨true, false, false, false⟩, .platformReceives, .platformAccepts, .nodeReceives none,
    .platformOpens .session .work [] true, .nodeReceives none, .nodeOpened 1 (.ok (some [0x6B])),
    .platformRestarts, .nodeDrops, .connect ⟨true, false, false, false⟩, .platformReceives,
    .platformAccepts, .nodeReceives none, .platformOpens .session .work [] true]

/-- The node has just retired the number that the platform opens first. -/
theorem open_after_restart_in_use :
    ¬ OpensFresh (run NodeLink.step NodeLink.start restarted) (.nodeReceives none) := by
  decide

/-- Along every run in which the node gives up only numbers below a resumed one, every open finds its
number fresh. -/
theorem channel_numbers_fresh (events : List LinkEvent)
    (below : Along NodeLink.step GivesUpBelow NodeLink.start events) :
    Along NodeLink.step OpensFresh NodeLink.start events := by
  have keeps : ∀ link event, link.Sound ∧ Fresh link → GivesUpBelow link event →
      (link.step event).Sound ∧ Fresh (link.step event) := by
    rintro link event ⟨sound, fresh⟩ below
    exact ⟨sound.step event, fresh.step sound below⟩
  refine along_of_inv keeps ?_ ⟨NodeLink.sound_start, fun wire up => (by cases up)⟩ below
  rintro link event ⟨-, fresh⟩ _
  exact fresh.opens event

def resumedRun : List LinkEvent :=
  [.connect ⟨true, false, false, false⟩, .platformReceives, .platformAccepts, .nodeReceives none,
    .platformOpens .session .work [] true, .nodeReceives none, .nodeOpened 1 (.ok (some [0x6B])),
    .platformReceives, .breaks, .nodeDrops, .connect ⟨true, false, false, false⟩, .platformReceives,
    .platformAccepts, .nodeReceives none, .platformOpens .session .work [] true, .nodeReceives none]

theorem channel_numbers_fresh_resumed :
    Along NodeLink.step GivesUpBelow NodeLink.start resumedRun ∧
      Along NodeLink.step OpensFresh NodeLink.start resumedRun :=
  ⟨by decide, channel_numbers_fresh resumedRun (by decide)⟩

end EverWorks.Fleet
