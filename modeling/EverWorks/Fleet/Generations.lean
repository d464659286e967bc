import EverWorks.Fleet.Registry
import EverWorks.Lib.Run

/-!
Every replica of the API keeps its own registry of a node and is told of the others' links in any order. Whether a
hello continues the last process is read off generations alone.
-/

namespace EverWorks.Fleet
open Option Function

open Lib FleetLinkRegistry

/-- What a replica's last link took over, and whether anything arrived on it. -/
structure Takeover where
  resumedFrom : Option Nat
  heard : Bool
  deriving DecidableEq

def Takeover.unconfirmed (takeover : Takeover) : Option Nat :=
  if takeover.heard then none else takeover.resumedFrom

/-- The replicas `ι` of the API and the processes `π` of one node. -/
structure LinkFleet (ι π : Type) where
  registry : ι → FleetLinkRegistry
  /-- The generation of the last ready a process received. -/
  previousGeneration : π → Option Nat
  /-- The ready under way to a process. -/
  awaiting : π → Option Nat
  /-- The process whose hello was accepted last. -/
  holder : Option π
  /-- All generations issued, and those a replica issued, was presented or observed. -/
  issued : List Nat
  known : ι → List Nat
  last : ι → Option Takeover

inductive FleetEvent (ι π : Type) where
  | hello (process : π) (replica : ι) (consents : FleetConsents) (channels : List OfferedChannel)
  | ready (process : π)
  | drop (replica : ι) (keepForResume : Bool)
  | receive (replica : ι) (message : NodeMessage)
  | observeGeneration (replica : ι) (generation : Nat)
  | finishOrphansBelow (replica : ι) (generation : Nat)
  | expireOrphan (replica : ι)
  | openChannel (replica : ι) (family : FleetLinkFamily) (consent : FleetLinkConsentRequirement)
      (requestId : Utf16) (sent : Bool)
  | closeChannel (replica : ι) (channel : Nat) (sent : Bool)

namespace LinkFleet

variable {ι π : Type}

def start : LinkFleet ι π where
  registry _ := .empty
  previousGeneration _ := none
  awaiting _ := none
  holder := none
  issued := []
  known _ := []
  last _ := none

def helloOf (fleet : LinkFleet ι π) (process : π) (consents : FleetConsents)
    (channels : List OfferedChannel) : LinkHello where
  consents
  resume := (fleet.previousGeneration process).map fun generation => ⟨generation, channels⟩

variable [DecidableEq ι] [DecidableEq π]

def withRegistry (fleet : LinkFleet ι π) (replica : ι) (registry : FleetLinkRegistry) : LinkFleet ι π :=
  { fleet with registry := update fleet.registry replica registry }

def step (fleet : LinkFleet ι π) : FleetEvent ι π → LinkFleet ι π
  | .hello process replica consents channels =>
    let hello := fleet.helloOf process consents channels
    let (registry, ready, _) := (fleet.registry replica).accept hello
    { fleet.withRegistry replica registry with
      awaiting := update fleet.awaiting process (some ready.linkGeneration)
      holder := some process
      issued := ready.linkGeneration :: fleet.issued
      known := update fleet.known replica
        (ready.linkGeneration :: ((presented hello).toList ++ fleet.known replica))
      last := update fleet.last replica (some ⟨presented hello, false⟩) }
  | .ready process =>
    match fleet.awaiting process with
    | some generation =>
      { fleet with
        previousGeneration := update fleet.previousGeneration process (some generation)
        awaiting := update fleet.awaiting process none }
    | none => fleet
  | .drop replica keepForResume =>
    fleet.withRegistry replica ((fleet.registry replica).drop keepForResume)
  | .receive replica message =>
    { fleet.withRegistry replica ((fleet.registry replica).receive message).1 with
      last := match (fleet.registry replica).link with
        | some link => update fleet.last replica (some ⟨link.resumedFrom, true⟩)
        | none => fleet.last }
  | .observeGeneration replica generation =>
    if generation ∈ fleet.issued then
      { fleet.withRegistry replica ((fleet.registry replica).observeGeneration generation) with
        known := update fleet.known replica (generation :: fleet.known replica) }
    else fleet
  | .finishOrphansBelow replica generation =>
    fleet.withRegistry replica ((fleet.registry replica).finishOrphansBelow generation)
  | .expireOrphan replica => fleet.withRegistry replica (fleet.registry replica).expireOrphan
  | .openChannel replica family consent requestId sent =>
    fleet.withRegistry replica ((fleet.registry replica).openChannel family consent requestId sent).1
  | .closeChannel replica channel sent =>
    fleet.withRegistry replica ((fleet.registry replica).closeChannel channel sent).1

end LinkFleet

structure Remembers (registry : FleetLinkRegistry) (known : List Nat) (last : Option Takeover) : Prop where
  highest : ∀ n, registry.generations ≤ n ↔ ∀ m ∈ known, m ≤ n
  on_link : ∀ link, registry.link = some link → last = some ⟨link.resumedFrom, link.heard⟩
  off_link : registry.link = none → registry.unconfirmedFrom = last.bind (·.unconfirmed)

namespace Remembers

variable {registry : FleetLinkRegistry} {known : List Nat} {last : Option Takeover}

theorem start : Remembers .empty [] none where
  highest n := by simp [FleetLinkRegistry.empty]
  on_link link there := by cases there
  off_link _ := rfl

theorem drop (remembers : Remembers registry known last) (keepForResume : Bool) :
    Remembers (registry.drop keepForResume) known last ∧
      (registry.drop keepForResume).link = none ∧
      (registry.drop keepForResume).generations = registry.generations := by
  cases there : registry.link with
  | none =>
    rw [FleetLinkRegistry.drop, there]
    exact ⟨remembers, there, rfl⟩
  | some link =>
    rw [FleetLinkRegistry.drop, there]
    refine ⟨⟨remembers.highest, fun link none => (by cases none), fun _ => ?_⟩, rfl, rfl⟩
    rw [remembers.on_link link there]
    rfl

theorem accept (remembers : Remembers registry known last) (hello : LinkHello) :
    Remembers (registry.accept hello).1
      ((registry.accept hello).2.1.linkGeneration :: ((presented hello).toList ++ known))
      (some ⟨presented hello, false⟩) := by
  obtain ⟨dropped, -, same⟩ := remembers.drop true
  refine ⟨?_, ?_, ?_⟩
  · intro n
    have known_le := dropped.highest n
    simp only [FleetLinkRegistry.accept, acceptNew]
    rw [List.forall_mem_cons, List.forall_mem_append, ← known_le]
    constructor
    · intro le
      refine ⟨le, ?_, by omega⟩
      intro m presents
      rw [mem_toList] at presents
      rw [mem_def.mp presents, getD_some] at le
      omega
    · exact fun all => all.1
  · intro link there
    simp only [FleetLinkRegistry.accept, acceptNew, some.injEq] at there
    subst there
    rfl
  · intro none
    cases none

theorem frame (remembers : Remembers registry known last) {after : FleetLinkRegistry}
    (generations : after.generations = registry.generations)
    (unconfirmed : after.unconfirmedFrom = registry.unconfirmedFrom)
    (link : after.link.map (fun link => (link.resumedFrom, link.heard)) =
      registry.link.map fun link => (link.resumedFrom, link.heard)) : Remembers after known last := by
  refine ⟨by rw [generations]; exact remembers.highest, ?_, ?_⟩
  · intro link' there
    rw [there, map_some] at link
    obtain ⟨before, isLink, same⟩ := map_eq_some_iff.mp link.symm
    rw [remembers.on_link before isLink]
    simp only [Prod.mk.injEq] at same
    rw [same.1, same.2]
  · intro none
    rw [none, map_none] at link
    rw [unconfirmed]
    exact remembers.off_link (map_eq_none_iff.mp link.symm)

theorem observeGeneration (remembers : Remembers registry known last) (generation : Nat) :
    Remembers (registry.observeGeneration generation) (generation :: known) last := by
  have highest : ∀ n, max registry.generations generation ≤ n ↔ ∀ m ∈ generation :: known, m ≤ n := by
    intro n
    have known_le := remembers.highest n
    rw [List.forall_mem_cons, ← known_le]
    omega
  by_cases above : registry.generations < generation
  · rw [FleetLinkRegistry.observeGeneration, if_pos above]
    refine ⟨?_, remembers.on_link, remembers.off_link⟩
    rw [Nat.max_eq_right (by omega)] at highest
    exact highest
  · rw [FleetLinkRegistry.observeGeneration, if_neg above]
    refine ⟨?_, remembers.on_link, remembers.off_link⟩
    rw [Nat.max_eq_left (by omega)] at highest
    exact highest

theorem receive (remembers : Remembers registry known last) (message : NodeMessage) :
    Remembers (registry.receive message).1 known
      (match registry.link with
        | some link => some ⟨link.resumedFrom, true⟩
        | none => last) := by
  cases there : registry.link with
  | none =>
    rw [FleetLinkRegistry.receive, there]
    exact remembers
  | some link =>
    rw [FleetLinkRegistry.receive, there]
    refine ⟨remembers.highest, ?_, fun none => (by cases none)⟩
    intro after isAfter
    obtain rfl := some.inj isAfter
    rw [LinkEntry.receive_resumedFrom, LinkEntry.receive_heard]

theorem finishOrphansBelow (remembers : Remembers registry known last) (generation : Nat) :
    Remembers (registry.finishOrphansBelow generation) known last := by
  apply remembers.frame <;> (unfold FleetLinkRegistry.finishOrphansBelow; split; split) <;> rfl

theorem openChannel (remembers : Remembers registry known last) (family : FleetLinkFamily)
    (consent : FleetLinkConsentRequirement) (requestId : Utf16) (sent : Bool) :
    Remembers (registry.openChannel family consent requestId sent).1 known last := by
  obtain unchanged | ⟨link, channel, there, -, opened⟩ :=
    registry.openChannel_cases family consent requestId sent
  · rw [unchanged]
    exact remembers
  · rw [opened]
    cases sent
    · exact remembers.frame rfl rfl (by simp [there, LinkEntry.opening])
    · exact remembers.frame rfl rfl (by simp [there, LinkEntry.opening])

theorem closeChannel (remembers : Remembers registry known last) (channel : Nat) (sent : Bool) :
    Remembers (registry.closeChannel channel sent).1 known last := by
  obtain unchanged | ⟨link, there, closed⟩ := registry.closeChannel_cases channel sent
  · rw [unchanged]
    exact remembers
  · rw [closed]
    exact remembers.frame rfl rfl (by simp [there])

end Remembers

namespace LinkFleet

variable {ι π : Type}

def Remember (fleet : LinkFleet ι π) : Prop :=
  ∀ replica, Remembers (fleet.registry replica) (fleet.known replica) (fleet.last replica)

theorem remember_start : (start : LinkFleet ι π).Remember := fun _ => Remembers.start

variable [DecidableEq ι]

theorem remember_withRegistry {fleet : LinkFleet ι π} (remember : fleet.Remember) {replica : ι}
    {registry : FleetLinkRegistry}
    (here : Remembers registry (fleet.known replica) (fleet.last replica)) :
    (fleet.withRegistry replica registry).Remember := by
  intro other
  by_cases same : other = replica
  · subst same
    simpa [withRegistry] using here
  · simpa [withRegistry, same] using remember other

variable [DecidableEq π]

theorem remember_step (fleet : LinkFleet ι π) (event : FleetEvent ι π) (remember : fleet.Remember) :
    (fleet.step event).Remember := by
  cases event with
  | hello process replica consents channels =>
    intro other
    by_cases same : other = replica
    · subst same
      simpa [step, withRegistry] using (remember other).accept (fleet.helloOf process consents channels)
    · simpa [step, withRegistry, same] using remember other
  | ready process =>
    intro replica
    cases waiting : fleet.awaiting process with
    | none => simpa [step, waiting] using remember replica
    | some generation => simpa [step, waiting] using remember replica
  | drop replica keepForResume =>
    exact remember_withRegistry remember ((remember replica).drop keepForResume).1
  | receive replica message =>
    intro other
    have here := (remember replica).receive message
    by_cases same : other = replica
    · subst same
      cases there : (fleet.registry other).link with
      | none => simpa [step, withRegistry, there] using here
      | some link => simpa [step, withRegistry, there] using here
    · cases there : (fleet.registry replica).link with
      | none => simpa [step, withRegistry, same, there] using remember other
      | some link => simpa [step, withRegistry, same, there] using remember other
  | observeGeneration replica generation =>
    intro other
    by_cases told : generation ∈ fleet.issued
    · by_cases same : other = replica
      · subst same
        simpa [step, told, withRegistry] using (remember other).observeGeneration generation
      · simpa [step, told, withRegistry, same] using remember other
    · simpa [step, told] using remember other
  | finishOrphansBelow replica generation =>
    exact remember_withRegistry remember ((remember replica).finishOrphansBelow generation)
  | expireOrphan replica =>
    exact remember_withRegistry remember ((remember replica).frame rfl rfl rfl)
  | openChannel replica family consent requestId sent =>
    exact remember_withRegistry remember ((remember replica).openChannel family consent requestId sent)
  | closeChannel replica channel sent =>
    exact remember_withRegistry remember ((remember replica).closeChannel channel sent)

theorem remember_run (events : List (FleetEvent ι π)) :
    (run step (start : LinkFleet ι π) events).Remember := by
  have always : Along step (fun _ _ => True) (start : LinkFleet ι π) events :=
    along_of_forall (p := fun _ => True) (fun _ _ => trivial) _
  exact run_along (fun fleet event remember _ => remember_step fleet event remember) remember_start always

end LinkFleet

namespace LinkFleet

variable {ι π : Type}

/-- The generation issued is above all the replica knows, a fresh process does not continue, and the
process that held the last link does. -/
def LawfulHello (fleet : LinkFleet ι π) (process : π) (replica : ι) (hello : LinkHello) : Prop :=
  let outcome := (fleet.registry replica).accept hello
  (∀ n ∈ fleet.known replica, n < outcome.2.1.linkGeneration) ∧
    (∀ n, presented hello = some n → n < outcome.2.1.linkGeneration) ∧
    (presented hello = none → outcome.2.2 = false) ∧
    (fleet.holder = some process → (presented hello).isSome → outcome.2.2 = true)

/-- The replica knows of no generation above the one presented, or its own last link took over from that
one and nothing arrived on it. -/
def Informed (fleet : LinkFleet ι π) (process : π) (replica : ι) : Prop :=
  fleet.holder = some process → ∀ generation, fleet.previousGeneration process = some generation →
    (∀ n ∈ fleet.known replica, n ≤ generation) ∨ fleet.last replica = some ⟨some generation, false⟩

end LinkFleet

theorem Remembers.continued_iff {registry : FleetLinkRegistry} {known : List Nat} {last : Option Takeover}
    (remembers : Remembers registry known last) {hello : LinkHello} {generation : Nat}
    (presents : presented hello = some generation) :
    (registry.accept hello).2.2 = true ↔
      (∀ n ∈ known, n ≤ generation) ∨ last = some ⟨some generation, false⟩ := by
  obtain ⟨dropped, none, -⟩ := remembers.drop true
  have zero_le : (registry.drop true).generations = 0 →
      (registry.drop true).generations ≤ generation := by omega
  have unconfirmed : (registry.drop true).unconfirmedFrom = some generation ↔
      last = some ⟨some generation, false⟩ := by
    rw [dropped.off_link none]
    cases last with
    | none => simp
    | some takeover =>
      obtain ⟨resumedFrom, heard⟩ := takeover
      cases heard <;> simp [Takeover.unconfirmed]
  rw [FleetLinkRegistry.accept, acceptNew, continued, presents, ← dropped.highest, ← unconfirmed]
  simp only [Bool.or_eq_true, beq_iff_eq, decide_eq_true_eq]
  constructor
  · rintro ((zero | le) | same)
    · exact .inl (zero_le zero)
    · exact .inl le
    · exact .inr same
  · rintro (le | same)
    · exact .inl (.inr le)
    · exact .inr same

theorem Remembers.issued_above {registry : FleetLinkRegistry} {known : List Nat} {last : Option Takeover}
    (remembers : Remembers registry known last) (hello : LinkHello) :
    (∀ n ∈ known, n < (registry.accept hello).2.1.linkGeneration) ∧
      ∀ n, presented hello = some n → n < (registry.accept hello).2.1.linkGeneration := by
  obtain ⟨dropped, -, -⟩ := remembers.drop true
  have above := (dropped.highest _).mp (Nat.le_refl _)
  constructor
  · intro n inside
    have le := above n inside
    simp only [FleetLinkRegistry.accept, acceptNew]
    omega
  · intro n isPresented
    simp only [FleetLinkRegistry.accept, acceptNew, isPresented, getD_some]
    omega

theorem LinkFleet.lawful_iff {ι π : Type} {fleet : LinkFleet ι π} (remember : fleet.Remember) (process : π)
    (replica : ι) {hello : LinkHello} (presents : presented hello = fleet.previousGeneration process) :
    fleet.LawfulHello process replica hello ↔ fleet.Informed process replica := by
  obtain ⟨known, above⟩ := (remember replica).issued_above hello
  rw [LawfulHello, Informed, ← presents]
  cases presentation : presented hello with
  | none =>
    have fresh : ((fleet.registry replica).accept hello).2.2 = false := by
      rw [FleetLinkRegistry.accept, acceptNew, continued, presentation]
    constructor
    · intro _ _ generation isSome
      cases isSome
    · intro _
      exact ⟨known, fun n isSome => (by cases isSome), fun _ => fresh, fun _ isSome => (by cases isSome)⟩
  | some generation =>
    have continues := (remember replica).continued_iff presentation
    constructor
    · rintro ⟨-, -, -, held⟩ holds _ same
      obtain rfl := some.inj same
      exact continues.mp (held holds rfl)
    · intro informed
      refine ⟨known, ?_, fun isNone => (by cases isNone), ?_⟩
      · intro n isSome
        exact above n (presentation.trans isSome)
      · intro holds _
        exact continues.mpr (informed holds generation rfl)

/-- In every state of every run, a hello finds what it should exactly when the replica is informed. -/
theorem hello_lawful_iff {ι π : Type} [DecidableEq ι] [DecidableEq π] (events : List (FleetEvent ι π))
    (process : π) (replica : ι) (consents : FleetConsents) (channels : List OfferedChannel) :
    let fleet := run LinkFleet.step LinkFleet.start events
    fleet.LawfulHello process replica (fleet.helloOf process consents channels) ↔
      fleet.Informed process replica := by
  intro fleet
  apply LinkFleet.lawful_iff (LinkFleet.remember_run events)
  simp [presented, LinkFleet.helloOf, comp_def, fleet]

/-- A process links to the first replica, loses the ready of the second, and the first hears of it. -/
def hopped : LinkFleet Bool Unit :=
  run LinkFleet.step LinkFleet.start
    [.hello () false ⟨true, false, false, false⟩ [], .ready (),
      .hello () true ⟨true, false, false, false⟩ [], .observeGeneration false 2]

/-- Back at the first replica the process that held the last link counts as a fresh one. -/
theorem hop_not_continued :
    hopped.holder = some () ∧ hopped.previousGeneration () = some 1 ∧
      ¬ hopped.LawfulHello () false (hopped.helloOf () ⟨true, false, false, false⟩ []) := by
  refine ⟨rfl, rfl, ?_⟩
  rintro ⟨-, -, -, held⟩
  have continues := held rfl rfl
  exact absurd continues (by decide)

end EverWorks.Fleet
