import EverWorks.Fleet.LargestReading

/-!
# Ingests side by side

What an ingest's calls do to the samples, in every order in which no write takes back what another one stored.
-/

namespace EverWorks.Fleet
open Lib Lib.Program List

def FleetUsageSample.bucket (sample : FleetUsageSample) : StoredBucket :=
  ⟨sample.tokens, sample.requests, sample.firstAt, sample.lastAt⟩

/-- The write of a merge takes nothing back from the sample it meets: where it sets the counts, what is stored by then
is within the merge of what was read and the row, and an owner goes to a sample that has none, or this one. -/
def TakesNothingBack (store : UsageStore) : UsageCall → Prop
  | .update stored row patch => ∀ current ∈ store.samples, current.dedupeKey = stored.dedupeKey →
      (patch.counts.isSome = true → current.reading ≤ (mergeBucket stored.bucket row).reading) ∧
      ∀ owner ∈ patch.owner, current.attributed = false ∨ ownedBy current owner = current
  | _ => True

noncomputable instance (store : UsageStore) : (request : UsageCall) → Decidable (TakesNothingBack store request)
  | .update stored row patch => inferInstanceAs (Decidable (∀ current ∈ store.samples,
      current.dedupeKey = stored.dedupeKey →
      (patch.counts.isSome = true → current.reading ≤ (mergeBucket stored.bucket row).reading) ∧
      ∀ owner ∈ patch.owner, current.attributed = false ∨ ownedBy current owner = current))
  | .find _ | .insert _ | .findOne _ | .claim .. | .finish _ => isTrue trivial

/-- The next call of an ingest takes nothing back. -/
def WritesForward (pool : Pool UsageStore UsageCall UsageReply Empty) (place : Nat) : Prop :=
  match pool.programs[place]? with
  | some (.call request _) => TakesNothingBack pool.state request
  | _ => True

noncomputable instance (pool : Pool UsageStore UsageCall UsageReply Empty) (place : Nat) :
    Decidable (WritesForward pool place) :=
  match found : pool.programs[place]? with
  | some (.call request _) => decidable_of_iff (TakesNothingBack pool.state request) (by rw [WritesForward, found])
  | some (.done _) => isTrue (by rw [WritesForward, found]; trivial)
  | some (.fork _ _) => isTrue (by rw [WritesForward, found]; trivial)
  | none => isTrue (by rw [WritesForward, found]; trivial)

structure Grows (before after : FleetUsageSample) : Prop where
  key : after.dedupeKey = before.dedupeKey
  reading : before.reading ≤ after.reading
  owner : before.attributed = true →
    after.fleetSessionId = before.fleetSessionId ∧ after.agentRunId = before.agentRunId

variable (deps : UsageDeps) (reports : List UsageReport)

def BoundsBucket (key : String) (bound : Reading) : Prop :=
  ∀ report ∈ reports, ∀ row ∈ report.rows, fleetUsageDedupeKey deps report.nodeId row = key → row.reading ≤ bound

def Covers (store : UsageStore) (keyed : KeyedRow) : Prop :=
  ∃ sample ∈ store.samples, sample.dedupeKey = keyed.key ∧ keyed.row.reading ≤ sample.reading

structure UsageInvariant (store : UsageStore) : Prop where
  unique : (store.samples.map (·.dedupeKey)).Nodup
  within : ∀ sample ∈ store.samples, ∀ bound, BoundsBucket deps reports sample.dedupeKey bound → sample.reading ≤ bound

structure UsageRely (before after : UsageStore) : Prop where
  grows : ∀ sample ∈ before.samples, ∃ later ∈ after.samples, Grows sample later
  kept : UsageInvariant deps reports before → UsageInvariant deps reports after

structure UsageGuar (ingest : Nat) (before after : UsageStore) : Prop extends UsageRely deps reports before after where
  finished : after.finished = before.finished ∨ (after.finished = before.finished ++ [ingest] ∧
    ∀ report, reports[ingest]? = some report → ∀ keyed ∈ keyRows deps report.nodeId report.rows, Covers after keyed)

section
variable {deps reports} {before after store : UsageStore} {stored : FleetUsageSample} {keyed : KeyedRow}
  {row : FleetUsageRow} {patch : SamplePatch}

/-! ## Samples that grow -/

theorem Grows.refl (sample : FleetUsageSample) : Grows sample sample := ⟨rfl, le_rfl, fun _ => ⟨rfl, rfl⟩⟩

theorem Grows.trans {a b c : FleetUsageSample} (first : Grows a b) (second : Grows b c) : Grows a c where
  key := second.key.trans first.key
  reading := first.reading.trans second.reading
  owner attributed := by
    obtain ⟨session, run⟩ := first.owner attributed
    have still : b.attributed = true := by rw [FleetUsageSample.attributed, session, run]; exact attributed
    obtain ⟨session', run'⟩ := second.owner still
    exact ⟨session'.trans session, run'.trans run⟩

theorem UsageRely.refl (store : UsageStore) : UsageRely deps reports store store :=
  ⟨fun sample listed => ⟨sample, listed, .refl sample⟩, id⟩

theorem UsageRely.trans {a b c : UsageStore} (first : UsageRely deps reports a b)
    (second : UsageRely deps reports b c) : UsageRely deps reports a c where
  grows sample listed := by
    obtain ⟨later, inside, grown⟩ := first.grows sample listed
    obtain ⟨last, inside', grown'⟩ := second.grows later inside
    exact ⟨last, inside', grown.trans grown'⟩
  kept := second.kept ∘ first.kept

theorem Covers.later (covers : Covers before keyed) (rely : UsageRely deps reports before after) :
    Covers after keyed := by
  obtain ⟨sample, listed, key, within⟩ := covers
  obtain ⟨later, inside, grown⟩ := rely.grows sample listed
  exact ⟨later, inside, grown.key.trans key, within.trans grown.reading⟩

@[simp] theorem ownedBy_dedupeKey (sample : FleetUsageSample) (owner : Attribution) :
    (ownedBy sample owner).dedupeKey = sample.dedupeKey := by
  cases owner <;> rfl

@[simp] theorem ownedBy_reading (sample : FleetUsageSample) (owner : Attribution) :
    (ownedBy sample owner).reading = sample.reading := by
  cases owner <;> rfl

@[simp] theorem apply_dedupeKey (patch : SamplePatch) (sample : FleetUsageSample) :
    (patch.apply sample).dedupeKey = sample.dedupeKey := by
  rw [SamplePatch.apply]
  cases patch.counts <;> cases patch.owner <;> simp

theorem apply_reading (patch : SamplePatch) (sample : FleetUsageSample) :
    (patch.apply sample).reading = match patch.counts with
      | some (merged, _) => merged.reading
      | none => sample.reading := by
  rw [SamplePatch.apply]
  cases patch.counts <;> cases patch.owner <;> simp <;> rfl

theorem grows_ownedBy {sample : FleetUsageSample} {owner : Attribution}
    (free : sample.attributed = false ∨ ownedBy sample owner = sample) : Grows sample (ownedBy sample owner) := by
  refine ⟨ownedBy_dedupeKey sample owner, (ownedBy_reading sample owner).ge, fun attributed => ?_⟩
  rcases free with free | same
  · rw [free] at attributed
    cases attributed
  · rw [same]
    exact ⟨rfl, rfl⟩

/-! ## A merge that is written -/

def mergeFresh (row : FleetUsageRow) (current : FleetUsageSample) : FleetUsageSample :=
  let merged := mergeBucket ⟨current.tokens, current.requests, current.firstAt, current.lastAt⟩ row
  SamplePatch.apply { counts := some (merged, none) } current

noncomputable def serveForward : (request : UsageCall) → UsageStore → UsageReply request × UsageStore
  | .update stored row patch, store =>
    if TakesNothingBack store (.update stored row patch) then serveUsage (.update stored row patch) store
    else ((), { store with samples := Table.update (·.dedupeKey) stored.dedupeKey (mergeFresh row) store.samples })
  | request, store => serveUsage request store

theorem rely_update {f : FleetUsageSample → FleetUsageSample} {key : String}
    (grows : ∀ current ∈ store.samples, current.dedupeKey = key → Grows current (f current))
    (within : UsageInvariant deps reports store → ∀ current ∈ store.samples, current.dedupeKey = key →
      ∀ bound, BoundsBucket deps reports key bound → (f current).reading ≤ bound)
    (named : ∀ current, (f current).dedupeKey = current.dedupeKey) :
    UsageRely deps reports store
      { store with samples := Table.update (·.dedupeKey) key f store.samples } where
  grows sample listed := by
    by_cases hit : sample.dedupeKey = key
    · exact ⟨f sample, Table.mem_update.mpr ⟨sample, listed, .inl ⟨hit, rfl⟩⟩, grows sample listed hit⟩
    · exact ⟨sample, Table.mem_update_of_ne listed hit, .refl sample⟩
  kept holds := by
    refine ⟨?_, fun sample listed bound bounds => ?_⟩
    · rw [Table.map_update _ named]
      exact holds.unique
    · obtain ⟨old, member, ⟨hit, rfl⟩ | ⟨miss, rfl⟩⟩ := Table.mem_update.mp listed
      · rw [named, hit] at bounds
        exact within holds old member hit bound bounds
      · exact holds.within sample member bound bounds

structure Seen (deps : UsageDeps) (reports : List UsageReport) (stored : FleetUsageSample) (store : UsageStore) :
    Prop where
  still : ∃ current ∈ store.samples, Grows stored current
  within : ∀ bound, BoundsBucket deps reports stored.dedupeKey bound → stored.reading ≤ bound

theorem Seen.later (seen : Seen deps reports stored before) (rely : UsageRely deps reports before after) :
    Seen deps reports stored after := by
  obtain ⟨current, listed, grown⟩ := seen.still
  obtain ⟨later, inside, grown'⟩ := rely.grows current listed
  exact ⟨⟨later, inside, grown.trans grown'⟩, seen.within⟩

theorem seen_of_mem (holds : UsageInvariant deps reports store) (listed : stored ∈ store.samples) :
    Seen deps reports stored store :=
  ⟨⟨stored, listed, .refl stored⟩, holds.within stored listed⟩

def Ours (deps : UsageDeps) (reports : List UsageReport) (keyed : KeyedRow) : Prop :=
  ∀ bound, BoundsBucket deps reports keyed.key bound → keyed.row.reading ≤ bound

theorem mergeFresh_reading (row : FleetUsageRow) (current : FleetUsageSample) :
    (mergeFresh row current).reading = current.reading ⊔ row.reading := by
  rw [mergeFresh, apply_reading]
  exact mergeBucket_reading _ row

theorem mergeFresh_grows (row : FleetUsageRow) (current : FleetUsageSample) :
    Grows current (mergeFresh row current) where
  key := apply_dedupeKey _ current
  reading := by rw [mergeFresh_reading]; exact le_sup_left
  owner _ := ⟨rfl, rfl⟩

variable (deps) in
theorem samplePatch_counts (stored : FleetUsageSample) (row : FleetUsageRow) (owner : Option Attribution) :
    (∃ counted, (samplePatch deps stored row owner).counts = some counted ∧
      counted.1.reading = stored.reading ⊔ row.reading) ∨
    ((samplePatch deps stored row owner).counts = none ∧ row.reading ≤ stored.reading) := by
  cases changes : (mergeBucket ⟨stored.tokens, stored.requests, stored.firstAt, stored.lastAt⟩ row).changed with
  | true =>
    exact .inl ⟨_, if_pos changes,
      mergeBucket_reading ⟨stored.tokens, stored.requests, stored.firstAt, stored.lastAt⟩ row⟩
  | false => exact .inr ⟨if_neg (by rw [changes]; exact Bool.false_ne_true), le_of_unchanged changes⟩

/-! ## One ingest -/

variable (deps reports) in
abbrev Careful (ingest : Nat) {α : Type} (post : α → UsageStore → Prop) (program : UsageProgram α) :
    UsageStore → Prop :=
  program.Holds serveForward (UsageRely deps reports) (UsageGuar deps reports ingest) post

theorem UsageRely.guar {ingest : Nat} (rely : UsageRely deps reports before after)
    (same : after.finished = before.finished) : UsageGuar deps reports ingest before after :=
  ⟨rely, .inl same⟩

theorem serveForward_update (stored : FleetUsageSample) (row : FleetUsageRow) (patch : SamplePatch)
    (store : UsageStore) :
    ∃ f, (serveForward (.update stored row patch) store).2 =
        { store with samples := Table.update (·.dedupeKey) stored.dedupeKey f store.samples } ∧
      (f = patch.apply ∧ TakesNothingBack store (.update stored row patch) ∨ f = mergeFresh row) := by
  rw [serveForward]
  split
  · rename_i forward
    exact ⟨_, rfl, .inl ⟨rfl, forward⟩⟩
  · exact ⟨_, rfl, .inr rfl⟩

theorem update_merges {owner : Option Attribution} {f : FleetUsageSample → FleetUsageSample}
    {current : FleetUsageSample} (listed : current ∈ store.samples) (hit : current.dedupeKey = stored.dedupeKey)
    (shape : f = (samplePatch deps stored row owner).apply ∧
      TakesNothingBack store (.update stored row (samplePatch deps stored row owner)) ∨ f = mergeFresh row)
    (grown : stored.reading ≤ current.reading) :
    Grows current (f current) ∧ row.reading ≤ (f current).reading ∧
      (f current).reading ≤ current.reading ⊔ (stored.reading ⊔ row.reading) := by
  rcases shape with ⟨rfl, forward⟩ | rfl
  · obtain ⟨counts, owners⟩ := forward current listed hit
    have kept : current.attributed = true → ((samplePatch deps stored row owner).apply current).fleetSessionId =
          current.fleetSessionId ∧ ((samplePatch deps stored row owner).apply current).agentRunId =
          current.agentRunId := by
      intro attributed
      rw [SamplePatch.apply]
      cases given : (samplePatch deps stored row owner).owner with
      | none => cases (samplePatch deps stored row owner).counts <;> exact ⟨rfl, rfl⟩
      | some next =>
        rcases owners next given with free | same
        · rw [free] at attributed
          cases attributed
        · have session := congrArg FleetUsageSample.fleetSessionId same
          have run := congrArg FleetUsageSample.agentRunId same
          cases next <;> cases (samplePatch deps stored row owner).counts <;> exact ⟨session, run⟩
    rcases samplePatch_counts deps stored row owner with ⟨counted, set, reading⟩ | ⟨set, within⟩
    · have now : ((samplePatch deps stored row owner).apply current).reading = stored.reading ⊔ row.reading := by
        rw [apply_reading, set]
        exact reading
      refine ⟨⟨apply_dedupeKey _ current, ?_, kept⟩, ?_, ?_⟩
      · rw [now]
        exact (counts (by rw [set]; rfl)).trans (mergeBucket_reading stored.bucket row).le
      · rw [now]
        exact le_sup_right
      · rw [now]
        exact le_sup_right
    · have now : ((samplePatch deps stored row owner).apply current).reading = current.reading := by
        rw [apply_reading, set]
      refine ⟨⟨apply_dedupeKey _ current, now.ge, kept⟩, ?_, ?_⟩
      · rw [now]
        exact within.trans grown
      · rw [now]
        exact le_sup_left
  · refine ⟨mergeFresh_grows row current, ?_, ?_⟩
    · rw [mergeFresh_reading]
      exact le_sup_right
    · rw [mergeFresh_reading]
      exact sup_le_sup_left le_sup_right _

variable {ingest : Nat} {owner : Option Attribution}

def Merged (deps : UsageDeps) (reports : List UsageReport) (keyeds : List KeyedRow) (store : UsageStore) : Prop :=
  UsageInvariant deps reports store ∧ ∀ keyed ∈ keyeds, Covers store keyed

theorem Merged.later {keyeds : List KeyedRow} (merged : Merged deps reports keyeds before)
    (rely : UsageRely deps reports before after) : Merged deps reports keyeds after :=
  ⟨rely.kept merged.1, fun keyed listed => (merged.2 keyed listed).later rely⟩

theorem careful_mergeStored (holds : UsageInvariant deps reports store) (seen : Seen deps reports stored store)
    (ours : Ours deps reports keyed) (named : stored.dedupeKey = keyed.key) :
    Careful deps reports ingest (fun _ => Merged deps reports [keyed]) (mergeStored deps keyed owner stored) store := by
  rw [mergeStored]
  split
  · rename_i nothing
    intro later rely
    refine Merged.later ⟨holds, fun other listed => ?_⟩ rely
    rw [mem_singleton.mp listed]
    obtain ⟨current, member, grown⟩ := seen.still
    refine ⟨current, member, grown.key.trans named, ?_⟩
    rcases samplePatch_counts deps stored keyed.row owner with ⟨counted, set, _⟩ | ⟨_, within⟩
    · rw [SamplePatch.isEmpty, set] at nothing
      cases nothing
    · exact within.trans grown.reading
  · refine Holds.ask fun writing rely => ?_
    obtain ⟨f, written, shape⟩ :=
      serveForward_update stored keyed.row (samplePatch deps stored keyed.row owner) writing
    have holds' := rely.kept holds
    obtain ⟨current, member, grown⟩ := (seen.later rely).still
    have each : ∀ other ∈ writing.samples, other.dedupeKey = stored.dedupeKey → other = current :=
      fun other listed hit =>
        inj_on_of_nodup_map holds'.unique listed member (hit.trans grown.key.symm)
    have merges := update_merges member grown.key shape grown.reading
    have steps : UsageRely deps reports writing
        { writing with samples := Table.update (·.dedupeKey) stored.dedupeKey f writing.samples } := by
      refine rely_update (fun other listed hit => ?_) (fun _ other listed hit bound bounds => ?_) fun other => ?_
      · rw [each other listed hit]
        exact merges.1
      · rw [each other listed hit]
        refine merges.2.2.trans (sup_le (holds'.within current member bound ?_) (sup_le ?_ ?_))
        · rw [grown.key]
          exact bounds
        · exact seen.within bound bounds
        · rw [named] at bounds
          exact ours bound bounds
      · rcases shape with ⟨rfl, _⟩ | rfl
        · exact apply_dedupeKey _ other
        · exact apply_dedupeKey _ other
    rw [written]
    refine ⟨steps.guar rfl, fun later rely' => Merged.later ⟨steps.kept holds', fun other listed => ?_⟩ rely'⟩
    rw [mem_singleton.mp listed]
    refine ⟨f current, Table.mem_update.mpr ⟨current, member, .inl ⟨grown.key, rfl⟩⟩, ?_, merges.2.1⟩
    exact merges.1.key.trans (grown.key.trans named)

theorem rely_insert {sample : FleetUsageSample} (fresh : sample.dedupeKey ∉ store.samples.map (·.dedupeKey))
    (within : ∀ bound, BoundsBucket deps reports sample.dedupeKey bound → sample.reading ≤ bound) :
    UsageRely deps reports store { store with samples := store.samples ++ [sample] } where
  grows old listed := ⟨old, mem_append_left _ listed, .refl old⟩
  kept holds := by
    refine ⟨?_, fun other listed => ?_⟩
    · rw [map_append, map_singleton, ← concat_eq_append, nodup_concat]
      exact ⟨fresh, holds.unique⟩
    · rcases mem_append.mp listed with listed | listed
      · exact holds.within other listed
      · rw [mem_singleton.mp listed]
        exact within

theorem careful_upsert {nodeId : String} {existing : Option FleetUsageSample}
    (holds : UsageInvariant deps reports store)
    (seen : ∀ stored, existing = some stored → Seen deps reports stored store ∧ stored.dedupeKey = keyed.key)
    (ours : Ours deps reports keyed) :
    Careful deps reports ingest (fun outcome store => UsageInvariant deps reports store ∧
      (outcome.isSome = true → Covers store keyed)) (upsert deps nodeId keyed owner existing) store := by
  have merging {stored : FleetUsageSample} {store : UsageStore} (holds : UsageInvariant deps reports store)
      (seen : Seen deps reports stored store) (named : stored.dedupeKey = keyed.key) :
      Careful deps reports ingest (fun outcome store => UsageInvariant deps reports store ∧
        (outcome.isSome = true → Covers store keyed))
        (mergeStored deps keyed owner stored >>= fun outcome => pure (some outcome)) store := by
    refine Holds.bind UsageRely.refl (careful_mergeStored holds seen ours named) fun outcome merged done => ?_
    intro later rely
    have still := done.later rely
    exact ⟨still.1, fun _ => still.2 keyed (mem_singleton_self keyed)⟩
  cases existing with
  | some stored => exact merging holds (seen stored rfl).1 (seen stored rfl).2
  | none =>
    refine Holds.ask fun inserting rely => ?_
    have holds' := rely.kept holds
    by_cases had : keyed.key ∈ inserting.samples.map (·.dedupeKey)
    · have refused : serveForward (.insert (newSample deps nodeId keyed owner)) inserting = (false, inserting) :=
        if_pos had
      rw [refused]
      refine ⟨(UsageRely.refl inserting).guar rfl, ?_⟩
      dsimp only
      rw [if_neg Bool.false_ne_true]
      refine Holds.ask fun reading more => ⟨(UsageRely.refl reading).guar rfl, ?_⟩
      have holds'' := more.kept holds'
      split
      · exact fun later rely => ⟨rely.kept holds'', nofun⟩
      · rename_i raced found
        exact merging holds'' (seen_of_mem holds'' (mem_of_find?_eq_some found))
          (by simpa using find?_some found)
    · have inserted : serveForward (.insert (newSample deps nodeId keyed owner)) inserting =
          (true, { inserting with samples := inserting.samples ++ [newSample deps nodeId keyed owner] }) := if_neg had
      have steps : UsageRely deps reports inserting
          { inserting with samples := inserting.samples ++ [newSample deps nodeId keyed owner] } := rely_insert had ours
      rw [inserted]
      refine ⟨steps.guar rfl, ?_⟩
      dsimp only
      rw [if_pos rfl]
      refine fun later rely' => ⟨rely'.kept (steps.kept holds'), fun _ => Covers.later ?_ rely'⟩
      exact ⟨_, mem_append_right _ (mem_singleton_self _), rfl, le_rfl⟩

theorem careful_bind {α β : Type} {post : α → UsageStore → Prop} {post' : β → UsageStore → Prop}
    {program : UsageProgram α} {f : α → UsageProgram β} (first : Careful deps reports ingest post program store)
    (rest : ∀ value later, UsageRely deps reports store later → post value later →
      Careful deps reports ingest post' (f value) later) :
    Careful deps reports ingest post' (program >>= f) store :=
  Holds.bind UsageRely.refl
    (first.track (fun _ _ => id) (fun _ _ guar => guar.toUsageRely) (fun _ _ _ => .trans) (.refl store))
    fun value later done => rest value later done.1 done.2

variable {report : UsageReport}

theorem careful_upsertEach {existing : List FleetUsageSample} (keyeds : List KeyedRow)
    (holds : UsageInvariant deps reports store) (seen : ∀ stored ∈ existing, Seen deps reports stored store)
    (ours : ∀ keyed ∈ keyeds, Ours deps reports keyed) :
    Careful deps reports ingest (fun outcomes store => UsageInvariant deps reports store ∧
      (outcomes.isSome = true → ∀ keyed ∈ keyeds, Covers store keyed))
      (upsertEach deps report existing keyeds) store := by
  induction keyeds generalizing store with
  | nil => exact fun later rely => ⟨rely.kept holds, fun _ => nofun⟩
  | cons keyed rest ih =>
    have first : ∀ stored, existing.find? (·.dedupeKey = keyed.key) = some stored →
        Seen deps reports stored store ∧ stored.dedupeKey = keyed.key :=
      fun stored found => ⟨seen stored (mem_of_find?_eq_some found), by simpa using find?_some found⟩
    refine careful_bind (careful_upsert holds first (ours keyed mem_cons_self)) fun outcome later rely done => ?_
    split
    · exact fun last more => ⟨more.kept done.1, nofun⟩
    · refine careful_bind (ih done.1 (fun stored listed => (seen stored listed).later rely)
        fun other inside => ours other (mem_cons_of_mem _ inside)) fun outcomes last more each => ?_
      have here := (done.2 rfl).later more
      split
      · exact fun last more => ⟨more.kept each.1, nofun⟩
      · refine fun last more => ⟨more.kept each.1, fun _ other inside => ?_⟩
        rcases mem_cons.mp inside with rfl | inside
        · exact here.later more
        · exact (each.2 rfl other inside).later more

theorem careful_ingestChunks (chunks : List (List KeyedRow))
    (holds : UsageInvariant deps reports store) (ours : ∀ keyed ∈ chunks.flatten, Ours deps reports keyed) :
    Careful deps reports ingest (fun outcomes store => UsageInvariant deps reports store ∧
      (outcomes.isSome = true → ∀ keyed ∈ chunks.flatten, Covers store keyed))
      (ingestChunks deps report chunks) store := by
  induction chunks generalizing store with
  | nil => exact fun later rely => ⟨rely.kept holds, fun _ => nofun⟩
  | cons chunk rest ih =>
    rw [flatten_cons] at ours ⊢
    refine Holds.ask fun reading rely => ⟨(UsageRely.refl reading).guar rfl, ?_⟩
    have holds' := rely.kept holds
    have seen : ∀ stored ∈ (serveForward (.find (chunk.map (·.key))) reading).1, Seen deps reports stored reading :=
      fun stored listed => seen_of_mem holds' (mem_of_mem_filter listed)
    refine careful_bind (careful_upsertEach chunk holds' seen fun keyed inside =>
      ours keyed (mem_append_left _ inside)) fun outcomes later rely done => ?_
    split
    · exact fun last more => ⟨more.kept done.1, nofun⟩
    · refine careful_bind (ih done.1 fun keyed inside => ours keyed (mem_append_right _ inside))
        fun outcomes last more each => ?_
      split
      · exact fun last more => ⟨more.kept each.1, nofun⟩
      · refine fun last more' => ⟨more'.kept each.1, fun _ keyed inside => ?_⟩
        rcases mem_append.mp inside with inside | inside
        · exact ((done.2 rfl keyed inside).later more).later more'
        · exact (each.2 rfl keyed inside).later more'

theorem rely_claim {nodeId provider providerSessionId : String} {owner : Attribution} :
    UsageRely deps reports store (serveUsage (.claim nodeId provider providerSessionId owner) store).2 where
  grows sample listed := by
    refine ⟨_, mem_map_of_mem listed, ?_⟩
    split
    · rename_i free
      exact grows_ownedBy (.inl free.2.2.2)
    · exact .refl sample
  kept holds := by
    have keys : (serveUsage (.claim nodeId provider providerSessionId owner) store).2.samples.map (·.dedupeKey) =
        store.samples.map (·.dedupeKey) := by
      rw [serveUsage, List.map_map]
      refine map_congr_left fun sample _ => ?_
      rw [Function.comp_apply]
      split
      · exact ownedBy_dedupeKey sample owner
      · rfl
    refine ⟨by rw [keys]; exact holds.unique, fun sample listed bound bounds => ?_⟩
    obtain ⟨old, member, rfl⟩ := mem_map.mp listed
    split at bounds
    · rw [ownedBy_dedupeKey] at bounds
      split
      · rw [ownedBy_reading]
        exact holds.within old member bound bounds
      · contradiction
    · split
      · contradiction
      · exact holds.within old member bound bounds

theorem careful_claimEach {nodeId : String} (claims : List (String × String × Attribution)) :
    Careful deps reports ingest (fun _ _ => True) (claimEach nodeId claims) store := by
  induction claims generalizing store with
  | nil => exact fun _ _ => trivial
  | cons claim rest ih => exact Holds.ask fun claiming _ => ⟨rely_claim.guar rfl, ih⟩

theorem rely_finish {number : Nat} : UsageRely deps reports store (serveUsage (.finish number) store).2 :=
  ⟨fun sample listed => ⟨sample, listed, .refl sample⟩, fun holds => ⟨holds.unique, holds.within⟩⟩

theorem careful_ingest (found : reports[ingest]? = some report)
    (holds : UsageInvariant deps reports store) :
    Careful deps reports ingest (fun _ _ => True) (Fleet.ingest deps ingest report) store := by
  have listed := mem_of_getElem? found
  have whole : (chunks usageChunk (keyRows deps report.nodeId report.rows)).flatten =
      keyRows deps report.nodeId report.rows := flatten_chunks (by decide) _
  have ours : ∀ keyed ∈ (chunks usageChunk (keyRows deps report.nodeId report.rows)).flatten,
      Ours deps reports keyed := by
    intro keyed inside bound bounds
    rw [whole] at inside
    exact keyRows_within report.rows inside fun row member => bounds report listed row member
  refine careful_bind (careful_ingestChunks _ holds ours) fun outcomes later rely done => ?_
  split
  · exact fun _ _ => trivial
  · refine careful_bind (careful_claimEach _) fun _ last more _ => ?_
    refine fun ending more' => ⟨⟨rely_finish, .inr ⟨rfl, ?_⟩⟩, fun _ _ => trivial⟩
    rintro other found' keyed inside
    rw [found] at found'
    rw [← Option.some.inj found', ← whole] at inside
    have ended : Covers ending keyed := ((done.2 rfl keyed inside).later more).later more'
    exact ended

/-! ## Every order of the calls -/

variable (deps reports) in
structure RunInvariant (store : UsageStore) : Prop extends UsageInvariant deps reports store where
  covered : ∀ ingest ∈ store.finished, ∀ report, reports[ingest]? = some report →
    ∀ keyed ∈ keyRows deps report.nodeId report.rows, Covers store keyed

theorem RunInvariant.step (holds : RunInvariant deps reports before)
    (guar : UsageGuar deps reports ingest before after) : RunInvariant deps reports after := by
  refine ⟨guar.kept holds.toUsageInvariant, fun number listed report found keyed inside => ?_⟩
  rcases guar.finished with same | ⟨more, covers⟩
  · rw [same] at listed
    exact (holds.covered number listed report found keyed inside).later guar.toUsageRely
  · rw [more] at listed
    rcases mem_append.mp listed with old | own
    · exact (holds.covered number old report found keyed inside).later guar.toUsageRely
    · rw [mem_singleton.mp own] at found
      exact covers report found keyed inside

theorem usagePool_inStep : Pool.InStep serveForward (fun _ => UsageRely deps reports) (UsageGuar deps reports)
    (usagePool deps reports) := by
  intro number program there
  rw [usagePool, getElem?_mapIdx, Option.map_eq_some_iff] at there
  obtain ⟨report, found, rfl⟩ := there
  have holds : UsageInvariant deps reports (usagePool deps reports).state := ⟨nodup_nil, fun _ listed => absurd listed not_mem_nil⟩
  exact careful_ingest found holds

theorem run_forward {pool : Pool UsageStore UsageCall UsageReply Empty} {schedule : List Nat}
    (forward : Along (Pool.step serveUsage Empty.elim) WritesForward pool schedule) :
    run (Pool.step serveForward Empty.elim) pool schedule = run (Pool.step serveUsage Empty.elim) pool schedule := by
  refine Pool.run_congr (along_mono (fun pool place writes request next found => ?_) forward)
  rw [WritesForward, found] at writes
  cases request with
  | update stored row patch => exact if_pos writes
  | find keys => rfl
  | insert sample => rfl
  | findOne key => rfl
  | claim nodeId provider providerSessionId owner => rfl
  | finish number => rfl

theorem forward_inStep {schedule : List Nat}
    (forward : Along (Pool.step serveUsage Empty.elim) WritesForward (usagePool deps reports) schedule) :
    Pool.InStep serveForward (fun _ => UsageRely deps reports) (UsageGuar deps reports)
        (run (Pool.step serveUsage Empty.elim) (usagePool deps reports) schedule) ∧
      RunInvariant deps reports (afterIngests deps reports schedule) := by
  have empty : RunInvariant deps reports (usagePool deps reports).state :=
    { unique := nodup_nil
      within := fun _ listed => absurd listed not_mem_nil
      covered := fun _ listed => absurd listed not_mem_nil }
  rw [afterIngests, ← run_forward forward]
  exact Pool.run_inStep (fun _ => .refl) (fun _ _ _ _ => .trans) (fun _ _ _ _ _ guar => guar.toUsageRely)
    (fun _ _ _ _ holds guar => holds.step guar) usagePool_inStep empty

theorem grows_along {first rest : List Nat}
    (forward : Along (Pool.step serveUsage Empty.elim) WritesForward (usagePool deps reports) (first ++ rest)) :
    UsageRely deps reports (afterIngests deps reports first) (afterIngests deps reports (first ++ rest)) := by
  obtain ⟨before, after⟩ := along_append.mp forward
  have inStep := (forward_inStep before).1
  have keeps : ∀ place ∈ rest, ∀ a b, UsageRely deps reports (afterIngests deps reports first) a →
      UsageGuar deps reports place a b → UsageRely deps reports (afterIngests deps reports first) b :=
    fun _ _ _ _ so_far guar => so_far.trans guar.toUsageRely
  rw [afterIngests, afterIngests, run_append, ← run_forward after]
  exact (Pool.run_inStep (fun _ => .refl) (fun _ _ _ _ => .trans) (fun _ _ _ _ _ guar => guar.toUsageRely) keeps
    inStep (.refl _)).2

end

/-! ## The largest reading -/

/-- No bucket has two samples; a sample keeps its owner; and once all ingests have finished every bucket that a row
was ingested for has a sample, whose counts and times are, field by field, the largest of the bucket's rows. -/
structure KeepsLargest (deps : UsageDeps) (reports : List UsageReport) (schedule : List Nat) : Prop where
  unique : ((afterIngests deps reports schedule).samples.map (·.dedupeKey)).Nodup
  owner : ∀ first rest, schedule = first ++ rest → ∀ sample ∈ (afterIngests deps reports first).samples,
    sample.attributed = true → ∃ later ∈ (afterIngests deps reports schedule).samples,
      later.dedupeKey = sample.dedupeKey ∧ later.fleetSessionId = sample.fleetSessionId ∧
        later.agentRunId = sample.agentRunId
  stored : (∀ ingest < reports.length, ingest ∈ (afterIngests deps reports schedule).finished) →
    ∀ report ∈ reports, ∀ row ∈ report.rows, ∃ sample ∈ (afterIngests deps reports schedule).samples,
      sample.dedupeKey = fleetUsageDedupeKey deps report.nodeId row
  largest : (∀ ingest < reports.length, ingest ∈ (afterIngests deps reports schedule).finished) →
    ∀ sample ∈ (afterIngests deps reports schedule).samples,
      IsLUB {reading | ∃ report ∈ reports, ∃ row ∈ report.rows,
        fleetUsageDedupeKey deps report.nodeId row = sample.dedupeKey ∧ row.reading = reading} sample.reading

/-- In every order of the calls in which no update takes back what was stored since it read. -/
theorem keepsLargest_of_forward (deps : UsageDeps) (reports : List UsageReport) (schedule : List Nat)
    (forward : Along (Pool.step serveUsage Empty.elim) WritesForward (usagePool deps reports) schedule) :
    KeepsLargest deps reports schedule := by
  have holds := (forward_inStep forward).2
  have covered (all : ∀ ingest < reports.length, ingest ∈ (afterIngests deps reports schedule).finished)
      {report : UsageReport} (listed : report ∈ reports) {row : FleetUsageRow} (inside : row ∈ report.rows) :
      ∃ sample ∈ (afterIngests deps reports schedule).samples,
        sample.dedupeKey = fleetUsageDedupeKey deps report.nodeId row ∧ row.reading ≤ sample.reading := by
    obtain ⟨number, found⟩ := mem_iff_getElem?.mp listed
    obtain ⟨keyed, member, key, within⟩ := keyRows_covers deps report.nodeId report.rows inside
    have done := all number (List.getElem?_eq_some_iff.mp found).1
    obtain ⟨sample, present, same, above⟩ := holds.covered number done report found keyed member
    exact ⟨sample, present, same.trans key, within.trans above⟩
  refine ⟨holds.unique, ?_, ?_, ?_⟩
  · rintro first rest rfl sample listed attributed
    obtain ⟨later, inside, grown⟩ := (grows_along forward).grows sample listed
    exact ⟨later, inside, grown.key, grown.owner attributed⟩
  · intro all report listed row inside
    obtain ⟨sample, present, key, _⟩ := covered all listed inside
    exact ⟨sample, present, key⟩
  · intro all sample listed
    constructor
    · rintro reading ⟨report, reported, row, inside, key, rfl⟩
      obtain ⟨other, present, same, above⟩ := covered all reported inside
      rw [inj_on_of_nodup_map holds.unique present listed (same.trans key)] at above
      exact above
    · intro bound bounds
      refine holds.within sample listed bound fun report reported row inside key => ?_
      exact bounds ⟨report, reported, row, inside, key, rfl⟩

/-! ## Two scans of one hour -/

def barDeps : UsageDeps where
  digest parts := "|".intercalate parts
  price _ _ _ := none

def hourOf (input : Nat) : UsageReport where
  nodeId := "n"
  rows := [
    { provider := "codex"
      providerSessionId := none
      model := "m"
      bucketStart := "h"
      folderBucket := none
      tokens := ⟨input, 0, 0, 0⟩
      requests := 1
      firstAt := 0
      lastAt := 0 }]
  attribution _ := none

/-- Scans that read 10, 30 and 20 tokens, one after the other. -/
theorem scans_in_turn :
    KeepsLargest barDeps [hourOf 10, hourOf 30, hourOf 20] [0, 0, 0, 1, 1, 1, 2, 2] :=
  keepsLargest_of_forward barDeps _ _ (by decide)

def hourSample (input : Nat) : FleetUsageSample where
  nodeId := "n"
  provider := "codex"
  providerSessionId := none
  model := "m"
  tokens := ⟨input, 0, 0, 0⟩
  requests := 1
  bucketStart := "h"
  dedupeKey := "n|h|codex|m||"
  firstAt := some 0
  lastAt := some 0

/-- The second and the third read the sample of the first before either writes. -/
theorem scans_side_by_side :
    ¬ KeepsLargest barDeps [hourOf 10, hourOf 30, hourOf 20] [0, 0, 0, 1, 2, 1, 2, 1, 2] := by
  intro keeps
  have done : ∀ ingest < 3, ingest ∈
      (afterIngests barDeps [hourOf 10, hourOf 30, hourOf 20] [0, 0, 0, 1, 2, 1, 2, 1, 2]).finished := by
    decide
  have left : (afterIngests barDeps [hourOf 10, hourOf 30, hourOf 20] [0, 0, 0, 1, 2, 1, 2, 1, 2]).samples =
      [hourSample 20] := by
    decide
  have listed : hourSample 20 ∈
      (afterIngests barDeps [hourOf 10, hourOf 30, hourOf 20] [0, 0, 0, 1, 2, 1, 2, 1, 2]).samples := by
    rw [left]
    exact mem_singleton_self _
  have larger : ∃ row ∈ (hourOf 30).rows, fleetUsageDedupeKey barDeps "n" row = (hourSample 20).dedupeKey ∧
      ¬ row.reading ≤ (hourSample 20).reading := by
    decide
  obtain ⟨row, inside, key, above⟩ := larger
  have bounds := (keeps.largest done (hourSample 20) listed).1
  refine above (bounds ⟨hourOf 30, ?_, row, inside, key, rfl⟩)
  exact mem_cons_of_mem _ mem_cons_self

end EverWorks.Fleet
