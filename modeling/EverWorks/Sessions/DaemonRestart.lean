import EverWorks.Sessions.DaemonRuns

/-!
What `boot` restores of a folder, and what it restores after every run of the daemon's programs in which no record is
put over a later one.
-/

namespace EverWorks.Sessions
open Lib Lib.Program List Option Function OrderedMap

variable {Id : Type} [DecidableEq Id]

/-- The names of a folder, each once. -/
structure Lists (ids : List Id) (files : Files Id) : Prop where
  nodup : ids.Nodup
  lists : ∀ id, id ∈ ids ↔ (files (.record id)).isSome = true

structure Restores (version : Version Id) (book : SessionBook Id) : Prop where
  id : book.record.id = version.record.id
  startedAt : book.record.startedAt = version.record.startedAt
  title : book.title = version.record.title
  alive : book.alive = false
  lost : book.lost = version.record.endedAt.isNone
  exitCode : book.exitCode = version.record.exitCode
  reason : book.endReason = version.record.endReason

/-- A record that `boot` has restored: what is in memory is on disk, and told as ended. -/
structure Booted (daemon : Daemon Id) (version : Version Id) (book : SessionBook Id) : Prop where
  found : daemon.sessions.get version.record.id = some book
  restores : Restores version book
  title : book.record.title = version.record.title
  stored : recordAt daemon.files version.record.id = some book.toVersion
  born : book.born = version.born
  mark : book.mark = version.mark ∨ book.mark < daemon.next
  told : daemon.told version.record.id =
    some ⟨version.born, version.record.startedAt, version.record.title, book.record.exit⟩

/-- What `boot` leaves alone. -/
structure Frame (ids : List Id) (before after : Daemon Id) : Prop where
  sessions : ∀ id ∉ ids, after.sessions.get id = before.sessions.get id
  files : ∀ id ∉ ids, recordAt after.files id = recordAt before.files id
  told : ∀ id ∉ ids, after.told id = before.told id
  starting : after.starting = before.starting
  removed : after.removed = before.removed
  debts : after.debts = before.debts
  next : before.next ≤ after.next

theorem Frame.refl (ids : List Id) (daemon : Daemon Id) : Frame ids daemon daemon :=
  ⟨fun _ _ => rfl, fun _ _ => rfl, fun _ _ => rfl, rfl, rfl, rfl, le_rfl⟩

theorem Frame.trans {first rest : List Id} {a b c : Daemon Id} (one : Frame first a b) (two : Frame rest b c) :
    Frame (first ++ rest) a c where
  sessions id apart := by
    rw [mem_append, not_or] at apart
    exact (two.sessions id apart.2).trans (one.sessions id apart.1)
  files id apart := by
    rw [mem_append, not_or] at apart
    exact (two.files id apart.2).trans (one.files id apart.1)
  told id apart := by
    rw [mem_append, not_or] at apart
    exact (two.told id apart.2).trans (one.told id apart.1)
  starting := two.starting.trans one.starting
  removed := two.removed.trans one.removed
  debts := two.debts.trans one.debts
  next := one.next.trans two.next

variable {daemon : Daemon Id}

theorem bootOne_restores (now : Int) {version : Version Id} (screen : Option String)
    (fresh : daemon.sessions.get version.record.id = none)
    (stored : recordAt daemon.files version.record.id = some version) :
    (∃ book, Booted (bootOne now daemon (version, screen)) version book) ∧
      Frame [version.record.id] daemon (bootOne now daemon (version, screen)) := by
  have unbooked : ¬ daemon.sessions.has version.record.id = true := by
    rw [has, fresh]
    exact Bool.false_ne_true
  have apart {id : Id} (other : id ∉ [version.record.id]) : id ≠ version.record.id := fun same =>
    other (mem_singleton.mpr same)
  rw [bootOne.eq_def]
  dsimp only
  rw [if_neg unbooked]
  cases ended : version.record.endedAt with
  | none =>
    rw [show (restored version screen).record.endedAt = none from ended]
    dsimp only
    let book := (restored version screen).revise daemon.next { version.record with endedAt := some now }
    have place : recordAt (update daemon.files (.record version.record.id) (some (.record book.toVersion))) =
        update (recordAt daemon.files) version.record.id (some book.toVersion) :=
      @recordAt_place Id _ book.toVersion daemon.files
    refine ⟨⟨book, ?_, ?_, rfl, ?_, rfl, ?_, ?_⟩, ?_⟩
    · refine (get_set ..).trans (if_pos rfl)
    · exact ⟨rfl, rfl, rfl, rfl, rfl, rfl, rfl⟩
    · exact (congrFun place _).trans (update_self ..)
    · exact .inr (Nat.lt_succ_self _)
    · exact update_self ..
    · refine ⟨fun id other => ?_, fun id other => ?_, fun id other => ?_, rfl, rfl, rfl, Nat.le_succ _⟩
      · exact (get_set ..).trans (if_neg (apart other))
      · exact (congrFun place id).trans (update_of_ne (apart other) ..)
      · exact update_of_ne (apart other) ..
  | some time =>
    rw [show (restored version screen).record.endedAt = some time from ended]
    dsimp only
    refine ⟨⟨restored version screen, ?_, ?_, rfl, ?_, rfl, .inl rfl, ?_⟩, ?_⟩
    · refine (get_set ..).trans (if_pos rfl)
    · exact ⟨rfl, rfl, rfl, rfl, rfl, rfl, rfl⟩
    · exact stored
    · refine (update_self ..).trans ?_
      rw [StoredSession.exit, show (restored version screen).record.endedAt = some time from ended]
      rfl
    · refine ⟨fun id other => ?_, fun _ _ => rfl, fun id other => ?_, rfl, rfl, rfl, le_rfl⟩
      · exact (get_set ..).trans (if_neg (apart other))
      · exact update_of_ne (apart other) ..

theorem Booted.later {before after : Daemon Id} {version : Version Id} {book : SessionBook Id} {ids : List Id}
    (booted : Booted before version book) (frame : Frame ids before after) (apart : version.record.id ∉ ids) :
    Booted after version book where
  found := (frame.sessions _ apart).trans booted.found
  restores := booted.restores
  title := booted.title
  stored := (frame.files _ apart).trans booted.stored
  born := booted.born
  mark := booted.mark.imp_right fun before => lt_of_lt_of_le before frame.next
  told := (frame.told _ apart).trans booted.told

theorem boot_fold (now : Int) (loaded : List (Version Id × Option String))
    (nodup : (loaded.map (·.1.record.id)).Nodup)
    (fresh : ∀ one ∈ loaded, daemon.sessions.get one.1.record.id = none)
    (stored : ∀ one ∈ loaded, recordAt daemon.files one.1.record.id = some one.1) :
    (∀ one ∈ loaded, ∃ book, Booted (loaded.foldl (bootOne now) daemon) one.1 book) ∧
      Frame (loaded.map (·.1.record.id)) daemon (loaded.foldl (bootOne now) daemon) := by
  induction loaded generalizing daemon with
  | nil => exact ⟨fun _ listed => absurd listed not_mem_nil, .refl [] daemon⟩
  | cons one rest ih =>
    rw [map_cons, nodup_cons] at nodup
    obtain ⟨⟨book, booted⟩, frame⟩ := bootOne_restores now one.2 (fresh one mem_cons_self)
      (stored one mem_cons_self)
    have apart {other : Version Id × Option String} (later : other ∈ rest) :
        other.1.record.id ∉ [one.1.record.id] := by
      intro same
      rw [← mem_singleton.mp same] at nodup
      exact nodup.1 (mem_map_of_mem later)
    obtain ⟨others, frame'⟩ := ih nodup.2
      (fun other later => (frame.sessions _ (apart later)).trans (fresh other (mem_cons_of_mem _ later)))
      (fun other later => (frame.files _ (apart later)).trans (stored other (mem_cons_of_mem _ later)))
    refine ⟨fun other listed => ?_, frame.trans frame'⟩
    rcases mem_cons.mp listed with rfl | later
    · exact ⟨book, booted.later frame' nodup.1⟩
    · exact others other later

section
variable {files : Files Id} {ids : List Id} {id : Id} {version : Version Id}

theorem recordAt_id (there : recordAt files id = some version) : version.record.id = id := by
  rw [recordAt] at there
  split at there
  · split at there
    · rename_i named
      rw [← some.inj there]
      exact named
    · cases there
  · cases there

theorem mem_load {one : Version Id × Option String} :
    one ∈ load files ids ↔ one.1.record.id ∈ ids ∧ recordAt files one.1.record.id = some one.1 ∧
      one.2 = screenAt files one.1.record.id := by
  rw [load, mem_filterMap]
  constructor
  · rintro ⟨id, listed, found⟩
    obtain ⟨version, there, rfl⟩ := map_eq_some_iff.mp found
    obtain rfl := recordAt_id there
    exact ⟨listed, there, rfl⟩
  · rintro ⟨listed, there, screen⟩
    refine ⟨_, listed, ?_⟩
    rw [there, map_some, ← screen]

theorem load_ids : (load files ids).map (·.1.record.id) = ids.filter fun id => (recordAt files id).isSome := by
  induction ids with
  | nil => rfl
  | cons id rest ih =>
    rw [load, filterMap_cons, filter_cons]
    cases there : recordAt files id with
    | none => exact ih
    | some version =>
      dsimp only [map_some, isSome_some]
      rw [if_pos rfl, map_cons, ← ih, recordAt_id there]
      rfl

/-- What `boot` makes of a folder: a book for each record, on disk as it is in memory, and nothing else. -/
structure BootSpec (files : Files Id) (next : Nat) (after : Daemon Id) : Prop where
  restored : ∀ id version, recordAt files id = some version → ∃ book, Booted after version book
  nothing : ∀ id, recordAt files id = none →
    after.sessions.get id = none ∧ recordAt after.files id = none ∧ after.told id = none
  starting : after.starting = []
  removed : ∀ id born, after.removed id born = none
  debts : ∀ program, after.debts program = []
  next : next ≤ after.next

theorem boot_spec (now : Int) (lists : Lists ids files) (next : Nat) :
    BootSpec files next (boot now ids files next) := by
  have keys : ((load files ids).map (·.1.record.id)).Nodup := by
    rw [load_ids]
    exact lists.nodup.filter _
  have fresh : ∀ one ∈ load files ids, (Daemon.fresh files next).sessions.get one.1.record.id = none :=
    fun _ _ => get_empty _
  obtain ⟨restored, frame⟩ := boot_fold now (load files ids) keys fresh fun one listed => (mem_load.mp listed).2.1
  refine ⟨fun id version there => ?_, fun id absent => ?_, frame.starting, fun id born => ?_, fun program => ?_,
    frame.next⟩
  · have named := recordAt_id there
    have listed : id ∈ ids := by
      refine (lists.lists id).mpr ?_
      rw [recordAt] at there
      split at there
      · rename_i found
        rw [found]
        rfl
      · cases there
    subst named
    exact restored (version, screenAt files version.record.id) (mem_load.mpr ⟨listed, there, rfl⟩)
  · have unlisted : id ∉ (load files ids).map (·.1.record.id) := by
      rw [load_ids, mem_filter, absent]
      exact fun both => Bool.false_ne_true both.2
    exact ⟨(frame.sessions id unlisted).trans (get_empty _), (frame.files id unlisted).trans absent,
      frame.told id unlisted⟩
  · exact congrFun (congrFun frame.removed id) born
  · exact congrFun frame.debts program

theorem BootSpec.sound {next : Nat} {after : Daemon Id} (spec : BootSpec files next after)
    (old : ∀ id version, recordAt files id = some version → version.born < next ∧ version.mark < next) :
    after.view.Sound := by
  have either (id : Id) : (after.view.current id = none ∧ after.view.disk id = none ∧ after.view.told id = none) ∨
      ∃ version book, recordAt files id = some version ∧ Booted after version book ∧ version.record.id = id := by
    cases there : recordAt files id with
    | none =>
      obtain ⟨absent, unsaved, untold⟩ := spec.nothing id there
      exact .inl ⟨congrArg (Option.map _) absent, unsaved, untold⟩
    | some version =>
      obtain ⟨book, booted⟩ := spec.restored id version there
      exact .inr ⟨version, book, rfl, booted, recordAt_id there⟩
  have current {version : Version Id} {book : SessionBook Id} (booted : Booted after version book) :
      after.view.current version.record.id = some book.toVersion := congrArg (Option.map _) booted.found
  exact {
    numbered := by
      intro id found now
      rcases either id with ⟨absent, _⟩ | ⟨version, book, there, booted, rfl⟩
      · cases absent.symm.trans now
      · rw [← some.inj ((current booted).symm.trans now)]
        obtain ⟨born, mark⟩ := old _ version there
        refine ⟨booted.restores.id, lt_of_lt_of_le (booted.born ▸ born) spec.next, ?_, ?_⟩
        · rcases booted.mark with same | later
          · rw [same]
            exact lt_of_lt_of_le mark spec.next
          · exact later
        · exact congrArg (Option.map _) (spec.removed _ _)
    removed := by
      intro id born version gone
      rw [show after.view.removed id born = none from congrArg (Option.map _) (spec.removed id born)] at gone
      cases gone
    filed := fun id version there => recordAt_id there
    onDisk := by
      intro id found stored
      rcases either id with ⟨_, absent, _⟩ | ⟨version, book, there, booted, rfl⟩
      · cases absent.symm.trans stored
      · rw [← some.inj (booted.stored.symm.trans stored)]
        exact .inl ⟨_, current booted, rfl, le_rfl, fun _ => rfl⟩
    kept := by
      intro id found now
      rcases either id with ⟨absent, _⟩ | ⟨version, book, there, booted, rfl⟩
      · cases absent.symm.trans now
      · rw [← some.inj ((current booted).symm.trans now)]
        exact .inl booted.stored
    honoured := by
      intro program debt listed
      rw [show after.view.debts program = [] from spec.debts program] at listed
      cases listed
    silent := by
      intro id absent
      rcases either id with ⟨_, _, untold⟩ | ⟨version, book, there, booted, rfl⟩
      · exact untold
      · cases absent.symm.trans (current booted)
    told := by
      intro id found now
      rcases either id with ⟨absent, _⟩ | ⟨version, book, there, booted, rfl⟩
      · cases absent.symm.trans now
      · rw [← some.inj ((current booted).symm.trans now)]
        exact ⟨_, booted.told, booted.born.symm, booted.restores.startedAt.symm,
          booted.title.symm, .inl rfl⟩ }

end

abbrev DaemonPool (Id : Type) := Pool (Daemon Id) (DaemonCall Id) (DaemonReply Id) Empty

def daemonPool (jobs : List (DaemonJob Id)) (daemon : Daemon Id) : DaemonPool Id where
  state := daemon
  programs := jobs.mapIdx fun program job => job.run program

def afterCalls (jobs : List (DaemonJob Id)) (daemon : Daemon Id) (schedule : List Nat) : DaemonPool Id :=
  run (Pool.step serveDaemon Empty.elim) (daemonPool jobs daemon) schedule

/-- The next call of a program is in order. -/
def NextInOrder (pool : DaemonPool Id) (place : Nat) : Prop :=
  match pool.programs[place]? with
  | some (.call request _) => InOrder pool.state request
  | _ => True

instance (daemon : Daemon Id) : (request : DaemonCall Id) → Decidable (InOrder daemon request)
  | .rename _ name stamp (.record version) =>
    inferInstanceAs (Decidable (daemon.temps (name, stamp) = some (.record version) ∧ Timely daemon version))
  | .unlink _ (.record id) born =>
    inferInstanceAs (Decidable (∀ there ∈ recordAt daemon.files id, there.born = born))
  | .rename _ _ _ (.screen _) | .unlink _ (.screen _) _ | .reserve .. | .release .. | .writeFile .. | .unlinkTemp ..
  | .opened .. | .retitle .. | .exit .. | .bookRecord .. | .exited .. | .nextDue .. | .ack .. | .output ..
  | .endSession .. => isTrue trivial

instance (pool : DaemonPool Id) (place : Nat) : Decidable (NextInOrder pool place) :=
  match found : pool.programs[place]? with
  | some (.call request _) => decidable_of_iff (InOrder pool.state request) (by rw [NextInOrder, found])
  | some (.done _) => isTrue (by rw [NextInOrder, found]; trivial)
  | some (.fork job _) => nomatch job
  | none => isTrue (by rw [NextInOrder, found]; trivial)

/-- Nothing is in progress. -/
def Idling (pool : DaemonPool Id) : Prop := ∀ program ∈ pool.programs, program.isDone = true

def filesOf (records : Id → Option (StoredSession Id)) (screens : Id → Option String) : Files Id
  | .record id => (records id).map fun record => .record ⟨record, 0, 0⟩
  | .screen id => (screens id).map .screen

def restart (now : Int) (ids : List Id) (daemon : Daemon Id) : Daemon Id := boot now ids daemon.files daemon.next

/-- A restart restores the sessions that are told of and no other, each as what was told of it: ended with its exit
code and reason if that was told, and lost otherwise. -/
structure RestartsTruthfully (now : Int) (ids : List Id) (daemon : Daemon Id) : Prop where
  known : ∀ id, (restart now ids daemon).sessions.has id = (daemon.told id).isSome
  truthful : ∀ id told book, daemon.told id = some told → (restart now ids daemon).sessions.get id = some book →
    book.record.startedAt = told.startedAt ∧ book.title = told.title ∧ book.alive = false ∧
      book.lost = told.exit.isNone ∧ ∀ exit ∈ told.exit, book.exitCode = exit.1 ∧ book.endReason = exit.2

omit [DecidableEq Id] in
theorem StoredSession.exit_isNone {record : StoredSession Id} : record.exit.isNone = record.endedAt.isNone := by
  rw [StoredSession.exit]
  cases record.endedAt <;> rfl

theorem restartsTruthfully_of_quiet (sound : daemon.view.Sound)
    (quiet : ∀ program, daemon.debts program = []) {ids : List Id} (lists : Lists ids daemon.files) (now : Int) :
    RestartsTruthfully now ids daemon := by
  have spec : BootSpec daemon.files daemon.next (restart now ids daemon) := boot_spec now lists daemon.next
  refine ⟨fun id => ?_, fun id told book known found => ?_⟩
  · rcases sound.quiet quiet id with ⟨unsaved, untold⟩ | ⟨version, told, stored, known, _⟩
    · rw [show daemon.told id = none from untold, has, (spec.nothing id unsaved).1]
      rfl
    · obtain ⟨book, booted⟩ := spec.restored id version stored
      obtain rfl := recordAt_id stored
      rw [show daemon.told _ = some told from known, has, booted.found]
      rfl
  · rcases sound.quiet quiet id with ⟨_, untold⟩ | ⟨version, same, stored, told', startedAt, title, exit⟩
    · cases untold.symm.trans known
    · obtain rfl : same = told := some.inj (told'.symm.trans known)
      obtain ⟨restored, booted⟩ := spec.restored id version stored
      obtain rfl := recordAt_id stored
      obtain rfl : restored = book := some.inj (booted.found.symm.trans found)
      refine ⟨booted.restores.startedAt.trans startedAt.symm, booted.restores.title.trans title.symm,
        booted.restores.alive, ?_, fun left there => ?_⟩
      · rw [booted.restores.lost, exit, StoredSession.exit_isNone]
      · rw [exit, mem_def, StoredSession.exit] at there
        obtain ⟨_, _, rfl⟩ := map_eq_some_iff.mp there
        exact ⟨booted.restores.exitCode, booted.restores.reason⟩

theorem run_inOrder {pool : DaemonPool Id} {schedule : List Nat}
    (inOrder : Along (Pool.step serveDaemon Empty.elim) NextInOrder pool schedule) :
    run (Pool.step serveInOrder Empty.elim) pool schedule = run (Pool.step serveDaemon Empty.elim) pool schedule := by
  refine Pool.run_congr (along_mono (fun pool place next request rest found => ?_) inOrder)
  rw [NextInOrder, found] at next
  exact serve_inOrder next

theorem quiet_of_idling {jobs : List (DaemonJob Id)} {schedule : List Nat}
    (sound : daemon.view.Sound) (quiet : ∀ program, daemon.debts program = [])
    (inOrder : Along (Pool.step serveDaemon Empty.elim) NextInOrder (daemonPool jobs daemon) schedule)
    (idling : Idling (afterCalls jobs daemon schedule)) :
    (afterCalls jobs daemon schedule).state.view.Sound ∧
      ∀ program, (afterCalls jobs daemon schedule).state.debts program = [] := by
  let guar (place : Nat) (before after : Daemon Id) : Prop :=
    DaemonGuar place before after ∧ (jobs.length ≤ place → after = before)
  let inv (daemon : Daemon Id) : Prop := daemon.view.Sound ∧ ∀ program, jobs.length ≤ program → daemon.debts program = []
  have start : Pool.InStepTo serveInOrder DaemonRely guar (fun place => Owing place []) (daemonPool jobs daemon) := by
    intro place program there
    rw [daemonPool, getElem?_mapIdx, map_eq_some_iff] at there
    obtain ⟨job, found, rfl⟩ := there
    have inside := (List.getElem?_eq_some_iff.mp found).1
    exact (orderly_run job ⟨sound, quiet place⟩).mono fun before after step =>
      ⟨step, fun outside => absurd inside (Nat.not_lt.mpr outside)⟩
  have keeps : ∀ place ∈ schedule, ∀ before after, inv before → guar place before after → inv after := by
    rintro place - before after ⟨sound, quiet⟩ ⟨step, outside⟩
    refine ⟨step.kept sound, fun program none => ?_⟩
    by_cases same : program = place
    · rw [outside (same ▸ none)]
      exact quiet program none
    · rw [step.others program same]
      exact quiet program none
  have ran : Pool.InStepTo serveInOrder DaemonRely guar (fun place => Owing place [])
      (run (Pool.step serveInOrder Empty.elim) (daemonPool jobs daemon) schedule) ∧
      inv (run (Pool.step serveInOrder Empty.elim) (daemonPool jobs daemon) schedule).state :=
    Pool.run_inStepTo (fun place => .refl place) (fun _ _ _ _ => .trans)
      (fun _ _ _ _ apart step => step.1.rely apart) keeps start ⟨sound, fun program _ => quiet program⟩
  rw [run_inOrder inOrder] at ran
  obtain ⟨done, sound', rest⟩ := ran
  refine ⟨sound', fun program => ?_⟩
  by_cases inside : program < jobs.length
  · have length : (afterCalls jobs daemon schedule).programs.length = jobs.length := by
      rw [afterCalls, Pool.run_length, daemonPool, length_mapIdx]
    have there := getElem?_eq_getElem (length.symm ▸ inside)
    have ended := idling _ (mem_of_getElem? there)
    have holds := done program _ there
    rw [eq_done_of_isDone ended] at holds
    exact (holds _ (.refl program _)).owes
  · exact rest program (Nat.not_lt.mp inside)

/-- In every order of the file operations in which no record is put over a later one or over another's, and none of a
later session is taken away, the daemon restarts truthfully. -/
theorem restartsTruthfully_of_inOrder (records : Id → Option (StoredSession Id)) (screens : Id → Option String)
    (now now' : Int) (ids ids' : List Id) (jobs : List (DaemonJob Id)) (schedule : List Nat)
    (lists : Lists ids (filesOf records screens))
    (inOrder : Along (Pool.step serveDaemon Empty.elim) NextInOrder
      (daemonPool jobs (boot now ids (filesOf records screens) 1)) schedule)
    (idling : Idling (afterCalls jobs (boot now ids (filesOf records screens) 1) schedule))
    (lists' : Lists ids' (afterCalls jobs (boot now ids (filesOf records screens) 1) schedule).state.files) :
    RestartsTruthfully now' ids' (afterCalls jobs (boot now ids (filesOf records screens) 1) schedule).state := by
  have spec := boot_spec now lists 1
  have sound := spec.sound fun id version there => by
    rw [recordAt] at there
    split at there
    · rename_i found
      obtain ⟨record, _, same⟩ := map_eq_some_iff.mp found
      split at there
      · rw [← some.inj there, ← Content.record.inj same]
        exact ⟨Nat.zero_lt_one, Nat.zero_lt_one⟩
      · cases there
    · cases there
  obtain ⟨sound', quiet⟩ := quiet_of_idling sound spec.debts inOrder idling
  exact restartsTruthfully_of_quiet sound' quiet lists' now'

def shellRequest (id : Bool) : DaemonStartRequest Bool where
  id
  kind := .owner
  provider := .shell
  cwd := "/home"
  size := ⟨120, 32, by decide⟩
  title := "shell"
  startedBy := "user:u"

def shellJobs : List (DaemonJob Bool) := [
  .start (shellRequest true) ⟨true, true, 1000, 1000⟩,
  .rename true " build " 2000,
  .exit true ⟨some 0, 3000, "done", 3000, 3001⟩,
  .start (shellRequest false) ⟨true, true, 4000, 4000⟩,
  .exit false ⟨some 1, 5000, "", 5000, 5001⟩,
  .ackEnded false]

abbrev emptyDaemon : Daemon Bool := boot 0 [] (filesOf (fun _ => none) fun _ => none) 1

def inTurn : List Nat :=
  [0, 0, 0, 0, 0, 1, 1, 1, 2, 2, 2, 2, 2, 2, 2, 3, 3, 3, 3, 3, 4, 4, 4, 4, 4, 4, 4, 5, 5, 5]

theorem shell_in_turn : RestartsTruthfully 9000 [true] (afterCalls shellJobs emptyDaemon inTurn).state := by
  have inOrder : Along (Pool.step serveDaemon Empty.elim) NextInOrder (daemonPool shellJobs emptyDaemon) inTurn := by
    decide
  have idling : Idling (afterCalls shellJobs emptyDaemon inTurn) := by
    rw [Idling]
    decide
  have left : ∀ id, id ∈ [true] ↔
      ((afterCalls shellJobs emptyDaemon inTurn).state.files (.record id)).isSome = true := by
    decide
  exact restartsTruthfully_of_inOrder (fun _ => none) (fun _ => none) 0 9000 [] [true] shellJobs inTurn
    ⟨nodup_nil, by decide⟩ inOrder idling ⟨nodup_singleton true, left⟩

/-- The rename's record is in its temporary file when the shell ends, and is put in its place last. -/
def exitBetween : List Nat := [0, 0, 0, 0, 0, 1, 1, 2, 2, 2, 2, 2, 2, 2, 1]

/-- The shell's exit was told, and it comes back as lost. -/
theorem renamed_over_exit :
    Idling (afterCalls (shellJobs.take 3) emptyDaemon exitBetween) ∧
      Lists [true] (afterCalls (shellJobs.take 3) emptyDaemon exitBetween).state.files ∧
      ¬ RestartsTruthfully 9000 [true] (afterCalls (shellJobs.take 3) emptyDaemon exitBetween).state := by
  have idling : Idling (afterCalls (shellJobs.take 3) emptyDaemon exitBetween) := by
    rw [Idling]
    decide
  have left : ∀ id, id ∈ [true] ↔
      ((afterCalls (shellJobs.take 3) emptyDaemon exitBetween).state.files (.record id)).isSome = true := by
    decide
  have told : (afterCalls (shellJobs.take 3) emptyDaemon exitBetween).state.told true =
      some ⟨1, 1000, "build", some (some 0, none)⟩ := by
    decide
  have lost : ((restart 9000 [true] (afterCalls (shellJobs.take 3) emptyDaemon exitBetween).state).sessions.get
      true).map (·.lost) = some true := by
    decide
  refine ⟨idling, ⟨nodup_singleton true, left⟩, fun truthful => ?_⟩
  obtain ⟨book, found, lost⟩ := map_eq_some_iff.mp lost
  have left := (truthful.truthful true _ book told found).2.2.2.1
  rw [lost] at left
  cases left

end EverWorks.Sessions
