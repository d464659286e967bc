import EverWorks.Lib.Guarantee
import EverWorks.Sessions.DaemonInvariant

/-!
# The daemon's programs side by side

Every order of the single file operations of the daemon's programs in which no record is put over a later one, and
what a restart finds after it.
-/

namespace EverWorks.Sessions
open Lib Lib.Program Option Function List

variable {Id : Type} [DecidableEq Id]

def Daemon.view (daemon : Daemon Id) : StoreView Id where
  disk := recordAt daemon.files
  current id := (daemon.sessions.get id).map (·.toVersion)
  starting := daemon.starting
  removed id born := (daemon.removed id born).map (·.toVersion)
  next := daemon.next
  told := daemon.told
  debts := daemon.debts

def Timely (daemon : Daemon Id) (version : Version Id) : Prop :=
  (daemon.removed version.record.id version.born).isNone = true ∧
    ∀ there ∈ recordAt daemon.files version.record.id, there.born = version.born → there.mark ≤ version.mark

instance (daemon : Daemon Id) (version : Version Id) : Decidable (Timely daemon version) :=
  inferInstanceAs (Decidable (_ ∧ _))

/-- A record is put in its place from the writer's own temporary file and is not out of date, and a record that is
taken away is one of the session to be forgotten. -/
def InOrder (daemon : Daemon Id) : DaemonCall Id → Prop
  | .rename _ name stamp (.record version) =>
    daemon.temps (name, stamp) = some (.record version) ∧ Timely daemon version
  | .unlink _ (.record id) born => ∀ there ∈ recordAt daemon.files id, there.born = born
  | _ => True

def serveInOrder : (request : DaemonCall Id) → Daemon Id → DaemonReply Id request × Daemon Id
  | .rename program name stamp (.record version), daemon =>
    if .opening version.record.id version.born ∈ daemon.debts program ∨ Timely daemon version then
      (true, { daemon.place program name (.record version) (.record version) with
        temps := update daemon.temps (name, stamp) none })
    else (true, daemon.owe program (placedDebts version (daemon.debts program)))
  | .unlink program (.record id) born, daemon =>
    if ∀ there ∈ recordAt daemon.files id, there.born = born then serveDaemon (.unlink program (.record id) born) daemon
    else ((), daemon.owe program (unlinkedDebts id born (daemon.debts program)))
  | request, daemon => serveDaemon request daemon

variable {request : DaemonCall Id}

theorem serve_inOrder {daemon : Daemon Id} (inOrder : InOrder daemon request) :
    serveInOrder request daemon = serveDaemon request daemon := by
  cases request with
  | rename program name stamp own =>
    cases own with
    | record version =>
      rw [serveInOrder, if_pos (.inr inOrder.2), serveDaemon.eq_def]
      dsimp only
      rw [inOrder.1]
    | screen text => rfl
  | unlink program name born =>
    cases name with
    | record id => exact if_pos inOrder
    | screen id => rfl
  | _ => rfl

/-! ## What each call does to what is on disk and in memory -/

section
variable {daemon : Daemon Id} {program : Nat} {id : Id} {version : Version Id} {stamp : Nat} {debts : List (Debt Id)}

theorem recordAt_place {files : Files Id} :
    recordAt (update files (.record version.record.id) (some (.record version))) =
      update (recordAt files) version.record.id (some version) := by
  funext id
  by_cases here : id = version.record.id
  · subst here
    rw [recordAt, update_self, update_self]
    exact if_pos rfl
  · rw [recordAt, update_of_ne (fun same => here (by injection same)), update_of_ne here]
    rfl

theorem recordAt_unlink {files : Files Id} :
    recordAt (update files (.record id) none) = update (recordAt files) id none := by
  funext other
  by_cases here : other = id
  · subst here
    rw [recordAt, update_self, update_self]
  · rw [recordAt, update_of_ne (fun same => here (by injection same)), update_of_ne here]
    rfl

theorem recordAt_screen {files : Files Id} {held : Option (Content Id)} :
    recordAt (update files (.screen id) held) = recordAt files := by
  funext other
  have apart : FileName.record other ≠ .screen id := nofun
  rw [recordAt, update_of_ne apart]
  rfl

theorem current_set {sessions : OrderedMap Id (SessionBook Id)} {book : SessionBook Id} :
    (fun other => ((sessions.set id book).get other).map (·.toVersion)) =
      update (fun other => (sessions.get other).map (·.toVersion)) id (some book.toVersion) := by
  funext other
  rw [OrderedMap.get_set]
  by_cases here : other = id
  · subst here
    rw [if_pos rfl, update_self]
    rfl
  · rw [if_neg here, update_of_ne here]

theorem current_delete {sessions : OrderedMap Id (SessionBook Id)} :
    (fun other => ((sessions.delete id).get other).map (·.toVersion)) =
      update (fun other => (sessions.get other).map (·.toVersion)) id none := by
  funext other
  rw [OrderedMap.get_delete]
  by_cases here : other = id
  · subst here
    rw [if_pos rfl, update_self]
    rfl
  · rw [if_neg here, update_of_ne here]

theorem view_set {book next : SessionBook Id} (found : daemon.sessions.get id = some book)
    (same : next.toVersion = book.toVersion) :
    ({ daemon with sessions := daemon.sessions.set id next } : Daemon Id).view = daemon.view := by
  have current : update (fun other => (daemon.sessions.get other).map (·.toVersion)) id (some next.toVersion) =
      fun other => (daemon.sessions.get other).map (·.toVersion) := by
    rw [update_eq_self_iff, same, found]
    rfl
  rw [Daemon.view, Daemon.view]
  simp only [current_set, current]

theorem view_place : (daemon.place program (.record version.record.id) (.record version) (.record version)).view =
    daemon.view.place program version := by
  rw [Daemon.place, Daemon.view, StoreView.place]
  simp only [Daemon.owe, recordAt_place]
  rfl

variable {born : Nat}

theorem view_unlink : (serveDaemon (.unlink program (.record id) born) daemon).2.view =
    daemon.view.unlink program id born := by
  rw [serveDaemon, Daemon.view, StoreView.unlink]
  simp only [Daemon.owe, recordAt_unlink]
  rfl

structure Owing (program : Nat) (debts : List (Debt Id)) (daemon : Daemon Id) : Prop where
  sound : daemon.view.Sound
  owes : daemon.debts program = debts

structure Stepped (program : Nat) (debts : List (Debt Id)) (before after : Daemon Id) : Prop
    extends Owing program debts after where
  others : ∀ other ≠ program, after.debts other = before.debts other

theorem Owing.listed (owing : Owing program debts daemon) : daemon.view.debts program = debts := owing.owes

theorem stepped_owe {before after : Daemon Id} (effect : after.debts = update before.debts program debts)
    (sound : after.view.Sound) : Stepped program debts before after where
  sound
  owes := (congrFun effect program).trans (update_self ..)
  others other apart := (congrFun effect other).trans (update_of_ne apart ..)

theorem stepped_view {before after : Daemon Id} (owing : Owing program debts before)
    (effect : after.view = before.view) : Stepped program debts before after where
  sound := effect ▸ owing.sound
  owes := (congrFun (congrArg StoreView.debts effect) program).trans owing.owes
  others other _ := congrFun (congrArg StoreView.debts effect) other

variable (id) in
theorem stepped_reserve (owing : Owing program [] daemon) :
    (∃ born, serveInOrder (.reserve program id) daemon = (some born, (serveInOrder (.reserve program id) daemon).2) ∧
      Stepped program [.reserved id, .opening id born] daemon (serveInOrder (.reserve program id) daemon).2) ∨
    serveInOrder (.reserve program id) daemon = (none, daemon) := by
  rw [show serveInOrder (.reserve program id) daemon = serveDaemon (.reserve program id) daemon from rfl,
    serveDaemon.eq_def]
  dsimp only
  split
  · exact .inr rfl
  · rename_i free
    rw [Bool.not_eq_true, Bool.or_eq_false_iff] at free
    refine .inl ⟨_, rfl, stepped_owe rfl (StoreView.Sound.reserve owing.sound owing.owes ?_ ?_)⟩
    · have absent : daemon.sessions.get id = none := by simpa [OrderedMap.has] using free.1
      exact congrArg (Option.map _) absent
    · have unreserved : id ∉ daemon.starting := by simpa using free.2
      exact unreserved

theorem stepped_release (owing : Owing program debts daemon) (mine : .reserved id ∈ debts)
    (only : ∀ debt ∈ debts, debt = .reserved id ∨ ∃ born, debt = .opening id born) :
    Stepped program [] daemon (serveInOrder (.release program id) daemon).2 := by
  refine stepped_owe rfl (StoreView.Sound.release owing.sound ?_ ?_)
  · rw [owing.listed]
    exact mine
  · rw [owing.listed]
    exact only

theorem stepped_place_first
    (owing : Owing program [.reserved version.record.id, .opening version.record.id version.born] daemon) :
    (serveInOrder (.rename program (.record version.record.id) stamp (.record version)) daemon).1 = true ∧
    Stepped program [.saved version, .reserved version.record.id, .opening version.record.id version.born] daemon
      (serveInOrder (.rename program (.record version.record.id) stamp (.record version)) daemon).2 := by
  have opening : .opening version.record.id version.born ∈ daemon.debts program := by
    rw [owing.owes]
    simp
  rw [serveInOrder, if_pos (.inl opening)]
  have next : placedDebts version (daemon.debts program) =
      [.saved version, .reserved version.record.id, .opening version.record.id version.born] := by
    rw [placedDebts, if_pos opening, owing.owes]
  have sound : (daemon.place program (.record version.record.id) (.record version) (.record version)).view.Sound := by
    rw [view_place]
    exact owing.sound.place_first owing.owes
  refine ⟨rfl, stepped_owe ?_ sound⟩
  rw [← next]
  rfl

theorem stepped_place_later (owing : Owing program debts daemon) (late : ∀ debt ∈ debts, debt.late)
    (writes : .write version ∈ debts) :
    (serveInOrder (.rename program (.record version.record.id) stamp (.record version)) daemon).1 = true ∧
    Stepped program (debts.filter (· ≠ .write version)) daemon
      (serveInOrder (.rename program (.record version.record.id) stamp (.record version)) daemon).2 := by
  have notFirst : .opening version.record.id version.born ∉ daemon.debts program := by
    rw [owing.owes]
    exact fun listed => late (.opening ..) listed
  have next : placedDebts version (daemon.debts program) = debts.filter (· ≠ .write version) := by
    rw [placedDebts, if_neg notFirst, owing.owes]
  have lately : ∀ debt ∈ daemon.view.debts program, debt.late := fun debt listed => late debt (owing.owes ▸ listed)
  have owes : .write version ∈ daemon.view.debts program := (owing.owes.symm ▸ writes : _ ∈ daemon.debts program)
  by_cases timely : Timely daemon version
  · rw [serveInOrder, if_pos (.inr timely)]
    have live : daemon.view.removed version.record.id version.born = none := by
      have none := isNone_iff_eq_none.mp timely.1
      exact congrArg (Option.map _) none
    have sound : (daemon.place program (.record version.record.id) (.record version) (.record version)).view.Sound := by
      rw [view_place]
      exact owing.sound.place_later lately owes live timely.2
    refine ⟨rfl, stepped_owe ?_ sound⟩
    rw [← next]
    rfl
  · rw [serveInOrder, if_neg (not_or.mpr ⟨notFirst, timely⟩)]
    have sound : (daemon.owe program (placedDebts version (daemon.debts program))).view.Sound := by
      refine owing.sound.settle lately owes ?_
      rw [Timely, not_and_or] at timely
      rcases timely with gone | outdated
      · refine .inl fun unknown => gone ?_
        exact isNone_iff_eq_none.mpr (map_eq_none_iff.mp unknown)
      · push Not at outdated
        obtain ⟨there, stored, born, later⟩ := outdated
        exact .inr ⟨there, stored, born, later⟩
    refine ⟨rfl, stepped_owe ?_ sound⟩
    rw [← next]
    rfl

theorem stepped_unlink_first
    (owing : Owing program
      [.saved version, .reserved version.record.id, .opening version.record.id version.born] daemon) :
    Stepped program [.reserved version.record.id, .opening version.record.id version.born] daemon
      (serveInOrder (.unlink program (.record version.record.id) version.born) daemon).2 := by
  have saved := owing.sound.honoured program (.saved version) (owing.owes.symm ▸ mem_cons_self : _ ∈ daemon.debts program)
  have own : ∀ there ∈ recordAt daemon.files version.record.id, there.born = version.born := by
    intro there stored
    rw [some.inj (stored.symm.trans saved.2)]
  rw [serveInOrder, if_pos own]
  have next : unlinkedDebts version.record.id version.born (daemon.debts program) =
      [.reserved version.record.id, .opening version.record.id version.born] := by
    rw [owing.owes]
    simp [unlinkedDebts]
  have sound : (serveDaemon (.unlink program (.record version.record.id) version.born) daemon).2.view.Sound := by
    rw [view_unlink]
    exact owing.sound.unlink_first owing.owes
  refine stepped_owe ?_ sound
  rw [← next]
  rfl

theorem stepped_unlink_forgotten (owing : Owing program [.forget id born] daemon) :
    Stepped program [] daemon (serveInOrder (.unlink program (.record id) born) daemon).2 := by
  have next : unlinkedDebts id born (daemon.debts program) = [] := by
    rw [owing.owes]
    simp [unlinkedDebts]
  rw [serveInOrder]
  split
  · rename_i own
    have sound : (serveDaemon (.unlink program (.record id) born) daemon).2.view.Sound := by
      rw [view_unlink]
      exact owing.sound.unlink_forgotten owing.owes own
    refine stepped_owe ?_ sound
    rw [← next]
    rfl
  · rename_i others
    push Not at others
    obtain ⟨there, stored, apart⟩ := others
    have sound : (daemon.owe program (unlinkedDebts id born (daemon.debts program))).view.Sound :=
      owing.sound.leave owing.owes ⟨there, stored, apart⟩
    refine stepped_owe ?_ sound
    rw [← next]
    rfl

theorem stepped_opened
    (owing : Owing program
      [.saved version, .reserved version.record.id, .opening version.record.id version.born] daemon)
    (first : version.mark = version.born) (runs : version.record.exit = none) :
    Stepped program [.reserved version.record.id] daemon (serveInOrder (.opened program version) daemon).2 := by
  have effect : (serveInOrder (.opened program version) daemon).2.view = daemon.view.opened program version := by
    rw [show serveInOrder (.opened program version) daemon = serveDaemon (.opened program version) daemon from rfl,
      serveDaemon, Daemon.view, StoreView.opened]
    simp only [Daemon.owe, Daemon.tell, current_set]
    rfl
  refine stepped_owe rfl ?_
  rw [effect]
  exact owing.sound.opened owing.owes first runs

variable (id) in
theorem stepped_retitle (title : String) (owing : Owing program [] daemon) :
    (∃ version, serveInOrder (.retitle program id title) daemon =
        (some version, (serveInOrder (.retitle program id title) daemon).2) ∧
      Stepped program [.write version] daemon (serveInOrder (.retitle program id title) daemon).2) ∨
    serveInOrder (.retitle program id title) daemon = (none, daemon) := by
  rw [show serveInOrder (.retitle program id title) daemon = serveDaemon (.retitle program id title) daemon from rfl,
    serveDaemon.eq_def]
  dsimp only
  split
  · exact .inr rfl
  · rename_i book found
    split
    · exact .inr rfl
    · have now : daemon.view.current id = some book.toVersion := congrArg (Option.map _) found
      have named : book.record.id = id := (owing.sound.numbered id _ now).1
      let renamed := { book.revise daemon.next { book.record with title := JsString.trim title } with
        title := JsString.trim title }
      refine .inl ⟨renamed.toVersion, rfl, stepped_owe rfl ?_⟩
      have there : daemon.view.current renamed.record.id = some book.toVersion := by
        rw [show renamed.record.id = id from named]
        exact now
      have sound : (daemon.view.retitle program renamed.toVersion).Sound :=
        owing.sound.retitle owing.owes there rfl rfl rfl rfl
      have effect : ({ daemon with sessions := daemon.sessions.set id renamed, next := daemon.next + 1 }.tell id
          ((daemon.told id).map fun told : Told => { told with title := JsString.trim title }) |>.owe program
            [.write renamed.toVersion]).view = daemon.view.retitle program renamed.toVersion := by
        rw [Daemon.view, StoreView.retitle]
        simp only [Daemon.owe, Daemon.tell, current_set, show renamed.toVersion.record.id = id from named]
        subst named
        rfl
      rw [← effect] at sound
      exact sound

variable (id) in
theorem stepped_exit (exitCode : Option Int) (endedAt : Int) (owing : Owing program [] daemon) :
    (∃ exit : Exit, serveInOrder (.exit program id exitCode endedAt) daemon =
        (some exit, (serveInOrder (.exit program id exitCode endedAt) daemon).2) ∧
      Stepped program [.closing id exit.born, .report id exit.born exit.exitCode exit.reason] daemon
        (serveInOrder (.exit program id exitCode endedAt) daemon).2) ∨
    (serveInOrder (.exit program id exitCode endedAt) daemon =
        (none, (serveInOrder (.exit program id exitCode endedAt) daemon).2) ∧
      Stepped program [] daemon (serveInOrder (.exit program id exitCode endedAt) daemon).2) := by
  rw [show serveInOrder (.exit program id exitCode endedAt) daemon =
    serveDaemon (.exit program id exitCode endedAt) daemon from rfl, serveDaemon.eq_def]
  dsimp only
  split
  · exact .inr ⟨rfl, stepped_view owing rfl⟩
  · rename_i book found
    split
    · exact .inr ⟨rfl, stepped_view owing rfl⟩
    · split
      · exact .inr ⟨rfl, stepped_view owing (view_set found rfl)⟩
      · rename_i running
        rw [ne_eq, not_not] at running
        have now : daemon.view.current id = some book.toVersion := congrArg (Option.map _) found
        have named : book.record.id = id := (owing.sound.numbered id _ now).1
        let ended := { { book with alive := false, exitCode := exitCode }.revise daemon.next { book.record with
          endedAt := some endedAt, exitCode := exitCode, endReason := book.endReason } with dirtySince := none }
        refine .inl ⟨⟨book.born, exitCode, book.endReason⟩, rfl, stepped_owe rfl ?_⟩
        have runs : book.toVersion.record.exit = none := by rw [StoredSession.exit, running]; rfl
        have there : daemon.view.current ended.record.id = some book.toVersion := by
          rw [show ended.record.id = id from named]
          exact now
        have sound : (daemon.view.ended program ended.toVersion exitCode book.endReason).Sound :=
          owing.sound.ended owing.owes there rfl rfl runs rfl rfl rfl
        have effect : ({ daemon with sessions := daemon.sessions.set id ended, next := daemon.next + 1 }.owe program
              [.closing id book.born, .report id book.born exitCode book.endReason]).view =
            daemon.view.ended program ended.toVersion exitCode book.endReason := by
          rw [Daemon.view, StoreView.ended, StoreView.revise]
          simp only [Daemon.owe, current_set, show ended.toVersion.record.id = id from named]
          rfl
        rw [← effect] at sound
        exact sound

theorem stepped_bookRecord {exitCode : Option Int} {reason : Option FleetSessionEndedReason}
    (owing : Owing program [.closing id born, .report id born exitCode reason] daemon) :
    ∃ held : Option (Version Id), serveInOrder (.bookRecord program id born) daemon =
        (held, (serveInOrder (.bookRecord program id born) daemon).2) ∧
      Stepped program (held.toList.map .write ++ [.report id born exitCode reason]) daemon
        (serveInOrder (.bookRecord program id born) daemon).2 := by
  let held := (((daemon.sessions.get id).filter (·.born = born)).or (daemon.removed id born)).map (·.toVersion)
  have rest : (daemon.debts program).filter (· ≠ .closing id born) = [.report id born exitCode reason] := by
    rw [owing.owes]
    simp
  refine ⟨held, rfl, stepped_owe ?_ ?_⟩
  · rw [← rest]
    rfl
  · have sound : (daemon.view.owe program (held.toList.map .write ++ [.report id born exitCode reason])).Sound := by
      refine owing.sound.bookRecord owing.owes ?_ ?_ ?_
      · intro debt listed
        rw [mem_singleton.mp listed]
        trivial
      · intro version now number
        obtain ⟨book, found, rfl⟩ := map_eq_some_iff.mp now
        have here : (daemon.sessions.get id).filter (·.born = born) = some book := by
          rw [found]
          exact if_pos (decide_eq_true number)
        simp only [held, here, some_or, map_some]
      · intro version taken
        obtain ⟨book, found, rfl⟩ := map_eq_some_iff.mp taken
        rcases or_eq_some_iff.mp found with inside | ⟨_, removed⟩
        · have now : daemon.view.current id = some book.toVersion :=
            congrArg (Option.map _) (filter_eq_some_iff.mp inside).1
          exact ⟨(owing.sound.numbered id _ now).1, .inl now⟩
        · have gone : daemon.view.removed id born = some book.toVersion := congrArg (Option.map _) removed
          obtain ⟨named, number, _⟩ := owing.sound.removed id born _ gone
          refine ⟨named, .inr ?_⟩
          rw [number, gone]
          intro same
          cases same
    rw [← rest] at sound
    exact sound

theorem stepped_exited {exitCode : Option Int} {reason : Option FleetSessionEndedReason}
    (owing : Owing program [.report id born exitCode reason] daemon) :
    Stepped program [] daemon (serveInOrder (.exited program id born exitCode reason) daemon).2 :=
  stepped_owe rfl (owing.sound.exited owing.owes)

variable (id) in
theorem stepped_ack (owing : Owing program [] daemon) :
    (∃ born, serveInOrder (.ack program id) daemon = (some born, (serveInOrder (.ack program id) daemon).2) ∧
      Stepped program [.forget id born] daemon (serveInOrder (.ack program id) daemon).2) ∨
    serveInOrder (.ack program id) daemon = (none, daemon) := by
  rw [show serveInOrder (.ack program id) daemon = serveDaemon (.ack program id) daemon from rfl, serveDaemon.eq_def]
  dsimp only
  split
  · exact .inr rfl
  · rename_i book found
    split
    · exact .inr rfl
    · have now : daemon.view.current id = some book.toVersion := congrArg (Option.map _) found
      refine .inl ⟨book.born, rfl, stepped_owe rfl ?_⟩
      have sound : (daemon.view.ack program id book.toVersion).Sound := owing.sound.ack owing.owes now
      have removed : (fun other number => (update daemon.removed id
          (update (daemon.removed id) book.born (some book)) other number).map (·.toVersion)) =
          update daemon.view.removed id (update (daemon.view.removed id) book.born
            (some book.toVersion)) := by
        funext other number
        by_cases here : other = id
        · subst here
          rw [update_self, update_self]
          by_cases same : number = book.born
          · rw [same, update_self, update_self]
            rfl
          · rw [update_of_ne same, update_of_ne same]
            rfl
        · rw [update_of_ne here, update_of_ne here]
          rfl
      have effect : ({ daemon with
            sessions := daemon.sessions.delete id
            removed := update daemon.removed id
              (update (daemon.removed id) book.born (some book)) }.tell id none |>.owe program
              [.forget id book.born]).view = daemon.view.ack program id book.toVersion := by
        rw [Daemon.view, StoreView.ack]
        simp only [Daemon.owe, Daemon.tell, current_delete, removed]
        rfl
      rw [← effect] at sound
      exact sound

inductive Idle : DaemonCall Id → Prop where
  | writeFile {name stamp content} : Idle (.writeFile name stamp content)
  | renameScreen {program name stamp text} : Idle (.rename program (.screen name) stamp (.screen text))
  | unlinkTemp {name stamp} : Idle (.unlinkTemp name stamp)
  | unlinkScreen {program name born} : Idle (.unlink program (.screen name) born)
  | nextDue {now persistMs after} : Idle (.nextDue now persistMs after)
  | output {name now} : Idle (.output name now)
  | endSession {name reason} : Idle (.endSession name reason)

theorem stepped_idle (idle : Idle request) (owing : Owing program debts daemon) :
    Stepped program debts daemon (serveInOrder request daemon).2 := by
  refine stepped_view owing ?_
  cases idle with
  | writeFile => rfl
  | renameScreen =>
    rename_i other name stamp text
    rw [show serveInOrder (.rename other (.screen name) stamp (.screen text)) daemon =
      serveDaemon (.rename other (.screen name) stamp (.screen text)) daemon from rfl, serveDaemon.eq_def]
    dsimp only
    split
    · rfl
    · rw [Daemon.view, Daemon.view]
      simp only [Daemon.place, recordAt_screen]
  | unlinkTemp => rfl
  | unlinkScreen =>
    rw [serveInOrder, Daemon.view, Daemon.view, serveDaemon]
    · simp only [recordAt_screen]
    all_goals simp
  | nextDue =>
    rename_i now persistMs after
    rw [show serveInOrder (.nextDue now persistMs after) daemon = serveDaemon (.nextDue now persistMs after) daemon
      from rfl, serveDaemon.eq_def]
    dsimp only
    split
    · rfl
    · rename_i book due
      obtain ⟨key, found⟩ := OrderedMap.mem_values.mp (mem_of_find?_eq_some due)
      have there : daemon.view.current key = some book.toVersion := congrArg (Option.map _) found
      have named : book.record.id = key := (owing.sound.numbered key _ there).1
      subst named
      exact view_set found rfl
  | output =>
    rename_i name now
    rw [show serveInOrder (.output name now) daemon = serveDaemon (.output name now) daemon from rfl,
      serveDaemon.eq_def]
    dsimp only
    split
    · rfl
    · rename_i book found
      split
      · exact view_set found rfl
      · rfl
  | endSession =>
    rename_i name reason
    rw [show serveInOrder (.endSession name reason) daemon = serveDaemon (.endSession name reason) daemon from rfl,
      serveDaemon.eq_def]
    dsimp only
    split
    · rfl
    · rename_i book found
      split
      · exact view_set found rfl
      · rfl

end

/-! ## The programs -/

structure DaemonRely (program : Nat) (before after : Daemon Id) : Prop where
  kept : before.view.Sound → after.view.Sound
  own : after.debts program = before.debts program

structure DaemonGuar (program : Nat) (before after : Daemon Id) : Prop where
  kept : before.view.Sound → after.view.Sound
  others : ∀ other ≠ program, after.debts other = before.debts other

abbrev Orderly (program : Nat) {α : Type} (post : α → Daemon Id → Prop) (body : DaemonProgram Id α) :
    Daemon Id → Prop :=
  body.Holds serveInOrder (DaemonRely program) (DaemonGuar program) post

section
variable {daemon : Daemon Id} {program stamp : Nat} {id : Id} {version : Version Id} {debts : List (Debt Id)} {α : Type}

theorem DaemonRely.refl (program : Nat) (daemon : Daemon Id) : DaemonRely program daemon daemon := ⟨fun sound => sound, rfl⟩

theorem DaemonRely.trans {a b c : Daemon Id} (first : DaemonRely program a b) (second : DaemonRely program b c) :
    DaemonRely program a c :=
  ⟨fun sound => second.kept (first.kept sound), second.own.trans first.own⟩

theorem DaemonGuar.rely {other : Nat} {a b : Daemon Id} (apart : program ≠ other) (guar : DaemonGuar other a b) :
    DaemonRely program a b :=
  ⟨guar.kept, guar.others program apart⟩

theorem Owing.later {later : Daemon Id} (owing : Owing program debts daemon) (rely : DaemonRely program daemon later) :
    Owing program debts later :=
  ⟨rely.kept owing.sound, rely.own.trans owing.owes⟩

variable {post : α → Daemon Id → Prop}

theorem orderly_done {value : α} (owing : Owing program debts daemon)
    (meets : ∀ later, Owing program debts later → post value later) :
    Orderly program post (pure value) daemon :=
  fun later rely => meets later (owing.later rely)

theorem orderly_ask
    {next : DaemonReply Id request → DaemonProgram Id α} (owing : Owing program debts daemon)
    (steps : ∀ before, Owing program debts before → ∃ debts', Stepped program debts' before
      (serveInOrder request before).2 ∧ (Owing program debts' (serveInOrder request before).2 →
        Orderly program post (next (serveInOrder request before).1) (serveInOrder request before).2)) :
    Orderly program post (ask request >>= next) daemon := by
  refine Holds.ask fun before rely => ?_
  obtain ⟨debts', stepped, rest⟩ := steps before (owing.later rely)
  exact ⟨⟨fun _ => stepped.sound, stepped.others⟩, rest stepped.toOwing⟩

theorem orderly_idle
    {next : DaemonReply Id request → DaemonProgram Id α} (idle : Idle request) (owing : Owing program debts daemon)
    (rest : ∀ reply later, Owing program debts later → Orderly program post (next reply) later) :
    Orderly program post (ask request >>= next) daemon :=
  orderly_ask owing fun _ owing => ⟨debts, stepped_idle idle owing, fun owing => rest _ _ owing⟩

theorem orderly_saveScreen {text : String} (owing : Owing program debts daemon) :
    Orderly program (fun _ => Owing program debts) (saveScreen program stamp id text) daemon := by
  refine orderly_idle .writeFile owing fun _ later owing => ?_
  refine orderly_idle .renameScreen owing fun written later owing => ?_
  split
  · exact orderly_done owing fun _ owing => owing
  · exact orderly_idle .unlinkTemp owing fun _ later owing => orderly_done owing fun _ owing => owing

theorem orderly_save {debts' : List (Debt Id)} (owing : Owing program debts daemon)
    (places : ∀ before, Owing program debts before →
      (serveInOrder (.rename program (.record version.record.id) stamp (.record version)) before).1 = true ∧
      Stepped program debts' before
        (serveInOrder (.rename program (.record version.record.id) stamp (.record version)) before).2) :
    Orderly program (fun _ => Owing program debts') (save program stamp version) daemon := by
  refine orderly_idle .writeFile owing fun _ later owing => ?_
  refine orderly_ask owing fun before owing => ⟨debts', (places before owing).2, fun owing => ?_⟩
  rw [(places before ‹_›).1, if_pos rfl]
  exact orderly_done owing fun _ owing => owing

theorem orderly_forget {born : Nat} {debts' : List (Debt Id)} (owing : Owing program debts daemon)
    (unlinks : ∀ before, Owing program debts before →
      Stepped program debts' before (serveInOrder (.unlink program (.record id) born) before).2) :
    Orderly program (fun _ => Owing program debts') (forget program id born) daemon := by
  refine orderly_ask owing fun before owing => ⟨debts', unlinks before owing, fun owing => ?_⟩
  exact orderly_idle .unlinkScreen owing fun _ later owing => orderly_done owing fun _ owing => owing

theorem orderly_startReserved {request : DaemonStartRequest Id} {answers : StartAnswers} {born : Nat}
    (owing : Owing program [.reserved request.id, .opening request.id born] daemon) :
    Orderly program (fun _ later => Owing program [.reserved request.id] later ∨
        Owing program [.reserved request.id, .opening request.id born] later)
      (startReserved program request answers born) daemon := by
  rw [startReserved]
  split
  · exact orderly_done owing fun _ owing => .inr owing
  · refine Holds.bind (DaemonRely.refl program) (orderly_save owing fun before owing => stepped_place_first owing)
      fun _ later owing => ?_
    split
    · refine Holds.bind (DaemonRely.refl program) (orderly_forget owing fun before owing => stepped_unlink_first owing)
        fun _ last owing => ?_
      exact orderly_done owing fun _ owing => .inr owing
    · refine orderly_ask owing fun before owing => ⟨_, stepped_opened owing rfl rfl, fun owing => ?_⟩
      exact orderly_done owing fun _ owing => .inl owing

theorem orderly_start {request : DaemonStartRequest Id} {answers : StartAnswers} (owing : Owing program [] daemon) :
    Orderly program (fun _ => Owing program []) (start program request answers) daemon := by
  refine Holds.ask fun before rely => ?_
  have owing := owing.later rely
  rcases stepped_reserve request.id owing with ⟨born, replied, stepped⟩ | same
  · rw [replied]
    refine ⟨⟨fun _ => stepped.sound, stepped.others⟩, ?_⟩
    refine Holds.bind (DaemonRely.refl program) (orderly_startReserved stepped.toOwing) fun started later owing => ?_
    have only {born : Nat} : ∀ debt ∈ [Debt.reserved request.id, .opening request.id born],
        debt = .reserved request.id ∨ ∃ born, debt = .opening request.id born := by simp
    rcases owing with owing | owing
    · refine orderly_ask owing fun before owing => ⟨[], stepped_release owing mem_cons_self (by simp), fun owing => ?_⟩
      exact orderly_done owing fun _ owing => owing
    · refine orderly_ask owing fun before owing => ⟨[], stepped_release owing mem_cons_self only, fun owing => ?_⟩
      exact orderly_done owing fun _ owing => owing
  · rw [same]
    exact ⟨⟨fun sound => sound, fun _ _ => rfl⟩, orderly_done owing fun _ owing => owing⟩

theorem orderly_renameSession {title : String} (owing : Owing program [] daemon) :
    Orderly program (fun _ => Owing program []) (renameSession program id title stamp) daemon := by
  refine Holds.ask fun before rely => ?_
  have owing := owing.later rely
  rcases stepped_retitle id title owing with ⟨version, replied, stepped⟩ | same
  · rw [replied]
    refine ⟨⟨fun _ => stepped.sound, stepped.others⟩, ?_⟩
    have late : ∀ debt ∈ [Debt.write version], debt.late := by
      intro debt listed
      rw [mem_singleton.mp listed]
      trivial
    have rest : [Debt.write version].filter (· ≠ .write version) = [] := by simp
    refine Holds.bind (DaemonRely.refl program) (orderly_save stepped.toOwing fun before owing =>
      rest ▸ stepped_place_later owing late mem_cons_self) fun _ later owing => ?_
    exact orderly_done owing fun _ owing => owing
  · rw [same]
    exact ⟨⟨fun sound => sound, fun _ _ => rfl⟩, orderly_done owing fun _ owing => owing⟩

theorem orderly_onSessionExit {answers : ExitAnswers} (owing : Owing program [] daemon) :
    Orderly program (fun _ => Owing program []) (onSessionExit program id answers) daemon := by
  refine Holds.ask fun before rely => ?_
  have owing := owing.later rely
  rcases stepped_exit id answers.exitCode answers.endedAt owing with ⟨exit, replied, stepped⟩ | ⟨replied, stepped⟩
  · rw [replied]
    refine ⟨⟨fun _ => stepped.sound, stepped.others⟩, ?_⟩
    refine Holds.bind (DaemonRely.refl program) (orderly_saveScreen stepped.toOwing) fun _ later owing => ?_
    refine Holds.ask fun reading rely => ?_
    obtain ⟨held, replied, stepped⟩ := stepped_bookRecord (owing.later rely)
    rw [replied]
    refine ⟨⟨fun _ => stepped.sound, stepped.others⟩, ?_⟩
    -- The exit is told once the record is saved, or there was none to save.
    have told {later : Daemon Id}
        (owing : Owing program [.report id exit.born exit.exitCode exit.reason] later) :
        Orderly program (fun _ => Owing program [])
          (ask (DaemonCall.exited program id exit.born exit.exitCode exit.reason) >>= fun _ => pure ()) later :=
      orderly_ask owing fun before owing =>
        ⟨[], stepped_exited owing, fun owing => orderly_done owing fun _ owing => owing⟩
    cases held with
    | none => exact told stepped.toOwing
    | some version =>
      have late : ∀ debt ∈ [Debt.write version, .report id exit.born exit.exitCode exit.reason], debt.late := by
        intro debt listed
        rcases mem_cons.mp listed with rfl | listed
        · trivial
        · rw [mem_singleton.mp listed]
          trivial
      have rest : [Debt.write version, .report id exit.born exit.exitCode exit.reason].filter (· ≠ .write version) =
          [.report id exit.born exit.exitCode exit.reason] := by simp
      refine Holds.bind (DaemonRely.refl program) (orderly_save stepped.toOwing fun before owing =>
        rest ▸ stepped_place_later owing late mem_cons_self) fun _ later owing => ?_
      exact told owing
  · rw [replied]
    exact ⟨⟨fun _ => stepped.sound, stepped.others⟩, orderly_done stepped.toOwing fun _ owing => owing⟩

theorem orderly_tick {now persistMs : Int} (screens : List (Nat × String)) {after : Nat}
    (owing : Owing program [] daemon) :
    Orderly program (fun _ => Owing program []) (tick program now persistMs after screens) daemon := by
  induction screens generalizing daemon after with
  | nil => exact orderly_done owing fun _ owing => owing
  | cons screen rest ih =>
    refine orderly_idle .nextDue owing fun due later owing => ?_
    cases due with
    | none => exact orderly_done owing fun _ owing => owing
    | some due => exact Holds.bind (DaemonRely.refl program) (orderly_saveScreen owing) fun _ last owing => ih owing

theorem orderly_ackEnded (owing : Owing program [] daemon) :
    Orderly program (fun _ => Owing program []) (ackEnded program id) daemon := by
  refine Holds.ask fun before rely => ?_
  have owing := owing.later rely
  rcases stepped_ack id owing with ⟨born, replied, stepped⟩ | same
  · rw [replied]
    refine ⟨⟨fun _ => stepped.sound, stepped.others⟩, ?_⟩
    refine Holds.bind (DaemonRely.refl program) (orderly_forget stepped.toOwing fun before owing =>
      stepped_unlink_forgotten owing) fun _ later owing => ?_
    exact orderly_done owing fun _ owing => owing
  · rw [same]
    exact ⟨⟨fun sound => sound, fun _ _ => rfl⟩, orderly_done owing fun _ owing => owing⟩

theorem orderly_run (job : DaemonJob Id) (owing : Owing program [] daemon) :
    Orderly program (fun _ => Owing program []) (job.run program) daemon := by
  have dropped {body : DaemonProgram Id Bool} (holds : Orderly program (fun _ => Owing program []) body daemon) :
      Orderly program (fun _ => Owing program []) (body >>= fun _ => pure ()) daemon :=
    Holds.bind (DaemonRely.refl program) holds fun _ later owing => orderly_done owing fun _ owing => owing
  cases job with
  | start request answers => exact dropped (orderly_start owing)
  | rename id title stamp => exact dropped (orderly_renameSession owing)
  | exit id answers => exact orderly_onSessionExit owing
  | tick now persistMs screens => exact orderly_tick screens owing
  | ackEnded id => exact dropped (orderly_ackEnded owing)
  | output id now => exact orderly_idle .output owing fun _ later owing => orderly_done owing fun _ owing => owing
  | «end» id reason => exact orderly_idle .endSession owing fun _ later owing => orderly_done owing fun _ owing => owing

end

end EverWorks.Sessions
