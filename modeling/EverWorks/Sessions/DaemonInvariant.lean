import EverWorks.Sessions.DaemonStore

/-!
# What is on disk and what is in memory

The versions of the daemon's records on disk and in memory, and an invariant that every operation keeps as long as no
version is put over a later one and none of an unacknowledged session is taken away.
-/

namespace EverWorks.Sessions
open Lib List Option Function

variable {Id : Type}

structure StoreView (Id : Type) where
  disk : Id → Option (Version Id)
  current : Id → Option (Version Id)
  starting : List Id
  removed : Id → Nat → Option (Version Id)
  next : Nat
  told : Id → Option Told
  debts : Nat → List (Debt Id)

def StoredSession.exit (record : StoredSession Id) : Option (Option Int × Option FleetSessionEndedReason) :=
  record.endedAt.map fun _ => (record.exitCode, record.endReason)

def Owed (debts : Nat → List (Debt Id)) (debt : Debt Id) : Prop := ∃ program, debt ∈ debts program

def Version.Behind (version : Version Id) (current : Option (Version Id)) : Prop :=
  ∃ now, current = some now ∧ version.born = now.born ∧ version.mark ≤ now.mark ∧
    (version.mark = now.mark → version = now)

structure TellsOf (debts : Nat → List (Debt Id)) (id : Id) (told : Told) (version : Version Id) : Prop where
  born : told.born = version.born
  startedAt : told.startedAt = version.record.startedAt
  title : told.title = version.record.title
  exit : told.exit = version.record.exit ∨
    (told.exit = none ∧ ∃ exitCode reason, Owed debts (.report id version.born exitCode reason))

section
variable {owed : Nat → List (Debt Id)} {program other : Nat} {debts : List (Debt Id)} {debt : Debt Id} {id : Id}
  {version : Version Id}

theorem update_eq_some [DecidableEq Id] {α : Type} {entries : Id → Option α} {held : Option α} {name : Id} {value : α}
    (there : update entries name held id = some value) :
    (id = name ∧ held = some value) ∨ (id ≠ name ∧ entries id = some value) := by
  by_cases here : id = name
  · subst here
    exact .inl ⟨rfl, by rwa [update_self] at there⟩
  · exact .inr ⟨here, by rwa [update_of_ne here] at there⟩

theorem Version.Behind.elsewhere [DecidableEq Id] {current : Id → Option (Version Id)} {held : Option (Version Id)}
    {name : Id} (behind : version.Behind (current id)) (apart : id ≠ name) :
    version.Behind (update current name held id) := by
  rwa [update_of_ne apart]

theorem Version.Behind.revised [DecidableEq Id] {current : Id → Option (Version Id)} {next before : Version Id}
    {number : Nat} (behind : version.Behind (current id)) (now : current next.record.id = some before)
    (same : next.born = before.born) (mark : next.mark = number) (later : before.mark < number) :
    version.Behind (update current next.record.id (some next) id) := by
  by_cases here : id = next.record.id
  · subst here
    obtain ⟨found, there, born, older, _⟩ := behind
    obtain rfl : before = found := some.inj (now.symm.trans there)
    exact ⟨next, update_self .., born.trans same.symm, by omega, by omega⟩
  · exact behind.elsewhere here

theorem mem_owe : debt ∈ update owed program debts other ↔
    (other = program ∧ debt ∈ debts) ∨ (other ≠ program ∧ debt ∈ owed other) := by
  by_cases same : other = program
  · subst same
    simp
  · simp [same]

theorem Owed.owe (was : Owed owed debt) (keeps : debt ∈ owed program → debt ∈ debts) :
    Owed (update owed program debts) debt := by
  obtain ⟨other, listed⟩ := was
  refine ⟨other, mem_owe.mpr ?_⟩
  by_cases same : other = program
  · subst same
    exact .inl ⟨rfl, keeps listed⟩
  · exact .inr ⟨same, listed⟩

theorem owed_owe (listed : debt ∈ debts) :
    Owed (update owed program debts) debt :=
  ⟨program, mem_owe.mpr (.inl ⟨rfl, listed⟩)⟩

theorem Owed.more (was : Owed owed debt) (free : owed program = []) :
    Owed (update owed program debts) debt :=
  was.owe fun listed => absurd (free ▸ listed) not_mem_nil

theorem TellsOf.owe {told : Told} (tells : TellsOf owed id told version)
    (keeps : ∀ exitCode reason, .report id version.born exitCode reason ∈ owed program →
      .report id version.born exitCode reason ∈ debts) :
    TellsOf (update owed program debts) id told version where
  born := tells.born
  startedAt := tells.startedAt
  title := tells.title
  exit := by
    refine tells.exit.imp_right fun later => ?_
    obtain ⟨none, exitCode, reason, was⟩ := later
    exact ⟨none, exitCode, reason, was.owe (keeps exitCode reason)⟩

end

def Debt.late : Debt Id → Prop
  | .write _ | .closing .. | .report .. | .forget .. => True
  | .reserved _ | .opening .. | .saved _ => False

namespace StoreView

variable (view : StoreView Id)

def Honours (program : Nat) : Debt Id → Prop
  | .reserved id => id ∈ view.starting ∧ ∀ other, .reserved id ∈ view.debts other → other = program
  | .opening id born => .reserved id ∈ view.debts program ∧ view.current id = none ∧
      view.removed id born = none ∧ born < view.next
  | .saved version => .opening version.record.id version.born ∈ view.debts program ∧
      view.disk version.record.id = some version
  | .write version => version.Behind (view.current version.record.id) ∨ view.removed version.record.id version.born ≠ none
  | .closing _ _ => True
  | .report id born exitCode reason => (∃ version, view.current id = some version ∧ version.born = born ∧
      version.record.exit = some (exitCode, reason)) ∨ view.removed id born ≠ none
  | .forget id born => view.removed id born ≠ none

structure Sound : Prop where
  numbered : ∀ id version, view.current id = some version → version.record.id = id ∧
    version.born < view.next ∧ version.mark < view.next ∧ view.removed id version.born = none
  removed : ∀ id born version, view.removed id born = some version → version.record.id = id ∧
    version.born = born ∧ born < view.next
  filed : ∀ id version, view.disk id = some version → version.record.id = id
  onDisk : ∀ id version, view.disk id = some version →
    version.Behind (view.current id) ∨ Owed view.debts (.saved version) ∨ Owed view.debts (.forget id version.born)
  kept : ∀ id version, view.current id = some version → view.disk id = some version ∨
    Owed view.debts (.write version) ∨ Owed view.debts (.closing id version.born)
  honoured : ∀ program, ∀ debt ∈ view.debts program, view.Honours program debt
  silent : ∀ id, view.current id = none → view.told id = none
  told : ∀ id version, view.current id = some version → ∃ told, view.told id = some told ∧
    TellsOf view.debts id told version

/-! ## The operations -/

variable [DecidableEq Id] (program : Nat)

def owe (debts : List (Debt Id)) : StoreView Id :=
  { view with debts := update view.debts program debts }

def reserve (id : Id) : StoreView Id :=
  { view with starting := id :: view.starting, next := view.next + 1 }.owe program
    [.reserved id, .opening id view.next]

def release (id : Id) : StoreView Id :=
  { view with starting := view.starting.filter (· ≠ id) }.owe program []

def settle (version : Version Id) : StoreView Id := view.owe program (placedDebts version (view.debts program))

def place (version : Version Id) : StoreView Id :=
  { view with disk := update view.disk version.record.id (some version) }.settle program version

def unlink (id : Id) (born : Nat) : StoreView Id :=
  { view with disk := update view.disk id none }.owe program (unlinkedDebts id born (view.debts program))

def opened (version : Version Id) : StoreView Id :=
  { view with
    current := update view.current version.record.id (some version)
    told := update view.told version.record.id
      (some ⟨version.born, version.record.startedAt, version.record.title, none⟩) }.owe program
    [.reserved version.record.id]

def revise (version : Version Id) : StoreView Id :=
  { view with current := update view.current version.record.id (some version), next := view.next + 1 }

def retitle (version : Version Id) : StoreView Id :=
  let told := (view.told version.record.id).map fun told : Told => { told with title := version.record.title }
  { view.revise version with told := update view.told version.record.id told }.owe program [.write version]

def ended (version : Version Id) (exitCode : Option Int) (reason : Option FleetSessionEndedReason) : StoreView Id :=
  (view.revise version).owe program
    [.closing version.record.id version.born, .report version.record.id version.born exitCode reason]

def exited (id : Id) (born : Nat) (exitCode : Option Int) (reason : Option FleetSessionEndedReason) : StoreView Id :=
  let told := (view.told id).map fun told =>
    if told.born = born then { told with exit := some (exitCode, reason) } else told
  { view with told := update view.told id told }.owe program []

def ack (id : Id) (version : Version Id) : StoreView Id :=
  { view with
    current := update view.current id none
    removed := update view.removed id (update (view.removed id) version.born (some version))
    told := update view.told id none }.owe program [.forget id version.born]

/-! ## What the operations keep -/

section
variable {view : StoreView Id} {program other : Nat} {debts : List (Debt Id)} {debt : Debt Id} {id : Id}
  {version : Version Id} {born : Nat}

omit [DecidableEq Id] in
theorem Sound.one_opening (sound : view.Sound) (listed : .reserved id ∈ view.debts program)
    (theirs : .opening id born ∈ view.debts other) : other = program :=
  (sound.honoured program _ listed).2 other (sound.honoured other _ theirs).1

omit [DecidableEq Id] in
theorem Sound.one_saved (sound : view.Sound) (listed : .reserved version.record.id ∈ view.debts program)
    (theirs : .saved version ∈ view.debts other) : other = program :=
  sound.one_opening listed (sound.honoured other _ theirs).1

omit [DecidableEq Id] in
theorem Honours.owe (holds : view.Honours other debt) (apart : other ≠ program)
    (taken : ∀ id, .reserved id ∈ debts → .reserved id ∈ view.debts program) :
    (view.owe program debts).Honours other debt := by
  cases debt with
  | reserved id =>
    refine ⟨holds.1, fun another reserved => ?_⟩
    rcases mem_owe.mp reserved with ⟨rfl, mine⟩ | ⟨_, old⟩
    · exact holds.2 another (taken id mine)
    · exact holds.2 another old
  | opening id born => exact ⟨mem_owe.mpr (.inr ⟨apart, holds.1⟩), holds.2⟩
  | saved version => exact ⟨mem_owe.mpr (.inr ⟨apart, holds.1⟩), holds.2⟩
  | write version => exact holds
  | closing id born => trivial
  | report id born exitCode reason => exact holds
  | forget id born => exact holds

variable {held : Option (Version Id)}

theorem Honours.disk (holds : view.Honours other debt)
    (elsewhere : ∀ version, debt = .saved version → version.record.id ≠ id) :
    { view with disk := update view.disk id held }.Honours other debt := by
  cases debt with
  | saved version => exact ⟨holds.1, (update_of_ne (elsewhere version rfl) ..).trans holds.2⟩
  | reserved id => exact holds
  | opening id born => exact holds
  | write version => exact holds
  | closing id born => trivial
  | report id born exitCode reason => exact holds
  | forget id born => exact holds

omit [DecidableEq Id] in
theorem Sound.reserve (sound : view.Sound) (free : view.debts program = []) (absent : view.current id = none)
    (unreserved : id ∉ view.starting) : (view.reserve program id).Sound where
  numbered id version now := by
    obtain ⟨named, born, mark, there⟩ := sound.numbered id version now
    exact ⟨named, Nat.lt_succ_of_lt born, Nat.lt_succ_of_lt mark, there⟩
  removed id born version gone := by
    obtain ⟨named, same, before⟩ := sound.removed id born version gone
    exact ⟨named, same, Nat.lt_succ_of_lt before⟩
  filed := sound.filed
  onDisk id version there := by
    rcases sound.onDisk id version there with behind | saved | forgotten
    · exact .inl behind
    · exact .inr (.inl (saved.more free))
    · exact .inr (.inr (forgotten.more free))
  kept id version now := by
    rcases sound.kept id version now with there | write | closing
    · exact .inl there
    · exact .inr (.inl (write.more free))
    · exact .inr (.inr (closing.more free))
  honoured other debt listed := by
    rcases mem_owe.mp listed with ⟨rfl, mine⟩ | ⟨apart, theirs⟩
    · rcases mem_cons.mp mine with rfl | mine
      · refine ⟨mem_cons_self, fun another reserved => ?_⟩
        rcases mem_owe.mp reserved with ⟨same, _⟩ | ⟨_, old⟩
        · exact same
        · exact absurd (sound.honoured another _ old).1 unreserved
      · rw [mem_singleton.mp mine]
        refine ⟨mem_owe.mpr (.inl ⟨rfl, mem_cons_self⟩), absent, ?_, Nat.lt_succ_self _⟩
        cases gone : view.removed id view.next with
        | none => exact gone
        | some version => exact absurd (sound.removed id _ version gone).2.2 (lt_irrefl _)
    · have holds := sound.honoured other debt theirs
      cases debt with
      | reserved taken =>
        refine ⟨mem_cons_of_mem _ holds.1, fun another reserved => ?_⟩
        rcases mem_owe.mp reserved with ⟨_, mine⟩ | ⟨_, old⟩
        · have same : taken = id := by simpa using mine
          exact absurd (same ▸ holds.1) unreserved
        · exact holds.2 another old
      | opening taken born =>
        exact ⟨mem_owe.mpr (.inr ⟨apart, holds.1⟩), holds.2.1, holds.2.2.1, Nat.lt_succ_of_lt holds.2.2.2⟩
      | saved version => exact ⟨mem_owe.mpr (.inr ⟨apart, holds.1⟩), holds.2⟩
      | write version => exact holds
      | closing closed born => trivial
      | report ended born exitCode reason => exact holds
      | forget forgotten born => exact holds
  silent := sound.silent
  told id version now := by
    obtain ⟨told, known, tells⟩ := sound.told id version now
    exact ⟨told, known, tells.owe fun _ _ listed => absurd (free ▸ listed) not_mem_nil⟩

theorem Sound.release (sound : view.Sound) (mine : .reserved id ∈ view.debts program)
    (only : ∀ debt ∈ view.debts program, debt = .reserved id ∨ ∃ born, debt = .opening id born) :
    (view.release program id).Sound where
  numbered := sound.numbered
  removed := sound.removed
  filed := sound.filed
  onDisk id version there := by
    rcases sound.onDisk id version there with behind | saved | forgotten
    · exact .inl behind
    · exact .inr (.inl (saved.owe fun listed => by rcases only _ listed with h | ⟨_, h⟩ <;> cases h))
    · exact .inr (.inr (forgotten.owe fun listed => by rcases only _ listed with h | ⟨_, h⟩ <;> cases h))
  kept id version now := by
    rcases sound.kept id version now with there | write | closing
    · exact .inl there
    · exact .inr (.inl (write.owe fun listed => by rcases only _ listed with h | ⟨_, h⟩ <;> cases h))
    · exact .inr (.inr (closing.owe fun listed => by rcases only _ listed with h | ⟨_, h⟩ <;> cases h))
  honoured other debt listed := by
    rcases mem_owe.mp listed with ⟨_, mine⟩ | ⟨apart, theirs⟩
    · cases mine
    · have holds := sound.honoured other debt theirs
      refine Honours.owe ?_ apart nofun
      cases debt with
      | reserved taken =>
        refine ⟨mem_filter.mpr ⟨holds.1, ?_⟩, holds.2⟩
        have : taken ≠ id := fun same => apart (holds.2 program (same ▸ mine)).symm
        simpa using this
      | opening taken born => exact holds
      | saved version => exact holds
      | write version => exact holds
      | closing closed born => trivial
      | report ended born exitCode reason => exact holds
      | forget forgotten born => exact holds
  silent := sound.silent
  told id version now := by
    obtain ⟨told, known, tells⟩ := sound.told id version now
    exact ⟨told, known, tells.owe fun _ _ listed => by rcases only _ listed with h | ⟨_, h⟩ <;> cases h⟩

theorem Sound.place_first (sound : view.Sound)
    (owes : view.debts program = [.reserved version.record.id, .opening version.record.id version.born]) :
    (view.place program version).Sound := by
  have reserved : .reserved version.record.id ∈ view.debts program := by rw [owes]; exact mem_cons_self
  have opening : .opening version.record.id version.born ∈ view.debts program := by
    rw [owes]
    exact mem_cons_of_mem _ (mem_singleton_self _)
  have next : placedDebts version (view.debts program) = .saved version :: view.debts program := if_pos opening
  rw [place, settle, show placedDebts version _ = _ from next]
  have grows {debt : Debt Id} (listed : debt ∈ view.debts program) :
      debt ∈ Debt.saved version :: view.debts program := mem_cons_of_mem _ listed
  exact {
    numbered := sound.numbered
    removed := sound.removed
    filed := by
      intro id other there
      rcases update_eq_some there with ⟨rfl, same⟩ | ⟨_, there⟩
      · rw [← some.inj same]
      · exact sound.filed id other there
    onDisk := by
      intro id other there
      rcases update_eq_some there with ⟨rfl, same⟩ | ⟨_, there⟩
      · rw [← some.inj same]
        exact .inr (.inl (owed_owe mem_cons_self))
      · rcases sound.onDisk id other there with behind | saved | forgotten
        · exact .inl behind
        · exact .inr (.inl (saved.owe grows))
        · exact .inr (.inr (forgotten.owe grows))
    kept := by
      intro id other now
      have apart : id ≠ version.record.id := by
        rintro rfl
        cases (sound.honoured program _ opening).2.1.symm.trans now
      rcases sound.kept id other now with there | write | closing
      · exact .inl ((update_of_ne apart ..).trans there)
      · exact .inr (.inl (write.owe grows))
      · exact .inr (.inr (closing.owe grows))
    honoured := by
      intro other debt listed
      rcases mem_owe.mp listed with ⟨rfl, mine⟩ | ⟨apart, theirs⟩
      · rcases mem_cons.mp mine with rfl | mine
        · exact ⟨mem_owe.mpr (.inl ⟨rfl, grows opening⟩), update_self ..⟩
        · have holds := sound.honoured other debt mine
          rw [owes] at mine
          rcases mem_cons.mp mine with rfl | mine
          · refine ⟨holds.1, fun another taken => ?_⟩
            rcases mem_owe.mp taken with ⟨same, _⟩ | ⟨_, old⟩
            · exact same
            · exact holds.2 another old
          · rw [mem_singleton.mp mine]
            exact ⟨mem_owe.mpr (.inl ⟨rfl, grows reserved⟩), (sound.honoured other _ opening).2⟩
      · refine Honours.owe (Honours.disk (sound.honoured other debt theirs) ?_) apart fun id taken => ?_
        · rintro saved rfl same
          exact apart (sound.one_saved (same ▸ reserved) theirs)
        · rcases mem_cons.mp taken with h | taken
          · cases h
          · exact taken
    silent := sound.silent
    told := by
      intro id other now
      obtain ⟨told, known, tells⟩ := sound.told id other now
      exact ⟨told, known, tells.owe fun _ _ => grows⟩ }

theorem Sound.opened (sound : view.Sound)
    (owes : view.debts program = [.saved version, .reserved version.record.id, .opening version.record.id version.born])
    (first : version.mark = version.born) (runs : version.record.exit = none) :
    (view.opened program version).Sound := by
  have reserved : .reserved version.record.id ∈ view.debts program := by rw [owes]; simp
  have saved := sound.honoured program (.saved version) (by rw [owes]; simp)
  obtain ⟨_, absent, unknown, before⟩ := sound.honoured program (.opening version.record.id version.born) saved.1
  have keeps {debt : Debt Id} (listed : debt ∈ view.debts program) (late : debt ≠ .saved version)
      (later : debt ≠ .opening version.record.id version.born) : debt ∈ [Debt.reserved version.record.id] := by
    rw [owes] at listed
    simpa [late, later] using listed
  have elsewhere {id : Id} {other : Version Id} (there : view.disk id = some other)
      (apart : id ≠ version.record.id) : other ≠ version := by
    rintro rfl
    exact apart (sound.filed id _ there).symm
  exact {
    numbered := by
      intro id other now
      rcases update_eq_some now with ⟨rfl, same⟩ | ⟨_, now⟩
      · rw [← some.inj same]
        exact ⟨rfl, before, by rw [first]; exact before, unknown⟩
      · exact sound.numbered id other now
    removed := sound.removed
    filed := sound.filed
    onDisk := by
      intro id other there
      by_cases here : id = version.record.id
      · subst here
        refine .inl ⟨version, update_self .., ?_⟩
        rw [some.inj (there.symm.trans saved.2)]
        exact ⟨rfl, le_rfl, fun _ => rfl⟩
      · rcases sound.onDisk id other there with behind | owed | forgotten
        · exact .inl (behind.elsewhere here)
        · refine .inr (.inl (owed.owe fun listed => keeps listed ?_ nofun))
          exact fun same => elsewhere there here (by injection same)
        · exact .inr (.inr (forgotten.owe fun listed => keeps listed nofun nofun))
    kept := by
      intro id other now
      rcases update_eq_some now with ⟨rfl, same⟩ | ⟨_, now⟩
      · rw [← some.inj same]
        exact .inl saved.2
      · rcases sound.kept id other now with there | write | closing
        · exact .inl there
        · exact .inr (.inl (write.owe fun listed => keeps listed nofun nofun))
        · exact .inr (.inr (closing.owe fun listed => keeps listed nofun nofun))
    honoured := by
      intro other debt listed
      rcases mem_owe.mp listed with ⟨rfl, mine⟩ | ⟨apart, theirs⟩
      · rw [mem_singleton.mp mine]
        refine ⟨(sound.honoured other _ reserved).1, fun another taken => ?_⟩
        rcases mem_owe.mp taken with ⟨same, _⟩ | ⟨_, old⟩
        · exact same
        · exact (sound.honoured other _ reserved).2 another old
      · have holds := sound.honoured other debt theirs
        refine Honours.owe ?_ apart fun id taken => ?_
        · cases debt with
          | reserved id => exact holds
          | opening id born =>
            refine ⟨holds.1, ?_, holds.2.2⟩
            have away : id ≠ version.record.id := fun same => apart (sound.one_opening (same ▸ reserved) theirs)
            exact (update_of_ne away ..).trans holds.2.1
          | saved other => exact holds
          | write other =>
            refine holds.imp_left fun behind => ?_
            have away : other.record.id ≠ version.record.id := by
              intro same
              obtain ⟨now, found, _⟩ := behind
              rw [same, absent] at found
              cases found
            exact behind.elsewhere away
          | closing id born => trivial
          | report id born exitCode reason =>
            refine holds.imp_left fun ⟨now, found, told⟩ => ⟨now, ?_, told⟩
            have away : id ≠ version.record.id := by
              rintro rfl
              cases absent.symm.trans found
            exact (update_of_ne away ..).trans found
          | forget id born => exact holds
        · rw [mem_singleton.mp taken]
          exact reserved
    silent := by
      intro id absent
      by_cases here : id = version.record.id
      · subst here
        cases (update_self ..).symm.trans absent
      · exact (update_of_ne here ..).trans (sound.silent id ((update_of_ne here ..).symm.trans absent))
    told := by
      intro id other now
      rcases update_eq_some now with ⟨rfl, same⟩ | ⟨here, now⟩
      · rw [← some.inj same]
        exact ⟨_, update_self .., rfl, rfl, rfl, .inl runs.symm⟩
      · obtain ⟨told, known, tells⟩ := sound.told id other now
        refine ⟨told, (update_of_ne here ..).trans known, tells.owe fun _ _ listed => ?_⟩
        exact keeps listed nofun nofun }

omit [DecidableEq Id] in
theorem Honours.late (holds : view.Honours other debt) (mine : other = program → debt.late)
    (taken : ∀ debt ∈ debts, debt.late) : (view.owe program debts).Honours other debt := by
  cases debt with
  | reserved id =>
    refine ⟨holds.1, fun another reserved => ?_⟩
    rcases mem_owe.mp reserved with ⟨_, listed⟩ | ⟨_, old⟩
    · exact (taken _ listed).elim
    · exact holds.2 another old
  | opening id born => exact ⟨mem_owe.mpr (.inr ⟨mine, holds.1⟩), holds.2⟩
  | saved version => exact ⟨mem_owe.mpr (.inr ⟨mine, holds.1⟩), holds.2⟩
  | write version => exact holds
  | closing id born => trivial
  | report id born exitCode reason => exact holds
  | forget id born => exact holds

theorem settle_late (late : ∀ debt ∈ view.debts program, debt.late)
    (writes : .write version ∈ view.debts program) :
    (∀ debt, debt ≠ .write version → Owed view.debts debt →
      Owed (update view.debts program (placedDebts version (view.debts program))) debt) ∧
    (∀ other debt, debt ∈ update view.debts program (placedDebts version (view.debts program)) other →
      debt ∈ view.debts other ∧ ∀ changed : StoreView Id, changed.debts = view.debts →
        changed.Honours other debt → (changed.settle program version).Honours other debt) := by
  have next : placedDebts version (view.debts program) = (view.debts program).filter (· ≠ .write version) :=
    if_neg fun listed => late (.opening ..) listed
  refine ⟨fun debt apart owed => owed.owe fun listed => ?_, fun other debt listed => ?_⟩
  · rw [next]
    exact mem_filter.mpr ⟨listed, by simpa using apart⟩
  · have old : debt ∈ view.debts other := by
      rcases mem_owe.mp listed with ⟨rfl, mine⟩ | ⟨_, theirs⟩
      · rw [next] at mine
        exact (mem_filter.mp mine).1
      · exact theirs
    refine ⟨old, fun changed same holds => ?_⟩
    rw [settle, same, next]
    refine holds.late ?_ fun debt listed => late debt (mem_filter.mp listed).1
    rintro rfl
    exact late debt old

theorem Sound.place_later (sound : view.Sound) (late : ∀ debt ∈ view.debts program, debt.late)
    (writes : .write version ∈ view.debts program) (live : view.removed version.record.id version.born = none)
    (timely : ∀ there, view.disk version.record.id = some there → there.born = version.born →
      there.mark ≤ version.mark) : (view.place program version).Sound := by
  obtain ⟨stays, honoured⟩ := settle_late late writes
  have behind : version.Behind (view.current version.record.id) :=
    (sound.honoured program _ writes).resolve_right fun gone => gone live
  exact {
    numbered := sound.numbered
    removed := sound.removed
    filed := by
      intro id other there
      rcases update_eq_some there with ⟨rfl, same⟩ | ⟨_, there⟩
      · rw [← some.inj same]
      · exact sound.filed id other there
    onDisk := by
      intro id other there
      rcases update_eq_some there with ⟨rfl, same⟩ | ⟨_, there⟩
      · rw [← some.inj same]
        exact .inl behind
      · rcases sound.onDisk id other there with behind | saved | forgotten
        · exact .inl behind
        · exact .inr (.inl (stays _ nofun saved))
        · exact .inr (.inr (stays _ nofun forgotten))
    kept := by
      intro id other now
      by_cases here : id = version.record.id
      · subst here
        obtain ⟨found, there, born, mark, same⟩ := behind
        rw [show other = found from some.inj (now.symm.trans there)]
        by_cases newest : version = found
        · exact .inl (newest ▸ update_self ..)
        · rcases sound.kept _ found there with stored | write | closing
          · -- A version on disk that is not older than the one put over it is that one.
            exact absurd (same (mark.antisymm (timely found stored born.symm))) newest
          · exact .inr (.inl (stays _ (fun equal => newest (by injection equal with equal; exact equal.symm)) write))
          · exact .inr (.inr (stays _ nofun closing))
      · rcases sound.kept id other now with there | write | closing
        · exact .inl ((update_of_ne here ..).trans there)
        · refine .inr (.inl (stays _ (fun equal => here ?_) write))
          injection equal with equal
          rw [← equal]
          exact (sound.numbered id other now).1.symm
        · exact .inr (.inr (stays _ nofun closing))
    honoured := by
      intro other debt listed
      obtain ⟨old, later⟩ := honoured other debt listed
      refine later _ rfl (Honours.disk (sound.honoured other debt old) ?_)
      rintro saved rfl same
      obtain ⟨now, found, _⟩ := behind
      have opening := (sound.honoured other _ (sound.honoured other _ old).1).2.1
      rw [same, found] at opening
      cases opening
    silent := sound.silent
    told := by
      intro id other now
      obtain ⟨told, known, tells⟩ := sound.told id other now
      refine ⟨told, known, tells.born, tells.startedAt, tells.title, tells.exit.imp_right ?_⟩
      rintro ⟨none, exitCode, reason, owed⟩
      exact ⟨none, exitCode, reason, stays _ nofun owed⟩ }

theorem Sound.settle (sound : view.Sound) (late : ∀ debt ∈ view.debts program, debt.late)
    (writes : .write version ∈ view.debts program)
    (outdated : view.removed version.record.id version.born ≠ none ∨ ∃ there,
      view.disk version.record.id = some there ∧ there.born = version.born ∧ version.mark < there.mark) :
    (view.settle program version).Sound := by
  obtain ⟨stays, honoured⟩ := settle_late late writes
  exact {
    numbered := sound.numbered
    removed := sound.removed
    filed := sound.filed
    onDisk := by
      intro id other there
      rcases sound.onDisk id other there with behind | saved | forgotten
      · exact .inl behind
      · exact .inr (.inl (stays _ nofun saved))
      · exact .inr (.inr (stays _ nofun forgotten))
    kept := by
      intro id other now
      obtain ⟨named, _, _, live⟩ := sound.numbered id other now
      rcases sound.kept id other now with there | write | closing
      · exact .inl there
      · refine .inr (.inl (stays _ (fun equal => ?_) write))
        injection equal with equal
        subst equal named
        rcases outdated with gone | ⟨there, stored, born, later⟩
        · exact gone live
        · rcases sound.onDisk _ there stored with ⟨found, current, _, mark, _⟩ | ⟨starter, saved⟩ | ⟨owner, forgotten⟩
          · rw [some.inj (current.symm.trans now)] at mark
            omega
          · have absent := (sound.honoured starter _ (sound.honoured starter _ saved).1).2.1
            rw [sound.filed _ there stored] at absent
            cases absent.symm.trans now
          · exact sound.honoured owner _ forgotten (by rw [born]; exact live)
      · exact .inr (.inr (stays _ nofun closing))
    honoured := by
      intro other debt listed
      obtain ⟨old, later⟩ := honoured other debt listed
      exact later _ rfl (sound.honoured other debt old)
    silent := sound.silent
    told := by
      intro id other now
      obtain ⟨told, known, tells⟩ := sound.told id other now
      refine ⟨told, known, tells.born, tells.startedAt, tells.title, tells.exit.imp_right ?_⟩
      rintro ⟨none, exitCode, reason, owed⟩
      exact ⟨none, exitCode, reason, stays _ nofun owed⟩ }

theorem Sound.unlink_first (sound : view.Sound)
    (owes : view.debts program =
      [.saved version, .reserved version.record.id, .opening version.record.id version.born]) :
    (view.unlink program version.record.id version.born).Sound := by
  have reserved : .reserved version.record.id ∈ view.debts program := by rw [owes]; simp
  have saved := sound.honoured program (.saved version) (by rw [owes]; simp)
  have opening := sound.honoured program (.opening version.record.id version.born) saved.1
  have next : unlinkedDebts version.record.id version.born (view.debts program) =
      [.reserved version.record.id, .opening version.record.id version.born] := by
    rw [owes]
    simp [unlinkedDebts]
  rw [unlink, next]
  have keeps {debt : Debt Id} (listed : debt ∈ view.debts program) (late : debt ≠ .saved version) :
      debt ∈ [Debt.reserved version.record.id, .opening version.record.id version.born] := by
    rw [owes] at listed
    simpa [late] using listed
  exact {
    numbered := sound.numbered
    removed := sound.removed
    filed := by
      intro id other there
      rcases update_eq_some there with ⟨_, same⟩ | ⟨_, there⟩
      · cases same
      · exact sound.filed id other there
    onDisk := by
      intro id other there
      rcases update_eq_some there with ⟨_, same⟩ | ⟨apart, there⟩
      · cases same
      · rcases sound.onDisk id other there with behind | saved | forgotten
        · exact .inl behind
        · refine .inr (.inl (saved.owe fun listed => keeps listed fun same => apart ?_))
          injection same with same
          rw [← same]
          exact (sound.filed id other there).symm
        · exact .inr (.inr (forgotten.owe fun listed => keeps listed nofun))
    kept := by
      intro id other now
      have apart : id ≠ version.record.id := by
        rintro rfl
        cases opening.2.1.symm.trans now
      rcases sound.kept id other now with there | write | closing
      · exact .inl ((update_of_ne apart ..).trans there)
      · exact .inr (.inl (write.owe fun listed => keeps listed nofun))
      · exact .inr (.inr (closing.owe fun listed => keeps listed nofun))
    honoured := by
      intro other debt listed
      rcases mem_owe.mp listed with ⟨rfl, mine⟩ | ⟨apart, theirs⟩
      · rcases mem_cons.mp mine with rfl | mine
        · refine ⟨(sound.honoured other _ reserved).1, fun another taken => ?_⟩
          rcases mem_owe.mp taken with ⟨same, _⟩ | ⟨_, old⟩
          · exact same
          · exact (sound.honoured other _ reserved).2 another old
        · rw [mem_singleton.mp mine]
          exact ⟨mem_owe.mpr (.inl ⟨rfl, mem_cons_self⟩), opening.2⟩
      · refine Honours.owe (Honours.disk (sound.honoured other debt theirs) ?_) apart fun id taken => ?_
        · rintro other rfl same
          exact apart (sound.one_saved (same ▸ reserved) theirs)
        · rcases mem_cons.mp taken with taken | taken
          · rw [taken]
            exact reserved
          · cases mem_singleton.mp taken
    silent := sound.silent
    told := by
      intro id other now
      obtain ⟨told, known, tells⟩ := sound.told id other now
      exact ⟨told, known, tells.owe fun _ _ listed => keeps listed nofun⟩ }

theorem Sound.unlink_forgotten (sound : view.Sound) (owes : view.debts program = [.forget id born])
    (own : ∀ there, view.disk id = some there → there.born = born) : (view.unlink program id born).Sound := by
  have forgotten := sound.honoured program (.forget id born) (by rw [owes]; simp)
  have next : unlinkedDebts id born (view.debts program) = [] := by
    rw [owes]
    simp [unlinkedDebts]
  rw [unlink, next]
  have keeps {debt : Debt Id} (listed : debt ∈ view.debts program) (late : debt ≠ .forget id born) :
      debt ∈ ([] : List (Debt Id)) := by
    rw [owes] at listed
    exact absurd (mem_singleton.mp listed) late
  exact {
    numbered := sound.numbered
    removed := sound.removed
    filed := by
      intro other version there
      rcases update_eq_some there with ⟨_, same⟩ | ⟨_, there⟩
      · cases same
      · exact sound.filed other version there
    onDisk := by
      intro other version there
      rcases update_eq_some there with ⟨_, same⟩ | ⟨apart, there⟩
      · cases same
      · rcases sound.onDisk other version there with behind | saved | gone
        · exact .inl behind
        · exact .inr (.inl (saved.owe fun listed => keeps listed nofun))
        · refine .inr (.inr (gone.owe fun listed => keeps listed fun same => apart ?_))
          injection same
    kept := by
      intro other version now
      rcases sound.kept other version now with there | write | closing
      · by_cases here : other = id
        · subst here
          have live := (sound.numbered other version now).2.2.2
          rw [own version there] at live
          exact absurd live forgotten
        · exact .inl ((update_of_ne here ..).trans there)
      · exact .inr (.inl (write.owe fun listed => keeps listed nofun))
      · exact .inr (.inr (closing.owe fun listed => keeps listed nofun))
    honoured := by
      intro other debt listed
      rcases mem_owe.mp listed with ⟨_, mine⟩ | ⟨apart, theirs⟩
      · cases mine
      · have holds := sound.honoured other debt theirs
        refine Honours.owe (Honours.disk holds ?_) apart nofun
        rintro version rfl here
        have unknown := (sound.honoured other _ holds.1).2.2.1
        rw [here, own version (here ▸ holds.2)] at unknown
        exact forgotten unknown
    silent := sound.silent
    told := by
      intro other version now
      obtain ⟨told, known, tells⟩ := sound.told other version now
      exact ⟨told, known, tells.owe fun _ _ listed => keeps listed nofun⟩ }

theorem Sound.leave (sound : view.Sound) (owes : view.debts program = [.forget id born])
    (others : ∃ there, view.disk id = some there ∧ there.born ≠ born) :
    (view.owe program (unlinkedDebts id born (view.debts program))).Sound := by
  have next : unlinkedDebts id born (view.debts program) = [] := by
    rw [owes]
    simp [unlinkedDebts]
  rw [next]
  have keeps {debt : Debt Id} (listed : debt ∈ view.debts program) (late : debt ≠ .forget id born) :
      debt ∈ ([] : List (Debt Id)) := by
    rw [owes] at listed
    exact absurd (mem_singleton.mp listed) late
  exact {
    numbered := sound.numbered
    removed := sound.removed
    filed := sound.filed
    onDisk := by
      intro other version there
      rcases sound.onDisk other version there with behind | saved | gone
      · exact .inl behind
      · exact .inr (.inl (saved.owe fun listed => keeps listed nofun))
      · refine .inr (.inr (gone.owe fun listed => keeps listed fun same => ?_))
        injection same with here number
        subst here
        obtain ⟨found, stored, apart⟩ := others
        rw [some.inj (stored.symm.trans there)] at apart
        exact apart number
    kept := by
      intro other version now
      rcases sound.kept other version now with there | write | closing
      · exact .inl there
      · exact .inr (.inl (write.owe fun listed => keeps listed nofun))
      · exact .inr (.inr (closing.owe fun listed => keeps listed nofun))
    honoured := by
      intro other debt listed
      rcases mem_owe.mp listed with ⟨_, mine⟩ | ⟨apart, theirs⟩
      · cases mine
      · exact (sound.honoured other debt theirs).owe apart nofun
    silent := sound.silent
    told := by
      intro other version now
      obtain ⟨told, known, tells⟩ := sound.told other version now
      exact ⟨told, known, tells.owe fun _ _ listed => keeps listed nofun⟩ }

variable {before : Version Id}

theorem Sound.revise {toldNow : Option Told} (sound : view.Sound)
    (free : view.debts program = []) (now : view.current version.record.id = some before)
    (same : version.born = before.born) (next : version.mark = view.next)
    (exit : before.record.exit = none ∨ version.record.exit = before.record.exit)
    (late : ∀ debt ∈ debts, debt.late)
    (saves : .write version ∈ debts ∨ .closing version.record.id version.born ∈ debts)
    (honest : ∀ debt ∈ debts, ({ view.revise version with
      told := update view.told version.record.id toldNow }.owe program debts).Honours program debt)
    (tells : ∀ told, view.told version.record.id = some told → TellsOf view.debts version.record.id told before →
      ∃ later, toldNow = some later ∧
        TellsOf (update view.debts program debts) version.record.id later version) :
    ({ view.revise version with told := update view.told version.record.id toldNow }.owe program
      debts).Sound := by
  obtain ⟨named, born, mark, live⟩ := sound.numbered _ before now
  exact {
    numbered := by
      intro id other now
      rcases update_eq_some now with ⟨rfl, found⟩ | ⟨_, now⟩
      · rw [← some.inj found]
        refine ⟨rfl, ?_, ?_, ?_⟩
        · rw [same]
          exact Nat.lt_succ_of_lt born
        · rw [next]
          exact Nat.lt_succ_self _
        · rw [same]
          exact live
      · obtain ⟨named, born, mark, live⟩ := sound.numbered id other now
        exact ⟨named, Nat.lt_succ_of_lt born, Nat.lt_succ_of_lt mark, live⟩
    removed := by
      intro id born other gone
      obtain ⟨named, number, before⟩ := sound.removed id born other gone
      exact ⟨named, number, Nat.lt_succ_of_lt before⟩
    filed := sound.filed
    onDisk := by
      intro id other there
      rcases sound.onDisk id other there with behind | saved | forgotten
      · exact .inl (behind.revised now same next mark)
      · exact .inr (.inl (saved.more free))
      · exact .inr (.inr (forgotten.more free))
    kept := by
      intro id other now
      rcases update_eq_some now with ⟨rfl, found⟩ | ⟨_, now⟩
      · rw [← some.inj found]
        exact saves.elim (fun write => .inr (.inl (owed_owe write))) fun closing => .inr (.inr (owed_owe closing))
      · rcases sound.kept id other now with there | write | closing
        · exact .inl there
        · exact .inr (.inl (write.more free))
        · exact .inr (.inr (closing.more free))
    honoured := by
      intro other debt listed
      rcases mem_owe.mp listed with ⟨rfl, mine⟩ | ⟨apart, theirs⟩
      · exact honest debt mine
      · have holds := sound.honoured other debt theirs
        refine Honours.late ?_ (fun same => absurd same apart) late
        cases debt with
        | reserved id => exact holds
        | opening id born =>
          refine ⟨holds.1, ?_, holds.2.2.1, Nat.lt_succ_of_lt holds.2.2.2⟩
          have away : id ≠ version.record.id := by
            rintro rfl
            cases holds.2.1.symm.trans now
          exact (update_of_ne away ..).trans holds.2.1
        | saved other => exact holds
        | write other => exact holds.imp_left fun behind => behind.revised now same next mark
        | closing id born => trivial
        | report id born exitCode reason =>
          refine holds.imp_left fun ⟨ended, found, number, left⟩ => ?_
          by_cases here : id = version.record.id
          · subst here
            obtain rfl : before = ended := some.inj (now.symm.trans found)
            refine ⟨version, update_self .., same.trans number, ?_⟩
            rcases exit with runs | kept
            · rw [runs] at left
              cases left
            · exact kept.trans left
          · exact ⟨ended, (update_of_ne here ..).trans found, number, left⟩
        | forget id born => exact holds
    silent := by
      intro id absent
      by_cases here : id = version.record.id
      · subst here
        cases (update_self ..).symm.trans absent
      · exact (update_of_ne here ..).trans (sound.silent id ((update_of_ne here ..).symm.trans absent))
    told := by
      intro id other current
      rcases update_eq_some current with ⟨rfl, found⟩ | ⟨here, found⟩
      · rw [← some.inj found]
        obtain ⟨told, known, was⟩ := sound.told _ before now
        obtain ⟨later, set, tells⟩ := tells told known was
        exact ⟨later, (update_self ..).trans set, tells⟩
      · obtain ⟨told, known, tells⟩ := sound.told id other found
        exact ⟨told, (update_of_ne here ..).trans known,
          tells.owe fun _ _ listed => absurd (free ▸ listed) not_mem_nil⟩ }

theorem Sound.retitle (sound : view.Sound) (free : view.debts program = [])
    (now : view.current version.record.id = some before) (same : version.born = before.born)
    (next : version.mark = view.next) (exit : version.record.exit = before.record.exit)
    (startedAt : version.record.startedAt = before.record.startedAt) : (view.retitle program version).Sound := by
  refine sound.revise free now same next (.inr exit) ?_ (.inl mem_cons_self) ?_ ?_
  · intro debt listed
    rw [mem_singleton.mp listed]
    trivial
  · intro debt listed
    rw [mem_singleton.mp listed]
    exact .inl ⟨version, update_self .., rfl, le_rfl, fun _ => rfl⟩
  · intro told known tells
    refine ⟨{ told with title := version.record.title }, ?_, tells.born.trans same.symm,
      tells.startedAt.trans startedAt.symm, rfl, ?_⟩
    · rw [known]
      rfl
    · rcases tells.exit with recorded | ⟨untold, exitCode, reason, owed⟩
      · exact .inl (recorded.trans exit.symm)
      · refine .inr ⟨untold, exitCode, reason, ?_⟩
        rw [same]
        exact owed.more free

theorem Sound.ended {exitCode : Option Int} {reason : Option FleetSessionEndedReason}
    (sound : view.Sound) (free : view.debts program = []) (now : view.current version.record.id = some before)
    (same : version.born = before.born) (next : version.mark = view.next) (runs : before.record.exit = none)
    (exit : version.record.exit = some (exitCode, reason)) (title : version.record.title = before.record.title)
    (startedAt : version.record.startedAt = before.record.startedAt) :
    (view.ended program version exitCode reason).Sound := by
  have whole : ({ view.revise version with
      told := update view.told version.record.id (view.told version.record.id) }.owe program
        [.closing version.record.id version.born, .report version.record.id version.born exitCode reason]).Sound := by
    refine sound.revise free now same next (.inl runs) ?_ (.inr mem_cons_self) ?_ ?_
    · intro debt listed
      rcases mem_cons.mp listed with rfl | listed
      · trivial
      · rw [mem_singleton.mp listed]
        trivial
    · intro debt listed
      rcases mem_cons.mp listed with rfl | listed
      · trivial
      · rw [mem_singleton.mp listed]
        exact .inl ⟨version, update_self .., rfl, exit⟩
    · intro told known tells
      refine ⟨told, known, tells.born.trans same.symm, tells.startedAt.trans startedAt.symm,
        tells.title.trans title.symm, .inr ⟨?_, exitCode, reason, owed_owe (by simp)⟩⟩
      rcases tells.exit with recorded | ⟨untold, _⟩
      · exact recorded.trans runs
      · exact untold
  rwa [update_eq_self] at whole

omit [DecidableEq Id] in
/-- A program takes a version of the book it holds, in memory or no longer, to save it. -/
theorem Sound.bookRecord {rest : List (Debt Id)} (sound : view.Sound)
    (owes : view.debts program = .closing id born :: rest) (late : ∀ debt ∈ rest, debt.late)
    (newest : ∀ version, view.current id = some version → version.born = born → held = some version)
    (known : ∀ version, held = some version → version.record.id = id ∧
      (view.current id = some version ∨ view.removed id version.born ≠ none)) :
    (view.owe program (held.toList.map .write ++ rest)).Sound := by
  have keeps {debt : Debt Id} (listed : debt ∈ view.debts program) (other : debt ≠ .closing id born) :
      debt ∈ held.toList.map Debt.write ++ rest := by
    rw [owes] at listed
    exact mem_append_right _ (mem_of_ne_of_mem other listed)
  have fresh : ∀ debt ∈ held.toList.map Debt.write ++ rest, debt.late := by
    intro debt listed
    rcases mem_append.mp listed with write | old
    · obtain ⟨version, _, rfl⟩ := mem_map.mp write
      trivial
    · exact late debt old
  exact {
    numbered := sound.numbered
    removed := sound.removed
    filed := sound.filed
    onDisk := by
      intro other version there
      rcases sound.onDisk other version there with behind | saved | forgotten
      · exact .inl behind
      · exact .inr (.inl (saved.owe fun listed => keeps listed nofun))
      · exact .inr (.inr (forgotten.owe fun listed => keeps listed nofun))
    kept := by
      intro other version now
      rcases sound.kept other version now with there | write | closing
      · exact .inl there
      · exact .inr (.inl (write.owe fun listed => keeps listed nofun))
      · by_cases own : other = id ∧ version.born = born
        · obtain ⟨rfl, number⟩ := own
          refine .inr (.inl (owed_owe (mem_append_left _ (mem_map_of_mem ?_))))
          rw [newest version now number]
          exact mem_singleton_self _
        · refine .inr (.inr (closing.owe fun listed => keeps listed fun same => own ?_))
          injection same with here number
          exact ⟨here, number⟩
    honoured := by
      intro other debt listed
      rcases mem_owe.mp listed with ⟨rfl, mine⟩ | ⟨apart, theirs⟩
      · rcases mem_append.mp mine with write | old
        · obtain ⟨version, found, rfl⟩ := mem_map.mp write
          obtain ⟨rfl, now⟩ := known version (mem_toList.mp found)
          exact now.imp_left fun now => ⟨version, now, rfl, le_rfl, fun _ => rfl⟩
        · have holds := sound.honoured other debt (by rw [owes]; exact mem_cons_of_mem _ old)
          exact holds.late (fun _ => late debt old) fresh
      · exact (sound.honoured other debt theirs).late (fun same => absurd same apart) fresh
    silent := sound.silent
    told := by
      intro other version now
      obtain ⟨told, known, tells⟩ := sound.told other version now
      exact ⟨told, known, tells.owe fun _ _ listed => keeps listed nofun⟩ }

theorem Sound.exited {exitCode : Option Int} {reason : Option FleetSessionEndedReason} (sound : view.Sound)
    (owes : view.debts program = [.report id born exitCode reason]) :
    (view.exited program id born exitCode reason).Sound := by
  have report := sound.honoured program (.report id born exitCode reason) (by rw [owes]; simp)
  have keeps {debt : Debt Id} (listed : debt ∈ view.debts program) (other : debt ≠ .report id born exitCode reason) :
      debt ∈ ([] : List (Debt Id)) := by
    rw [owes] at listed
    exact absurd (mem_singleton.mp listed) other
  exact {
    numbered := sound.numbered
    removed := sound.removed
    filed := sound.filed
    onDisk := by
      intro other version there
      rcases sound.onDisk other version there with behind | saved | forgotten
      · exact .inl behind
      · exact .inr (.inl (saved.owe fun listed => keeps listed nofun))
      · exact .inr (.inr (forgotten.owe fun listed => keeps listed nofun))
    kept := by
      intro other version now
      rcases sound.kept other version now with there | write | closing
      · exact .inl there
      · exact .inr (.inl (write.owe fun listed => keeps listed nofun))
      · exact .inr (.inr (closing.owe fun listed => keeps listed nofun))
    honoured := by
      intro other debt listed
      rcases mem_owe.mp listed with ⟨_, mine⟩ | ⟨apart, theirs⟩
      · cases mine
      · have holds := sound.honoured other debt theirs
        refine Honours.late ?_ (fun same => absurd same apart) fun _ none => absurd none not_mem_nil
        cases debt <;> exact holds
    silent := by
      intro other absent
      by_cases here : other = id
      · subst here
        refine (update_self ..).trans ?_
        rw [sound.silent other absent]
        rfl
      · exact (update_of_ne here ..).trans (sound.silent other absent)
    told := by
      intro other version now
      obtain ⟨told, known, tells⟩ := sound.told other version now
      by_cases here : other = id
      · subst here
        by_cases number : version.born = born
        · rcases report with ⟨found, current, _, left⟩ | gone
          · obtain rfl : version = found := some.inj (now.symm.trans current)
            refine ⟨{ told with exit := some (exitCode, reason) }, ?_, tells.born, tells.startedAt, tells.title,
              .inl left.symm⟩
            refine (update_self ..).trans ?_
            rw [known, map_some, if_pos (tells.born.trans number)]
          · exact absurd (number ▸ (sound.numbered other version now).2.2.2) gone
        · refine ⟨told, ?_, tells.owe fun _ _ listed => keeps listed fun same => number ?_⟩
          · refine (update_self ..).trans ?_
            rw [known, map_some, if_neg (tells.born ▸ number)]
          · injection same
      · refine ⟨told, (update_of_ne here ..).trans known, tells.owe fun _ _ listed => ?_⟩
        exact keeps listed fun same => here (by injection same) }

theorem Sound.ack (sound : view.Sound) (free : view.debts program = []) (now : view.current id = some version) :
    (view.ack program id version).Sound := by
  obtain ⟨named, born, mark, live⟩ := sound.numbered id version now
  have marked : update view.removed id (update (view.removed id) version.born (some version)) id
      version.born ≠ none := by
    rw [update_self, update_self]
    nofun
  have still {other : Id} {number : Nat} (gone : view.removed other number ≠ none) :
      update view.removed id (update (view.removed id) version.born (some version)) other
        number ≠ none := by
    by_cases here : other = id
    · subst here
      rw [update_self]
      by_cases same : number = version.born
      · rw [same, update_self]
        nofun
      · rwa [update_of_ne same]
    · rwa [update_of_ne here]
  exact {
    numbered := by
      intro other found there
      rcases update_eq_some there with ⟨_, same⟩ | ⟨apart, there⟩
      · cases same
      · obtain ⟨named, born, mark, live⟩ := sound.numbered other found there
        exact ⟨named, born, mark, (congrFun (update_of_ne apart ..) _).trans live⟩
    removed := by
      intro other number found gone
      by_cases here : other = id
      · subst here
        have gone := (congrFun (update_self ..) number).symm.trans gone
        by_cases same : number = version.born
        · subst same
          rw [update_self] at gone
          rw [← some.inj gone]
          exact ⟨named, rfl, born⟩
        · rw [update_of_ne same] at gone
          exact sound.removed other number found gone
      · exact sound.removed other number found ((congrFun (update_of_ne here ..) number).symm.trans gone)
    filed := sound.filed
    onDisk := by
      intro other found there
      rcases sound.onDisk other found there with behind | saved | forgotten
      · by_cases here : other = id
        · subst here
          obtain ⟨latest, current, number, _⟩ := behind
          rw [some.inj (current.symm.trans now)] at number
          rw [number]
          exact .inr (.inr (owed_owe (mem_singleton_self _)))
        · exact .inl (behind.elsewhere here)
      · exact .inr (.inl (saved.more free))
      · exact .inr (.inr (forgotten.more free))
    kept := by
      intro other found there
      rcases update_eq_some there with ⟨_, same⟩ | ⟨_, there⟩
      · cases same
      · rcases sound.kept other found there with stored | write | closing
        · exact .inl stored
        · exact .inr (.inl (write.more free))
        · exact .inr (.inr (closing.more free))
    honoured := by
      intro other debt listed
      rcases mem_owe.mp listed with ⟨rfl, mine⟩ | ⟨apart, theirs⟩
      · rw [mem_singleton.mp mine]
        exact marked
      · have holds := sound.honoured other debt theirs
        refine Honours.late ?_ (fun same => absurd same apart) ?_
        · cases debt with
          | reserved id => exact holds
          | opening taken number =>
            have away : taken ≠ id := by
              rintro rfl
              cases holds.2.1.symm.trans now
            exact ⟨holds.1, (update_of_ne away ..).trans holds.2.1,
              (congrFun (update_of_ne away ..) _).trans holds.2.2.1, holds.2.2.2⟩
          | saved other => exact holds
          | write found =>
            rcases holds with behind | gone
            · by_cases here : found.record.id = id
              · obtain ⟨latest, current, number, _⟩ := behind
                rw [here, now] at current
                refine .inr (fun gone => marked ?_)
                rw [here, number, ← some.inj current] at gone
                exact gone
              · exact .inl (behind.elsewhere here)
            · exact .inr (still gone)
          | closing closed number => trivial
          | report closed number exitCode reason =>
            rcases holds with ⟨found, current, same, left⟩ | gone
            · by_cases here : closed = id
              · refine .inr (fun gone => marked ?_)
                rw [here] at current gone
                rw [← same, ← some.inj (now.symm.trans current)] at gone
                exact gone
              · exact .inl ⟨found, (update_of_ne here ..).trans current, same, left⟩
            · exact .inr (still gone)
          | forget forgotten number => exact still holds
        · intro debt listed
          rw [mem_singleton.mp listed]
          trivial
    silent := by
      intro other absent
      by_cases here : other = id
      · subst here
        exact update_self ..
      · exact (update_of_ne here ..).trans (sound.silent other ((update_of_ne here ..).symm.trans absent))
    told := by
      intro other found there
      rcases update_eq_some there with ⟨_, same⟩ | ⟨here, there⟩
      · cases same
      · obtain ⟨told, known, tells⟩ := sound.told other found there
        exact ⟨told, (update_of_ne here ..).trans known,
          tells.owe fun _ _ listed => absurd (free ▸ listed) not_mem_nil⟩ }

omit [DecidableEq Id] in
theorem Sound.quiet (sound : view.Sound) (quiet : ∀ program, view.debts program = []) (id : Id) :
    (view.disk id = none ∧ view.told id = none) ∨ ∃ version told, view.disk id = some version ∧
      view.told id = some told ∧ told.startedAt = version.record.startedAt ∧ told.title = version.record.title ∧
      told.exit = version.record.exit := by
  have nothing {debt : Debt Id} : ¬ Owed view.debts debt := by
    rintro ⟨program, listed⟩
    rw [quiet program] at listed
    cases listed
  cases now : view.current id with
  | none =>
    refine .inl ⟨?_, sound.silent id now⟩
    cases there : view.disk id with
    | none => rfl
    | some version =>
      rcases sound.onDisk id version there with ⟨found, current, _⟩ | owed | owed
      · cases now.symm.trans current
      · exact absurd owed nothing
      · exact absurd owed nothing
  | some version =>
    obtain ⟨told, known, tells⟩ := sound.told id version now
    have stored := (sound.kept id version now).resolve_right fun owed => owed.elim nothing nothing
    refine .inr ⟨version, told, stored, known, tells.startedAt, tells.title, tells.exit.resolve_right ?_⟩
    rintro ⟨_, exitCode, reason, owed⟩
    exact nothing owed

end

end StoreView

end EverWorks.Sessions
