import EverWorks.Fleet.FleetJobService
import EverWorks.Lib.Run

/-!
# Leases fence stale holders

Whatever reads the calls act on, a step of theirs moves the rows in one of five ways, `FleetJobBoard.Move`.
The invariant `FleetJobBoard.Sound` is proved of the moves.
-/

namespace EverWorks.Fleet
open Lib List Option Function FleetJobs FleetJobBoard

structure FleetJob.Keeps (old new : FleetJob) : Prop where
  id : new.id = old.id
  result : new.result = old.result
  error : new.error = old.error
  flag : old.cancelRequestedAt.isSome → new.cancelRequestedAt.isSome

/-- The event is about the row and carries what it stores. -/
structure FleetJobCompletedEvent.Carries (event : FleetJobCompletedEvent) (job : FleetJob) : Prop where
  id : event.job.id = job.id
  status : event.job.status = job.status
  result : event.result = job.result
  error : event.error = job.error

namespace FleetJobBoard

def eventsOf (board : FleetJobBoard) (id : String) : List FleetJobCompletedEvent :=
  board.emitted.filter fun event => event.job.id = id

inductive Move (board : FleetJobBoard) : (String → Prop) → FleetJobBoard → Prop
  | stay (cancelled : List String)
      (answers : ∀ id ∈ cancelled, id ∈ board.cancelled ∨
        ∃ job, board.jobs id = some job ∧ job.cancelRequestedAt.isSome) :
      Move board (fun _ => False) { board with cancelled }
  | claim {id : String} {old new : FleetJob} {view : FleetJobView} (row : board.jobs id = some old)
      (queued : old.status = .queued) (unflagged : old.cancelRequestedAt = none)
      (leased : new.status = .leased) (keeps : old.Keeps new)
      (next : new.leaseGeneration = old.leaseGeneration + 1) (named : view.id = id)
      (minted : view.leaseGeneration = new.leaseGeneration) :
      Move board (fun _ => False) { board with
        jobs := update board.jobs id (some new)
        holds := update board.holds id (some new.leaseGeneration)
        handed := board.handed ++ [view] }
  | keep {id : String} {old new : FleetJob} (cancelled : List String)
      (answers : ∀ other ∈ cancelled, other ∈ board.cancelled ∨ other = id ∧ new.cancelRequestedAt.isSome)
      (row : board.jobs id = some old)
      (active : old.isActive = true) (still : new.isActive = true) (keeps : old.Keeps new)
      (same : new.leaseGeneration = old.leaseGeneration) :
      Move board (fun _ => False) { board with jobs := update board.jobs id (some new), cancelled }
  | requeue {jobs : FleetJobs} {holds : String → Option Nat} (hit : String → Prop)
      (others : ∀ id, ¬hit id → jobs id = board.jobs id ∧ holds id = board.holds id)
      (rows : ∀ id, hit id → ∃ old new, board.jobs id = some old ∧ old.isActive = true ∧
        jobs id = some new ∧ new.status = .queued ∧ old.Keeps new ∧
        new.leaseGeneration = old.leaseGeneration ∧ new.cancelRequestedAt = old.cancelRequestedAt ∧
        holds id = none) :
      Move board hit { board with jobs, holds }
  | settle {id : String} {old new : FleetJob} {event : FleetJobCompletedEvent} (cancelled : List String)
      (answers : ∀ other ∈ cancelled, other ∈ board.cancelled ∨ other = id ∧ new.cancelRequestedAt.isSome)
      (row : board.jobs id = some old) (open_ : old.isTerminal = false) (closed : new.isTerminal = true)
      (named : new.id = old.id) (same : new.leaseGeneration = old.leaseGeneration)
      (flag : old.cancelRequestedAt.isSome → new.cancelRequestedAt.isSome) (carries : event.Carries new) :
      Move board (fun _ => False) { board with
        jobs := update board.jobs id (some new)
        emitted := board.emitted ++ [event]
        cancelled }

def Reported (job : FleetJob) (events : List FleetJobCompletedEvent) : Prop :=
  if job.isTerminal then ∃ event, events = [event] ∧ event.Carries job
  else job.result = none ∧ job.error = none ∧ events = []

structure Sound (board : FleetJobBoard) : Prop where
  keyed : ∀ id job, board.jobs id = some job → job.id = id
  /-- An active row is under the claim that minted its generation. -/
  held : ∀ id job, board.jobs id = some job → job.isActive = true →
    board.holds id = some job.leaseGeneration
  minted : ∀ view ∈ board.handed, ∃ job, board.jobs view.id = some job ∧
    view.leaseGeneration ≤ job.leaseGeneration
  once : (board.handed.map fun view => (view.id, view.leaseGeneration)).Nodup
  known : ∀ event ∈ board.emitted, (board.jobs event.job.id).isSome
  reported : ∀ id job, board.jobs id = some job → Reported job (board.eventsOf id)

end FleetJobBoard

variable {job : FleetJob}

theorem isActive_iff : job.isActive = true ↔ job.status = .leased ∨ job.status = .running := by
  simp [FleetJob.isActive, fleetJobActiveStatuses]

theorem isTerminal_iff : job.isTerminal = true ↔ job.status = .done ∨ job.status = .failed := by
  simp [FleetJob.isTerminal, fleetJobTerminalStatuses]

theorem not_terminal_of_active (active : job.isActive = true) : job.isTerminal = false := by
  rcases isActive_iff.mp active with here | here <;> simp [FleetJob.isTerminal, fleetJobTerminalStatuses, here]

theorem not_terminal_of_queued (queued : job.status = .queued) : job.isTerminal = false := by
  simp [FleetJob.isTerminal, fleetJobTerminalStatuses, queued]

theorem not_active_of_queued (queued : job.status = .queued) : job.isActive = false := by
  simp [FleetJob.isActive, fleetJobActiveStatuses, queued]

theorem not_active_of_terminal (closed : job.isTerminal = true) : job.isActive = false := by
  rcases isTerminal_iff.mp closed with here | here <;> simp [FleetJob.isActive, fleetJobActiveStatuses, here]

namespace FleetJobBoard

variable {board after : FleetJobBoard} {hit : String → Prop}

theorem Move.same (board : FleetJobBoard) : board.Move (fun _ => False) board :=
  .stay board.cancelled fun _ => Or.inl

/-! ## What a move preserves -/

variable {id : String}

theorem Move.terminal (move : board.Move hit after)
    (row : board.jobs id = some job) (closed : job.isTerminal = true) : after.jobs id = some job := by
  have other : ∀ {key : String} {old : FleetJob}, board.jobs key = some old → old.isTerminal = false →
      id ≠ key := by
    rintro key old here open_ rfl
    rw [row, some.injEq] at here
    rw [← here, closed] at open_
    cases open_
  cases move with
  | stay => exact row
  | claim here queued => exact (update_of_ne (other here (not_terminal_of_queued queued)) _ _).trans row
  | keep _ _ here active => exact (update_of_ne (other here (not_terminal_of_active active)) _ _).trans row
  | requeue _ others rows =>
    by_cases touched : hit id
    · obtain ⟨old, _, here, active, -⟩ := rows id touched
      exact absurd rfl (other here (not_terminal_of_active active))
    · exact (others id touched).1.trans row
  | settle _ _ here open_ => exact (update_of_ne (other here open_) _ _).trans row

inductive RowMove (old : FleetJob) (held : Option Nat) :
    FleetJob → Option Nat → List FleetJobCompletedEvent → Prop
  | stay : RowMove old held old held []
  | claim {new : FleetJob} (queued : old.status = .queued) (leased : new.status = .leased)
      (keeps : old.Keeps new) (next : new.leaseGeneration = old.leaseGeneration + 1) :
      RowMove old held new (some new.leaseGeneration) []
  | keep {new : FleetJob} (active : old.isActive = true) (still : new.isActive = true)
      (keeps : old.Keeps new) (same : new.leaseGeneration = old.leaseGeneration) : RowMove old held new held []
  | requeue {new : FleetJob} (active : old.isActive = true) (queued : new.status = .queued)
      (keeps : old.Keeps new) (same : new.leaseGeneration = old.leaseGeneration) : RowMove old held new none []
  | settle {new : FleetJob} {event : FleetJobCompletedEvent} (open_ : old.isTerminal = false)
      (closed : new.isTerminal = true) (named : new.id = old.id)
      (same : new.leaseGeneration = old.leaseGeneration)
      (flag : old.cancelRequestedAt.isSome → new.cancelRequestedAt.isSome) (carries : event.Carries new) :
      RowMove old held new held [event]

theorem eventsOf_append (emitted : List FleetJobCompletedEvent) (id : String)
    (same : after.emitted = board.emitted ++ emitted) :
    after.eventsOf id = board.eventsOf id ++ emitted.filter fun event => event.job.id = id := by
  rw [eventsOf, same, filter_append, eventsOf]

theorem Move.at (keyed : ∀ id job, board.jobs id = some job → job.id = id) (move : board.Move hit after)
    {old : FleetJob} (row : board.jobs id = some old) :
    ∃ new added, after.jobs id = some new ∧ RowMove old (board.holds id) new (after.holds id) added ∧
      after.eventsOf id = board.eventsOf id ++ added := by
  have quiet : board.eventsOf id = board.eventsOf id ++ [] := (append_nil _).symm
  cases move with
  | stay => exact ⟨old, [], row, .stay, quiet⟩
  | @claim key here _ _ there queued _ leased keeps next =>
    by_cases touched : id = key
    · subst touched
      have whole := some.inj (row.symm.trans there)
      subst whole
      refine ⟨_, [], update_self .., ?_, quiet⟩
      simp only [update_self]
      exact .claim queued leased keeps next
    · refine ⟨old, [], (update_of_ne touched ..).trans row, ?_, quiet⟩
      simp only [update_of_ne touched]
      exact .stay
  | @keep key here _ _ _ there active still keeps same =>
    by_cases touched : id = key
    · subst touched
      have whole := some.inj (row.symm.trans there)
      subst whole
      exact ⟨_, [], update_self .., .keep active still keeps same, quiet⟩
    · exact ⟨old, [], (update_of_ne touched ..).trans row, .stay, quiet⟩
  | @requeue jobs holds _ others rows =>
    by_cases touched : hit id
    · obtain ⟨here, new, there, active, written, queued, keeps, same, -, gone⟩ := rows id touched
      have whole := some.inj (row.symm.trans there)
      subst whole
      have back : RowMove old (board.holds id) new (holds id) [] :=
        gone.symm ▸ .requeue active queued keeps same
      exact ⟨new, [], written, back, quiet⟩
    · obtain ⟨unchanged, still⟩ := others id touched
      have rests : RowMove old (board.holds id) old (holds id) [] := still.symm ▸ .stay
      exact ⟨old, [], unchanged.trans row, rests, quiet⟩
  | @settle key here new event _ _ there open_ closed named same flag carries =>
    have about : event.job.id = key := by rw [carries.id, named, keyed key here there]
    by_cases touched : id = key
    · subst touched
      have whole := some.inj (row.symm.trans there)
      subst whole
      refine ⟨new, [event], update_self .., .settle open_ closed named same flag carries, ?_⟩
      rw [eventsOf_append [event] id rfl]
      simp [about]
    · refine ⟨old, [], (update_of_ne touched ..).trans row, .stay, ?_⟩
      rw [eventsOf_append [event] id rfl]
      simp [about, Ne.symm touched]

theorem Move.isSome (move : board.Move hit after) (id : String) :
    (after.jobs id).isSome = (board.jobs id).isSome := by
  have written : ∀ {key : String} {old new : FleetJob}, board.jobs key = some old →
      (update board.jobs key (some new) id).isSome = (board.jobs id).isSome := by
    intro key old new here
    by_cases touched : id = key
    · subst touched
      rw [update_self, here]
      rfl
    · rw [update_of_ne touched]
  cases move with
  | stay => rfl
  | claim here => exact written here
  | keep _ _ here => exact written here
  | requeue _ others rows =>
    by_cases touched : hit id
    · obtain ⟨old, new, here, -, there, -⟩ := rows id touched
      exact (congrArg Option.isSome there).trans (congrArg Option.isSome here).symm
    · exact congrArg Option.isSome (others id touched).1
  | settle _ _ here => exact written here

variable {old new : FleetJob}

theorem RowMove.spec {held held' : Option Nat} {added : List FleetJobCompletedEvent}
    (move : RowMove old held new held' added) :
    new.id = old.id ∧ old.leaseGeneration ≤ new.leaseGeneration ∧
      (old.cancelRequestedAt.isSome → new.cancelRequestedAt.isSome) := by
  cases move with
  | stay => exact ⟨rfl, Nat.le_refl _, id⟩
  | claim _ _ keeps next => exact ⟨keeps.id, by omega, keeps.flag⟩
  | keep _ _ keeps same => exact ⟨keeps.id, same.ge, keeps.flag⟩
  | requeue _ _ keeps same => exact ⟨keeps.id, same.ge, keeps.flag⟩
  | settle _ _ named same flag => exact ⟨named, same.ge, flag⟩

theorem RowMove.held {held held' : Option Nat} {added : List FleetJobCompletedEvent}
    (move : RowMove old held new held' added) (before : old.isActive = true → held = some old.leaseGeneration)
    (active : new.isActive = true) : held' = some new.leaseGeneration := by
  cases move with
  | stay => exact before active
  | claim => rfl
  | keep live _ _ same => exact same ▸ before live
  | requeue _ queued => rw [not_active_of_queued queued] at active; cases active
  | settle _ closed => rw [not_active_of_terminal closed] at active; cases active

theorem RowMove.reported {held held' : Option Nat}
    {events added : List FleetJobCompletedEvent} (move : RowMove old held new held' added)
    (before : Reported old events) : Reported new (events ++ added) := by
  have carried : old.isTerminal = false → new.isTerminal = false → old.Keeps new →
      Reported new (events ++ []) := by
    intro open_ still keeps
    simp only [Reported, open_, still] at before ⊢
    rw [keeps.result, keeps.error, append_nil]
    exact before
  cases move with
  | stay => rwa [append_nil]
  | claim queued leased keeps =>
    exact carried (not_terminal_of_queued queued)
      (not_terminal_of_active (isActive_iff.mpr (Or.inl leased))) keeps
  | keep active still keeps =>
    exact carried (not_terminal_of_active active) (not_terminal_of_active still) keeps
  | requeue active queued keeps =>
    exact carried (not_terminal_of_active active) (not_terminal_of_queued queued) keeps
  | @settle _ event open_ closed _ _ _ carries =>
    simp only [Reported, open_, closed, if_true] at before ⊢
    exact ⟨event, by simpa using before.2.2, carries⟩

theorem Move.emitted (move : board.Move hit after) (keyed : ∀ id job, board.jobs id = some job → job.id = id) :
    ∀ event ∈ after.emitted, event ∈ board.emitted ∨ (board.jobs event.job.id).isSome := by
  intro event member
  cases move with
  | @settle id old new settled _ _ row _ _ named _ _ carries =>
    rcases mem_append.mp member with before | last
    · exact Or.inl before
    · obtain rfl := mem_singleton.mp last
      have about : event.job.id = id := by rw [carries.id, named, keyed id old row]
      exact Or.inr (by rw [about, row]; rfl)
  | _ => exact Or.inl member

theorem Move.handed (move : board.Move hit after) :
    after.handed = board.handed ∨ ∃ view old new, after.handed = board.handed ++ [view] ∧
      board.jobs view.id = some old ∧ after.jobs view.id = some new ∧
      view.leaseGeneration = old.leaseGeneration + 1 ∧ view.leaseGeneration = new.leaseGeneration := by
  cases move with
  | @claim id old new view row _ _ _ _ next named minted =>
    subst named
    exact Or.inr ⟨view, old, new, rfl, row, update_self .., minted.trans next, minted⟩
  | _ => exact Or.inl rfl

theorem Move.sound (sound : board.Sound) (move : board.Move hit after) : after.Sound := by
  have before : ∀ {id : String} {new : FleetJob}, after.jobs id = some new →
      ∃ old added, board.jobs id = some old ∧ RowMove old (board.holds id) new (after.holds id) added ∧
        after.eventsOf id = board.eventsOf id ++ added := by
    intro id new row
    have present : (board.jobs id).isSome := by rw [← move.isSome id, row]; rfl
    obtain ⟨old, here⟩ := isSome_iff_exists.mp present
    obtain ⟨same, added, there, rowMove, events⟩ := move.at sound.keyed here
    obtain rfl := some.inj (row.symm.trans there)
    exact ⟨old, added, here, rowMove, events⟩
  constructor
  · intro id new row
    obtain ⟨old, _, here, rowMove, -⟩ := before row
    exact rowMove.spec.1.trans (sound.keyed id old here)
  · intro id new row active
    obtain ⟨old, _, here, rowMove, -⟩ := before row
    exact rowMove.held (sound.held id old here) active
  · have kept : ∀ view ∈ board.handed, ∃ job, after.jobs view.id = some job ∧
        view.leaseGeneration ≤ job.leaseGeneration := by
      intro view member
      obtain ⟨old, here, le⟩ := sound.minted view member
      obtain ⟨new, _, there, rowMove, -⟩ := move.at sound.keyed here
      exact ⟨new, there, le.trans rowMove.spec.2.1⟩
    intro view member
    rcases move.handed with same | ⟨fresh, _, new, whole, -, there, -, minted⟩
    · exact kept view (same ▸ member)
    · rw [whole, mem_append, mem_singleton] at member
      rcases member with earlier | rfl
      · exact kept view earlier
      · exact ⟨new, there, minted.le⟩
  · rcases move.handed with same | ⟨fresh, old, _, whole, row, -, next, -⟩
    · exact same ▸ sound.once
    · rw [whole, map_append, nodup_append]
      refine ⟨sound.once, by simp, ?_⟩
      rintro pair member other single rfl
      rw [map_singleton, mem_singleton] at single
      obtain ⟨view, inside, same⟩ := mem_map.mp member
      obtain ⟨named, minted⟩ := Prod.mk.inj (same.trans single)
      obtain ⟨job, here, le⟩ := sound.minted view inside
      rw [named, row, some.injEq] at here
      subst here
      omega
  · intro event member
    rw [move.isSome]
    exact (move.emitted sound.keyed event member).elim (sound.known event) id
  · intro id new row
    obtain ⟨old, added, here, rowMove, events⟩ := before row
    rw [events]
    exact rowMove.reported (sound.reported id old here)

/-! ## What a task does -/

variable {deps : FleetJobDeps} {env : FleetJobEnv}

theorem Move.released (row : board.jobs id = some old)
    (active : old.isActive = true) (queued : new.status = .queued) (keeps : old.Keeps new)
    (same : new.leaseGeneration = old.leaseGeneration)
    (flag : new.cancelRequestedAt = old.cancelRequestedAt) :
    board.Move (· = id) (board.released (update board.jobs id (some new)) id) := by
  refine .requeue (· = id) ?_ ?_
  · intro other different
    exact ⟨update_of_ne different .., update_of_ne different ..⟩
  · rintro other rfl
    exact ⟨old, new, row, active, update_self .., queued, keeps, same, flag, update_self ..⟩

theorem Sound.pending (sound : board.Sound) (row : board.jobs id = some job)
    (open_ : job.isTerminal = false) : job.result = none ∧ job.error = none ∧ board.eventsOf id = [] := by
  have reported := sound.reported id job row
  rwa [Reported, open_] at reported

theorem heldUnder_iff {nodeId : String} {generation : Nat} :
    heldUnder nodeId generation job = true ↔
      job.nodeId = some nodeId ∧ job.isActive = true ∧ job.leaseGeneration = generation := by
  simp [heldUnder]

theorem Move.congr {hit hit' : String → Prop} (move : board.Move hit after) (same : ∀ id, hit id ↔ hit' id) :
    board.Move hit' after := by
  have equal : hit = hit' := funext fun id => propext (same id)
  exact equal ▸ move

theorem requeue_move {holds : FleetJob → Bool} {patch : FleetJob → FleetJob}
    (active : ∀ row, holds row = true → row.isActive = true)
    (queued : ∀ row, (patch row).status = .queued) (keeps : ∀ row : FleetJob, row.Keeps (patch row))
    (same : ∀ row, (patch row).leaseGeneration = row.leaseGeneration)
    (flag : ∀ row, (patch row).cancelRequestedAt = row.cancelRequestedAt) :
    board.Move (fun other => other = id ∧ ∃ row, board.jobs id = some row ∧ holds row = true)
      (match board.jobs.updateWhere id holds patch with
        | some jobs => board.released jobs id
        | none => board) := by
  cases written : board.jobs.updateWhere id holds patch with
  | some jobs =>
    obtain ⟨row, here, hit, rfl⟩ := updateWhere_some.mp written
    refine (Move.released here (active row hit) (queued row) (keeps row) (same row) (flag row)).congr ?_
    exact fun other => ⟨fun touched => ⟨touched, row, here, hit⟩, fun touched => touched.1⟩
  | none =>
    refine Move.congr (.same board) fun other => ⟨False.elim, ?_⟩
    rintro ⟨-, row, here, hit⟩
    rw [updateWhere_none.mp written row here] at hit
    cases hit

end FleetJobBoard

def FleetJobTask.requeues (board : FleetJobBoard) : FleetJobTask → String → Prop
  | .reclaim job _, id =>
    ∃ nodeId leaseExpiresAt, job.nodeId = some nodeId ∧ job.leaseExpiresAt = some leaseExpiresAt ∧
      lapseError job = none ∧ id = job.id ∧ ∃ row, board.jobs job.id = some row ∧
        FleetJobs.ObservedFleetJobLease.holds
          ⟨job.status, nodeId, leaseExpiresAt, job.leaseGeneration⟩ row = true
  | .park node job _ _, id => id = job.id ∧ ∃ row, board.jobs job.id = some row ∧
      heldUnder node.id job.leaseGeneration row = true
  | .releaseClaims userId nodeId, id => (board.jobs id).any (heldBy userId nodeId) = true
  | _, _ => False

namespace FleetJobBoard

variable {board after : FleetJobBoard} {deps : FleetJobDeps} {env : FleetJobEnv}

theorem reclaimRow_move (sound : board.Sound) (active : job.isActive = true) (now : Nat) :
    board.Move ((FleetJobTask.reclaim job now).requeues board) (board.reclaimRow env job now) := by
  have observed : ∀ {nodeId : String} {leaseExpiresAt : Nat} (row : FleetJob),
      FleetJobs.ObservedFleetJobLease.holds ⟨job.status, nodeId, leaseExpiresAt, job.leaseGeneration⟩ row =
        true → row.isActive = true := by
    intro _ _ row holds
    simp only [FleetJobs.ObservedFleetJobLease.holds, decide_eq_true_eq] at holds
    rw [FleetJob.isActive, holds.1]
    exact active
  have settles : ∀ {settled : FleetJobBoard}, board.Move (fun _ => False) settled →
      (¬∃ nodeId leaseExpiresAt, job.nodeId = some nodeId ∧ job.leaseExpiresAt = some leaseExpiresAt ∧
        lapseError job = none) →
      board.Move ((FleetJobTask.reclaim job now).requeues board) settled := by
    intro settled move none
    refine move.congr fun id => ⟨False.elim, ?_⟩
    rintro ⟨nodeId, leaseExpiresAt, held, expires, lapses, -⟩
    exact none ⟨nodeId, leaseExpiresAt, held, expires, lapses⟩
  unfold reclaimRow
  split
  · next nodeId leaseExpiresAt held expires =>
    dsimp only
    split
    · next error source lapses =>
      refine settles ?_ (by simp [lapses])
      split
      · next written =>
        obtain ⟨row, here, holds, rfl⟩ := updateWhere_some.mp written
        have open_ := not_terminal_of_active (observed row holds)
        refine .settle board.cancelled (fun _ => Or.inl) here open_ rfl rfl rfl id ⟨(sound.keyed _ _ here).symm, rfl, ?_, rfl⟩
        exact (sound.pending here open_).1.symm
      · exact .same board
    · next lapses =>
      refine Move.congr (requeue_move observed ?_ ?_ ?_ ?_) fun id => ⟨?_, ?_⟩
      · exact fun _ => rfl
      · exact fun _ => ⟨rfl, rfl, rfl, fun flagged => flagged⟩
      · exact fun _ => rfl
      · exact fun _ => rfl
      · rintro ⟨touched, row, here, holds⟩
        exact ⟨nodeId, leaseExpiresAt, held, expires, lapses, touched, row, here, holds⟩
      · rintro ⟨_, _, held', expires', -, touched, row, here, holds⟩
        rw [held] at held'
        rw [expires] at expires'
        cases held'
        cases expires'
        exact ⟨touched, row, here, holds⟩
  · next missing =>
    refine settles (.same board) ?_
    rintro ⟨nodeId, leaseExpiresAt, held, expires, -⟩
    exact missing nodeId leaseExpiresAt held expires

theorem failQueuedExpiredRow_move (sound : board.Sound) (job : FleetJob) (cutoff now : Nat) :
    board.Move (fun _ => False) (board.failQueuedExpiredRow deps job cutoff now) := by
  unfold failQueuedExpiredRow
  dsimp only
  split
  · exact .same board
  · split
    · next written =>
      obtain ⟨row, here, holds, rfl⟩ := updateWhere_some.mp written
      simp only [Bool.and_eq_true, decide_eq_true_eq] at holds
      have open_ := not_terminal_of_queued holds.1.1
      refine .settle board.cancelled (fun _ => Or.inl) here open_ rfl rfl rfl id ⟨(sound.keyed _ _ here).symm, rfl, ?_, rfl⟩
      exact (sound.pending here open_).1.symm
    · exact .same board

theorem claimRow_move (node : AuthenticatedFleetNode) (input : LeaseFleetJobsInput) (candidate : FleetJob) :
    board.Move (fun _ => False) (board.claimRow env node input candidate).1 := by
  unfold claimRow
  dsimp only
  split
  · split
    · next written =>
      obtain ⟨row, here, holds, rfl⟩ := updateWhere_some.mp written
      simp only [decide_eq_true_eq, Nat.add_sub_cancel] at holds
      obtain ⟨queued, unflagged, same⟩ := holds
      exact .claim here queued unflagged rfl ⟨rfl, rfl, rfl, id⟩ (congrArg (· + 1) same.symm) rfl rfl
    · exact .same board
  · exact .same board

theorem settleRow_move (sound : board.Sound) (node : AuthenticatedFleetNode) (job : FleetJob)
    {verdict : FleetJobs.FleetJobVerdict} (closed : verdict.status ∈ fleetJobTerminalStatuses) :
    board.Move (fun _ => False) (board.settleRow node job verdict) := by
  unfold settleRow
  split
  · next written =>
    obtain ⟨row, here, holds, rfl⟩ := updateWhere_some.mp written
    have open_ := not_terminal_of_active (heldUnder_iff.mp holds).2.1
    exact .settle board.cancelled (fun _ => Or.inl) here open_ (decide_eq_true closed) rfl rfl id
      ⟨(sound.keyed _ _ here).symm, rfl, rfl, rfl⟩
  · exact .same board

theorem parkRow_move (node : AuthenticatedFleetNode) (job : FleetJob) (supplied : JsonValue) (retryAt : Nat) :
    board.Move ((FleetJobTask.park node job supplied retryAt).requeues board) (board.parkRow node job retryAt) := by
  unfold parkRow
  exact requeue_move (fun _ holds => (heldUnder_iff.mp holds).2.1) (fun _ => rfl)
    (fun _ => ⟨rfl, rfl, rfl, id⟩) (fun _ => rfl) (fun _ => rfl)

theorem answered_move (board : FleetJobBoard) (jobId : String) (outcome : CancelFleetJobOutcome)
    (flagged : outcome.cancelled = true → ∃ job, board.jobs jobId = some job ∧ job.cancelRequestedAt.isSome) :
    board.Move (fun _ => False) (board.answered jobId outcome) := by
  unfold answered
  split
  · next cancelled =>
    refine .stay _ fun id member => (mem_append.mp member).imp_right fun last => ?_
    rw [mem_singleton.mp last]
    exact flagged cancelled
  · exact .same board

end FleetJobBoard

def FleetJobTask.Sound : FleetJobTask → Prop
  | reclaim job _ => job.isActive = true
  | extendLease _ job leaseGeneration _ _ => isCurrentLeaseGeneration job leaseGeneration = true
  | settle _ job leaseGeneration verdict =>
    isCurrentLeaseGeneration job leaseGeneration = true ∧ verdict.status ∈ fleetJobTerminalStatuses
  | park _ job leaseGeneration _ => isCurrentLeaseGeneration job leaseGeneration = true
  | _ => True

/-- The job a heartbeat, a completion or a park is about to write, and the generation its caller presents. -/
def FleetJobTask.presents : FleetJobTask → Option (String × JsonValue)
  | extendLease _ job leaseGeneration _ _ | settle _ job leaseGeneration _ | park _ job leaseGeneration _ =>
    some (job.id, leaseGeneration)
  | _ => none

variable {supplied : JsonValue}

theorem isCurrent_eq
    (current : isCurrentLeaseGeneration job supplied = true) : supplied = .number job.leaseGeneration := by
  cases supplied with
  | number supplied =>
    simp only [isCurrentLeaseGeneration, Bool.and_eq_true] at current
    have same := current.2
    cases supplied with
    | finite value =>
      rw [JsNumber.cast_eq, JsNumber.equals, decide_eq_true_eq] at same
      rw [JsNumber.cast_eq, same]
    | _ => cases same
  | _ => cases current

namespace FleetJobBoard

variable {board after : FleetJobBoard} {deps : FleetJobDeps} {env : FleetJobEnv}

theorem completeTasks_sound {node : AuthenticatedFleetNode} {input : CompleteFleetJobInput}
    (current : isCurrentLeaseGeneration job input.leaseGeneration = true) :
    ∀ task ∈ completeTasks deps env node input job, task.Sound := by
  have verdicts : ∀ task ∈ completeTasks.verdictTasks deps env node input job, task.Sound := by
    intro task member
    unfold completeTasks.verdictTasks at member
    split at member
    · split at member
      · rw [mem_singleton.mp member]
        exact ⟨current, by simp [fleetJobTerminalStatuses]⟩
      · cases member
    · rw [mem_singleton.mp member]
      exact ⟨current, by simp [fleetJobTerminalStatuses]⟩
  intro task member
  unfold completeTasks at member
  dsimp only at member
  split at member
  · split at member
    · rw [mem_singleton.mp member]
      exact current
    · exact verdicts task member
  · exact verdicts task member

theorem readHeld_current {node : AuthenticatedFleetNode} {jobId : String}
    (read : board.readHeld node jobId supplied = some job) :
    isCurrentLeaseGeneration job supplied = true := by
  obtain ⟨-, holds⟩ := filter_eq_some_iff.mp read
  simp only [decide_eq_true_eq] at holds
  exact holds.2.2

theorem requestCancelOnActive_move (row : board.jobs job.id = some job) (now : Nat) :
    board.Move (fun _ => False) (board.requestCancelOnActive job now).1 := by
  unfold requestCancelOnActive
  split
  · next flagged => exact answered_move board job.id ⟨true, .cancelRequested⟩ fun _ => ⟨job, row, flagged⟩
  · exact .same board

theorem requestCancelOnActive_next (job : FleetJob) (now : Nat) :
    ∀ task ∈ (board.requestCancelOnActive job now).2, task.Sound := by
  unfold requestCancelOnActive
  split <;> simp [FleetJobTask.Sound]

variable {task : FleetJobTask}

theorem perform_move (sound : board.Sound) (known : task.Sound) :
    board.Move (task.requeues board) (board.perform deps env task).1 := by
  cases task with
  | reclaimExpired => exact .same board
  | reclaim job now => exact reclaimRow_move sound known now
  | expireQueued => exact .same board
  | findQueuedOlderThan => exact .same board
  | failQueuedExpired job cutoff now => exact failQueuedExpiredRow_move sound job cutoff now
  | findQueuedForNode => exact .same board
  | claim node input leased candidates =>
    cases candidates with
    | nil => exact .same board
    | cons candidate candidates =>
      dsimp only [perform]
      split
      · exact .same board
      · exact claimRow_move node input candidate
  | heartbeat =>
    dsimp only [perform]
    split
    · split <;> exact .same board
    · exact .same board
  | extendLease node job _ leaseExpiresAt startedAt =>
    dsimp only [perform]
    split
    · next written =>
      obtain ⟨row, here, holds, rfl⟩ := updateWhere_some.mp written
      exact .keep board.cancelled (fun _ => Or.inl) here (heldUnder_iff.mp holds).2.1 rfl ⟨rfl, rfl, rfl, id⟩ rfl
    · exact .same board
  | complete =>
    dsimp only [perform]
    split <;> exact .same board
  | settle node job _ verdict => exact settleRow_move sound node job known.2
  | park node job supplied retryAt => exact parkRow_move node job supplied retryAt
  | cancel jobId =>
    dsimp only [perform]
    split
    · exact .same board
    · next job row =>
      split
      · exact .same board
      · split
        · exact .same board
        · exact requestCancelOnActive_move (sound.keyed _ _ row ▸ row) env.now
  | cancelQueued job now =>
    dsimp only [perform]
    split
    · next written =>
      obtain ⟨row, here, holds, rfl⟩ := updateWhere_some.mp written
      have open_ := not_terminal_of_queued (of_decide_eq_true holds)
      refine .settle (board.cancelled ++ [job.id]) ?_ here open_ rfl rfl rfl (fun _ => rfl)
        ⟨(sound.keyed _ _ here).symm, rfl, ?_, rfl⟩
      · intro other member
        exact (mem_append.mp member).imp_right fun last => ⟨mem_singleton.mp last, rfl⟩
      · exact (sound.pending here open_).1.symm
    · exact .same board
  | cancelClaimed jobId now =>
    dsimp only [perform]
    split
    · exact .same board
    · next fresh row =>
      split
      · exact .same board
      · exact requestCancelOnActive_move (sound.keyed _ _ row ▸ row) now
  | requestCancel job now =>
    dsimp only [perform]
    split
    · next written =>
      obtain ⟨row, here, holds, rfl⟩ := updateWhere_some.mp written
      rw [Bool.and_eq_true] at holds
      refine .keep (board.cancelled ++ [job.id]) ?_ here holds.1 holds.1 ⟨rfl, rfl, rfl, fun _ => rfl⟩ rfl
      intro other member
      exact (mem_append.mp member).imp_right fun last => ⟨mem_singleton.mp last, rfl⟩
    · exact .same board
  | readCancelled jobId =>
    dsimp only [perform]
    split
    · next fresh row =>
      split
      · next flagged => exact answered_move board jobId ⟨true, .cancelRequested⟩ fun _ => ⟨fresh, row, flagged⟩
      · exact answered_move board jobId ⟨false, .terminal⟩ nofun
    · exact answered_move board jobId ⟨false, .terminal⟩ nofun
  | releaseClaims userId nodeId =>
    refine .requeue (fun id => (board.jobs id).any (heldBy userId nodeId) = true) ?_ ?_
    · intro id missed
      refine ⟨?_, if_neg missed⟩
      cases row : board.jobs id with
      | none => simp [releaseClaimsForNode, row]
      | some job =>
        have unheld : ¬heldBy userId nodeId job = true := by simpa [row] using missed
        simp [releaseClaimsForNode, row, unheld]
    · intro id hit
      obtain ⟨job, row, held⟩ := (Option.any_eq_true _ _).mp hit
      have active : job.isActive = true := by
        simp only [heldBy, decide_eq_true_eq] at held
        exact held.2.2
      have written : board.jobs.releaseClaimsForNode userId nodeId env.now id = some { job with
          status := .queued, nodeId := none, leaseExpiresAt := none, queuedAt := some env.now } := by
        simp [releaseClaimsForNode, row, held]
      exact ⟨job, _, row, active, written, rfl, ⟨rfl, rfl, rfl, fun flagged => flagged⟩, rfl, rfl, if_pos hit⟩

theorem perform_next : ∀ next ∈ (board.perform deps env task).2, next.Sound := by
  intro next member
  cases task with
  | reclaimExpired userId =>
    obtain ⟨job, found, rfl⟩ := mem_map.mp member
    have holds := (mem_findWhere found).1
    simp only [Bool.and_eq_true] at holds
    exact holds.1.2
  | findQueuedOlderThan =>
    obtain ⟨job, -, rfl⟩ := mem_map.mp member
    trivial
  | expireQueued =>
    obtain ⟨kind, -, rfl⟩ := mem_map.mp member
    trivial
  | findQueuedForNode =>
    rw [mem_singleton.mp member]
    trivial
  | claim node input leased candidates =>
    cases candidates with
    | nil => cases member
    | cons candidate candidates =>
      dsimp only [perform] at member
      split at member
      · cases member
      · rw [mem_singleton.mp member]
        trivial
  | heartbeat node jobId leaseTtlSec leaseGeneration =>
    dsimp only [perform] at member
    split at member
    · next read =>
      split at member
      · cases member
      · rw [mem_singleton.mp member]
        exact readHeld_current read
    · cases member
  | complete node input =>
    dsimp only [perform] at member
    split at member
    · next read => exact completeTasks_sound (readHeld_current read) next member
    · cases member
  | cancel jobId =>
    dsimp only [perform] at member
    split at member
    · cases member
    · split at member
      · cases member
      · split at member
        · rw [mem_singleton.mp member]
          trivial
        · exact requestCancelOnActive_next _ _ next member
  | cancelClaimed =>
    dsimp only [perform] at member
    split at member
    · cases member
    · split at member
      · cases member
      · exact requestCancelOnActive_next _ _ next member
  | extendLease =>
    dsimp only [perform] at member
    split at member <;> cases member
  | cancelQueued =>
    dsimp only [perform] at member
    split at member
    · cases member
    · rw [mem_singleton.mp member]
      trivial
  | requestCancel =>
    dsimp only [perform] at member
    split at member
    · cases member
    · rw [mem_singleton.mp member]
      trivial
  | readCancelled =>
    dsimp only [perform] at member
    split at member
    · split at member <;> cases member
    · cases member
  | _ => cases member

theorem perform_fenced (sound : board.Sound) (known : task.Sound) {id : String}
    (presents : task.presents = some (id, supplied))
    (changed : (board.perform deps env task).1.jobs ≠ board.jobs) :
    ∃ generation : Nat, supplied = .number generation ∧ board.holds id = some generation := by
  have fenced : ∀ {node : AuthenticatedFleetNode} {job : FleetJob} {patch : FleetJob → FleetJob}
      {jobs : FleetJobs}, isCurrentLeaseGeneration job supplied = true →
      board.jobs.updateWhere job.id (heldUnder node.id job.leaseGeneration) patch = some jobs →
      ∃ generation : Nat, supplied = .number generation ∧ board.holds job.id = some generation := by
    intro node job patch jobs current written
    obtain ⟨row, here, holds, -⟩ := updateWhere_some.mp written
    obtain ⟨-, active, same⟩ := heldUnder_iff.mp holds
    exact ⟨job.leaseGeneration, isCurrent_eq current, same ▸ sound.held _ row here active⟩
  cases task with
  | extendLease node job _ leaseExpiresAt startedAt =>
    cases presents
    dsimp only [perform] at changed
    split at changed
    · next written => exact fenced known written
    · exact absurd rfl changed
  | settle node job _ verdict =>
    cases presents
    dsimp only [perform, settleRow] at changed
    split at changed
    · next written => exact fenced known.1 written
    · exact absurd rfl changed
  | park node job _ retryAt =>
    cases presents
    dsimp only [perform, parkRow] at changed
    split at changed
    · next written => exact fenced known written
    · exact absurd rfl changed
  | _ => cases presents

theorem create_of_some {jobs : FleetJobs} {id : String} {row : FleetJob} (here : jobs id = some row)
    (job : FleetJob) (now : Nat) : jobs.create job now id = some row := by
  unfold create
  split
  · exact here
  · next absent =>
    have other : id ≠ job.id := by
      rintro rfl
      exact absent (by rw [here]; rfl)
    exact (update_of_ne other ..).trans here

theorem create_cases {jobs : FleetJobs} {now : Nat} {id : String} {row : FleetJob}
    (here : jobs.create job now id = some row) :
    jobs id = some row ∨ (jobs id = none ∧ row.id = id ∧ row.status = .queued ∧ row.result = none ∧
      row.error = none ∧ row.cancelRequestedAt = none) := by
  unfold create at here
  split at here
  · exact Or.inl here
  · next absent =>
    by_cases touched : id = job.id
    · subst touched
      rw [update_self, some.injEq] at here
      subst here
      exact Or.inr ⟨by simpa using absent, rfl, rfl, rfl, rfl, rfl⟩
    · rw [update_of_ne touched] at here
      exact Or.inl here

theorem create_sound (sound : board.Sound) (job : FleetJob) (now : Nat) :
    ({ board with jobs := board.jobs.create job now } : FleetJobBoard).Sound := by
  refine ⟨?_, ?_, ?_, sound.once, ?_, ?_⟩
  · intro id row here
    rcases create_cases here with old | ⟨-, named, -⟩
    · exact sound.keyed id row old
    · exact named
  · intro id row here active
    rcases create_cases here with old | ⟨-, -, queued, -⟩
    · exact sound.held id row old active
    · rw [not_active_of_queued queued] at active
      cases active
  · intro view member
    obtain ⟨row, here, le⟩ := sound.minted view member
    exact ⟨row, create_of_some here job now, le⟩
  · intro event member
    obtain ⟨row, here⟩ := isSome_iff_exists.mp (sound.known event member)
    exact isSome_iff_exists.mpr ⟨row, create_of_some here job now⟩
  · intro id row here
    rcases create_cases here with old | ⟨none, -, queued, result, error, -⟩
    · exact sound.reported id row old
    · have quiet : board.eventsOf id = [] := by
        apply filter_eq_nil_iff.mpr
        intro event member about
        have present := sound.known event member
        rw [of_decide_eq_true about, none] at present
        cases present
      simp only [Reported, not_terminal_of_queued queued]
      exact ⟨result, error, quiet⟩

end FleetJobBoard

/-! ## Runs -/

namespace FleetJobPlatform

variable {deps : FleetJobDeps} {platform : FleetJobPlatform}

structure Sound (platform : FleetJobPlatform) : Prop where
  board : platform.board.Sound
  tasks : ∀ call, ∀ task ∈ platform.calls call, task.Sound

theorem start_sound : Sound {} where
  board := by constructor <;> simp
  tasks := by simp

theorem call_tasks_sound (call : FleetJobCall) : ∀ task ∈ call.tasks, task.Sound := by
  cases call <;> simp [FleetJobCall.tasks, FleetJobTask.Sound]

theorem step_sound (sound : platform.Sound) (event : FleetJobEvent) : (platform.step deps event).Sound := by
  cases event with
  | enqueue job now => exact ⟨create_sound sound.board job now, sound.tasks⟩
  | begin id call =>
    dsimp only [step]
    split
    · refine ⟨sound.board, fun other task member => ?_⟩
      by_cases touched : other = id
      · subst touched
        simp only [update_self] at member
        exact call_tasks_sound call task member
      · simp only [update_of_ne touched] at member
        exact sound.tasks other task member
    · exact sound
  | advance id env =>
    dsimp only [step]
    split
    · exact sound
    · next task rest calls =>
      have known : ∀ later ∈ task :: rest, later.Sound := calls ▸ sound.tasks id
      refine ⟨(perform_move sound.board (known task mem_cons_self)).sound sound.board,
        fun other later member => ?_⟩
      by_cases touched : other = id
      · subst touched
        simp only [update_self] at member
        rcases mem_append.mp member with next | waiting
        · exact perform_next later next
        · exact known later (mem_cons_of_mem _ waiting)
      · simp only [update_of_ne touched] at member
        exact sound.tasks other later member

theorem run_sound (sound : platform.Sound) (events : List FleetJobEvent) :
    (run (step deps) platform events).Sound := by
  induction events generalizing platform with
  | nil => exact sound
  | cons event rest ih => exact ih (step_sound sound event)

theorem step_terminal (sound : platform.Sound) (event : FleetJobEvent) {id : String}
    (row : platform.board.jobs id = some job) (closed : job.isTerminal = true) :
    (platform.step deps event).board.jobs id = some job := by
  cases event with
  | enqueue fresh now =>
    exact create_of_some row fresh now
  | begin id call =>
    dsimp only [step]
    split <;> exact row
  | advance call env =>
    dsimp only [step]
    split
    · exact row
    · next task rest calls =>
      have known : task.Sound := sound.tasks call task (calls ▸ mem_cons_self)
      exact (perform_move sound.board known).terminal row closed

theorem run_terminal (sound : platform.Sound) (events : List FleetJobEvent) {id : String}
    (row : platform.board.jobs id = some job) (closed : job.isTerminal = true) :
    (run (step deps) platform events).board.jobs id = some job := by
  induction events generalizing platform with
  | nil => exact row
  | cons event rest ih => exact ih (step_sound sound event) (step_terminal sound event row closed)

/-- The job and the generation the event's heartbeat, completion or park is about to write under. -/
def presents (platform : FleetJobPlatform) : FleetJobEvent → Option (String × JsonValue)
  | .advance call _ => (platform.calls call).head?.bind FleetJobTask.presents
  | _ => none

theorem step_fenced (sound : platform.Sound) {event : FleetJobEvent} {id : String}
    (presents : platform.presents event = some (id, supplied))
    (changed : (platform.step deps event).board.jobs ≠ platform.board.jobs) :
    ∃ generation : Nat, supplied = .number generation ∧ platform.board.holds id = some generation := by
  cases event with
  | advance call env =>
    cases calls : platform.calls call with
    | nil => simp [FleetJobPlatform.presents, calls] at presents
    | cons task rest =>
      simp only [FleetJobPlatform.presents, calls, head?_cons, bind_some] at presents
      simp only [step, calls] at changed
      have known : task.Sound := sound.tasks call task (calls ▸ mem_cons_self)
      exact perform_fenced sound.board known presents changed
  | _ => cases presents

end FleetJobPlatform

/-- After any interleaving of the calls: no claim of a job is handed out twice; a heartbeat, completion or park
changes the rows only under the last claim of its job while that is not released; a settled row never changes
again; and a job has exactly one completion event once it is settled, with what its row stores, and none before. -/
theorem lease_protocol (deps : FleetJobDeps) (events : List FleetJobEvent) :
    let reached := run (FleetJobPlatform.step deps) {} events
    (reached.board.handed.map fun view => (view.id, view.leaseGeneration)).Nodup ∧
    (∀ event id supplied, reached.presents event = some (id, supplied) →
      (reached.step deps event).board.jobs ≠ reached.board.jobs →
      ∃ generation : Nat, supplied = .number generation ∧ reached.board.holds id = some generation) ∧
    (∀ later id job, reached.board.jobs id = some job → job.isTerminal = true →
      (run (FleetJobPlatform.step deps) reached later).board.jobs id = some job) ∧
    ∀ id job, reached.board.jobs id = some job →
      if job.isTerminal then ∃ event, reached.board.eventsOf id = [event] ∧ event.Carries job
      else reached.board.eventsOf id = [] := by
  have sound : (run (FleetJobPlatform.step deps) {} events).Sound :=
    FleetJobPlatform.run_sound FleetJobPlatform.start_sound events
  refine ⟨sound.board.once, ?_, ?_, ?_⟩
  · intro event id supplied presents changed
    exact FleetJobPlatform.step_fenced sound presents changed
  · intro later id job row closed
    exact FleetJobPlatform.run_terminal sound later row closed
  · intro id job row
    have reported := sound.board.reported id job row
    unfold FleetJobBoard.Reported at reported
    split
    · next closed => rwa [if_pos closed] at reported
    · next open_ =>
      rw [if_neg open_] at reported
      exact reported.2.2

end EverWorks.Fleet
