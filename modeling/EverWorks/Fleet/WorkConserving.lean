import EverWorks.Fleet.CancelLimbo

/-!
A poll reads a window of the oldest queued rows and claims from it what the node may take. Pins and kinds are part
of the query; capabilities, throttles, cancellations and the admission of App Work are asked of the rows it read.
-/

namespace EverWorks.Fleet
open Lib List Function FleetJobBoard

/-- What a poll that has the rows to itself is told by the database, the clock and the admission port. -/
structure QuietPoll where
  /-- The ids of the rows, oldest first. -/
  order : List String
  admits : FleetJob → Bool
  clock : FleetJobTask → Nat

namespace QuietPoll

variable (poll : QuietPoll)

def env (task : FleetJobTask) : FleetJobEnv where
  now := poll.clock task
  found := poll.order
  admitted := match task with
    | .claim _ _ _ (candidate :: _) => poll.admits candidate
    | _ => true

def rows (board : FleetJobBoard) : List FleetJob := poll.order.filterMap board.jobs

/-- The order names every row once, by the instants of their creation. -/
structure Lists (board : FleetJobBoard) (createdAt : String → Nat) : Prop where
  once : poll.order.Nodup
  complete : ∀ id, (board.jobs id).isSome → id ∈ poll.order
  oldestFirst : poll.order.Pairwise fun first later => createdAt first ≤ createdAt later

end QuietPoll

def FleetJobPlatform.alone (deps : FleetJobDeps) (poll : QuietPoll) (call : Nat) (platform : FleetJobPlatform) :
    FleetJobPlatform :=
  match (platform.calls call).head? with
  | some task => platform.step deps (.advance call (poll.env task))
  | none => platform

section

variable (node : AuthenticatedFleetNode) (input : LeaseFleetJobsInput)

/-- The WHERE clause of `findQueuedForNode`. -/
def queuedForNode (job : FleetJob) : Bool :=
  job.userId = node.userId && job.status = .queued && job.targetNodeId.all (· = node.id) &&
    isLeasableKind job.kind input

def scanWindow : Nat := max (clampBatch input.max * 4) fleetJobMaxLeaseBatch

def mayTake (admits : FleetJob → Bool) (job : FleetJob) : Bool :=
  queuedForNode node input job && (job.cancelRequestedAt.isNone &&
    offers node input job (admits job))

def QuietPoll.eligible (poll : QuietPoll) (board : FleetJobBoard) : List FleetJob :=
  (poll.rows board).filter (mayTake node input poll.admits)

def QuietPoll.inWindow (poll : QuietPoll) (board : FleetJobBoard) : List FleetJob :=
  (((poll.rows board).filter (queuedForNode node input)).take (scanWindow input)).filter
    (mayTake node input poll.admits)

/-- The jobs returned are the oldest the node may take, and as many as it asked for and may take. -/
structure WorkConserving (poll : QuietPoll) (board : FleetJobBoard) (createdAt : String → Nat)
    (returned : List String) : Prop where
  count : returned.length = min (clampBatch input.max) (poll.eligible node input board).length
  once : returned.Nodup
  takes : ∀ id ∈ returned, ∃ job, board.jobs id = some job ∧ mayTake node input poll.admits job = true
  oldest : ∀ id ∈ returned, ∀ other job, board.jobs other = some job →
    mayTake node input poll.admits job = true → other ∉ returned → createdAt id ≤ createdAt other

end

namespace FleetJobBoard

variable {board : FleetJobBoard} (env : FleetJobEnv) {node : AuthenticatedFleetNode} {input : LeaseFleetJobsInput}

theorem claimRow_won {job : FleetJob} (row : board.jobs job.id = some job) (queued : job.status = .queued)
    (unflagged : job.cancelRequestedAt.isNone = true) (offered : offers node input job env.admitted = true) :
    (board.claimRow env node input job).2 = true ∧
      (∀ id, id ≠ job.id → (board.claimRow env node input job).1.jobs id = board.jobs id) ∧
      ∃ view, (board.claimRow env node input job).1.handed = board.handed ++ [view] ∧ view.id = job.id := by
  have claimed : ∀ patch : FleetJobs.ClaimJobPatch, patch.leaseGeneration = job.leaseGeneration + 1 →
      ∃ new, board.jobs.claim job.id patch = some (update board.jobs job.id (some new)) := by
    intro patch mints
    refine ⟨_, FleetJobs.updateWhere_some.mpr ⟨job, row, ?_, rfl⟩⟩
    simp [queued, Option.isNone_iff_eq_none.mp unflagged, mints]
  obtain ⟨new, won⟩ := claimed ⟨node.id, env.now + clampLeaseTtlSec input.leaseTtlSec * 1000, job.attempts + 1,
    job.leaseGeneration + 1⟩ rfl
  simp only [claimRow, offered, if_true, won]
  exact ⟨trivial, fun id apart => update_of_ne apart .., _, rfl, rfl⟩

theorem claimRow_passed {job : FleetJob} (row : board.jobs job.id = some job)
    (refused : (job.cancelRequestedAt.isNone && offers node input job env.admitted) = false) :
    board.claimRow env node input job = (board, false) := by
  unfold claimRow
  by_cases offered : offers node input job env.admitted = true
  · have flagged : job.cancelRequestedAt.isNone = false := by simpa [offered] using refused
    have lost : ∀ patch, board.jobs.claim job.id patch = none := by
      intro patch
      refine FleetJobs.updateWhere_none.mpr fun other here => ?_
      obtain rfl := Option.some.inj (row.symm.trans here)
      simp only [decide_eq_false_iff_not]
      rintro ⟨-, unflagged, -⟩
      rw [unflagged] at flagged
      cases flagged
    simp only [if_pos offered, lost]
  · rw [if_neg offered]

end FleetJobBoard

namespace FleetJobPlatform

variable {deps : FleetJobDeps} {poll : QuietPoll} {call : Nat} {platform : FleetJobPlatform}
  {node : AuthenticatedFleetNode} {input : LeaseFleetJobsInput}

theorem alone_done (done : platform.calls call = []) (n : Nat) : (alone deps poll call)^[n] platform = platform := by
  refine iterate_fixed ?_ n
  simp [alone, done]

variable (deps poll) in
theorem alone_claim {leased : Nat} {candidate : FleetJob} {candidates : List FleetJob}
    (calls : platform.calls call = [.claim node input leased (candidate :: candidates)])
    (room : leased < clampBatch input.max) (row : platform.board.jobs candidate.id = some candidate)
    (queued : queuedForNode node input candidate = true) :
    ∃ views, (platform.alone deps poll call).calls call = [.claim node input (leased + views.length) candidates] ∧
      (platform.alone deps poll call).board.handed = platform.board.handed ++ views ∧
      views.map (·.id) = ([candidate].filter (mayTake node input poll.admits)).map (·.id) ∧
      ∀ id, id ≠ candidate.id → (platform.alone deps poll call).board.jobs id = platform.board.jobs id := by
  have status : candidate.status = .queued := by
    simp only [queuedForNode, Bool.and_eq_true, decide_eq_true_eq] at queued
    exact queued.1.1.2
  have stepped : platform.alone deps poll call =
      ⟨(platform.board.claimRow (poll.env (.claim node input leased (candidate :: candidates))) node input
          candidate).1,
        update platform.calls call
          [.claim node input (if (platform.board.claimRow
            (poll.env (.claim node input leased (candidate :: candidates))) node input candidate).2
            then leased + 1 else leased) candidates]⟩ := by
    simp only [alone, calls, head?_cons, step, perform, if_neg (Nat.not_le.mpr room)]
    rfl
  rw [stepped]
  simp only [update_self]
  by_cases takes : (candidate.cancelRequestedAt.isNone &&
      offers node input candidate (poll.admits candidate)) = true
  · obtain ⟨unflagged, offered⟩ := Bool.and_eq_true_iff.mp takes
    obtain ⟨won, others, view, handed, named⟩ := claimRow_won
      (poll.env (.claim node input leased (candidate :: candidates))) row status unflagged offered
    refine ⟨[view], by simp [won], handed, ?_, others⟩
    simp [mayTake, queued, takes, named]
  · have passed : platform.board.claimRow (poll.env (.claim node input leased (candidate :: candidates))) node
        input candidate = (platform.board, false) :=
      claimRow_passed _ row (Bool.eq_false_iff.mpr takes)
    rw [passed]
    refine ⟨[], by simp, (append_nil _).symm, ?_, fun _ _ => rfl⟩
    simp [mayTake, takes]

theorem alone_claims {leased : Nat} {candidates : List FleetJob}
    (calls : platform.calls call = [.claim node input leased candidates])
    (rows : ∀ candidate ∈ candidates, platform.board.jobs candidate.id = some candidate ∧
      queuedForNode node input candidate = true)
    (apart : (candidates.map (·.id)).Nodup) {n : Nat} (turns : candidates.length < n) :
    ((alone deps poll call)^[n] platform).calls call = [] ∧
      ∃ views, ((alone deps poll call)^[n] platform).board.handed = platform.board.handed ++ views ∧
        views.map (·.id) = ((candidates.filter (mayTake node input poll.admits)).take
          (clampBatch input.max - leased)).map (·.id) := by
  obtain ⟨n, rfl⟩ : ∃ m, n = m + 1 := ⟨n - 1, by omega⟩
  rw [iterate_succ_apply]
  induction candidates generalizing platform leased n with
  | nil =>
    have stepped : platform.alone deps poll call = ⟨platform.board, update platform.calls call []⟩ := by
      simp only [alone, calls, head?_cons, step, perform]
      rfl
    rw [stepped, alone_done (update_self ..)]
    exact ⟨update_self .., [], (append_nil _).symm, by simp⟩
  | cons candidate candidates ih =>
    by_cases room : leased < clampBatch input.max
    · obtain ⟨views, onward, handed, named, others⟩ := alone_claim deps poll calls room
        (rows candidate mem_cons_self).1 (rows candidate mem_cons_self).2
      rw [map_cons, nodup_cons] at apart
      have later : ∀ other ∈ candidates,
          (platform.alone deps poll call).board.jobs other.id = some other ∧
            queuedForNode node input other = true := by
        intro other member
        have differs : other.id ≠ candidate.id := by
          intro same
          exact apart.1 (mem_map.mpr ⟨other, member, same⟩)
        rw [others other.id differs]
        exact rows other (mem_cons_of_mem _ member)
      obtain ⟨m, rfl⟩ : ∃ m, n = m + 1 := ⟨n - 1, by simp at turns; omega⟩
      obtain ⟨done, more, rest, ids⟩ := ih onward later apart.2 m (by simpa using turns)
      rw [iterate_succ_apply]
      refine ⟨done, views ++ more, by rw [rest, handed, append_assoc], ?_⟩
      rw [map_append, named, ids]
      have count : views.length = ([candidate].filter (mayTake node input poll.admits)).length := by
        simpa using congrArg List.length named
      by_cases takes : mayTake node input poll.admits candidate = true
      · have one : views.length = 1 := by simpa [takes] using count
        have split : clampBatch input.max - leased = (clampBatch input.max - (leased + 1)) + 1 := by omega
        rw [one, split, filter_cons_of_pos (l := candidates) takes, take_succ_cons]
        simp [takes]
      · have none_ : views.length = 0 := by simpa [takes] using count
        rw [none_, filter_cons_of_neg takes]
        simp [takes]
    · have stepped : platform.alone deps poll call =
          ⟨platform.board, update platform.calls call []⟩ := by
        simp only [alone, calls, head?_cons, step, perform,
          if_pos (Nat.not_lt.mp room)]
        rfl
      rw [stepped, alone_done (update_self ..)]
      refine ⟨update_self .., [], (append_nil _).symm, ?_⟩
      rw [Nat.sub_eq_zero_of_le (Nat.not_lt.mp room), take_zero]
      rfl

end FleetJobPlatform

section

variable {board : FleetJobBoard} {poll : QuietPoll} {createdAt : String → Nat} {node : AuthenticatedFleetNode}
  {input : LeaseFleetJobsInput}

theorem QuietPoll.mem_rows {job : FleetJob} (member : job ∈ poll.rows board)
    (keyed : ∀ id job, board.jobs id = some job → job.id = id) : board.jobs job.id = some job := by
  obtain ⟨id, -, row⟩ := mem_filterMap.mp member
  rw [keyed id job row]
  exact row

theorem QuietPoll.rows_ids (keyed : ∀ id job, board.jobs id = some job → job.id = id) :
    ((poll.rows board).map (·.id)).Sublist poll.order := by
  unfold rows
  induction poll.order with
  | nil => exact List.Sublist.refl _
  | cons id rest ih =>
    cases row : board.jobs id with
    | none => simpa only [filterMap_cons, row] using ih.cons id
    | some job =>
      simp only [filterMap_cons, row, map_cons, keyed id job row]
      exact ih.cons_cons id

theorem QuietPoll.inWindow_prefix (poll : QuietPoll) (board : FleetJobBoard) :
    poll.inWindow node input board <+: poll.eligible node input board := by
  have narrower : (poll.rows board).filter (mayTake node input poll.admits) =
      ((poll.rows board).filter (queuedForNode node input)).filter (mayTake node input poll.admits) := by
    rw [filter_filter]
    refine filter_congr fun job _ => ?_
    simp only [mayTake]
    cases queuedForNode node input job <;> simp
  unfold eligible inWindow
  rw [narrower]
  exact ( take_prefix _ _).filter _

theorem workConserving_iff (keyed : ∀ id job, board.jobs id = some job → job.id = id)
    (lists : poll.Lists board createdAt) {returned : List String}
    (taken : returned = ((poll.inWindow node input board).take (clampBatch input.max)).map (·.id)) :
    WorkConserving node input poll board createdAt returned ↔
      min (clampBatch input.max) (poll.eligible node input board).length ≤
        (poll.inWindow node input board).length := by
  have isPre : poll.inWindow node input board <+: poll.eligible node input board := poll.inWindow_prefix board
  have shorter := isPre.length_le
  have ids : ((poll.eligible node input board).map (·.id)).Sublist poll.order :=
    (filter_sublist.map _).trans (poll.rows_ids keyed)
  have count : returned.length = min (clampBatch input.max) (poll.inWindow node input board).length := by
    rw [taken, length_map, length_take]
  have first : returned <+: (poll.eligible node input board).map (·.id) := by
    rw [taken]
    exact (( take_prefix _ _).trans isPre).map _
  constructor
  · intro conserving
    have same := conserving.count
    omega
  · intro enough
    refine ⟨by omega, (ids.nodup lists.once).sublist first.sublist, fun id member => ?_, ?_⟩
    · obtain ⟨job, inside, rfl⟩ := mem_map.mp (first.subset member)
      obtain ⟨listed, takes⟩ := mem_filter.mp inside
      exact ⟨job, poll.mem_rows listed keyed, takes⟩
    · intro id member other job row takes outside
      have listed : other ∈ (poll.eligible node input board).map (·.id) := by
        have known : other ∈ poll.order := lists.complete other (by rw [row]; rfl)
        exact mem_map.mpr ⟨job, mem_filter.mpr ⟨mem_filterMap.mpr ⟨other, known, row⟩, takes⟩,
          keyed other job row⟩
      obtain ⟨rest, whole⟩ := first
      rw [← whole] at listed ids
      have later : other ∈ rest := (mem_append.mp listed).resolve_left outside
      exact (pairwise_append.mp (lists.oldestFirst.sublist ids)).2.2 id member other later

end

open FleetJobPlatform

/-- What the poll returns once its sweeps are done: the job views handed out by the rest of the call. -/
def FleetJobPlatform.scan (deps : FleetJobDeps) (poll : QuietPoll) (call : Nat) (input : LeaseFleetJobsInput)
    (platform : FleetJobPlatform) : FleetJobPlatform × List String :=
  let reached := (alone deps poll call)^[scanWindow input + 2] platform
  (reached, (reached.board.handed.drop platform.board.handed.length).map (·.id))

/-- From every reachable state, a poll without concurrent claims comes to its end and is work-conserving exactly
if the rows it reads hold as many of the jobs the node may take as it asks for and may take. -/
theorem lease_workConserving_iff (deps : FleetJobDeps) (past : List FleetJobEvent) (call : Nat)
    (node : AuthenticatedFleetNode) (input : LeaseFleetJobsInput) (poll : QuietPoll) (createdAt : String → Nat)
    (begun : (run (step deps) {} past).calls call = [.findQueuedForNode node input])
    (lists : poll.Lists (run (step deps) {} past).board createdAt) :
    ((run (step deps) {} past).scan deps poll call input).1.calls call = [] ∧
    (WorkConserving node input poll (run (step deps) {} past).board createdAt
        ((run (step deps) {} past).scan deps poll call input).2 ↔
      min (clampBatch input.max) (poll.eligible node input (run (step deps) {} past).board).length ≤
        (poll.inWindow node input (run (step deps) {} past).board).length) := by
  have sound : (run (step deps) {} past).Sound := run_sound start_sound past
  generalize run (step deps) {} past = platform at begun lists sound
  have window : platform.board.jobs.findWhere (queuedForNode node input) poll.order (scanWindow input) =
      ((poll.rows platform.board).filter (queuedForNode node input)).take (scanWindow input) := by
    rw [FleetJobs.findWhere, QuietPoll.rows, filter_filterMap]
  have found : (platform.alone deps poll call).calls call = [.claim node input 0
      (((poll.rows platform.board).filter (queuedForNode node input)).take (scanWindow input))] ∧
      (platform.alone deps poll call).board = platform.board := by
    rw [← window]
    simp only [alone, begun, head?_cons, step, perform, update_self]
    exact ⟨rfl, trivial⟩
  have rows : ∀ candidate ∈ ((poll.rows platform.board).filter (queuedForNode node input)).take (scanWindow input),
      (platform.alone deps poll call).board.jobs candidate.id = some candidate ∧
        queuedForNode node input candidate = true := by
    intro candidate member
    obtain ⟨listed, queued⟩ := mem_filter.mp (mem_of_mem_take member)
    rw [found.2]
    exact ⟨poll.mem_rows listed sound.board.keyed, queued⟩
  have apart : ((((poll.rows platform.board).filter (queuedForNode node input)).take
      (scanWindow input)).map (·.id)).Nodup := by
    have ids := ((take_sublist (scanWindow input) _).trans
      (filter_sublist (p := queuedForNode node input) (l := poll.rows platform.board))).map FleetJob.id
    exact lists.once.sublist (ids.trans (poll.rows_ids sound.board.keyed))
  obtain ⟨done, views, handed, named⟩ := alone_claims found.1 rows apart
    (n := scanWindow input + 1) (by rw [length_take]; omega)
  rw [← iterate_succ_apply] at done handed
  refine ⟨done, workConserving_iff sound.board.keyed lists ?_⟩
  simp only [scan]
  rw [handed, found.2, drop_left, named, Nat.sub_zero]
  rfl

namespace FleetJobPlatform

variable {deps : FleetJobDeps} {platform : FleetJobPlatform}

theorem step_isSome (sound : platform.Sound) (event : FleetJobEvent) {id : String}
    (here : ((platform.step deps event).board.jobs id).isSome) :
    (platform.board.jobs id).isSome ∨ ∃ job now, event = .enqueue job now ∧ job.id = id := by
  cases event with
  | enqueue job now =>
    by_cases named : job.id = id
    · exact Or.inr ⟨job, now, rfl, named⟩
    · left
      simp only [step, FleetJobs.create] at here
      split at here
      · exact here
      · rwa [update_of_ne (Ne.symm named)] at here
  | begin call input =>
    left
    dsimp only [step] at here
    split at here <;> exact here
  | advance call env =>
    left
    dsimp only [step] at here
    split at here
    · exact here
    · next task rest calls =>
      have known : task.Sound := sound.tasks call task (calls ▸ mem_cons_self)
      exact (perform_move sound.board known).isSome id ▸ here

theorem run_isSome (sound : platform.Sound) (events : List FleetJobEvent) {id : String}
    (here : ((run (step deps) platform events).board.jobs id).isSome) :
    (platform.board.jobs id).isSome ∨ ∃ job now, .enqueue job now ∈ events ∧ job.id = id := by
  induction events generalizing platform with
  | nil => exact Or.inl here
  | cons event rest ih =>
    rcases ih (step_sound sound event) here with before | ⟨job, now, member, named⟩
    · rcases step_isSome sound event before with old | ⟨job, now, rfl, named⟩
      · exact Or.inl old
      · exact Or.inr ⟨job, now, mem_cons_self, named⟩
    · exact Or.inr ⟨job, now, mem_cons_of_mem _ member, named⟩

end FleetJobPlatform

def polledQueue (jobs : List FleetJob) : List FleetJobEvent :=
  jobs.map (.enqueue · 0) ++ .begin 0 (.lease laptop {}) ::
    List.replicate 12 (.advance 0 { found := jobs.map (·.id) })

def pollOf (jobs : List FleetJob) : QuietPoll where
  order := jobs.map (·.id)
  admits _ := true
  clock _ := 0

def position (jobs : List FleetJob) (id : String) : Nat := (jobs.map (·.id)).idxOf id

theorem polledQueue_lists {jobs : List FleetJob} (once : (jobs.map (·.id)).Nodup)
    (sorted : (jobs.map (·.id)).Pairwise fun first later => position jobs first ≤ position jobs later) :
    (pollOf jobs).Lists (run (step noDeps) {} (polledQueue jobs)).board (position jobs) := by
  refine ⟨once, fun id here => ?_, sorted⟩
  rcases run_isSome start_sound _ here with absent | ⟨job, now, member, rfl⟩
  · cases absent
  · simp only [polledQueue, mem_append, mem_map, mem_cons, mem_replicate] at member
    rcases member with ⟨listed, inside, same⟩ | same | ⟨-, same⟩
    · cases same
      exact mem_map.mpr ⟨job, inside, rfl⟩
    · cases same
    · cases same

def plainJob (id : String) : FleetJob := { id, userId := "owner", kind := .agentTask }

def taggedJob (id : String) : FleetJob := { plainJob id with requiredCapabilities := [ascii "gpu"] }

theorem short_queue_conserving : WorkConserving laptop {} (pollOf [taggedJob "tagged", plainJob "plain"])
    (run (step noDeps) {} (polledQueue [taggedJob "tagged", plainJob "plain"])).board
    (position [taggedJob "tagged", plainJob "plain"])
    ((run (step noDeps) {} (polledQueue [taggedJob "tagged", plainJob "plain"])).scan noDeps
      (pollOf [taggedJob "tagged", plainJob "plain"]) 0 {}).2 := by
  refine (lease_workConserving_iff noDeps _ 0 laptop {} _ _ ?_ ?_).2.mpr ?_
  · rfl
  · exact polledQueue_lists (by decide) (by decide)
  · decide

def hidingQueue : List FleetJob :=
  ["1", "2", "3", "4", "5"].map taggedJob ++ [plainJob "plain"]

theorem backlog_hides_job :
    ¬∀ (past : List FleetJobEvent) (call : Nat) (node : AuthenticatedFleetNode) (input : LeaseFleetJobsInput)
      (poll : QuietPoll) (createdAt : String → Nat),
      (run (step noDeps) {} past).calls call = [.findQueuedForNode node input] →
      poll.Lists (run (step noDeps) {} past).board createdAt →
      WorkConserving node input poll (run (step noDeps) {} past).board createdAt
        ((run (step noDeps) {} past).scan noDeps poll call input).2 := by
  intro all
  have lists : (pollOf hidingQueue).Lists (run (step noDeps) {} (polledQueue hidingQueue)).board
      (position hidingQueue) := polledQueue_lists (by decide) (by decide)
  have count := (all (polledQueue hidingQueue) 0 laptop {} (pollOf hidingQueue) (position hidingQueue) rfl
    lists).count
  have none_ : ((run (step noDeps) {} (polledQueue hidingQueue)).scan noDeps (pollOf hidingQueue) 0 {}).2.length =
      0 := by decide
  have one : min (clampBatch ({} : LeaseFleetJobsInput).max) ((pollOf hidingQueue).eligible laptop {}
      (run (step noDeps) {} (polledQueue hidingQueue)).board).length = 1 := by decide
  rw [none_, one] at count
  cases count

end EverWorks.Fleet
