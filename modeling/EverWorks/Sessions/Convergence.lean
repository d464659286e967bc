import EverWorks.Sessions.StateService
import EverWorks.Sessions.StatusMachine

/-!
# The platform's picture of a session

A node that reports over a link which loses what it has not delivered, and the row that the platform keeps.
-/

namespace EverWorks.Sessions
open Lib SessionStatusPipeline List

/-- The session on both sides. What the node has sent and the platform has not applied is in `node.sent`. -/
structure SessionLink where
  node : SessionStatusPipeline
  row : FleetSession

inductive LinkEvent where
  | evidence (now : Int) (evidence : FleetSessionEvidence)
  | deliver (now : Int)
  | drop
  | connect (now : Int)
  | restart (now : Int)

def linkStep (ctx : FleetSessionMergeContext) (link : SessionLink) : LinkEvent → SessionLink
  | .evidence now evidence => { link with node := link.node.apply ctx now evidence }
  | .deliver now =>
    match link.node.sent with
    | [] => link
    | message :: rest => { node := { link.node with sent := rest }, row := applyMessage now message link.row }
  | .drop => { link with node := { link.node with connected := false, sent := [] } }
  | .connect now =>
    if link.node.connected then link
    else { link with node := resendAll now { link.node with connected := true } }
  | .restart now => { link with node := ⟨ensureTracked now, 0, false, []⟩ }

/-- The row says what the node's snapshot says. -/
def InAgreement (link : SessionLink) : Prop :=
  link.row.state = link.node.tracked.snapshot.state ∧ link.row.outcome = link.node.tracked.snapshot.outcome ∧
    link.row.attention.map (·.key) = link.node.tracked.snapshot.attention.map (·.key)

/-- The node's process has reported, the link is up, and all that was sent over it has been applied. -/
def Settled (link : SessionLink) : Prop :=
  link.node.connected = true ∧ link.node.sent = [] ∧ link.node.tracked.statusSeq ≠ 0

def reports (node : SessionStatusPipeline) (result : FleetSessionMergeResult) : Bool :=
  result.changed || (result.attentionChanged && node.tracked.statusSeq == 0)

/-- No step goes where the row would keep what the node no longer says: the times of a snapshot can be written; the
first report of a process has a sequence beyond the row's, and, over a link that is up, carries the prompt or finds
none in the row; and a connection with no prompt open on the node finds none in the row. -/
def Tells (ctx : FleetSessionMergeContext) (link : SessionLink) : LinkEvent → Prop
  | .evidence now evidence =>
    ∀ result ∈ mergeFleetSessionEvidence link.node.tracked.snapshot evidence ctx,
      writable result.next = true ∧
      (link.node.tracked.statusSeq = 0 → reports link.node result = true →
        (∀ last ∈ link.row.lastEvidence, last.seq < link.node.nextSeq now) ∧
        (link.node.connected = true → result.attentionChanged = false → link.row.attention = none))
  | .connect _ => link.node.connected = false → link.node.tracked.statusSeq ≠ 0 →
      link.node.tracked.snapshot.attention = none → link.row.attention = none
  | .deliver _ | .drop | .restart _ => True

instance (ctx : FleetSessionMergeContext) (link : SessionLink) : (event : LinkEvent) → Decidable (Tells ctx link event)
  | .evidence now evidence => inferInstanceAs (Decidable
      (∀ result ∈ mergeFleetSessionEvidence link.node.tracked.snapshot evidence ctx,
        writable result.next = true ∧
        (link.node.tracked.statusSeq = 0 → reports link.node result = true →
          (∀ last ∈ link.row.lastEvidence, last.seq < link.node.nextSeq now) ∧
          (link.node.connected = true → result.attentionChanged = false → link.row.attention = none))))
  | .connect _ => inferInstanceAs (Decidable (link.node.connected = false → link.node.tracked.statusSeq ≠ 0 →
      link.node.tracked.snapshot.attention = none → link.row.attention = none))
  | .deliver _ | .drop | .restart _ => isTrue trivial

/-! ## What a row shows -/

structure View where
  provider : FleetSessionProvider
  state : FleetSessionState
  outcome : Option FleetSessionOutcome
  seq : Option Int
  attention : Option Utf16

def FleetSession.view (row : FleetSession) : View :=
  ⟨row.provider, row.state, row.outcome, row.lastEvidence.map (·.seq), row.attention.map (·.key)⟩

def View.see (message : FleetSessionMessage) (view : View) : View :=
  match message with
  | .status message =>
    if view.seq.any (message.seq ≤ ·) then view
    else { view with state := message.state, outcome := message.outcome, seq := some message.lastEvidence.seq }
  | .attention message => { view with attention := message.attention.map (·.key) }

theorem view_apply {row : FleetSession} {message : FleetSessionMessage} (now : Int) (agent : row.provider ≠ .shell)
    (live : row.state ≠ .ended) : (applyMessage now message row).view = row.view.see message := by
  have isLive : ¬ (!isFleetSessionLive row.state) = true := by simpa [isFleetSessionLive] using live
  cases message with
  | status message =>
    rw [applyMessage, applyStatus, if_neg isLive, View.see]
    have newer : row.view.seq.any (message.seq ≤ ·) = row.lastEvidence.any (message.seq ≤ ·.seq) := by
      rw [FleetSession.view, Option.any_map]
    rw [newer]
    split
    · rfl
    · rw [if_neg (fun shell => agent shell.1)]
      rfl
  | attention message =>
    rw [applyMessage, applyAttention, if_neg isLive, if_neg (fun shell => agent shell.1), View.see]
    rw [FleetSession.view, FleetSession.view, nextAttention_key]

def View.seeAll (view : View) (messages : List FleetSessionMessage) : View :=
  messages.foldl (fun view message => view.see message) view

theorem seeAll_append (view : View) (messages : List FleetSessionMessage) (message : FleetSessionMessage) :
    view.seeAll (messages ++ [message]) = (view.seeAll messages).see message := by
  rw [View.seeAll, foldl_append]
  rfl

/-! ## Reports that are behind the node -/

def Behind (tracked : TrackedSession) (seq : Int) (state : FleetSessionState) (outcome : Option FleetSessionOutcome) :
    Prop :=
  seq ≤ tracked.statusSeq ∧
    (seq = tracked.statusSeq → state = tracked.snapshot.state ∧ outcome = tracked.snapshot.outcome)

def Telling (fits : Int → FleetSessionState → Option FleetSessionOutcome → Prop) : FleetSessionMessage → Prop
  | .status message => message.lastEvidence.seq = message.seq ∧ message.state ≠ .ended ∧
      fits message.seq message.state message.outcome
  | .attention _ => True

def View.Fits (fits : Int → FleetSessionState → Option FleetSessionOutcome → Prop) (view : View) : Prop :=
  ∀ seq ∈ view.seq, fits seq view.state view.outcome

section
variable {ctx : FleetSessionMergeContext} {node : SessionStatusPipeline} {view : View} {link : SessionLink}
  {message : FleetSessionMessage} {messages : List FleetSessionMessage} {key : Option Utf16} {now : Int}
  {fits fits' : Int → FleetSessionState → Option FleetSessionOutcome → Prop}

theorem see_fits (row : view.Fits fits) (telling : Telling fits message) : (view.see message).Fits fits := by
  cases message with
  | status message =>
    rw [View.see]
    split
    · exact row
    · intro seq held
      rw [← Option.some.inj held, telling.1]
      exact telling.2.2
  | attention message => exact row

theorem see_provider : (view.see message).provider = view.provider := by
  cases message with
  | status message =>
    rw [View.see]
    split <;> rfl
  | attention message => rfl

theorem see_live (live : view.state ≠ .ended) (telling : Telling fits message) :
    (view.see message).state ≠ .ended := by
  cases message with
  | status message =>
    rw [View.see]
    split
    · exact live
    · exact telling.2.1
  | attention message => exact live

theorem seeAll_fits (row : view.Fits fits) (telling : ∀ message ∈ messages, Telling fits message) :
    (view.seeAll messages).Fits fits := by
  induction messages generalizing view with
  | nil => exact row
  | cons message rest ih =>
    have first := see_fits row (telling message mem_cons_self)
    exact ih first fun later listed => telling later (mem_cons_of_mem _ listed)

theorem telling_mono (weaker : ∀ seq state outcome, fits seq state outcome → fits' seq state outcome)
    (telling : Telling fits message) : Telling fits' message := by
  cases message with
  | status message => exact ⟨telling.1, telling.2.1, weaker _ _ _ telling.2.2⟩
  | attention message => trivial

/-- What the node, its messages and the row have in common once the process has reported. -/
structure Reported (key : Option Utf16) (node : SessionStatusPipeline) (view : View) : Prop where
  written : writable node.tracked.snapshot = true
  noted : node.tracked.snapshot.lastEvidence ≠ none
  row : view.Fits (Behind node.tracked)
  sent : ∀ message ∈ node.sent, Telling (Behind node.tracked) message
  settled : node.connected = true → (view.seeAll node.sent).seq = some node.tracked.statusSeq ∧
    (view.seeAll node.sent).attention = key

structure Synced (key : Option Utf16) (node : SessionStatusPipeline) (view : View) : Prop where
  live : node.tracked.snapshot.state ≠ .ended
  counted : node.tracked.statusSeq ≤ node.lastSeq ∧ 0 ≤ node.lastSeq
  down : node.connected = false → node.sent = []
  quiet : node.tracked.statusSeq = 0 → node.sent = [] ∧ node.tracked.snapshot.attention = none
  reported : node.tracked.statusSeq ≠ 0 → Reported key node view

theorem lt_nextSeq : node.lastSeq < node.nextSeq now := by
  rw [nextSeq]
  omega

theorem tell_message (live : node.tracked.snapshot.state ≠ .ended)
    (noted : node.tracked.snapshot.lastEvidence ≠ none) :
    ∃ message : FleetSessionStatusMessage, message.seq = node.tracked.statusSeq ∧
      message.lastEvidence.seq = node.tracked.statusSeq ∧ message.state = node.tracked.snapshot.state ∧
      message.outcome = node.tracked.snapshot.outcome ∧ node.tell = send (.status message) node := by
  obtain ⟨last, found⟩ := Option.ne_none_iff_exists'.mp noted
  have told : ∃ message, statusMessage node.tracked = some message ∧ message.seq = node.tracked.statusSeq ∧
      message.lastEvidence.seq = node.tracked.statusSeq ∧ message.state = node.tracked.snapshot.state ∧
      message.outcome = node.tracked.snapshot.outcome := by
    rw [statusMessage.eq_def, found]
    dsimp only
    rw [if_neg live]
    exact ⟨_, rfl, rfl, rfl, rfl, rfl⟩
  obtain ⟨message, written, seq, evidence, state, outcome⟩ := told
  refine ⟨message, seq, evidence, state, outcome, ?_⟩
  rw [tell.eq_def, written]

theorem synced_sendStatus (node : SessionStatusPipeline) (live : node.tracked.snapshot.state ≠ .ended) (counted : 0 ≤ node.lastSeq)
    (written : writable node.tracked.snapshot = true) (noted : node.tracked.snapshot.lastEvidence ≠ none)
    (down : node.connected = false → node.sent = [])
    (row : view.Fits fun seq _ _ => seq < node.nextSeq now)
    (sent : ∀ message ∈ node.sent, Telling (fun seq _ _ => seq < node.nextSeq now) message)
    (settled : node.connected = true → (view.seeAll node.sent).attention = key) :
    Synced key (node.sendStatus now) view ∧ (node.sendStatus now).tracked.statusSeq ≠ 0 ∧
      (node.sendStatus now).tracked.snapshot = node.tracked.snapshot ∧
      (node.sendStatus now).connected = node.connected := by
  obtain ⟨message, seq, evidence, state, outcome, sends⟩ : ∃ message : FleetSessionStatusMessage,
      message.seq = node.nextSeq now ∧ message.lastEvidence.seq = node.nextSeq now ∧
      message.state = node.tracked.snapshot.state ∧ message.outcome = node.tracked.snapshot.outcome ∧
      node.sendStatus now = send (.status message)
        { node with lastSeq := node.nextSeq now, tracked := { node.tracked with statusSeq := node.nextSeq now } } :=
    @tell_message
      { node with lastSeq := node.nextSeq now, tracked := { node.tracked with statusSeq := node.nextSeq now } } live noted
  have more : node.lastSeq < node.nextSeq now := lt_nextSeq
  have positive : node.nextSeq now ≠ 0 := by omega
  have behind {seq : Int} {state : FleetSessionState} {outcome : Option FleetSessionOutcome}
      (older : seq < node.nextSeq now) :
      Behind { node.tracked with statusSeq := node.nextSeq now } seq state outcome :=
    ⟨le_of_lt older, fun same => absurd same (ne_of_lt older)⟩
  have older : ∀ message ∈ node.sent, Telling (Behind { node.tracked with statusSeq := node.nextSeq now }) message :=
    fun message listed => telling_mono (fun _ _ _ => behind) (sent message listed)
  have new : Telling (Behind { node.tracked with statusSeq := node.nextSeq now }) (.status message) := by
    refine ⟨evidence.trans seq.symm, by rw [state]; exact live, ?_⟩
    rw [seq, state, outcome]
    exact ⟨le_rfl, fun _ => ⟨rfl, rfl⟩⟩
  rw [sends, send]
  split
  · rename_i up
    refine ⟨⟨live, ⟨le_rfl, le_trans counted (le_of_lt more)⟩, fun cut => absurd (up.symm.trans cut) Bool.true_eq_false.mp,
      fun zero => absurd zero positive, fun _ => ⟨written, noted, fun seq held => behind (row seq held), ?_, ?_⟩⟩,
      positive, rfl, rfl⟩
    · intro other listed
      rcases mem_append.mp listed with before | own
      · exact older other before
      · rw [mem_singleton.mp own]
        exact new
    · intro _
      rw [seeAll_append, View.see]
      have below : (view.seeAll node.sent).Fits fun seq _ _ => seq < node.nextSeq now := seeAll_fits row sent
      have newer : ¬ (view.seeAll node.sent).seq.any (message.seq ≤ ·) = true := by
        rw [Option.any_eq_true]
        rintro ⟨held, there, above⟩
        have := below held there
        rw [decide_eq_true_eq, seq] at above
        omega
      rw [if_neg newer]
      exact ⟨by rw [evidence], settled up⟩
  · rename_i cut
    have empty := down (Bool.eq_false_iff.mpr cut)
    refine ⟨⟨live, ⟨le_rfl, le_trans counted (le_of_lt more)⟩, fun _ => empty, fun zero => absurd zero positive,
      fun _ => ⟨written, noted, fun seq held => behind (row seq held), older, fun up => absurd up cut⟩⟩,
      positive, rfl, rfl⟩

theorem synced_sendAttention (now : Int) (finished : Bool) (synced : Synced key node view)
    (told : node.tracked.statusSeq ≠ 0) :
    Synced (node.tracked.snapshot.attention.map (·.key)) (node.sendAttention now finished) view ∧
      (node.sendAttention now finished).tracked = node.tracked := by
  have more : node.lastSeq < node.nextSeq now := lt_nextSeq
  have counted : node.tracked.statusSeq ≤ node.nextSeq now ∧ 0 ≤ node.nextSeq now :=
    ⟨le_trans synced.counted.1 (le_of_lt more), le_trans synced.counted.2 (le_of_lt more)⟩
  have reported := synced.reported told
  rw [sendAttention, send]
  dsimp only
  split
  · rename_i up
    refine ⟨⟨synced.live, counted, fun cut => absurd (up.symm.trans cut) Bool.true_eq_false.mp,
      fun zero => absurd zero told, fun _ => ⟨reported.written, reported.noted, reported.row, ?_, fun _ => ?_⟩⟩, rfl⟩
    · intro message listed
      rcases mem_append.mp listed with before | own
      · exact reported.sent message before
      · rw [mem_singleton.mp own]
        trivial
    · rw [seeAll_append]
      exact ⟨(reported.settled up).1, rfl⟩
  · rename_i cut
    exact ⟨⟨synced.live, counted, synced.down, fun zero => absurd zero told,
      fun _ => ⟨reported.written, reported.noted, reported.row, reported.sent, fun up => absurd up cut⟩⟩, rfl⟩

/-! ## One merge -/

theorem merge_changes {prev : FleetSessionStatusSnapshot} {evidence : FleetSessionEvidence}
    {result : FleetSessionMergeResult} (live : prev.state ≠ .ended)
    (merged : mergeFleetSessionEvidence prev evidence ctx = some result) :
    (result.changed = false → result.next.state = prev.state ∧ result.next.outcome = prev.outcome) ∧
      (result.attentionChanged = false → result.next.attention = prev.attention) ∧
      ((result.changed || result.attentionChanged) = true ∨ prev.lastEvidence ≠ none →
        result.next.lastEvidence ≠ none) := by
  have finishes {done : Merging} {time : Int} (writes : Writes prev evidence time (.start prev evidence) done) :
      ((done.finish evidence time).changed = false → (done.finish evidence time).next.state = prev.state ∧
          (done.finish evidence time).next.outcome = prev.outcome) ∧
        ((done.finish evidence time).attentionChanged = false →
          (done.finish evidence time).next.attention = prev.attention) ∧
        (((done.finish evidence time).changed || (done.finish evidence time).attentionChanged) = true ∨
          prev.lastEvidence ≠ none → (done.finish evidence time).next.lastEvidence ≠ none) := by
    refine ⟨fun unchanged => ?_, fun unchanged => ?_, fun noted => finish_notes ?_⟩
    · rw [finish_state, finish_outcome]
      exact (writes.changes.1 unchanged).2
    · rw [finish_attention]
      exact (writes.changes.2 unchanged).2
    · exact noted.imp_right fun before => by rw [writes.turn.lastEvidence]; exact before
  rcases merge_cases live merged with ⟨_, rfl⟩ | ⟨_, _, rfl⟩ | ⟨_, _, done, moved, rfl⟩
  · exact finishes shell_writes
  · exact ⟨fun _ => ⟨rfl, rfl⟩, fun _ => rfl, fun noted => noted.resolve_left Bool.false_ne_true⟩
  · rcases transition_cases moved with writes | begins
    · exact finishes writes
    · obtain ⟨changed, attention⟩ := begins_unchanged begins moved
      refine ⟨fun unchanged => absurd (changed.symm.trans unchanged) Bool.true_eq_false.mp, fun unchanged => ?_,
        fun _ => finish_notes (.inl (by rw [changed, Bool.true_or]))⟩
      rw [finish_attention]
      exact attention unchanged

/-! ## Every step -/

structure Follows (ctx : FleetSessionMergeContext) (link : SessionLink) : Prop where
  agent : link.row.provider ≠ .shell
  live : link.row.state ≠ .ended
  synced : Synced (link.node.tracked.snapshot.attention.map (·.key)) link.node link.row.view

theorem Follows.settles (follows : Follows ctx link) (settled : Settled link) : InAgreement link := by
  obtain ⟨up, empty, told⟩ := settled
  have reported := follows.synced.reported told
  obtain ⟨seq, attention⟩ := reported.settled up
  rw [empty] at seq attention
  obtain ⟨_, same⟩ := reported.row _ seq
  exact ⟨(same rfl).1, (same rfl).2, attention⟩

theorem Follows.deliver (follows : Follows ctx link) : Follows ctx (linkStep ctx link (.deliver now)) := by
  rw [linkStep.eq_def]
  dsimp only
  split
  · exact follows
  · rename_i message rest waiting
    have synced := follows.synced
    have some : link.node.sent ≠ [] := by
      rw [waiting]
      exact cons_ne_nil message rest
    have told : link.node.tracked.statusSeq ≠ 0 := fun zero => some (synced.quiet zero).1
    have reported := synced.reported told
    have telling : Telling (Behind link.node.tracked) message :=
      reported.sent message (by rw [waiting]; exact mem_cons_self)
    have seen : (applyMessage now message link.row).view = link.row.view.see message :=
      view_apply now follows.agent follows.live
    have provider : (applyMessage now message link.row).provider = link.row.provider :=
      (congrArg View.provider seen).trans see_provider
    have state : (applyMessage now message link.row).state = (link.row.view.see message).state :=
      congrArg View.state seen
    refine ⟨?_, ?_, ?_⟩
    · dsimp only
      rw [provider]
      exact follows.agent
    · dsimp only
      rw [state]
      exact see_live follows.live telling
    · dsimp only
      rw [seen]
      refine ⟨synced.live, synced.counted, fun cut => absurd (synced.down cut) some, fun zero => absurd zero told,
        fun _ => ⟨reported.written, reported.noted, see_fits reported.row telling, fun later listed => ?_, ?_⟩⟩
      · exact reported.sent later (by rw [waiting]; exact mem_cons_of_mem _ listed)
      · intro up
        have settled := reported.settled up
        rw [waiting] at settled
        exact settled

theorem Synced.snapshot {next : FleetSessionStatusSnapshot} (synced : Synced key node view)
    (live : next.state ≠ .ended) (written : writable next = true)
    (noted : node.tracked.snapshot.lastEvidence ≠ none → next.lastEvidence ≠ none)
    (state : next.state = node.tracked.snapshot.state) (outcome : next.outcome = node.tracked.snapshot.outcome)
    (quiet : node.tracked.statusSeq = 0 → next.attention = none) :
    Synced key { node with tracked := { node.tracked with snapshot := next } } view := by
  have behind {seq : Int} {state' : FleetSessionState} {outcome' : Option FleetSessionOutcome}
      (before : Behind node.tracked seq state' outcome') :
      Behind { node.tracked with snapshot := next } seq state' outcome' := by
    refine ⟨before.1, fun same => ?_⟩
    rw [state, outcome]
    exact before.2 same
  refine ⟨live, synced.counted, synced.down, fun zero => ⟨(synced.quiet zero).1, quiet zero⟩, fun told => ?_⟩
  have reported := synced.reported told
  exact ⟨written, noted reported.noted, fun seq held => behind (reported.row seq held),
    fun message listed => telling_mono (fun _ _ _ => behind) (reported.sent message listed), reported.settled⟩

theorem apply_written (now : Int) {evidence : FleetSessionEvidence} {result : FleetSessionMergeResult}
    (merged : mergeFleetSessionEvidence node.tracked.snapshot evidence ctx = some result)
    (written : writable result.next = true) :
    ∃ told, node.apply ctx now evidence =
        (if result.attentionChanged = true then sendAttention now result.finished told else told) ∧
      told = if reports node result = true then
          sendStatus now { node with tracked := { node.tracked with snapshot := result.next } }
        else { node with tracked := { node.tracked with snapshot := result.next } } := by
  refine ⟨_, ?_, rfl⟩
  rw [SessionStatusPipeline.apply.eq_def, merged]
  dsimp only
  rw [written, Bool.not_true, Bool.and_false, if_neg Bool.false_ne_true]
  rfl

theorem Follows.evidence {evidence : FleetSessionEvidence} (follows : Follows ctx link)
    (tells : Tells ctx link (.evidence now evidence)) : Follows ctx (linkStep ctx link (.evidence now evidence)) := by
  refine ⟨follows.agent, follows.live, ?_⟩
  have synced := follows.synced
  rw [linkStep]
  dsimp only
  cases merged : mergeFleetSessionEvidence link.node.tracked.snapshot evidence ctx with
  | none =>
    rw [SessionStatusPipeline.apply.eq_def, merged]
    exact synced
  | some result =>
    obtain ⟨written, first⟩ := tells result merged
    obtain ⟨state, attention, noted⟩ := merge_changes synced.live merged
    have live : result.next.state ≠ .ended := by
      rcases merge_enters synced.live merged with same | may
      · rw [same]
        exact synced.live
      · intro ended
        rw [ended] at may
        exact may
    obtain ⟨told, applied, reported⟩ := apply_written now merged written
    -- the status first, with the attention as the row will have it before the next message
    have status : ∃ key, Synced key told link.row.view ∧ told.tracked.snapshot = result.next ∧
        (result.attentionChanged = true → told.tracked.statusSeq ≠ 0) ∧
        (result.attentionChanged = false → key = result.next.attention.map (·.key)) := by
      by_cases reporting : reports link.node result = true
      · rw [if_pos reporting] at reported
        have evident : result.next.lastEvidence ≠ none := by
          refine noted (.inl ?_)
          rw [reports, Bool.or_eq_true, Bool.and_eq_true] at reporting
          rcases reporting with changed | ⟨changed, _⟩ <;> simp [changed]
        by_cases zero : link.node.tracked.statusSeq = 0
        · obtain ⟨older, unshown⟩ := first zero reporting
          obtain ⟨empty, none⟩ := synced.quiet zero
          have row : link.row.view.Fits fun seq _ _ => seq < link.node.nextSeq now := by
            intro seq held
            obtain ⟨last, there, rfl⟩ := Option.map_eq_some_iff.mp held
            exact older last there
          have sent : ∀ message ∈ link.node.sent, Telling (fun seq _ _ => seq < link.node.nextSeq now) message := by
            rw [empty]
            exact fun _ listed => absurd listed not_mem_nil
          have shows : link.node.connected = true → (link.row.view.seeAll link.node.sent).attention =
              if result.attentionChanged = true then link.row.attention.map (·.key)
              else result.next.attention.map (·.key) := by
            intro up
            rw [empty]
            split
            · rfl
            · rename_i same
              have same' := Bool.eq_false_iff.mpr same
              rw [attention same', none]
              exact congrArg (Option.map (·.key)) (unshown up same')
          obtain ⟨synced', told', snapshot, _⟩ := synced_sendStatus
            { link.node with tracked := { link.node.tracked with snapshot := result.next } }
            live synced.counted.2 written evident synced.down row sent shows
          rw [reported]
          exact ⟨_, synced', snapshot, fun _ => told', fun same => if_neg (Bool.eq_false_iff.mp same)⟩
        · have before := synced.reported zero
          have newer {seq : Int} {state : FleetSessionState} {outcome : Option FleetSessionOutcome}
              (behind : Behind link.node.tracked seq state outcome) : seq < link.node.nextSeq now := by
            have : link.node.lastSeq < link.node.nextSeq now := lt_nextSeq
            have := synced.counted.1
            have := behind.1
            omega
          obtain ⟨synced', told', snapshot, _⟩ := synced_sendStatus
            { link.node with tracked := { link.node.tracked with snapshot := result.next } }
            live synced.counted.2 written evident synced.down (fun seq held => newer (before.row seq held))
            (fun message listed => telling_mono (fun _ _ _ => newer) (before.sent message listed))
            fun up => (before.settled up).2
          rw [reported]
          exact ⟨_, synced', snapshot, fun _ => told', fun same => by rw [attention same]⟩
      · rw [if_neg reporting] at reported
        rw [reports, Bool.or_eq_true, not_or, Bool.not_eq_true, Bool.not_eq_true] at reporting
        have quiet (zero : link.node.tracked.statusSeq = 0) : result.attentionChanged = false := by
          have both := reporting.2
          rw [zero, beq_self_eq_true, Bool.and_true] at both
          exact both
        obtain ⟨sameState, sameOutcome⟩ := state reporting.1
        rw [reported]
        refine ⟨_, synced.snapshot live written (fun before => noted (.inr before)) sameState sameOutcome ?_, rfl, ?_, ?_⟩
        · intro zero
          rw [attention (quiet zero)]
          exact (synced.quiet zero).2
        · exact fun more zero => absurd (more.symm.trans (quiet zero)) Bool.true_eq_false.mp
        · exact fun same => by rw [attention same]
    obtain ⟨key, synced', snapshot, changed, same⟩ := status
    rw [applied]
    split
    · rename_i more
      have sends := synced_sendAttention now result.finished synced' (changed more)
      rw [sends.2]
      exact sends.1
    · rename_i quiet
      rw [snapshot, ← same (Bool.eq_false_iff.mpr quiet)]
      exact synced'

theorem Follows.connect (follows : Follows ctx link) (tells : Tells ctx link (.connect now)) :
    Follows ctx (linkStep ctx link (.connect now)) := by
  rw [linkStep]
  dsimp only
  split
  · exact follows
  · rename_i cut
    have synced := follows.synced
    have empty := synced.down (Bool.eq_false_iff.mpr cut)
    refine ⟨follows.agent, follows.live, ?_⟩
    rw [resendAll]
    dsimp only
    split
    · rename_i silent
      have zero : link.node.tracked.statusSeq = 0 := by
        rcases silent with zero | unwritten
        · exact zero
        · by_contra told
          rw [(synced.reported told).written] at unwritten
          exact absurd unwritten (by decide)
      exact ⟨synced.live, synced.counted, fun up => absurd up Bool.true_eq_false.mp, synced.quiet,
        fun told => absurd zero told⟩
    · rename_i speaks
      have told : link.node.tracked.statusSeq ≠ 0 := fun zero => speaks (.inl zero)
      have reported := synced.reported told
      obtain ⟨message, seq, evidence, state, outcome, sends⟩ :=
        @tell_message { link.node with connected := true } synced.live reported.noted
      have tracked : (tell { link.node with connected := true }).tracked = link.node.tracked := by
        rw [sends]
        rfl
      have resent : Synced (link.row.attention.map (·.key)) (tell { link.node with connected := true }) link.row.view := by
        rw [sends, send, if_pos rfl]
        refine ⟨synced.live, synced.counted, fun up => absurd up Bool.true_eq_false.mp, fun zero => absurd zero told,
          fun _ => ⟨reported.written, reported.noted, reported.row, fun other listed => ?_, fun _ => ?_⟩⟩
        · rcases mem_append.mp listed with before | own
          · exact reported.sent other before
          · rw [mem_singleton.mp own]
            refine ⟨evidence.trans seq.symm, by rw [state]; exact synced.live, ?_⟩
            rw [seq, state, outcome]
            exact ⟨le_rfl, fun _ => ⟨rfl, rfl⟩⟩
        · dsimp only
          rw [seeAll_append, empty, View.seeAll, foldl_nil, View.see]
          split
          · rename_i known
            obtain ⟨held, there, above⟩ := (Option.any_eq_true _ _).mp known
            have behind := (reported.row held there).1
            rw [decide_eq_true_eq, seq] at above
            exact ⟨there.trans (congrArg some (le_antisymm behind above)), rfl⟩
          · exact ⟨congrArg some evidence, rfl⟩
      split
      · rename_i shown
        have attention := synced_sendAttention now false resent (by rw [tracked]; exact told)
        rw [attention.2]
        exact attention.1
      · rename_i unshown
        rw [tracked] at unshown ⊢
        have none : link.node.tracked.snapshot.attention = none := by simpa using unshown
        have bare := tells (Bool.eq_false_iff.mpr cut) told none
        rw [none]
        rw [bare] at resent
        exact resent

theorem Follows.drop (follows : Follows ctx link) : Follows ctx (linkStep ctx link .drop) := by
  refine ⟨follows.agent, follows.live, ?_⟩
  refine ⟨follows.synced.live, follows.synced.counted, fun _ => rfl, fun zero => ⟨rfl, (follows.synced.quiet zero).2⟩,
    fun told => ?_⟩
  have reported := follows.synced.reported told
  exact ⟨reported.written, reported.noted, reported.row, fun _ listed => absurd listed not_mem_nil,
    fun up => absurd up Bool.false_ne_true⟩

theorem Follows.restart (follows : Follows ctx link) : Follows ctx (linkStep ctx link (.restart now)) :=
  ⟨follows.agent, follows.live, nofun, ⟨le_rfl, le_rfl⟩, fun _ => rfl, fun _ => ⟨rfl, rfl⟩, fun told => absurd rfl told⟩

theorem Follows.step (event : LinkEvent) (follows : Follows ctx link) (tells : Tells ctx link event) :
    Follows ctx (linkStep ctx link event) := by
  cases event with
  | evidence now evidence => exact follows.evidence tells
  | deliver now => exact follows.deliver
  | drop => exact follows.drop
  | connect now => exact follows.connect tells
  | restart now => exact follows.restart

end

/-! ## Every run -/

def firstSight (start : Int) (row : FleetSession) : SessionLink := ⟨⟨ensureTracked start, 0, false, []⟩, row⟩

/-- The row agrees with the node's snapshot wherever a run settles. -/
theorem picture_converges (ctx : FleetSessionMergeContext) (start : Int) (row : FleetSession)
    (agent : row.provider ≠ .shell) (live : row.state ≠ .ended) (events : List LinkEvent)
    (tells : Along (linkStep ctx) (Tells ctx) (firstSight start row) events) :
    ∀ first, first <+: events → Settled (run (linkStep ctx) (firstSight start row) first) →
      InAgreement (run (linkStep ctx) (firstSight start row) first) := by
  intro first isPre settled
  have begins : Follows ctx (firstSight start row) :=
    ⟨agent, live, nofun, ⟨le_rfl, le_rfl⟩, fun _ => rfl, fun _ => ⟨rfl, rfl⟩, fun told => absurd rfl told⟩
  have follows : Follows ctx (run (linkStep ctx) (firstSight start row) first) :=
    initial_along (fun _ event follows tells => Follows.step event follows tells) begins tells isPre
  exact follows.settles settled

def newRow : FleetSession where
  provider := .codex
  state := .working
  outcome := none
  stateChangedAt := none
  startedAt := none
  lastActivityAt := none
  lastEvidence := none
  boundaryUntil := none
  attention := none

def askedAndCut : List LinkEvent :=
  [.connect 1, .evidence 2 (bare .rules .permission 2), .deliver 2, .deliver 2, .drop]

theorem reconnected_with_prompt : InAgreement (run (linkStep ⟨Utf16.ofString "s", .codex⟩) (firstSight 0 newRow)
    (askedAndCut ++ [.connect 3, .deliver 3, .deliver 3])) :=
  picture_converges ⟨Utf16.ofString "s", .codex⟩ 0 newRow (by decide) (by decide)
    (askedAndCut ++ [.connect 3, .deliver 3, .deliver 3]) (by decide) _ prefix_rfl
    ⟨by decide, by decide, by decide⟩

/-- The prompt is answered in the terminal before the link is up again. -/
theorem answered_while_down_stays_open :
    Settled (run (linkStep ⟨Utf16.ofString "s", .codex⟩) (firstSight 0 newRow)
      (askedAndCut ++ [.evidence 3 (bare .rules .working 3), .connect 4, .deliver 4])) ∧
    ¬ InAgreement (run (linkStep ⟨Utf16.ofString "s", .codex⟩) (firstSight 0 newRow)
      (askedAndCut ++ [.evidence 3 (bare .rules .working 3), .connect 4, .deliver 4])) := by
  refine ⟨⟨by decide, by decide, by decide⟩, fun agrees => ?_⟩
  exact absurd agrees.2.2 (by decide)

end EverWorks.Sessions
