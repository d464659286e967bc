import EverWorks.Fleet.LogChannel
import EverWorks.Lib.Backlog
import EverWorks.Lib.Run

/-!
Two lines may read the same, so the book is kept over a channel whose lines carry a number: a live line
its place among the arrivals, a page line its page. Forgetting the numbers gives the channel as it runs.
-/

namespace EverWorks.Fleet

open Lib LogChannel

abbrev Numbered := Utf16 × Nat

def held {τ : Type} (queue : List (QueueItem τ)) : List (DataItem τ) := queue.filterMap QueueItem.data?

namespace Sent

variable {τ : Type}

def items : Sent τ → List (DataItem τ)
  | data items => items
  | _ => []

def count? : Sent τ → Option Nat
  | dropped count => some count
  | _ => none

end Sent

def dropCounts {τ : Type} (sent : List (Sent τ)) : List Nat := sent.filterMap Sent.count?

def liveNumbers (items : List (DataItem Numbered)) : List Nat :=
  (items.filter (·.live)).map (·.text.2)

def pageLines (page : Nat) (items : List (DataItem Numbered)) : List Utf16 :=
  (items.filter fun item => !item.live && item.text.2 == page).map (·.text.1)

structure LogHistory where
  sent : List (Sent Numbered)
  reports : List (List Nat)
  owed : List Nat
  deriving DecidableEq

namespace LogHistory

def tell (history : LogHistory) : Sent Numbered → LogHistory
  | .dropped count =>
    ⟨history.sent ++ [.dropped count], history.reports ++ [history.owed], []⟩
  | sent => { history with sent := history.sent ++ [sent] }

def lost (history : LogHistory) : List Nat := history.reports.flatten ++ history.owed

end LogHistory

structure LogLedger where
  channel : LogChannel Numbered
  history : LogHistory
  /-- The written live lines, as they arrived. -/
  arrivals : List Utf16
  /-- The written lines of each batch and each older page. -/
  pages : List (List Utf16)
  deriving DecidableEq

def LogEvent.page (deps : LogDeps) : LogEvent → Option (List Utf16)
  | .batch results lines _ =>
    some ((keptLines deps results lines).map fun kept => (encodeLogLine deps kept.line kept.src false).text)
  | .earlier src (.page lines _) => some (lines.map fun line => (encodeLogLine deps line src true).text)
  | _ => none

def LogEvent.arrival (deps : LogDeps) : LogEvent → Option Utf16
  | .line raw src => some (encodeLogLine deps raw src false).text
  | _ => none

def encodeNumbered (deps : LogDeps) (number : Nat) (line : RawLogLine) (src : Nat) (earlier : Bool) :
    EncodedLine Numbered :=
  let encoded := encodeLogLine deps line src earlier
  ⟨(encoded.text, number), encoded.bytes, encoded.redactions⟩

namespace LogLedger

def opened (now : ℚ) : LogLedger := ⟨.opened now, ⟨[], [], []⟩, [], []⟩

def number (ledger : LogLedger) : LogEvent → Nat
  | .line _ _ => ledger.arrivals.length
  | _ => ledger.pages.length

def heldItems (ledger : LogLedger) : List (DataItem Numbered) := held ledger.channel.queue

def sentItems (ledger : LogLedger) : List (DataItem Numbered) := ledger.history.sent.flatMap Sent.items

/-- The live lines that left the queue unsent when an event left `channel` behind. -/
def gone (ledger : LogLedger) (channel : LogChannel Numbered) : LogEvent → List Nat
  | .line _ _ =>
    (liveNumbers ledger.heldItems ++ [ledger.arrivals.length]).filter fun number =>
      number ∉ liveNumbers (held channel.queue)
  | _ => []

def step (deps : LogDeps) (ledger : LogLedger) (event : LogEvent) : LogLedger :=
  let (channel, sent) := ledger.channel.step deps (encodeNumbered deps (ledger.number event)) event
  { channel
    history := sent.foldl LogHistory.tell
      { ledger.history with owed := ledger.history.owed ++ ledger.gone channel event }
    arrivals := ledger.arrivals ++ (event.arrival deps).toList
    pages := ledger.pages ++ (event.page deps).toList }

end LogLedger

section Map

variable {τ σ : Type} (f : τ → σ)

def DataItem.map (item : DataItem τ) : DataItem σ := ⟨f item.text, item.bytes, item.live⟩

def EncodedLine.map (line : EncodedLine τ) : EncodedLine σ := ⟨f line.text, line.bytes, line.redactions⟩

def QueueItem.map : QueueItem τ → QueueItem σ
  | data item => data (item.map f)
  | json message => json message

def Sent.map : Sent τ → Sent σ
  | json message => json message
  | dropped count => dropped count
  | data items => data (items.map (DataItem.map f))

namespace LogChannel

def map (channel : LogChannel τ) : LogChannel σ :=
  { channel with queue := channel.queue.map (QueueItem.map f) }

@[simp] theorem isLive_map (item : QueueItem τ) : (item.map f).isLive = item.isLive := by
  cases item <;> rfl

@[simp] theorem isLive_comp_map : QueueItem.isLive ∘ QueueItem.map f = QueueItem.isLive :=
  funext (isLive_map f)

@[simp] theorem data?_map (item : QueueItem τ) : (item.map f).data? = item.data?.map (DataItem.map f) := by
  cases item <;> rfl

theorem pageItems_map (lines : List (EncodedLine τ)) :
    pageItems (lines.map (EncodedLine.map f)) = (pageItems lines).map (QueueItem.map f) := by
  simp [pageItems, EncodedLine.map, QueueItem.map, DataItem.map]

theorem frame_map (paused : Bool) (queue : List (QueueItem τ)) (count size : Nat) :
    frame paused (queue.map (QueueItem.map f)) count size =
      (frame paused queue count size).map (DataItem.map f) := by
  induction queue generalizing count size with
  | nil => rfl
  | cons item rest ih =>
    cases item with
    | json message => rfl
    | data item =>
      simp only [List.map_cons, QueueItem.map, frame, DataItem.map]
      split
      · rfl
      · split
        · rfl
        · simp only [List.map_cons, ih]
          rfl

@[simp] theorem totalBytes_map (items : List (DataItem τ)) :
    totalBytes (items.map (DataItem.map f)) = totalBytes items := by
  simp [totalBytes, DataItem.map, Function.comp_def]

@[simp] theorem liveBytesOf_map (items : List (DataItem τ)) :
    liveBytesOf (items.map (DataItem.map f)) = liveBytesOf items := by
  have same : (fun item : DataItem σ => item.live) ∘ DataItem.map f = fun item => item.live := rfl
  rw [liveBytesOf, List.filter_map, same, totalBytes_map, liveBytesOf]

variable (channel : LogChannel τ)

theorem dropOldestLive_map : (channel.map f).dropOldestLive = channel.dropOldestLive.map (map f) := by
  unfold dropOldestLive
  have index : (channel.map f).queue.findIdx? QueueItem.isLive = channel.queue.findIdx? QueueItem.isLive := by
    simp [map, List.findIdx?_map]
  rw [index]
  cases channel.queue.findIdx? QueueItem.isLive with
  | none => rfl
  | some index =>
    have here : (channel.map f).queue[index]? = channel.queue[index]?.map (QueueItem.map f) := by simp [map]
    simp only [here]
    cases channel.queue[index]? with
    | none => simp [map, List.eraseIdx_map]
    | some item => cases item <;> simp [map, QueueItem.map, QueueItem.data?, DataItem.map, List.eraseIdx_map]

theorem dropUntilFits_map : (channel.map f).dropUntilFits = channel.dropUntilFits.map f := by
  fun_induction dropUntilFits channel with
  | case1 channel above next dropped ih =>
    rw [dropUntilFits, if_pos (show _ < (channel.map f).liveBytes from above)]
    have found := dropOldestLive_map f channel
    rw [dropped] at found
    split
    · next later same => 
      rw [found] at same
      cases same
      exact ih
    · next same => 
      rw [found] at same
      cases same
  | case2 channel above none =>
    rw [dropUntilFits, if_pos (show _ < (channel.map f).liveBytes from above)]
    have found := dropOldestLive_map f channel
    rw [none] at found
    split
    · next later same => 
      rw [found] at same
      cases same
    · rfl
  | case3 channel fits =>
    rw [dropUntilFits, if_neg (show ¬ _ < (channel.map f).liveBytes from fits)]

theorem enqueueLive_map (line : EncodedLine τ) :
    (channel.map f).enqueueLive (line.map f) = (channel.enqueueLive line).map f := by
  unfold enqueueLive
  rw [← dropUntilFits_map]
  simp [map, EncodedLine.map, QueueItem.map, DataItem.map]

theorem reportDropped_map (accepted : Bool) :
    (channel.map f).reportDropped accepted =
      Prod.map id (Prod.map (map f) (List.map (Sent.map f))) (channel.reportDropped accepted) := by
  show (if channel.droppedUnreported = 0 then _ else _) = _
  unfold reportDropped
  split
  · rfl
  · split <;> rfl

theorem sendFrame_map (turn : Turn) :
    (channel.map f).sendFrame turn =
      Prod.map id (Prod.map (map f) (List.map (Sent.map f))) (channel.sendFrame turn) := by
  have items : frame (channel.map f).paused (channel.map f).queue 0 0 =
      (frame channel.paused channel.queue 0 0).map (DataItem.map f) := frame_map f _ _ _ _
  have tokens : ((channel.map f).refill turn.now).tokens = (channel.refill turn.now).tokens := rfl
  simp only [sendFrame, items, tokens, totalBytes_map, liveBytesOf_map, List.length_map]
  split
  · rfl
  · split
    · simp [Prod.map, map, refill, Sent.map]
    · rfl

theorem flushTurn_map (turn : Turn) :
    (channel.map f).flushTurn turn =
      Prod.map id (Prod.map (map f) (List.map (Sent.map f))) (channel.flushTurn turn) := by
  have paused : (channel.map f).paused = channel.paused := rfl
  have reported := reportDropped_map f channel turn.reported
  unfold flushTurn
  cases queue : channel.queue with
  | nil =>
    have empty : (channel.map f).queue = [] := by simp [map, queue]
    simp only [empty, paused, reported]
    split <;> rfl
  | cons item rest =>
    cases item with
    | json message =>
      have head : (channel.map f).queue = .json message :: rest.map (QueueItem.map f) := by
        simp [map, queue, QueueItem.map]
      simp only [head]
      split <;> simp [Prod.map, map, queue, Sent.map, QueueItem.map]
    | data item =>
      have head : (channel.map f).queue = .data (item.map f) :: rest.map (QueueItem.map f) := by
        simp [map, queue, QueueItem.map]
      have live : (item.map f).live = item.live := rfl
      simp only [head, paused, live, reported]
      split
      · rfl
      · split
        · obtain ⟨done, next, notices⟩ := channel.reportDropped turn.reported
          cases done with
          | false => rfl
          | true => simp [Prod.map, sendFrame_map]
        · exact sendFrame_map f channel turn

theorem flush_map (turns : List Turn) :
    (channel.map f).flush turns = Prod.map (map f) (List.map (Sent.map f)) (channel.flush turns) := by
  induction turns generalizing channel with
  | nil => rfl
  | cons turn rest ih =>
    simp only [flush, flushTurn_map]
    obtain ⟨goesOn, next, sent⟩ := channel.flushTurn turn
    cases goesOn with
    | false => rfl
    | true => simp [Prod.map, ih]

theorem step_map (deps : LogDeps) (encode : RawLogLine → Nat → Bool → EncodedLine τ) (event : LogEvent) :
    (channel.map f).step deps (fun line src earlier => (encode line src earlier).map f) event =
      Prod.map (map f) (List.map (Sent.map f)) (channel.step deps encode event) := by
  cases event with
  | batch results lines follow =>
    simp [step, batch, map, QueueItem.map, pageItems, EncodedLine.map, DataItem.map, Function.comp_def]
  | earlier src answer =>
    cases answer with
    | unsupported => simp [step, earlier, map, QueueItem.map]
    | failed hint => simp [step, earlier, map, QueueItem.map]
    | page lines hasMore =>
      simp [step, earlier, map, QueueItem.map, pageItems, EncodedLine.map, DataItem.map, Function.comp_def]
  | line line src => simp [step, enqueueLive_map]
  | notice kind hint src => simp [step, map, QueueItem.map]
  | ended src => rfl
  | pause => rfl
  | resume => rfl
  | flush turns => exact flush_map f channel turns

end LogChannel

end Map

end EverWorks.Fleet
