import EverWorks.Fleet.LogLine

/-!
The channel's queue mixes messages, lines of a batch or an older page, and live lines. Readers put items in, `flush`
sends from the head what credit, pace and pause let go.
-/

namespace EverWorks.Fleet

open Lib

structure DataItem (τ : Type) where
  text : τ
  bytes : Nat
  live : Bool
  deriving DecidableEq

inductive QueueItem (τ : Type) where
  | data (item : DataItem τ)
  | json (message : LogMessage)
  deriving DecidableEq

structure LogChannel (τ : Type) where
  queue : List (QueueItem τ)
  liveBytes : Int
  droppedUnreported : Nat
  tokens : ℚ
  lastRefill : ℚ
  paused : Bool
  okSources : List Nat
  bytesSent : Nat
  linesSent : Nat
  redactions : Nat
  deriving DecidableEq

/-- What the channel hands to its context, in order: a message of its queue, the notice of kind `dropped`
with its count, or a frame whose payload is the text of its items. -/
inductive Sent (τ : Type) where
  | json (message : LogMessage)
  | dropped (count : Nat)
  | data (items : List (DataItem τ))
  deriving DecidableEq

/-- What the context and the clock answer during one turn of the loop of `flush`: to the notice of dropped
lines, to the item or frame itself, and to `now`. -/
structure Turn where
  reported : Bool
  accepted : Bool
  now : ℚ
  deriving DecidableEq

inductive EarlierPage where
  | unsupported
  | failed (hint : Utf16)
  | page (lines : List RawLogLine) (hasMore : Bool)
  deriving DecidableEq

/-- What happens to an open channel. A handler of the source that ends in a flush is its own event and a
`flush` after it, since readers may hand lines over in between. -/
inductive LogEvent where
  | batch (results : List (Except LogError LogBatch)) (lines : LineCount) (follow : Bool)
  | earlier (src : Nat) (answer : EarlierPage)
  | line (line : RawLogLine) (src : Nat)
  | notice (kind : FleetLogsNoticeKind) (hint : Option Utf16) (src : Nat)
  | ended (src : Nat)
  | pause
  | resume
  | flush (turns : List Turn)
  deriving DecidableEq

namespace QueueItem

variable {τ : Type}

def isLive : QueueItem τ → Bool
  | data item => item.live
  | json _ => false

def data? : QueueItem τ → Option (DataItem τ)
  | data item => some item
  | json _ => none

end QueueItem

namespace LogChannel

variable {τ : Type}

def opened (now : ℚ) : LogChannel τ where
  queue := []
  liveBytes := 0
  droppedUnreported := 0
  tokens := fleetLogsFollowBytesPerSec
  lastRefill := now
  paused := false
  okSources := []
  bytesSent := 0
  linesSent := 0
  redactions := 0

def pageItems (lines : List (EncodedLine τ)) : List (QueueItem τ) :=
  lines.map fun line => .data ⟨line.text, line.bytes, false⟩

def batch (channel : LogChannel τ) (encode : RawLogLine → Nat → Bool → EncodedLine τ) (deps : LogDeps)
    (results : List (Except LogError LogBatch)) (lines : LineCount) (follow : Bool) : LogChannel τ :=
  let gathered := gather results
  let encoded := (keptLines deps results lines).map fun kept => encode kept.line kept.src false
  let redactions := (encoded.map (·.redactions)).sum
  let bytes := (encoded.map (·.bytes)).sum
  let okSources := channel.okSources ∪ gathered.succeeded
  let allFailed := okSources.isEmpty
  { channel with
    queue := channel.queue ++ (gathered.notices.map .json ++ (pageItems encoded ++
      [.json (.initialDone encoded.length redactions bytes gathered.scanLimited (follow && !allFailed)
        (if allFailed then gathered.firstError else none))]))
    redactions := channel.redactions + redactions
    okSources }

def earlier (channel : LogChannel τ) (encode : RawLogLine → Nat → Bool → EncodedLine τ) (src : Nat) :
    EarlierPage → LogChannel τ
  | .unsupported => { channel with queue := channel.queue ++ [.json (.earlierDone 0 false src true)] }
  | .failed hint =>
    { channel with
      queue := channel.queue ++
        [.json (.notice .error (some hint) src), .json (.earlierDone 0 false src false)] }
  | .page lines hasMore =>
    let encoded := lines.map fun line => encode line src true
    -- Ahead of any live line still waiting.
    { channel with
      queue := (pageItems encoded ++ [.json (.earlierDone lines.length hasMore src false)]) ++ channel.queue
      redactions := channel.redactions + (encoded.map (·.redactions)).sum }

/-- Removes the first live item; `none` when the queue has none. -/
def dropOldestLive (channel : LogChannel τ) : Option (LogChannel τ) :=
  match channel.queue.findIdx? QueueItem.isLive with
  | none => none
  | some index =>
    let dropped := channel.queue[index]?.bind QueueItem.data?
    some
      { channel with
        queue := channel.queue.eraseIdx index
        liveBytes := channel.liveBytes - dropped.elim 0 (·.bytes)
        droppedUnreported := channel.droppedUnreported + 1 }

theorem dropOldestLive_cases (channel : LogChannel τ) :
    (channel.dropOldestLive = none ∧ ∀ item ∈ channel.queue, item.isLive = false) ∨
    ∃ front item back, channel.queue = front ++ .data item :: back ∧ item.live = true ∧
      (∀ other ∈ front, other.isLive = false) ∧
      channel.dropOldestLive = some
        { channel with
          queue := front ++ back
          liveBytes := channel.liveBytes - item.bytes
          droppedUnreported := channel.droppedUnreported + 1 } := by
  unfold dropOldestLive
  cases found : channel.queue.findIdx? QueueItem.isLive with
  | none => exact .inl ⟨rfl, List.findIdx?_eq_none_iff.mp found⟩
  | some index =>
    right
    obtain ⟨inside, here, before⟩ := List.findIdx?_eq_some_iff_getElem.mp found
    have split : channel.queue =
        channel.queue.take index ++ channel.queue[index] :: channel.queue.drop (index + 1) := by
      rw [List.getElem_cons_drop, List.take_append_drop]
    cases head : channel.queue[index] with
    | json message =>
      rw [head] at here
      cases here
    | data item =>
      rw [head] at here split
      refine ⟨channel.queue.take index, item, channel.queue.drop (index + 1), split, here, ?_, ?_⟩
      · intro other member
        obtain ⟨i, small, rfl⟩ := List.mem_take_iff_getElem.mp member
        simpa using before i (by omega)
      · simp [List.getElem?_eq_getElem inside, head, QueueItem.data?, List.eraseIdx_eq_take_drop_succ]

theorem length_dropOldestLive {channel next : LogChannel τ} (dropped : channel.dropOldestLive = some next) :
    next.queue.length < channel.queue.length := by
  rcases channel.dropOldestLive_cases with ⟨none, _⟩ | ⟨front, item, back, queue, _, _, found⟩
  · rw [none] at dropped
    cases dropped
  · rw [found] at dropped
    cases dropped
    simp [queue]

/-- `while (liveBytes > FLEET_LOGS_PENDING_MAX_BYTES && dropOldestLive())` -/
def dropUntilFits (channel : LogChannel τ) : LogChannel τ :=
  if fleetLogsPendingMaxBytes < channel.liveBytes then
    match _dropped : channel.dropOldestLive with
    | some next => dropUntilFits next
    | none => channel
  else channel
termination_by channel.queue.length
decreasing_by exact length_dropOldestLive _dropped

def enqueueLive (channel : LogChannel τ) (line : EncodedLine τ) : LogChannel τ :=
  dropUntilFits
    { channel with
      queue := channel.queue ++ [.data ⟨line.text, line.bytes, true⟩]
      liveBytes := channel.liveBytes + line.bytes
      redactions := channel.redactions + line.redactions }

def refill (channel : LogChannel τ) (now : ℚ) : LogChannel τ :=
  let elapsed := max 0 (toDouble (now - channel.lastRefill))
  { channel with
    lastRefill := now
    tokens := min fleetLogsFollowBytesPerSec
      (toDouble (channel.tokens + toDouble (toDouble (elapsed * fleetLogsFollowBytesPerSec) / 1000))) }

def reportDropped (channel : LogChannel τ) (accepted : Bool) : Bool × LogChannel τ × List (Sent τ) :=
  if channel.droppedUnreported = 0 then (true, channel, [])
  else if accepted then
    (true, { channel with droppedUnreported := 0 }, [.dropped channel.droppedUnreported])
  else (false, channel, [])

/-- The items of the frame at the head of a queue, after `count` items of `size` bytes. -/
def frame (paused : Bool) : List (QueueItem τ) → Nat → Nat → List (DataItem τ)
  | [], _, _ => []
  | .json _ :: _, _, _ => []
  | .data item :: rest, count, size =>
    if item.live && paused then []
    else if 0 < count && fleetLogsMaxFrameBytes < size + item.bytes then []
    else item :: frame paused rest (count + 1) (size + item.bytes)

def totalBytes (items : List (DataItem τ)) : Nat := (items.map (·.bytes)).sum

def liveBytesOf (items : List (DataItem τ)) : Nat := totalBytes (items.filter (·.live))

def sendFrame (channel : LogChannel τ) (turn : Turn) : Bool × LogChannel τ × List (Sent τ) :=
  let items := frame channel.paused channel.queue 0 0
  let size := totalBytes items
  let refilled := channel.refill turn.now
  if refilled.tokens < size then (false, refilled, [])
  else if turn.accepted then
    (true,
      { refilled with
        tokens := toDouble (refilled.tokens - size)
        queue := refilled.queue.drop items.length
        liveBytes := refilled.liveBytes - liveBytesOf items
        bytesSent := refilled.bytesSent + size
        linesSent := refilled.linesSent + items.length },
      [.data items])
  else (false, refilled, [])

/-- One turn of the loop of `flush`, or what follows the loop: whether the loop goes on, the channel and
what was sent. -/
def flushTurn (channel : LogChannel τ) (turn : Turn) : Bool × LogChannel τ × List (Sent τ) :=
  match channel.queue with
  | [] => if channel.paused then (false, channel, []) else (false, (channel.reportDropped turn.reported).2)
  | .json message :: rest =>
    if turn.accepted then (true, { channel with queue := rest }, [.json message]) else (false, channel, [])
  | .data item :: _ =>
    if item.live && channel.paused then (false, channel, [])
    else if item.live then
      match channel.reportDropped turn.reported with
      | (false, same, notices) => (false, same, notices)
      | (true, reported, notices) =>
        let (goesOn, next, sent) := reported.sendFrame turn
        (goesOn, next, notices ++ sent)
    else channel.sendFrame turn

/-- `flush`, where the context refuses whatever the listed turns do not answer. -/
def flush (channel : LogChannel τ) : List Turn → LogChannel τ × List (Sent τ)
  | [] => (channel, [])
  | turn :: rest =>
    match channel.flushTurn turn with
    | (false, next, sent) => (next, sent)
    | (true, next, sent) =>
      let (last, later) := next.flush rest
      (last, sent ++ later)

/-- What an event does, and what it sends. `encode` writes a line. -/
def step (deps : LogDeps) (encode : RawLogLine → Nat → Bool → EncodedLine τ) (channel : LogChannel τ) :
    LogEvent → LogChannel τ × List (Sent τ)
  | .batch results lines follow => (channel.batch encode deps results lines follow, [])
  | .earlier src answer => (channel.earlier encode src answer, [])
  | .line line src => (channel.enqueueLive (encode line src false), [])
  | .notice kind hint src =>
    ({ channel with queue := channel.queue ++ [.json (.notice kind (shownHint hint) src)] }, [])
  | .ended src => ({ channel with okSources := channel.okSources.erase src }, [])
  | .pause => ({ channel with paused := true }, [])
  | .resume => ({ channel with paused := false }, [])
  | .flush turns => channel.flush turns

end LogChannel

/-- An open channel and all it has sent. -/
structure LogStream (τ : Type) where
  channel : LogChannel τ
  sent : List (Sent τ)
  deriving DecidableEq

namespace LogStream

def opened {τ : Type} (now : ℚ) : LogStream τ := ⟨.opened now, []⟩

/-- The channel as it runs, every line written by `encodeLogLine`. -/
def step (deps : LogDeps) (stream : LogStream Utf16) (event : LogEvent) : LogStream Utf16 :=
  let (channel, sent) := stream.channel.step deps (encodeLogLine deps) event
  ⟨channel, stream.sent ++ sent⟩

end LogStream

end EverWorks.Fleet
