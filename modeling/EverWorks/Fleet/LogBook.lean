import EverWorks.Fleet.LogQueue

/-!
What it means that every line is accounted for, and that sending keeps it so.
-/

namespace EverWorks.Fleet
open List

open Lib LogChannel

def LogHistory.Told (history : LogHistory) : Prop :=
  ∀ front frame back, history.sent = front ++ .data frame :: back →
    ∀ later ∈ liveNumbers frame, ∀ earlier ∈ history.lost, earlier < later →
      earlier ∈ (history.reports.take (dropCounts front).length).flatten

namespace LogLedger

def items (ledger : LogLedger) : List (DataItem Numbered) := ledger.sentItems ++ ledger.heldItems

def backlog (ledger : LogLedger) : Backlog where
  sent := liveNumbers ledger.sentItems
  held := liveNumbers ledger.heldItems
  lost := ledger.history.lost
  arrived := ledger.arrivals.length

/-- Every line is accounted for. -/
structure Accounted (ledger : LogLedger) : Prop where
  /-- A page's lines are sent or wait, once each and in order. -/
  pages : ∀ page lines, ledger.pages[page]? = some lines →
    pageLines page ledger.sentItems ++ pageLines page ledger.heldItems = lines
  /-- A live line is sent, waits or is lost, once; live lines leave in arrival order. -/
  backlog : ledger.backlog.Sound
  /-- Each dropped notice counts the lost lines it stands for, and the rest are owed. -/
  counts : dropCounts ledger.history.sent = ledger.history.reports.map List.length
  owed : ledger.channel.droppedUnreported = ledger.history.owed.length
  told : ledger.history.Told
  bytes : ledger.channel.liveBytes = liveBytesOf ledger.heldItems
  measured : ∀ item ∈ ledger.heldItems, item.bytes = Utf16.byteLength item.text.1
  /-- An item carries the line its number stands for. -/
  live_text : ∀ item ∈ ledger.items, item.live = true → ledger.arrivals[item.text.2]? = some item.text.1
  page_text : ∀ item ∈ ledger.items, item.live = false → item.text.2 < ledger.pages.length

structure Sound (ledger : LogLedger) : Prop extends Accounted ledger where
  ended : Ended ledger.channel.queue

def after (ledger : LogLedger) (channel : LogChannel Numbered) (sent : List (Sent Numbered)) : LogLedger :=
  { ledger with channel, history := sent.foldl LogHistory.tell ledger.history }

theorem mem_sentItems {ledger : LogLedger} {front back : List (Sent Numbered)} {frame : List (DataItem Numbered)}
    (sent : ledger.history.sent = front ++ .data frame :: back) {number : Nat}
    (inside : number ∈ liveNumbers frame) : number ∈ liveNumbers ledger.sentItems := by
  obtain ⟨item, member, live, rfl⟩ := mem_liveNumbers.mp inside
  refine mem_liveNumbers.mpr ⟨item, ?_, live, rfl⟩
  rw [sentItems, sent, mem_flatMap]
  exact ⟨.data frame, by simp, member⟩

theorem opened_sound (now : ℚ) : (opened now).Sound where
  pages := by simp [opened]
  backlog := Backlog.empty_sound
  counts := rfl
  owed := rfl
  told := by simp [opened, LogHistory.Told]
  bytes := rfl
  measured := by simp [opened, heldItems, LogChannel.opened]
  live_text := by simp [opened, items, sentItems, heldItems, LogChannel.opened]
  page_text := by simp [opened, items, sentItems, heldItems, LogChannel.opened]
  ended := trivial

theorem after_nil (ledger : LogLedger) : ledger.after ledger.channel [] = ledger := rfl

theorem after_append (ledger : LogLedger) (middle channel : LogChannel Numbered)
    (sent later : List (Sent Numbered)) :
    (ledger.after middle sent).after channel later = ledger.after channel (sent ++ later) := by
  simp [after]

theorem split_last {sent front back : List (Sent Numbered)} {last : Sent Numbered}
    {frame : List (DataItem Numbered)} (split : sent ++ [last] = front ++ .data frame :: back) :
    (front = sent ∧ last = .data frame) ∨ ∃ rest, sent = front ++ .data frame :: rest := by
  rcases eq_nil_or_concat back with rfl | ⟨rest, final, rfl⟩
  · obtain ⟨same, final⟩ := append_inj' split rfl
    exact .inl ⟨same.symm, by simpa using final⟩
  · have split : sent ++ [last] = (front ++ .data frame :: rest) ++ [final] := by simpa using split
    exact .inr ⟨rest, (append_inj' split rfl).1⟩

theorem told_tell {history : LogHistory} (told : history.Told) (last : Sent Numbered)
    (final : ∀ frame, last = .data frame → ∀ later ∈ liveNumbers frame, ∀ earlier ∈ history.lost,
      earlier < later → earlier ∈ (history.reports.take (dropCounts history.sent).length).flatten) :
    (history.tell last).Told := by
  have sent : (history.tell last).sent = history.sent ++ [last] := by cases last <;> rfl
  have lost : (history.tell last).lost = history.lost := by
    cases last <;> simp [LogHistory.tell, LogHistory.lost]
  have reports : history.reports <+: (history.tell last).reports := by
    cases last with
    | dropped count => exact prefix_append _ _
    | json message => exact prefix_refl _
    | data items => exact prefix_refl _
  intro front frame back split later inside earlier dropped less
  rw [sent] at split
  rw [lost] at dropped
  have before : earlier ∈ (history.reports.take (dropCounts front).length).flatten := by
    rcases split_last split with ⟨rfl, here⟩ | ⟨rest, split⟩
    · exact final frame here later inside earlier dropped less
    · exact told front frame rest split later inside earlier dropped less
  obtain ⟨report, listed, member⟩ := mem_flatten.mp before
  exact mem_flatten.mpr ⟨report, (reports.take _).subset listed, member⟩

variable {ledger : LogLedger} {next : LogChannel Numbered}

theorem Sound.still (sound : ledger.Sound) (queue : next.queue = ledger.channel.queue)
    (bytes : next.liveBytes = ledger.channel.liveBytes)
    (owed : next.droppedUnreported = ledger.channel.droppedUnreported) : (ledger.after next []).Sound := by
  have held : (ledger.after next []).heldItems = ledger.heldItems := congrArg held queue
  have sent : (ledger.after next []).sentItems = ledger.sentItems := rfl
  constructor
  case ended => exact queue ▸ sound.ended
  constructor
  case pages => rw [held]; exact sound.pages
  case backlog => rw [backlog, held]; exact sound.backlog
  case counts => exact sound.counts
  case owed => exact owed.trans sound.owed
  case told => exact sound.told
  case bytes => rw [held]; exact bytes.trans sound.bytes
  case measured => rw [held]; exact sound.measured
  case live_text => rw [items, held]; exact sound.live_text
  case page_text => rw [items, held]; exact sound.page_text

theorem Sound.json (sound : ledger.Sound) {message : LogMessage}
    (queue : ledger.channel.queue = .json message :: next.queue)
    (bytes : next.liveBytes = ledger.channel.liveBytes)
    (owed : next.droppedUnreported = ledger.channel.droppedUnreported) :
    (ledger.after next [.json message]).Sound := by
  have held : (ledger.after next [.json message]).heldItems = ledger.heldItems := by
    simp [after, heldItems, queue]
  have sent : (ledger.after next [.json message]).sentItems = ledger.sentItems := by
    simp [after, sentItems, LogHistory.tell, Sent.items]
  have counts : dropCounts (ledger.after next [.json message]).history.sent =
      dropCounts ledger.history.sent := by
    simp [after, LogHistory.tell, dropCounts, Sent.count?]
  have kept := sound.ended
  rw [queue] at kept
  constructor
  case ended => exact kept.2
  constructor
  case pages => rw [sent, held]; exact sound.pages
  case backlog => rw [backlog, sent, held]; exact sound.backlog
  case counts => exact counts.trans sound.counts
  case owed => exact owed.trans sound.owed
  case told => exact told_tell sound.told (.json message) (by simp)
  case bytes => rw [held]; exact bytes.trans sound.bytes
  case measured => rw [held]; exact sound.measured
  case live_text => rw [items, sent, held]; exact sound.live_text
  case page_text => rw [items, sent, held]; exact sound.page_text

theorem Sound.report (sound : ledger.Sound) (queue : next.queue = ledger.channel.queue)
    (bytes : next.liveBytes = ledger.channel.liveBytes) (owed : next.droppedUnreported = 0) :
    (ledger.after next [.dropped ledger.channel.droppedUnreported]).Sound := by
  have held : (ledger.after next [.dropped ledger.channel.droppedUnreported]).heldItems = ledger.heldItems :=
    congrArg held queue
  have sent : (ledger.after next [.dropped ledger.channel.droppedUnreported]).sentItems =
      ledger.sentItems := by
    simp [after, sentItems, LogHistory.tell, Sent.items]
  have lost : (ledger.after next [.dropped ledger.channel.droppedUnreported]).history.lost =
      ledger.history.lost := by
    simp [after, LogHistory.tell, LogHistory.lost]
  constructor
  case ended => exact queue ▸ sound.ended
  constructor
  case pages => rw [sent, held]; exact sound.pages
  case backlog => rw [backlog, sent, held, lost]; exact sound.backlog
  case counts =>
    have before := sound.counts
    simp [after, LogHistory.tell, dropCounts, Sent.count?] at before ⊢
    simp [before, sound.owed]
  case owed => exact owed
  case told => exact told_tell sound.told (.dropped ledger.channel.droppedUnreported) (by simp)
  case bytes => rw [held]; exact bytes.trans sound.bytes
  case measured => rw [held]; exact sound.measured
  case live_text => rw [items, sent, held]; exact sound.live_text
  case page_text => rw [items, sent, held]; exact sound.page_text

theorem Sound.frame (sound : ledger.Sound) {frame : List (DataItem Numbered)}
    (queue : ledger.channel.queue = frame.map .data ++ next.queue)
    (bytes : next.liveBytes = ledger.channel.liveBytes - liveBytesOf frame)
    (owed : next.droppedUnreported = ledger.channel.droppedUnreported)
    (told : (∃ item ∈ frame, item.live = true) → ledger.channel.droppedUnreported = 0) :
    (ledger.after next [.data frame]).Sound := by
  have held : ledger.heldItems = frame ++ (ledger.after next [.data frame]).heldItems := by
    simp [after, heldItems, queue]
  have sent : (ledger.after next [.data frame]).sentItems = ledger.sentItems ++ frame := by
    simp [after, sentItems, LogHistory.tell, Sent.items]
  have same : (ledger.after next [.data frame]).items = ledger.items := by
    rw [items, sent, items, held, append_assoc]
  have counts : dropCounts (ledger.after next [.data frame]).history.sent =
      dropCounts ledger.history.sent := by
    simp [after, LogHistory.tell, dropCounts, Sent.count?]
  have kept := sound.ended
  rw [queue] at kept
  constructor
  case ended => exact kept.back
  constructor
  case pages =>
    intro page lines here
    have before := sound.pages page lines here
    rw [held, pageLines_append, ← append_assoc] at before
    rw [sent, pageLines_append]
    exact before
  case backlog =>
    have split : ledger.backlog.held = liveNumbers frame ++
        liveNumbers (ledger.after next [.data frame]).heldItems := by
      rw [backlog, held, liveNumbers_append]
    have moved := (Backlog.Step.send split).sound sound.backlog
    rw [backlog, sent, liveNumbers_append]
    exact moved
  case counts => exact counts.trans sound.counts
  case owed => exact owed.trans sound.owed
  case told =>
    refine told_tell sound.told (.data frame) fun other same later inside earlier dropped _ => ?_
    cases same
    obtain ⟨item, member, live, -⟩ := mem_liveNumbers.mp inside
    have none : ledger.history.owed = [] := by
      rw [← length_eq_zero_iff, ← sound.owed]
      exact told ⟨item, member, live⟩
    rw [sound.counts, length_map, take_length]
    simpa [LogHistory.lost, none] using dropped
  case bytes =>
    have before := sound.bytes
    rw [held, liveBytesOf_append] at before
    show next.liveBytes = _
    omega
  case measured =>
    intro item inside
    exact sound.measured item (by rw [held]; exact mem_append_right _ inside)
  case live_text => rw [same]; exact sound.live_text
  case page_text => rw [same]; exact sound.page_text

theorem Sound.move {sent : List (Sent Numbered)} (sound : ledger.Sound)
    (move : Move ledger.channel sent next) : (ledger.after next sent).Sound := by
  cases move with
  | still queue bytes owed => exact sound.still queue bytes owed
  | json queue bytes owed => exact sound.json queue bytes owed
  | report queue bytes owed => exact sound.report queue bytes owed
  | frame queue bytes owed told => exact sound.frame queue bytes owed told

theorem Sound.moves {channel : LogChannel Numbered} {sent : List (Sent Numbered)} (sound : ledger.Sound)
    (start : ledger.channel = channel) (moves : Moves channel sent next) : (ledger.after next sent).Sound := by
  induction moves generalizing ledger with
  | refl => exact start ▸ sound
  | head move _ ih =>
    rw [← after_append]
    exact ih (sound.move (start ▸ move)) rfl

end LogLedger

end EverWorks.Fleet
