import EverWorks.Fleet.LogLedger

/-!
The lines among the items of a queue, the shape that keeps a live line out of a frame a page's line
starts, and what a flush does to the queue, one thing at a time.
-/

namespace EverWorks.Fleet
open List QueueItem

open Lib LogChannel

section Items

variable {τ : Type}

@[simp] theorem held_nil : held ([] : List (QueueItem τ)) = [] := rfl

@[simp] theorem held_append (front back : List (QueueItem τ)) : held (front ++ back) = held front ++ held back :=
  filterMap_append

@[simp] theorem held_data (item : DataItem τ) (rest : List (QueueItem τ)) :
    held (.data item :: rest) = item :: held rest := rfl

@[simp] theorem held_json (message : LogMessage) (rest : List (QueueItem τ)) :
    held (.json message :: rest) = held rest := rfl

@[simp] theorem held_map_data (items : List (DataItem τ)) : held (items.map .data) = items := by
  simp [held, filterMap_map, Function.comp_def, data?]

@[simp] theorem held_map_json (messages : List LogMessage) :
    held (messages.map (json : LogMessage → QueueItem τ)) = [] := by
  simp [held, filterMap_map, Function.comp_def, data?]

theorem held_pageItems (lines : List (EncodedLine τ)) :
    held (pageItems lines) = lines.map fun line => ⟨line.text, line.bytes, false⟩ := by
  simp [held, pageItems, filterMap_map, Function.comp_def, data?]

@[simp] theorem liveNumbers_append (front back : List (DataItem Numbered)) :
    liveNumbers (front ++ back) = liveNumbers front ++ liveNumbers back := by
  simp [liveNumbers]

@[simp] theorem pageLines_append (page : Nat) (front back : List (DataItem Numbered)) :
    pageLines page (front ++ back) = pageLines page front ++ pageLines page back := by
  simp [pageLines]

@[simp] theorem liveBytesOf_append (front back : List (DataItem τ)) :
    liveBytesOf (front ++ back) = liveBytesOf front + liveBytesOf back := by
  simp [liveBytesOf, totalBytes]

variable {items : List (DataItem Numbered)}

theorem liveNumbers_of_pages (pages : ∀ item ∈ items, item.live = false) :
    liveNumbers items = [] := by
  have none : items.filter (·.live) = [] := filter_eq_nil_iff.mpr (by simpa using pages)
  simp [liveNumbers, none]

theorem liveBytesOf_of_pages {items : List (DataItem τ)} (pages : ∀ item ∈ items, item.live = false) :
    liveBytesOf items = 0 := by
  have none : items.filter (·.live) = [] := filter_eq_nil_iff.mpr (by simpa using pages)
  simp [liveBytesOf, totalBytes, none]

theorem pageLines_other {page : Nat}
    (other : ∀ item ∈ items, item.live = false → item.text.2 ≠ page) : pageLines page items = [] := by
  have none : items.filter (fun item => !item.live && item.text.2 == page) = [] := by
    refine filter_eq_nil_iff.mpr fun item inside => ?_
    cases live : item.live with
    | true => simp
    | false => simpa using other item inside live
  simp [pageLines, none]

theorem pageLines_own {page : Nat}
    (own : ∀ item ∈ items, item.live = false ∧ item.text.2 = page) :
    pageLines page items = items.map (·.text.1) := by
  have all : items.filter (fun item => !item.live && item.text.2 == page) = items := by
    refine filter_eq_self.mpr fun item inside => ?_
    obtain ⟨notLive, here⟩ := own item inside
    simp [notLive, here]
  rw [pageLines, all]

theorem mem_liveNumbers {number : Nat} :
    number ∈ liveNumbers items ↔ ∃ item ∈ items, item.live = true ∧ item.text.2 = number := by
  simp [liveNumbers, and_assoc]

@[simp] theorem dropCounts_append (front back : List (Sent τ)) :
    dropCounts (front ++ back) = dropCounts front ++ dropCounts back := filterMap_append

def QueueItem.isPage : QueueItem τ → Bool
  | data item => !item.live
  | json _ => false

def Ended : List (QueueItem τ) → Prop
  | [] => True
  | item :: rest => (item.isPage = true → rest.head?.map isLive = some false) ∧ Ended rest

theorem Ended.append {front back : List (QueueItem τ)} (first : Ended front) (second : Ended back) :
    Ended (front ++ back) := by
  induction front with
  | nil => exact second
  | cons item rest ih =>
    refine ⟨fun page => ?_, ih first.2⟩
    have next := first.1 page
    cases rest with
    | nil => cases next
    | cons after rest => exact next

theorem Ended.back {front back : List (QueueItem τ)} (ended : Ended (front ++ back)) : Ended back := by
  induction front with
  | nil => exact ended
  | cons item rest ih => exact ih ended.2

theorem Ended.remove {front back : List (QueueItem τ)} {item : DataItem τ} (live : item.live = true)
    (ended : Ended (front ++ .data item :: back)) : Ended (front ++ back) := by
  induction front with
  | nil => exact ended.2
  | cons other rest ih =>
    refine ⟨fun page => ?_, ih ended.2⟩
    have next := ended.1 page
    cases rest with
    | nil => simp [isLive, live] at next
    | cons after rest => exact next

theorem ended_of_none {items : List (QueueItem τ)} (none : ∀ item ∈ items, item.isPage = false) :
    Ended items := by
  induction items with
  | nil => trivial
  | cons item rest ih =>
    refine ⟨fun page => ?_, ih fun other inside => none other (mem_cons_of_mem _ inside)⟩
    rw [none item mem_cons_self] at page
    cases page

theorem ended_page (lines : List (EncodedLine τ)) (done : LogMessage) :
    Ended (pageItems lines ++ [.json done]) := by
  induction lines with
  | nil => exact ended_of_none (by simp [pageItems, isPage])
  | cons line rest ih =>
    refine ⟨fun _ => ?_, ih⟩
    cases rest <;> rfl

theorem frame_front (paused : Bool) (queue : List (QueueItem τ)) (count size : Nat) :
    queue = (frame paused queue count size).map .data ++ queue.drop (frame paused queue count size).length := by
  induction queue generalizing count size with
  | nil => rfl
  | cons item rest ih =>
    cases item with
    | json message => rfl
    | data item =>
      rw [frame]
      split
      · rfl
      · split
        · rfl
        · simpa using ih (count + 1) (size + item.bytes)

theorem frame_of_page {paused : Bool} {queue : List (QueueItem τ)} {count size : Nat} (ended : Ended queue)
    (first : queue.head?.map isLive = some false) :
    ∀ item ∈ frame paused queue count size, item.live = false := by
  induction queue generalizing count size with
  | nil => simp [frame]
  | cons item rest ih =>
    cases item with
    | json message => simp [frame]
    | data item =>
      have notLive : item.live = false := by simpa [isLive] using first
      rw [frame]
      split
      · simp
      · split
        · simp
        · intro other inside
          rcases mem_cons.mp inside with rfl | later
          · exact notLive
          · exact ih ended.2 (ended.1 (by simp [isPage, notLive])) other later

end Items

inductive Move {τ : Type} : LogChannel τ → List (Sent τ) → LogChannel τ → Prop where
  | still {channel next : LogChannel τ} (queue : next.queue = channel.queue)
    (bytes : next.liveBytes = channel.liveBytes)
    (owed : next.droppedUnreported = channel.droppedUnreported) : Move channel [] next
  | json {channel next : LogChannel τ} {message : LogMessage} (queue : channel.queue = .json message :: next.queue)
    (bytes : next.liveBytes = channel.liveBytes)
    (owed : next.droppedUnreported = channel.droppedUnreported) : Move channel [.json message] next
  | report {channel next : LogChannel τ} (queue : next.queue = channel.queue)
    (bytes : next.liveBytes = channel.liveBytes) (owed : next.droppedUnreported = 0) :
    Move channel [.dropped channel.droppedUnreported] next
  | frame {channel next : LogChannel τ} {items : List (DataItem τ)}
    (queue : channel.queue = items.map .data ++ next.queue)
    (bytes : next.liveBytes = channel.liveBytes - liveBytesOf items)
    (owed : next.droppedUnreported = channel.droppedUnreported)
    (told : (∃ item ∈ items, item.live = true) → channel.droppedUnreported = 0) :
    Move channel [.data items] next

inductive Moves {τ : Type} : LogChannel τ → List (Sent τ) → LogChannel τ → Prop where
  | refl (channel : LogChannel τ) : Moves channel [] channel
  | head {channel middle last : LogChannel τ} {sent later : List (Sent τ)} (move : Move channel sent middle)
    (moves : Moves middle later last) : Moves channel (sent ++ later) last

section Flush

variable {τ : Type} {channel next : LogChannel τ} {sent : List (Sent τ)}

theorem Move.moves (move : Move channel sent next) : Moves channel sent next := by
  simpa using Moves.head move (.refl next)

theorem Moves.trans {last : LogChannel τ} {later : List (Sent τ)} (first : Moves channel sent next)
    (second : Moves next later last) : Moves channel (sent ++ later) last := by
  induction first with
  | refl => exact second
  | head move _ ih =>
    rw [append_assoc]
    exact .head move (ih second)

theorem Move.ended (move : Move channel sent next) (ended : Ended channel.queue) : Ended next.queue := by
  cases move with
  | still queue => rw [queue]; exact ended
  | json queue =>
    rw [queue] at ended
    exact ended.2
  | report queue => rw [queue]; exact ended
  | frame queue =>
    rw [queue] at ended
    exact ended.back

theorem Moves.ended (moves : Moves channel sent next) (ended : Ended channel.queue) : Ended next.queue := by
  induction moves with
  | refl => exact ended
  | head move _ ih => exact ih (move.ended ended)

theorem reportDropped_moves (channel : LogChannel τ) (accepted : Bool) :
    Moves channel (channel.reportDropped accepted).2.2 (channel.reportDropped accepted).2.1 ∧
      ((channel.reportDropped accepted).1 = true →
        (channel.reportDropped accepted).2.1.droppedUnreported = 0) ∧
      (channel.reportDropped accepted).2.1.queue = channel.queue := by
  unfold reportDropped
  split
  case isTrue none => exact ⟨.refl channel, fun _ => none, rfl⟩
  case isFalse =>
    split
    · refine ⟨?_, fun _ => rfl, rfl⟩
      apply Move.moves
      exact .report rfl rfl rfl
    · exact ⟨.refl channel, by simp, rfl⟩

theorem sendFrame_moves (turn : Turn)
    (told : (∃ item ∈ frame channel.paused channel.queue 0 0, item.live = true) →
      channel.droppedUnreported = 0) :
    Moves channel (channel.sendFrame turn).2.2 (channel.sendFrame turn).2.1 := by
  have still : Move channel [] (channel.refill turn.now) := .still rfl rfl rfl
  unfold sendFrame
  simp only []
  split
  · exact still.moves
  · split
    · apply Move.moves
      exact .frame (frame_front _ _ _ _) rfl rfl told
    · exact still.moves

theorem flushTurn_moves (turn : Turn) (ended : Ended channel.queue) :
    Moves channel (channel.flushTurn turn).2.2 (channel.flushTurn turn).2.1 := by
  unfold flushTurn
  cases queue : channel.queue with
  | nil =>
    simp only []
    split
    · exact .refl channel
    · exact (reportDropped_moves channel turn.reported).1
  | cons item rest =>
    cases item with
    | json message =>
      simp only []
      split
      · apply Move.moves
        exact .json queue rfl rfl
      · exact .refl channel
    | data item =>
      simp only []
      split
      · exact .refl channel
      · split
        · obtain ⟨moves, told, same⟩ := reportDropped_moves channel turn.reported
          generalize channel.reportDropped turn.reported = answer at moves told same
          obtain ⟨done, reported, notices⟩ := answer
          cases done with
          | false => exact moves
          | true => exact moves.trans (sendFrame_moves turn fun _ => told rfl)
        · case isFalse notLive =>
          refine sendFrame_moves turn fun ⟨other, inside, live⟩ => ?_
          have page := frame_of_page ended (by simpa [queue, isLive] using notLive) other inside
          rw [page] at live
          cases live

theorem flush_moves (turns : List Turn) (ended : Ended channel.queue) :
    Moves channel (channel.flush turns).2 (channel.flush turns).1 := by
  induction turns generalizing channel with
  | nil => exact .refl channel
  | cons turn rest ih =>
    have moves := flushTurn_moves turn ended
    rw [flush]
    generalize channel.flushTurn turn = answer at moves
    obtain ⟨goesOn, next, sent⟩ := answer
    cases goesOn with
    | false => exact moves
    | true => exact moves.trans (ih (moves.ended ended))

theorem Moves.liveBytes_le (moves : Moves channel sent next) : next.liveBytes ≤ channel.liveBytes := by
  induction moves with
  | refl => exact le_refl _
  | head move _ ih =>
    refine ih.trans ?_
    cases move <;> omega

end Flush

end EverWorks.Fleet
