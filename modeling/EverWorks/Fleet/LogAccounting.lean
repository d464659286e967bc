import EverWorks.Fleet.LogBook

/-!
Whatever the order of calls and the answers of the context, a page's lines leave in order and none is dropped; a live
line is sent, waits, or stands in exactly one dropped notice, which goes before any later live line.
-/

namespace EverWorks.Fleet
open List

open Lib LogChannel

namespace LogLedger

variable {ledger : LogLedger} {next : LogChannel Numbered}

theorem Sound.insert (sound : ledger.Sound) (front back : List (QueueItem Numbered))
    (page : Option (List Utf16)) (queue : next.queue = front ++ (ledger.channel.queue ++ back))
    (bytes : next.liveBytes = ledger.channel.liveBytes)
    (owed : next.droppedUnreported = ledger.channel.droppedUnreported)
    (first : Ended front) (final : Ended back)
    (added : ∀ item ∈ held front ++ held back, item.live = false ∧ item.text.2 = ledger.pages.length ∧
      item.bytes = Utf16.byteLength item.text.1)
    (texts : (held front ++ held back).map (·.text.1) = page.getD []) :
    Sound { ledger with channel := next, pages := ledger.pages ++ page.toList } := by
  set later : LogLedger := { ledger with channel := next, pages := ledger.pages ++ page.toList } with eq
  have sent : later.sentItems = ledger.sentItems := rfl
  have waits : later.heldItems = held front ++ (ledger.heldItems ++ held back) := by
    simp [eq, heldItems, queue]
  have inFront : ∀ item ∈ held front, item.live = false ∧ item.text.2 = ledger.pages.length ∧
      item.bytes = Utf16.byteLength item.text.1 := fun item inside => added item (mem_append_left _ inside)
  have inBack : ∀ item ∈ held back, item.live = false ∧ item.text.2 = ledger.pages.length ∧
      item.bytes = Utf16.byteLength item.text.1 := fun item inside => added item (mem_append_right _ inside)
  have from_items : ∀ item ∈ later.items, item ∈ ledger.items ∨
      (item.live = false ∧ item.text.2 = ledger.pages.length ∧ page ≠ none) := by
    intro item inside
    have some : item ∈ held front ++ held back → page ≠ none := by
      rintro member rfl
      rw [map_eq_nil_iff.mp texts] at member
      cases member
    rw [items, sent, waits] at inside
    simp only [mem_append] at inside some
    rcases inside with before | here | before | here
    · exact .inl (mem_append_left _ before)
    · exact .inr ⟨(inFront item here).1, (inFront item here).2.1, some (.inl here)⟩
    · exact .inl (mem_append_right _ before)
    · exact .inr ⟨(inBack item here).1, (inBack item here).2.1, some (.inr here)⟩
  constructor
  case ended =>
    show Ended next.queue
    rw [queue]
    exact first.append (sound.ended.append final)
  constructor
  case pages =>
    intro k lines here
    rw [sent, waits]
    simp only [pageLines_append]
    have here : (ledger.pages ++ page.toList)[k]? = some lines := here
    rcases Nat.lt_trichotomy k ledger.pages.length with small | rfl | large
    · rw [getElem?_append_left small] at here
      have noFront : pageLines k (held front) = [] :=
        pageLines_other fun item inside _ => by have := (inFront item inside).2.1; omega
      have noBack : pageLines k (held back) = [] :=
        pageLines_other fun item inside _ => by have := (inBack item inside).2.1; omega
      simpa [noFront, noBack] using sound.pages k lines here
    · have before : ∀ item ∈ ledger.items, item.live = false → item.text.2 ≠ ledger.pages.length :=
        fun item inside notLive => (sound.page_text item inside notLive).ne
      have notSent : pageLines ledger.pages.length ledger.sentItems = [] :=
        pageLines_other fun item inside => before item (mem_append_left _ inside)
      have notHeld : pageLines ledger.pages.length ledger.heldItems = [] :=
        pageLines_other fun item inside => before item (mem_append_right _ inside)
      rw [notSent, notHeld,
        pageLines_own fun item inside => ⟨(inFront item inside).1, (inFront item inside).2.1⟩,
        pageLines_own fun item inside => ⟨(inBack item inside).1, (inBack item inside).2.1⟩]
      cases page with
      | none => simp at here
      | some own =>
        obtain rfl : own = lines := by simpa using here
        simpa using texts
    · rw [getElem?_append_right large.le] at here
      cases page with
      | none => simp at here
      | some own =>
        rw [Option.toList_some, getElem?_eq_none (by simp; omega)] at here
        cases here
  case backlog =>
    have same : liveNumbers later.heldItems = liveNumbers ledger.heldItems := by
      rw [waits, liveNumbers_append, liveNumbers_append,
        liveNumbers_of_pages fun item inside => (inFront item inside).1,
        liveNumbers_of_pages fun item inside => (inBack item inside).1]
      simp
    rw [backlog, same]
    exact sound.backlog
  case counts => exact sound.counts
  case owed => exact owed.trans sound.owed
  case told => exact sound.told
  case bytes =>
    rw [waits, liveBytesOf_append, liveBytesOf_append,
      liveBytesOf_of_pages fun item inside => (inFront item inside).1,
      liveBytesOf_of_pages fun item inside => (inBack item inside).1]
    simpa using bytes.trans sound.bytes
  case measured =>
    intro item inside
    rw [waits] at inside
    simp only [mem_append] at inside
    rcases inside with here | before | here
    · exact (inFront item here).2.2
    · exact sound.measured item before
    · exact (inBack item here).2.2
  case live_text =>
    intro item inside live
    rcases from_items item inside with before | ⟨notLive, _⟩
    · exact sound.live_text item before live
    · rw [live] at notLive
      cases notLive
  case page_text =>
    intro item inside notLive
    show item.text.2 < (ledger.pages ++ page.toList).length
    rw [length_append]
    rcases from_items item inside with before | ⟨_, here, some⟩
    · have := sound.page_text item before notLive
      omega
    · cases page with
      | none => exact absurd rfl some
      | some own => simp [here]

theorem Sound.arrive (sound : ledger.Sound) {line : EncodedLine Utf16}
    (queue : next.queue = ledger.channel.queue ++
      [.data ⟨(line.text, ledger.arrivals.length), line.bytes, true⟩])
    (bytes : next.liveBytes = ledger.channel.liveBytes + line.bytes)
    (owed : next.droppedUnreported = ledger.channel.droppedUnreported)
    (measured : line.bytes = Utf16.byteLength line.text) :
    Sound { ledger with channel := next, arrivals := ledger.arrivals ++ [line.text] } := by
  set arrived : DataItem Numbered := ⟨(line.text, ledger.arrivals.length), line.bytes, true⟩ with item
  set later : LogLedger := { ledger with channel := next, arrivals := ledger.arrivals ++ [line.text] } with eq
  have sent : later.sentItems = ledger.sentItems := rfl
  have waits : later.heldItems = ledger.heldItems ++ [arrived] := by simp [eq, heldItems, queue]
  have all : later.items = ledger.items ++ [arrived] := by
    rw [items, sent, waits, items, append_assoc]
  constructor
  case ended =>
    show Ended next.queue
    rw [queue]
    exact sound.ended.append (ended_of_none (by simp [QueueItem.isPage, item]))
  constructor
  case pages =>
    intro page lines here
    have own : pageLines page [arrived] = [] := pageLines_other (by simp [item])
    rw [sent, waits, pageLines_append, own, append_nil]
    exact sound.pages page lines here
  case backlog =>
    have grown := (Backlog.Step.arrive ledger.backlog).sound sound.backlog
    have numbers : liveNumbers later.heldItems = liveNumbers ledger.heldItems ++ [ledger.arrivals.length] := by
      rw [waits, liveNumbers_append]
      simp [liveNumbers, item]
    have count : later.arrivals.length = ledger.arrivals.length + 1 := by simp [eq]
    rw [backlog, sent, numbers, count]
    exact grown
  case counts => exact sound.counts
  case owed => exact owed.trans sound.owed
  case told => exact sound.told
  case bytes =>
    have before := sound.bytes
    have own : liveBytesOf [arrived] = line.bytes := by simp [liveBytesOf, totalBytes, item]
    rw [waits, liveBytesOf_append, own]
    show next.liveBytes = _
    omega
  case measured =>
    intro other inside
    rw [waits] at inside
    rcases mem_append.mp inside with before | here
    · exact sound.measured other before
    · obtain rfl := mem_singleton.mp here
      exact measured
  case live_text =>
    intro other inside live
    rw [all] at inside
    rcases mem_append.mp inside with before | here
    · have found := sound.live_text other before live
      show (ledger.arrivals ++ [line.text])[other.text.2]? = _
      rw [getElem?_append_left (List.getElem?_eq_some_iff.mp found).1]
      exact found
    · obtain rfl := mem_singleton.mp here
      simp [eq, item]
  case page_text =>
    intro other inside notLive
    rw [all] at inside
    rcases mem_append.mp inside with before | here
    · exact sound.page_text other before notLive
    · obtain rfl := mem_singleton.mp here
      cases notLive

theorem Sound.drop (sound : ledger.Sound) (dropped : ledger.channel.dropOldestLive = some next) :
    ∃ number, liveNumbers ledger.heldItems = number :: liveNumbers (held next.queue) ∧
      Sound { ledger with
        channel := next, history := { ledger.history with owed := ledger.history.owed ++ [number] } } := by
  rcases ledger.channel.dropOldestLive_cases with ⟨none, _⟩ | ⟨front, item, back, queue, live, others, found⟩
  · rw [none] at dropped
    cases dropped
  rw [found] at dropped
  obtain rfl := Option.some.inj dropped
  have waited : ledger.heldItems = held front ++ item :: held back := by simp [heldItems, queue]
  have notLive : ∀ other ∈ held front, other.live = false := by
    intro other inside
    obtain ⟨place, member, same⟩ := mem_filterMap.mp inside
    cases place with
    | json message => cases same
    | data data =>
      obtain rfl := Option.some.inj same
      exact others _ member
  have split : liveNumbers ledger.heldItems = item.text.2 :: liveNumbers (held (front ++ back)) := by
    rw [waited, held_append, liveNumbers_append, liveNumbers_append, liveNumbers_of_pages notLive]
    simp [liveNumbers, live]
  refine ⟨item.text.2, split, ?_⟩
  set later : LogLedger := { ledger with
    channel := _
    history := { ledger.history with owed := ledger.history.owed ++ [item.text.2] } } with eq
  have sent : later.sentItems = ledger.sentItems := rfl
  have waits : later.heldItems = held front ++ held back := by simp [eq, heldItems]
  have lost : later.history.lost = ledger.history.lost ++ [item.text.2] := by simp [eq, LogHistory.lost]
  have fewer : ∀ other ∈ later.heldItems, other ∈ ledger.heldItems := by
    rw [waits, waited]
    exact ((sublist_cons_self item (held back)).append_left (held front)).subset
  have kept : ∀ other ∈ later.items, other ∈ ledger.items := by
    intro other inside
    rcases mem_append.mp inside with before | here
    · exact mem_append_left _ before
    · exact mem_append_right _ (fewer other here)
  constructor
  case ended =>
    have ended := sound.ended
    rw [queue] at ended
    exact ended.remove live
  constructor
  case pages =>
    intro page lines here
    have before := sound.pages page lines here
    have own : pageLines page [item] = [] := pageLines_other (by simp [live])
    rw [waited, ← singleton_append, pageLines_append, pageLines_append, own, nil_append,
      ← pageLines_append] at before
    rw [sent, waits]
    exact before
  case backlog =>
    have step : Backlog.Step ledger.backlog _ := .drop split
    have fewer := step.sound sound.backlog
    have numbers : liveNumbers later.heldItems = liveNumbers (held (front ++ back)) := rfl
    rw [backlog, sent, numbers, lost]
    exact fewer
  case counts => exact sound.counts
  case owed =>
    have before := sound.owed
    simp [eq, before]
  case told =>
    intro first frame rest same newer inside earlier gone less
    rw [lost] at gone
    rcases mem_append.mp gone with before | here
    · exact sound.told first frame rest same newer inside earlier before less
    · -- What is dropped now waited until now, so it arrived after all that was sent.
      obtain rfl := mem_singleton.mp here
      have ordered := (pairwise_append.mp sound.backlog.ordered).2.2 newer (mem_sentItems same inside)
        item.text.2 (by rw [backlog, split]; exact mem_cons_self)
      omega
  case bytes =>
    have before := sound.bytes
    have own : liveBytesOf [item] = item.bytes := by simp [liveBytesOf, totalBytes, live]
    rw [waited, ← singleton_append, liveBytesOf_append, liveBytesOf_append, own] at before
    rw [waits, liveBytesOf_append]
    show ledger.channel.liveBytes - item.bytes = _
    omega
  case measured => exact fun other inside => sound.measured other (fewer other inside)
  case live_text => exact fun other inside => sound.live_text other (kept other inside)
  case page_text => exact fun other inside => sound.page_text other (kept other inside)

theorem Sound.dropUntilFits {channel : LogChannel Numbered} (sound : ledger.Sound)
    (start : ledger.channel = channel) :
    channel.dropUntilFits.liveBytes ≤ fleetLogsPendingMaxBytes ∧
    ∃ gone, liveNumbers ledger.heldItems = gone ++ liveNumbers (held channel.dropUntilFits.queue) ∧
      Sound { ledger with
        channel := channel.dropUntilFits
        history := { ledger.history with owed := ledger.history.owed ++ gone } } := by
  fun_induction LogChannel.dropUntilFits channel generalizing ledger with
  | case1 channel above next dropped ih =>
    obtain ⟨number, split, kept⟩ := sound.drop (start ▸ dropped)
    obtain ⟨fits, gone, rest, final⟩ := ih kept rfl
    refine ⟨fits, number :: gone, ?_, ?_⟩
    · rw [split]
      exact congrArg (number :: ·) rest
    · simpa using final
  | case2 channel above none =>
    subst start
    refine ⟨?_, [], rfl, by simpa using sound⟩
    rcases ledger.channel.dropOldestLive_cases with ⟨_, noLive⟩ | ⟨_, _, _, _, _, _, found⟩
    · have empty : liveBytesOf ledger.heldItems = 0 := by
        refine liveBytesOf_of_pages fun item inside => ?_
        obtain ⟨place, member, same⟩ := mem_filterMap.mp inside
        cases place with
        | json message => cases same
        | data data =>
          obtain rfl := Option.some.inj same
          exact noLive _ member
      rw [sound.bytes, empty]
      exact Int.natCast_nonneg _
    · rw [none] at found
      cases found
  | case3 channel fits =>
    subst start
    exact ⟨by omega, [], rfl, by simpa using sound⟩

theorem gone_line (ledger : LogLedger) (channel : LogChannel Numbered) (raw : RawLogLine) (src : Nat) :
    ledger.gone channel (.line raw src) =
      (liveNumbers ledger.heldItems ++ [ledger.arrivals.length]).filter
        fun number => number ∉ liveNumbers (held channel.queue) := rfl

theorem filter_gone {gone rest : List Nat} (nodup : (gone ++ rest).Nodup) :
    (gone ++ rest).filter (fun number => number ∉ rest) = gone := by
  have disjoint := (nodup_append.mp nodup).2.2
  rw [filter_append, filter_eq_self.mpr, filter_eq_nil_iff.mpr, append_nil]
  · simp
  · intro number inside
    simpa using fun here => disjoint number inside number here rfl

theorem Sound.enqueueLive (sound : ledger.Sound) {line : EncodedLine Utf16}
    (measured : line.bytes = Utf16.byteLength line.text) (raw : RawLogLine) (src : Nat)
    (came : next = ledger.channel.enqueueLive
      ⟨(line.text, ledger.arrivals.length), line.bytes, line.redactions⟩) :
    next.liveBytes ≤ fleetLogsPendingMaxBytes ∧
    Sound { ledger with
      channel := next
      history := { ledger.history with owed := ledger.history.owed ++ ledger.gone next (.line raw src) }
      arrivals := ledger.arrivals ++ [line.text] } := by
  obtain ⟨pushed, queue, bytes, owed, came⟩ : ∃ pushed : LogChannel Numbered,
      pushed.queue = ledger.channel.queue ++ [.data ⟨(line.text, ledger.arrivals.length), line.bytes, true⟩] ∧
      pushed.liveBytes = ledger.channel.liveBytes + line.bytes ∧
      pushed.droppedUnreported = ledger.channel.droppedUnreported ∧ next = pushed.dropUntilFits :=
    ⟨{ ledger.channel with
        queue := ledger.channel.queue ++ [.data ⟨(line.text, ledger.arrivals.length), line.bytes, true⟩]
        liveBytes := ledger.channel.liveBytes + line.bytes
        redactions := ledger.channel.redactions + line.redactions }, rfl, rfl, rfl, came⟩
  have grown := sound.arrive queue bytes owed measured
  obtain ⟨fits, gone, split, final⟩ := grown.dropUntilFits rfl
  rw [← came] at fits split final
  have waiting : liveNumbers ledger.heldItems ++ [ledger.arrivals.length] =
      gone ++ liveNumbers (held next.queue) := by
    rw [← split]
    show _ = liveNumbers (held pushed.queue)
    rw [queue, held_append, liveNumbers_append]
    rfl
  have nodup : (gone ++ liveNumbers (held next.queue)).Nodup := by
    rw [← split]
    exact (pairwise_append.mp grown.backlog.ordered).2.1.imp Nat.ne_of_lt
  rw [gone_line, waiting, filter_gone nodup]
  exact ⟨fits, final⟩

variable (deps : LogDeps)

theorem Sound.line (sound : ledger.Sound) (raw : RawLogLine) (src : Nat) :
    (ledger.step deps (.line raw src)).Sound ∧
      (ledger.step deps (.line raw src)).channel.liveBytes ≤ fleetLogsPendingMaxBytes := by
  have same : ledger.step deps (.line raw src) =
      { ledger with
        channel := ledger.channel.enqueueLive (encodeNumbered deps ledger.arrivals.length raw src false)
        history := { ledger.history with
          owed := ledger.history.owed ++ ledger.gone (ledger.channel.enqueueLive
            (encodeNumbered deps ledger.arrivals.length raw src false)) (.line raw src) }
        arrivals := ledger.arrivals ++ [(encodeLogLine deps raw src false).text]
        pages := ledger.pages ++ [] } := rfl
  rw [same, append_nil]
  exact (sound.enqueueLive (encodeLogLine_bytes deps raw src false) raw src rfl).symm

theorem step_insert {event : LogEvent} (noLine : event.arrival deps = none)
    (step : ledger.channel.step deps (encodeNumbered deps (ledger.number event)) event = (next, [])) :
    ledger.step deps event =
      { ledger with channel := next, pages := ledger.pages ++ (event.page deps).toList } := by
  cases event with
  | line raw src => cases noLine
  | _ => simp [LogLedger.step, step, gone, noLine]

theorem Sound.batch (sound : ledger.Sound) (results : List (Except LogError LogBatch))
    (lines : LineCount) (follow : Bool) : (ledger.step deps (.batch results lines follow)).Sound := by
  rw [step_insert deps rfl rfl]
  refine sound.insert [] _ _ rfl rfl rfl trivial ?_ ?_ ?_
  · exact (ended_of_none (by simp [QueueItem.isPage])).append (ended_page _ _)
  · simp [held_pageItems, encodeNumbered, number]
  · simp [held_pageItems, encodeNumbered, LogEvent.page]

theorem Sound.earlier (sound : ledger.Sound) (src : Nat) (answer : EarlierPage) :
    (ledger.step deps (.earlier src answer)).Sound := by
  rw [step_insert deps rfl rfl]
  cases answer with
  | unsupported =>
    exact sound.insert [] _ _ rfl rfl rfl trivial (ended_of_none (by simp [QueueItem.isPage]))
      (by simp) (by simp [LogEvent.page])
  | failed hint =>
    exact sound.insert [] _ _ rfl rfl rfl trivial (ended_of_none (by simp [QueueItem.isPage]))
      (by simp) (by simp [LogEvent.page])
  | page lines hasMore =>
    refine sound.insert _ [] _ (by rw [append_nil]; rfl) rfl rfl (ended_page _ _) trivial ?_ ?_
    · simp [held_pageItems, encodeNumbered, number]
    · simp [held_pageItems, encodeNumbered, LogEvent.page]

theorem Sound.step (sound : ledger.Sound)
    (bounded : ledger.channel.liveBytes ≤ fleetLogsPendingMaxBytes) (event : LogEvent) :
    (ledger.step deps event).Sound ∧
      (ledger.step deps event).channel.liveBytes ≤ fleetLogsPendingMaxBytes := by
  cases event with
  | batch results lines follow => exact ⟨sound.batch deps results lines follow, bounded⟩
  | earlier src answer =>
    refine ⟨sound.earlier deps src answer, ?_⟩
    cases answer <;> exact bounded
  | line raw src => exact sound.line deps raw src
  | notice kind hint src =>
    rw [step_insert deps rfl rfl]
    exact ⟨sound.insert [] _ _ rfl rfl rfl trivial (ended_of_none (by simp [QueueItem.isPage]))
      (by simp) (by simp [LogEvent.page]), bounded⟩
  | ended src =>
    rw [step_insert deps rfl rfl]
    exact ⟨sound.insert [] [] none (by simp) rfl rfl trivial trivial (by simp) rfl, bounded⟩
  | pause =>
    rw [step_insert deps rfl rfl]
    exact ⟨sound.insert [] [] none (by simp) rfl rfl trivial trivial (by simp) rfl, bounded⟩
  | resume =>
    rw [step_insert deps rfl rfl]
    exact ⟨sound.insert [] [] none (by simp) rfl rfl trivial trivial (by simp) rfl, bounded⟩
  | flush turns =>
    have moves := flush_moves turns sound.ended
    have same : ledger.step deps (.flush turns) =
        ledger.after (ledger.channel.flush turns).1 (ledger.channel.flush turns).2 := by
      simp [LogLedger.step, LogChannel.step, gone, after, LogEvent.arrival, LogEvent.page]
    rw [same]
    exact ⟨sound.moves rfl moves, moves.liveBytes_le.trans bounded⟩

def stream (ledger : LogLedger) : LogStream Utf16 :=
  ⟨ledger.channel.map Prod.fst, ledger.history.sent.map (Sent.map Prod.fst)⟩

theorem sent_foldl_tell (sent : List (Sent Numbered)) (history : LogHistory) :
    (sent.foldl LogHistory.tell history).sent = history.sent ++ sent := by
  induction sent generalizing history with
  | nil => simp
  | cons first rest ih =>
    have one : (history.tell first).sent = history.sent ++ [first] := by cases first <;> rfl
    rw [foldl_cons, ih, one, append_assoc, singleton_append]

theorem encodeNumbered_map (number : Nat) (raw : RawLogLine) (src : Nat) (earlier : Bool) :
    (encodeNumbered deps number raw src earlier).map Prod.fst = encodeLogLine deps raw src earlier := by
  simp only [encodeNumbered, EncodedLine.map]

theorem stream_step (ledger : LogLedger) (event : LogEvent) :
    (ledger.step deps event).stream = ledger.stream.step deps event := by
  have mapped := step_map Prod.fst ledger.channel deps (encodeNumbered deps (ledger.number event)) event
  simp only [encodeNumbered_map] at mapped
  have plain : ledger.stream.step deps event =
      ⟨((ledger.channel.map Prod.fst).step deps (encodeLogLine deps) event).1,
        ledger.stream.sent ++ ((ledger.channel.map Prod.fst).step deps (encodeLogLine deps) event).2⟩ := rfl
  have told := sent_foldl_tell
    (ledger.channel.step deps (encodeNumbered deps (ledger.number event)) event).2
    { ledger.history with owed := ledger.history.owed ++ ledger.gone (ledger.step deps event).channel event }
  rw [plain, mapped]
  refine congrArg₂ LogStream.mk rfl ?_
  exact (congrArg (List.map (Sent.map Prod.fst)) told).trans map_append

end LogLedger

/-- The run of a channel is the numbered run with its numbers forgotten, every line is accounted for in
it, and the live lines that wait stay below their bound. -/
theorem lines_accounted (deps : LogDeps) (now : ℚ) (events : List LogEvent) :
    let ledger := run (LogLedger.step deps) (LogLedger.opened now) events
    ledger.stream = run (LogStream.step deps) (LogStream.opened now) events ∧ ledger.Accounted ∧
      ledger.channel.liveBytes ≤ fleetLogsPendingMaxBytes := by
  intro ledger
  have keeps : ∀ (ledger : LogLedger) (event : LogEvent),
      ledger.Sound ∧ ledger.channel.liveBytes ≤ fleetLogsPendingMaxBytes → True →
      (ledger.step deps event).Sound ∧
        (ledger.step deps event).channel.liveBytes ≤ fleetLogsPendingMaxBytes :=
    fun ledger event before _ => before.1.step deps before.2 event
  have along : Along (LogLedger.step deps) (fun _ _ => True) (LogLedger.opened now) events :=
    along_of_forall (p := fun _ => True) (fun _ _ => trivial) _
  obtain ⟨sound, bounded⟩ := run_along keeps ⟨LogLedger.opened_sound now, Int.natCast_nonneg _⟩ along
  exact ⟨run_map LogLedger.stream (LogLedger.stream_step deps) _ events, sound.toAccounted, bounded⟩

end EverWorks.Fleet
