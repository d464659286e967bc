import Mathlib.Data.List.Range

/-!
Entries arrive in a numbered order, wait, and leave in one of two ways: a run of the oldest is sent, or the oldest is
lost.
-/

namespace EverWorks.Lib
open List

structure Backlog where
  sent : List Nat
  held : List Nat
  lost : List Nat
  arrived : Nat

namespace Backlog

inductive Step : Backlog → Backlog → Prop where
  | arrive (log : Backlog) :
    Step log { log with held := log.held ++ [log.arrived], arrived := log.arrived + 1 }
  | drop {log : Backlog} {first : Nat} {rest : List Nat} (held : log.held = first :: rest) :
    Step log { log with held := rest, lost := log.lost ++ [first] }
  | send {log : Backlog} {front rest : List Nat} (held : log.held = front ++ rest) :
    Step log { log with sent := log.sent ++ front, held := rest }

structure Sound (log : Backlog) : Prop where
  ordered : (log.sent ++ log.held).Pairwise (· < ·)
  once : (log.sent ++ log.held ++ log.lost).Perm (List.range log.arrived)

theorem Sound.below {log : Backlog} (sound : log.Sound) {n : Nat}
    (inside : n ∈ log.sent ++ log.held ++ log.lost) : n < log.arrived :=
  mem_range.mp (sound.once.mem_iff.mp inside)

theorem empty_sound : Sound ⟨[], [], [], 0⟩ := ⟨by simp, by simp⟩

theorem Step.sound {log next : Backlog} (step : Step log next) (sound : log.Sound) : next.Sound := by
  cases step with
  | arrive =>
    constructor
    · show (log.sent ++ (log.held ++ [log.arrived])).Pairwise (· < ·)
      rw [← append_assoc, pairwise_append]
      refine ⟨sound.ordered, pairwise_singleton _ _, ?_⟩
      intro a inside b last
      obtain rfl := mem_singleton.mp last
      exact sound.below (mem_append_left _ inside)
    · show (log.sent ++ (log.held ++ [log.arrived]) ++ log.lost).Perm (List.range (log.arrived + 1))
      rw [range_succ, ← append_assoc log.sent, append_assoc _ [log.arrived]]
      have swapped : ([log.arrived] ++ log.lost).Perm (log.lost ++ [log.arrived]) := perm_append_comm
      have moved := swapped.append_left (log.sent ++ log.held)
      rw [← append_assoc _ log.lost] at moved
      exact moved.trans (sound.once.append_right _)
  | @drop first rest held =>
    obtain ⟨ordered, once⟩ := sound
    rw [held] at ordered once
    constructor
    · exact ordered.sublist ((sublist_cons_self first rest).append_left log.sent)
    · show (log.sent ++ rest ++ (log.lost ++ [first])).Perm (List.range log.arrived)
      refine List.Perm.trans ?_ once
      rw [← append_assoc _ log.lost, append_assoc _ (first :: rest)]
      refine perm_append_comm.trans ?_
      have middle : (log.sent ++ first :: (rest ++ log.lost)).Perm (first :: (log.sent ++ (rest ++ log.lost))) :=
        perm_middle
      simpa only [cons_append, nil_append, append_assoc] using middle.symm
  | @send front rest held =>
    obtain ⟨ordered, once⟩ := sound
    rw [held, ← append_assoc] at ordered once
    exact ⟨ordered, once⟩

end Backlog

end EverWorks.Lib
