import Mathlib.Data.List.Basic

/-!
A system is a step function on a state type. `run` folds it over a list of events, `Along` says
that every step of a run meets a condition on the state before it, and the rules below turn what
one step preserves into what a whole run preserves.
-/

namespace EverWorks.Lib
open List

variable {σ ε : Type*} (step : σ → ε → σ)

def run : σ → List ε → σ
  | s, [] => s
  | s, e :: rest => run (step s e) rest

/-- Every step of the run meets `ok` in the state it starts from. -/
def Along (ok : σ → ε → Prop) : σ → List ε → Prop
  | _, [] => True
  | s, e :: rest => ok s e ∧ Along ok (step s e) rest

@[simp] theorem run_nil (s : σ) : run step s [] = s := rfl

@[simp] theorem run_cons (s : σ) (e : ε) (rest : List ε) :
    run step s (e :: rest) = run step (step s e) rest := rfl

variable {s : σ}

theorem along_cons {ok : σ → ε → Prop} {e : ε} {rest : List ε} :
    Along step ok s (e :: rest) ↔ ok s e ∧ Along step ok (step s e) rest := Iff.rfl

theorem run_append (s : σ) (first rest : List ε) :
    run step s (first ++ rest) = run step (run step s first) rest := by
  induction first generalizing s with
  | nil => rfl
  | cons e first ih => exact ih (step s e)

/-- A map that takes every step of one system to a step of another takes runs to runs. -/
theorem run_map {τ : Type*} {step : σ → ε → σ} {step' : τ → ε → τ} (f : σ → τ)
    (steps : ∀ s e, f (step s e) = step' (f s) e) (s : σ) (events : List ε) :
    f (run step s events) = run step' (f s) events := by
  induction events generalizing s with
  | nil => rfl
  | cons e rest ih => rw [run_cons, run_cons, ih, steps]

instance decidableAlong (ok : σ → ε → Prop) [∀ s e, Decidable (ok s e)] :
    ∀ (s : σ) (events : List ε), Decidable (Along step ok s events)
  | _, [] => isTrue trivial
  | s, e :: rest =>
    have := decidableAlong ok (step s e) rest
    inferInstanceAs (Decidable (ok s e ∧ Along step ok (step s e) rest))

variable {step} {ok : σ → ε → Prop} {inv : σ → Prop}

variable {events : List ε}

/-- What every step that meets `ok` preserves holds at the end of a run along which `ok` holds. -/
theorem run_along (preserve : ∀ s e, inv s → ok s e → inv (step s e))
    (start : inv s) (along : Along step ok s events) : inv (run step s events) := by
  induction events generalizing s with
  | nil => exact start
  | cons e rest ih => exact ih (preserve s e start along.1) along.2

/-- What an invariant gives at a step that meets `ok` is met along every run that meets `ok`. -/
theorem along_of_inv {holds : σ → ε → Prop} (preserve : ∀ s e, inv s → ok s e → inv (step s e))
    (gives : ∀ s e, inv s → ok s e → holds s e) (start : inv s)
    (along : Along step ok s events) : Along step holds s events := by
  induction events generalizing s with
  | nil => trivial
  | cons e rest ih => exact ⟨gives s e start along.1, ih (preserve s e start along.1) along.2⟩

theorem along_append {first rest : List ε} :
    Along step ok s (first ++ rest) ↔
      Along step ok s first ∧ Along step ok (run step s first) rest := by
  induction first generalizing s with
  | nil => exact ⟨fun h => ⟨trivial, h⟩, fun h => h.2⟩
  | cons e first ih =>
    constructor
    · rintro ⟨here, later⟩
      obtain ⟨before, after⟩ := ih.mp later
      exact ⟨⟨here, before⟩, after⟩
    · rintro ⟨⟨here, before⟩, after⟩
      exact ⟨here, ih.mpr ⟨before, after⟩⟩

theorem along_initial {first events : List ε} (isPre : first <+: events)
    (along : Along step ok s events) : Along step ok s first := by
  obtain ⟨rest, rfl⟩ := isPre
  exact (along_append.mp along).1

theorem along_and {ok' : σ → ε → Prop} (first : Along step ok s events)
    (second : Along step ok' s events) : Along step (fun s e => ok s e ∧ ok' s e) s events := by
  induction events generalizing s with
  | nil => trivial
  | cons e rest ih => exact ⟨⟨first.1, second.1⟩, ih first.2 second.2⟩

theorem along_mono {ok' : σ → ε → Prop} (weaker : ∀ s e, ok s e → ok' s e)
    (along : Along step ok s events) : Along step ok' s events := by
  induction events generalizing s with
  | nil => trivial
  | cons e rest ih => exact ⟨weaker s e along.1, ih along.2⟩

theorem along_congr {p q : σ → ε → Prop} (agree : ∀ s e, ok s e → (p s e ↔ q s e))
    (along : Along step ok s events) :
    Along step p s events ↔ Along step q s events := by
  induction events generalizing s with
  | nil => exact Iff.rfl
  | cons e rest ih => exact and_congr (agree s e along.1) (ih along.2)

/-- A condition is met along a run exactly if it is met at each of its steps, after those before it. -/
theorem along_iff_split : Along step ok s events ↔
    ∀ first e rest, events = first ++ e :: rest → ok (run step s first) e := by
  constructor
  · rintro along first e rest rfl
    exact (along_append.mp along).2.1
  · intro each
    induction events generalizing s with
    | nil => trivial
    | cons e rest ih =>
      refine ⟨each [] e rest rfl, ih fun first later tail split => ?_⟩
      exact each (e :: first) later tail (by rw [split]; rfl)

theorem along_of_forall {p : ε → Prop} (all : ∀ e ∈ events, p e) (s : σ) :
    Along step (fun _ e => p e) s events := by
  induction events generalizing s with
  | nil => trivial
  | cons e rest ih =>
    exact ⟨all e mem_cons_self, ih (fun later inside => all later (mem_cons_of_mem _ inside)) _⟩

theorem forall_of_along {p : ε → Prop} (tells : ∀ s e, ok s e → p e)
    (along : Along step ok s events) : ∀ e ∈ events, p e := by
  induction events generalizing s with
  | nil => simp
  | cons e rest ih =>
    intro event member
    rcases mem_cons.mp member with rfl | later
    · exact tells s event along.1
    · exact ih along.2 event later

/-- The states a run passes through, the last one included, satisfy what its steps preserve. -/
theorem initial_along (preserve : ∀ s e, inv s → ok s e → inv (step s e))
    {first events : List ε} (start : inv s) (along : Along step ok s events)
    (isPre : first <+: events) : inv (run step s first) :=
  run_along preserve start (along_initial isPre along)

/-- Where a step keeps an invariant exactly under a condition, a run keeps it at every point exactly if every
step meets the condition. -/
theorem initial_iff_along (exact' : ∀ s e, inv s → (inv (step s e) ↔ ok s e)) {s : σ} {events : List ε}
    (start : inv s) : (∀ first, first <+: events → inv (run step s first)) ↔ Along step ok s events := by
  induction events generalizing s with
  | nil => exact ⟨fun _ => trivial, fun _ first isPre => by rw [prefix_nil.mp isPre]; exact start⟩
  | cons e rest ih =>
    constructor
    · intro all
      have next : inv (step s e) := all [e] (cons_prefix_cons.mpr ⟨rfl, nil_prefix⟩)
      refine ⟨(exact' s e start).mp next, (ih next).mp fun first isPre => ?_⟩
      exact all (e :: first) (cons_prefix_cons.mpr ⟨rfl, isPre⟩)
    · rintro ⟨here, later⟩ first isPre
      have next := (exact' s e start).mpr here
      rcases prefix_cons_iff.mp isPre with rfl | ⟨front, rfl, shorter⟩
      · exact start
      · exact (ih next).mpr later front shorter

theorem initial_iff_along_of {good : σ → Prop}
    (exact' : ∀ s e, inv s → good s → inv (step s e) ∧ (good (step s e) ↔ ok s e))
    (start : inv s) (begins : good s) :
    (∀ first, first <+: events → good (run step s first)) ↔ Along step ok s events := by
  induction events generalizing s with
  | nil => exact ⟨fun _ => trivial, fun _ first isPre => by rw [prefix_nil.mp isPre]; exact begins⟩
  | cons e rest ih =>
    obtain ⟨kept, iff⟩ := exact' s e start begins
    constructor
    · intro all
      have next : good (step s e) := all [e] (cons_prefix_cons.mpr ⟨rfl, nil_prefix⟩)
      refine ⟨iff.mp next, (ih kept next).mp fun first isPre => ?_⟩
      exact all (e :: first) (cons_prefix_cons.mpr ⟨rfl, isPre⟩)
    · rintro ⟨here, later⟩ first isPre
      rcases prefix_cons_iff.mp isPre with rfl | ⟨front, rfl, shorter⟩
      · exact begins
      · exact (ih kept (iff.mpr here)).mpr later front shorter

end EverWorks.Lib
