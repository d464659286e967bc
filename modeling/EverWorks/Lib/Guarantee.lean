import EverWorks.Lib.Program

/-!
What a program of a pool may count on between two of its calls (`rely`) and what each of its calls does to the state
(`guar`). Programs whose guarantees are within what the others rely on keep every invariant of the guarantees.
-/

namespace EverWorks.Lib

namespace Program

variable {Call : Type} {Reply : Call → Type} {Job α β σ : Type} (serve : (request : Call) → σ → Reply request × σ)

/-- While others stay within `rely`, every call stays within `guar`; the program starts no job. -/
def Holds (rely guar : σ → σ → Prop) (post : α → σ → Prop) : Program Call Reply Job α → σ → Prop
  | done value, state => ∀ state', rely state state' → post value state'
  | call request next, state => ∀ state', rely state state' → guar state' (serve request state').2 ∧
      Holds rely guar post (next (serve request state').1) (serve request state').2
  | fork _ _, _ => False

variable {serve} {rely guar : σ → σ → Prop} {post : α → σ → Prop} {program : Program Call Reply Job α}

variable {state : σ}

theorem Holds.bind {post' : β → σ → Prop} {f : α → Program Call Reply Job β}
    (refl : ∀ state, rely state state) (first : program.Holds serve rely guar post state)
    (rest : ∀ value state, post value state → (f value).Holds serve rely guar post' state) :
    (program >>= f).Holds serve rely guar post' state := by
  induction program generalizing state with
  | done value => exact rest value state (first state (refl state))
  | call request next ih => exact fun state' step => ⟨(first state' step).1, ih _ (first state' step).2⟩
  | fork job next ih => exact first.elim

theorem Holds.later {state state' : σ} (holds : program.Holds serve rely guar post state) (step : rely state state')
    (trans : ∀ a b c, rely a b → rely b c → rely a c) :
    program.Holds serve rely guar post state' := by
  cases program with
  | done value => exact fun later more => holds later (trans _ _ _ step more)
  | call request next => exact fun later more => holds later (trans _ _ _ step more)
  | fork job next => exact holds.elim

theorem Holds.mono {guar' : σ → σ → Prop} (holds : program.Holds serve rely guar post state)
    (weaker : ∀ a b, guar a b → guar' a b) : program.Holds serve rely guar' post state := by
  induction program generalizing state with
  | done value => exact holds
  | call request next ih =>
    exact fun state' step => ⟨weaker _ _ (holds state' step).1, ih _ (holds state' step).2⟩
  | fork job next ih => exact holds.elim

theorem Holds.weaken {post' : α → σ → Prop} (holds : program.Holds serve rely guar post state)
    (weaker : ∀ value state, post value state → post' value state) : program.Holds serve rely guar post' state := by
  induction program generalizing state with
  | done value => exact fun state' step => weaker _ _ (holds state' step)
  | call request next ih => exact fun state' step => ⟨(holds state' step).1, ih _ (holds state' step).2⟩
  | fork job next ih => exact holds.elim

/-- Where what others do and what the program does is within an order, the end is after the start. -/
theorem Holds.track {after : σ → σ → Prop} {origin state : σ} (holds : program.Holds serve rely guar post state)
    (others : ∀ a b, rely a b → after a b) (own : ∀ a b, guar a b → after a b)
    (trans : ∀ a b c, after a b → after b c → after a c) (start : after origin state) :
    program.Holds serve rely guar (fun value state => after origin state ∧ post value state) state := by
  induction program generalizing state with
  | done value => exact fun state' step => ⟨trans _ _ _ start (others _ _ step), holds state' step⟩
  | call request next ih =>
    intro state' step
    have here := trans _ _ _ start (others _ _ step)
    exact ⟨(holds state' step).1, ih _ (holds state' step).2 (trans _ _ _ here (own _ _ (holds state' step).1))⟩
  | fork job next ih => exact holds.elim

theorem Holds.ask {request : Call} {f : Reply request → Program Call Reply Job α}
    (holds : ∀ state', rely state state' → guar state' (serve request state').2 ∧
      (f (serve request state').1).Holds serve rely guar post (serve request state').2) :
    (Program.ask request >>= f).Holds serve rely guar post state := holds

theorem Holds.ite {c : Prop} [Decidable c] {first second : Program Call Reply Job α}
    (yes : c → first.Holds serve rely guar post state) (no : ¬ c → second.Holds serve rely guar post state) :
    (if c then first else second).Holds serve rely guar post state := by
  split
  · exact yes ‹c›
  · exact no ‹¬ c›

theorem Holds.pure {value : α} (meets : ∀ state, post value state) :
    (Pure.pure value : Program Call Reply Job α).Holds serve rely guar post state :=
  fun state _ => meets state

end Program

namespace Pool
open Program

variable {σ Call : Type} {Reply : Call → Type} {Job : Type}
  {serve : (request : Call) → σ → Reply request × σ} {body : Job → Program Call Reply Job Unit}
  {rely guar : Nat → σ → σ → Prop} {inv : σ → Prop} {post : Nat → σ → Prop}

def InStepTo (serve : (request : Call) → σ → Reply request × σ) (rely guar : Nat → σ → σ → Prop)
    (post : Nat → σ → Prop) (pool : Pool σ Call Reply Job) : Prop :=
  ∀ place (program : Program Call Reply Job Unit), pool.programs[place]? = some program →
    program.Holds serve (rely place) (guar place) (fun _ => post place) pool.state

def InStep (serve : (request : Call) → σ → Reply request × σ) (rely guar : Nat → σ → σ → Prop)
    (pool : Pool σ Call Reply Job) : Prop :=
  ∀ place (program : Program Call Reply Job Unit), pool.programs[place]? = some program →
    program.Holds serve (rely place) (guar place) (fun _ _ => True) pool.state

section
variable (refl : ∀ place state, rely place state state)
  (trans : ∀ place a b c, rely place a b → rely place b c → rely place a c)
  (compat : ∀ place other {a b}, place ≠ other → guar other a b → rely place a b)
include refl trans compat

variable {pool : Pool σ Call Reply Job}

theorem step_inStepTo (inStep : InStepTo serve rely guar post pool) (place : Nat) :
    InStepTo serve rely guar post (step serve body pool place) ∧
      (guar place pool.state (step serve body pool place).state ∨ (step serve body pool place).state = pool.state) := by
  rw [step]
  split
  · rename_i request next found
    have holds := inStep place _ found pool.state (refl place pool.state)
    refine ⟨fun other program there => ?_, .inl holds.1⟩
    rw [List.getElem?_set] at there
    split at there
    · rename_i same
      subst same
      split at there
      · rw [← Option.some.inj there]
        exact holds.2
      · cases there
    · rename_i different
      have moved := compat other place (Ne.symm different) holds.1
      exact (inStep other program there).later moved (trans other)
  · rename_i job next found
    exact (inStep place _ found).elim
  · exact ⟨inStep, .inr rfl⟩
  · exact ⟨inStep, .inr rfl⟩

theorem run_inStepTo {schedule : List Nat} (keeps : ∀ place ∈ schedule, ∀ a b, inv a → guar place a b → inv b)
    (inStep : InStepTo serve rely guar post pool) (holds : inv pool.state) :
    InStepTo serve rely guar post (run (step serve body) pool schedule) ∧
      inv (run (step serve body) pool schedule).state := by
  induction schedule generalizing pool with
  | nil => exact ⟨inStep, holds⟩
  | cons place rest ih =>
    obtain ⟨next, moved⟩ := step_inStepTo refl trans compat inStep place
    refine ih (fun other later => keeps other (List.mem_cons_of_mem _ later)) next ?_
    rcases moved with stepped | same
    · exact keeps place List.mem_cons_self _ _ holds stepped
    · rw [same]
      exact holds

theorem run_inStep {schedule : List Nat} (keeps : ∀ place ∈ schedule, ∀ a b, inv a → guar place a b → inv b)
    (inStep : InStep serve rely guar pool) (holds : inv pool.state) :
    InStep serve rely guar (run (step serve body) pool schedule) ∧ inv (run (step serve body) pool schedule).state :=
  run_inStepTo refl trans compat keeps inStep holds

end

theorem run_length [IsEmpty Job] (pool : Pool σ Call Reply Job) (schedule : List Nat) :
    (run (step serve body) pool schedule).programs.length = pool.programs.length := by
  induction schedule generalizing pool with
  | nil => rfl
  | cons place rest ih =>
    rw [run_cons, ih, step]
    split
    · exact List.length_set
    · rename_i job next _
      exact isEmptyElim job
    · rfl
    · rfl

theorem run_waits {place : Nat} {program : Program Call Reply Job Unit} {schedule : List Nat}
    {pool : Pool σ Call Reply Job} (there : pool.programs[place]? = some program) (leftOut : place ∉ schedule) :
    (run (step serve body) pool schedule).programs[place]? = some program := by
  induction schedule generalizing pool with
  | nil => exact there
  | cons first rest ih =>
    rw [List.mem_cons, not_or] at leftOut
    refine ih ?_ leftOut.2
    have kept (next : Program Call Reply Job Unit) : (pool.programs.set first next)[place]? = some program := by
      rw [List.getElem?_set_ne (Ne.symm leftOut.1), there]
    rw [step]
    split
    · exact kept _
    · rename_i job next _
      have inside := (List.getElem?_eq_some_iff.mp (kept next)).1
      exact (List.getElem?_append_left inside).trans (kept next)
    · exact there
    · exact there

/-- A run in which every call is answered alike by two servers is the same run for both. -/
theorem run_congr {serve' : (request : Call) → σ → Reply request × σ} {pool : Pool σ Call Reply Job}
    {schedule : List Nat}
    (alike : Along (step serve body) (fun pool place => ∀ request next,
      pool.programs[place]? = some (.call request next) → serve' request pool.state = serve request pool.state)
      pool schedule) :
    run (step serve' body) pool schedule = run (step serve body) pool schedule := by
  induction schedule generalizing pool with
  | nil => rfl
  | cons place rest ih =>
    have same : step serve' body pool place = step serve body pool place := by
      rw [step, step]
      split
      · rename_i request next found
        rw [alike.1 request next found]
      · rfl
      · rfl
      · rfl
    rw [run_cons, run_cons, same]
    exact ih alike.2

end Pool

end EverWorks.Lib
