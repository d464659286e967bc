import EverWorks.Lib.Run

/-!
A program is a tree of calls, each served at once against a shared state, and of forks, which start a job beside it. A
pool runs programs side by side, one call at a time in the order of a schedule.
-/

namespace EverWorks.Lib
open List

inductive Program (Call : Type) (Reply : Call → Type) (Job : Type) (α : Type) : Type where
  | done (value : α)
  | call (request : Call) (next : Reply request → Program Call Reply Job α)
  | fork (job : Job) (next : Program Call Reply Job α)

namespace Program

variable {Call : Type} {Reply : Call → Type} {Job α β : Type}

def bind : Program Call Reply Job α → (α → Program Call Reply Job β) → Program Call Reply Job β
  | done value, f => f value
  | call request next, f => call request fun reply => (next reply).bind f
  | fork job next, f => fork job (next.bind f)

instance : Monad (Program Call Reply Job) where
  pure := done
  bind := bind

@[simp] theorem done_bind (value : α) (f : α → Program Call Reply Job β) : (done value >>= f) = f value := rfl

@[simp] theorem pure_bind (value : α) (f : α → Program Call Reply Job β) :
    ((pure value : Program Call Reply Job α) >>= f) = f value := rfl

@[simp] theorem call_bind (request : Call) (next : Reply request → Program Call Reply Job α)
    (f : α → Program Call Reply Job β) :
    (call request next >>= f) = call request fun reply => next reply >>= f := rfl

@[simp] theorem fork_bind (job : Job) (next : Program Call Reply Job α) (f : α → Program Call Reply Job β) :
    (fork job next >>= f) = fork job (next >>= f) := rfl

theorem bind_assoc {γ : Type} (program : Program Call Reply Job α) (f : α → Program Call Reply Job β)
    (g : β → Program Call Reply Job γ) : (program >>= f) >>= g = program >>= fun value => f value >>= g := by
  induction program with
  | done value => rfl
  | call request next ih => exact congrArg (call request) (funext fun reply => ih reply)
  | fork job next ih => exact congrArg (fork job) ih

def ask (request : Call) : Program Call Reply Job (Reply request) := call request done

def start (job : Job) : Program Call Reply Job Unit := fork job (done ())

@[simp] theorem ask_bind (request : Call) (f : Reply request → Program Call Reply Job β) :
    (ask request >>= f) = call request f := rfl

@[simp] theorem start_bind (job : Job) (f : Unit → Program Call Reply Job β) :
    (start job >>= f) = fork job (f ()) := rfl

def isDone : Program Call Reply Job α → Bool
  | done _ => true
  | call _ _ | fork _ _ => false

theorem eq_done_of_isDone {program : Program Call Reply Job Unit} (ended : program.isDone = true) :
    program = done () := by
  cases program with
  | done value => rfl
  | call request next => cases ended
  | fork job next => cases ended

def lift {Call' : Type} {Reply' : Call' → Type} (inject : Call → Call')
    (back : ∀ request, Reply' (inject request) → Reply request) :
    Program Call Reply Job α → Program Call' Reply' Job α
  | done value => done value
  | call request next => call (inject request) fun reply => lift inject back (next (back request reply))
  | fork job next => fork job (lift inject back next)

variable {σ : Type} (serve : (request : Call) → σ → Reply request × σ)

/-- What is left when a program has run: its value, the state and the jobs it started. -/
structure Outcome (σ Job α : Type) where
  value : α
  state : σ
  jobs : List Job

def eval : Program Call Reply Job α → σ → Outcome σ Job α
  | done value, state => ⟨value, state, []⟩
  | call request next, state => eval (next (serve request state).1) (serve request state).2
  | fork job next, state =>
    let outcome := eval next state
    { outcome with jobs := job :: outcome.jobs }

@[simp] theorem eval_done (value : α) (state : σ) :
    (done value : Program Call Reply Job α).eval serve state = ⟨value, state, []⟩ := rfl

@[simp] theorem eval_pure (value : α) (state : σ) :
    (pure value : Program Call Reply Job α).eval serve state = ⟨value, state, []⟩ := rfl

@[simp] theorem eval_call (request : Call) (next : Reply request → Program Call Reply Job α) (state : σ) :
    (call request next).eval serve state = (next (serve request state).1).eval serve (serve request state).2 := rfl

@[simp] theorem eval_fork (job : Job) (next : Program Call Reply Job α) (state : σ) :
    (fork job next).eval serve state =
      ⟨(next.eval serve state).value, (next.eval serve state).state, job :: (next.eval serve state).jobs⟩ := rfl

theorem eval_bind (program : Program Call Reply Job α) (f : α → Program Call Reply Job β) (state : σ) :
    (program >>= f).eval serve state =
      let first := program.eval serve state
      let second := (f first.value).eval serve first.state
      ⟨second.value, second.state, first.jobs ++ second.jobs⟩ := by
  induction program generalizing state with
  | done value => rfl
  | call request next ih => exact ih _ _
  | fork job next ih => rw [fork_bind, eval_fork, ih]; rfl

def Quiet (program : Program Call Reply Job α) : Prop :=
  ∀ state, program.eval serve state = ⟨(program.eval serve state).value, state, []⟩

section
variable {serve}

theorem Quiet.pure (value : α) : Quiet serve (Pure.pure value : Program Call Reply Job α) := fun _ => rfl

theorem Quiet.ask {request : Call} (reads : ∀ state, (serve request state).2 = state) :
    Quiet serve (ask request : Program Call Reply Job (Reply request)) := by
  intro state
  simp only [Program.ask, eval_call, eval_done, reads]

theorem Quiet.bind {program : Program Call Reply Job α} {f : α → Program Call Reply Job β}
    (first : Quiet serve program) (rest : ∀ value, Quiet serve (f value)) : Quiet serve (program >>= f) := by
  intro state
  rw [eval_bind, first state]
  dsimp only
  rw [rest _ state]
  rfl

end

/-- Whatever others do under the invariant, the program's calls keep it, its forks are allowed, and its value
is as asked. -/
def Keeps (inv : σ → Prop) (allowed : Job → Prop) (post : α → Prop) : Program Call Reply Job α → Prop
  | done value => post value
  | call request next => ∀ state, inv state → inv (serve request state).2 ∧
      Keeps inv allowed post (next (serve request state).1)
  | fork job next => allowed job ∧ Keeps inv allowed post next

section
variable {serve} {inv : σ → Prop} {allowed : Job → Prop}

variable {program : Program Call Reply Job α}

variable {post : α → Prop}

theorem Keeps.bind {post' : β → Prop}
    {f : α → Program Call Reply Job β} (first : program.Keeps serve inv allowed post)
    (rest : ∀ value, post value → (f value).Keeps serve inv allowed post') :
    (program >>= f).Keeps serve inv allowed post' := by
  induction program with
  | done value => exact rest value first
  | call request next ih =>
    exact fun state holds => ⟨(first state holds).1, ih _ (first state holds).2⟩
  | fork job next ih => exact ⟨first.1, ih first.2⟩

theorem Keeps.mono {post post' : α → Prop}
    (keeps : program.Keeps serve inv allowed post) (weaker : ∀ value, post value → post' value) :
    program.Keeps serve inv allowed post' := by
  induction program with
  | done value => exact weaker value keeps
  | call request next ih => exact fun state holds => ⟨(keeps state holds).1, ih _ (keeps state holds).2⟩
  | fork job next ih => exact ⟨keeps.1, ih keeps.2⟩

theorem Keeps.read {request : Call} {next : Reply request → Program Call Reply Job α}
    (reads : ∀ state, (serve request state).2 = state)
    (rest : ∀ state, inv state → (next (serve request state).1).Keeps serve inv allowed post) :
    (call request next).Keeps serve inv allowed post :=
  fun state holds => ⟨(reads state).symm ▸ holds, rest state holds⟩

theorem Keeps.read_bind {request : Call} {f : Reply request → Program Call Reply Job α}
    (reads : ∀ state, (serve request state).2 = state)
    (rest : ∀ state, inv state → (f (serve request state).1).Keeps serve inv allowed post) :
    (Program.ask request >>= f).Keeps serve inv allowed post :=
  .read reads rest

end

end Program

structure Pool (σ Call : Type) (Reply : Call → Type) (Job : Type) where
  state : σ
  programs : List (Program Call Reply Job Unit)

namespace Pool
open Program

variable {σ Call : Type} {Reply : Call → Type} {Job : Type}
  (serve : (request : Call) → σ → Reply request × σ) (body : Job → Program Call Reply Job Unit)

def step (pool : Pool σ Call Reply Job) (place : Nat) : Pool σ Call Reply Job :=
  match pool.programs[place]? with
  | some (.call request next) =>
    ⟨(serve request pool.state).2, pool.programs.set place (next (serve request pool.state).1)⟩
  | some (.fork job next) => ⟨pool.state, pool.programs.set place next ++ [body job]⟩
  | some (.done _) | none => pool

theorem run_keeps {inv : σ → Prop} {allowed : Job → Prop} {pool : Pool σ Call Reply Job}
    (bodies : ∀ job, allowed job → (body job).Keeps serve inv allowed fun _ => True)
    (programs : ∀ program ∈ pool.programs, program.Keeps serve inv allowed fun _ => True)
    (holds : inv pool.state) (schedule : List Nat) : inv (run (step serve body) pool schedule).state := by
  induction schedule generalizing pool with
  | nil => exact holds
  | cons place rest ih =>
    rw [run_cons, step]
    split
    · rename_i request next found
      have keeps := programs _ (mem_of_getElem? found)
      refine ih (fun program listed => ?_) (keeps _ holds).1
      rcases mem_or_eq_of_mem_set listed with old | rfl
      · exact programs program old
      · exact (keeps _ holds).2
    · rename_i job next found
      have keeps := programs _ (mem_of_getElem? found)
      refine ih (fun program listed => ?_) holds
      rcases mem_append.mp listed with listed | listed
      · rcases mem_or_eq_of_mem_set listed with old | rfl
        · exact programs program old
        · exact keeps.2
      · rw [mem_singleton.mp listed]
        exact bodies job keeps.1
    · exact ih programs holds
    · exact ih programs holds

theorem exists_schedule_bind {α : Type} (state : σ) (before after : List (Program Call Reply Job Unit))
    (first : Program Call Reply Job α) (rest : α → Program Call Reply Job Unit) :
    ∃ schedule, run (step serve body) ⟨state, before ++ (first >>= rest) :: after⟩ schedule =
      ⟨(first.eval serve state).state,
        before ++ rest (first.eval serve state).value :: after ++ (first.eval serve state).jobs.map body⟩ := by
  induction first generalizing state after with
  | done value => exact ⟨[], by simp⟩
  | call request next ih =>
    obtain ⟨schedule, ran⟩ := ih _ (serve request state).2 after
    exact ⟨before.length :: schedule, by simpa [step] using ran⟩
  | fork job next ih =>
    obtain ⟨schedule, ran⟩ := ih state (after ++ [body job])
    exact ⟨before.length :: schedule, by simpa [step] using ran⟩

end Pool

end EverWorks.Lib
