import VotingApp.Lib.EffectProgram

/- Any number of programs interleaved over one shared world, one command at a
   time. A label starts a program, lets one running program take its next
   command, or moves the world on its own. The oracle of a run label settles
   everything the world leaves open about that command. -/
namespace CallPool
open EffectProgram

structure Machine (Cmd : Type) (Reply : Cmd → Type) (W O E Req Ans : Type) where
  perform : W → O → (c : Cmd) → Option (Reply c × W)
  env : W → E → Option W
  program : Req → Prog Cmd Reply Ans
  spawns : Cmd → List Req

structure Job (Cmd : Type) (Reply : Cmd → Type) (Req Ans : Type) where
  req : Req
  past : List (Exchange Cmd Reply)
  rest : Prog Cmd Reply Ans

structure Event (Cmd : Type) (Reply : Cmd → Type) (W O : Type) where
  caller : Nat
  oracle : O
  cmd : Cmd
  reply : Reply cmd
  before : W
  after : W

/- The log is a history variable, newest event first. No step reads it. -/
structure Pool (Cmd : Type) (Reply : Cmd → Type) (W O Req Ans : Type) where
  world : W
  jobs : List (Job Cmd Reply Req Ans) := []
  log : List (Event Cmd Reply W O) := []

inductive Label (O E Req : Type) where
  | start (req : Req)
  | run (caller : Nat) (oracle : O)
  | env (e : E)

variable {Cmd : Type} {Reply : Cmd → Type} {W O E Req Ans : Type}

def Event.exchange (ev : Event Cmd Reply W O) : Exchange Cmd Reply := ⟨ev.cmd, ev.reply⟩

def Machine.begin (m : Machine Cmd Reply W O E Req Ans) (req : Req) : Job Cmd Reply Req Ans :=
  ⟨req, [], m.program req⟩

def Machine.resume (m : Machine Cmd Reply W O E Req Ans) (s : Pool Cmd Reply W O Req Ans)
    (i : Nat) (o : O) (job : Job Cmd Reply Req Ans) :
    Prog Cmd Reply Ans → Option (Pool Cmd Reply W O Req Ans)
  | .done _ => none
  | .call c next => (m.perform s.world o c).map fun reached =>
      { world := reached.2
        jobs := s.jobs.set i ⟨job.req, ⟨c, reached.1⟩ :: job.past, next reached.1⟩ ++
          (m.spawns c).map m.begin
        log := ⟨i, o, c, reached.1, s.world, reached.2⟩ :: s.log }

def Machine.step (m : Machine Cmd Reply W O E Req Ans) (s : Pool Cmd Reply W O Req Ans) :
    Label O E Req → Option (Pool Cmd Reply W O Req Ans)
  | .start req => some { s with jobs := s.jobs ++ [m.begin req] }
  | .run i o => s.jobs[i]?.bind fun job => m.resume s i o job job.rest
  | .env e => (m.env s.world e).map fun w => { s with world := w }

/- What one step can do, and nothing else. -/
inductive Step (m : Machine Cmd Reply W O E Req Ans) (s : Pool Cmd Reply W O Req Ans) :
    Label O E Req → Pool Cmd Reply W O Req Ans → Prop where
  | start (req : Req) : Step m s (.start req) { s with jobs := s.jobs ++ [m.begin req] }
  | run {i : Nat} {o : O} {job : Job Cmd Reply Req Ans} {c : Cmd}
      {next : Reply c → Prog Cmd Reply Ans} {r : Reply c} {w : W}
      (at_i : s.jobs[i]? = some job) (waiting : job.rest = .call c next)
      (performed : m.perform s.world o c = some (r, w)) :
      Step m s (.run i o)
        { world := w
          jobs := s.jobs.set i ⟨job.req, ⟨c, r⟩ :: job.past, next r⟩ ++
            (m.spawns c).map m.begin
          log := ⟨i, o, c, r, s.world, w⟩ :: s.log }
  | env {e : E} {w : W} (moved : m.env s.world e = some w) :
      Step m s (.env e) { s with world := w }

theorem step_sound {m : Machine Cmd Reply W O E Req Ans} {s s' : Pool Cmd Reply W O Req Ans}
    {l : Label O E Req} (h : m.step s l = some s') : Step m s l s' := by
  cases l with
  | start req =>
    simp only [Machine.step, Option.some.injEq] at h
    subst s'
    exact .start req
  | run i o =>
    simp only [Machine.step, Option.bind_eq_some_iff] at h
    obtain ⟨job, at_i, resumed⟩ := h
    cases waiting : job.rest with
    | done a => simp [waiting, Machine.resume] at resumed
    | call c next =>
      simp only [waiting, Machine.resume, Option.map_eq_some_iff] at resumed
      obtain ⟨⟨r, w⟩, performed, rfl⟩ := resumed
      exact .run at_i waiting performed
  | env e =>
    simp only [Machine.step, Option.map_eq_some_iff] at h
    obtain ⟨w, moved, rfl⟩ := h
    exact .env moved

theorem step_complete {m : Machine Cmd Reply W O E Req Ans} {s s' : Pool Cmd Reply W O Req Ans}
    {l : Label O E Req} (h : Step m s l s') : m.step s l = some s' := by
  cases h with
  | start req => rfl
  | run at_i waiting performed => simp [Machine.step, at_i, waiting, Machine.resume, performed]
  | env moved => simp [Machine.step, moved]

/- Runs whose every step the schedule allows. -/
inductive Reaches (m : Machine Cmd Reply W O E Req Ans)
    (allow : Pool Cmd Reply W O Req Ans → Label O E Req → Bool)
    (s₀ : Pool Cmd Reply W O Req Ans) : Pool Cmd Reply W O Req Ans → Prop where
  | refl : Reaches m allow s₀ s₀
  | tail {s s' : Pool Cmd Reply W O Req Ans} {l : Label O E Req}
      (run : Reaches m allow s₀ s) (allowed : allow s l = true)
      (step : m.step s l = some s') : Reaches m allow s₀ s'

def exec (m : Machine Cmd Reply W O E Req Ans)
    (allow : Pool Cmd Reply W O Req Ans → Label O E Req → Bool) :
    Pool Cmd Reply W O Req Ans → List (Label O E Req) → Option (Pool Cmd Reply W O Req Ans)
  | s, [] => some s
  | s, l :: ls => if allow s l then (m.step s l).bind (exec m allow · ls) else none

section Runs
variable {m : Machine Cmd Reply W O E Req Ans}
  {allow : Pool Cmd Reply W O Req Ans → Label O E Req → Bool}
  {s₀ s s' : Pool Cmd Reply W O Req Ans}

theorem reaches_trans (first : Reaches m allow s₀ s) (second : Reaches m allow s s') :
    Reaches m allow s₀ s' := by
  induction second with
  | refl => exact first
  | tail run allowed step ih => exact .tail ih allowed step

theorem reaches_of_exec {ls : List (Label O E Req)} (h : exec m allow s₀ ls = some s) :
    Reaches m allow s₀ s := by
  induction ls generalizing s₀ with
  | nil =>
    cases h
    exact .refl
  | cons l ls ih =>
    simp only [exec, Option.ite_none_right_eq_some, Option.bind_eq_some_iff] at h
    obtain ⟨allowed, s₁, step, rest⟩ := h
    exact reaches_trans (.tail .refl allowed step) (ih rest)

/- A run is also one of a schedule that allows more. -/
theorem reaches_mono {wide : Pool Cmd Reply W O Req Ans → Label O E Req → Bool}
    (more : ∀ s l, allow s l = true → wide s l = true) (run : Reaches m allow s₀ s) :
    Reaches m wide s₀ s := by
  induction run with
  | refl => exact .refl
  | tail run allowed step ih => exact .tail ih (more _ _ allowed) step

/- The labels of one list, allowed by another schedule. -/
theorem reaches_of_allowed {wide : Pool Cmd Reply W O Req Ans → Label O E Req → Bool}
    {ls : List (Label O E Req)} (every : ∀ l ∈ ls, ∀ s, allow s l = true)
    (h : exec m wide s₀ ls = some s) : Reaches m allow s₀ s := by
  induction ls generalizing s₀ with
  | nil =>
    cases h
    exact .refl
  | cons l ls ih =>
    simp only [exec, Option.ite_none_right_eq_some, Option.bind_eq_some_iff] at h
    obtain ⟨-, s₁, step, rest⟩ := h
    have first : Reaches m allow s₀ s₁ := .tail .refl (every l List.mem_cons_self s₀) step
    exact reaches_trans first (ih (fun l member => every l (List.mem_cons_of_mem _ member)) rest)

theorem exec_append (ls more : List (Label O E Req)) :
    exec m allow s₀ (ls ++ more) = (exec m allow s₀ ls).bind (exec m allow · more) := by
  induction ls generalizing s₀ with
  | nil => rfl
  | cons l ls ih =>
    rw [List.cons_append, exec, exec]
    split
    · cases m.step s₀ l with
      | none => rfl
      | some s' => exact ih
    · rfl

/- The pool that a list of labels leads to, when every label can be taken. -/
def after (m : Machine Cmd Reply W O E Req Ans)
    (allow : Pool Cmd Reply W O Req Ans → Label O E Req → Bool)
    (s : Pool Cmd Reply W O Req Ans) (ls : List (Label O E Req)) : Pool Cmd Reply W O Req Ans :=
  (exec m allow s ls).getD s

theorem reaches_after {ls : List (Label O E Req)} (runs : (exec m allow s₀ ls).isSome = true) :
    Reaches m allow s₀ (after m allow s₀ ls) := by
  obtain ⟨s, reached⟩ := Option.isSome_iff_exists.mp runs
  rw [after, reached, Option.getD_some]
  exact reaches_of_exec reached

theorem reaches_inv {I : Pool Cmd Reply W O Req Ans → Prop} (init : I s₀)
    (keep : ∀ s l s', I s → allow s l = true → Step m s l s' → I s')
    (run : Reaches m allow s₀ s) : I s := by
  induction run with
  | refl => exact init
  | tail run allowed step ih => exact keep _ _ _ ih allowed (step_sound step)

end Runs
/-- Run with nobody in between from a world in which I holds, the program keeps I at
every command and ends in post. -/
def Secures (perform : W → O → (c : Cmd) → Option (Reply c × W)) (fair : O → Bool)
    (I : W → Prop) {α : Type} (post : α → Prop) : Prog Cmd Reply α → Prop
  | .done a => post a
  | .call c next => ∀ w o r w', I w → fair o = true → perform w o c = some (r, w') →
      I w' ∧ Secures perform fair I post (next r)

/- Only one job runs, and only under oracles that are fair. -/
def alone (n : Nat) (fair : O → Bool) (_ : Pool Cmd Reply W O Req Ans) : Label O E Req → Bool
  | .start _ => false
  | .run i o => i = n && fair o
  | .env _ => true

section Alone
variable {m : Machine Cmd Reply W O E Req Ans} {fair : O → Bool} {I : W → Prop}

theorem secures_bind {perform : W → O → (c : Cmd) → Option (Reply c × W)} {α β : Type}
    {Q : α → Prop} {post : β → Prop} {p : Prog Cmd Reply α} {f : α → Prog Cmd Reply β}
    (first : Secures perform fair I Q p)
    (rest : ∀ a, Q a → Secures perform fair I post (f a)) :
    Secures perform fair I post (p >>= f) := by
  induction p with
  | done a => exact rest a first
  | call c next ih =>
    intro w o r w' held is_fair performed
    obtain ⟨kept, more⟩ := first w o r w' held is_fair performed
    exact ⟨kept, ih r more⟩

theorem alone_secured {post : Ans → Prop} {n : Nat} {s t : Pool Cmd Reply W O Req Ans}
    (env_keeps : ∀ w e w', m.env w e = some w' → I w → I w')
    {job : Job Cmd Reply Req Ans} (at_n : s.jobs[n]? = some job)
    (secures : Secures m.perform fair I post job.rest) (held : I s.world)
    (run : Reaches m (alone n fair) s t) :
    I t.world ∧ ∃ job', t.jobs[n]? = some job' ∧ Secures m.perform fair I post job'.rest := by
  refine reaches_inv (I := fun t => I t.world ∧ ∃ job', t.jobs[n]? = some job' ∧
    Secures m.perform fair I post job'.rest) ⟨held, job, at_n, secures⟩ ?_ run
  intro u l u' before allowed step
  obtain ⟨held, job, at_n, secures⟩ := before
  cases step with
  | start req => cases allowed
  | env moved => exact ⟨env_keeps _ _ _ moved held, job, at_n, secures⟩
  | @run i o mover c next r w at_i waiting performed =>
    simp only [alone, Bool.and_eq_true, decide_eq_true_eq] at allowed
    obtain ⟨rfl, is_fair⟩ := allowed
    obtain rfl : mover = job := Option.some.inj (at_i.symm.trans at_n)
    rw [waiting] at secures
    obtain ⟨kept, more⟩ := secures _ _ _ _ held is_fair performed
    have inside : i < u.jobs.length := (List.getElem?_eq_some_iff.mp at_i).1
    refine ⟨kept, ⟨mover.req, ⟨c, r⟩ :: mover.past, next r⟩, ?_, more⟩
    rw [List.getElem?_append_left (by simpa using inside), List.getElem?_set_self inside]

end Alone
end CallPool
