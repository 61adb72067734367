import VotingApp.Lib.CallPool

/- One program run to its end while nobody else takes a step but the calm part of the
   environment. Where a view of the world settles every answer, the outcome is computed
   from the view. -/
namespace SoloRun
open EffectProgram CallPool

variable {Cmd : Type} {Reply : Cmd → Type} {W O E Req Ans V α β : Type}

/-- From one world to a result and another world, with the requests that were spawned. -/
inductive Solo (m : Machine Cmd Reply W O E Req Ans) (fair : O → Bool) (calm : E → Bool) :
    W → Prog Cmd Reply α → α → W → List Req → Prop where
  | done (w : W) (a : α) : Solo m fair calm w (.done a) a w []
  | call {w w' w'' : W} {o : O} {c : Cmd} {next : Reply c → Prog Cmd Reply α} {r : Reply c} {a : α}
      {later : List Req} (is_fair : fair o = true) (performed : m.perform w o c = some (r, w'))
      (rest : Solo m fair calm w' (next r) a w'' later) :
      Solo m fair calm w (.call c next) a w'' (m.spawns c ++ later)
  | env {w w' w'' : W} {e : E} {p : Prog Cmd Reply α} {a : α} {later : List Req}
      (is_calm : calm e = true) (moved : m.env w e = some w')
      (rest : Solo m fair calm w' p a w'' later) : Solo m fair calm w p a w'' later

/-- What the calm part of the environment can do by itself. -/
inductive Calm (m : Machine Cmd Reply W O E Req Ans) (calm : E → Bool) : W → W → Prop where
  | refl (w : W) : Calm m calm w w
  | step {w w' w'' : W} {e : E} (is_calm : calm e = true) (moved : m.env w e = some w')
      (rest : Calm m calm w' w'') : Calm m calm w w''

/-- The outcome by the view, as long as the view settles every answer. -/
def evaluate (answer : V → (c : Cmd) → Option (Reply c × V)) : Prog Cmd Reply α → V → Option (α × V)
  | .done a, v => some (a, v)
  | .call c next, v => (answer v c).bind fun r => evaluate answer (next r.1) r.2

section Evaluating
variable {answer : V → (c : Cmd) → Option (Reply c × V)}

@[simp] theorem evaluate_done (a : α) (v : V) :
    evaluate answer (.done a : Prog Cmd Reply α) v = some (a, v) := rfl

theorem evaluate_call {c : Cmd} {next : Reply c → Prog Cmd Reply α} {v : V} {r : Reply c × V}
    (answered : answer v c = some r) :
    evaluate answer (.call c next) v = evaluate answer (next r.1) r.2 := by
  rw [evaluate, answered, Option.bind_some]

theorem evaluate_bind (p : Prog Cmd Reply α) (f : α → Prog Cmd Reply β) (v : V) :
    evaluate answer (p >>= f) v =
      (evaluate answer p v).bind fun r => evaluate answer (f r.1) r.2 := by
  induction p generalizing v with
  | done a => rfl
  | call c next ih =>
    rw [call_bind, evaluate, evaluate]
    cases answer v c with
    | none => rfl
    | some r => exact ih r.1 r.2

/- A part that has come to its outcome. -/
theorem evaluate_then {p : Prog Cmd Reply α} {f : α → Prog Cmd Reply β} {v v' : V} {a : α}
    (first : evaluate answer p v = some (a, v')) :
    evaluate answer (p >>= f) v = evaluate answer (f a) v' := by
  rw [evaluate_bind, first, Option.bind_some]

/- The part after which an error is returned does not matter. -/
theorem evaluate_fails {ε : Type} {p : Prog Cmd Reply α} {f : α → Prog Cmd Reply (Except ε β)}
    {v : V} {x : Except ε β × V} (fails : ∀ a, ∃ err, f a = .done (.error err))
    (evaluated : evaluate answer (p >>= f) v = some x) : ∃ err, x.1 = .error err := by
  rw [evaluate_bind, Option.bind_eq_some_iff] at evaluated
  obtain ⟨y, -, rest⟩ := evaluated
  obtain ⟨err, ends⟩ := fails y.1
  rw [ends] at rest
  cases rest
  exact ⟨err, rfl⟩

/- What a contract says of the end, whatever has been answered, the outcome has. -/
theorem evaluate_meets {pre : List (Exchange Cmd Reply) → Cmd → Prop}
    {post : List (Exchange Cmd Reply) → α → Prop} {past : List (Exchange Cmd Reply)} {p : Prog Cmd Reply α}
    (meets : p.Meets pre post past) {v : V} {x : α × V} (evaluated : evaluate answer p v = some x) :
    ∃ now, post now x.1 := by
  induction p generalizing past v with
  | done a =>
    cases evaluated
    exact ⟨past, meets⟩
  | call c next ih =>
    rw [evaluate, Option.bind_eq_some_iff] at evaluated
    obtain ⟨r, -, goes_on⟩ := evaluated
    exact ih r.1 (meets.2 r.1) goes_on

end Evaluating

/-- The view settles what a fair command answers, and no calm move changes it. -/
structure Settles (m : Machine Cmd Reply W O E Req Ans) (fair : O → Bool) (calm : E → Bool)
    (view : W → V) (answer : V → (c : Cmd) → Option (Reply c × V)) : Prop where
  performs : ∀ {w : W} {o : O} {c : Cmd} {r : Reply c} {w' : W} {x : Reply c × V}, fair o = true →
    m.perform w o c = some (r, w') → answer (view w) c = some x → x = (r, view w')
  env : ∀ {w : W} {e : E} {w' : W}, calm e = true → m.env w e = some w' → view w' = view w

section Outcomes
variable {m : Machine Cmd Reply W O E Req Ans} {fair : O → Bool} {calm : E → Bool}
  {view : W → V} {answer : V → (c : Cmd) → Option (Reply c × V)}

/- Every solo run has the outcome that the view gives it. -/
theorem solo_evaluates (settles : Settles m fair calm view answer) {w w' : W}
    {p : Prog Cmd Reply α} {a : α} {later : List Req} (run : Solo m fair calm w p a w' later)
    {x : α × V} (evaluated : evaluate answer p (view w) = some x) : x = (a, view w') := by
  induction run with
  | done w a =>
    rw [evaluate_done, Option.some.injEq] at evaluated
    exact evaluated.symm
  | call is_fair performed rest ih =>
    rw [evaluate, Option.bind_eq_some_iff] at evaluated
    obtain ⟨r, answered, goes_on⟩ := evaluated
    obtain rfl := settles.performs is_fair performed answered
    exact ih goes_on
  | env is_calm moved rest ih =>
    rw [← settles.env is_calm moved] at evaluated
    exact ih evaluated

theorem calm_view (settles : Settles m fair calm view answer) {w w' : W} (path : Calm m calm w w') :
    view w' = view w := by
  induction path with
  | refl => rfl
  | step is_calm moved rest ih => rw [ih, settles.env is_calm moved]

theorem solo_after {w w' w'' : W} {p : Prog Cmd Reply α} {a : α} {later : List Req}
    (path : Calm m calm w w') (run : Solo m fair calm w' p a w'' later) :
    Solo m fair calm w p a w'' later := by
  induction path with
  | refl => exact run
  | step is_calm moved rest ih => exact .env is_calm moved (ih run)

/- Where every settled command can be taken, perhaps after calm moves, there is a solo run. -/
theorem solo_exists (settles : Settles m fair calm view answer)
    (goes : ∀ w c x, answer (view w) c = some x → ∃ w₁ o r w₂, Calm m calm w w₁ ∧ fair o = true ∧
      m.perform w₁ o c = some (r, w₂)) {w : W} {p : Prog Cmd Reply α} {x : α × V}
    (evaluated : evaluate answer p (view w) = some x) :
    ∃ w' later, Solo m fair calm w p x.1 w' later := by
  induction p generalizing w with
  | done a =>
    rw [evaluate_done, Option.some.injEq] at evaluated
    rw [← evaluated]
    exact ⟨w, [], .done w a⟩
  | call c next ih =>
    rw [evaluate, Option.bind_eq_some_iff] at evaluated
    obtain ⟨y, answered, goes_on⟩ := evaluated
    obtain ⟨w₁, o, r, w₂, path, is_fair, performed⟩ := goes w c y answered
    rw [← calm_view settles path] at answered
    obtain rfl := settles.performs is_fair performed answered
    obtain ⟨w', later, rest⟩ := ih r goes_on
    exact ⟨w', _, solo_after path (.call is_fair performed rest)⟩

end Outcomes

/- A run is still one when more of the environment counts as calm. -/
theorem solo_mono {m : Machine Cmd Reply W O E Req Ans} {fair : O → Bool} {calm calm' : E → Bool}
    (more : ∀ e, calm e = true → calm' e = true) {w w' : W} {p : Prog Cmd Reply α} {a : α}
    {later : List Req} (run : Solo m fair calm w p a w' later) :
    Solo m fair calm' w p a w' later := by
  induction run with
  | done w a => exact .done w a
  | call is_fair performed rest ih => exact .call is_fair performed ih
  | env is_calm moved rest ih => exact .env (more _ is_calm) moved ih

/- Only commands leave something to be done later. -/
theorem solo_spawns {m : Machine Cmd Reply W O E Req Ans} {fair : O → Bool} {calm : E → Bool}
    {w w' : W} {p : Prog Cmd Reply α} {a : α} {later : List Req}
    (run : Solo m fair calm w p a w' later) : ∀ req ∈ later, ∃ c, req ∈ m.spawns c := by
  induction run with
  | done w a =>
    intro req member
    cases member
  | call is_fair performed rest ih =>
    intro req member
    rcases List.mem_append.mp member with now | after
    · exact ⟨_, now⟩
    · exact ih req after
  | env is_calm moved rest ih => exact ih

/- A program whose commands are all settled by any view comes to an outcome. -/
theorem evaluates_of_issues {answer : V → (c : Cmd) → Option (Reply c × V)} {allowed : Cmd → Prop}
    (total : ∀ v c, allowed c → ∃ x, answer v c = some x) {p : Prog Cmd Reply α}
    (uses : p.Issues allowed) (v : V) : ∃ x, evaluate answer p v = some x := by
  induction p generalizing v with
  | done a => exact ⟨(a, v), rfl⟩
  | call c next ih =>
    obtain ⟨x, answered⟩ := total v c uses.1
    rw [evaluate_call answered]
    exact ih x.1 (uses.2 x.1) x.2

/- What the commands of a program leave alone is as it was. -/
theorem evaluate_keeps {answer : V → (c : Cmd) → Option (Reply c × V)} {allowed : Cmd → Prop}
    {X : Type} (f : V → X)
    (keeps : ∀ (v : V) (c : Cmd) (x : Reply c × V), allowed c → answer v c = some x → f x.2 = f v)
    {p : Prog Cmd Reply α} (uses : p.Issues allowed) {v : V} {x : α × V}
    (evaluated : evaluate answer p v = some x) : f x.2 = f v := by
  induction p generalizing v with
  | done a =>
    cases evaluated
    rfl
  | call c next ih =>
    rw [evaluate, Option.bind_eq_some_iff] at evaluated
    obtain ⟨y, answered, goes_on⟩ := evaluated
    exact (ih y.1 (uses.2 y.1) goes_on).trans (keeps v c y uses.1 answered)

/-- What a fair command can answer and make of the view, which no calm move changes. -/
structure Allows (m : Machine Cmd Reply W O E Req Ans) (fair : O → Bool) (calm : E → Bool)
    (view : W → V) (may : V → (c : Cmd) → Reply c → V → Prop) : Prop where
  performs : ∀ {w : W} {o : O} {c : Cmd} {r : Reply c} {w' : W}, fair o = true →
    m.perform w o c = some (r, w') → may (view w) c r (view w')
  env : ∀ {w : W} {e : E} {w' : W}, calm e = true → m.env w e = some w' → view w' = view w

/- A run of two parts, one after the other. -/
theorem solo_bind {m : Machine Cmd Reply W O E Req Ans} {fair : O → Bool} {calm : E → Bool}
    {w w'' : W} {p : Prog Cmd Reply α} {f : α → Prog Cmd Reply β} {b : β} {later : List Req}
    (run : Solo m fair calm w (p >>= f) b w'' later) : ∃ a w' before after,
      Solo m fair calm w p a w' before ∧ Solo m fair calm w' (f a) b w'' after := by
  generalize same : p >>= f = q at run
  induction run generalizing p with
  | done w b =>
    cases p with
    | done a => exact ⟨a, w, [], [], .done w a, by rw [show f a = .done b from same]; exact .done w b⟩
    | call c next => cases same
  | call is_fair performed rest ih =>
    cases p with
    | done a =>
      have whole := Solo.call is_fair performed rest
      rw [← show f a = .call _ _ from same] at whole
      exact ⟨a, _, [], _, .done _ a, whole⟩
    | call c next =>
      rw [call_bind] at same
      cases same
      obtain ⟨a, w', before, after, head, tail⟩ := ih rfl
      exact ⟨a, w', _, after, .call is_fair performed head, tail⟩
  | env is_calm moved rest ih =>
    obtain ⟨a, w', before, after, head, tail⟩ := ih same
    exact ⟨a, w', before, after, .env is_calm moved head, tail⟩

/-- Every solo run from a world with the view v ends as Q says. -/
def Ends (m : Machine Cmd Reply W O E Req Ans) (fair : O → Bool) (calm : E → Bool) (view : W → V)
    (v : V) (p : Prog Cmd Reply α) (Q : α → V → Prop) : Prop :=
  ∀ w a w' later, view w = v → Solo m fair calm w p a w' later → Q a (view w')

section Rules
variable {m : Machine Cmd Reply W O E Req Ans} {fair : O → Bool} {calm : E → Bool} {view : W → V}
  {may : V → (c : Cmd) → Reply c → V → Prop} {v : V}

theorem ends_done (allows : Allows m fair calm view may) {a : α} {Q : α → V → Prop} (h : Q a v) :
    Ends m fair calm view v (.done a) Q := by
  intro w b w' later start run
  generalize same : (Prog.done a : Prog Cmd Reply α) = p at run
  induction run with
  | done w b =>
    cases same
    rw [start]
    exact h
  | call is_fair performed rest ih => cases same
  | env is_calm moved rest ih =>
    rw [← start] at h
    exact ih ((allows.env is_calm moved).trans start) same

theorem ends_call (allows : Allows m fair calm view may) {c : Cmd}
    {next : Reply c → Prog Cmd Reply α} {Q : α → V → Prop}
    (step : ∀ r v', may v c r v' → Ends m fair calm view v' (next r) Q) :
    Ends m fair calm view v (.call c next) Q := by
  intro w b w' later start run
  generalize same : Prog.call c next = p at run
  induction run with
  | done w b => cases same
  | call is_fair performed rest ih =>
    cases same
    have answered := allows.performs is_fair performed
    rw [start] at answered
    exact step _ _ answered _ _ _ _ rfl rest
  | env is_calm moved rest ih => exact ih ((allows.env is_calm moved).trans start) same

theorem ends_bind {p : Prog Cmd Reply α} {f : α → Prog Cmd Reply β} {Q : α → V → Prop}
    {Q' : β → V → Prop}
    (first : Ends m fair calm view v p Q)
    (rest : ∀ a v', Q a v' → Ends m fair calm view v' (f a) Q') :
    Ends m fair calm view v (p >>= f) Q' := by
  intro w b w'' later start run
  obtain ⟨a, w', before, after, head, tail⟩ := solo_bind run
  exact rest a (view w') (first w a w' before start head) w' b w'' after rfl tail

theorem ends_mono {p : Prog Cmd Reply α} {Q Q' : α → V → Prop}
    (h : Ends m fair calm view v p Q) (weaker : ∀ a v', Q a v' → Q' a v') :
    Ends m fair calm view v p Q' := by
  intro w a w' later start run
  exact weaker a (view w') (h w a w' later start run)

end Rules

/- Only one job of a pool runs, with fair oracles, and only the calm part of the environment
   moves. -/
def undisturbed (n : Nat) (fair : O → Bool) (calm : E → Bool) (_ : Pool Cmd Reply W O Req Ans) :
    Label O E Req → Bool
  | .start _ => false
  | .run i o => i = n && fair o
  | .env e => calm e

section Pools
variable {m : Machine Cmd Reply W O E Req Ans} {fair : O → Bool} {calm : E → Bool}
  {s t : Pool Cmd Reply W O Req Ans} {n : Nat} {job job' : Job Cmd Reply Req Ans} {a : Ans}

/- What the job of an undisturbed pool comes to, its program comes to alone. -/
theorem solo_of_reaches (at_n : s.jobs[n]? = some job)
    (run : Reaches m (undisturbed n fair calm) s t) (ends : t.jobs[n]? = some job')
    (answered : job'.rest = .done a) : ∃ later, Solo m fair calm s.world job.rest a t.world later := by
  -- by induction, what the job still has to do can be put behind what it has done
  have joined : ∃ job', t.jobs[n]? = some job' ∧ ∀ w later,
      Solo m fair calm t.world job'.rest a w later →
        ∃ later, Solo m fair calm s.world job.rest a w later := by
    clear answered ends
    induction run with
    | refl => exact ⟨job, at_n, fun w later rest => ⟨later, rest⟩⟩
    | tail run allowed step ih =>
      obtain ⟨mid, at_mid, joins⟩ := ih
      cases step_sound step with
      | start req => cases allowed
      | env moved => exact ⟨mid, at_mid, fun w later rest => joins w later (.env allowed moved rest)⟩
      | @run i o mover c next r w at_i waiting performed =>
        simp only [undisturbed, Bool.and_eq_true, decide_eq_true_eq] at allowed
        obtain ⟨rfl, is_fair⟩ := allowed
        obtain rfl : mover = mid := Option.some.inj (at_i.symm.trans at_mid)
        have inside := (List.getElem?_eq_some_iff.mp at_i).1
        refine ⟨⟨mover.req, ⟨c, r⟩ :: mover.past, next r⟩, ?_, ?_⟩
        · rw [List.getElem?_append_left (by simpa using inside), List.getElem?_set_self inside]
        · intro w' later rest
          apply joins w' (m.spawns c ++ later)
          rw [waiting]
          exact .call is_fair performed rest
  obtain ⟨mid, at_mid, joins⟩ := joined
  rw [ends, Option.some.injEq] at at_mid
  subst mid
  apply joins t.world []
  rw [answered]
  exact .done t.world a

/- What a program comes to alone, its job comes to in an undisturbed pool. -/
theorem reaches_of_solo {w' : W} {later : List Req} (at_n : s.jobs[n]? = some job)
    (run : Solo m fair calm s.world job.rest a w' later) : ∃ t job',
      Reaches m (undisturbed n fair calm) s t ∧ t.world = w' ∧ t.jobs[n]? = some job' ∧
        job'.rest = .done a := by
  generalize start : s.world = w at run
  generalize program : job.rest = p at run
  induction run generalizing s job with
  | done w a => exact ⟨s, job, .refl, start, at_n, program⟩
  | @call w w₁ w' o c next r a later is_fair performed rest ih =>
    subst start
    have inside := (List.getElem?_eq_some_iff.mp at_n).1
    have step := step_complete (Step.run at_n program performed)
    have at_n' : (s.jobs.set n ⟨job.req, ⟨c, r⟩ :: job.past, next r⟩ ++ (m.spawns c).map m.begin)[n]? =
        some ⟨job.req, ⟨c, r⟩ :: job.past, next r⟩ := by
      rw [List.getElem?_append_left (by simpa using inside), List.getElem?_set_self inside]
    obtain ⟨t, job', goes_on, world, ends, answered⟩ := ih
      (s := ⟨w₁, _, ⟨n, o, c, r, s.world, w₁⟩ :: s.log⟩) at_n' rfl rfl
    have allowed : undisturbed (E := E) n fair calm s (.run n o) = true := by
      simp [undisturbed, is_fair]
    exact ⟨t, job', reaches_trans (.tail .refl allowed step) goes_on, world, ends, answered⟩
  | @env w w₁ w' e p a later is_calm moved rest ih =>
    subst start
    have step := step_complete (Step.env (s := s) moved)
    obtain ⟨t, job', goes_on, world, ends, answered⟩ := ih (s := { s with world := w₁ }) at_n rfl program
    have allowed : undisturbed n fair calm s (.env e) = true := is_calm
    exact ⟨t, job', reaches_trans (.tail .refl allowed step) goes_on, world, ends, answered⟩

end Pools

end SoloRun
