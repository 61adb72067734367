import Mathlib.Data.List.Forall2
import VotingApp.Lib.CallPool

/- Two runs of one machine side by side. Their worlds, commands and replies need not be equal
   but alike, and nothing of the difference reaches an answer. -/
namespace Lockstep
open EffectProgram CallPool

variable {Cmd : Type} {Reply : Cmd → Type} {W O E Req Ans α β : Type}

/-- What is alike for a request: the commands, their replies, and the oracles that settle them. -/
structure Likeness (Cmd : Type) (Reply : Cmd → Type) (W O Req : Type) where
  worlds : W → W → Prop
  cmds : Req → Cmd → Cmd → Prop
  replies : Req → (c c' : Cmd) → Reply c → Reply c' → Prop
  oracles : Req → O → O → Prop

/-- Two programs that send alike commands, and after alike replies come to the same result. -/
inductive InStep (cmds : Cmd → Cmd → Prop) (replies : (c c' : Cmd) → Reply c → Reply c' → Prop) :
    Prog Cmd Reply α → Prog Cmd Reply α → Prop where
  | done (a : α) : InStep cmds replies (.done a) (.done a)
  | call {c c' : Cmd} {next : Reply c → Prog Cmd Reply α} {next' : Reply c' → Prog Cmd Reply α}
      (alike : cmds c c')
      (rest : ∀ r r', replies c c' r r' → InStep cmds replies (next r) (next' r')) :
      InStep cmds replies (.call c next) (.call c' next')

section Rules
variable {cmds : Cmd → Cmd → Prop} {replies : (c c' : Cmd) → Reply c → Reply c' → Prop}

theorem instep_bind {p p' : Prog Cmd Reply α} {f f' : α → Prog Cmd Reply β}
    (first : InStep cmds replies p p') (rest : ∀ a, InStep cmds replies (f a) (f' a)) :
    InStep cmds replies (p >>= f) (p' >>= f') := by
  induction first with
  | done a => exact rest a
  | call alike _ ih => exact .call alike ih

theorem instep_map {p p' : Prog Cmd Reply α} (f : α → β) (h : InStep cmds replies p p') :
    InStep cmds replies (f <$> p) (f <$> p') :=
  instep_bind h fun a => .done (f a)

/- A command whose replies are alike only when they are equal. -/
theorem instep_same {c : Cmd} {next next' : Reply c → Prog Cmd Reply α} (alike : cmds c c)
    (equal : ∀ r r', replies c c r r' → r = r')
    (rest : ∀ r, InStep cmds replies (next r) (next' r)) :
    InStep cmds replies (.call c next) (.call c next') := by
  apply InStep.call alike
  intro r r' told
  cases equal r r' told
  exact rest r

/- A program of such commands is in step with itself. -/
theorem instep_of_issues {allowed : Cmd → Prop} {p : Prog Cmd Reply α} (uses : p.Issues allowed)
    (alike : ∀ c, allowed c → cmds c c)
    (equal : ∀ c, allowed c → ∀ r r', replies c c r r' → r = r') : InStep cmds replies p p := by
  induction p with
  | done a => exact .done a
  | call c next ih => exact instep_same (alike c uses.1) (equal c uses.1) fun r => ih r (uses.2 r)

theorem instep_waits {c : Cmd} {next : Reply c → Prog Cmd Reply α} {p : Prog Cmd Reply α}
    (h : InStep cmds replies (.call c next) p) : ∃ c' next', p = .call c' next' ∧ cmds c c' ∧
      ∀ r r', replies c c' r r' → InStep cmds replies (next r) (next' r') := by
  cases h with
  | call alike rest => exact ⟨_, _, rfl, alike, rest⟩

end Rules

/-- From alike worlds, alike commands under alike oracles lead to alike worlds again. Only fine
requests are promised to run in step. -/
structure Respects (m : Machine Cmd Reply W O E Req Ans) (L : Likeness Cmd Reply W O Req)
    (fine : Req → Prop) : Prop where
  program : ∀ req, fine req → InStep (L.cmds req) (L.replies req) (m.program req) (m.program req)
  spawns : ∀ {req c c'}, L.cmds req c c' →
    m.spawns c = m.spawns c' ∧ ∀ new ∈ m.spawns c, fine new
  perform : ∀ {req w v o o' c c' r w'}, L.worlds w v → L.cmds req c c' → L.oracles req o o' →
    m.perform w o c = some (r, w') →
      ∃ r' v', m.perform v o' c' = some (r', v') ∧ L.replies req c c' r r' ∧ L.worlds w' v'
  env : ∀ {w v e w'}, L.worlds w v → m.env w e = some w' →
    ∃ v', m.env v e = some v' ∧ L.worlds w' v'

/-- The label with the oracle that is picked for the job it moves, at the nth step. -/
def turn (pick : Nat → Req → O → O) (n : Nat) (s : Pool Cmd Reply W O Req Ans) :
    Label O E Req → Label O E Req
  | .run i o => .run i (s.jobs[i]?.elim o fun job => pick n job.req o)
  | l => l

/-- The labels of a run from the nth step on, with the oracles picked anew. -/
def retold (m : Machine Cmd Reply W O E Req Ans) (pick : Nat → Req → O → O) :
    Nat → Pool Cmd Reply W O Req Ans → List (Label O E Req) → List (Label O E Req)
  | _, _, [] => []
  | n, s, l :: ls => turn pick n s l ::
      match m.step s l with
      | none => []
      | some s' => retold m pick (n + 1) s' ls

/-- The jobs are the same ones, and each is in step with its other self. -/
structure Matched (L : Likeness Cmd Reply W O Req) (fine : Req → Prop)
    (s t : Pool Cmd Reply W O Req Ans) : Prop where
  world : L.worlds s.world t.world
  jobs : List.Forall₂ (fun job job' => job.req = job'.req ∧ fine job.req ∧
    InStep (L.cmds job.req) (L.replies job.req) job.rest job'.rest) s.jobs t.jobs

/-- The answer, if there is one yet. -/
def answered : Prog Cmd Reply Ans → Option Ans
  | .done a => some a
  | .call _ _ => none

/-- What a job shows of itself. -/
def shown (job : Job Cmd Reply Req Ans) : Req × Option Ans := (job.req, answered job.rest)

section Lists
variable {A B : Type} {R : A → B → Prop}

theorem forall₂_at {xs : List A} {ys : List B} (h : List.Forall₂ R xs ys) {i : Nat} {x : A}
    (at_i : xs[i]? = some x) : ∃ y, ys[i]? = some y ∧ R x y := by
  induction h generalizing i with
  | nil => simp at at_i
  | cons head _ ih =>
    cases i with
    | zero =>
      cases at_i
      exact ⟨_, rfl, head⟩
    | succ i => exact ih at_i

theorem forall₂_set {xs : List A} {ys : List B} (h : List.Forall₂ R xs ys) (i : Nat) {x : A}
    {y : B} (related : R x y) : List.Forall₂ R (xs.set i x) (ys.set i y) := by
  induction h generalizing i with
  | nil => exact .nil
  | cons head tail ih =>
    cases i with
    | zero => exact .cons related tail
    | succ i => exact .cons head (ih i)

end Lists

section Runs
variable {m : Machine Cmd Reply W O E Req Ans} {L : Likeness Cmd Reply W O Req} {fine : Req → Prop}
  {pick pick' : Nat → Req → O → O}

theorem begun_in_step (respects : Respects m L fine) {req : Req} (ok : fine req) :
    (m.begin req).req = (m.begin req).req ∧ fine (m.begin req).req ∧
      InStep (L.cmds (m.begin req).req) (L.replies (m.begin req).req) (m.begin req).rest
        (m.begin req).rest :=
  ⟨rfl, ok, respects.program req ok⟩

theorem turn_matched {s t : Pool Cmd Reply W O Req Ans} (matched : Matched L fine s t) (n : Nat)
    (l : Label O E Req) : turn pick n t l = turn pick n s l := by
  cases l with
  | run i o =>
    cases at_i : s.jobs[i]? with
    | some job =>
      obtain ⟨job', at_i', same, -⟩ := forall₂_at matched.jobs at_i
      simp [turn, at_i, at_i', same]
    | none =>
      have short : t.jobs[i]? = none := by
        rw [List.getElem?_eq_none_iff] at at_i ⊢
        rw [← matched.jobs.length_eq]
        exact at_i
      simp [turn, at_i, short]
  | _ => rfl

theorem turn_id (n : Nat) (s : Pool Cmd Reply W O Req Ans) (l : Label O E Req) :
    turn (fun _ _ o => o) n s l = l := by
  cases l with
  | run i o => cases at_i : s.jobs[i]? <;> simp [turn, at_i]
  | _ => rfl

/- Each step has its other self, with the other oracle. -/
theorem step_matched (respects : Respects m L fine) {n : Nat} (pick pick' : Nat → Req → O → O)
    (picks : ∀ req o, L.oracles req (pick n req o) (pick' n req o))
    {s s' t : Pool Cmd Reply W O Req Ans} {l : Label O E Req}
    (matched : Matched L fine s t) (ok : ∀ req, l = .start req → fine req)
    (step : m.step s (turn pick n s l) = some s') :
    ∃ t', m.step t (turn pick' n s l) = some t' ∧ Matched L fine s' t' := by
  cases l with
  | start req =>
    cases step
    refine ⟨_, rfl, matched.world, List.rel_append matched.jobs (.cons ?_ .nil)⟩
    exact begun_in_step respects (ok req rfl)
  | env e =>
    cases step_sound step with
    | env moved =>
      obtain ⟨v, moved', world⟩ := respects.env matched.world moved
      exact ⟨_, step_complete (.env moved'), world, matched.jobs⟩
  | run i o =>
    cases at_i : s.jobs[i]? with
    | none => simp [turn, at_i, Machine.step] at step
    | some job =>
      simp only [turn, at_i, Option.elim_some] at step ⊢
      obtain ⟨job', at_i', same, job_fine, in_step⟩ := forall₂_at matched.jobs at_i
      cases step_sound step with
      | @run _ _ mover c next r w at_mover waiting performed =>
        obtain rfl : job = mover := Option.some.inj (at_i.symm.trans at_mover)
        rw [waiting] at in_step
        obtain ⟨c', next', waiting', alike, rest⟩ := instep_waits in_step
        obtain ⟨r', v, performed', told, world⟩ :=
          respects.perform matched.world alike (picks job.req o) performed
        obtain ⟨same_spawns, fine_spawns⟩ := respects.spawns alike
        refine ⟨_, step_complete (.run at_i' waiting' performed'), world, ?_⟩
        dsimp only
        rw [← same_spawns, ← same]
        apply List.rel_append
        · exact forall₂_set matched.jobs i ⟨rfl, job_fine, rest r r' told⟩
        · apply List.forall₂_same.mpr
          intro new member
          obtain ⟨req, spawned, rfl⟩ := List.mem_map.mp member
          exact begun_in_step respects (fine_spawns req spawned)

/- A whole run has its other self, when the oracles are picked anew. -/
theorem exec_matched (respects : Respects m L fine)
    (picks : ∀ n req o, L.oracles req o (pick n req o)) (n : Nat)
    {allow : Pool Cmd Reply W O Req Ans → Label O E Req → Bool} (free : ∀ s l, allow s l = true)
    {s s' t : Pool Cmd Reply W O Req Ans} {ls : List (Label O E Req)}
    (matched : Matched L fine s t) (ok : ∀ req, Label.start req ∈ ls → fine req)
    (run : exec m allow s ls = some s') :
    ∃ t', exec m allow t (retold m pick n s ls) = some t' ∧ Matched L fine s' t' := by
  induction ls generalizing n s t with
  | nil =>
    cases run
    exact ⟨t, rfl, matched⟩
  | cons l ls ih =>
    simp only [exec, free, if_true, Option.bind_eq_some_iff] at run
    obtain ⟨s₁, step, rest⟩ := run
    have unturned : m.step s (turn (fun _ _ o => o) n s l) = some s₁ := by rw [turn_id, step]
    obtain ⟨t₁, step', matched'⟩ := step_matched respects (fun _ _ o => o) pick (picks n) matched
      (fun req same => ok req (by simp [same])) unturned
    obtain ⟨t', run', final⟩ := ih (n + 1) matched' (fun req member => ok req (by simp [member])) rest
    refine ⟨t', ?_, final⟩
    simp only [retold, step, exec, free, if_true, step', Option.bind_some]
    exact run'

theorem answer_shared {cmds : Cmd → Cmd → Prop} {replies : (c c' : Cmd) → Reply c → Reply c' → Prop}
    {p p' : Prog Cmd Reply Ans} (h : InStep cmds replies p p') : answered p' = answered p := by
  cases h <;> rfl

/- Nothing that the calls show is different. -/
theorem shown_matched {s t : Pool Cmd Reply W O Req Ans} (matched : Matched L fine s t) :
    t.jobs.map shown = s.jobs.map shown := by
  have same := matched.jobs
  generalize s.jobs = xs at same
  generalize t.jobs = ys at same
  induction same with
  | nil => rfl
  | @cons job job' _ _ head _ ih =>
    obtain ⟨same_req, -, in_step⟩ := head
    rw [List.map_cons, List.map_cons, ih, shown, shown, ← same_req, answer_shared in_step]

end Runs
end Lockstep
