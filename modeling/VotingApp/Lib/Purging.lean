import VotingApp.Lib.CallPool

/-!
Deleting jobs from a run. If hidden jobs change nothing that visible jobs can see, then
the run without them takes every visible job through the same replies to the same answer.
-/
namespace Purging
open EffectProgram CallPool

variable {Cmd : Type} {Reply : Cmd → Type} {W O E Req Ans : Type}

section Lists
variable {α : Type} {shown : α → Bool}

theorem filter_place {xs : List α} {i : Nat} {x : α} (at_i : xs[i]? = some x)
    (seen : shown x = true) : (xs.filter shown)[(xs.take i).countP shown]? = some x := by
  induction xs generalizing i with
  | nil => simp at at_i
  | cons y xs ih =>
    cases i with
    | zero =>
      have same : y = x := by simpa using at_i
      simp [same, seen]
    | succ i =>
      have later := ih (by simpa using at_i)
      by_cases head : shown y = true
      · simpa [head] using later
      · simpa [head] using later

theorem filter_set_shown {xs : List α} {i : Nat} {x x' : α} (at_i : xs[i]? = some x)
    (seen : shown x = true) (seen' : shown x' = true) :
    (xs.set i x').filter shown = (xs.filter shown).set ((xs.take i).countP shown) x' := by
  induction xs generalizing i with
  | nil => simp at at_i
  | cons y xs ih =>
    cases i with
    | zero =>
      have same : y = x := by simpa using at_i
      simp [same, seen, seen']
    | succ i =>
      have later := ih (by simpa using at_i)
      by_cases head : shown y = true
      · simpa [head] using later
      · simpa [head] using later

theorem filter_set_hidden {xs : List α} {i : Nat} {x x' : α} (at_i : xs[i]? = some x)
    (seen : shown x = false) (seen' : shown x' = false) :
    (xs.set i x').filter shown = xs.filter shown := by
  induction xs generalizing i with
  | nil => simp
  | cons y xs ih =>
    cases i with
    | zero =>
      have same : y = x := by simpa using at_i
      simp [same, seen, seen']
    | succ i =>
      have later := ih (by simpa using at_i)
      simp [List.filter_cons, later]

end Lists

def isShown (hidden : Req → Bool) (job : Job Cmd Reply Req Ans) : Bool := !hidden job.req

/-- What is left of a label. The visible jobs close ranks. -/
def keep (hidden : Req → Bool) (s : Pool Cmd Reply W O Req Ans) :
    Label O E Req → Option (Label O E Req)
  | .start req => if hidden req then none else some (.start req)
  | .run i o => (s.jobs[i]?.filter (isShown hidden)).map fun _ =>
      .run ((s.jobs.take i).countP (isShown hidden)) o
  | .env e => some (.env e)

/-- The labels of a run without those of the hidden jobs. -/
def purge (m : Machine Cmd Reply W O E Req Ans) (hidden : Req → Bool) :
    Pool Cmd Reply W O Req Ans → List (Label O E Req) → List (Label O E Req)
  | _, [] => []
  | s, l :: ls => (keep hidden s l).toList ++
      match m.step s l with
      | none => []
      | some s' => purge m hidden s' ls

/-- The commands a request may send: quiet ones if it is hidden, open ones otherwise. -/
def Sends (hidden : Req → Bool) (quiet open_ : Cmd → Prop) (req : Req) (c : Cmd) : Prop :=
  if hidden req = true then quiet c else open_ c

/-- Hidden commands leave everything as visible ones see it, and visible ones see and change
the same in worlds that are the same to them. -/
structure Unseen (m : Machine Cmd Reply W O E Req Ans) (hidden : Req → Bool)
    (same : W → W → Prop) (quiet open_ : Cmd → Prop) : Prop where
  issues : ∀ req, (m.program req).Issues (Sends hidden quiet open_ req)
  quiet_spawns : ∀ c, quiet c → m.spawns c = []
  open_spawns : ∀ c, open_ c → ∀ req ∈ m.spawns c, hidden req = false
  quiet_step : ∀ {w v o c r w'}, quiet c → same w v → m.perform w o c = some (r, w') → same w' v
  open_step : ∀ {w v o c r w'}, open_ c → same w v → m.perform w o c = some (r, w') →
    ∃ v', m.perform v o c = some (r, v') ∧ same w' v'
  env_step : ∀ {w v e w'}, same w v → m.env w e = some w' → ∃ v', m.env v e = some v' ∧ same w' v'

/-- The second pool is the first without its hidden jobs. -/
structure Purged (hidden : Req → Bool) (same : W → W → Prop) (quiet open_ : Cmd → Prop)
    (s t : Pool Cmd Reply W O Req Ans) : Prop where
  world : same s.world t.world
  jobs : t.jobs = s.jobs.filter (isShown hidden)
  issues : ∀ job ∈ s.jobs, job.rest.Issues (Sends hidden quiet open_ job.req)

/- Every label is allowed. -/
def free (_ : Pool Cmd Reply W O Req Ans) (_ : Label O E Req) : Bool := true

section Runs
variable {m : Machine Cmd Reply W O E Req Ans} {hidden : Req → Bool} {same : W → W → Prop}
  {quiet open_ : Cmd → Prop} (unseen : Unseen m hidden same quiet open_)

theorem shown_iff (job : Job Cmd Reply Req Ans) :
    isShown hidden job = true ↔ hidden job.req = false := by simp [isShown]

include unseen

theorem start_purged {s t : Pool Cmd Reply W O Req Ans} (purged : Purged hidden same quiet open_ s t)
    (req : Req) : Purged hidden same quiet open_ { s with jobs := s.jobs ++ [m.begin req] }
      { t with jobs := t.jobs ++ [m.begin req].filter (isShown hidden) } := by
  constructor
  · exact purged.world
  · rw [List.filter_append, ← purged.jobs]
  · intro job member
    rcases List.mem_append.mp member with old | new
    · exact purged.issues job old
    · rw [List.mem_singleton.mp new]
      exact unseen.issues req

/- What the jobs may still send after one of them has moved on. -/
theorem issues_kept {s t : Pool Cmd Reply W O Req Ans} (purged : Purged hidden same quiet open_ s t)
    {i : Nat} {job : Job Cmd Reply Req Ans} {c : Cmd} {next : Reply c → Prog Cmd Reply Ans}
    (at_i : s.jobs[i]? = some job) (waiting : job.rest = .call c next) (r : Reply c) :
    Sends hidden quiet open_ job.req c ∧
      ∀ job' ∈ s.jobs.set i ⟨job.req, ⟨c, r⟩ :: job.past, next r⟩ ++ (m.spawns c).map m.begin,
        job'.rest.Issues (Sends hidden quiet open_ job'.req) := by
  have sends := purged.issues job (List.mem_of_getElem? at_i)
  rw [waiting] at sends
  constructor
  · exact sends.1
  · intro job' member
    rcases List.mem_append.mp member with old | new
    · rcases List.mem_or_eq_of_mem_set old with before | moved
      · exact purged.issues job' before
      · rw [moved]
        exact sends.2 r
    · obtain ⟨req, _, begun⟩ := List.mem_map.mp new
      rw [← begun]
      exact unseen.issues req

/- A step of a hidden job is no step of the other run, every other step is one. -/
theorem step_purged {s s' t : Pool Cmd Reply W O Req Ans} {l : Label O E Req}
    (purged : Purged hidden same quiet open_ s t) (step : Step m s l s') :
    (keep hidden s l = none ∧ Purged hidden same quiet open_ s' t) ∨
      ∃ l' t', keep hidden s l = some l' ∧ m.step t l' = some t' ∧
        Purged hidden same quiet open_ s' t' := by
  cases step with
  | start req =>
    have more := start_purged unseen purged req
    by_cases is : hidden req = true
    · left
      have none_new : [m.begin req].filter (isShown hidden) = [] := by
        simp [isShown, Machine.begin, is]
      rw [none_new, List.append_nil] at more
      exact ⟨if_pos is, more⟩
    · right
      have one_new : [m.begin req].filter (isShown hidden) = [m.begin req] := by
        simp [isShown, Machine.begin, is]
      rw [one_new] at more
      exact ⟨_, _, if_neg is, rfl, more⟩
  | @env e w moved =>
    right
    obtain ⟨v, moved', world⟩ := unseen.env_step purged.world moved
    exact ⟨_, { t with world := v }, rfl, step_complete (.env moved'), world, purged.jobs,
      purged.issues⟩
  | @run i o job c next r w at_i waiting performed =>
    obtain ⟨sends, issues⟩ := issues_kept unseen purged at_i waiting r
    by_cases is : hidden job.req = true
    · left
      have quietly : quiet c := by simpa [Sends, is] using sends
      have unshown : isShown hidden job = false := by simp [isShown, is]
      constructor
      · simp [keep, at_i, unshown]
      · constructor
        · exact unseen.quiet_step quietly purged.world performed
        · rw [unseen.quiet_spawns c quietly, List.map_nil, List.append_nil,
            filter_set_hidden at_i unshown (by simp [isShown, is])]
          exact purged.jobs
        · exact issues
    · right
      have openly : open_ c := by simpa [Sends, is] using sends
      have shown : isShown hidden job = true := by simp [isShown, is]
      obtain ⟨v, performed', world⟩ := unseen.open_step openly purged.world performed
      have at_place : t.jobs[(s.jobs.take i).countP (isShown hidden)]? = some job := by
        rw [purged.jobs]
        exact filter_place at_i shown
      refine ⟨_, _, by simp [keep, at_i, shown], step_complete (.run at_place waiting performed'),
        world, ?_, issues⟩
      have spawned : ((m.spawns c).map m.begin).filter (isShown hidden) =
          (m.spawns c).map m.begin := by
        rw [List.filter_eq_self]
        intro job' member
        obtain ⟨req, spawn, begun⟩ := List.mem_map.mp member
        rw [← begun, shown_iff]
        exact unseen.open_spawns c openly req spawn
      dsimp only
      rw [List.filter_append, spawned, filter_set_shown at_i shown (by simp [isShown, is]),
        ← purged.jobs]

/- The run without the hidden jobs exists, and its jobs are the visible ones as they are. -/
theorem exec_purged {s s' t : Pool Cmd Reply W O Req Ans} {ls : List (Label O E Req)}
    (purged : Purged hidden same quiet open_ s t) (run : exec m free s ls = some s') :
    ∃ t', exec m free t (purge m hidden s ls) = some t' ∧ Purged hidden same quiet open_ s' t' := by
  induction ls generalizing s t with
  | nil =>
    cases run
    exact ⟨t, rfl, purged⟩
  | cons l ls ih =>
    simp only [exec, free, if_true, Option.bind_eq_some_iff] at run
    obtain ⟨s₁, step, rest⟩ := run
    rw [purge, step]
    dsimp only
    rcases step_purged unseen purged (step_sound step) with ⟨gone, more⟩ | ⟨l', t₁, kept, step', more⟩
    · rw [gone]
      exact ih more rest
    · obtain ⟨t', run', final⟩ := ih more rest
      refine ⟨t', ?_, final⟩
      rw [kept]
      simp only [Option.toList_some, List.singleton_append, exec, free, if_true, step',
        Option.bind_some]
      exact run'

end Runs
end Purging
