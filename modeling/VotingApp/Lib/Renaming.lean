import VotingApp.Lib.CallPool

/- A machine whose requests say more than another machine looks at. Forgetting the rest of
   every request turns the runs of the one into runs of the other. -/
namespace Renaming
open EffectProgram CallPool

variable {Cmd : Type} {Reply : Cmd → Type} {W O E Req Req' Ans : Type}

/-- The fuller machine runs every request as the plain one runs what is left of it. -/
structure Renames (full : Machine Cmd Reply W O E Req' Ans) (plain : Machine Cmd Reply W O E Req Ans)
    (f : Req' → Req) : Prop where
  perform : full.perform = plain.perform
  env : full.env = plain.env
  program : ∀ req, full.program req = plain.program (f req)
  spawns : ∀ c, (full.spawns c).map f = plain.spawns c

def Job.rename (f : Req' → Req) (job : Job Cmd Reply Req' Ans) : Job Cmd Reply Req Ans :=
  ⟨f job.req, job.past, job.rest⟩

def Pool.rename (f : Req' → Req) (s : Pool Cmd Reply W O Req' Ans) : Pool Cmd Reply W O Req Ans :=
  { world := s.world
    jobs := s.jobs.map (Job.rename f)
    log := s.log }

def Label.rename (f : Req' → Req) : Label O E Req' → Label O E Req
  | .start req => .start (f req)
  | .run i o => .run i o
  | .env e => .env e

section Forgetting
variable {full : Machine Cmd Reply W O E Req' Ans} {plain : Machine Cmd Reply W O E Req Ans}
  {f : Req' → Req}

theorem begin_rename (renames : Renames full plain f) (req : Req') :
    Job.rename f (full.begin req) = plain.begin (f req) := by
  rw [Job.rename, Machine.begin, Machine.begin, renames.program]

/- Every step of the fuller machine is one of the plain machine, and the other way round. -/
theorem step_rename (renames : Renames full plain f) (s : Pool Cmd Reply W O Req' Ans)
    (l : Label O E Req') :
    plain.step (Pool.rename f s) (Label.rename f l) = (full.step s l).map (Pool.rename f) := by
  cases l with
  | start req =>
    simp [Label.rename, Machine.step, Pool.rename, begin_rename renames]
  | env e =>
    simp only [Label.rename, Machine.step, Pool.rename, ← renames.env]
    cases full.env s.world e <;> rfl
  | run i o =>
    simp only [Label.rename, Machine.step, Pool.rename, List.getElem?_map]
    cases s.jobs[i]? with
    | none => rfl
    | some job =>
      obtain ⟨req, past, rest⟩ := job
      cases rest with
      | done a => rfl
      | call c next =>
        simp only [Option.map_some, Option.bind_some, Job.rename, Machine.resume, ← renames.perform]
        cases full.perform s.world o c with
        | none => rfl
        | some reached =>
          have started : (full.spawns c).map (Job.rename f ∘ full.begin) =
              (plain.spawns c).map plain.begin := by
            rw [← renames.spawns, List.map_map]
            apply List.map_congr_left
            intro req _
            exact begin_rename renames req
          simp [Pool.rename, List.map_set, Job.rename, started]

theorem exec_rename (renames : Renames full plain f)
    {allow : Pool Cmd Reply W O Req Ans → Label O E Req → Bool}
    (s : Pool Cmd Reply W O Req' Ans) (ls : List (Label O E Req')) :
    exec plain allow (Pool.rename f s) (ls.map (Label.rename f)) =
      (exec full (fun s l => allow (Pool.rename f s) (Label.rename f l)) s ls).map
        (Pool.rename f) := by
  induction ls generalizing s with
  | nil => rfl
  | cons l ls ih =>
    rw [List.map_cons, exec, exec, step_rename renames]
    split
    · cases full.step s l with
      | none => rfl
      | some s' => exact ih s'
    · rfl

end Forgetting
end Renaming
