import VotingApp.Lib.PoolHistory

/- What a machine stores, and what its jobs have read of it. A fact that every write derives
   from what its job has read holds of all that is stored and of all that has been read. -/
namespace Derived
open EffectProgram CallPool PoolHistory

variable {Cmd : Type} {Reply : Cmd → Type} {W O E Req Ans X : Type}

/-- The values of a store, those an exchange has read, and a fact about them that no step undoes. -/
structure Derives (m : Machine Cmd Reply W O E Req Ans)
    (allow : Pool Cmd Reply W O Req Ans → Label O E Req → Bool) (s₀ : Pool Cmd Reply W O Req Ans)
    (stored : W → X → Prop) (reads : Exchange Cmd Reply → X → Prop)
    (fact : Pool Cmd Reply W O Req Ans → X → Prop) : Prop where
  stable : ∀ {s s' l x}, Reaches m allow s₀ s → Step m s l s' → fact s x → fact s' x
  env : ∀ {w w' e x}, m.env w e = some w' → stored w' x → stored w x
  read : ∀ {w w' o x} {c : Cmd} {r : Reply c}, m.perform w o c = some (r, w') → reads ⟨c, r⟩ x → stored w x
  write : ∀ {s s' i o w' x} {job : Job Cmd Reply Req Ans} {c : Cmd} {r : Reply c}
    {next : Reply c → Prog Cmd Reply Ans}, Reaches m allow s₀ s → Step m s (.run i o) s' →
      s.jobs[i]? = some job → job.rest = .call c next → m.perform s.world o c = some (r, w') →
      (∀ y, stored s.world y → fact s y) → (∀ past ∈ job.past, ∀ y, reads past y → fact s y) →
      stored w' x → fact s' x

section Runs
variable {m : Machine Cmd Reply W O E Req Ans}
  {allow : Pool Cmd Reply W O Req Ans → Label O E Req → Bool} {s₀ s : Pool Cmd Reply W O Req Ans}
  {stored : W → X → Prop} {reads : Exchange Cmd Reply → X → Prop}
  {fact : Pool Cmd Reply W O Req Ans → X → Prop}

/- By induction on the run: a step stores what its job derives, and reads what is stored. -/
theorem derived_of_run (derives : Derives m allow s₀ stored reads fact) (no_jobs : s₀.jobs = [])
    (start : ∀ x, stored s₀.world x → fact s₀ x) (run : Reaches m allow s₀ s) :
    (∀ x, stored s.world x → fact s x) ∧
      ∀ job ∈ s.jobs, ∀ past ∈ job.past, ∀ x, reads past x → fact s x := by
  induction run with
  | refl =>
    constructor
    · exact start
    · intro job member
      rw [no_jobs] at member
      cases member
  | @tail t t' l run allowed step ih =>
    obtain ⟨in_store, in_jobs⟩ := ih
    have taken := step_sound step
    have still : ∀ x, fact t x → fact t' x := fun x held => derives.stable run taken held
    cases taken with
    | start req =>
      constructor
      · exact fun x held => still x (in_store x held)
      · intro job member past inside x read
        cases List.mem_append.mp member with
        | inl old => exact still x (in_jobs job old past inside x read)
        | inr new =>
          rw [List.mem_singleton.mp new] at inside
          cases inside
    | env moved =>
      constructor
      · exact fun x held => still x (in_store x (derives.env moved held))
      · exact fun job member past inside x read => still x (in_jobs job member past inside x read)
    | @run i o job c next r w at_i waiting performed =>
      have mine := in_jobs job (List.mem_of_getElem? at_i)
      constructor
      · intro x held
        exact derives.write run (step_sound step) at_i waiting performed in_store mine held
      · intro job' member past inside x read
        cases List.mem_append.mp member with
        | inl old =>
          cases List.mem_or_eq_of_mem_set old with
          | inl other => exact still x (in_jobs job' other past inside x read)
          | inr moved =>
            rw [moved] at inside
            cases List.mem_cons.mp inside with
            | inl last =>
              rw [last] at read
              exact still x (in_store x (derives.read performed read))
            | inr before => exact still x (mine past before x read)
        | inr begun =>
          obtain ⟨req, -, rfl⟩ := List.mem_map.mp begun
          cases inside

end Runs
end Derived
