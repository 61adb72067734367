import VotingApp.Lib.SoloRun

/- A machine at most one of whose commands fails. The plan counts the commands that can fail;
   when its turn comes a command meets the planned fault, and no other command meets one. -/
namespace SingleFailure
open EffectProgram CallPool SoloRun

variable {Cmd : Type} {Reply : Cmd → Type} {W O E Req Ans F : Type}

/-- How many fallible commands come before the one that fails, and how it fails; or none does. -/
abbrev Plan (F : Type) := Option (Nat × F)

/-- The fault that the fallible command after k others meets. -/
def Plan.hits (plan : Plan F) (k : Nat) : Option F :=
  plan.bind fun p => if p.1 = k then some p.2 else none

def Plan.next : Plan F → Plan F
  | some (n + 1, f) => some (n, f)
  | _ => none

/- After one fallible command the others have moved up. -/
@[simp] theorem hits_next (plan : Plan F) (k : Nat) : plan.next.hits k = plan.hits (k + 1) := by
  cases plan with
  | none => rfl
  | some p =>
    obtain ⟨n, f⟩ := p
    cases n with
    | zero => simp [Plan.next, Plan.hits]
    | succ n => simp [Plan.next, Plan.hits]

/- There is one failure at most. -/
theorem one_hit {plan : Plan F} {j k : Nat} {f g : F} (first : plan.hits j = some f)
    (second : plan.hits k = some g) : j = k := by
  simp only [Plan.hits, Option.bind_eq_some_iff, Option.ite_none_right_eq_some] at first second
  obtain ⟨p, is, at_j, -⟩ := first
  obtain ⟨q, same, at_k, -⟩ := second
  rw [is, Option.some.injEq] at same
  rw [← at_j, ← at_k, same]

/-- The machine over worlds that carry what is left of the plan. -/
def planned (m : Machine Cmd Reply W O E Req Ans) (fallible : Cmd → Bool) (fault : O → Option F)
    [DecidableEq F] : Machine Cmd Reply (W × Plan F) O E Req Ans where
  perform s o c :=
    if fault o = (if fallible c then s.2.hits 0 else none) then
      (m.perform s.1 o c).map fun r => (r.1, r.2, if fallible c then s.2.next else s.2)
    else none
  env s e := (m.env s.1 e).map fun w => (w, s.2)
  program := m.program
  spawns := m.spawns

section Planned
variable [DecidableEq F] {m : Machine Cmd Reply W O E Req Ans} {fallible : Cmd → Bool}
  {fault : O → Option F}

theorem planned_performs {s s' : W × Plan F} {o : O} {c : Cmd} {r : Reply c}
    (performed : (planned m fallible fault).perform s o c = some (r, s')) :
    fault o = (if fallible c then s.2.hits 0 else none) ∧ m.perform s.1 o c = some (r, s'.1) ∧
      s'.2 = if fallible c then s.2.next else s.2 := by
  simp only [planned, Option.ite_none_right_eq_some, Option.map_eq_some_iff] at performed
  obtain ⟨meets, r', reached, same⟩ := performed
  cases same
  exact ⟨meets, reached, rfl⟩

theorem planned_perform {w w' : W} {plan : Plan F} {o : O} {c : Cmd} {r : Reply c}
    (meets : fault o = (if fallible c then plan.hits 0 else none))
    (performed : m.perform w o c = some (r, w')) :
    (planned m fallible fault).perform (w, plan) o c =
      some (r, w', if fallible c then plan.next else plan) := by
  simp only [planned, meets, performed, ↓reduceIte, Option.map_some]

theorem planned_env {s s' : W × Plan F} {e : E}
    (moved : (planned m fallible fault).env s e = some s') :
    m.env s.1 e = some s'.1 ∧ s'.2 = s.2 := by
  simp only [planned, Option.map_eq_some_iff] at moved
  obtain ⟨w, reached, rfl⟩ := moved
  exact ⟨reached, rfl⟩

/- What the surroundings do has no part in the plan. -/
theorem calm_planned {calm : E → Bool} {w w' : W} (path : Calm m calm w w') (plan : Plan F) :
    Calm (planned m fallible fault) calm (w, plan) (w', plan) := by
  induction path with
  | refl w => exact .refl _
  | @step w w' w'' e is_calm moved rest ih =>
    have step : (planned m fallible fault).env (w, plan) e = some (w', plan) := by
      simp only [planned, moved, Option.map_some]
    exact .step is_calm step ih

end Planned
end SingleFailure
