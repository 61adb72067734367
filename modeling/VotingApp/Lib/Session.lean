import VotingApp.Lib.SoloRun

/- Calls made one after another, each executed alone. A machine can be cut down to the
   steps that a condition on the world, the oracle and the command admits; a session over
   the cut machine is one whose every step meets the condition. -/
namespace Session
open EffectProgram CallPool SoloRun

variable {Cmd : Type} {Reply : Cmd → Type} {W O E Req Ans V α : Type}

/-- The machine without the steps that are not admitted. -/
def restrict (m : Machine Cmd Reply W O E Req Ans) (admits : W → O → Cmd → Bool) :
    Machine Cmd Reply W O E Req Ans :=
  { m with perform := fun w o c => if admits w o c then m.perform w o c else none }

theorem restrict_performs {m : Machine Cmd Reply W O E Req Ans} {admits : W → O → Cmd → Bool}
    {w w' : W} {o : O} {c : Cmd} {r : Reply c}
    (performed : (restrict m admits).perform w o c = some (r, w')) :
    admits w o c = true ∧ m.perform w o c = some (r, w') := by
  simpa only [restrict, Option.ite_none_right_eq_some] using performed

def anyOracle (_ : O) : Bool := true

def anyMove (_ : E) : Bool := true

/-- The program is executed alone, whatever its oracles and its surroundings do. -/
abbrev Executed (m : Machine Cmd Reply W O E Req Ans) (w : W) (p : Prog Cmd Reply α) (a : α)
    (w' : W) (later : List Req) : Prop := Solo m anyOracle anyMove w p a w' later

/-- What calls were made, what each answered, and the world they lead to. What they leave
to be done in the background is called like anything else, at some time or never. -/
inductive Calls (m : Machine Cmd Reply W O E Req Ans) (w₀ : W) : List (Req × Ans) → W → Prop where
  | start : Calls m w₀ [] w₀
  | call {calls : List (Req × Ans)} {w w' : W} {req : Req} {a : Ans} {later : List Req}
      (run : Calls m w₀ calls w) (executed : Executed m w (m.program req) a w' later) :
      Calls m w₀ (calls ++ [(req, a)]) w'
  | env {calls : List (Req × Ans)} {w w' : W} {e : E} (run : Calls m w₀ calls w)
      (moved : m.env w e = some w') : Calls m w₀ calls w'

section Invariants
variable {m : Machine Cmd Reply W O E Req Ans} {w₀ w : W} {calls : List (Req × Ans)}
  {view : W → V} {may : V → (c : Cmd) → Reply c → V → Prop}

/-- What every call makes of the view. -/
abbrev Ending (m : Machine Cmd Reply W O E Req Ans) (view : W → V) (v : V)
    (p : Prog Cmd Reply α) (Q : α → V → Prop) : Prop := Ends m anyOracle anyMove view v p Q

/- What one call keeps, a session keeps. -/
theorem calls_keep (allows : Allows m anyOracle anyMove view may) {among : Req → Prop}
    {J : List (Req × Ans) → V → Prop} (init : J [] (view w₀))
    (keeps : ∀ calls v req, among req → J calls v →
      Ending m view v (m.program req) fun a v' => J (calls ++ [(req, a)]) v')
    (run : Calls m w₀ calls w) (only : ∀ call ∈ calls, among call.1) : J calls (view w) := by
  induction run with
  | start => exact init
  | @call calls w w' req a later run executed ih =>
    have held := ih fun call member => only call (List.mem_append_left _ member)
    have among_req : among req := only (req, a) (by simp)
    exact keeps calls (view w) req among_req held w a w' later rfl executed
  | env run moved ih =>
    rw [allows.env rfl moved]
    exact ih only

end Invariants

/- A call of the session was executed from a world that the earlier ones lead to. -/
theorem calls_split {m : Machine Cmd Reply W O E Req Ans} {w₀ w : W} {calls before after : List (Req × Ans)}
    {req : Req} {a : Ans} (run : Calls m w₀ calls w) (split : calls = before ++ (req, a) :: after) :
    ∃ w₁ w₂ later, Calls m w₀ before w₁ ∧ Executed m w₁ (m.program req) a w₂ later := by
  induction run generalizing after with
  | start => simp at split
  | @call calls w₁ w₂ req' a' later run executed ih =>
    rcases List.eq_nil_or_concat after with nothing | ⟨front, last, snoc⟩
    · rw [nothing] at split
      obtain ⟨rfl, same⟩ := List.append_inj' split rfl
      cases same
      exact ⟨w₁, w₂, later, run, executed⟩
    · rw [snoc, List.concat_eq_append, ← List.cons_append, ← List.append_assoc] at split
      exact ih (List.append_inj' split rfl).1
  | env run moved ih => exact ih split

/- An execution whose steps are all admitted is one over the cut machine. -/
theorem executed_restrict {m : Machine Cmd Reply W O E Req Ans} {admits : W → O → Cmd → Bool}
    {fair : O → Bool} {calm : E → Bool} {allowed : Cmd → Prop}
    (admitted : ∀ w o c, fair o = true → allowed c → admits w o c = true) {w w' : W}
    {p : Prog Cmd Reply α} {a : α} {later : List Req} (run : Solo m fair calm w p a w' later)
    (uses : p.Issues allowed) : Executed (restrict m admits) w p a w' later := by
  induction run with
  | done w a => exact .done w a
  | @call w w' w'' o c next r a later is_fair performed rest ih =>
    have cut : (restrict m admits).perform w o c = some (r, w') :=
      (if_pos (admitted w o c is_fair uses.1)).trans performed
    exact Solo.call (m := restrict m admits) rfl cut (ih (uses.2 r))
  | env is_calm moved rest ih => exact .env rfl moved (ih uses)

/-- The answer and the world when the commands meet these oracles, one each. -/
def play (m : Machine Cmd Reply W O E Req Ans) : List O → W → Prog Cmd Reply α → Option (α × W)
  | _, w, .done a => some (a, w)
  | [], _, .call _ _ => none
  | o :: os, w, .call c next => (m.perform w o c).bind fun r => play m os r.2 (next r.1)

theorem executed_of_play {m : Machine Cmd Reply W O E Req Ans} {os : List O} {w w' : W}
    {p : Prog Cmd Reply α} {a : α} (played : play m os w p = some (a, w')) :
    ∃ later, Executed m w p a w' later := by
  induction os generalizing w p with
  | nil =>
    cases p with
    | done b =>
      cases played
      exact ⟨[], .done _ _⟩
    | call c next => cases played
  | cons o os ih =>
    cases p with
    | done b =>
      cases played
      exact ⟨[], .done _ _⟩
    | call c next =>
      rw [play, Option.bind_eq_some_iff] at played
      obtain ⟨r, performed, goes_on⟩ := played
      obtain ⟨later, rest⟩ := ih goes_on
      exact ⟨_, .call rfl performed rest⟩

/-- A whole session, call after call. -/
def playCalls (m : Machine Cmd Reply W O E Req Ans) :
    List (Req × List O) → List (Req × Ans) × W → Option (List (Req × Ans) × W)
  | [], reached => some reached
  | (req, os) :: script, reached => (play m os reached.2 (m.program req)).bind fun r =>
      playCalls m script (reached.1 ++ [(req, r.1)], r.2)

theorem calls_of_play {m : Machine Cmd Reply W O E Req Ans} {script : List (Req × List O)}
    {w₀ : W} {before after : List (Req × Ans) × W} (run : Calls m w₀ before.1 before.2)
    (played : playCalls m script before = some after) : Calls m w₀ after.1 after.2 := by
  induction script generalizing before with
  | nil =>
    cases played
    exact run
  | cons head script ih =>
    rw [playCalls, Option.bind_eq_some_iff] at played
    obtain ⟨r, answered, goes_on⟩ := played
    obtain ⟨later, executed⟩ := executed_of_play answered
    exact ih (.call run executed) goes_on

/-- Where a script leads, when every step of it can be taken. -/
def played (m : Machine Cmd Reply W O E Req Ans) (w₀ : W) (script : List (Req × List O)) :
    List (Req × Ans) × W :=
  (playCalls m script ([], w₀)).getD ([], w₀)

theorem calls_played {m : Machine Cmd Reply W O E Req Ans} {w₀ : W} {script : List (Req × List O)}
    (runs : (playCalls m script ([], w₀)).isSome = true) :
    Calls m w₀ (played m w₀ script).1 (played m w₀ script).2 := by
  obtain ⟨after, reached⟩ := Option.isSome_iff_exists.mp runs
  have run : Calls m w₀ after.1 after.2 := calls_of_play .start reached
  rw [played, reached]
  exact run

end Session
