import VotingApp.Lib.PoolHistory

/- Scripts that any number of processes run statement by statement over one store, each up to its
   first error. A statement that goes through leaves facts behind that nobody undoes. Where every
   statement needs only what those before it have left, only a fault can stop a process. -/
namespace Scripts
open EffectProgram CallPool PoolHistory

variable {S Err W O E Req F : Type}

abbrev Tried (Err : Type) (_ : S) : Type := Except Err Unit

/-- The statements one after another; the answer is the error that has stopped them, if any. -/
def inOrder : List S → Prog S (Tried Err) (Option Err)
  | [] => .done none
  | c :: rest => .call c fun r =>
    match r with
    | .error err => .done (some err)
    | .ok () => inOrder rest

/-- The exchanges of statements that have gone through, newest first. -/
def gone (l : List S) : List (Exchange S (Tried Err)) := (l.map fun c => ⟨c, .ok ()⟩).reverse

/-- A statement is sent after those before it in the script. -/
def Sends (script : List S) (past : List (Exchange S (Tried Err))) (c : S) : Prop :=
  ∃ before rest, script = before ++ c :: rest ∧ past = gone before

def Ended (script : List S) (past : List (Exchange S (Tried Err))) : Option Err → Prop
  | none => past = gone script
  | some err => ∃ before c rest, script = before ++ c :: rest ∧ past = ⟨c, .error err⟩ :: gone before

theorem gone_concat (l : List S) (c : S) :
    (gone (l ++ [c]) : List (Exchange S (Tried Err))) = ⟨c, .ok ()⟩ :: gone l := by
  simp [gone]

theorem mem_gone {l : List S} {c : S} {r : Except Err Unit} :
    (⟨c, r⟩ : Exchange S (Tried Err)) ∈ gone l ↔ r = .ok () ∧ c ∈ l := by
  simp [gone, and_comm, eq_comm]

/- By induction on what is left of the script. -/
theorem inOrder_meets (before rest : List S) :
    (inOrder rest : Prog S (Tried Err) (Option Err)).Meets (Sends (before ++ rest))
      (Ended (before ++ rest)) (gone before) := by
  induction rest generalizing before with
  | nil =>
    change gone before = gone (before ++ [])
    rw [List.append_nil]
  | cons c rest ih =>
    constructor
    · exact ⟨before, rest, rfl, rfl⟩
    · intro r
      cases r with
      | error err => exact ⟨before, c, rest, rfl, rfl⟩
      | ok u =>
        have further := ih (before ++ [c])
        rw [gone_concat, List.append_assoc] at further
        exact further

/-- What every statement needs, given what is known before. -/
def wellOrdered [DecidableEq F] (needs leaves : S → List F) : List F → List S → Bool
  | _, [] => true
  | known, c :: rest => (needs c).all (· ∈ known) && wellOrdered needs leaves (known ++ leaves c) rest

theorem needs_left [DecidableEq F] {needs leaves : S → List F} {known : List F} {before rest : List S}
    {c : S} (ordered : wellOrdered needs leaves known (before ++ c :: rest) = true) :
    ∀ f ∈ needs c, f ∈ known ∨ ∃ d ∈ before, f ∈ leaves d := by
  induction before generalizing known with
  | nil =>
    intro f needed
    simp only [List.nil_append, wellOrdered, Bool.and_eq_true, List.all_eq_true,
      decide_eq_true_eq] at ordered
    exact Or.inl (ordered.1 f needed)
  | cons d before ih =>
    intro f needed
    simp only [List.cons_append, wellOrdered, Bool.and_eq_true] at ordered
    rcases ih ordered.2 f needed with old | ⟨e, member, left⟩
    · rcases List.mem_append.mp old with known | new
      · exact Or.inl known
      · exact Or.inr ⟨d, List.mem_cons_self, new⟩
    · exact Or.inr ⟨e, List.mem_cons_of_mem _ member, left⟩

/-- The processes run scripts of known statements, and facts last in every legal store. -/
structure Lasting (m : Machine S (Tried Err) W O E Req (Option Err)) (fair : O → Bool)
    (script : Req → List S) (legal : W → Prop) (holds : F → W → Prop) (needs leaves : S → List F) :
    Prop where
  programs : ∀ req, m.program req = inOrder (script req)
  spawns : ∀ c, m.spawns c = []
  env : ∀ {w e w'}, legal w → m.env w e = some w' → legal w' ∧ ∀ f, holds f w → holds f w'
  performs : ∀ {req w o c r w'}, c ∈ script req → legal w → m.perform w o c = some (r, w') →
    legal w' ∧ (∀ f, holds f w → holds f w') ∧ (r = .ok () → ∀ f ∈ leaves c, holds f w')
  healthy : ∀ {req w o c err w'}, c ∈ script req → legal w → (∀ f ∈ needs c, holds f w) →
    fair o = true → m.perform w o c ≠ some (.error err, w')

section Runs
variable {m : Machine S (Tried Err) W O E Req (Option Err)} {fair : O → Bool} {script : Req → List S}
  {legal : W → Prop} {holds : F → W → Prop} {needs leaves : S → List F}
  {allow : Pool S (Tried Err) W O Req (Option Err) → Label O E Req → Bool}
  {s₀ s : Pool S (Tried Err) W O Req (Option Err)} {job : Job S (Tried Err) Req (Option Err)}

/-- What a job has done left its facts behind. -/
def Behind (holds : F → W → Prop) (leaves : S → List F) (w : W)
    (past : List (Exchange S (Tried Err))) : Prop :=
  ∀ c, (⟨c, .ok ()⟩ : Exchange S (Tried Err)) ∈ past → ∀ f ∈ leaves c, holds f w

theorem behind_kept {w w' : W} {past : List (Exchange S (Tried Err))} (behind : Behind holds leaves w past)
    (lasts : ∀ f, holds f w → holds f w') : Behind holds leaves w' past :=
  fun c inside f left => lasts f (behind c inside f left)

theorem contract (lasting : Lasting m fair script legal holds needs leaves) (no_jobs : s₀.jobs = [])
    (run : Reaches m allow s₀ s) (member : job ∈ s.jobs) :
    job.rest.Meets (Sends (script job.req)) (Ended (script job.req)) job.past := by
  have meets : ∀ req, (m.program req).Meets (Sends (script req)) (Ended (script req)) [] := by
    intro req
    rw [lasting.programs req]
    exact inOrder_meets [] (script req)
  exact contract_of_job meets no_jobs run job member

/- Whatever the processes and the environment do, the store stays legal and no fact is lost. -/
theorem left_behind (lasting : Lasting m fair script legal holds needs leaves) (no_jobs : s₀.jobs = [])
    (start : legal s₀.world) (run : Reaches m allow s₀ s) :
    legal s.world ∧ ∀ job ∈ s.jobs, Behind holds leaves s.world job.past := by
  induction run with
  | refl =>
    refine ⟨start, ?_⟩
    intro job member
    rw [no_jobs] at member
    cases member
  | @tail t t' l run allowed step ih =>
    obtain ⟨legal_now, behind⟩ := ih
    cases step_sound step with
    | start req =>
      refine ⟨legal_now, ?_⟩
      intro job member
      rcases List.mem_append.mp member with old | new
      · exact behind job old
      · intro c inside
        rw [List.mem_singleton.mp new] at inside
        cases inside
    | env moved =>
      obtain ⟨legal_then, lasts⟩ := lasting.env legal_now moved
      exact ⟨legal_then, fun job member => behind_kept (behind job member) lasts⟩
    | @run i o mover c next r w at_i waiting performed =>
      have known := contract lasting no_jobs run (List.mem_of_getElem? at_i)
      rw [waiting, meets_call] at known
      obtain ⟨before, rest, order, -⟩ := known.1
      have inside : c ∈ script mover.req := by
        rw [order]
        simp
      obtain ⟨legal_then, lasts, left⟩ := lasting.performs inside legal_now performed
      refine ⟨legal_then, ?_⟩
      intro job member
      rw [lasting.spawns, List.map_nil, List.append_nil] at member
      rcases List.mem_or_eq_of_mem_set member with old | rfl
      · exact behind_kept (behind job old) lasts
      · intro d inside
        rcases List.mem_cons.mp inside with last | earlier
        · cases last
          exact left rfl
        · exact behind_kept (behind mover (List.mem_of_getElem? at_i)) lasts d earlier

/- A process that has come to the end has left behind all that its script leaves. -/
theorem script_done (lasting : Lasting m fair script legal holds needs leaves) (no_jobs : s₀.jobs = [])
    (start : legal s₀.world) (run : Reaches m allow s₀ s) (member : job ∈ s.jobs)
    (finished : job.rest = .done none) : ∀ c ∈ script job.req, ∀ f ∈ leaves c, holds f s.world := by
  intro c inside
  have ends := contract lasting no_jobs run member
  rw [finished, meets_done] at ends
  apply (left_behind lasting no_jobs start run).2 job member c
  rw [show job.past = gone (script job.req) from ends]
  exact mem_gone.mpr ⟨rfl, inside⟩

/- A process that has stopped was stopped by a fault of its own. -/
theorem stopped_by_fault [DecidableEq F] (lasting : Lasting m fair script legal holds needs leaves)
    (no_jobs : s₀.jobs = []) (fresh : s₀.log = []) (start : legal s₀.world) (run : Reaches m allow s₀ s)
    {i : Nat} (at_i : s.jobs[i]? = some job)
    (ordered : wellOrdered needs leaves [] (script job.req) = true) {err : Err}
    (stopped : job.rest = .done (some err)) : ∃ ev ∈ s.log, ev.caller = i ∧ fair ev.oracle = false := by
  have ends := contract lasting no_jobs run (List.mem_of_getElem? at_i)
  rw [stopped, meets_done] at ends
  obtain ⟨before, c, rest, order, past⟩ := ends
  rw [past_of_job no_jobs fresh run at_i] at past
  obtain ⟨newer, ev, older, split, mine, exchange, earlier, -⟩ := own_cons_split past
  obtain ⟨moment⟩ := moment_of_logged fresh run split
  have logged : ev ∈ s.log := by
    rw [split]
    simp
  refine ⟨ev, logged, mine, ?_⟩
  -- what the job had done when the statement failed had left behind what the statement needs
  have behind := left_behind lasting no_jobs start moment.reached
  have had := past_of_job no_jobs fresh moment.reached moment.waiting
  rw [moment.pre_log, mine, earlier] at had
  have ready : ∀ f ∈ needs c, holds f ev.before := by
    intro f needed
    rw [order] at ordered
    rcases needs_left ordered f needed with none_known | ⟨d, in_before, left⟩
    · cases none_known
    · rw [← moment.pre_world]
      apply behind.2 _ (List.mem_of_getElem? moment.waiting) d _ f left
      rw [had]
      exact mem_gone.mpr ⟨rfl, in_before⟩
  have inside : c ∈ script job.req := by
    rw [order]
    simp
  cases is_fair : fair ev.oracle with
  | false => rfl
  | true =>
    have performed := moment.performed
    have legal_then : legal ev.before := by
      rw [← moment.pre_world]
      exact behind.1
    obtain ⟨caller, oracle, cmd, reply, old, new⟩ := ev
    cases exchange
    exact absurd performed (lasting.healthy inside legal_then ready is_fair)

end Runs
end Scripts
