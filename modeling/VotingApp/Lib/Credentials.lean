import VotingApp.Lib.PoolHistory

/- Credentials that nobody can forge. A request carries one that is free to make up, or one
   that an answer of the same run has handed out. -/
namespace Credentials
open EffectProgram CallPool PoolHistory

variable {Cmd : Type} {Reply : Cmd → Type} {W O E Req Ans C : Type}

/-- The job has ended in an answer that hands the credential out. -/
def HandedOut (hands : Ans → Option C) (s : Pool Cmd Reply W O Req Ans) (c : C) : Prop :=
  ∃ job ∈ s.jobs, ∃ a, job.rest = .done a ∧ hands a = some c

def handsOut [DecidableEq C] (hands : Ans → Option C) (c : C) : Prog Cmd Reply Ans → Bool
  | .done a => hands a = some c
  | .call _ _ => false

/-- The requests that may be sent: those with no credential, a free one, or one handed out. -/
def unforged [DecidableEq C] (may : Req → Bool) (carries : Req → Option C) (hands : Ans → Option C)
    (free : C → Bool) (s : Pool Cmd Reply W O Req Ans) : Label O E Req → Bool
  | .start req => may req && match carries req with
    | none => true
    | some c => free c || s.jobs.any fun job => handsOut hands c job.rest
  | _ => true

section Runs
variable {m : Machine Cmd Reply W O E Req Ans} {hands : Ans → Option C} {carries : Req → Option C}
  {allow : Pool Cmd Reply W O Req Ans → Label O E Req → Bool} {s₀ s s' : Pool Cmd Reply W O Req Ans}

theorem handsOut_iff [DecidableEq C] {c : C} :
    (s.jobs.any fun job => handsOut hands c job.rest) = true ↔ HandedOut hands s c := by
  rw [List.any_eq_true]
  constructor
  · rintro ⟨job, member, holds⟩
    cases rest : job.rest with
    | call cmd next =>
      rw [rest] at holds
      cases holds
    | done a =>
      rw [rest] at holds
      exact ⟨job, member, a, rest, of_decide_eq_true holds⟩
  · rintro ⟨job, member, a, rest, handed⟩
    exact ⟨job, member, by rw [rest]; exact decide_eq_true handed⟩

/- A job that has ended stays as it is. -/
theorem done_kept {l : Label O E Req} (step : Step m s l s') {job : Job Cmd Reply Req Ans} {a : Ans}
    (member : job ∈ s.jobs) (ended : job.rest = .done a) : job ∈ s'.jobs := by
  cases step with
  | start req => exact List.mem_append_left _ member
  | env moved => exact member
  | @run i o mover c next r w at_i waiting performed =>
    obtain ⟨j, at_j⟩ := List.mem_iff_getElem?.mp member
    have other : i ≠ j := by
      intro same
      rw [same, at_j] at at_i
      cases at_i
      rw [ended] at waiting
      cases waiting
    have still : (s.jobs.set i ⟨mover.req, ⟨c, r⟩ :: mover.past, next r⟩)[j]? = some job := by
      rw [List.getElem?_set_ne other]
      exact at_j
    exact List.mem_append_left _ (List.mem_of_getElem? still)

theorem handed_kept {l : Label O E Req} (step : Step m s l s') {c : C} (handed : HandedOut hands s c) :
    HandedOut hands s' c := by
  obtain ⟨job, member, a, ended, hands_c⟩ := handed
  exact ⟨job, done_kept step member ended, a, ended, hands_c⟩

/- The jobs of a step are those of before, with their requests, and those it begins. -/
theorem request_of_step {l : Label O E Req} (step : Step m s l s') {job : Job Cmd Reply Req Ans}
    (member : job ∈ s'.jobs) : (∃ old ∈ s.jobs, old.req = job.req) ∨
      l = .start job.req ∨ ∃ c, job.req ∈ m.spawns c := by
  cases step with
  | env moved => exact Or.inl ⟨job, member, rfl⟩
  | start req =>
    cases List.mem_append.mp member with
    | inl old => exact Or.inl ⟨job, old, rfl⟩
    | inr new =>
      rw [List.mem_singleton.mp new]
      exact Or.inr (Or.inl rfl)
  | @run i o mover c next r w at_i waiting performed =>
    cases List.mem_append.mp member with
    | inl old =>
      cases List.mem_or_eq_of_mem_set old with
      | inl other => exact Or.inl ⟨job, other, rfl⟩
      | inr moved => exact Or.inl ⟨mover, List.mem_of_getElem? at_i, by rw [moved]⟩
    | inr begun =>
      obtain ⟨req, spawned, rfl⟩ := List.mem_map.mp begun
      exact Or.inr (Or.inr ⟨c, spawned⟩)

/-- The request is one that may be sent, and carries nothing but what it may have. -/
def Entitled (may : Req → Bool) (carries : Req → Option C) (hands : Ans → Option C) (free : C → Bool)
    (s : Pool Cmd Reply W O Req Ans) (req : Req) : Prop :=
  may req = true ∧ ∀ c, carries req = some c → free c = true ∨ HandedOut hands s c

/- In every run each job is entitled to what its request carries. -/
theorem entitled_of_run [DecidableEq C] {may : Req → Bool} {free : C → Bool} (no_jobs : s₀.jobs = [])
    (spawned : ∀ c, ∀ req ∈ m.spawns c, may req = true ∧ carries req = none)
    (schedule : ∀ s l, allow s l = true → unforged may carries hands free s l = true)
    (run : Reaches m allow s₀ s) : ∀ job ∈ s.jobs, Entitled may carries hands free s job.req := by
  refine reaches_inv (I := fun s => ∀ job ∈ s.jobs, Entitled may carries hands free s job.req) ?_ ?_ run
  · intro job member
    rw [no_jobs] at member
    cases member
  · intro s l s' held allowed step job member
    rcases request_of_step step member with ⟨old, in_old, same⟩ | started | ⟨c, begun⟩
    · obtain ⟨may_old, has_old⟩ := held old in_old
      rw [← same]
      exact ⟨may_old, fun c carried => (has_old c carried).imp_right (handed_kept step)⟩
    · have checked := schedule s l allowed
      rw [started, unforged, Bool.and_eq_true] at checked
      refine ⟨checked.1, ?_⟩
      intro c carried
      rw [carried] at checked
      rcases Bool.or_eq_true_iff.mp checked.2 with is_free | handed
      · exact Or.inl is_free
      · exact Or.inr (handed_kept step (handsOut_iff.mp handed))
    · obtain ⟨may_begin, none_carried⟩ := spawned c job.req begun
      refine ⟨may_begin, ?_⟩
      intro c carried
      rw [none_carried] at carried
      cases carried

end Runs
end Credentials
