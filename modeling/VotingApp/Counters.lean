import VotingApp.Frames

/-!
Counters in Redis. A key that is only counted up, given a deadline or deleted holds
how often it has been counted since it was last absent.
-/
namespace Counters
open GoText EffectProgram CallPool PoolHistory ExpiringStore VotingWorld Handlers VotingServer Frames

/-- The number under a key, zero when there is none. -/
def tally (k : Str) (w : World) : Int :=
  match w.redis.lookup w.clock k with
  | some ⟨.number n, _⟩ => n
  | _ => 0

/-- The key is absent or holds a positive number. -/
def Counting (k : Str) (w : World) : Prop := ∀ e, w.redis k = some e →
  ∃ n d, e = ⟨.number n, d⟩ ∧ 1 ≤ n

/-- What an event leaves under the key: one more, or what was there before, or nothing. -/
def CountsUp (k : Str) (ev : LogEntry) : Prop := ∀ e, ev.after.redis k = some e →
  (ev.cmd = .redis (.incr k) ∧ ∃ d, e = ⟨.number (tally k ev.before + 1), d⟩) ∨
    (ev.cmd ≠ .redis (.incr k) ∧ ∃ d, ev.before.redis k = some ⟨e.value, d⟩)

def increments (k : Str) (ev : LogEntry) : Bool := ev.cmd = .redis (.incr k)

/-- From its first count in these events on the counter is never lost. -/
def Unbroken (k : Str) (mid : Log) : Prop := ∀ late ev early, mid = late ++ ev :: early →
  (∃ c ∈ early, c.cmd = .redis (.incr k)) → tally k ev.before ≠ 0

section Values
variable {k : Str} {w : World}

theorem tally_of_live {n : Int} {d : Option Nat} (held : w.redis k = some ⟨.number n, d⟩)
    (positive : 1 ≤ n) :
    0 ≤ tally k w ∧ tally k w ≤ n ∧ (tally k w ≠ 0 → tally k w = n) := by
  have value : tally k w =
      if Entry.live w.clock (⟨.number n, d⟩ : Entry Str) = true then n else 0 := by
    unfold tally Store.lookup
    rw [held, Option.filter_some]
    cases Entry.live w.clock (⟨.number n, d⟩ : Entry Str) <;> rfl
  rw [value]
  split
  · exact ⟨by omega, by omega, fun _ => rfl⟩
  · exact ⟨by omega, by omega, fun h => absurd rfl h⟩

theorem tally_absent (absent : w.redis k = none) : tally k w = 0 := by
  unfold tally Store.lookup
  rw [absent, Option.filter_none]

theorem tally_nonneg (counting : Counting k w) : 0 ≤ tally k w := by
  cases held : w.redis k with
  | none =>
    rw [tally_absent held]
  | some e =>
    obtain ⟨n, d, rfl, positive⟩ := counting e held
    exact (tally_of_live held positive).1

/- INCR over a counter answers one more than was there. -/
theorem incr_counts (counting : Counting k w) : ∃ d,
    w.redis.incr atoi w.clock k =
      (.ok (tally k w + 1), w.redis.put k (some ⟨.number (tally k w + 1), d⟩)) ∧
      ((tally k w = 0 ∧ d = none) ∨ w.redis k = some ⟨.number (tally k w), d⟩) := by
  unfold Store.incr
  cases found : w.redis.lookup w.clock k with
  | none =>
    have zero : tally k w = 0 := by
      unfold tally
      rw [found]
    rw [zero]
    exact ⟨none, rfl, Or.inl ⟨rfl, rfl⟩⟩
  | some entry =>
    have held := (lookup_some found).1
    obtain ⟨n, d, rfl, -⟩ := counting entry held
    have value : tally k w = n := by
      unfold tally
      rw [found]
    rw [value]
    exact ⟨d, rfl, Or.inr held⟩

end Values

section Runs
variable {cfg : Config} {allow : State → Move → Bool} {seed : Seed} {s : State} {k : Str}

theorem counting_after {ev : LogEntry} (counting : Counting k ev.before) (up : CountsUp k ev) :
    Counting k ev.after := by
  intro e left
  cases up e left with
  | inl counted =>
    obtain ⟨-, d, rfl⟩ := counted
    have nonneg := tally_nonneg counting
    exact ⟨_, d, rfl, by omega⟩
  | inr kept =>
    obtain ⟨-, d, before⟩ := kept
    obtain ⟨n, d', same, positive⟩ := counting _ before
    obtain ⟨v, deadline⟩ := e
    cases same
    exact ⟨n, deadline, rfl, positive⟩

theorem counting_of_run (run : Reaches (server cfg) allow seed.start s)
    (keeps : ∀ ev ∈ s.log, Counting k ev.before → Counting k ev.after) : Counting k s.world := by
  apply kept_since (I := Counting k) _ run (List.append_nil s.log).symm keeps
  · intro e held
    cases held
  · intro w e w' moved held
    unfold Counting
    rw [(env_scope moved).2.1]
    exact held

/- Before any event of the run, too. -/
theorem counting_before (run : Reaches (server cfg) allow seed.start s)
    (keeps : ∀ ev ∈ s.log, Counting k ev.before → Counting k ev.after) {late older : Log}
    {ev : LogEntry} (split : s.log = late ++ ev :: older) : Counting k ev.before := by
  obtain ⟨moment⟩ := moment_of_logged rfl run split
  rw [← moment.pre_world]
  apply counting_of_run moment.reached
  intro x member
  apply keeps
  rw [moment.pre_log] at member
  rw [split]
  exact List.mem_append_right _ (List.mem_cons_of_mem _ member)

/- Within one lifetime the counter has counted at least what these events have. -/
theorem tally_counts (run : Reaches (server cfg) allow seed.start s)
    (keeps : ∀ ev ∈ s.log, Counting k ev.before → Counting k ev.after)
    {late early oldest : Log} {ev : LogEntry} (split : s.log = late ++ ev :: (early ++ oldest))
    (steps : ∀ c ∈ early, Counting k c.before → CountsUp k c) (kept : Unbroken k early)
    (alive : (∃ c ∈ early, c.cmd = .redis (.incr k)) → tally k ev.before ≠ 0) :
    (early.countP (increments k) : Int) ≤ tally k ev.before := by
  induction early generalizing late ev with
  | nil => exact tally_nonneg (counting_before run keeps split)
  | cons c early ih =>
    have at_c : s.log = (late ++ [ev]) ++ c :: (early ++ oldest) := by rw [split]; simp
    have counting := counting_before run keeps split
    have before := ih at_c (fun x member => steps x (List.mem_cons_of_mem _ member))
      (fun newer x older shape => kept (c :: newer) x older (by rw [shape]; rfl))
      (kept [] c early rfl)
    by_cases some_count : ∃ x ∈ c :: early, x.cmd = .redis (.incr k)
    · have living := alive some_count
      have adjacent : s.log = late ++ ev :: ([] ++ c :: (early ++ oldest)) := split
      obtain ⟨same, -⟩ := key_between run adjacent (k := k) (by simp)
      cases held : ev.before.redis k with
      | none => exact absurd (tally_absent held) living
      | some e =>
        obtain ⟨n, d, rfl, positive⟩ := counting e held
        rw [(tally_of_live held positive).2.2 living]
        rw [same] at held
        have counting_c := counting_before run keeps at_c
        cases steps c List.mem_cons_self counting_c _ held with
        | inl counted =>
          obtain ⟨is_count, d', added⟩ := counted
          cases added
          have head : increments k c = true := decide_eq_true is_count
          rw [List.countP_cons_of_pos head]
          push_cast
          omega
        | inr other =>
          obtain ⟨no_count, d', old⟩ := other
          have head : ¬ increments k c = true := by simpa [increments] using no_count
          rw [List.countP_cons_of_neg head]
          have at_most := (tally_of_live old positive).2.1
          omega
    · have nothing : (c :: early).countP (increments k) = 0 := by
        apply List.countP_eq_zero.mpr
        intro x member counted
        exact some_count ⟨x, member, of_decide_eq_true counted⟩
      rw [nothing]
      exact tally_nonneg counting

end Runs
end Counters
