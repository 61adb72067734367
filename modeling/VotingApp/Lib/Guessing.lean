import Mathlib.Data.Finset.Max
import VotingApp.Lib.Lockstep

/- Plays against a hidden value. The player plans every move from all that it has seen, and
   some moves name a value. If the plays on two values look the same for as long as neither is
   named, then no plan names the hidden value more often than it names values at all. -/
namespace Guessing
open EffectProgram CallPool Lockstep

variable {X Y V L S : Type}

/-- What has been seen after n moves, newest first, and the state. -/
def play (next : Nat → S → L → Option S) (look : S → V) (plan : List V → L) (s₀ : S) :
    Nat → Option (List V × S)
  | 0 => some ([look s₀], s₀)
  | n + 1 => (play next look plan s₀ n).bind fun past =>
      (next n past.2 (plan past.1)).map fun s => (look s :: past.1, s)

/-- The code named by the nth move. -/
def named (names : L → Option Y) (next : Nat → S → L → Option S) (look : S → V) (plan : List V → L)
    (s₀ : S) (n : Nat) : Option Y :=
  (play next look plan s₀ n).bind fun past => names (plan past.1)

/-- The first of n moves that names the code, or n. -/
def firstNaming [DecidableEq Y] (named : Nat → Option Y) (n : Nat) (x : Y) : Nat :=
  (List.range n).findIdx fun i => named i = some x

section Naming
variable [DecidableEq Y] {named : Nat → Option Y} {n i : Nat} {x : Y}

theorem firstNaming_le (n : Nat) (x : Y) : firstNaming named n x ≤ n := by
  have bounded : firstNaming named n x ≤ (List.range n).length := List.findIdx_le_length
  rwa [List.length_range] at bounded

theorem not_before_first (before : i < firstNaming named n x) : named i ≠ some x := by
  have inside : i < n := Nat.lt_of_lt_of_le before (firstNaming_le n x)
  have unnamed := List.not_of_lt_findIdx before
  rw [List.getElem_range] at unnamed
  simpa using unnamed

theorem named_at_first (hit : ∃ i < n, named i = some x) :
    firstNaming named n x < n ∧ named (firstNaming named n x) = some x := by
  obtain ⟨i, inside, at_i⟩ := hit
  have found : firstNaming named n x < (List.range n).length := by
    apply List.findIdx_lt_length_of_exists
    exact ⟨i, List.mem_range.mpr inside, by simp [at_i]⟩
  have there : decide (named (List.range n)[firstNaming named n x] = some x) = true :=
    List.findIdx_getElem (p := fun i => decide (named i = some x)) (w := found)
  rw [List.getElem_range, decide_eq_true_eq] at there
  rw [List.length_range] at found
  exact ⟨found, there⟩

end Naming

section Plays
variable [DecidableEq Y] {names : L → Option Y} {code : X → Y}
  {next : X → Nat → S → L → Option S} {look : S → V} {plan : List V → L} {s₀ : S}

/-- The plays on two values go on alike for as long as the code of neither is named. -/
def Blind (names : L → Option Y) (code : X → Y) (next : X → Nat → S → L → Option S) (look : S → V)
    (plan : List V → L) (s₀ : S) (xs : Finset X) : Prop :=
  ∀ x ∈ xs, ∀ y ∈ xs, ∀ n past, play (next x) look plan s₀ n = some past →
    (∀ i < n, named names (next x) look plan s₀ i ≠ some (code x) ∧
      named names (next x) look plan s₀ i ≠ some (code y)) →
    ∃ s, play (next y) look plan s₀ n = some (past.1, s)

/-- The play on the value names its code within n moves. -/
def Hits (names : L → Option Y) (code : X → Y) (next : X → Nat → S → L → Option S) (look : S → V)
    (plan : List V → L) (s₀ : S) (n : Nat) (x : X) : Prop :=
  ∃ i < n, named names (next x) look plan s₀ i = some (code x)

instance (n : Nat) : DecidablePred (Hits names code next look plan s₀ n) := fun x =>
  inferInstanceAs (Decidable (∃ i < n, named names (next x) look plan s₀ i = some (code x)))

/- Up to the first naming of either, what is named is the same in both plays. -/
theorem named_alike {xs : Finset X} (blind : Blind names code next look plan s₀ xs) {x y : X}
    (x_in : x ∈ xs) (y_in : y ∈ xs) {n j : Nat}
    (up_to_x : j ≤ firstNaming (named names (next x) look plan s₀) n (code x))
    (up_to_y : j ≤ firstNaming (named names (next y) look plan s₀) n (code y)) {z : Y}
    (named_x : named names (next x) look plan s₀ j = some z) :
    named names (next y) look plan s₀ j = some z := by
  obtain ⟨past, reached, names_z⟩ := Option.bind_eq_some_iff.mp named_x
  have unnamed : ∀ i < j, named names (next x) look plan s₀ i ≠ some (code x) ∧
      named names (next x) look plan s₀ i ≠ some (code y) := by
    intro i
    induction i using Nat.strongRecOn with
    | ind i ih =>
      intro before
      constructor
      · exact not_before_first (Nat.lt_of_lt_of_le before up_to_x)
      · intro names_y
        -- as the plays are alike so far, the play on y would name its code at this move too
        obtain ⟨past', reached', move⟩ := Option.bind_eq_some_iff.mp names_y
        obtain ⟨s, other⟩ := blind x x_in y y_in i past' reached' fun k less =>
          ih k less (Nat.lt_trans less before)
        apply not_before_first (Nat.lt_of_lt_of_le before up_to_y)
        simp only [named, other, Option.bind_some]
        exact move
  obtain ⟨s, other⟩ := blind x x_in y y_in j past reached unnamed
  simp only [named, other, Option.bind_some]
  exact names_z

/- In the play on the value that is hit last, every code is named that is named in its own play. -/
theorem hits_covered {xs : Finset X} (blind : Blind names code next look plan s₀ xs)
    (some_x : xs.Nonempty) (n : Nat) : ∃ y ∈ xs, ∀ x ∈ xs, Hits names code next look plan s₀ n x →
      ∃ i < n, named names (next y) look plan s₀ i = some (code x) := by
  obtain ⟨y, y_in, latest⟩ := xs.exists_max_image
    (fun x => firstNaming (named names (next x) look plan s₀) n (code x)) some_x
  refine ⟨y, y_in, ?_⟩
  intro x x_in hit
  obtain ⟨inside, there⟩ := named_at_first hit
  exact ⟨_, inside, named_alike blind x_in y_in (Nat.le_refl _) (latest x x_in) there⟩

/- Who names at most k codes hits at most k of the values. -/
theorem hits_bounded {xs : Finset X} (blind : Blind names code next look plan s₀ xs)
    (injective : ∀ x ∈ xs, ∀ y ∈ xs, code x = code y → x = y) {n k : Nat}
    (few : ∀ y ∈ xs, ((List.range n).filterMap (named names (next y) look plan s₀)).length ≤ k) :
    (xs.filter (Hits names code next look plan s₀ n)).card ≤ k := by
  rcases xs.eq_empty_or_nonempty with empty | some_x
  · simp [empty]
  · obtain ⟨y, y_in, covers⟩ := hits_covered blind some_x n
    have inside : ∀ x ∈ xs.filter (Hits names code next look plan s₀ n),
        code x ∈ ((List.range n).filterMap (named names (next y) look plan s₀)).toFinset := by
      intro x hit
      obtain ⟨x_in, hit⟩ := Finset.mem_filter.mp hit
      obtain ⟨i, less, there⟩ := covers x x_in hit
      exact List.mem_toFinset.mpr (List.mem_filterMap.mpr ⟨i, List.mem_range.mpr less, there⟩)
    have apart : Set.InjOn code (xs.filter (Hits names code next look plan s₀ n)) := by
      intro a a_hit b b_hit same
      exact injective a (Finset.mem_filter.mp a_hit).1 b (Finset.mem_filter.mp b_hit).1 same
    calc (xs.filter (Hits names code next look plan s₀ n)).card
        ≤ ((List.range n).filterMap (named names (next y) look plan s₀)).toFinset.card :=
          Finset.card_le_card_of_injOn code inside apart
      _ ≤ ((List.range n).filterMap (named names (next y) look plan s₀)).length :=
          List.toFinset_card_le _
      _ ≤ k := few y y_in

end Plays

section Pools
variable {Cmd : Type} {Reply : Cmd → Type} {W O E Req Ans : Type}
  {m : Machine Cmd Reply W O E Req Ans} {L : Likeness Cmd Reply W O Req} {fine : Req → Prop}
  {pick pick' : Nat → Req → O → O}

/-- One move of a plan, with the oracles that are picked. -/
def turned (m : Machine Cmd Reply W O E Req Ans) (pick : Nat → Req → O → O) (n : Nat)
    (s : Pool Cmd Reply W O Req Ans) (l : Label O E Req) : Option (Pool Cmd Reply W O Req Ans) :=
  m.step s (turn pick n s l)

/- Two plays that look the same whenever they are matched go on side by side while they start
   fine requests only. -/
theorem play_matched (respects : Respects m L fine) {look : Pool Cmd Reply W O Req Ans → V}
    (same_look : ∀ s t, Matched L fine s t → look t = look s) {plan : List V → Label O E Req}
    (picks : ∀ n req o, L.oracles req (pick n req o) (pick' n req o))
    {s₀ : Pool Cmd Reply W O Req Ans} (start : Matched L fine s₀ s₀) {n : Nat}
    {past : List V × Pool Cmd Reply W O Req Ans}
    (reached : play (turned m pick) look plan s₀ n = some past)
    (ok : ∀ i < n, ∀ past', play (turned m pick) look plan s₀ i = some past' →
      ∀ req, plan past'.1 = .start req → fine req) :
    ∃ t, play (turned m pick') look plan s₀ n = some (past.1, t) ∧ Matched L fine past.2 t := by
  induction n generalizing past with
  | zero =>
    cases reached
    exact ⟨s₀, rfl, start⟩
  | succ n ih =>
    simp only [play, Option.bind_eq_some_iff, Option.map_eq_some_iff] at reached
    obtain ⟨before, reached, s, step, rfl⟩ := reached
    obtain ⟨t, reached', matched⟩ := ih reached fun i less => ok i (by omega)
    obtain ⟨t', step', matched'⟩ := step_matched respects pick pick' (picks n) matched
      (ok n (by omega) before reached) step
    have same : turned m pick' n t (plan before.1) = some t' := by
      rw [turned, turn_matched matched]
      exact step'
    refine ⟨t', ?_, matched'⟩
    simp only [play, reached', Option.bind_some, same, Option.map_some]
    rw [same_look s t' matched']

end Pools
end Guessing
