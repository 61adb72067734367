import VotingApp.SoloServer

/-!
How UpdateCandidate tells a missing candidate. It goes by the number of changed rows, and a row
that is written with what it holds in the second it was last written in is not changed.
-/
namespace CandidateUpdates
open GoText GoTime Tables EffectProgram SoloRun VotingWorld
open VoteService Handlers VotingServer Frames SoloServer

/-- The arguments of UpdateCandidate. -/
structure Edit where
  id : Int
  name : Str
  description : Str
  imagePath : Str
  deriving DecidableEq, Repr

def Edit.call (e : Edit) : Act (Option GoErr) :=
  VoteService.updateCandidate e.id e.name e.description e.imagePath

def Edit.path (e : Edit) : Option Str := if e.imagePath = [] then none else some e.imagePath

/-- One call: the tables before it, its answer, and the tables behind it. -/
structure Answered where
  before : Db
  answer : Option GoErr
  behind : Db

/-- The same call at one time after the other. -/
inductive Repeated (cfg : Config) (e : Edit) : World → List Nat → List Answered → Prop where
  | done (w : World) : Repeated cfg e w [] []
  | call {w w' : World} {t : Nat} {times : List Nat} {r : Option GoErr} {later : List Call}
      {rest : List Answered} (in_time : w.clock ≤ t)
      (executed : Executes cfg { w with clock := t } e.call r w' later)
      (repeated : Repeated cfg e w' times rest) :
      Repeated cfg e w (t :: times) (⟨w.db, r, w'.db⟩ :: rest)

def Missing (db : Db) (id : Int) : Prop := ∀ c ∈ db.candidates, c.id ≠ id

instance (db : Db) (id : Int) : Decidable (Missing db id) :=
  inferInstanceAs (Decidable (∀ c ∈ db.candidates, c.id ≠ id))

/-- What an update is about, of every row. -/
def contents (db : Db) : List (Int × Str × Str × Str) :=
  db.candidates.map fun c => (c.id, c.name, c.description, c.imagePath)

/-- A missing candidate is reported, no other is, and what was accepted once is accepted again
and changes nothing more. -/
structure Truthful (e : Edit) (calls : List Answered) : Prop where
  exact : ∀ c ∈ calls, c.answer = some errCandidateNotFound ↔ Missing c.before e.id
  again : calls.Pairwise fun a b =>
    a.answer = none → b.answer = none ∧ contents b.behind = contents a.behind

/-- The values are no longer than their columns. -/
def Fits (e : Edit) : Prop := candidateFits e.name e.description e.imagePath = none

instance (e : Edit) : Decidable (Fits e) :=
  inferInstanceAs (Decidable (candidateFits e.name e.description e.imagePath = none))

/-- The row already holds the values, and was last written in this second. -/
def Holds (e : Edit) (t : Nat) (c : Candidate) : Prop :=
  c.name = e.name ∧ c.description = e.description ∧
    (e.imagePath = [] ∨ c.imagePath = e.imagePath) ∧ c.updatedAt = some (toColumn t)

instance (e : Edit) (t : Nat) (c : Candidate) : Decidable (Holds e t c) :=
  inferInstanceAs (Decidable (_ ∧ _))

/-- The first call finds other values or another second, and no two calls in a row share one. -/
def Apart (e : Edit) (db : Db) : List Nat → Prop
  | [] => True
  | t :: times => (∃ c ∈ db.candidates, c.id = e.id ∧ ¬ Holds e t c) ∧
      (t :: times).IsChain fun a b => toColumn a ≠ toColumn b

instance (e : Edit) (db : Db) : (times : List Nat) → Decidable (Apart e db times)
  | [] => inferInstanceAs (Decidable True)
  | _ :: _ => inferInstanceAs (Decidable ((∃ c ∈ db.candidates, c.id = e.id ∧ _) ∧ _))

def answerOf : Except GoErr Int → Option GoErr
  | .error err => some err
  | .ok rows => if rows = 0 then some errCandidateNotFound else none

theorem call_executed {cfg : Config} {e : Edit} {w w' : World} {r : Option GoErr}
    {later : List Call} (executed : Executes cfg w e.call r w' later) :
    w'.clock = w.clock ∧ w'.db = (w.db.updateCandidate w.clock e.id e.name e.description e.path).2 ∧
      r = answerOf (w.db.updateCandidate w.clock e.id e.name e.description e.path).1 := by
  have evaluated : evaluate answer e.call (bare w) =
      some (answerOf (w.db.updateCandidate w.clock e.id e.name e.description e.path).1,
        { bare w with db := (w.db.updateCandidate w.clock e.id e.name e.description e.path).2 }) := by
    unfold Edit.call VoteService.updateCandidate
    rw [evaluate_sql]
    have ran : SqlCmd.run (bare w).db (bare w).clock (.updateCandidate e.id e.name e.description
        (if e.imagePath = [] then none else some e.imagePath)) =
          w.db.updateCandidate w.clock e.id e.name e.description e.path := rfl
    rw [ran]
    cases (w.db.updateCandidate w.clock e.id e.name e.description e.path).1 <;> rfl
  have same := solo_evaluates (server_settles cfg) executed evaluated
  rw [Prod.mk.injEq] at same
  obtain ⟨answered, left⟩ := same
  exact ⟨(congrArg World.clock left).symm, (congrArg World.db left).symm, answered.symm⟩

section Statement
variable {db : Db} {e : Edit} {t : Nat}

theorem path_default : e.path.getD [] = e.imagePath := by
  unfold Edit.path
  split
  · rename_i empty
    exact empty.symm
  · rfl

theorem update_missing (missing : Missing db e.id) :
    db.updateCandidate t e.id e.name e.description e.path = (.ok 0, db) := by
  have nobody : (db.candidates.any fun c => c.id = e.id) = false := by simpa [Missing] using missing
  have none_changed : (db.candidates.countP fun c =>
      c.id = e.id && c.edit t e.name e.description e.path ≠ c) = 0 := by
    apply List.countP_eq_zero.mpr
    intro c member
    simp [missing c member]
  have same : (db.candidates.map fun c =>
      if c.id = e.id then c.edit t e.name e.description e.path else c) = db.candidates := by
    conv_rhs => rw [← List.map_id db.candidates]
    apply List.map_congr_left
    intro c member
    rw [if_neg (missing c member)]
    rfl
  rw [Db.updateCandidate, nobody]
  simp only [Bool.false_eq_true, ↓reduceIte]
  rw [none_changed, same]
  rfl

theorem there (present : ¬ Missing db e.id) : (db.candidates.any fun c => c.id = e.id) = true := by
  simpa [Missing] using present

theorem update_refused (present : ¬ Missing db e.id) (unfit : ¬ Fits e) :
    ∃ err, err ≠ errCandidateNotFound ∧
      db.updateCandidate t e.id e.name e.description e.path = (.error err, db) := by
  rw [Db.updateCandidate, there present, path_default]
  simp only [↓reduceIte]
  cases refusal : candidateFits e.name e.description e.imagePath with
  | none => exact absurd refusal unfit
  | some err =>
    refine ⟨err, ?_, rfl⟩
    rintro rfl
    unfold candidateFits at refusal
    split at refusal
    · cases refusal
    · split at refusal
      · cases refusal
      · split at refusal <;> cases refusal

/-- The tables after an update that is accepted. -/
def updated (e : Edit) (t : Nat) (db : Db) : Db := { db with
  candidates := db.candidates.map fun c =>
    if c.id = e.id then c.edit t e.name e.description e.path else c }

theorem edit_same (c : Candidate) :
    c.edit t e.name e.description e.path = c ↔ Holds e t c := by
  obtain ⟨id, name, description, imagePath, createdAt, updatedAt⟩ := c
  unfold Candidate.edit Holds Edit.path
  by_cases empty : e.imagePath = []
  · simp [empty, eq_comm]
  · simp [empty, eq_comm]

theorem update_written (present : ¬ Missing db e.id) (fits : Fits e) :
    (db.updateCandidate t e.id e.name e.description e.path).2 = updated e t db ∧
      (answerOf (db.updateCandidate t e.id e.name e.description e.path).1 = none ∧
          (∃ c ∈ db.candidates, c.id = e.id ∧ ¬ Holds e t c) ∨
        answerOf (db.updateCandidate t e.id e.name e.description e.path).1 = some errCandidateNotFound ∧
          ∀ c ∈ db.candidates, c.id = e.id → Holds e t c) := by
  rw [Db.updateCandidate, there present, path_default]
  simp only [↓reduceIte]
  rw [fits]
  refine ⟨rfl, ?_⟩
  dsimp only [answerOf]
  by_cases changes : ∃ c ∈ db.candidates, c.id = e.id ∧ ¬ Holds e t c
  · left
    refine ⟨if_neg ?_, changes⟩
    obtain ⟨c, member, same, differs⟩ := changes
    have counted : 0 < db.candidates.countP fun c =>
        c.id = e.id && c.edit t e.name e.description e.path ≠ c := by
      apply List.countP_pos_iff.mpr
      exact ⟨c, member, by simpa [same, edit_same] using differs⟩
    omega
  · right
    have held : ∀ c ∈ db.candidates, c.id = e.id → Holds e t c := by
      intro c member same
      by_contra differs
      exact changes ⟨c, member, same, differs⟩
    have none_changed : (db.candidates.countP fun c =>
        c.id = e.id && c.edit t e.name e.description e.path ≠ c) = 0 := by
      apply List.countP_eq_zero.mpr
      intro c member
      simp only [ne_eq, Bool.and_eq_true, decide_eq_true_eq, not_and, not_not, decide_not,
        Bool.not_eq_true', decide_eq_false_iff_not, edit_same]
      exact held c member
    exact ⟨if_pos (by rw [none_changed]; rfl), held⟩

/-- Every row with the id holds what was written to it at this time. -/
def Written (e : Edit) (t : Nat) (db : Db) : Prop :=
  ¬ Missing db e.id ∧ ∀ c ∈ db.candidates, c.id = e.id → Holds e t c

theorem updated_ids : (updated e t db).candidates.map Candidate.id = db.candidates.map Candidate.id := by
  have ids := TableInvariants.edit_ids (fun c => decide (c.id = e.id))
    (Candidate.edit t e.name e.description e.path) (fun _ => rfl) db.candidates
  simp only [decide_eq_true_eq] at ids
  exact ids

theorem updated_missing (present : ¬ Missing db e.id) : ¬ Missing (updated e t db) e.id := by
  have by_ids : ∀ db : Db, Missing db e.id ↔ e.id ∉ db.candidates.map Candidate.id := by
    intro db
    simp [Missing, eq_comm]
  rw [by_ids] at present ⊢
  rw [updated_ids]
  exact present

theorem updated_written (present : ¬ Missing db e.id) : Written e t (updated e t db) := by
  refine ⟨updated_missing present, fun c member same => ?_⟩
  obtain ⟨old, -, made⟩ := List.mem_map.mp member
  split at made
  · rw [← made]
    unfold Holds Candidate.edit Edit.path
    by_cases empty : e.imagePath = [] <;> simp [empty]
  · rename_i other
    rw [made] at other
    exact absurd same other

/- Written once more, a row has what it had. -/
theorem updated_contents {t₀ : Nat} (written : Written e t₀ db) :
    contents (updated e t db) = contents db := by
  unfold contents updated
  rw [List.map_map]
  apply List.map_congr_left
  intro c member
  by_cases same : c.id = e.id
  · obtain ⟨name, description, image, -⟩ := written.2 c member same
    simp only [Function.comp_apply, if_pos same, Candidate.edit, Edit.path, name, description]
    rcases image with empty | image
    · simp [empty]
    · by_cases empty : e.imagePath = [] <;> simp [empty, image]
  · simp only [Function.comp_apply, if_neg same]

theorem holds_later {t₀ : Nat} {c : Candidate} (held : Holds e t₀ c) :
    Holds e t c ↔ toColumn t₀ = toColumn t := by
  obtain ⟨name, description, image, time⟩ := held
  simp [Holds, name, description, image, time]

/- A call that comes after a call that wrote the row. -/
theorem answer_written {t₀ : Nat} (fits : Fits e) (written : Written e t₀ db) :
    (db.updateCandidate t e.id e.name e.description e.path).2 = updated e t db ∧
      (answerOf (db.updateCandidate t e.id e.name e.description e.path).1 = none ∧
          toColumn t₀ ≠ toColumn t ∨
        answerOf (db.updateCandidate t e.id e.name e.description e.path).1 = some errCandidateNotFound ∧
          toColumn t₀ = toColumn t) := by
  obtain ⟨left, answered⟩ := update_written (t := t) written.1 fits
  refine ⟨left, ?_⟩
  rcases answered with ⟨accepted, c, member, same, differs⟩ | ⟨refused, held⟩
  · rw [holds_later (written.2 c member same)] at differs
    exact Or.inl ⟨accepted, differs⟩
  · obtain ⟨c, member, same⟩ : ∃ c ∈ db.candidates, c.id = e.id := by simpa [Missing] using written.1
    exact Or.inr ⟨refused, (holds_later (written.2 c member same)).mp (held c member same)⟩

end Statement

section Runs
variable {cfg : Config} {e : Edit} {w : World} {times : List Nat} {calls : List Answered}

/-- What a call finds and leaves of a row that is there and was written. -/
def Rewrites (e : Edit) (db : Db) (c : Answered) : Prop :=
  ¬ Missing c.before e.id ∧ contents c.behind = contents db ∧
    (c.answer = none ∨ c.answer = some errCandidateNotFound)

theorem repeated_written {t₀ : Nat} (repeated : Repeated cfg e w times calls) (fits : Fits e)
    (written : Written e t₀ w.db) : (∀ c ∈ calls, Rewrites e w.db c) ∧
      ((∀ c ∈ calls, c.answer = none) ↔ (t₀ :: times).IsChain fun a b => toColumn a ≠ toColumn b) := by
  induction repeated generalizing t₀ with
  | done w => simp
  | @call w w' t times r later rest in_time executed repeated ih =>
    obtain ⟨-, left, rfl⟩ := call_executed executed
    obtain ⟨made, answered⟩ := answer_written (t := t) fits written
    have left' : w'.db = updated e t w.db := left.trans made
    have written' : Written e t w'.db := by
      rw [left']
      exact updated_written written.1
    have same : contents w'.db = contents w.db := by
      rw [left']
      exact updated_contents written
    obtain ⟨all, chain⟩ := ih written'
    constructor
    · intro c member
      rcases List.mem_cons.mp member with rfl | member
      · refine ⟨written.1, same, ?_⟩
        rcases answered with ⟨accepted, -⟩ | ⟨refused, -⟩
        · exact Or.inl accepted
        · exact Or.inr refused
      · obtain ⟨present, kept, either⟩ := all c member
        exact ⟨present, kept.trans same, either⟩
    · rw [List.forall_mem_cons, chain, List.isChain_cons_cons]
      apply and_congr_left
      intro _
      rcases answered with ⟨accepted, apart⟩ | ⟨refused, together⟩
      · exact ⟨fun _ => apart, fun _ => accepted⟩
      · constructor
        · intro accepted
          cases refused.symm.trans accepted
        · intro apart
          exact absurd together apart

theorem repeated_missing (repeated : Repeated cfg e w times calls) (missing : Missing w.db e.id) :
    ∀ c ∈ calls, c.answer = some errCandidateNotFound ∧ Missing c.before e.id := by
  induction repeated with
  | done w => simp
  | @call w w' t times r later rest in_time executed repeated ih =>
    obtain ⟨-, left, rfl⟩ := call_executed executed
    dsimp only at left
    rw [update_missing missing] at left
    dsimp only
    rw [update_missing missing]
    have later_calls := ih (by rw [left]; exact missing)
    intro c member
    rcases List.mem_cons.mp member with rfl | member
    · exact ⟨rfl, missing⟩
    · exact later_calls c member

theorem repeated_refused (repeated : Repeated cfg e w times calls) (present : ¬ Missing w.db e.id)
    (unfit : ¬ Fits e) : ∀ c ∈ calls, c.answer ≠ some errCandidateNotFound ∧ c.answer ≠ none ∧
      ¬ Missing c.before e.id := by
  induction repeated with
  | done w => simp
  | @call w w' t times r later rest in_time executed repeated ih =>
    obtain ⟨-, left, rfl⟩ := call_executed executed
    obtain ⟨err, other, refused⟩ := update_refused (t := t) present unfit
    dsimp only at left ⊢
    rw [refused] at left ⊢
    have later_calls := ih (by rw [left]; exact present)
    intro c member
    rcases List.mem_cons.mp member with rfl | member
    · refine ⟨fun same => other (Option.some.inj same), by simp [answerOf], present⟩
    · exact later_calls c member

/- The candidate is there and the values fit: what the first call and the ones after it do. -/
theorem repeated_fits {t : Nat} (repeated : Repeated cfg e w (t :: times) calls)
    (present : ¬ Missing w.db e.id) (fits : Fits e) :
    (∀ c ∈ calls, Rewrites e (updated e t w.db) c) ∧
      ((∀ c ∈ calls, c.answer = none) ↔ Apart e w.db (t :: times)) := by
  cases repeated with
  | @call w w' t times r later rest in_time executed repeated =>
    obtain ⟨-, left, rfl⟩ := call_executed executed
    obtain ⟨made, answered⟩ := update_written (t := t) present fits
    have left' : w'.db = updated e t w.db := left.trans made
    have written : Written e t w'.db := by
      rw [left']
      exact updated_written present
    obtain ⟨all, chain⟩ := repeated_written repeated fits written
    constructor
    · intro c member
      rcases List.mem_cons.mp member with rfl | member
      · refine ⟨present, congrArg contents left', ?_⟩
        rcases answered with ⟨accepted, -⟩ | ⟨refused, -⟩
        · exact Or.inl accepted
        · exact Or.inr refused
      · rw [← left']
        exact all c member
    · rw [List.forall_mem_cons, chain, Apart]
      apply and_congr_left
      intro _
      rcases answered with ⟨accepted, changes⟩ | ⟨refused, held⟩
      · exact ⟨fun _ => changes, fun _ => accepted⟩
      · constructor
        · intro accepted
          cases refused.symm.trans accepted
        · rintro ⟨c, member, same, differs⟩
          exact absurd (held c member same) differs

theorem truthful_apart (repeated : Repeated cfg e w times calls) (present : ¬ Missing w.db e.id)
    (fits : Fits e) : Truthful e calls ↔ Apart e w.db times := by
  cases times with
  | nil =>
    cases repeated
    exact iff_of_true ⟨by simp, List.Pairwise.nil⟩ trivial
  | cons t times =>
    obtain ⟨all, accepted_iff⟩ := repeated_fits repeated present fits
    rw [← accepted_iff]
    constructor
    · intro truthful c member
      obtain ⟨there, -, accepted | refused⟩ := all c member
      · exact accepted
      · exact absurd ((truthful.exact c member).mp refused) there
    · intro accepted
      constructor
      · intro c member
        obtain ⟨there, -, -⟩ := all c member
        rw [accepted c member]
        exact iff_of_false (by simp) there
      · apply List.pairwise_of_forall_mem_list
        intro a at_a b at_b _
        exact ⟨accepted b at_b, (all b at_b).2.1.trans (all a at_a).2.1.symm⟩

/- The answers are right exactly when the candidate is missing, when the values do not fit, or when
   no call meets a row that holds its values already and was last written in the same second. -/
theorem not_found_exact (repeated : Repeated cfg e w times calls) :
    Truthful e calls ↔ Missing w.db e.id ∨ ¬ Fits e ∨ Apart e w.db times := by
  by_cases missing : Missing w.db e.id
  · have all := repeated_missing repeated missing
    refine iff_of_true ⟨fun c member => ?_, ?_⟩ (Or.inl missing)
    · exact iff_of_true (all c member).1 (all c member).2
    · apply List.pairwise_of_forall_mem_list
      intro a member b _ accepted
      cases accepted.symm.trans (all a member).1
  · by_cases fits : Fits e
    · rw [truthful_apart repeated missing fits]
      simp only [missing, fits, not_true_eq_false, false_or]
    · have all := repeated_refused repeated missing fits
      refine iff_of_true ⟨fun c member => ?_, ?_⟩ (Or.inr (Or.inl fits))
      · exact iff_of_false (all c member).1 (all c member).2.2
      · apply List.pairwise_of_forall_mem_list
        intro a member b _ accepted
        exact absurd accepted (all a member).2.1

end Runs

/- The calls can be made at any times that do not go back. -/
theorem repeated_exists (cfg : Config) (e : Edit) {times : List Nat} (w : World)
    (forward : (w.clock :: times).Pairwise fun a b => a ≤ b) :
    ∃ calls, Repeated cfg e w times calls := by
  have uses : e.call.Issues Determined := by
    apply issues_sql trivial
    intro r
    cases r <;> trivial
  induction times generalizing w with
  | nil => exact ⟨[], .done w⟩
  | cons t times ih =>
    obtain ⟨from_now, rest⟩ := List.pairwise_cons.mp forward
    obtain ⟨r, w', later, executed⟩ := executes_of_issues cfg uses { w with clock := t }
    have clock : w'.clock = t := (call_executed executed).1
    obtain ⟨calls, repeated⟩ := ih w' (by rw [clock]; exact rest)
    exact ⟨_, .call (from_now t List.mem_cons_self) executed repeated⟩

def renameAnn : Edit := ⟨1, "Anna".toList, [], []⟩

theorem not_found_exact_apart : ∃ calls,
    Repeated devConfig renameAnn twoCandidates.start.world [newYear + second, newYear + 2 * second] calls ∧
      Truthful renameAnn calls := by
  obtain ⟨calls, repeated⟩ : ∃ calls, Repeated devConfig renameAnn twoCandidates.start.world
      [newYear + second, newYear + 2 * second] calls :=
    repeated_exists devConfig renameAnn twoCandidates.start.world (by decide +kernel)
  exact ⟨calls, repeated, (not_found_exact repeated).mpr (Or.inr (Or.inr (by decide +kernel)))⟩

/- The same form is submitted twice within a second: the second answer denies the candidate. -/
theorem renamed_twice_not_found : ∃ calls,
    Repeated devConfig renameAnn twoCandidates.start.world
      [newYear + second, newYear + second + 300000000] calls ∧ ¬ Truthful renameAnn calls := by
  obtain ⟨calls, repeated⟩ : ∃ calls, Repeated devConfig renameAnn twoCandidates.start.world
      [newYear + second, newYear + second + 300000000] calls :=
    repeated_exists devConfig renameAnn twoCandidates.start.world (by decide +kernel)
  refine ⟨calls, repeated, ?_⟩
  rw [truthful_apart repeated (by decide +kernel) (by decide +kernel)]
  decide +kernel

end CandidateUpdates
