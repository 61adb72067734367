import Mathlib.Algebra.BigOperators.Ring.Finset
import Mathlib.Data.List.Nodup
import VotingApp.Frames

/-!
What the schema keeps true of the tables in every run: the unique keys, the foreign
key, and column values that can be printed again.
-/
namespace TableInvariants
open GoText GoTime Tables EffectProgram CallPool PoolHistory VotingWorld VotingServer Frames

structure Sound (db : Db) : Prop where
  emails : (db.votes.map Vote.voterEmail).Nodup
  fingerprints : (db.votes.map Vote.voterFingerprint).Nodup
  candidates : (db.candidates.map Candidate.id).Nodup
  below : ∀ c ∈ db.candidates, c.id < db.nextCandidate
  references : ∀ v ∈ db.votes, ∃ c ∈ db.candidates, c.id = v.candidateId
  endsAt : ∀ t ∈ db.settings.endsAt, printable t = true ∧ t % second = 0
  domains : (db.customDomains.map CustomDomain.domain).Nodup
  domainIds : (db.customDomains.map CustomDomain.id).Nodup
  domainsBelow : ∀ d ∈ db.customDomains, d.id < db.nextDomain

theorem toColumn_second (t : Nat) : toColumn t / second = t / second :=
  Nat.mul_div_cancel _ (by decide)

theorem toColumn_whole (t : Nat) : toColumn t % second = 0 := Nat.mul_mod_left _ _

theorem printable_toColumn {t : Nat} (h : printable t = true) : printable (toColumn t) = true := by
  have same : yearOf (toColumn t) = yearOf t := by rw [yearOf, yearOf, toColumn_second]
  rw [printable, same]
  exact h

theorem insertVote_sound {db : Db} (sound : Sound db) (now : Nat) (email fp : Str) (id : Int)
    (ip userAgent : Str) : Sound (db.insertVote now email fp id ip userAgent).2 := by
  rcases insertVote_cases db now email fp id ip userAgent with
    ⟨err, refused⟩ | ⟨fresh_email, fresh_fp, candidate, inserted⟩
  · rw [refused]
    exact sound
  · rw [inserted]
    refine { sound with emails := ?_, fingerprints := ?_, references := ?_ }
    · simp only [List.map_append, List.map_cons, List.map_nil]
      refine List.nodup_append.mpr ⟨sound.emails, by simp, ?_⟩
      intro a old b new
      obtain ⟨v, member, rfl⟩ := List.mem_map.mp old
      rw [List.mem_singleton.mp new]
      exact fresh_email v member
    · simp only [List.map_append, List.map_cons, List.map_nil]
      refine List.nodup_append.mpr ⟨sound.fingerprints, by simp, ?_⟩
      intro a old b new
      obtain ⟨v, member, rfl⟩ := List.mem_map.mp old
      rw [List.mem_singleton.mp new]
      exact fresh_fp v member
    · intro v member
      rcases List.mem_append.mp member with old | new
      · exact sound.references v old
      · rw [List.mem_singleton.mp new]
        exact candidate

theorem insertCandidate_sound {db : Db} (sound : Sound db) (now : Nat)
    (name description path : Str) : Sound (db.insertCandidate now name description path).2 := by
  unfold Db.insertCandidate
  split
  · exact sound
  · refine { sound with candidates := ?_, below := ?_, references := ?_ }
    · simp only [List.map_append, List.map_cons, List.map_nil]
      refine List.nodup_append.mpr ⟨sound.candidates, by simp, ?_⟩
      intro a old b new
      obtain ⟨c, member, rfl⟩ := List.mem_map.mp old
      rw [List.mem_singleton.mp new]
      have := sound.below c member
      omega
    · intro c member
      rcases List.mem_append.mp member with old | new
      · have := sound.below c old
        simp only
        omega
      · rw [List.mem_singleton.mp new]
        simp only
        omega
    · intro v member
      obtain ⟨c, there, same⟩ := sound.references v member
      exact ⟨c, List.mem_append_left _ there, same⟩

/- An edit keeps the ids. -/
theorem edit_ids (p : Candidate → Bool) (edit : Candidate → Candidate)
    (keeps : ∀ c, (edit c).id = c.id) (cs : List Candidate) :
    (cs.map fun c => if p c then edit c else c).map Candidate.id = cs.map Candidate.id := by
  rw [List.map_map]
  apply List.map_congr_left
  intro c member
  simp only [Function.comp_apply]
  split
  · exact keeps c
  · rfl

theorem updateCandidate_sound {db : Db} (sound : Sound db) (now : Nat) (id : Int)
    (name description : Str) (path : Option Str) :
    Sound (db.updateCandidate now id name description path).2 := by
  simp only [Db.updateCandidate]
  split
  · exact sound
  · have ids := edit_ids (fun c => decide (c.id = id)) (Candidate.edit now name description path)
      (fun _ => rfl) db.candidates
    simp only [decide_eq_true_eq] at ids
    refine { sound with candidates := ?_, below := ?_, references := ?_ }
    · simp only
      rw [ids]
      exact sound.candidates
    · intro c member
      have there : c.id ∈ db.candidates.map Candidate.id := by
        rw [← ids]
        exact List.mem_map_of_mem member
      obtain ⟨old, inside, same⟩ := List.mem_map.mp there
      rw [← same]
      exact sound.below old inside
    · intro v member
      obtain ⟨c, there, same⟩ := sound.references v member
      have kept : c.id ∈ (db.candidates.map fun c =>
          if c.id = id then c.edit now name description path else c).map Candidate.id := by
        rw [ids]
        exact List.mem_map_of_mem there
      obtain ⟨new, inside, still⟩ := List.mem_map.mp kept
      exact ⟨new, inside, still.trans same⟩

theorem deleteCandidate_sound {db : Db} (sound : Sound db) (id : Int) :
    Sound (db.deleteCandidate id).2 := by
  refine { sound with emails := ?_, fingerprints := ?_, candidates := ?_, below := ?_, references := ?_ }
  · exact sound.emails.sublist (List.filter_sublist.map _)
  · exact sound.fingerprints.sublist (List.filter_sublist.map _)
  · exact sound.candidates.sublist (List.filter_sublist.map _)
  · exact fun c member => sound.below c (List.mem_of_mem_filter member)
  · intro v member
    obtain ⟨there, other⟩ := List.mem_filter.mp member
    obtain ⟨c, inside, same⟩ := sound.references v there
    exact ⟨c, List.mem_filter.mpr ⟨inside, by rw [same]; exact other⟩, same⟩

theorem updateSettings_sound {db : Db} (sound : Sound db) (isOpen : Bool) (endsAt : Option Nat) :
    Sound (db.updateSettings isOpen endsAt).2 := by
  unfold Db.updateSettings
  split
  · rename_i fits
    refine { sound with endsAt := ?_ }
    intro t member
    obtain ⟨u, given, rfl⟩ := Option.mem_map.mp member
    rw [Option.all_eq_true] at fits
    exact ⟨printable_toColumn (fits u given), toColumn_whole u⟩
  · exact sound

theorem insertDomain_sound {db : Db} (sound : Sound db) (now : Nat) (domain : Str) :
    Sound (db.insertDomain now domain).2 := by
  unfold Db.insertDomain
  split
  · exact sound
  · split
    · exact sound
    · rename_i fresh
      refine { sound with domains := ?_, domainIds := ?_, domainsBelow := ?_ }
      · simp only [List.map_append, List.map_cons, List.map_nil]
        refine List.nodup_append.mpr ⟨sound.domains, by simp, ?_⟩
        intro a old b new same
        obtain ⟨d, member, rfl⟩ := List.mem_map.mp old
        rw [List.mem_singleton.mp new] at same
        exact fresh (List.any_eq_true.mpr ⟨d, member, by simpa using same⟩)
      · simp only [List.map_append, List.map_cons, List.map_nil]
        refine List.nodup_append.mpr ⟨sound.domainIds, by simp, ?_⟩
        intro a old b new
        obtain ⟨d, member, rfl⟩ := List.mem_map.mp old
        rw [List.mem_singleton.mp new]
        have := sound.domainsBelow d member
        omega
      · intro d member
        rcases List.mem_append.mp member with old | new
        · have := sound.domainsBelow d old
          simp only
          omega
        · rw [List.mem_singleton.mp new]
          simp only
          omega

theorem deleteDomain_sound {db : Db} (sound : Sound db) (id : Int) : Sound (db.deleteDomain id).2 := by
  refine { sound with domains := ?_, domainIds := ?_, domainsBelow := ?_ }
  · exact sound.domains.sublist (List.filter_sublist.map _)
  · exact sound.domainIds.sublist (List.filter_sublist.map _)
  · exact fun d member => sound.domainsBelow d (List.mem_of_mem_filter member)

/- Every statement keeps the tables sound. -/
theorem statement_sound {db : Db} (sound : Sound db) (now : Nat) (c : SqlCmd) :
    Sound (c.run db now).2 := by
  cases c with
  | insertVote email fp id ip userAgent => exact insertVote_sound sound now email fp id ip userAgent
  | insertCandidate name description path => exact insertCandidate_sound sound now name description path
  | updateCandidate id name description path =>
    exact updateCandidate_sound sound now id name description path
  | deleteCandidate id => exact deleteCandidate_sound sound id
  | updateSettings isOpen endsAt => exact updateSettings_sound sound isOpen endsAt
  | updateCustomDomainsOnly value => exact { sound with }
  | insertDomain domain => exact insertDomain_sound sound now domain
  | deleteDomain id => exact deleteDomain_sound sound id
  | _ => exact sound

theorem performed_sound {w w' : World} {o : Oracle} {c : Cmd} {r : Reply c}
    (h : w.perform o c = some (r, w')) (sound : Sound w.db) : Sound w'.db := by
  rcases (perform_scope h).2.2 with ⟨sc, rfl⟩ | same
  · obtain ⟨-, rfl⟩ := perform_sql h
    rcases faulty_state (o := o) w.db (sc.run w.db w.clock) with ran | idle
    · simp only [ran]
      exact statement_sound sound w.clock sc
    · simp only [idle]
      exact sound
  · rw [same]
    exact sound

theorem seed_sound (seed : Seed) : Sound seed.world.db where
  emails := List.nodup_nil
  fingerprints := List.nodup_nil
  candidates := seed.distinct
  below := seed.below
  references v member := absurd member List.not_mem_nil
  endsAt t member := by simp [Seed.world] at member
  domains := List.nodup_nil
  domainIds := List.nodup_nil
  domainsBelow d member := absurd member List.not_mem_nil

/- The tables stay sound, from any state in which they are. -/
theorem sound_since {cfg : Handlers.Config} {allow : State → Move → Bool} {s₀ s : State}
    (sound : Sound s₀.world.db) (run : Reaches (server cfg) allow s₀ s) : Sound s.world.db := by
  refine reaches_inv (I := fun t => Sound t.world.db) sound ?_ run
  intro t l t' sound allowed step
  cases step with
  | start req => exact sound
  | env moved =>
    rw [show _ = t.world.db from (env_scope moved).1]
    exact sound
  | run at_i waiting performed => exact performed_sound performed sound

theorem sound_of_run {cfg : Handlers.Config} {allow : State → Move → Bool} {seed : Seed} {s : State}
    (run : Reaches (server cfg) allow seed.start s) : Sound s.world.db :=
  sound_since (seed_sound seed) run

section Leaderboard

instance : Std.Total moreVotes where
  total a b := by
    unfold moreVotes
    omega

instance : IsTrans CandidateWithVotes moreVotes where
  trans a b c first second := by
    unfold moreVotes at *
    omega

/- Every candidate is listed exactly once. -/
theorem board_candidates (db : Db) :
    (db.getAllWithVotes.map CandidateWithVotes.candidate).Perm db.candidates := by
  apply ((List.perm_insertionSort moreVotes _).map CandidateWithVotes.candidate).trans
  rw [List.map_map]
  exact List.Perm.of_eq (List.map_id _)

theorem board_sorted (db : Db) : db.getAllWithVotes.Pairwise moreVotes :=
  List.pairwise_insertionSort moreVotes _

theorem board_row {db : Db} {row : CandidateWithVotes} (member : row ∈ db.getAllWithVotes) :
    row.candidate ∈ db.candidates ∧
      row.totalVotes = db.countVotes fun v => v.candidateId = row.candidate.id := by
  have unsorted := (List.perm_insertionSort moreVotes _).mem_iff.mp member
  obtain ⟨c, is_candidate, same⟩ := List.mem_map.mp unsorted
  subst row
  exact ⟨is_candidate, rfl⟩

theorem indicator_sum (key : Int) (ids : List Int) :
    (ids.map fun id => if key = id then 1 else 0).sum = ids.count key := by
  induction ids with
  | nil => rfl
  | cons id ids ih =>
    rw [List.map_cons, List.sum_cons, ih, List.count_cons]
    by_cases same : key = id
    · subst id
      simp [Nat.add_comm]
    · have other : (id == key) = false := by simpa using fun h => same h.symm
      simp [same, other]

/- Every vote is counted for exactly one of the ids it can refer to. -/
theorem counts_sum {ids : List Int} (distinct : ids.Nodup) {votes : List Vote}
    (referenced : ∀ v ∈ votes, v.candidateId ∈ ids) :
    (ids.map fun id => votes.countP fun v => v.candidateId = id).sum = votes.length := by
  induction votes with
  | nil => simp
  | cons v votes ih =>
    have rest := ih fun x member => referenced x (List.mem_cons_of_mem v member)
    have here := List.count_eq_one_of_mem distinct (referenced v List.mem_cons_self)
    simp only [List.countP_cons, decide_eq_true_eq]
    rw [List.sum_map_add, rest, indicator_sum, here, List.length_cons]

theorem board_sum {db : Db} (sound : Sound db) :
    (db.getAllWithVotes.map CandidateWithVotes.totalVotes).sum = (db.votes.length : Int) := by
  have referenced : ∀ v ∈ db.votes, v.candidateId ∈ db.candidates.map Candidate.id := by
    intro v member
    obtain ⟨c, there, same⟩ := sound.references v member
    exact List.mem_map.mpr ⟨c, there, same⟩
  have total := counts_sum sound.candidates referenced
  rw [Db.getAllWithVotes,
    ((List.perm_insertionSort moreVotes _).map CandidateWithVotes.totalVotes).sum_eq, ← total,
    Nat.cast_list_sum, List.map_map, List.map_map, List.map_map]
  rfl

end Leaderboard
end TableInvariants
