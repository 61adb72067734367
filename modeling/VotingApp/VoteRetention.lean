import VotingApp.Frames

/-!
Votes are only lost through the cascade of a candidate's removal. The removal comes
after a count of zero, and the two are separate statements.
-/
namespace VoteRetention
open GoText GoTime Tables EffectProgram CallPool PoolHistory VotingWorld
open VoteService Handlers VotingServer Footprints Frames

/-- The candidate whose DELETE statement an event executed. -/
def deleted (ev : LogEntry) : Option Int :=
  match ev.cmd with
  | .sql (.deleteCandidate id) =>
    if ev.after.db = (ev.before.db.deleteCandidate id).2 then some id else none
  | _ => none

/-- The candidate a vote was inserted for by an event. -/
def insertedFor (ev : LogEntry) : Option Int :=
  match ev.cmd with
  | .sql (.insertVote _ _ id _ _) =>
    if ev.after.db.votes = ev.before.db.votes then none else some id
  | _ => none

def CountedNone (ev : LogEntry) (id : Int) : Prop :=
  ∃ n : Int, n ≤ 0 ∧ ev.exchange = ⟨.sql (.countVotesFor id), .ok n⟩

/- A vote for a candidate goes in between the count and the removal of one call. -/
def InsertBetween (log : Log) : Prop :=
  ∃ id late removal mid insertion early count oldest,
    log = late ++ removal :: (mid ++ insertion :: (early ++ count :: oldest)) ∧
      deleted removal = some id ∧ insertedFor insertion = some id ∧ CountedNone count id ∧
        count.caller = removal.caller

/-- No step removes a vote, and a candidate goes only when no vote names it. -/
def VotesKept (log : Log) : Prop :=
  (∀ ev ∈ log, ∀ v ∈ ev.before.db.votes, v ∈ ev.after.db.votes) ∧
    ∀ ev ∈ log, ∀ v ∈ ev.before.db.votes, deleted ev ≠ some v.candidateId

instance (log : Log) : Decidable (VotesKept log) := inferInstanceAs (Decidable (_ ∧ _))

/- A DELETE comes right after the same call has counted no vote. -/
def RemovalRule (past : History) : Cmd → Prop
  | .sql (.deleteCandidate id) => ∃ n rest, past = ⟨.sql (.countVotesFor id), .ok n⟩ :: rest ∧ n ≤ 0
  | _ => True

theorem removal_neutral {c : Cmd} (other : ∀ past, RemovalRule past c) :
    Neutral RemovalRule (fun _ => True) c :=
  fun past _ => ⟨other past, fun _ => trivial⟩

theorem deleteCandidate_counts (id : Int) :
    (VoteService.deleteCandidate id).Keeps RemovalRule (fun _ => True) := by
  intro past _
  refine meets_sql trivial fun r => ?_
  cases r with
  | error err => trivial
  | ok count =>
    dsimp only
    split
    · trivial
    · rename_i none_counted
      refine meets_sql ⟨count, past, rfl, Int.not_lt.mp none_counted⟩ fun r => ?_
      cases r <;> trivial

theorem removal_respected (cfg : Config) (req : Call) :
    Respected cfg req RemovalRule (fun _ => True) where
  plain c sent := by cases sent <;> exact removal_neutral fun _ => trivial
  status := keeps_of_issues getStatus_issues fun c sent => by
    cases sent <;> exact removal_neutral fun _ => trivial
  broadcast := keeps_of_issues broadcastPayload_issues fun c sent => by
    cases sent <;> exact removal_neutral fun _ => trivial
  update isOpen endsAt := keeps_of_issues (updateSettings_issues isOpen endsAt) fun c sent => by
    cases sent <;> exact removal_neutral fun _ => trivial
  mode value := keeps_of_issues (updateCustomDomainsOnly_issues value) fun c sent => by
    cases sent <;> exact removal_neutral fun _ => trivial
  generate email fp id name _ :=
    keeps_of_issues (generateAndStore_issues email fp id name) fun c sent => by
      cases sent <;> exact removal_neutral fun _ => trivial
  verify email otp _ := keeps_of_issues (verify_issues email otp) fun c sent => by
    cases sent <;> exact removal_neutral fun _ => trivial
  vote email otp ip userAgent _ :=
    keeps_of_issues (verifyAndVote_issues email otp ip userAgent) fun c sent => by
      cases sent <;> exact removal_neutral fun _ => trivial
  deleteCandidate _ n _ _ := deleteCandidate_counts n
  insertDomain domain := keeps_of_issues (insert_issues domain) fun c sent => by
    cases sent <;> exact removal_neutral fun _ => trivial
  deleteDomain id := keeps_of_issues (delete_issues id) fun c sent => by
    cases sent <;> exact removal_neutral fun _ => trivial
  warmCache := keeps_of_issues warmCache_issues fun c sent => by
    cases sent <;> exact removal_neutral fun _ => trivial

section Runs
variable {cfg : Config} {allow : State → Move → Bool} {seed : Seed} {s : State}

theorem deleted_cmd {ev : LogEntry} {id : Int} (h : deleted ev = some id) :
    ev.cmd = .sql (.deleteCandidate id) ∧ ev.after.db = (ev.before.db.deleteCandidate id).2 := by
  unfold deleted at h
  split at h
  · rename_i n cmd
    split at h
    · rename_i executed
      obtain rfl : n = id := by simpa using h
      exact ⟨cmd, executed⟩
    · cases h
  · cases h

theorem count_before_removal (run : Reaches (server cfg) allow seed.start s) {late older : Log}
    {removal : LogEntry} (split : s.log = late ++ removal :: older) {id : Int}
    (h : deleted removal = some id) :
    ∃ mid count oldest, older = mid ++ count :: oldest ∧ CountedNone count id ∧
      count.caller = removal.caller := by
  obtain ⟨job, -, rule⟩ := contract_of_logged
    (fun req => program_keeps (removal_respected cfg req) [] trivial) rfl rfl run split
  rw [(deleted_cmd h).1] at rule
  obtain ⟨n, rest, past, none_counted⟩ := rule
  obtain ⟨mid, count, oldest, rfl, same, exchange, -, -⟩ := own_cons_split past
  exact ⟨mid, count, oldest, rfl, ⟨n, none_counted, exchange⟩, same⟩

theorem no_vote_after_count {ev : LogEntry} {id : Int} (performed : Performed ev)
    (h : CountedNone ev id) : ∀ v ∈ ev.after.db.votes, v.candidateId ≠ id := by
  obtain ⟨n, zero, exchange⟩ := h
  obtain ⟨answer, after⟩ := answered_sql performed exchange
  rw [after]
  have counts : ((ev.before.db.votes.countP fun v => v.candidateId = id : Nat) : Int) = n := by
    simpa [SqlCmd.run, Db.countVotes] using answer
  have none_left : ev.before.db.votes.countP (fun v => v.candidateId = id) = 0 := by omega
  intro v member
  have other := List.countP_eq_zero.mp none_left v member
  simpa using other

theorem deleted_of_removed {ev : LogEntry} {id : Int} (h : Removed ev id) :
    deleted ev = some id := by
  simp [deleted, h.cmd, h.after]

theorem insertedFor_of_inserted {ev : LogEntry} {email fp ip userAgent : Str} {id : Int}
    (h : Inserted ev email fp id ip userAgent) : insertedFor ev = some id := by
  simp [insertedFor, h.cmd, h.grown]

theorem removed_votes {ev : LogEntry} {id : Int} (h : Removed ev id) :
    ev.after.db.votes = ev.before.db.votes.filter fun v => v.candidateId ≠ id := by
  rw [h.after, Db.deleteCandidate]

/- Without an insert in between, a removal finds no vote of its candidate. -/
theorem removal_finds_none (run : Reaches (server cfg) allow seed.start s)
    (apart : ¬ InsertBetween s.log) {late older : Log} {removal : LogEntry}
    (split : s.log = late ++ removal :: older) {id : Int} (h : deleted removal = some id) :
    ∀ v ∈ removal.before.db.votes, v.candidateId ≠ id := by
  obtain ⟨mid, count, oldest, rfl, counted, same⟩ := count_before_removal run split h
  obtain ⟨removing⟩ := moment_of_logged rfl run split
  obtain ⟨counting⟩ := moment_of_logged rfl removing.reached removing.pre_log
  rw [← removing.pre_world]
  refine kept_since (I := fun w => ∀ v ∈ w.db.votes, v.candidateId ≠ id) ?_ counting.later
    (removing.pre_log.trans (by rw [counting.post_log])) ?_ ?_
  · intro w e w' moved held
    rw [(env_scope moved).1]
    exact held
  · intro ev member held
    have logged : ev ∈ s.log := by rw [split]; simp [member]
    rcases votes_step (performed_of_run run ev logged) with
      still | ⟨email, fp, other, ip, userAgent, inserted⟩ | ⟨other, gone⟩
    · rw [still]
      exact held
    · intro x found
      rw [inserted.grown] at found
      rcases List.mem_append.mp found with old | new
      · exact held x old
      · rw [List.mem_singleton.mp new]
        intro candidate
        obtain rfl : other = id := candidate
        obtain ⟨newer, early, at_mid⟩ := List.append_of_mem member
        refine apart ⟨other, late, removal, newer, ev, early, count, oldest, ?_, h,
          insertedFor_of_inserted inserted, counted, same⟩
        rw [split, at_mid]
        simp
    · intro x found
      rw [removed_votes gone] at found
      exact held x (List.mem_filter.mp found).1
  · rw [counting.post_world]
    exact no_vote_after_count counting.performed counted

/- A vote is there at every later moment when no step removes one. -/
theorem vote_stays (run : Reaches (server cfg) allow seed.start s)
    (kept : ∀ ev ∈ s.log, ∀ v ∈ ev.before.db.votes, v ∈ ev.after.db.votes) :
    ∀ ev ∈ s.log, ∀ v ∈ ev.after.db.votes, v ∈ s.world.db.votes := by
  intro ev member v there
  obtain ⟨newer, older, split⟩ := List.append_of_mem member
  obtain ⟨moment⟩ := moment_of_logged rfl run split
  refine kept_since (I := fun w => v ∈ w.db.votes) ?_ moment.later
    (by rw [split, moment.post_log]) ?_ (by rw [moment.post_world]; exact there)
  · intro w e w' moved held
    rw [(env_scope moved).1]
    exact held
  · intro e later held
    exact kept e (by rw [split]; simp [later]) v held

/- An insert between count and removal is a vote lost or a candidate gone with votes. -/
theorem insert_between_loses (run : Reaches (server cfg) allow seed.start s)
    (between : InsertBetween s.log) : ¬ VotesKept s.log := by
  rintro ⟨kept, unreferenced⟩
  obtain ⟨id, late, removal, mid, insertion, early, count, oldest, split, gone, inserted, -⟩ := between
  have logged : ∀ ev, ev ∈ removal :: (mid ++ insertion :: (early ++ count :: oldest)) → ev ∈ s.log :=
    fun ev member => by rw [split]; exact List.mem_append_right _ member
  obtain ⟨removing⟩ := moment_of_logged rfl run split
  have performed := performed_of_run run insertion (logged _ (by simp))
  rcases votes_step performed with
    still | ⟨email, fp, other, ip, userAgent, went_in⟩ | ⟨other, removed⟩
  · unfold insertedFor at inserted
    split at inserted
    · rw [if_pos still] at inserted
      cases inserted
    · cases inserted
  · obtain rfl : other = id :=
      Option.some.inj ((insertedFor_of_inserted went_in).symm.trans inserted)
    obtain ⟨v, there, candidate⟩ : ∃ v ∈ insertion.after.db.votes, v.candidateId = other :=
      ⟨_, by rw [went_in.grown]; exact List.mem_append_right _ (List.mem_singleton_self _), rfl⟩
    have stays := vote_stays removing.reached
      (fun ev member => kept ev (logged ev (by rw [removing.pre_log] at member; simp [member])))
      insertion (by rw [removing.pre_log]; simp) v there
    rw [removing.pre_world] at stays
    exact unreferenced removal (logged _ (by simp)) v stays (by rw [gone, candidate])
  · simp [insertedFor, removed.cmd] at inserted

/- In every run the votes are safe exactly when no vote for a candidate is inserted
   between the count and the removal of one DeleteCandidate call. -/
theorem votes_kept_iff (run : Reaches (server cfg) allow seed.start s) :
    (VotesKept s.log ∧ ∀ ev ∈ s.log, ∀ v ∈ ev.after.db.votes, v ∈ s.world.db.votes) ↔
      ¬ InsertBetween s.log := by
  constructor
  · rintro ⟨kept, -⟩ between
    exact insert_between_loses run between kept
  · intro apart
    have unreferenced : ∀ ev ∈ s.log, ∀ v ∈ ev.before.db.votes, deleted ev ≠ some v.candidateId := by
      intro ev member v there gone
      obtain ⟨late, older, split⟩ := List.append_of_mem member
      exact removal_finds_none run apart split gone v there rfl
    have kept : ∀ ev ∈ s.log, ∀ v ∈ ev.before.db.votes, v ∈ ev.after.db.votes := by
      intro ev member v there
      rcases votes_step (performed_of_run run ev member) with
        still | ⟨email, fp, id, ip, userAgent, inserted⟩ | ⟨id, gone⟩
      · rw [still]
        exact there
      · rw [inserted.grown]
        exact List.mem_append_left _ there
      · rw [removed_votes gone, List.mem_filter]
        refine ⟨there, ?_⟩
        have other := unreferenced ev member v there
        have apart_from : v.candidateId ≠ id := fun same =>
          other (by rw [deleted_of_removed gone, same])
        simpa using apart_from
    exact ⟨⟨kept, unreferenced⟩, vote_stays run kept⟩

end Runs

/- A vote is verified while the removal of its candidate has counted but not yet deleted. -/
def raceMoves : List Move :=
  .start (requestFrom "10.0.0.1" "a@gmail.com" "phone" 1) :: runs 0 14 ++
    .start (.deleteCandidate "1".toList) :: runs 1 1 ++
    .start (verifyFrom "10.0.0.1" "a@gmail.com" "100000") :: runs 2 9 ++ runs 1 1

def raced : State := after (server devConfig) faultless twoCandidates.start raceMoves

theorem raced_reached : Reaches (server devConfig) faultless twoCandidates.start raced :=
  reaches_after (by decide +kernel)

theorem votes_kept_iff_raced :
    (VotesKept raced.log ∧ ∀ ev ∈ raced.log, ∀ v ∈ ev.after.db.votes, v ∈ raced.world.db.votes) ↔
      ¬ InsertBetween raced.log :=
  votes_kept_iff raced_reached

/- The vote was answered 200, and it is gone once the removal is answered 204. -/
theorem removal_race_loses_vote :
    ∃ s, Reaches (server devConfig) faultless twoCandidates.start s ∧ ¬ VotesKept s.log ∧
      s.jobs.map statusOf = [some 200, some 204, some 200] ∧ s.world.db.votes = [] :=
  ⟨raced, raced_reached, by decide +kernel⟩

end VoteRetention
