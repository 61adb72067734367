import VotingApp.OtpRecords
import VotingApp.TableInvariants

/-!
Where a vote comes from, and how votes, answers and the leaderboard are counted. A row
is traced back through the call that inserted it to the call that stored its code.
-/
namespace Provenance
open GoText GoTime Tables EffectProgram CallPool PoolHistory VotingWorld
open OtpService VotingSettings VoteService CustomDomains Handlers VotingServer
open Footprints Frames OtpRecords TableInvariants

/-- What an INSERT into votes carries. -/
structure Ballot where
  email : Str
  fingerprint : Str
  candidateID : Int
  ip : Str
  userAgent : Str
  deriving DecidableEq, Repr

def ballotOf (v : Vote) : Ballot :=
  ⟨v.voterEmail, v.voterFingerprint, v.candidateId, v.voterIp, v.voterUserAgent⟩

def insertOf (b : Ballot) : Cmd :=
  .sql (.insertVote b.email b.fingerprint b.candidateID b.ip b.userAgent)

/-- The ballot of an INSERT that InsertVote reported as done. -/
def castBy : Exchange Cmd Reply → Option Ballot
  | ⟨.sql (.insertVote email fp id ip userAgent), .ok _⟩ => some ⟨email, fp, id, ip, userAgent⟩
  | _ => none

def casts (past : History) : List Ballot := past.filterMap castBy

/-- The vote a call has recorded so far. -/
def recorded (job : Job Cmd Reply Call Answer) : Option Ballot := (casts job.past).head?

/-- The answers that tell a voter that the vote is recorded. -/
def votedAnswer : Call → Answer → Bool
  | .verifyVote _ _ _, .http r => r.status = 200
  | .verifyAndVote _ _ _ _, .error err => err = none
  | _, _ => false

def succeeded (job : Job Cmd Reply Call Answer) : Bool :=
  match job.rest with
  | .done a => votedAnswer job.req a
  | .call _ _ => false

/-- The vote is in, and the call is still sending the new leaderboard. -/
def announcing (job : Job Cmd Reply Call Answer) : Bool :=
  match job.rest with
  | .done _ => false
  | .call _ _ => (recorded job).isSome

/-- The election of the claim: no candidate is deleted, and an INSERT that reports an
error has not committed. -/
def election (s : State) : Move → Bool
  | .run i o =>
    match nextCmd s i with
    | some (.sql (.deleteCandidate _)) => false
    | some (.sql (.insertVote _ _ _ _ _)) => !o.fault.any Fault.applied
    | _ => true
  | _ => true

theorem castBy_some {x : Exchange Cmd Reply} {b : Ballot} (h : castBy x = some b) :
    x = ⟨.sql (.insertVote b.email b.fingerprint b.candidateID b.ip b.userAgent), .ok ()⟩ := by
  unfold castBy at h
  split at h
  · cases h
    rfl
  · cases h

theorem casts_neutral {c : Cmd} {l : List Ballot} (other : ∀ r, castBy ⟨c, r⟩ = none) :
    Neutral (fun _ _ => True) (fun past => casts past = l) c := by
  intro past held
  constructor
  · trivial
  · intro r
    rw [casts, List.filterMap_cons_none (other r)]
    exact held

theorem broadcast_casts (l : List Ballot) :
    broadcastPayload.Keeps (fun _ _ => True) (fun past => casts past = l) := by
  apply keeps_of_issues broadcastPayload_issues
  intro c sent
  cases sent <;> exact casts_neutral fun _ => rfl

theorem verify_casts (email otp : Str) (l : List Ballot) :
    (OtpService.verify email otp).Keeps (fun _ _ => True) (fun past => casts past = l) := by
  apply keeps_of_issues (verify_issues email otp)
  intro c sent
  cases sent <;> exact casts_neutral fun _ => rfl

theorem status_casts (l : List Ballot) :
    VotingSettings.getStatus.Keeps (fun _ _ => True) (fun past => casts past = l) := by
  apply keeps_of_issues getStatus_issues
  intro c sent
  cases sent <;> exact casts_neutral fun _ => rfl

/- A call that presents no code records no vote. -/
theorem silent_respected {cfg : Config} {req : Call} (silent : presents cfg req = none) :
    Respected cfg req (fun _ _ => True) (fun past => casts past = []) where
  plain c sent := by cases sent <;> exact casts_neutral fun _ => rfl
  status := status_casts []
  broadcast := broadcast_casts []
  update isOpen endsAt := keeps_of_issues (updateSettings_issues isOpen endsAt) fun c sent => by
    cases sent <;> exact casts_neutral fun _ => rfl
  mode value := keeps_of_issues (updateCustomDomainsOnly_issues value) fun c sent => by
    cases sent <;> exact casts_neutral fun _ => rfl
  generate email fp id name _ :=
    keeps_of_issues (generateAndStore_issues email fp id name) fun c sent => by
      cases sent <;> exact casts_neutral fun _ => rfl
  verify email otp _ := verify_casts email otp []
  vote email otp ip userAgent presented := by
    rw [silent] at presented
    cases presented
  deleteCandidate _ n _ _ := keeps_of_issues (deleteCandidate_issues n) fun c sent => by
    cases sent <;> exact casts_neutral fun _ => rfl
  insertDomain domain := keeps_of_issues (insert_issues domain) fun c sent => by
    cases sent <;> exact casts_neutral fun _ => rfl
  deleteDomain id := keeps_of_issues (delete_issues id) fun c sent => by
    cases sent <;> exact casts_neutral fun _ => rfl
  warmCache := keeps_of_issues warmCache_issues fun c sent => by
    cases sent <;> exact casts_neutral fun _ => rfl

/- VerifyAndVote returns nil exactly when its INSERT did. -/
theorem verifyAndVote_casts (email otp ip userAgent : Str) {past : History}
    (none_yet : casts past = []) :
    (VoteService.verifyAndVote email otp ip userAgent).Meets (fun _ _ => True)
      (fun now err => casts now ≠ [] ↔ err = none) past := by
  apply meets_bind (verify_casts email otp [] past none_yet)
  intro now found still
  cases found with
  | error err => simp [still]
  | ok found =>
    refine meets_sql trivial fun r => ?_
    cases r with
    | error err =>
      have after : casts (⟨.sql (.insertVote email found.1 found.2 ip userAgent), .error err⟩ :: now) = [] := by
        rw [casts, List.filterMap_cons_none rfl]
        exact still
      dsimp only
      split <;> simp [after]
    | ok done =>
      have cast : castBy ⟨.sql (.insertVote email found.1 found.2 ip userAgent), .ok done⟩ =
          some ⟨email, found.1, found.2, ip, userAgent⟩ := rfl
      have after : casts (⟨.sql (.insertVote email found.1 found.2 ip userAgent), .ok done⟩ :: now) =
          [⟨email, found.1, found.2, ip, userAgent⟩] := by
        rw [casts, List.filterMap_cons_some cast]
        exact congrArg _ still
      refine meets_bind (broadcast_casts _ _ after) fun now _ kept => ?_
      simp [kept]

theorem isVotingOpen_casts {past : History} (none_yet : casts past = []) :
    VotingSettings.isVotingOpen.Meets (fun _ _ => True) (fun now _ => casts now = []) past := by
  apply keeps_of_issues isVotingOpen_issues (I := fun now => casts now = []) _ past none_yet
  intro c sent
  cases sent <;> exact casts_neutral fun _ => rfl

theorem verifyVote_casts (cfg : Config) (ip userAgent : Str) (body : Except Str VerifyVoteRequest) :
    (Handlers.verifyVote cfg ip userAgent body).Meets (fun _ _ => True)
      (fun now r => casts now ≠ [] ↔ r.status = 200) [] := by
  refine meets_bind (isVotingOpen_casts rfl) fun now opened none_yet => ?_
  rcases opened with err | opened
  · simp [none_yet, errorJSON]
  · cases opened with
    | false => simp [none_yet, errorJSON]
    | true =>
      dsimp only
      cases bindBody (VerifyVoteRequest.check cfg) body with
      | error details => simp [none_yet, badBody]
      | ok req =>
        refine meets_bind (verifyAndVote_casts _ _ _ _ none_yet) fun now err voted => ?_
        exact voted.trans (answerVerified_ok err).symm

/-- A call is answered with success exactly when it has recorded a vote. -/
theorem program_casts (cfg : Config) (req : Call) :
    (program cfg req).Meets (fun _ _ => True)
      (fun now a => casts now ≠ [] ↔ votedAnswer req a = true) [] := by
  have silent : presents cfg req = none → (∀ a, votedAnswer req a = false) →
      (program cfg req).Meets (fun _ _ => True)
        (fun now a => casts now ≠ [] ↔ votedAnswer req a = true) [] := by
    intro presents_none never
    apply meets_mono (program_keeps (silent_respected presents_none) [] rfl) fun _ _ h => h
    intro now a kept
    simp [kept, never a]
  cases req with
  | verifyVote ip userAgent body =>
    refine meets_bind (verifyVote_casts cfg ip userAgent body) fun now r voted => ?_
    simpa [votedAnswer] using voted
  | verifyAndVote email otp ip userAgent =>
    refine meets_bind (verifyAndVote_casts email otp ip userAgent rfl) fun now err voted => ?_
    simpa [votedAnswer] using voted
  | _ => exact silent rfl fun a => by cases a <;> rfl

section Trail
variable {cfg : Config} {allow : State → Move → Bool} {seed : Seed} {s : State}

/-- The trail of one vote: the call that inserts it has read, within the lifetime of the
code, a record that nothing wrote since a call stored it for the same email, fingerprint
and candidate under the code now presented. -/
structure Trail (cfg : Config) (s : State) (b : Ballot) (otp : Str)
    (insertion read store : LogEntry) : Prop where
  inserts : insertion.cmd = insertOf b
  presented : ∃ job, s.jobs[insertion.caller]? = some job ∧
    presents cfg job.req = some ⟨b.email, otp, b.ip, b.userAgent⟩
  same_call : read.caller = insertion.caller
  reads : read.exchange =
    ⟨.redis (.get (otpKey b.email)), .ok (otpRecord otp b.candidateID b.fingerprint)⟩
  stored : Stored cfg s store b.email otp b.fingerprint b.candidateID
  in_time : read.before.clock < store.before.clock + otpTTL
  order : ∃ late between mid oldest,
    s.log = late ++ insertion :: (between ++ read :: (mid ++ store :: oldest)) ∧
      ∀ ev ∈ mid, ¬ Wrote (otpKey b.email) ev

theorem decoded_stored {n : Nat} {otp fp fp' : Str} {id id' : Int}
    (decoded : decodeRecord (otpRecord (otpCode n) id' fp') = .record otp id fp) :
    otp = otpCode n ∧ id = id' ∧ fp = fp' := by
  rw [decodeRecord_otpRecord] at decoded
  split at decoded
  · cases decoded
    exact ⟨rfl, rfl, rfl⟩
  · cases decoded

/-- Every INSERT into votes has a trail. -/
theorem insertion_has_trail (run : Reaches (server cfg) allow seed.start s) {late older : Log}
    {insertion : LogEntry} (split : s.log = late ++ insertion :: older) {b : Ballot}
    (inserts : insertion.cmd = insertOf b) :
    ∃ otp read store, Trail cfg s b otp insertion read store := by
  obtain ⟨job, at_job, rule⟩ := rule_of_run run split
  rw [inserts] at rule
  obtain ⟨otp, stored, reply, rest, presented, decoded, past⟩ := rule
  obtain ⟨early, clear, older', at_clear, -, -, past', -⟩ := own_cons_split past
  obtain ⟨skip, read, oldest, at_read, same_call, reads, -, -⟩ := own_cons_split past'
  have at_log : s.log = (late ++ insertion :: (early ++ clear :: skip)) ++ read :: oldest := by
    rw [split, at_clear, at_read]
    simp
  obtain ⟨mid, store, last, otp', fp', id', at_store, is_stored, idle, same, in_time⟩ :=
    read_was_stored run at_log reads
  obtain ⟨n, code, -⟩ := is_stored.drawn
  rw [same, code] at decoded
  obtain ⟨same_code, same_id, same_fp⟩ := decoded_stored decoded
  have same_otp : otp' = otp := code.trans same_code.symm
  rw [same_otp, ← same_id, ← same_fp] at is_stored same
  rw [same] at reads
  refine ⟨otp, read, store, inserts, ⟨job, at_job, presented⟩, same_call, reads, is_stored, in_time,
    late, early ++ clear :: skip, mid, last, ?_, idle⟩
  rw [at_log, at_store]
  simp

end Trail

section Counting
variable {cfg : Config} {seed : Seed} {s : State}

/-- In the election an event adds the vote it reports and nothing else. -/
theorem votes_grow {ev : LogEntry} (performed : Performed ev)
    (no_removal : ∀ id, ev.cmd ≠ .sql (.deleteCandidate id))
    (honest : ∀ b, ev.cmd = insertOf b → ∀ f, ev.oracle.fault = some f → f.applied = false) :
    ev.after.db.votes.map ballotOf =
      ev.before.db.votes.map ballotOf ++ (castBy ev.exchange).toList := by
  by_cases writes : WritesVotes ev.cmd
  · obtain ⟨caller, oracle, cmd, reply, before, after⟩ := ev
    cases cmd with
    | sql c =>
      cases c with
      | deleteCandidate id => exact absurd rfl (no_removal id)
      | insertVote email fp id ip userAgent =>
        obtain ⟨answer, same⟩ := perform_sql performed
        dsimp only [Event.exchange] at *
        subst reply
        rw [same]
        cases fault : oracle.fault with
        | some f =>
          have lost : f.applied = false := honest ⟨email, fp, id, ip, userAgent⟩ rfl f fault
          simp [faulty, fault, lost, castBy]
        | none =>
          rw [faulty_ok fault]
          rcases insertVote_cases before.db before.clock email fp id ip userAgent with
            ⟨err, refused⟩ | ⟨-, -, -, inserted⟩
          · simp [SqlCmd.run, refused, castBy]
          · simp [SqlCmd.run, inserted, castBy, ballotOf, Db.newVote]
      | _ => exact absurd writes id
    | _ => exact absurd writes id
  · rw [votes_frame writes performed]
    have silent : castBy ev.exchange = none := by
      cases cast : castBy ev.exchange with
      | none => rfl
      | some b =>
        have cmd : ev.cmd = insertOf b := congrArg Exchange.cmd (castBy_some cast)
        rw [cmd] at writes
        exact absurd trivial writes
    rw [silent]
    simp

theorem nextCmd_waiting {s : State} {i : Nat} {job : Job Cmd Reply Call Answer} {c : Cmd}
    {next : Reply c → Prog Cmd Reply Answer} (at_i : s.jobs[i]? = some job)
    (waiting : job.rest = .call c next) : nextCmd s i = some c := by
  simp [nextCmd, at_i, waiting]

/- The rows are the reported INSERTs in order. -/
theorem votes_are_casts (run : Reaches (server cfg) election seed.start s) :
    s.world.db.votes.map ballotOf = (s.log.filterMap fun ev => castBy ev.exchange).reverse := by
  refine reaches_inv (I := fun t => t.world.db.votes.map ballotOf =
    (t.log.filterMap fun ev => castBy ev.exchange).reverse) rfl ?_ run
  intro t l t' held allowed step
  cases step with
  | start req => exact held
  | env moved =>
    rw [(env_scope moved).1]
    exact held
  | @run i o job c next r w at_i waiting performed =>
    simp only [election, nextCmd_waiting at_i waiting] at allowed
    have grown := @votes_grow ⟨i, o, c, r, t.world, w⟩ performed ?_ ?_
    · simp only [Event.exchange] at grown
      rw [grown, held]
      cases cast : castBy (⟨c, r⟩ : Exchange Cmd Reply) <;> simp [Event.exchange, cast]
    · rintro id rfl
      cases allowed
    · rintro b rfl f fault
      change o.fault = some f at fault
      simpa [insertOf, fault] using allowed

/- A recorded vote carries what the call presented. -/
theorem cast_presented (run : Reaches (server cfg) election seed.start s) {i : Nat}
    {job : Job Cmd Reply Call Answer} (at_i : s.jobs[i]? = some job) {b : Ballot}
    (cast : b ∈ casts job.past) :
    ∃ otp, presents cfg job.req = some ⟨b.email, otp, b.ip, b.userAgent⟩ := by
  rw [past_of_job rfl rfl run at_i] at cast
  obtain ⟨x, member, is_cast⟩ := List.mem_filterMap.mp cast
  obtain ⟨ev, logged, mine, same⟩ := mem_own.mp member
  have cmd : ev.cmd = insertOf b := by
    rw [← same] at is_cast
    exact congrArg Exchange.cmd (castBy_some is_cast)
  obtain ⟨late, older, split⟩ := List.append_of_mem logged
  obtain ⟨otp, read, store, trail⟩ := insertion_has_trail run split cmd
  obtain ⟨job', at_job, presented⟩ := trail.presented
  rw [mine, at_i] at at_job
  cases at_job
  exact ⟨otp, presented⟩

theorem at_most_one_of_equal {A : Type} {l : List A} {a : A} (distinct : l.Nodup)
    (same : ∀ x ∈ l, x = a) : l.length ≤ 1 := by
  rw [List.eq_replicate_of_mem same] at distinct
  exact List.nodup_replicate.mp distinct

/- The unique key on the email lets a call record one vote at most. -/
theorem one_cast (run : Reaches (server cfg) election seed.start s)
    {job : Job Cmd Reply Call Answer} (member : job ∈ s.jobs) : (casts job.past).length ≤ 1 := by
  have all : ((s.jobs.flatMap fun j => casts j.past).map Ballot.email).Nodup := by
    have logged := (jobs_hold_log castBy rfl rfl run).trans (List.reverse_perm _).symm
    rw [← votes_are_casts run] at logged
    apply (logged.map Ballot.email).nodup_iff.mpr
    rw [List.map_map]
    exact (sound_of_run run).emails
  rw [List.map_flatMap] at all
  have mine := (List.nodup_flatMap.mp all).1 job member
  obtain ⟨i, at_i⟩ := List.mem_iff_getElem?.mp member
  cases first : casts job.past with
  | nil => simp
  | cons b rest =>
    rw [← first, ← List.length_map (f := Ballot.email)]
    apply at_most_one_of_equal mine (a := b.email)
    intro email found
    obtain ⟨b', cast, same⟩ := List.mem_map.mp found
    obtain ⟨otp, presented⟩ := cast_presented run at_i (b := b) (by rw [first]; simp)
    obtain ⟨otp', presented'⟩ := cast_presented run at_i cast
    rw [presented, Option.some.injEq, Presented.mk.injEq] at presented'
    rw [← same, ← presented'.1]

/-- The rows are the votes that the calls have recorded. -/
theorem votes_are_recorded (run : Reaches (server cfg) election seed.start s) :
    (s.world.db.votes.map ballotOf).Perm (s.jobs.filterMap recorded) := by
  have logged := (jobs_hold_log castBy rfl rfl run).trans (List.reverse_perm _).symm
  rw [← votes_are_casts run] at logged
  apply logged.symm.trans
  rw [List.filterMap_eq_flatMap_toList]
  apply List.Perm.of_eq
  apply List.flatMap_congr
  intro job member
  have one := one_cast run member
  change casts job.past = _
  unfold recorded
  cases held : casts job.past with
  | nil => rfl
  | cons b rest =>
    rw [held] at one
    have nothing : rest = [] := List.eq_nil_of_length_eq_zero (by simpa using one)
    rw [nothing]
    rfl

/- A finished call has recorded a vote exactly when it was answered with success. -/
theorem recorded_iff (run : Reaches (server cfg) election seed.start s)
    {job : Job Cmd Reply Call Answer} (member : job ∈ s.jobs) :
    (recorded job).isSome = (succeeded job || announcing job) := by
  have answered := contract_of_job (program_casts cfg) rfl run job member
  unfold succeeded announcing
  cases rest : job.rest with
  | call c next => simp
  | done a =>
    rw [rest, meets_done] at answered
    unfold recorded
    cases held : casts job.past with
    | nil => simpa [held] using answered
    | cons b l => simpa [held] using answered

theorem not_both (job : Job Cmd Reply Call Answer) : ¬ (succeeded job ∧ announcing job) := by
  unfold succeeded announcing
  cases job.rest <;> simp

/- Rows are counted by the calls answered with success and those about to be. -/
theorem count_rows (run : Reaches (server cfg) election seed.start s) (p : Ballot → Bool) :
    s.world.db.votes.countP (fun v => p (ballotOf v)) =
      s.jobs.countP (fun job => succeeded job && (recorded job).any p) +
        s.jobs.countP (fun job => announcing job && (recorded job).any p) := by
  have same : s.world.db.votes.countP (fun v => p (ballotOf v)) =
      s.jobs.countP fun job => (recorded job).any p := by
    have moved := (votes_are_recorded run).countP_eq p
    rw [List.countP_map, List.countP_filterMap] at moved
    apply moved.trans
    apply List.countP_congr
    intro job member
    cases recorded job <;> simp
  rw [same, List.countP_eq_countP_filter_add s.jobs _ succeeded, List.countP_filter,
    List.countP_filter]
  congr 1
  · apply List.countP_congr
    intro job member
    simp [Bool.and_comm]
  · apply List.countP_congr
    intro job member
    have either := recorded_iff run member
    have never := not_both job
    cases held : recorded job with
    | none => simp
    | some b =>
      rw [held] at either
      cases done : succeeded job <;> cases going : announcing job <;> simp_all

theorem count_successes (run : Reaches (server cfg) election seed.start s) :
    s.world.db.votes.length = s.jobs.countP succeeded + s.jobs.countP announcing := by
  have all := count_rows run fun _ => true
  rw [List.countP_true] at all
  rw [all]
  have held : ∀ job ∈ s.jobs, succeeded job = true ∨ announcing job = true →
      (recorded job).any (fun _ => true) = true := by
    intro job member either
    have same := recorded_iff run member
    rw [Bool.or_eq_true_iff.mpr either] at same
    obtain ⟨b, is⟩ := Option.isSome_iff_exists.mp same
    rw [is]
    rfl
  congr 1
  · apply List.countP_congr
    intro job member
    constructor
    · intro both
      exact (Bool.and_eq_true_iff.mp both).1
    · intro done
      exact Bool.and_eq_true_iff.mpr ⟨done, held job member (Or.inl done)⟩
  · apply List.countP_congr
    intro job member
    constructor
    · intro both
      exact (Bool.and_eq_true_iff.mp both).1
    · intro going
      exact Bool.and_eq_true_iff.mpr ⟨going, held job member (Or.inr going)⟩

/- The event that inserted a row, with its trail. -/
theorem row_has_trail (run : Reaches (server cfg) election seed.start s) {v : Vote}
    (member : v ∈ s.world.db.votes) :
    ∃ otp insertion read store, Trail cfg s (ballotOf v) otp insertion read store ∧
      ∃ job, s.jobs[insertion.caller]? = some job ∧ (succeeded job ∨ announcing job) := by
  have logged : ballotOf v ∈ (s.log.filterMap fun ev => castBy ev.exchange).reverse := by
    rw [← votes_are_casts run]
    exact List.mem_map_of_mem member
  obtain ⟨ev, at_log, cast⟩ := List.mem_filterMap.mp (List.mem_reverse.mp logged)
  obtain ⟨late, older, split⟩ := List.append_of_mem at_log
  obtain ⟨otp, read, store, trail⟩ :=
    insertion_has_trail run split (congrArg Exchange.cmd (castBy_some cast))
  obtain ⟨job, at_job, presented⟩ := trail.presented
  refine ⟨otp, ev, read, store, trail, job, at_job, ?_⟩
  have own_cast : ballotOf v ∈ casts job.past := by
    rw [past_of_job rfl rfl run at_job]
    exact List.mem_filterMap.mpr ⟨ev.exchange, mem_own.mpr ⟨ev, at_log, rfl, rfl⟩, cast⟩
  have is_recorded : (recorded job).isSome = true := by
    unfold recorded
    rw [List.isSome_head?]
    exact List.ne_nil_of_mem own_cast
  rw [recorded_iff run (List.mem_of_getElem? at_job), Bool.or_eq_true] at is_recorded
  exact is_recorded

/- The unique key on the email: rows of one email are one row. -/
theorem same_email (run : Reaches (server cfg) election seed.start s) {v v' : Vote}
    (member : v ∈ s.world.db.votes) (member' : v' ∈ s.world.db.votes)
    (same : v.voterEmail = v'.voterEmail) : v = v' :=
  List.inj_on_of_nodup_map (sound_of_run run).emails member member' same

/-- Provenance of every row, and the exact tally. -/
structure Tallied (cfg : Config) (s : State) : Prop where
  trail : ∀ v ∈ s.world.db.votes, ∃ otp insertion read store,
    Trail cfg s (ballotOf v) otp insertion read store ∧
      ∃ job, s.jobs[insertion.caller]? = some job ∧ (succeeded job ∨ announcing job)
  one_per_voter : ∀ v ∈ s.world.db.votes, ∀ v' ∈ s.world.db.votes,
    ∀ otp otp' insertion insertion' read read' store store',
      Trail cfg s (ballotOf v) otp insertion read store →
        Trail cfg s (ballotOf v') otp' insertion' read' store' →
          insertion.caller = insertion'.caller → v = v'
  one_per_code : ∀ v ∈ s.world.db.votes, ∀ v' ∈ s.world.db.votes,
    ∀ otp otp' insertion insertion' read read' store store',
      Trail cfg s (ballotOf v) otp insertion read store →
        Trail cfg s (ballotOf v') otp' insertion' read' store' →
          store.caller = store'.caller → v = v'
  rows : s.world.db.votes.length = s.jobs.countP succeeded + s.jobs.countP announcing
  candidates : (s.world.db.getAllWithVotes.map CandidateWithVotes.candidate).Perm
    s.world.db.candidates
  sorted : s.world.db.getAllWithVotes.Pairwise moreVotes
  totals : ∀ row ∈ s.world.db.getAllWithVotes, row.totalVotes =
    (s.jobs.countP (fun job =>
        succeeded job && (recorded job).any fun b => b.candidateID = row.candidate.id) +
      s.jobs.countP fun job =>
        announcing job && (recorded job).any fun b => b.candidateID = row.candidate.id : Nat)
  sum : (s.world.db.getAllWithVotes.map CandidateWithVotes.totalVotes).sum =
    (s.world.db.votes.length : Int)

/- In every election every row has its provenance and the leaderboard is exact. -/
theorem election_is_tallied (run : Reaches (server cfg) election seed.start s) :
    Tallied cfg s where
  trail v member := row_has_trail run member
  one_per_voter v member v' member' otp otp' insertion insertion' read read' store store' := by
    intro trail trail' same
    obtain ⟨job, at_job, presented⟩ := trail.presented
    obtain ⟨job', at_job', presented'⟩ := trail'.presented
    rw [same, at_job', Option.some.injEq] at at_job
    rw [← at_job, presented', Option.some.injEq, Presented.mk.injEq] at presented
    exact same_email run member member' presented.1.symm
  one_per_code v member v' member' otp otp' insertion insertion' read read' store store' := by
    intro trail trail' same
    obtain ⟨job, at_job, asked⟩ := trail.stored.asked
    obtain ⟨job', at_job', asked'⟩ := trail'.stored.asked
    rw [same, at_job', Option.some.injEq] at at_job
    rw [← at_job, asked', Option.some.injEq, Prod.mk.injEq] at asked
    exact same_email run member member' asked.1.symm
  rows := count_successes run
  candidates := board_candidates _
  sorted := board_sorted _
  totals row member := by
    rw [(board_row member).2, ← count_rows run fun b => b.candidateID = row.candidate.id]
    rfl
  sum := board_sum (sound_of_run run)

end Counting

/- One voter asks for a code, another guesses wrong, the first one votes. -/
def oneVoteMoves : List Move :=
  .start (requestFrom "10.0.0.1" "a@gmail.com" "phone" 2) :: runs 0 14 ++
    .start (verifyFrom "10.0.0.2" "a@gmail.com" "999999") :: runs 1 5 ++
      .start (verifyFrom "10.0.0.1" "a@gmail.com" "100000") :: runs 2 9

def oneVote : State := after (server devConfig) election twoCandidates.start oneVoteMoves

theorem election_is_tallied_one_vote :
    oneVote.world.db.votes.map ballotOf =
      [⟨"a@gmail.com".toList, "phone".toList, 2, "10.0.0.1".toList, []⟩] ∧ Tallied devConfig oneVote :=
  ⟨by decide +kernel, election_is_tallied (reaches_after (by decide +kernel))⟩

end Provenance
