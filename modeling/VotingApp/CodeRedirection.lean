import VotingApp.Provenance
import VotingApp.EarlyAnswers

/-!
Whose candidate a verification records. The record of an email is one key: the request
that stored it last decides, whoever sent it.
-/
namespace CodeRedirection
open GoText GoTime Tables EffectProgram CallPool PoolHistory VotingWorld
open OtpService VotingSettings VoteService CustomDomains Handlers VotingServer
open Footprints Frames OtpRecords Provenance EarlyAnswers

/-- The record of a code for this candidate and device, stored without an error. -/
def StoredBy (past : History) (email fp : Str) (id : Int) : Prop :=
  ∃ n, ⟨.redis (.set (otpKey email) (otpRecord (otpCode n) id fp) otpTTL), .ok ()⟩ ∈ past

theorem generate_stores (email fp : Str) (id : Int) (name : Str) (past : History) :
    (OtpService.generateAndStore email fp id name).Meets (fun _ _ => True)
      (fun now err => err = none → StoredBy now email fp id) past := by
  apply meets_issue trivial
  intro r
  cases r with
  | error err => exact fun h => nomatch h
  | ok n =>
    apply meets_bind (isEmailBlocked_meets trivial)
    intro now blocked checked
    rcases blocked with err | blocked
    · exact fun h => nomatch h
    · cases blocked with
      | true => exact fun h => nomatch h
      | false =>
        apply meets_redis trivial
        intro r
        cases r with
        | error err => exact fun h => nomatch h
        | ok done =>
          apply meets_issue trivial
          intro r
          cases r with
          | none => exact fun _ => ⟨n, by simp⟩
          | some err => exact meets_redis trivial fun _ h => nomatch h

theorem nameAndStore_stores (email fp : Str) (id : Int) (past : History) :
    (nameAndStore email fp id).Meets (fun _ _ => True)
      (fun now err => err = none → StoredBy now email fp id) past := by
  apply meets_sql trivial
  intro r
  cases r with
  | error err => exact fun h => nomatch h
  | ok name => exact generate_stores email fp id name _

theorem prepareOTPRequest_stores (email fp ip : Str) (id : Int) (past : History) :
    (prepareOTPRequest email fp ip id).Meets (fun _ _ => True)
      (fun now err => err = none → StoredBy now email fp id) past := by
  apply meets_sql trivial
  intro byEmail
  cases byEmail with
  | error err => exact fun h => nomatch h
  | ok byEmail =>
    dsimp only
    split
    · exact fun h => nomatch h
    · apply meets_sql trivial
      intro byFingerprint
      cases byFingerprint with
      | error err => exact fun h => nomatch h
      | ok byFingerprint =>
        dsimp only
        split
        · exact fun h => nomatch h
        · split
          · exact nameAndStore_stores email fp id _
          · apply meets_sql trivial
            intro count
            cases count with
            | error err => exact fun h => nomatch h
            | ok count =>
              dsimp only
              split
              · exact fun h => nomatch h
              · exact nameAndStore_stores email fp id _

/- RequestOTP answers 200 only after it has stored the record of its candidate and device. -/
theorem requestOTP_stores (cfg : Config) (ip : Str) (body : Except Str RequestOTPRequest) :
    (Handlers.requestOTP cfg ip body).Meets (fun _ _ => True)
      (fun now r => r.status = 200 → ∃ req, bindBody (RequestOTPRequest.check cfg) body = .ok req ∧
        StoredBy now (normalizeEmail cfg req.email) req.fingerprint req.candidateID) [] := by
  apply requestOTP_meets
  · exact fun past r early ok => absurd ok (early_other early (by decide))
  · intro req bound now
    apply meets_mono (prepareOTPRequest_stores _ _ _ _ _) fun _ _ allowed => allowed
    exact fun now err stores ok => ⟨req, bound, stores ((answerPrepared_ok err).mp ok)⟩

theorem program_stores (cfg : Config) (req : Call) :
    (program cfg req).Meets (fun _ _ => True)
      (fun now a => ∀ r, a = .http r → r.status = 200 → ∀ email fp id,
        asksCode cfg req = some (email, fp, id) → StoredBy now email fp id) [] := by
  have silent : asksCode cfg req = none → (program cfg req).Meets (fun _ _ => True)
      (fun now a => ∀ r, a = .http r → r.status = 200 → ∀ email fp id,
        asksCode cfg req = some (email, fp, id) → StoredBy now email fp id) [] := by
    intro asks_none
    apply meets_mono (meets_trivial (fun _ _ => trivial) _) fun _ _ h => h
    intro now a _ r _ _ email fp id asked
    rw [asks_none] at asked
    cases asked
  cases req with
  | requestOTP ip body =>
    apply meets_bind (requestOTP_stores cfg ip body)
    intro now r stores r' same ok email fp id asked
    cases same
    obtain ⟨req, bound, stored⟩ := stores ok
    simp only [asksCode, bound, Option.some.injEq, Prod.mk.injEq] at asked
    obtain ⟨rfl, rfl, rfl⟩ := asked
    exact stored
  | generateAndStore email fp id name =>
    apply meets_bind (meets_trivial (fun _ _ => trivial) _)
    intro now err _ r same
    cases same
  | _ => exact silent rfl

section Runs
variable {cfg : Config} {allow : State → Move → Bool} {seed : Seed} {s : State}

/-- Call i had returned before call j took its first step. -/
def AfterReturn (s : State) (i j : Nat) : Prop :=
  ∃ newer older, s.log = newer ++ older ∧ (∀ ev ∈ newer, ev.caller ≠ i) ∧
    ∀ ev ∈ older, ev.caller ≠ j

/-- The SET by which call i stored its code for this candidate and device. -/
def StoresFor (i : Nat) (email fp : Str) (id : Int) (ev : LogEntry) : Prop :=
  ev.caller = i ∧ ∃ n, ev.exchange =
    ⟨.redis (.set (otpKey email) (otpRecord (otpCode n) id fp) otpTTL), .ok ()⟩

/-- After call i had stored its code, and last before the end of this part of the log,
another call stored a code of the same email for another candidate or device. -/
def Redirected (cfg : Config) (s : State) (i : Nat) (email fp : Str) (id : Int) (older : Log) :
    Prop :=
  ∃ mid other gap own oldest otp fp' id', older = mid ++ other :: (gap ++ own :: oldest) ∧
    StoresFor i email fp id own ∧ Stored cfg s other email otp fp' id' ∧
      (∀ ev ∈ mid, ¬ Wrote (otpKey email) ev) ∧ other.caller ≠ i ∧ (id', fp') ≠ (id, fp)

theorem stores_wrote {i : Nat} {email fp : Str} {id : Int} {ev : LogEntry}
    (performed : Performed ev) (stores : StoresFor i email fp id ev) :
    Wrote (otpKey email) ev := by
  obtain ⟨-, n, exchange⟩ := stores
  have cmd : ev.cmd = .redis (.set (otpKey email) (otpRecord (otpCode n) id fp) otpTTL) :=
    congrArg Exchange.cmd exchange
  constructor
  · rw [cmd]
    exact List.mem_singleton_self _
  · obtain ⟨answer, -⟩ := exchange_redis performed exchange
    obtain ⟨no_fault, -⟩ := faulty_answered answer.symm
    intro f fault
    rw [no_fault] at fault
    cases fault

/- An event of the earlier call is older than any event of the later call. -/
theorem older_event {i j : Nat} (after : AfterReturn s i j) {late older : Log} {read own : LogEntry}
    (split : s.log = late ++ read :: older) (of_j : read.caller = j) (logged : own ∈ s.log)
    (of_i : own.caller = i) : own ∈ older := by
  obtain ⟨newer, oldest, at_cut, not_i, not_j⟩ := after
  have own_old : own ∈ oldest := by
    rw [at_cut] at logged
    rcases List.mem_append.mp logged with new | old
    · exact absurd of_i (not_i own new)
    · exact old
  have read_new : ¬ read ∈ oldest := fun old => not_j read old of_j
  rw [split, List.append_eq_append_iff] at at_cut
  rcases at_cut with ⟨more, -, rest⟩ | ⟨more, -, rest⟩
  · cases more with
    | nil =>
      rw [List.nil_append] at rest
      rw [← rest] at read_new
      exact absurd List.mem_cons_self read_new
    | cons first more =>
      rw [(List.cons.inj rest).2]
      exact List.mem_append_right _ own_old
  · rw [rest] at read_new
    exact absurd (List.mem_append_right _ List.mem_cons_self) read_new

/-- A client asked for a code and was answered 200; after that it presented a code of the
same normalized email and was answered 200. -/
structure Redeems (cfg : Config) (s : State) (i j : Nat) (email fp : Str) (id : Int) : Prop where
  asked : ∃ job ip body, s.jobs[i]? = some job ∧ job.req = .requestOTP ip body ∧
    asksCode cfg job.req = some (email, fp, id) ∧ statusOf job = some 200
  presented : ∃ job ip userAgent body otp, s.jobs[j]? = some job ∧
    job.req = .verifyVote ip userAgent body ∧
      presents cfg job.req = some ⟨email, otp, ip, userAgent⟩ ∧ statusOf job = some 200
  later : AfterReturn s i j

theorem answered_done {job : Job Cmd Reply Call Answer} (answered : statusOf job = some 200) :
    ∃ r, job.rest = .done (.http r) ∧ r.status = 200 := by
  unfold statusOf at answered
  split at answered
  · rename_i r done
    exact ⟨r, done, Option.some.inj answered⟩
  · cases answered

/- A request answered 200 has stored its record. -/
theorem request_stored (run : Reaches (server cfg) allow seed.start s) {i : Nat}
    {job : Job Cmd Reply Call Answer} (at_i : s.jobs[i]? = some job) {email fp : Str} {id : Int}
    (asked : asksCode cfg job.req = some (email, fp, id)) (answered : statusOf job = some 200) :
    ∃ own ∈ s.log, StoresFor i email fp id own := by
  obtain ⟨r, done, ok⟩ := answered_done answered
  have held := contract_of_job (program_stores cfg) rfl run job (List.mem_of_getElem? at_i)
  rw [done, meets_done] at held
  obtain ⟨n, member⟩ := held r rfl ok email fp id asked
  rw [past_of_job rfl rfl run at_i] at member
  obtain ⟨own, logged, mine, exchange⟩ := mem_own.mp member
  exact ⟨own, logged, mine, n, exchange⟩

/- A verification answered 200 has inserted a vote. -/
theorem verification_cast (run : Reaches (server cfg) allow seed.start s) {j : Nat}
    {job : Job Cmd Reply Call Answer} (at_j : s.jobs[j]? = some job) {ip userAgent : Str}
    {body : Except Str VerifyVoteRequest} (verifies : job.req = .verifyVote ip userAgent body)
    (answered : statusOf job = some 200) :
    ∃ b, ∃ insertion ∈ s.log, insertion.caller = j ∧ castBy insertion.exchange = some b := by
  obtain ⟨r, done, ok⟩ := answered_done answered
  have held := contract_of_job (program_casts cfg) rfl run job (List.mem_of_getElem? at_j)
  rw [done, meets_done, verifies] at held
  have cast : casts job.past ≠ [] := held.mpr (decide_eq_true ok)
  obtain ⟨b, member⟩ := List.exists_mem_of_ne_nil _ cast
  rw [past_of_job rfl rfl run at_j] at member
  obtain ⟨x, own_x, is_cast⟩ := List.mem_filterMap.mp member
  obtain ⟨insertion, logged, mine, same⟩ := mem_own.mp own_x
  rw [← same] at is_cast
  exact ⟨b, insertion, logged, mine, is_cast⟩

/- The record that a verification reads is the one of its client's request, unless another
   request came between. -/
theorem source_of_read (run : Reaches (server cfg) allow seed.start s) {i : Nat}
    {email fp fp' otp : Str} {id id' : Int} {late rest mid oldest : Log} {read store own : LogEntry}
    (split : s.log = late ++ read :: rest) (at_store : rest = mid ++ store :: oldest)
    (idle : ∀ ev ∈ mid, ¬ Wrote (otpKey email) ev)
    (stored : Stored cfg s store email otp fp' id') (earlier : own ∈ rest)
    (stores : StoresFor i email fp id own) {request : Job Cmd Reply Call Answer}
    (at_i : s.jobs[i]? = some request) (asked : asksCode cfg request.req = some (email, fp, id)) :
    (id' = id ∧ fp' = fp) ↔ ¬ Redirected cfg s i email fp id rest := by
  have performed := performed_of_run run own (by rw [split]; simp [earlier])
  constructor
  · -- The last store of the key is one event, so another one cannot be for another candidate.
    intro same redirected
    obtain ⟨mid', other, gap, own', oldest', otp', fp'', id'', at_other, -, other_stored, idle', -,
      different⟩ := redirected
    obtain ⟨job, at_job, job_asked⟩ := stored.asked
    obtain ⟨job', at_job', job_asked'⟩ := other_stored.asked
    rw [at_store] at at_other
    rcases split_cases at_other with ⟨-, is, -⟩ | ⟨more, within, -⟩ | ⟨more, within, -⟩
    · rw [← is, at_job, Option.some.injEq] at at_job'
      rw [← at_job', job_asked, Option.some.injEq, Prod.mk.injEq, Prod.mk.injEq] at job_asked'
      apply different
      rw [← job_asked'.2.1, ← job_asked'.2.2, same.1, same.2]
    · exact idle' store (by rw [within]; simp) stored.wrote
    · exact idle other (by rw [within]; simp) other_stored.wrote
  · intro not_redirected
    by_contra different
    obtain ⟨newer, older, at_own⟩ := List.append_of_mem earlier
    rw [at_store] at at_own
    rcases split_cases at_own with ⟨-, is, -⟩ | ⟨more, -, within⟩ | ⟨more, within, -⟩
    · obtain ⟨job, at_job, job_asked⟩ := stored.asked
      rw [is, stores.1, at_i, Option.some.injEq] at at_job
      rw [← at_job, asked, Option.some.injEq, Prod.mk.injEq, Prod.mk.injEq] at job_asked
      exact different ⟨job_asked.2.2.symm, job_asked.2.1.symm⟩
    · apply not_redirected
      rw [at_store, within]
      refine ⟨mid, store, more, own, older, otp, fp', id', rfl, stores, stored, idle, ?_, ?_⟩
      · intro of_i
        obtain ⟨job, at_job, job_asked⟩ := stored.asked
        rw [of_i, at_i, Option.some.injEq] at at_job
        rw [← at_job, asked, Option.some.injEq, Prod.mk.injEq, Prod.mk.injEq] at job_asked
        exact different ⟨job_asked.2.2.symm, job_asked.2.1.symm⟩
      · intro same
        exact different (Prod.mk.inj same)
    · exact idle own (by rw [within]; simp) (stores_wrote performed stores)

/- The vote is for the candidate and the device of the client's own request exactly when
   no other request for the email has redirected the record before the verification reads it. -/
theorem vote_bound_iff (run : Reaches (server cfg) allow seed.start s) {i j : Nat}
    {email fp : Str} {id : Int} (redeems : Redeems cfg s i j email fp id) :
    ∃ b late insertion between read rest,
      s.log = late ++ insertion :: (between ++ read :: rest) ∧ insertion.caller = j ∧
        insertion.exchange = ⟨insertOf b, .ok ()⟩ ∧ b.email = email ∧ read.caller = j ∧
          read.cmd = .redis (.get (otpKey email)) ∧
            ((b.candidateID = id ∧ b.fingerprint = fp) ↔
              ¬ Redirected cfg s i email fp id rest) := by
  obtain ⟨request, ip, body, at_i, -, asked, sent⟩ := redeems.asked
  obtain ⟨verification, ip', userAgent, body', otp, at_j, verifies, presented, voted⟩ :=
    redeems.presented
  obtain ⟨b, insertion, logged, of_j, cast⟩ := verification_cast run at_j verifies voted
  obtain ⟨own, own_logged, stores⟩ := request_stored run at_i asked sent
  have inserts : insertion.cmd = insertOf b := congrArg Exchange.cmd (castBy_some cast)
  obtain ⟨late, older, split⟩ := List.append_of_mem logged
  obtain ⟨otp', read, store, trail⟩ := insertion_has_trail run split inserts
  obtain ⟨late', between, mid, oldest, order, idle⟩ := trail.order
  obtain ⟨job, at_job, job_presented⟩ := trail.presented
  rw [of_j, at_j, Option.some.injEq] at at_job
  rw [← at_job, presented, Option.some.injEq, Presented.mk.injEq] at job_presented
  have same_email : b.email = email := job_presented.1.symm
  have read_j : read.caller = j := trail.same_call.trans of_j
  have at_read : s.log = (late' ++ insertion :: between) ++ read :: (mid ++ store :: oldest) := by
    rw [order]
    simp
  have stored := trail.stored
  have reads : read.cmd = .redis (.get (otpKey b.email)) := congrArg Exchange.cmd trail.reads
  rw [same_email] at stored idle reads
  have earlier := older_event redeems.later at_read read_j own_logged stores.1
  exact ⟨b, late', insertion, between, read, mid ++ store :: oldest, order, of_j, castBy_some cast,
    same_email, read_j, reads, source_of_read run at_read rfl idle stored earlier stores at_i asked⟩

end Runs

/-- Two clients ask for a code of one email, the second for another candidate on another
phone. The first client then presents the newer of the two codes in the mailbox. -/
def redirectedMoves : List Move :=
  .start (requestFrom "10.0.0.1" "a@gmail.com" "phone a" 1) :: runs 0 14 ++
    .start (requestFrom "10.0.0.2" "A@gmail.com" "phone b" 2) ::
      List.replicate 12 (.run 1 { draw := 1 }) ++
        .start (verifyFrom "10.0.0.1" "a@gmail.com" "100001") :: runs 2 9

def redirected : State := after (server devConfig) election twoCandidates.start redirectedMoves

theorem redirected_reached : Reaches (server devConfig) election twoCandidates.start redirected :=
  reaches_after (by decide +kernel)

theorem redirected_redeems :
    Redeems devConfig redirected 0 2 "a@gmail.com".toList "phone a".toList 1 where
  asked := by
    have summary : redirected.jobs[0]?.map (fun job => (job.req, statusOf job)) =
        some (requestFrom "10.0.0.1" "a@gmail.com" "phone a" 1, some 200) := by decide +kernel
    obtain ⟨job, at_0, same⟩ := Option.map_eq_some_iff.mp summary
    obtain ⟨sent, answered⟩ := Prod.mk.inj same
    exact ⟨job, _, _, at_0, sent, by rw [sent]; decide +kernel, answered⟩
  presented := by
    have summary : redirected.jobs[2]?.map (fun job => (job.req, statusOf job)) =
        some (verifyFrom "10.0.0.1" "a@gmail.com" "100001", some 200) := by decide +kernel
    obtain ⟨job, at_2, same⟩ := Option.map_eq_some_iff.mp summary
    obtain ⟨sent, answered⟩ := Prod.mk.inj same
    exact ⟨job, _, _, _, "100001".toList, at_2, sent, by rw [sent]; decide +kernel, answered⟩
  later := ⟨redirected.log.take 9, redirected.log.drop 9, (List.take_append_drop 9 _).symm,
    by decide +kernel, by decide +kernel⟩

theorem vote_bound_iff_redirected :
    ∃ b late insertion between read rest,
      redirected.log = late ++ insertion :: (between ++ read :: rest) ∧ insertion.caller = 2 ∧
        insertion.exchange = ⟨insertOf b, .ok ()⟩ ∧ b.email = "a@gmail.com".toList ∧
          read.caller = 2 ∧ read.cmd = .redis (.get (otpKey "a@gmail.com".toList)) ∧
            ((b.candidateID = 1 ∧ b.fingerprint = "phone a".toList) ↔
              ¬ Redirected devConfig redirected 0 "a@gmail.com".toList "phone a".toList 1 rest) :=
  vote_bound_iff redirected_reached redirected_redeems

/- The three calls are all there are, both codes went to the mailbox, and the vote of the
   first client names the candidate and the phone of the second. -/
theorem vote_redirected :
    ∃ s, Reaches (server devConfig) election twoCandidates.start s ∧
      Redeems devConfig s 0 2 "a@gmail.com".toList "phone a".toList 1 ∧
        s.jobs.map Job.req = [requestFrom "10.0.0.1" "a@gmail.com" "phone a" 1,
          requestFrom "10.0.0.2" "A@gmail.com" "phone b" 2,
          verifyFrom "10.0.0.1" "a@gmail.com" "100001"] ∧
        s.world.outbox.map Mail.recipient = ["a@gmail.com".toList, "a@gmail.com".toList] ∧
          (s.world.outbox.any fun mail => GoText.contains "100001".toList mail.body) = true ∧
            s.world.db.votes.map ballotOf =
              [⟨"a@gmail.com".toList, "phone b".toList, 2, "10.0.0.1".toList, []⟩] :=
  ⟨redirected, redirected_reached, redirected_redeems, by decide +kernel, by decide +kernel,
    by decide +kernel, by decide +kernel⟩

end CodeRedirection
