import VotingApp.EarlyAnswers

/-!
What the server has seen when it tells a voter that the vote is in, or that it was before. The
code says "already voted" for the email, for the device, and for any error of the INSERT whose
text looks like a duplicate.
-/
namespace Refusals
open GoText GoTime Tables EffectProgram CallPool VotingWorld
open OtpService VotingSettings VoteService CustomDomains Handlers VotingServer Footprints Frames
open EarlyAnswers

/-- A command of a code request that fails because of an earlier vote. None does. -/
def Denied : Exchange Cmd Reply → Prop
  | ⟨.sql (.countVotesByEmail _), .error e⟩ => e.is .alreadyVoted = true
  | ⟨.sql (.countVotesByFingerprint _), .error e⟩ => e.is .alreadyVoted = true
  | ⟨.sql (.countVotesByIP _), .error e⟩ => e.is .alreadyVoted = true
  | ⟨.sql (.candidateName _), .error e⟩ => e.is .alreadyVoted = true
  | ⟨.redis (.exists _), .error e⟩ => e.is .alreadyVoted = true
  | ⟨.redis (.set _ _ _), .error e⟩ => e.is .alreadyVoted = true
  | ⟨.randInt, .error e⟩ => e.is .alreadyVoted = true
  | ⟨.enqueue _ _ _, some e⟩ => e.is .alreadyVoted = true
  | _ => False

/-- The email or the device has been found to have voted. -/
def FoundVote (email : Str) (past : History) : Prop :=
  (∃ n : Int, 0 < n ∧ (⟨.sql (.countVotesByEmail email), .ok n⟩ : Exchange Cmd Reply) ∈ past) ∨
    (∃ (fp : Str) (n : Int), 0 < n ∧
      (⟨.sql (.countVotesByFingerprint fp), .ok n⟩ : Exchange Cmd Reply) ∈ past) ∨
      ∃ x ∈ past, Denied x

/-- The vote has gone in. -/
def Voted (email : Str) (past : History) : Prop := ∃ fp id ip userAgent,
  (⟨.sql (.insertVote email fp id ip userAgent), .ok ()⟩ : Exchange Cmd Reply) ∈ past

/-- The vote has not gone in, by an error that looks like a duplicate. -/
def Collided (email : Str) (past : History) : Prop := ∃ fp id ip userAgent err,
  (⟨.sql (.insertVote email fp id ip userAgent), .error err⟩ : Exchange Cmd Reply) ∈ past ∧
    isDuplicate err = true

/-- What every call has seen that answers so. -/
def Explained (cfg : Config) : Call → History → Answer → Prop
  | .requestOTP _ (.ok req), past, .http r =>
    r.status = 409 → FoundVote (normalizeEmail cfg req.email) past
  | .verifyVote _ _ (.ok req), past, .http r =>
    (r.status < 300 → Voted (normalizeEmail cfg req.email) past) ∧
      (r.status = 409 → Collided (normalizeEmail cfg req.email) past)
  | _, _, _ => True

section Contracts
variable {past : History}

theorem not_voted (text : String) : ¬ (newError text).is .alreadyVoted = true := by
  simp [newError, GoErr.is]

theorem isEmailBlocked_refuses (email : Str) :
    (isEmailBlocked email).Meets (fun _ _ => True) (fun now r => ∀ e, r = .error e →
      e.is .alreadyVoted = true → ∃ x ∈ now, Denied x) past := by
  apply meets_redis trivial
  intro found
  cases found with
  | error err =>
    intro e same voted
    cases same
    exact ⟨_, List.mem_cons_self, voted⟩
  | ok count =>
    intro e same
    cases same

theorem generateAndStore_refuses (email fp : Str) (id : Int) (name : Str) :
    (OtpService.generateAndStore email fp id name).Meets (fun _ _ => True)
      (fun now err => ∀ e, err = some e → e.is .alreadyVoted = true → ∃ x ∈ now, Denied x) past := by
  apply meets_issue trivial
  intro drawn
  cases drawn with
  | error err =>
    intro e same voted
    cases same
    exact ⟨_, List.mem_cons_self, voted⟩
  | ok n =>
    apply meets_bind (isEmailBlocked_refuses email)
    intro now found denied
    rcases found with err | _ | _
    · intro e same voted
      cases same
      exact denied err rfl voted
    · apply meets_redis trivial
      intro stored
      cases stored with
      | error err =>
        intro e same voted
        cases same
        exact ⟨_, List.mem_cons_self, voted⟩
      | ok _ =>
        apply meets_issue trivial
        intro sent
        cases sent with
        | none =>
          intro e nothing
          cases nothing
        | some err =>
          apply meets_redis trivial
          intro removed e same voted
          cases same
          exact ⟨_, List.mem_cons_of_mem _ List.mem_cons_self, voted⟩
    · intro e same voted
      cases same
      exact absurd voted (not_voted _)

theorem nameAndStore_refuses (email fp : Str) (id : Int) :
    (VoteService.nameAndStore email fp id).Meets (fun _ _ => True)
      (fun now err => ∀ e, err = some e → e.is .alreadyVoted = true → FoundVote email now) past := by
  apply meets_sql trivial
  intro named
  cases named with
  | error err =>
    intro e same voted
    cases same
    exact Or.inr (Or.inr ⟨_, List.mem_cons_self, voted⟩)
  | ok name =>
    apply meets_mono (generateAndStore_refuses email fp id name) fun _ _ allowed => allowed
    intro now err denied e same voted
    exact Or.inr (Or.inr (denied e same voted))

theorem prepareOTPRequest_refuses (email fp ip : Str) (id : Int) :
    (VoteService.prepareOTPRequest email fp ip id).Meets (fun _ _ => True)
      (fun now err => ∀ e, err = some e → e.is .alreadyVoted = true → FoundVote email now) past := by
  apply meets_sql trivial
  intro counted
  cases counted with
  | error err =>
    intro e same voted
    cases same
    exact Or.inr (Or.inr ⟨_, List.mem_cons_self, voted⟩)
  | ok byEmail =>
    dsimp only
    split
    · rename_i some_votes
      exact fun _ _ _ => Or.inl ⟨byEmail, some_votes, List.mem_cons_self⟩
    · apply meets_sql trivial
      intro counted
      cases counted with
      | error err =>
        intro e same voted
        cases same
        exact Or.inr (Or.inr ⟨_, List.mem_cons_self, voted⟩)
      | ok byFingerprint =>
        dsimp only
        split
        · rename_i some_votes
          exact fun _ _ _ => Or.inr (Or.inl ⟨fp, byFingerprint, some_votes, List.mem_cons_self⟩)
        · split
          · exact nameAndStore_refuses email fp id
          · apply meets_sql trivial
            intro counted
            cases counted with
            | error err =>
              intro e same voted
              cases same
              exact Or.inr (Or.inr ⟨_, List.mem_cons_self, voted⟩)
            | ok count =>
              dsimp only
              split
              · intro e same voted
                cases same
                cases voted
              · exact nameAndStore_refuses email fp id

/- A 409 to a code request is about the email or the device. -/
theorem answerPrepared_409 {err : Option GoErr} (conflict : (answerPrepared err).status = 409) :
    ∃ e, err = some e ∧ e.is .alreadyVoted = true := by
  cases err with
  | none => cases conflict
  | some e =>
    refine ⟨e, rfl, ?_⟩
    by_contra other
    rw [answerPrepared, if_neg other] at conflict
    split at conflict
    · cases conflict
    · split at conflict <;> cases conflict

theorem requestOTP_explained (cfg : Config) (ip : Str) (req : RequestOTPRequest) :
    (Handlers.requestOTP cfg ip (.ok req)).Meets (fun _ _ => True)
      (fun now r => r.status = 409 → FoundVote (normalizeEmail cfg req.email) now) past := by
  apply requestOTP_meets
  · exact fun past r early conflict => absurd conflict (early_other early (by decide))
  · intro req' bound now
    cases bindBody_ok bound
    apply meets_mono (prepareOTPRequest_refuses _ _ _ _) fun _ _ allowed => allowed
    intro now err refused conflict
    obtain ⟨e, same, voted⟩ := answerPrepared_409 conflict
    exact refused e same voted

theorem answerVerified_cases (err : Option GoErr) :
    ((answerVerified err).status < 300 → err = none) ∧
      ((answerVerified err).status = 409 → ∃ e, err = some e ∧ e.text = "already voted".toList) := by
  cases err with
  | none => exact ⟨fun _ => rfl, fun conflict => by cases conflict⟩
  | some e =>
    unfold answerVerified
    dsimp only
    split
    · rename_i voted
      exact ⟨fun fine => absurd fine (by decide), fun _ => ⟨e, rfl, voted⟩⟩
    · split
      · exact ⟨fun fine => absurd fine (by decide), fun conflict => by cases conflict⟩
      · split
        · exact ⟨fun fine => absurd fine (by decide), fun conflict => by cases conflict⟩
        · exact ⟨fun fine => absurd fine (by decide), fun conflict => by cases conflict⟩

theorem wrapped_text (text : String) (e : GoErr) (h : text.toList.head? ≠ some 'a')
    (some_text : text.toList ≠ []) : (wrapError text e).text ≠ "already voted".toList := by
  intro same
  have heads : ((wrapError text e).text).head? = some 'a' := by
    rw [same]
    rfl
  rw [wrapError, List.append_assoc, List.head?_append_of_ne_nil _ some_text] at heads
  exact h heads

theorem verifyAndVote_explained (email otp ip userAgent : Str) :
    (VoteService.verifyAndVote email otp ip userAgent).Meets (fun _ _ => True) (fun now err =>
      (err = none → Voted email now) ∧
        ∀ e, err = some e → e.text = "already voted".toList → Collided email now) past := by
  have free : ∀ (past : History) (c : Cmd), (fun _ _ => True) past c := fun _ _ => trivial
  apply meets_bind (meets_trivial free _)
  intro now found _
  cases found with
  | error err =>
    constructor
    · intro nothing
      cases nothing
    · intro e same voted
      cases same
      exact absurd voted (wrapped_text _ _ (by decide) (by decide))
  | ok found =>
    apply meets_sql trivial
    intro inserted
    cases inserted with
    | error err =>
      dsimp only
      split
      · rename_i duplicate
        constructor
        · intro nothing
          cases nothing
        · intro e same voted
          exact ⟨found.1, found.2, ip, userAgent, err, List.mem_cons_self, duplicate⟩
      · constructor
        · intro nothing
          cases nothing
        · intro e same voted
          cases same
          exact absurd voted (wrapped_text _ _ (by decide) (by decide))
    | ok done =>
      have in_it : Voted email (⟨.sql (.insertVote email found.1 found.2 ip userAgent), .ok done⟩ :: now) :=
        ⟨found.1, found.2, ip, userAgent, List.mem_cons_self⟩
      apply meets_bind (meets_of_issues broadcastPayload_issues fun _ _ _ _ => trivial)
      rintro now' _ ⟨added, rfl, -⟩
      constructor
      · obtain ⟨fp, id, ip, userAgent, member⟩ := in_it
        exact fun _ => ⟨fp, id, ip, userAgent, List.mem_append_right _ member⟩
      · intro e same
        cases same

theorem verifyVote_explained (cfg : Config) (ip userAgent : Str) (req : VerifyVoteRequest) :
    (Handlers.verifyVote cfg ip userAgent (.ok req)).Meets (fun _ _ => True) (fun now r =>
      (r.status < 300 → Voted (normalizeEmail cfg req.email) now) ∧
        (r.status = 409 → Collided (normalizeEmail cfg req.email) now)) past := by
  apply verifyVote_meets
  · intro past r early
    constructor
    · intro fine
      have inside : r.status ∈ [400, 403, 429, 500] := early
      simp only [List.mem_cons, List.not_mem_nil, or_false] at inside
      omega
    · exact fun conflict => absurd conflict (early_other early (by decide))
  · intro req' bound now
    cases bindBody_ok bound
    apply meets_mono (verifyAndVote_explained _ _ _ _) fun _ _ allowed => allowed
    intro now err explained
    constructor
    · exact fun fine => explained.1 ((answerVerified_cases err).1 fine)
    · intro conflict
      obtain ⟨e, same, voted⟩ := (answerVerified_cases err).2 conflict
      exact explained.2 e same voted

end Contracts

theorem program_explained (cfg : Config) (req : Call) :
    (program cfg req).Meets (fun _ _ => True) (fun now a => Explained cfg req now a) [] := by
  have free : ∀ (past : History) (c : Cmd), (fun _ _ => True) past c := fun _ _ => trivial
  cases req with
  | requestOTP ip body =>
    cases body with
    | error text =>
      exact meets_mono (meets_trivial free _) (fun _ _ allowed => allowed) fun _ _ _ => trivial
    | ok req =>
      apply meets_bind (requestOTP_explained cfg ip req)
      exact fun now r refused => refused
  | verifyVote ip userAgent body =>
    cases body with
    | error text =>
      exact meets_mono (meets_trivial free _) (fun _ _ allowed => allowed) fun _ _ _ => trivial
    | ok req =>
      apply meets_bind (verifyVote_explained cfg ip userAgent req)
      exact fun now r explained => explained
  | _ => exact meets_mono (meets_trivial free _) (fun _ _ allowed => allowed) fun _ _ _ => trivial

/- An error is that of the command, or a fault, which says no more than its text. -/
theorem faulty_error {α σ : Type} {o : Oracle} {before : σ} {ran : Except GoErr α × σ} {e : GoErr}
    (failed : (faulty o before ran).1 = .error e) :
    (∃ f, o.fault = some f ∧ e = ⟨f.text, []⟩) ∨ o.fault = none ∧ ran.1 = .error e := by
  unfold faulty at failed
  split at failed
  · rename_i none_there
    exact Or.inr ⟨none_there, failed⟩
  · rename_i f there
    cases failed
    exact Or.inl ⟨f, there, rfl⟩

theorem fault_silent {f : Fault} (denied : (GoErr.is ⟨f.text, []⟩ .alreadyVoted) = true) : False := by
  simp [GoErr.is] at denied

theorem sql_not_denied {w w' : World} {o : Oracle} {c : SqlCmd} {e : GoErr}
    (performed : w.perform o (.sql c) = some (.error e, w'))
    (fine : ∀ e, (c.run w.db w.clock).1 = .error e → ¬ e.is .alreadyVoted = true) :
    ¬ e.is .alreadyVoted = true := by
  intro denied
  rcases faulty_error (perform_sql performed).1.symm with ⟨f, -, rfl⟩ | ⟨-, ran⟩
  · exact fault_silent denied
  · exact fine e ran denied

theorem redis_not_denied {w w' : World} {o : Oracle} {c : RedisCmd} {e : GoErr}
    (performed : w.perform o (.redis c) = some (.error e, w'))
    (fine : ∀ e, (c.run w.redis w.clock).1 ≠ .error e) : ¬ e.is .alreadyVoted = true := by
  intro denied
  rcases faulty_error (perform_redis performed).1.symm with ⟨f, -, rfl⟩ | ⟨-, ran⟩
  · exact fault_silent denied
  · exact fine e ran

theorem nameless {db : Db} {id : Int} {e : GoErr} (ran : db.candidateName id = .error e) :
    ¬ e.is .alreadyVoted = true := by
  unfold Db.candidateName at ran
  split at ran
  · cases ran
  · cases ran
    decide

theorem performed_not_denied {ev : LogEntry} (performed : Performed ev) : ¬ Denied ev.exchange := by
  obtain ⟨caller, o, cmd, reply, before, after⟩ := ev
  intro denied
  unfold Denied Event.exchange at denied
  split at denied
  · rename_i same
    cases same
    exact sql_not_denied performed (fun _ ran => by cases ran) denied
  · rename_i same
    cases same
    exact sql_not_denied performed (fun _ ran => by cases ran) denied
  · rename_i same
    cases same
    exact sql_not_denied performed (fun _ ran => by cases ran) denied
  · rename_i same
    cases same
    exact sql_not_denied performed (fun _ ran => nameless ran) denied
  · rename_i same
    cases same
    exact redis_not_denied performed (fun _ ran => by cases ran) denied
  · rename_i same
    cases same
    exact redis_not_denied performed (fun _ ran => by cases ran) denied
  · rename_i e same
    cases same
    simp only [Performed, World.perform, Option.some.injEq, Prod.mk.injEq] at performed
    rcases faulty_error performed.1 with ⟨f, -, rfl⟩ | ⟨-, ran⟩
    · exact fault_silent denied
    · cases ran
  · rename_i e same
    cases same
    simp only [Performed, World.perform] at performed
    split at performed
    · cases performed
    · simp only [Option.some.injEq, Prod.mk.injEq] at performed
      rw [← performed.1] at denied
      exact fault_silent denied
  · exact denied

/-- At this step the votes table says nothing of the email but a vote for the candidate, the device
has not voted, and the vote that goes in is for the candidate. -/
def Consistent (c : Int) (ev : LogEntry) : Prop :=
  match ev.cmd with
  | .sql (.countVotesByEmail email) =>
    ∀ v ∈ ev.before.db.votes, v.voterEmail = email → v.candidateId = c
  | .sql (.countVotesByFingerprint fp) => ∀ v ∈ ev.before.db.votes, v.voterFingerprint ≠ fp
  | .sql (.insertVote email fp id _ _) =>
    (∀ v ∈ ev.before.db.votes, v.voterEmail = email → v.candidateId = c) ∧
      ((∃ v ∈ ev.before.db.votes, v.voterEmail = email) ∨
        id = c ∧ ∀ v ∈ ev.before.db.votes, v.voterFingerprint ≠ fp) ∧
        ∀ f ∈ ev.oracle.fault, isDuplicate ⟨f.text, []⟩ = false
  | _ => True

instance (c : Int) (ev : LogEntry) : Decidable (Consistent c ev) := by
  unfold Consistent
  split <;> infer_instance

/-- A vote of the email for the candidate. -/
def HasVote (db : Db) (email : Str) (c : Int) : Prop :=
  ∃ v ∈ db.votes, v.voterEmail = email ∧ v.candidateId = c

theorem counted_some {votes : List Vote} {p : Vote → Bool} {n : Int}
    (counted : ((votes.countP p : Nat) : Int) = n) (some_votes : 0 < n) : ∃ v ∈ votes, p v = true :=
  List.countP_pos_iff.mp (by omega)

/- Only the two unique keys make an INSERT fail with a text that looks like a duplicate. -/
theorem duplicate_votes {db : Db} {now : Nat} {email fp ip userAgent : Str} {id : Int} {err : GoErr}
    (refused : (db.insertVote now email fp id ip userAgent).1 = .error err)
    (duplicate : isDuplicate err = true) :
    (∃ v ∈ db.votes, v.voterEmail = email) ∨ ∃ v ∈ db.votes, v.voterFingerprint = fp := by
  have plain : isDuplicate (dataTooLong "voter_email") = false ∧
      isDuplicate (dataTooLong "voter_fingerprint") = false ∧
        isDuplicate (dataTooLong "voter_ip") = false ∧
          isDuplicate (dataTooLong "voter_user_agent") = false ∧ isDuplicate noReferencedRow = false := by
    decide +kernel
  obtain ⟨email_fits, fp_fits, ip_fits, agent_fits, referenced⟩ := plain
  unfold Db.insertVote at refused
  split at refused
  · cases refused
    rw [email_fits] at duplicate
    cases duplicate
  · split at refused
    · cases refused
      rw [fp_fits] at duplicate
      cases duplicate
    · split at refused
      · cases refused
        rw [ip_fits] at duplicate
        cases duplicate
      · split at refused
        · cases refused
          rw [agent_fits] at duplicate
          cases duplicate
        · split at refused
          · rename_i by_email
            left
            simpa using by_email
          · split at refused
            · rename_i by_fingerprint
              right
              simpa using by_fingerprint
            · split at refused
              · cases refused
              · cases refused
                rw [referenced] at duplicate
                cases duplicate

section Steps
variable {ev : LogEntry} {email : Str} {c : Int}

/- A request that is refused has found the vote of the email. -/
theorem found_vote (performed : Performed ev) (consistent : Consistent c ev)
    (found : (∃ n : Int, 0 < n ∧ ev.exchange = ⟨.sql (.countVotesByEmail email), .ok n⟩) ∨
      ∃ (fp : Str) (n : Int), 0 < n ∧ ev.exchange = ⟨.sql (.countVotesByFingerprint fp), .ok n⟩) :
    HasVote ev.after.db email c := by
  rcases found with ⟨n, some_votes, exchange⟩ | ⟨fp, n, some_votes, exchange⟩
  · obtain ⟨answer, after⟩ := answered_sql performed exchange
    have cmd : ev.cmd = .sql (.countVotesByEmail email) := congrArg Exchange.cmd exchange
    rw [Consistent, cmd] at consistent
    have counted : ((ev.before.db.votes.countP fun v => v.voterEmail = email : Nat) : Int) = n := by
      simpa [SqlCmd.run, Db.countVotes] using answer
    obtain ⟨v, member, same⟩ := counted_some counted some_votes
    rw [decide_eq_true_eq] at same
    rw [after]
    exact ⟨v, member, same, consistent v member same⟩
  · obtain ⟨answer, -⟩ := answered_sql performed exchange
    have cmd : ev.cmd = .sql (.countVotesByFingerprint fp) := congrArg Exchange.cmd exchange
    rw [Consistent, cmd] at consistent
    have counted : ((ev.before.db.votes.countP fun v => v.voterFingerprint = fp : Nat) : Int) = n := by
      simpa [SqlCmd.run, Db.countVotes] using answer
    obtain ⟨v, member, same⟩ := counted_some counted some_votes
    rw [decide_eq_true_eq] at same
    exact absurd same (consistent v member)

theorem voted_vote {fp ip userAgent : Str} {id : Int} (performed : Performed ev)
    (consistent : Consistent c ev)
    (exchange : ev.exchange = ⟨.sql (.insertVote email fp id ip userAgent), .ok ()⟩) :
    HasVote ev.after.db email c := by
  obtain ⟨answer, after⟩ := answered_sql performed exchange
  have cmd : ev.cmd = .sql (.insertVote email fp id ip userAgent) := congrArg Exchange.cmd exchange
  rw [Consistent, cmd] at consistent
  obtain ⟨-, there_or_new, -⟩ := consistent
  rcases insertVote_cases ev.before.db ev.before.clock email fp id ip userAgent with
    ⟨err, refused⟩ | ⟨fresh, -, -, inserted⟩
  · rw [SqlCmd.run, refused] at answer
    cases answer
  · rw [after, SqlCmd.run, inserted]
    rcases there_or_new with ⟨v, member, same⟩ | ⟨rfl, -⟩
    · exact absurd same (fresh v member)
    · exact ⟨_, List.mem_append_right _ (List.mem_singleton_self _), rfl, rfl⟩

theorem collided_vote {fp ip userAgent : Str} {id : Int} {err : GoErr} (performed : Performed ev)
    (consistent : Consistent c ev) (duplicate : isDuplicate err = true)
    (exchange : ev.exchange = ⟨.sql (.insertVote email fp id ip userAgent), .error err⟩) :
    HasVote ev.after.db email c := by
  obtain ⟨answer, after⟩ := exchange_sql performed exchange
  have cmd : ev.cmd = .sql (.insertVote email fp id ip userAgent) := congrArg Exchange.cmd exchange
  rw [Consistent, cmd] at consistent
  obtain ⟨of_email, there_or_new, clear⟩ := consistent
  rcases faulty_error answer.symm with ⟨f, fault, rfl⟩ | ⟨no_fault, refused⟩
  · rw [clear f fault] at duplicate
    cases duplicate
  · have there : ∃ v ∈ ev.before.db.votes, v.voterEmail = email := by
      rcases duplicate_votes refused duplicate with by_email | ⟨v, member, same⟩
      · exact by_email
      · rcases there_or_new with by_email | ⟨-, fresh⟩
        · exact by_email
        · exact absurd same (fresh v member)
    obtain ⟨v, member, same⟩ := there
    have unchanged : (SqlCmd.run ev.before.db ev.before.clock
        (.insertVote email fp id ip userAgent)).2 = ev.before.db := by
      rcases insertVote_cases ev.before.db ev.before.clock email fp id ip userAgent with
        ⟨err', refused'⟩ | ⟨fresh, -⟩
      · rw [SqlCmd.run, refused']
      · exact absurd same (fresh v member)
    rw [after, faulty_ok no_fault, unchanged]
    exact ⟨v, member, same, of_email v member same⟩

end Steps
end Refusals
