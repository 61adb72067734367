import VotingApp.Frames
import VotingApp.RedisKeys

/-!
The life of a stored code: what a record decodes to, who can store one, and that
every record that is read was stored by the last write to its key.
-/
namespace OtpRecords
open GoText GoTime Tables EffectProgram CallPool PoolHistory ExpiringStore VotingWorld
open OtpService VotingSettings VoteService CustomDomains Handlers VotingServer Footprints Frames RedisKeys

theorem otpTTL_pos : 0 < otpTTL := by decide

theorem colon_not_in_code (n : Nat) : ':' ∉ otpCode n := by
  unfold otpCode sprintf06d
  intro member
  rcases List.mem_append.mp member with zeros | digits
  · exact absurd (List.eq_of_mem_replicate zeros) (by decide)
  · exact colon_not_digit digits

/- A record decodes to what was encoded, as long as the candidate id is an int. -/
theorem decodeRecord_clean {otp : Str} (clean : ':' ∉ otp) (id : Int) (fp : Str) :
    decodeRecord (otpRecord otp id fp) =
      if inInt64 id then .record otp id fp else .badCandidate otp := by
  have parts : splitN ':' 3 (otpRecord otp id fp) = [otp, itoa id, fp] := by
    simp [otpRecord, splitN, cut_append clean, cut_append (colon_not_in_itoa id)]
  simp only [decodeRecord, parts, scanInt_itoa]
  by_cases fits : inInt64 id = true
  · rw [if_pos fits, if_pos fits]
  · rw [if_neg fits, if_neg fits]

theorem decodeRecord_otpRecord (n : Nat) (id : Int) (fp : Str) :
    decodeRecord (otpRecord (otpCode n) id fp) =
      if inInt64 id then .record (otpCode n) id fp else .badCandidate (otpCode n) :=
  decodeRecord_clean (colon_not_in_code n) id fp

/- A write that took effect, whatever its answer. -/
def Wrote (k : Str) (ev : LogEntry) : Prop := WritesKey k ev.cmd ∧ TookEffect ev

theorem key_kept {ev : LogEntry} {k : Str} (performed : Performed ev) (idle : ¬ Wrote k ev) :
    ev.after.redis k = ev.before.redis k := by
  by_cases writes : WritesKey k ev.cmd
  · have lost : ¬ TookEffect ev := fun took => idle ⟨writes, took⟩
    rcases (perform_scope performed).2.1 with ⟨rc, cmd⟩ | same
    · obtain ⟨r, exchange⟩ := exchange_of_cmd cmd
      obtain ⟨-, after⟩ := exchange_redis performed exchange
      rw [after]
      simp only [faulty_lost lost]
    · rw [same]
  · exact key_frame writes performed

/- A record is stored by a call that asked for it and found no block, and a vote is
   inserted by a call that has just read and removed the record of its code. -/
def RecordRule (cfg : Config) (req : Call) (past : History) : Cmd → Prop
  | .redis (.set key value ttl) => ∀ e, key = otpKey e → ∃ n fp id rest,
      asksCode cfg req = some (e, fp, id) ∧ value = otpRecord (otpCode n) id fp ∧ ttl = otpTTL ∧
        past = ⟨.redis (.exists (otpBlockedKey e)), .ok 0⟩ :: ⟨.randInt, .ok n⟩ :: rest
  | .redis (.incr key) => ∀ e, key ≠ otpKey e
  | .redis (.expire key _) => ∀ e, key ≠ otpKey e
  | .redis (.sadd key _) => ∀ e, key ≠ otpKey e
  | .redis (.srem key _) => ∀ e, key ≠ otpKey e
  | .sql (.insertVote e fp id ip userAgent) => ∃ otp stored r rest,
      presents cfg req = some ⟨e, otp, ip, userAgent⟩ ∧ decodeRecord stored = .record otp id fp ∧
        past = ⟨.redis (.del [otpKey e, otpAttemptsKey e]), r⟩ ::
          ⟨.redis (.get (otpKey e)), .ok stored⟩ ::
            ⟨.redis (.exists (otpBlockedKey e)), .ok 0⟩ :: rest
  | _ => True

theorem isEmailBlocked_meets {pre : History → Cmd → Prop} {past : History} {email : Str}
    (ok : pre past (.redis (.exists (otpBlockedKey email)))) :
    (isEmailBlocked email).Meets pre (fun now blocked => ∃ r,
      now = ⟨.redis (.exists (otpBlockedKey email)), r⟩ :: past ∧
        (blocked = .ok false → r = .ok 0)) past := by
  refine meets_redis ok fun r => ?_
  cases r with
  | error err => exact ⟨.error err, rfl, fun h => nomatch h⟩
  | ok count =>
    refine ⟨.ok count, rfl, fun free => ?_⟩
    have zero : count = 0 := by simpa using free
    rw [zero]

section Rule
variable {cfg : Config} {req : Call}

theorem record_neutral {c : Cmd} (other : ∀ past, RecordRule cfg req past c) :
    Neutral (RecordRule cfg req) (fun _ => True) c :=
  fun past _ => ⟨other past, fun _ => trivial⟩

theorem generate_records {email fp : Str} {id : Int}
    (asked : asksCode cfg req = some (email, fp, id)) (name : Str) :
    (OtpService.generateAndStore email fp id name).Keeps (RecordRule cfg req) (fun _ => True) := by
  intro past _
  refine meets_issue trivial fun r => ?_
  cases r with
  | error err => trivial
  | ok n =>
    refine meets_bind (isEmailBlocked_meets trivial) fun now blocked checked => ?_
    obtain ⟨r, history, clear⟩ := checked
    rcases blocked with err | blocked
    · trivial
    · cases blocked with
      | true => trivial
      | false =>
        refine meets_redis (fun e same => ?_) fun r => ?_
        · rw [(otpKey_eq _).1] at same
          subst e
          exact ⟨n, fp, id, past, asked, rfl, rfl, by rw [history, clear rfl]⟩
        · cases r with
          | error err => trivial
          | ok _ =>
            refine meets_issue trivial fun r => ?_
            cases r with
            | none => trivial
            | some err => exact meets_redis trivial fun _ => trivial

theorem verifyCmd_neutral {email : Str} : ∀ c, VerifyCmd email c →
    Neutral (RecordRule cfg req) (fun _ => True) c := by
  intro c sent
  refine record_neutral fun past => ?_
  cases sent with
  | block => exact fun e same => by simp at same
  | count => exact fun e same => by simp at same
  | expire => exact fun e same => by simp at same
  | _ => trivial

theorem broadcast_neutral : ∀ c, BroadcastCmd c →
    Neutral (RecordRule cfg req) (fun _ => True) c := by
  intro c sent
  refine record_neutral fun past => ?_
  cases sent with
  | set raw => exact fun e same => by simp at same
  | _ => trivial

theorem domain_neutral : ∀ c, DomainCmd c → Neutral (RecordRule cfg req) (fun _ => True) c := by
  intro c sent
  refine record_neutral fun past => ?_
  cases sent with
  | add domains => exact fun e same => by simp at same
  | remove domain => exact fun e same => by simp at same
  | mark => exact fun e same => by simp at same
  | _ => trivial

/- What a successful Verify leaves in the history of its call. -/
def Redeemed (email otp fp : Str) (id : Int) (past : History) : Prop :=
  ∃ stored r rest, decodeRecord stored = .record otp id fp ∧
    past = ⟨.redis (.del [otpKey email, otpAttemptsKey email]), r⟩ ::
      ⟨.redis (.get (otpKey email)), .ok stored⟩ ::
        ⟨.redis (.exists (otpBlockedKey email)), .ok 0⟩ :: rest

theorem recordFailure_meets {pre : History → Cmd → Prop} {past : History} {email : Str}
    (free : ∀ now c, VerifyCmd email c → pre now c) :
    (recordFailure email).Meets pre (fun _ _ => True) past :=
  meets_mono (meets_of_issues (recordFailure_issues email) fun now c _ sent => free now c sent)
    (fun _ _ h => h) fun _ _ _ => trivial

/- Only the branch that removes the record succeeds. -/
theorem verify_redeems {pre : History → Cmd → Prop} {past : History} {email otp : Str}
    (free : ∀ now c, VerifyCmd email c → pre now c) :
    (OtpService.verify email otp).Meets pre
      (fun now found => ∀ fp id, found = .ok (fp, id) → Redeemed email otp fp id now) past := by
  have reject : ∀ now, (rejectGuess email).Meets pre
      (fun now found => ∀ fp id, found = .ok (fp, id) → Redeemed email otp fp id now) now := by
    intro now
    refine meets_bind (recordFailure_meets free) fun now r _ => ?_
    cases r <;> exact fun fp id h => nomatch h
  refine meets_bind (isEmailBlocked_meets (free _ _ .blocked)) fun now blocked checked => ?_
  obtain ⟨r, history, clear⟩ := checked
  rcases blocked with err | blocked
  · exact fun fp id h => nomatch h
  · cases blocked with
    | true => exact fun fp id h => nomatch h
    | false =>
      rw [history, clear rfl]
      refine meets_redis (free _ _ .read) fun r => ?_
      cases r with
      | error err =>
        dsimp only
        split <;> exact fun fp id h => nomatch h
      | ok stored =>
        dsimp only
        split
        · refine meets_bind (recordFailure_meets free) fun now r _ => ?_
          exact fun fp id h => nomatch h
        · split
          · exact reject _
          · refine meets_bind (recordFailure_meets free) fun now r _ => ?_
            exact fun fp id h => nomatch h
        · rename_i storedOTP candidateID fingerprint decoded
          split
          · exact reject _
          · rename_i same_code
            have code : storedOTP = otp := not_not.mp same_code
            refine meets_redis (free _ _ .clear) fun r fp id found => ?_
            cases found
            exact ⟨stored, r, past, by rw [decoded, code], rfl⟩

theorem vote_records {email otp ip userAgent : Str}
    (presented : presents cfg req = some ⟨email, otp, ip, userAgent⟩) :
    (VoteService.verifyAndVote email otp ip userAgent).Keeps (RecordRule cfg req)
      (fun _ => True) := by
  intro past _
  refine meets_bind (verify_redeems fun now c sent => (verifyCmd_neutral c sent now trivial).1)
    fun now found redeemed => ?_
  rcases found with err | ⟨fp, id⟩
  · trivial
  · obtain ⟨stored, r, rest, decoded, history⟩ := redeemed fp id rfl
    refine meets_sql ⟨otp, stored, r, rest, presented, decoded, history⟩ fun r => ?_
    cases r with
    | error err =>
      dsimp only
      split <;> trivial
    | ok _ =>
      exact keeps_bind (keeps_of_issues broadcastPayload_issues broadcast_neutral)
        (fun _ => keeps_done _) _ trivial

theorem record_respected (cfg : Config) (req : Call) :
    Respected cfg req (RecordRule cfg req) (fun _ => True) where
  plain c sent := by
    refine record_neutral fun past => ?_
    cases sent with
    | rate ip => exact fun e same => by simp at same
    | rateWindow ip => exact fun e same => by simp at same
    | _ => trivial
  status := keeps_of_issues getStatus_issues fun c sent =>
    broadcast_neutral c (payload_broadcast c (status_payload c sent))
  broadcast := keeps_of_issues broadcastPayload_issues broadcast_neutral
  update isOpen endsAt := keeps_of_issues (updateSettings_issues isOpen endsAt) fun c sent => by
    refine record_neutral fun past => ?_
    cases sent with
    | set raw => exact fun e same => by simp at same
    | _ => trivial
  mode value := keeps_of_issues (updateCustomDomainsOnly_issues value) fun c sent => by
    refine record_neutral fun past => ?_
    cases sent with
    | set raw => exact fun e same => by simp at same
    | _ => trivial
  generate email fp id name asked := generate_records asked name
  verify email otp _ := keeps_of_issues (verify_issues email otp) verifyCmd_neutral
  vote email otp ip userAgent presented := vote_records presented
  deleteCandidate _ n _ _ := keeps_of_issues (deleteCandidate_issues n) fun c sent => by
    cases sent <;> exact record_neutral fun _ => trivial
  insertDomain domain := keeps_of_issues (insert_issues domain) domain_neutral
  deleteDomain id := keeps_of_issues (delete_issues id) domain_neutral
  warmCache := keeps_of_issues warmCache_issues domain_neutral

end Rule

/-- One call asked for a code and stored its record under the key of the email. -/
structure Stored (cfg : Config) (s : State) (ev : LogEntry) (email otp fp : Str) (id : Int) : Prop where
  wrote : Wrote (otpKey email) ev
  record : ev.cmd = .redis (.set (otpKey email) (otpRecord otp id fp) otpTTL)
  asked : ∃ job, s.jobs[ev.caller]? = some job ∧ asksCode cfg job.req = some (email, fp, id)
  drawn : ∃ n, otp = otpCode n ∧ ⟨.randInt, .ok n⟩ ∈ own ev.caller s.log

section Runs
variable {cfg : Config} {allow : State → Move → Bool} {seed : Seed} {s : State}

theorem rule_of_run (run : Reaches (server cfg) allow seed.start s) {late older : Log}
    {ev : LogEntry} (split : s.log = late ++ ev :: older) :
    ∃ job, s.jobs[ev.caller]? = some job ∧ RecordRule cfg job.req (own ev.caller older) ev.cmd :=
  contract_of_logged (fun req => program_keeps (record_respected cfg req) [] trivial) rfl rfl run split

/- What no event in between has written is as the older one left it. -/
theorem key_unwritten (run : Reaches (server cfg) allow seed.start s) {late mid older : Log}
    {ev e : LogEntry} (split : s.log = late ++ ev :: (mid ++ e :: older)) {k : Str}
    (idle : ∀ x ∈ mid, ¬ Wrote k x) :
    ev.before.redis k = e.after.redis k ∧ e.after.clock ≤ ev.before.clock := by
  obtain ⟨t, t', reached, log, world, later, log', world'⟩ := interval rfl run split
  have same := frame_since (fun w => w.redis k)
    (fun w env w' moved => by rw [(env_scope moved).2.1]) later log' fun x member =>
      key_kept (performed_of_run run x (by rw [split]; simp [member])) (idle x member)
  have ticking := clock_since later
  rw [world, world'] at same ticking
  exact ⟨same, ticking⟩

/- What a write leaves under an OTP key: nothing, or the record it stores. -/
theorem otp_write (run : Reaches (server cfg) allow seed.start s) {late older : Log}
    {ev : LogEntry} (split : s.log = late ++ ev :: older) {email : Str}
    (wrote : Wrote (otpKey email) ev) :
    ev.after.redis (otpKey email) = none ∨ ∃ otp fp id, Stored cfg s ev email otp fp id ∧
      ev.after.redis (otpKey email) =
        some ⟨.text (otpRecord otp id fp), some (ev.before.clock + otpTTL)⟩ := by
  obtain ⟨job, at_i, rule⟩ := rule_of_run run split
  have performed := performed_of_run run ev (by rw [split]; simp)
  obtain ⟨writes, took⟩ := wrote
  cases cmd : ev.cmd with
  | redis c =>
    rw [cmd] at rule writes
    obtain ⟨r, exchange⟩ := exchange_of_cmd cmd
    obtain ⟨-, after⟩ := exchange_redis performed exchange
    have run_after : ev.after.redis = (c.run ev.before.redis ev.before.clock).2 := by
      rw [after]
      exact faulty_took took _ _
    cases c with
    | set key value ttl =>
      have same : otpKey email = key := by simpa [WritesKey, writtenKeys] using writes
      obtain ⟨n, fp, id, rest, asked, rfl, rfl, history⟩ := rule email same.symm
      subst key
      refine Or.inr ⟨otpCode n, fp, id, ⟨⟨by rw [cmd]; exact writes, took⟩, cmd,
        ⟨job, at_i, asked⟩, ⟨n, rfl, ?_⟩⟩, ?_⟩
      · have older_own : ⟨.randInt, .ok n⟩ ∈ own ev.caller older := by rw [history]; simp
        obtain ⟨e, member, mine, is⟩ := mem_own.mp older_own
        exact mem_own.mpr ⟨e, by rw [split]; simp [member], mine, is⟩
      · rw [run_after]
        dsimp only [RedisCmd.run]
        rw [set_self, deadlineAfter_pos otpTTL_pos]
    | del keys =>
      left
      rw [run_after]
      exact del_self _ writes
    | incr key =>
      have same : otpKey email = key := by simpa [WritesKey, writtenKeys] using writes
      exact absurd same.symm (rule email)
    | expire key ttl =>
      have same : otpKey email = key := by simpa [WritesKey, writtenKeys] using writes
      exact absurd same.symm (rule email)
    | sadd key members =>
      have same : otpKey email = key := by simpa [WritesKey, writtenKeys] using writes
      exact absurd same.symm (rule email)
    | srem key member =>
      have same : otpKey email = key := by simpa [WritesKey, writtenKeys] using writes
      exact absurd same.symm (rule email)
    | _ => simp [WritesKey, writtenKeys] at writes
  | _ =>
    rw [cmd] at writes
    exact absurd writes id

/- A record that is read was stored by the last write to its key, less than otpTTL ago. -/
theorem read_was_stored (run : Reaches (server cfg) allow seed.start s) {late older : Log}
    {read : LogEntry} (split : s.log = late ++ read :: older) {email stored : Str}
    (exchange : read.exchange = ⟨.redis (.get (otpKey email)), .ok stored⟩) :
    ∃ mid store oldest otp fp id, older = mid ++ store :: oldest ∧
      Stored cfg s store email otp fp id ∧ (∀ ev ∈ mid, ¬ Wrote (otpKey email) ev) ∧
        stored = otpRecord otp id fp ∧ read.before.clock < store.before.clock + otpTTL := by
  obtain ⟨reading⟩ := moment_of_logged rfl run split
  obtain ⟨answer, -⟩ := answered_redis reading.performed exchange
  have logged : ∀ ev ∈ reading.pre.log, Performed ev := performed_of_run reading.reached
  rcases last_change (fun w => w.redis (otpKey email)) (Wrote (otpKey email))
    (fun w e w' moved => by rw [(env_scope moved).2.1]) rfl reading.reached
    (fun ev member idle => key_kept (logged ev member) idle) with
    ⟨-, same⟩ | ⟨mid, store, oldest, at_store, wrote, idle, same⟩
  · rw [reading.pre_world] at same
    have missing : read.before.redis (otpKey email) = none := same
    rw [RedisCmd.run, get_absent itoa missing] at answer
    cases answer
  · rw [reading.pre_world] at same
    rw [reading.pre_log] at at_store
    have at_log : s.log = (late ++ read :: mid) ++ store :: oldest := by rw [split, at_store]; simp
    rcases otp_write run at_log wrote with gone | ⟨otp, fp, id, is_stored, left⟩
    · have missing : read.before.redis (otpKey email) = none := same.trans gone
      rw [RedisCmd.run, get_absent itoa missing] at answer
      cases answer
    · have found := get_text itoa (same.trans left) read.before.clock
      rw [RedisCmd.run, found] at answer
      split at answer
      · rename_i alive
        cases answer
        exact ⟨mid, store, oldest, otp, fp, id, at_store, is_stored, idle, rfl, alive⟩
      · cases answer

end Runs
end OtpRecords
