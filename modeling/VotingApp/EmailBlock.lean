import VotingApp.Counters
import VotingApp.Provenance
import VotingApp.SettingsCache

/-!
The block after too many wrong guesses. Verify and GenerateAndStore look for the block
once, at their start, and Verify counts a wrong guess in a command of its own after it
has compared; other calls can come between.
-/
namespace EmailBlock
open GoText GoTime Tables EffectProgram CallPool PoolHistory ExpiringStore VotingWorld
open OtpService VotingSettings VoteService CustomDomains Handlers VotingServer
open Footprints Frames OtpRecords Provenance SettingsCache Counters

/-- The email and the code that a call hands to Verify. -/
def guesses (cfg : Config) (req : Call) : Option (Str × Str) :=
  match req with
  | .verify email otp => some (email, otp)
  | req => (presents cfg req).map fun p => (p.email, p.otp)

/- Where every command of the other transactions is neutral, only Verify is left to look at. -/
theorem respected_of_verify {cfg : Config} {req : Call} {pre : History → Cmd → Prop}
    {inv : History → Prop} (plain : ∀ c, PlainCmd req c → Neutral pre inv c)
    (update : ∀ c, UpdateCmd c → Neutral pre inv c)
    (generate : ∀ email c, GenerateCmd email c → Neutral pre inv c)
    (verify : ∀ email otp, guesses cfg req = some (email, otp) →
      (OtpService.verify email otp).Keeps pre inv)
    (insertion : ∀ email fp id ip userAgent,
      Neutral pre inv (.sql (.insertVote email fp id ip userAgent)))
    (delete : ∀ id c, DeleteCmd id c → Neutral pre inv c)
    (domain : ∀ c, DomainCmd c → Neutral pre inv c) : Respected cfg req pre inv where
  plain := plain
  status := keeps_of_issues getStatus_issues fun c sent =>
    update c (broadcast_update c (payload_broadcast c (status_payload c sent)))
  broadcast := keeps_of_issues broadcastPayload_issues fun c sent => update c (broadcast_update c sent)
  update isOpen endsAt := keeps_of_issues (updateSettings_issues isOpen endsAt) update
  mode value := keeps_of_issues (updateCustomDomainsOnly_issues value) update
  generate email fp candidate name _ :=
    keeps_of_issues (generateAndStore_issues email fp candidate name) (generate email)
  verify email otp is := verify email otp (by rw [is, guesses])
  vote email otp ip userAgent presented := by
    have guessed : guesses cfg req = some (email, otp) := by
      unfold guesses
      split
      · cases presented
      · rw [presented]
        rfl
    apply keeps_bind (verify email otp guessed)
    intro found
    cases found with
    | error err => exact keeps_done _
    | ok found =>
      apply keeps_sql (insertion email _ _ ip userAgent)
      intro r
      cases r with
      | error err =>
        dsimp only
        split <;> exact keeps_done _
      | ok _ =>
        apply keeps_bind (keeps_of_issues broadcastPayload_issues fun c sent =>
          update c (broadcast_update c sent))
        intro _
        exact keeps_done _
  deleteCandidate _ n _ _ := keeps_of_issues (deleteCandidate_issues n) (delete n)
  insertDomain domain' := keeps_of_issues (insert_issues domain') domain
  deleteDomain id := keeps_of_issues (delete_issues id) domain
  warmCache := keeps_of_issues warmCache_issues domain

/-- The code that a stored record is compared by. -/
def codeOf (stored : Str) : Option Str :=
  match decodeRecord stored with
  | .malformed => none
  | .badCandidate otp => some otp
  | .record otp _ _ => some otp

/-- The last thing a call has done is to read a record whose code it does not have. -/
def Missed (cfg : Config) (req : Call) (email : Str) (past : History) : Prop :=
  ∃ otp stored code rest, guesses cfg req = some (email, otp) ∧
    past = ⟨.redis (.get (otpKey email)), .ok stored⟩ :: rest ∧ codeOf stored = some code ∧ code ≠ otp

def clear (email : Str) : Cmd := .redis (.del [otpKey email, otpAttemptsKey email])
def count (email : Str) : Cmd := .redis (.incr (otpAttemptsKey email))
def block (email : Str) : Cmd := .redis (.set (otpBlockedKey email) "1".toList otpBlockDuration)

/-- Verify is about to succeed: it has found no block and read the record. -/
def Matched (email : Str) (past : History) : Prop := ∃ stored rest,
  past = ⟨.redis (.get (otpKey email)), .ok stored⟩ ::
    ⟨.redis (.exists (otpBlockedKey email)), .ok 0⟩ :: rest

/- Who writes the counter and the block, and with what. -/
def CounterRule (past : History) : Cmd → Prop
  | .redis (.set key value ttl) => ∀ e, key ≠ otpAttemptsKey e ∧
      (key = otpBlockedKey e → value = "1".toList ∧ ttl = otpBlockDuration)
  | .redis (.del keys) => ∀ e, otpBlockedKey e ∉ keys ∧
      (otpAttemptsKey e ∈ keys → keys = [otpKey e, otpAttemptsKey e] ∧
        (Matched e past ∨ ∃ r rest, past = ⟨block e, r⟩ :: rest))
  | .redis (.incr key) => ∀ e, key ≠ otpBlockedKey e
  | .redis (.expire key ttl) => ∀ e, key ≠ otpBlockedKey e ∧ (key = otpAttemptsKey e → ttl = otpTTL)
  | .redis (.sadd key _) => ∀ e, key ≠ otpBlockedKey e ∧ key ≠ otpAttemptsKey e
  | .redis (.srem key _) => ∀ e, key ≠ otpBlockedKey e ∧ key ≠ otpAttemptsKey e
  | _ => True

/-- A wrong guess is counted next. -/
def GuessRule (cfg : Config) (req : Call) (past : History) (c : Cmd) : Prop :=
  CounterRule past c ∧ ∀ e, Missed cfg req e past → c = count e

def Counted (cfg : Config) (req : Call) (past : History) : Prop := ∀ e, ¬ Missed cfg req e past

section Rule
variable {cfg : Config} {req : Call}

theorem counted_cons {c : Cmd} (no_read : ∀ e, c ≠ .redis (.get (otpKey e))) (r : Reply c)
    (past : History) : Counted cfg req (⟨c, r⟩ :: past) := by
  rintro e ⟨otp, stored, code, rest, -, same, -, -⟩
  have head := (List.cons.inj same).1
  exact no_read e (congrArg Exchange.cmd head)

theorem guess_neutral {c : Cmd} (other : ∀ past, CounterRule past c)
    (no_read : ∀ e, c ≠ .redis (.get (otpKey e))) :
    Neutral (GuessRule cfg req) (Counted cfg req) c := by
  intro past counted
  constructor
  · exact ⟨other past, fun e missed => absurd missed (counted e)⟩
  · intro r
    exact counted_cons no_read r past

/- recordFailure starts with the count that a wrong guess owes. -/
theorem recordFailure_counts {email : Str} {past : History}
    (owed : ∀ e, Missed cfg req e past → e = email) :
    (recordFailure email).Meets (GuessRule cfg req) (fun now _ => Counted cfg req now) past := by
  have blocking : (blockEmail email).Keeps (GuessRule cfg req) (Counted cfg req) := by
    intro past counted
    refine meets_redis ⟨?_, fun e missed => absurd missed (counted e)⟩ fun r => ?_
    · intro e
      refine ⟨by simp, fun same => ⟨rfl, rfl⟩⟩
    · have after : Counted cfg req (⟨block email, r⟩ :: past) := by
        apply counted_cons
        simp [block]
      refine meets_redis ⟨?_, fun e missed => absurd missed (after e)⟩ fun r' => ?_
      · intro e
        refine ⟨by simp, fun member => ?_⟩
        have same : e = email := by simpa using member
        subst e
        exact ⟨rfl, Or.inr ⟨r, past, rfl⟩⟩
      · apply counted_cons
        simp
  refine meets_redis ⟨fun e => by simp, fun e missed => ?_⟩ fun r => ?_
  · rw [owed e missed]
    rfl
  · have after : Counted cfg req (⟨count email, r⟩ :: past) := by
      apply counted_cons
      simp [count]
    cases r with
    | error err => exact after
    | ok attempts =>
      dsimp only
      split
      · apply keeps_redis (I := Counted cfg req) _ _ _ after
        · apply guess_neutral
          · intro _ e
            exact ⟨by simp, fun _ => rfl⟩
          · simp
        · intro r
          split
          · exact blocking
          · exact keeps_done _
      · split
        · exact blocking _ after
        · exact after

theorem verify_counts {email otp : Str} (guessed : guesses cfg req = some (email, otp)) :
    (OtpService.verify email otp).Keeps (GuessRule cfg req) (Counted cfg req) := by
  have reject : ∀ past, (∀ e, Missed cfg req e past → e = email) →
      (rejectGuess email).Meets (GuessRule cfg req) (fun now _ => Counted cfg req now) past := by
    intro past owed
    apply meets_bind (recordFailure_counts owed)
    intro now r counted
    cases r <;> exact counted
  intro past counted
  refine meets_bind (Q := fun now blocked => Counted cfg req now ∧ (blocked = .ok false →
    ∃ rest, now = ⟨.redis (.exists (otpBlockedKey email)), .ok 0⟩ :: rest)) ?_ ?_
  · apply meets_mono (isEmailBlocked_meets _) fun _ _ h => h
    · rintro now blocked ⟨r, rfl, free⟩
      refine ⟨counted_cons (by simp) r past, fun clear_answer => ⟨past, ?_⟩⟩
      rw [free clear_answer]
    · exact ⟨trivial, fun e missed => absurd missed (counted e)⟩
  · rintro now blocked ⟨counted, free⟩
    rcases blocked with err | blocked
    · exact counted
    · cases blocked with
      | true => exact counted
      | false =>
        obtain ⟨rest, rfl⟩ := free rfl
        refine meets_redis ⟨trivial, fun e missed => absurd missed (counted e)⟩ fun r => ?_
        have owed : ∀ e, Missed cfg req e (⟨.redis (.get (otpKey email)), r⟩ ::
            ⟨.redis (.exists (otpBlockedKey email)), .ok 0⟩ :: rest) → e = email := by
          rintro e ⟨otp', stored, code, rest', guessed', same, -, -⟩
          rw [guessed, Option.some.injEq, Prod.mk.injEq] at guessed'
          exact guessed'.1.symm
        cases r with
        | error err =>
          have nothing : Counted cfg req (⟨.redis (.get (otpKey email)), .error err⟩ ::
              ⟨.redis (.exists (otpBlockedKey email)), .ok 0⟩ :: rest) := by
            rintro e ⟨otp', stored, code, rest', -, same, -, -⟩
            have head := (List.cons.inj same).1
            cases head
          dsimp only
          split <;> exact nothing
        | ok stored =>
          dsimp only
          split
          · exact meets_bind (recordFailure_counts owed) fun now r counted => counted
          · split
            · exact reject _ owed
            · exact meets_bind (recordFailure_counts owed) fun now r counted => counted
          · rename_i storedOTP candidateID fingerprint decoded
            split
            · exact reject _ owed
            · rename_i same_code
              have code : storedOTP = otp := not_not.mp same_code
              refine meets_redis ⟨?_, ?_⟩ fun r => ?_
              · intro e
                refine ⟨by simp, fun member => ?_⟩
                have same : e = email := by simpa using member
                subst e
                exact ⟨rfl, Or.inl ⟨stored, rest, rfl⟩⟩
              · rintro e ⟨otp', stored', code', rest', guessed', same, code_is, wrong⟩
                rw [guessed, Option.some.injEq, Prod.mk.injEq] at guessed'
                obtain ⟨rfl, rfl⟩ := guessed'
                have head := (List.cons.inj same).1
                cases head
                rw [codeOf, decoded] at code_is
                exact absurd (Option.some.inj code_is.symm |>.trans code) wrong
              · exact counted_cons (c := clear email) (fun e => by simp [clear]) r _

theorem domain_guess : ∀ c, DomainCmd c → Neutral (GuessRule cfg req) (Counted cfg req) c := by
  intro c sent
  cases sent with
  | add domains =>
    exact guess_neutral (fun _ e => ⟨(by simp), (by simp)⟩)
      (by simp)
  | remove domain =>
    exact guess_neutral (fun _ e => ⟨(by simp), (by simp)⟩)
      (by simp)
  | drop => exact guess_neutral (fun _ e => ⟨by simp, by simp⟩) (by simp)
  | mark =>
    exact guess_neutral (fun _ e => ⟨(by simp),
      fun same => by simp at same⟩) (by simp)
  | _ => exact guess_neutral (fun _ => trivial) (by simp)

theorem update_guess : ∀ c, UpdateCmd c → Neutral (GuessRule cfg req) (Counted cfg req) c := by
  intro c sent
  cases sent with
  | set raw => exact guess_neutral (fun _ e => ⟨by simp, fun same => by simp at same⟩) (by simp)
  | invalidate => exact guess_neutral (fun _ e => ⟨by simp, by simp⟩) (by simp)
  | _ => exact guess_neutral (fun _ => trivial) (by simp)

theorem guess_respected (cfg : Config) (req : Call) :
    Respected cfg req (GuessRule cfg req) (Counted cfg req) := by
  apply respected_of_verify
  · intro c sent
    cases sent with
    | rate ip => exact guess_neutral (fun _ e => by simp) (by simp)
    | rateWindow ip =>
      exact guess_neutral (fun _ e => ⟨by simp, fun same => by simp at same⟩) (by simp)
    | _ => exact guess_neutral (fun _ => trivial) (by simp)
  · exact update_guess
  · intro email c sent
    cases sent with
    | store value => exact guess_neutral (fun _ e => ⟨by simp, fun same => by simp at same⟩) (by simp)
    | withdraw => exact guess_neutral (fun _ e => ⟨by simp, by simp⟩) (by simp)
    | _ => exact guess_neutral (fun _ => trivial) (by simp)
  · intro email otp guessed
    exact verify_counts guessed
  · intro email fp id ip userAgent
    exact guess_neutral (fun _ => trivial) (by simp)
  · intro id c sent
    cases sent <;> exact guess_neutral (fun _ => trivial) (by simp)
  · exact domain_guess

end Rule

/-- otp_blocked of the email exists. -/
def Blocked (email : Str) (w : World) : Prop := w.redis.present w.clock (otpBlockedKey email) ≠ 0

/-- An event by which a Verify call succeeds or a record is stored. -/
def Completes (email : Str) (ev : LogEntry) (older : Log) : Prop :=
  (ev.cmd = clear email ∧ Matched email (own ev.caller older)) ∨
    ∃ value ttl, ev.cmd = .redis (.set (otpKey email) value ttl)

/-- No Verify succeeds and no record is stored while the email is blocked. -/
def Effective (email : Str) (log : Log) : Prop :=
  ∀ late ev older, log = late ++ ev :: older → Completes email ev older → ¬ Blocked email ev.before

/-- After a call has found no block one is set, and it has not run out when the call completes. -/
def BlockedMeanwhile (email : Str) (log : Log) : Prop :=
  ∃ late ev mid blocking early check oldest,
    log = late ++ ev :: (mid ++ blocking :: (early ++ check :: oldest)) ∧
      Completes email ev (mid ++ blocking :: (early ++ check :: oldest)) ∧
        check.caller = ev.caller ∧
          check.exchange = ⟨.redis (.exists (otpBlockedKey email)), .ok 0⟩ ∧
            blocking.cmd = block email ∧
              ev.before.clock < blocking.before.clock + otpBlockDuration

section Runs
variable {cfg : Config} {allow : State → Move → Bool} {seed : Seed} {s : State}

theorem guess_rule (run : Reaches (server cfg) allow seed.start s) {late older : Log}
    {ev : LogEntry} (split : s.log = late ++ ev :: older) :
    ∃ job, s.jobs[ev.caller]? = some job ∧
      GuessRule cfg job.req (own ev.caller older) ev.cmd :=
  contract_of_logged (fun req => program_keeps (guess_respected cfg req) []
    fun e missed => by
      obtain ⟨_, _, _, _, _, same, _⟩ := missed
      cases same) rfl rfl run split

/- Only blockEmail writes the block. -/
theorem block_written (run : Reaches (server cfg) allow seed.start s) {ev : LogEntry}
    (logged : ev ∈ s.log) {email : Str} (writes : WritesKey (otpBlockedKey email) ev.cmd) :
    ev.cmd = block email := by
  obtain ⟨late, older, split⟩ := List.append_of_mem logged
  obtain ⟨job, -, rule, -⟩ := guess_rule run split
  cases cmd : ev.cmd with
  | redis c =>
    rw [cmd] at rule writes
    cases c with
    | set key value ttl =>
      have same : otpBlockedKey email = key := by simpa [WritesKey, writtenKeys] using writes
      obtain ⟨rfl, rfl⟩ := (rule email).2 same.symm
      rw [← same]
      rfl
    | del keys => exact absurd writes (rule email).1
    | incr key => exact absurd (by simpa [WritesKey, writtenKeys] using writes) (rule email).symm
    | expire key ttl =>
      exact absurd (by simpa [WritesKey, writtenKeys] using writes) (rule email).1.symm
    | sadd key members =>
      exact absurd (by simpa [WritesKey, writtenKeys] using writes) (rule email).1.symm
    | srem key member =>
      exact absurd (by simpa [WritesKey, writtenKeys] using writes) (rule email).1.symm
    | _ => simp [WritesKey, writtenKeys] at writes
  | _ =>
    rw [cmd] at writes
    exact absurd writes id

theorem blockDuration_pos : 0 < otpBlockDuration := by decide

theorem block_left {ev : LogEntry} (performed : Performed ev) (no_fault : ev.oracle.fault = none)
    {email : Str} (blocks : ev.cmd = block email) :
    ev.after.redis (otpBlockedKey email) =
      some ⟨.text "1".toList, some (ev.before.clock + otpBlockDuration)⟩ := by
  obtain ⟨r, exchange⟩ := exchange_of_cmd blocks
  obtain ⟨-, after⟩ := exchange_redis performed exchange
  rw [after, faulty_ok no_fault]
  dsimp only [RedisCmd.run]
  rw [set_self, deadlineAfter_pos blockDuration_pos]

/- A block that is set stays until its time has run out. -/
theorem block_stays (run : Reaches (server cfg) allow seed.start s) (clean : NoFaults s.log)
    {late mid older : Log} {ev blocking : LogEntry}
    (split : s.log = late ++ ev :: (mid ++ blocking :: older)) {email : Str}
    (blocks : blocking.cmd = block email)
    (in_time : ev.before.clock < blocking.before.clock + otpBlockDuration) :
    Blocked email ev.before := by
  obtain ⟨t, t', reached, log, world, later, log', world'⟩ := interval rfl run split
  have logged : ∀ x ∈ blocking :: (mid ++ [ev]), x ∈ s.log := by
    intro x member
    rw [split]
    simp only [List.mem_cons, List.mem_append, List.not_mem_nil, or_false] at member ⊢
    tauto
  have performed := performed_of_run run
  have here := logged blocking List.mem_cons_self
  have held := kept_since (I := fun w => blocking.before.clock ≤ w.clock ∧ ∃ d,
    w.redis (otpBlockedKey email) = some ⟨.text "1".toList, some d⟩ ∧
      blocking.before.clock + otpBlockDuration ≤ d) ?_ later log' ?_ ?_
  · rw [world'] at held
    obtain ⟨-, d, entry, le⟩ := held
    intro absent
    rw [present_zero, lookup_live entry (Nat.lt_of_lt_of_le in_time le)] at absent
    cases absent
  · intro w e w' moved held
    obtain ⟨-, redis, -, ticking⟩ := env_scope moved
    rw [redis]
    exact ⟨Nat.le_trans held.1 ticking, held.2⟩
  · intro x member held
    have x_logged := logged x (by simp [member])
    have clock := perform_clock (performed x x_logged)
    refine ⟨by rw [clock]; exact held.1, ?_⟩
    by_cases writes : WritesKey (otpBlockedKey email) x.cmd
    · refine ⟨_, block_left (performed x x_logged) (clean x x_logged)
        (block_written run x_logged writes), ?_⟩
      have ticked := held.1
      omega
    · rw [key_frame writes (performed x x_logged)]
      exact held.2
  · rw [world, perform_clock (performed blocking here)]
    exact ⟨Nat.le_refl _, _, block_left (performed blocking here) (clean blocking here) blocks,
      Nat.le_refl _⟩

/- Every completion follows a check of its own call that found no block. -/
theorem completion_checked (run : Reaches (server cfg) allow seed.start s) {late older : Log}
    {ev : LogEntry} (split : s.log = late ++ ev :: older) {email : Str}
    (completes : Completes email ev older) :
    ∃ mid check oldest, older = mid ++ check :: oldest ∧ check.caller = ev.caller ∧
      check.exchange = ⟨.redis (.exists (otpBlockedKey email)), .ok 0⟩ := by
  have find : ∀ newer rest, own ev.caller older =
      newer ++ ⟨.redis (.exists (otpBlockedKey email)), .ok 0⟩ :: rest →
      ∃ mid check oldest, older = mid ++ check :: oldest ∧ check.caller = ev.caller ∧
        check.exchange = ⟨.redis (.exists (otpBlockedKey email)), .ok 0⟩ := by
    intro newer rest past
    obtain ⟨mid, check, oldest, at_check, mine, exchange, -, -⟩ := own_member_split past
    exact ⟨mid, check, oldest, at_check, mine, exchange⟩
  rcases completes with ⟨-, stored, rest, past⟩ | ⟨value, ttl, stores⟩
  · exact find [_] rest past
  · obtain ⟨job, -, rule⟩ := rule_of_run run split
    rw [stores] at rule
    obtain ⟨n, fp, id, rest, -, -, -, past⟩ := rule email rfl
    exact find [] _ past

/- A call that completes under a block has been overtaken by it. -/
theorem blocked_was_set (run : Reaches (server cfg) allow seed.start s) (clean : NoFaults s.log)
    {late mid oldest : Log} {ev check : LogEntry}
    (split : s.log = late ++ ev :: (mid ++ check :: oldest)) {email : Str}
    (found_none : check.exchange = ⟨.redis (.exists (otpBlockedKey email)), .ok 0⟩)
    (blocked : Blocked email ev.before) :
    ∃ newer blocking early, mid = newer ++ blocking :: early ∧ blocking.cmd = block email ∧
      ev.before.clock < blocking.before.clock + otpBlockDuration := by
  have performed := performed_of_run run
  have at_check : check ∈ s.log := by rw [split]; simp
  rcases newest_split (fun x => WritesKey (otpBlockedKey email) x.cmd) mid with
    never | ⟨newer, blocking, early, rfl, writes, idle⟩
  · exfalso
    obtain ⟨same, ticking⟩ := key_between run split never
    obtain ⟨answer, after⟩ := answered_redis (performed check at_check) found_none
    have absent : check.before.redis.present check.before.clock (otpBlockedKey email) = 0 := by
      simpa [RedisCmd.run] using answer
    rw [present_zero] at absent
    have kept : check.after.redis = check.before.redis := by rw [after]; rfl
    rw [kept] at same
    rw [perform_clock (performed check at_check)] at ticking
    exact blocked (present_zero.mpr (gone_stays same ticking absent))
  · have at_blocking : s.log = late ++ ev :: (newer ++ blocking :: (early ++ check :: oldest)) := by
      rw [split]
      simp
    have logged : blocking ∈ s.log := by rw [at_blocking]; simp
    have blocks := block_written run logged writes
    refine ⟨newer, blocking, early, rfl, blocks, ?_⟩
    obtain ⟨same, -⟩ := key_between run at_blocking idle
    rw [block_left (performed blocking logged) (clean blocking logged) blocks] at same
    by_contra late
    apply blocked
    rw [present_zero, Store.lookup, same, Option.filter_some, if_neg fun live => late (live_iff.mp live)]

/- The block is effective exactly when none is set between a call's check and its end. -/
theorem effective_iff (run : Reaches (server cfg) allow seed.start s) (clean : NoFaults s.log)
    (email : Str) : Effective email s.log ↔ ¬ BlockedMeanwhile email s.log := by
  constructor
  · rintro effective ⟨late, ev, mid, blocking, early, check, oldest, split, completes, -, -, blocks,
      in_time⟩
    exact effective late ev _ split completes (block_stays run clean split blocks in_time)
  · intro apart late ev older split completes blocked
    obtain ⟨mid, check, oldest, rfl, same, found_none⟩ := completion_checked run split completes
    obtain ⟨newer, blocking, early, rfl, blocks, in_time⟩ :=
      blocked_was_set run clean split found_none blocked
    have shape : (newer ++ blocking :: early) ++ check :: oldest =
        newer ++ blocking :: (early ++ check :: oldest) := by simp
    rw [shape] at split completes
    exact apart ⟨late, ev, newer, blocking, early, check, oldest, split, completes, same,
      found_none, blocks, in_time⟩

end Runs

/-- The value of the attempt counter, zero when there is none. -/
def counter (email : Str) (w : World) : Int :=
  match w.redis.lookup w.clock (otpAttemptsKey email) with
  | some ⟨.number n, _⟩ => n
  | _ => 0

/-- An exchange by which a call reads a record whose code it does not have. -/
def missed (cfg : Config) (req : Call) (email : Str) (x : Exchange Cmd Reply) : Bool :=
  match guesses cfg req, x with
  | some (e, otp), ⟨.redis (.get key), .ok stored⟩ =>
    e = email && key = otpKey email && (codeOf stored).any fun code => code ≠ otp
  | _, _ => false

/-- An event by which a wrong guess for the email is compared. -/
def wrongGuess (cfg : Config) (jobs : List (Job Cmd Reply Call Answer)) (email : Str)
    (ev : LogEntry) : Bool :=
  jobs[ev.caller]?.any fun job => missed cfg job.req email ev.exchange

def counts (email : Str) (ev : LogEntry) : Bool := ev.cmd = count email

/-- By the end of the log the call has compared a wrong guess that it has not counted. -/
def owes (cfg : Config) (jobs : List (Job Cmd Reply Call Answer)) (email : Str) (log : Log)
    (i : Nat) : Bool :=
  match jobs[i]?, own i log with
  | some job, x :: _ => missed cfg job.req email x
  | _, _ => false

def uncounted (cfg : Config) (jobs : List (Job Cmd Reply Call Answer)) (email : Str)
    (log : Log) : Nat :=
  (List.range jobs.length).countP (owes cfg jobs email log)

/-- A wrong guess is compared although the guesses counted and those still to be counted
have used up the attempts. -/
def Crowded (cfg : Config) (s : State) (email : Str) : Prop := ∃ late guess older,
  s.log = late ++ guess :: older ∧ wrongGuess cfg s.jobs email guess = true ∧
    maxOTPAttempts ≤ counter email guess.before + uncounted cfg s.jobs email older

/-- From its first count in these events on the counter is never lost. -/
def OneLifetime (email : Str) (mid : Log) : Prop := ∀ late ev early, mid = late ++ ev :: early →
  (∃ c ∈ early, c.cmd = count email) → counter email ev.before ≠ 0

/-- Within one lifetime of the counter at most maxOTPAttempts wrong guesses are compared. -/
def GuessesBounded (cfg : Config) (s : State) (email : Str) : Prop := ∀ late mid oldest,
  s.log = late ++ (mid ++ oldest) → OneLifetime email mid →
    (mid.countP (wrongGuess cfg s.jobs email) : Int) ≤ maxOTPAttempts

theorem missed_iff {cfg : Config} {req : Call} {email : Str} {x : Exchange Cmd Reply}
    {rest : History} (h : missed cfg req email x = true) : Missed cfg req email (x :: rest) := by
  unfold missed at h
  split at h
  · rename_i e otp key stored guessed
    simp only [Bool.and_eq_true, decide_eq_true_eq, Option.any_eq_true] at h
    obtain ⟨⟨rfl, rfl⟩, code, code_is, wrong⟩ := h
    exact ⟨otp, stored, code, rest, guessed, rfl, code_is, wrong⟩
  · cases h

/- Two predicates that differ at one place count the same but for that place. -/
theorem countP_one_off {l : List Nat} (distinct : l.Nodup) {p q : Nat → Bool} {i : Nat}
    (member : i ∈ l) (same : ∀ j, j ≠ i → p j = q j) :
    l.countP p + (q i).toNat = l.countP q + (p i).toNat := by
  have cons_count : ∀ (r : Nat → Bool) (a : Nat) (l : List Nat),
      (a :: l).countP r = l.countP r + (r a).toNat := by
    intro r a l
    cases here : r a <;> simp [here]
  induction l with
  | nil => cases member
  | cons a l ih =>
    obtain ⟨fresh, rest⟩ := List.nodup_cons.mp distinct
    rw [cons_count, cons_count]
    by_cases here : a = i
    · subst a
      have equal : l.countP p = l.countP q := by
        apply List.countP_congr
        intro j in_l
        have other : j ≠ i := fun h => fresh (h ▸ in_l)
        rw [same j other]
      omega
    · have in_l : i ∈ l := (List.mem_cons.mp member).resolve_left (Ne.symm here)
      have tail := ih rest in_l
      have head := same a here
      rw [head]
      omega

section Counting
variable {cfg : Config} {allow : State → Move → Bool} {seed : Seed} {s : State}

/- A call that owes a count does nothing else first. -/
theorem uncounted_step (run : Reaches (server cfg) allow seed.start s) (email : Str)
    {late older : Log} {ev : LogEntry} (split : s.log = late ++ ev :: older) :
    uncounted cfg s.jobs email older + (wrongGuess cfg s.jobs email ev).toNat ≤
      uncounted cfg s.jobs email (ev :: older) + (counts email ev).toNat := by
  obtain ⟨job, at_job, -, owed⟩ := guess_rule run split
  have inside : ev.caller ∈ List.range s.jobs.length :=
    List.mem_range.mpr (List.getElem?_eq_some_iff.mp at_job).1
  have others : ∀ j, j ≠ ev.caller →
      owes cfg s.jobs email older j = owes cfg s.jobs email (ev :: older) j := by
    intro j other
    simp only [owes, own, if_neg (Ne.symm other)]
  have here : owes cfg s.jobs email (ev :: older) ev.caller = wrongGuess cfg s.jobs email ev := by
    simp [owes, own, wrongGuess, at_job]
  have moved := countP_one_off List.nodup_range inside others
  rw [here] at moved
  have paid : (owes cfg s.jobs email older ev.caller).toNat ≤ (counts email ev).toNat := by
    cases owing : owes cfg s.jobs email older ev.caller with
    | false => simp
    | true =>
      have counted : counts email ev = true := by
        unfold owes at owing
        rw [at_job] at owing
        cases past : own ev.caller older with
        | nil =>
          rw [past] at owing
          cases owing
        | cons x rest =>
          rw [past] at owing owed
          exact decide_eq_true (owed email (missed_iff owing))
      rw [counted]
  unfold uncounted
  omega

/- Every wrong guess has been counted or is still owed. -/
theorem guesses_accounted (run : Reaches (server cfg) allow seed.start s) (email : Str)
    {late mid oldest : Log} (split : s.log = late ++ (mid ++ oldest)) :
    mid.countP (wrongGuess cfg s.jobs email) ≤
      mid.countP (counts email) + uncounted cfg s.jobs email (mid ++ oldest) := by
  induction mid generalizing late with
  | nil => exact Nat.zero_le _
  | cons ev mid ih =>
    have rest := ih (show s.log = (late ++ [ev]) ++ (mid ++ oldest) by rw [split]; simp)
    have step := uncounted_step run email (show s.log = late ++ ev :: (mid ++ oldest) from split)
    have head : ∀ r : LogEntry → Bool, (ev :: mid).countP r = mid.countP r + (r ev).toNat := by
      intro r
      cases here : r ev <;> simp [here]
    rw [head, head]
    rw [List.cons_append]
    omega

/- The counter is absent or a positive number. -/
def Numeric (email : Str) (w : World) : Prop := ∀ e, w.redis (otpAttemptsKey email) = some e →
  ∃ n d, e = ⟨.number n, d⟩ ∧ 1 ≤ n

theorem counter_nonneg {email : Str} {w : World} (numeric : Numeric email w) :
    0 ≤ counter email w := tally_nonneg numeric

/- What an event can do to the counter: a count starts it or adds one, the removal of the record
   removes it too, and nothing else changes its value. -/
theorem attempts_cases (run : Reaches (server cfg) allow seed.start s) (clean : RedisAnswers s.log)
    {ev : LogEntry} (logged : ev ∈ s.log) {email : Str} (numeric : Numeric email ev.before) :
    (∃ (n : Int) (d : Option Nat), ev.exchange = ⟨count email, .ok n⟩ ∧ n = counter email ev.before + 1 ∧
      ev.after.redis (otpAttemptsKey email) = some ⟨.number n, d⟩ ∧
        ((counter email ev.before = 0 ∧ d = none) ∨
          ev.before.redis (otpAttemptsKey email) = some ⟨.number (counter email ev.before), d⟩)) ∨
      (ev.cmd ≠ count email ∧
        ((Wrote (otpKey email) ev ∧ ev.after.redis (otpAttemptsKey email) = none) ∨
          ev.after.redis (otpAttemptsKey email) = ev.before.redis (otpAttemptsKey email) ∨
            ∃ e, ev.before.redis.lookup ev.before.clock (otpAttemptsKey email) = some e ∧
              ev.after.redis (otpAttemptsKey email) =
                some { e with deadline := some (ev.before.clock + otpTTL) })) := by
  have performed := performed_of_run run ev logged
  by_cases writes : WritesKey (otpAttemptsKey email) ev.cmd
  · obtain ⟨late, older, split⟩ := List.append_of_mem logged
    obtain ⟨job, -, rule, -⟩ := guess_rule run split
    cases cmd : ev.cmd with
    | redis c =>
      have no_fault := clean ev logged c cmd
      rw [cmd] at rule writes
      obtain ⟨r, exchange⟩ := exchange_of_cmd cmd
      obtain ⟨answer, after⟩ := exchange_redis performed exchange
      have left : ev.after.redis = (c.run ev.before.redis ev.before.clock).2 := by
        rw [after, faulty_ok no_fault]
      rw [faulty_ok no_fault] at answer
      cases c with
      | incr key =>
        have same : otpAttemptsKey email = key := by simpa [WritesKey, writtenKeys] using writes
        subst key
        obtain ⟨d, counted, before⟩ := incr_counts numeric
        dsimp only [RedisCmd.run] at answer left
        rw [counted] at answer left
        left
        refine ⟨counter email ev.before + 1, d, by rw [exchange, answer]; rfl, rfl, ?_, before⟩
        rw [left]
        exact put_self ev.before.redis (otpAttemptsKey email) _
      | expire key ttl =>
        have same : otpAttemptsKey email = key := by simpa [WritesKey, writtenKeys] using writes
        subst key
        have lifetime : ttl = otpTTL := (rule email).2 rfl
        subst ttl
        dsimp only [RedisCmd.run, Store.expire] at left
        right
        constructor
        · simp [count]
        · right
          cases found : ev.before.redis.lookup ev.before.clock (otpAttemptsKey email) with
          | none =>
            simp only [found] at left
            exact Or.inl (by rw [left])
          | some entry =>
            simp only [found] at left
            refine Or.inr ⟨entry, rfl, ?_⟩
            rw [left, put_self]
      | del keys =>
        have member : otpAttemptsKey email ∈ keys := writes
        obtain ⟨rfl, -⟩ := (rule email).2 member
        right
        constructor
        · simp [count]
        · left
          constructor
          · constructor
            · rw [cmd]
              exact List.mem_cons_self
            · intro f fault
              rw [no_fault] at fault
              cases fault
          · rw [left]
            exact del_self _ member
      | set key value ttl =>
        exact absurd (by simpa [WritesKey, writtenKeys] using writes) (rule email).1.symm
      | sadd key members =>
        exact absurd (by simpa [WritesKey, writtenKeys] using writes) (rule email).2.symm
      | srem key member =>
        exact absurd (by simpa [WritesKey, writtenKeys] using writes) (rule email).2.symm
      | _ => simp [WritesKey, writtenKeys] at writes
    | _ =>
      rw [cmd] at writes
      exact absurd writes id
  · right
    constructor
    · intro counted
      rw [counted] at writes
      exact writes List.mem_cons_self
    · exact Or.inr (Or.inl (key_frame writes performed))

/- What an event leaves of the counter: one more, or what was there before, or nothing. -/
theorem attempts_step (run : Reaches (server cfg) allow seed.start s) (clean : RedisAnswers s.log)
    {ev : LogEntry} (logged : ev ∈ s.log) {email : Str} (numeric : Numeric email ev.before)
    {e : Entry Str} (left : ev.after.redis (otpAttemptsKey email) = some e) :
    (ev.cmd = count email ∧ ∃ d, e = ⟨.number (counter email ev.before + 1), d⟩) ∨
      (ev.cmd ≠ count email ∧
        ∃ d, ev.before.redis (otpAttemptsKey email) = some ⟨e.value, d⟩) := by
  rcases attempts_cases run clean logged numeric with ⟨n, d, exchange, rfl, after, -⟩ |
    ⟨other, ⟨-, gone⟩ | same | ⟨entry, before, after⟩⟩
  · rw [after, Option.some.injEq] at left
    exact Or.inl ⟨congrArg Exchange.cmd exchange, d, left.symm⟩
  · rw [gone] at left
    cases left
  · rw [same] at left
    exact Or.inr ⟨other, e.deadline, left⟩
  · rw [after, Option.some.injEq] at left
    subst e
    exact Or.inr ⟨other, entry.deadline, (lookup_some before).1⟩

theorem attempts_count_up (run : Reaches (server cfg) allow seed.start s)
    (clean : RedisAnswers s.log) (email : Str) : ∀ ev ∈ s.log,
      Counting (otpAttemptsKey email) ev.before → CountsUp (otpAttemptsKey email) ev :=
  fun _ logged numeric _ left => attempts_step run clean logged numeric left

theorem attempts_counting (run : Reaches (server cfg) allow seed.start s)
    (clean : RedisAnswers s.log) (email : Str) : ∀ ev ∈ s.log,
      Counting (otpAttemptsKey email) ev.before → Counting (otpAttemptsKey email) ev.after :=
  fun ev logged numeric => counting_after numeric (attempts_count_up run clean email ev logged numeric)

/- Without a crowded guess the number of guesses is bounded. -/
theorem guesses_bounded (run : Reaches (server cfg) allow seed.start s) (clean : NoFaults s.log)
    {email : Str} (uncrowded : ¬ Crowded cfg s email) : GuessesBounded cfg s email := by
  intro late mid oldest split kept
  rcases newest_split (fun ev => wrongGuess cfg s.jobs email ev = true) mid with
    never | ⟨newer, guess, early, rfl, wrong, none_since⟩
  · rw [List.countP_eq_zero.mpr never]
    decide
  · have at_guess : s.log = (late ++ newer) ++ guess :: (early ++ oldest) := by rw [split]; simp
    have at_early : s.log = (late ++ newer ++ [guess]) ++ (early ++ oldest) := by rw [split]; simp
    have accounted := guesses_accounted run email at_early
    have counted : (early.countP (counts email) : Int) ≤ counter email guess.before :=
      tally_counts run (attempts_counting run (redis_answers clean) email) at_guess
        (fun c member => attempts_count_up run (redis_answers clean) email c
          (by rw [at_guess]; simp [member]))
        (fun n x o shape => kept (newer ++ guess :: n) x o (by rw [shape]; simp))
        (kept newer guess early rfl)
    have room : counter email guess.before + uncounted cfg s.jobs email (early ++ oldest) <
        maxOTPAttempts := by
      by_contra full
      exact uncrowded ⟨late ++ newer, guess, early ++ oldest, at_guess, wrong, Int.not_lt.mp full⟩
    rw [List.countP_append, List.countP_eq_zero.mpr none_since, List.countP_cons_of_pos wrong]
    push_cast
    omega

end Counting

/- The block is effective exactly when no block is set between a call's check and its
   end, and the guesses are bounded as long as none is compared beyond the attempts. -/
theorem block_stops_guessing {cfg : Config} {seed : Seed} {s : State}
    (run : Reaches (server cfg) faultless seed.start s) (email : Str) :
    (Effective email s.log ↔ ¬ BlockedMeanwhile email s.log) ∧
      (¬ Crowded cfg s email → GuessesBounded cfg s email) :=
  ⟨effective_iff run (no_faults run) email, guesses_bounded run (no_faults run)⟩

def voterEmail : Str := "a@gmail.com".toList

def guess (otp : String) : Move := .start (.verify voterEmail otp.toList)

/- A code is stored and guessed wrong six times, one guess after the other. -/
def sixGuessMoves (first : Nat) : List Move :=
  guess "111111" :: runs first 4 ++ guess "222222" :: runs (first + 1) 3 ++
    guess "333333" :: runs (first + 2) 3 ++ guess "444444" :: runs (first + 3) 3 ++
      guess "555555" :: runs (first + 4) 3 ++ guess "666666" :: runs (first + 5) 5

def storeMoves : List Move :=
  .start (.generateAndStore voterEmail "phone".toList 1 "Ann".toList) :: runs 0 4

def sixGuesses : State :=
  after (server devConfig) faultless twoCandidates.start (storeMoves ++ sixGuessMoves 1)

theorem block_stops_guessing_six :
    sixGuesses.world.redis.present sixGuesses.world.clock (otpBlockedKey voterEmail) = 1 ∧
      (Effective voterEmail sixGuesses.log ↔ ¬ BlockedMeanwhile voterEmail sixGuesses.log) ∧
        (¬ Crowded devConfig sixGuesses voterEmail → GuessesBounded devConfig sixGuesses voterEmail) :=
  ⟨by decide +kernel, block_stops_guessing (reaches_after (by decide +kernel)) voterEmail⟩

/- The same guesses, while a call with the right code has read the record but not removed it. -/
def overtaken : State :=
  after (server devConfig) faultless twoCandidates.start
    (storeMoves ++ guess "100000" :: runs 1 2 ++ sixGuessMoves 2 ++ runs 1 1)

def verifiedAnswer (job : Job Cmd Reply Call Answer) : Option (Str × Int) :=
  match job.rest with
  | .done (.verified (.ok found)) => some found
  | _ => none

def matched (email : Str) : History → Bool
  | ⟨.redis (.get key), .ok _⟩ :: ⟨.redis (.exists key'), .ok found⟩ :: _ =>
    key = otpKey email && key' = otpBlockedKey email && found = 0
  | _ => false

theorem matched_of {email : Str} {past : History} (h : matched email past = true) :
    Matched email past := by
  unfold matched at h
  split at h
  · rename_i key stored key' found rest
    simp only [Bool.and_eq_true, decide_eq_true_eq] at h
    obtain ⟨⟨rfl, rfl⟩, rfl⟩ := h
    exact ⟨stored, rest, rfl⟩
  · cases h

/- The second call is verified although the email has been blocked. -/
theorem verified_while_blocked :
    ∃ s, Reaches (server devConfig) faultless twoCandidates.start s ∧
      (s.jobs.map verifiedAnswer)[1]? = some (some ("phone".toList, 1)) ∧
        ¬ Effective voterEmail s.log := by
  refine ⟨overtaken, reaches_after (by decide +kernel), by decide +kernel, ?_⟩
  intro effective
  cases shape : overtaken.log with
  | nil =>
    have some_log : overtaken.log.length ≠ 0 := by decide +kernel
    rw [shape] at some_log
    exact some_log rfl
  | cons ev older =>
    have last : overtaken.log.head?.map (fun ev => (ev.cmd,
        ev.before.redis.present ev.before.clock (otpBlockedKey voterEmail),
        matched voterEmail (own ev.caller overtaken.log.tail))) =
          some (clear voterEmail, 1, true) := by
      decide +kernel
    simp only [shape, List.head?_cons, Option.map_some, List.tail_cons, Option.some.injEq,
      Prod.mk.injEq] at last
    obtain ⟨cmd, present, is_matched⟩ := last
    apply effective [] ev older shape (Or.inl ⟨cmd, matched_of is_matched⟩)
    rw [Blocked, present]
    exact Nat.one_ne_zero

end EmailBlock
