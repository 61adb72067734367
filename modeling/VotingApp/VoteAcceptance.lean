import VotingApp.OtpRecords
import VotingApp.PayloadReads
import VotingApp.SoloServer

/-!
When a vote is accepted. The settings, the OTP record, the two unique keys, the foreign key and
the widths of the columns decide it together.
-/
namespace VoteAcceptance
open GoText GoTime JsonText Tables EffectProgram CallPool SoloRun ExpiringStore VotingWorld
open OtpService VotingSettings VoteService CustomDomains Handlers VotingServer
open Footprints Frames OtpRecords SettingsCache PayloadReads SoloServer

/-- The settings that GetStatus finds: those under the key, or the row. -/
def settingsSeen (w : World) : Settings :=
  match w.redis votingSettingsRedisKey with
  | some ⟨.text raw, _⟩ =>
    match unmarshalSettings raw with
    | .ok v => v
    | .error _ => w.db.settings
  | _ => w.db.settings

/-- Redis has nothing for the settings, or the text of some. -/
def Cached (w : World) : Prop := w.redis votingSettingsRedisKey = none ∨
  ∃ raw v, w.redis votingSettingsRedisKey = some ⟨.text raw, none⟩ ∧ unmarshalSettings raw = .ok v

/-- Nothing is different but what Redis has of the settings. -/
structure Looked (w w' : World) : Prop where
  clock : w'.clock = w.clock
  db : w'.db = w.db
  keys : ∀ k, k ≠ votingSettingsRedisKey → w'.redis k = w.redis k

/-- A live record of the email with the code, fingerprint and candidate, and no block. -/
structure Redeemable (w : World) (email code fp : Str) (id : Int) : Prop where
  unblocked : w.redis.lookup w.clock (otpBlockedKey email) = none
  record : ∃ stored, w.redis.get itoa w.clock (otpKey email) = .ok stored ∧
    decodeRecord stored = .record code id fp

/-- The email can vote with this code, if voting is open. -/
structure Votable (w : World) (email code fp : Str) (id : Int) : Prop where
  redeemable : Redeemable w email code fp id
  new_email : ∀ v ∈ w.db.votes, v.voterEmail ≠ email
  new_fingerprint : ∀ v ∈ w.db.votes, v.voterFingerprint ≠ fp
  candidate : ∃ c ∈ w.db.candidates, c.id = id

/-- The values are no longer than their columns. -/
structure Fits (email fp ip userAgent : Str) : Prop where
  email : email.length ≤ 255
  fingerprint : fp.length ≤ 255
  ip : ip.length ≤ 45
  userAgent : userAgent.length ≤ 512

/- Whatever the answers are, a wrong guess ends with an error. -/
theorem rejectGuess_fails {V : Type} {how : V → (c : Cmd) → Option (Reply c × V)} {email : Str} {v : V}
    {x : Except GoErr (Str × Int) × V} (evaluated : evaluate how (rejectGuess email) v = some x) :
    ∃ err, x.1 = .error err := by
  apply evaluate_fails _ evaluated
  intro found
  cases found with
  | some err => exact ⟨err, rfl⟩
  | none => exact ⟨invalidOTP, rfl⟩

/-- What Verify does once it has read the record. -/
def judge (email otp stored : Str) : Act (Except GoErr (Str × Int)) :=
  match decodeRecord stored with
  | .malformed => recordFailure email >>= fun _ => .done (.error (newError "malformed OTP record"))
  | .badCandidate found =>
    if found ≠ otp then rejectGuess email
    else recordFailure email >>= fun _ =>
      .done (.error (newError "malformed candidate ID in OTP record"))
  | .record found id fp =>
    if found ≠ otp then rejectGuess email
    else redis (.del [otpKey email, otpAttemptsKey email]) >>= fun _ => .done (.ok (fp, id))

/- Whatever the answers are, only the code of the record is accepted. -/
theorem judge_accepts {V : Type} {how : V → (c : Cmd) → Option (Reply c × V)} {email otp stored fp : Str}
    {id : Int} {v v' : V} (evaluated : evaluate how (judge email otp stored) v = some (.ok (fp, id), v')) :
    decodeRecord stored = .record otp id fp := by
  unfold judge at evaluated
  cases decodes : decodeRecord stored with
  | malformed =>
    rw [decodes] at evaluated
    obtain ⟨err, same⟩ := evaluate_fails (fun _ => ⟨_, rfl⟩) evaluated
    cases same
  | badCandidate found =>
    rw [decodes] at evaluated
    dsimp only at evaluated
    split at evaluated
    · obtain ⟨err, same⟩ := rejectGuess_fails evaluated
      cases same
    · obtain ⟨err, same⟩ := evaluate_fails (fun _ => ⟨_, rfl⟩) evaluated
      cases same
  | record found id' fp' =>
    rw [decodes] at evaluated
    dsimp only at evaluated
    split at evaluated
    · obtain ⟨err, same⟩ := rejectGuess_fails evaluated
      cases same
    · rename_i same_code
      rw [evaluate_bind, Option.bind_eq_some_iff] at evaluated
      obtain ⟨y, -, rest⟩ := evaluated
      cases rest
      rw [not_not.mp same_code]

section Evaluating
variable {w : World}

/- GetStatus comes to its result whatever is under the key. -/
theorem getStatus_sees (cached : Cached w) :
    ∃ w', evaluate answer VotingSettings.getStatus w = some (.ok (settingsSeen w), w') ∧ Looked w w' := by
  rcases cached with absent | ⟨raw, v, held, decodes⟩
  · have miss : evaluate answer fromRedis w = some (.error (storeError .missing), w) := by
      unfold fromRedis
      rw [evaluate_redis]
      dsimp only [RedisCmd.run]
      rw [get_absent itoa absent]
      rfl
    have seen : settingsSeen w = w.db.settings := by rw [settingsSeen, absent]
    unfold VotingSettings.getStatus
    rw [evaluate_then miss, seen]
    dsimp only
    rw [evaluate_sql]
    dsimp only [SqlCmd.run]
    unfold toRedis
    cases marshalSettings w.db.settings with
    | error err => exact ⟨w, rfl, rfl, rfl, fun _ _ => rfl⟩
    | ok raw => exact ⟨_, rfl, rfl, rfl, fun k other => set_other _ _ _ _ other⟩
  · have hit : evaluate answer fromRedis w = some (.ok v, w) := by
      unfold fromRedis
      rw [evaluate_redis]
      dsimp only [RedisCmd.run]
      rw [get_forever itoa held]
      dsimp only [fromStore]
      rw [decodes]
      rfl
    have seen : settingsSeen w = v := by simp [settingsSeen, held, decodes]
    unfold VotingSettings.getStatus
    rw [evaluate_then hit, seen]
    exact ⟨w, rfl, rfl, rfl, fun _ _ => rfl⟩

theorem isVotingOpen_sees (cached : Cached w) : ∃ w', evaluate answer isVotingOpen w =
    some (.ok (effectivelyOpen (settingsSeen w) w.clock), w') ∧ Looked w w' := by
  obtain ⟨w', status, looked⟩ := getStatus_sees cached
  refine ⟨w', ?_, looked⟩
  unfold isVotingOpen
  rw [evaluate_then status]
  dsimp only
  cases opened : (settingsSeen w).isOpen with
  | false => simp [effectivelyOpen, opened]
  | true =>
    cases ends : (settingsSeen w).endsAt with
    | none => simp [effectivelyOpen, opened, ends]
    | some t =>
      simp only [↓reduceIte]
      rw [evaluate_now, looked.clock]
      simp [effectivelyOpen, opened, ends]

theorem blocked_evaluates (email : Str) : evaluate answer (isEmailBlocked email) w =
    some (.ok (w.redis.lookup w.clock (otpBlockedKey email)).isSome, w) := by
  unfold isEmailBlocked
  rw [evaluate_redis]
  dsimp only [RedisCmd.run]
  rw [Store.present]
  cases w.redis.lookup w.clock (otpBlockedKey email) <;> rfl

theorem verify_redeems {email code fp : Str} {id : Int} (redeemable : Redeemable w email code fp id) :
    ∃ w', evaluate answer (OtpService.verify email code) w = some (.ok (fp, id), w') := by
  obtain ⟨stored, held, decodes⟩ := redeemable.record
  unfold OtpService.verify
  rw [evaluate_then (blocked_evaluates email), redeemable.unblocked]
  dsimp only [Option.isSome_none]
  rw [evaluate_redis]
  dsimp only [RedisCmd.run]
  rw [held]
  dsimp only [fromStore]
  rw [decodes]
  simp only [ne_eq, not_true_eq_false, ↓reduceIte]
  rw [evaluate_redis]
  exact ⟨_, rfl⟩

theorem redeemable_of_verify {email code fp : Str} {id : Int} {w' : World}
    (evaluated : evaluate answer (OtpService.verify email code) w = some (.ok (fp, id), w')) :
    Redeemable w email code fp id := by
  unfold OtpService.verify at evaluated
  rw [evaluate_then (blocked_evaluates email)] at evaluated
  cases blocked : w.redis.lookup w.clock (otpBlockedKey email) with
  | some e =>
    rw [blocked] at evaluated
    cases evaluated
  | none =>
    rw [blocked] at evaluated
    dsimp only [Option.isSome_none] at evaluated
    rw [evaluate_redis] at evaluated
    dsimp only [RedisCmd.run] at evaluated
    cases held : w.redis.get itoa w.clock (otpKey email) with
    | error err =>
      rw [held] at evaluated
      dsimp only [fromStore] at evaluated
      split at evaluated <;> cases evaluated
    | ok stored =>
      rw [held] at evaluated
      dsimp only [fromStore] at evaluated
      exact ⟨blocked, stored, held, judge_accepts evaluated⟩

theorem insertVote_done {db : Db} {email fp ip userAgent : Str} {id : Int}
    (fits : Fits email fp ip userAgent) (new_email : ∀ v ∈ db.votes, v.voterEmail ≠ email)
    (new_fingerprint : ∀ v ∈ db.votes, v.voterFingerprint ≠ fp)
    (candidate : ∃ c ∈ db.candidates, c.id = id) (now : Nat) :
    db.insertVote now email fp id ip userAgent = (.ok (), { db with
      votes := db.votes ++ [db.newVote now email fp id ip userAgent]
      nextVote := db.nextVote + 1 }) := by
  obtain ⟨email_fits, fp_fits, ip_fits, agent_fits⟩ := fits
  have other_email : ¬ (db.votes.any fun v => v.voterEmail = email) = true := by
    simpa using new_email
  have other_fp : ¬ (db.votes.any fun v => v.voterFingerprint = fp) = true := by
    simpa using new_fingerprint
  have there : (db.candidates.any fun c => c.id = id) = true := by simpa using candidate
  unfold Db.insertVote
  rw [if_neg (by omega), if_neg (by omega), if_neg (by omega), if_neg (by omega),
    if_neg other_email, if_neg other_fp, if_pos there]

theorem fits_of_insert {db db' : Db} {now : Nat} {email fp ip userAgent : Str} {id : Int}
    (inserted : db.insertVote now email fp id ip userAgent = (.ok (), db')) :
    Fits email fp ip userAgent := by
  unfold Db.insertVote at inserted
  split at inserted
  · cases inserted
  · split at inserted
    · cases inserted
    · split at inserted
      · cases inserted
      · split at inserted
        · cases inserted
        · constructor <;> omega

theorem redis_db (v : World) (c : Cmd) (x : Reply c × World) (sent : BroadcastCmd c)
    (answered : answer v c = some x) : x.2.db = v.db := by
  cases sent <;> cases answered <;> rfl

theorem verify_db (email : Str) (v : World) (c : Cmd) (x : Reply c × World)
    (sent : VerifyCmd email c) (answered : answer v c = some x) :
    (x.2.db, x.2.clock) = (v.db, v.clock) := by
  cases sent <;> cases answered <;> rfl

theorem payload_determined : ∀ c, PayloadCmd c → Determined c := by
  intro c sent
  cases sent <;> trivial

theorem vote_determined (email : Str) : ∀ c, VoteCmd email c → Determined c := by
  intro c sent
  cases sent <;> trivial

/-- The call is answered 200 and has inserted one row. -/
def Accepted (w w' : World) (r : Response) : Prop :=
  r.status = 200 ∧ ∃ v, w'.db.votes = w.db.votes ++ [v]

/- After the check of the settings a vote goes in if and only if nothing stands against it. -/
theorem verifyAndVote_accepts {email code ip userAgent : Str} {r : Option GoErr} {w' : World}
    (evaluated : evaluate answer (VoteService.verifyAndVote email code ip userAgent) w = some (r, w')) :
    (r = none ∧ ∃ v, w'.db.votes = w.db.votes ++ [v]) ↔
      ∃ fp id, Votable w email code fp id ∧ Fits email fp ip userAgent := by
  unfold VoteService.verifyAndVote at evaluated
  rw [evaluate_bind, Option.bind_eq_some_iff] at evaluated
  obtain ⟨⟨found, w₁⟩, verified, rest⟩ := evaluated
  obtain ⟨db, clock⟩ := Prod.mk.inj (evaluate_keeps (fun w => (w.db, w.clock)) (verify_db email)
    (verify_issues email code) verified)
  dsimp only at db clock rest
  constructor
  · rintro ⟨rfl, v, inserted⟩
    rcases found with err | ⟨fp, id⟩
    · cases rest
    · have redeemable := redeemable_of_verify verified
      dsimp only at rest
      rw [evaluate_sql] at rest
      dsimp only [SqlCmd.run] at rest
      rcases insertVote_cases w₁.db w₁.clock email fp id ip userAgent with
        ⟨err, refused⟩ | ⟨new_email, new_fingerprint, candidate, done⟩
      · rw [refused] at rest
        dsimp only at rest
        split at rest <;> cases rest
      · rw [db] at new_email new_fingerprint candidate
        exact ⟨fp, id, ⟨redeemable, new_email, new_fingerprint, candidate⟩, fits_of_insert done⟩
  · rintro ⟨fp, id, votable, fits⟩
    obtain ⟨w₂, redeems⟩ := verify_redeems votable.redeemable
    rw [redeems, Option.some.injEq, Prod.mk.injEq] at verified
    obtain ⟨rfl, rfl⟩ := verified
    dsimp only at rest
    rw [evaluate_sql] at rest
    dsimp only [SqlCmd.run] at rest
    have inserted := insertVote_done fits votable.new_email votable.new_fingerprint votable.candidate
      w₂.clock
    rw [db, inserted] at rest
    dsimp only at rest
    rw [evaluate_bind, Option.bind_eq_some_iff] at rest
    obtain ⟨y, sent, ends⟩ := rest
    cases ends
    have kept := evaluate_keeps World.db redis_db broadcastPayload_issues sent
    refine ⟨rfl, w.db.newVote w₂.clock email fp id ip userAgent, ?_⟩
    rw [kept]

/- A look at the settings changes nothing for the voter. -/
theorem votable_looked {w' : World} (looked : Looked w w') {email code fp : Str} {id : Int} :
    Votable w' email code fp id ↔ Votable w email code fp id := by
  have blocked : w'.redis.lookup w'.clock (otpBlockedKey email) =
      w.redis.lookup w.clock (otpBlockedKey email) := by
    rw [looked.clock]
    exact lookup_congr (looked.keys _ (by simp)) _
  have record : w'.redis.get itoa w'.clock (otpKey email) = w.redis.get itoa w.clock (otpKey email) := by
    rw [looked.clock, Store.get, Store.get, lookup_congr (looked.keys _ (by simp))]
  constructor
  · rintro ⟨⟨unblocked, held⟩, new_email, new_fingerprint, candidate⟩
    rw [blocked] at unblocked
    rw [record] at held
    rw [looked.db] at new_email new_fingerprint candidate
    exact ⟨⟨unblocked, held⟩, new_email, new_fingerprint, candidate⟩
  · rintro ⟨⟨unblocked, held⟩, new_email, new_fingerprint, candidate⟩
    rw [← blocked] at unblocked
    rw [← record] at held
    rw [← looked.db] at new_email new_fingerprint candidate
    exact ⟨⟨unblocked, held⟩, new_email, new_fingerprint, candidate⟩

theorem verifyVote_accepts {cfg : Config} (cached : Cached w) {ip userAgent : Str}
    {body : Except Str VerifyVoteRequest} {req : VerifyVoteRequest}
    (well_formed : bindBody (VerifyVoteRequest.check cfg) body = .ok req) {r : Response} {w' : World}
    (evaluated : evaluate answer (Handlers.verifyVote cfg ip userAgent body) w = some (r, w')) :
    Accepted w w' r ↔ effectivelyOpen (settingsSeen w) w.clock = true ∧ ∃ fp id,
      Votable w (normalizeEmail cfg req.email) req.otp fp id ∧
        Fits (normalizeEmail cfg req.email) fp ip userAgent := by
  obtain ⟨w₁, opened, looked⟩ := isVotingOpen_sees cached
  unfold Handlers.verifyVote at evaluated
  rw [evaluate_then opened] at evaluated
  cases is_open : effectivelyOpen (settingsSeen w) w.clock with
  | false =>
    rw [is_open] at evaluated
    cases evaluated
    constructor
    · rintro ⟨ok, -⟩
      cases ok
    · rintro ⟨ok, -⟩
      cases ok
  | true =>
    rw [is_open] at evaluated
    dsimp only at evaluated
    rw [well_formed] at evaluated
    dsimp only at evaluated
    rw [evaluate_bind, Option.bind_eq_some_iff] at evaluated
    obtain ⟨⟨voted, w₂⟩, votes, ends⟩ := evaluated
    cases ends
    have accepts := verifyAndVote_accepts votes
    simp only [votable_looked looked, looked.db] at accepts
    rw [Accepted, answerVerified_ok, accepts]
    simp

end Evaluating

/-- The request is to be accepted: voting is open by the row, and nothing stands against it. -/
def Acceptable (w : World) (email code : Str) : Prop :=
  effectivelyOpen w.db.settings w.clock = true ∧ ∃ fp id, Votable w email code fp id

/-- Whenever the email can vote, voting is open if and only if Redis shows it open and the values
fit their columns. -/
def Unhindered (w : World) (email code ip userAgent : Str) : Prop := ∀ fp id,
  Votable w email code fp id → (effectivelyOpen w.db.settings w.clock = true ↔
    effectivelyOpen (settingsSeen w) w.clock = true ∧ Fits email fp ip userAgent)

theorem one_record {w : World} {email code fp fp' : Str} {id id' : Int}
    (first : Votable w email code fp id) (second : Votable w email code fp' id') :
    fp' = fp ∧ id' = id := by
  obtain ⟨stored, held, decodes⟩ := first.redeemable.record
  obtain ⟨stored', held', decodes'⟩ := second.redeemable.record
  rw [held, Except.ok.injEq] at held'
  rw [← held', decodes] at decodes'
  cases decodes'
  exact ⟨rfl, rfl⟩

theorem cached_of_run {cfg : Config} {allow : State → Move → Bool} {seed : Seed} {s : State}
    (run : Reaches (server cfg) allow seed.start s) : Cached s.world := by
  rcases cached_from run with absent | ⟨raw, v, newer, set, mid, select, oldest, source, held⟩
  · exact Or.inl absent
  · have at_select : s.log = (newer ++ set :: mid) ++ select :: oldest := by rw [source.order]; simp
    have storable := (selected_row run at_select source.selects).2.2
    exact Or.inr ⟨raw, v, held, unmarshal_marshal storable source.marshalled⟩

theorem verifyVote_determined (cfg : Config) (ip userAgent : Str)
    (body : Except Str VerifyVoteRequest) :
    (Handlers.verifyVote cfg ip userAgent body).Issues Determined := by
  apply issues_bind (issues_mono isVotingOpen_issues payload_determined)
  intro opened
  rcases opened with err | open_
  · trivial
  · cases open_ with
    | false => trivial
    | true =>
      dsimp only
      cases bindBody (VerifyVoteRequest.check cfg) body with
      | error details => trivial
      | ok req =>
        apply issues_bind (issues_mono (verifyAndVote_issues _ _ _ _) (vote_determined _))
        intro voted
        trivial

/- For every reachable state and every well-formed request, executed alone without faults: it comes
   to an answer, and it is accepted exactly when it is to be if and only if it is unhindered. -/
theorem acceptance_exact {cfg : Config} {allow : State → Move → Bool} {seed : Seed} {s : State}
    (run : Reaches (server cfg) allow seed.start s) (ip userAgent : Str)
    {body : Except Str VerifyVoteRequest} {req : VerifyVoteRequest}
    (well_formed : bindBody (VerifyVoteRequest.check cfg) body = .ok req) :
    (∃ r w' later, Executes cfg s.world (Handlers.verifyVote cfg ip userAgent body) r w' later) ∧
      ∀ r w' later, Executes cfg s.world (Handlers.verifyVote cfg ip userAgent body) r w' later →
        ((Accepted s.world w' r ↔ Acceptable s.world (normalizeEmail cfg req.email) req.otp) ↔
          Unhindered s.world (normalizeEmail cfg req.email) req.otp ip userAgent) := by
  have uses := verifyVote_determined cfg ip userAgent body
  refine ⟨executes_of_issues cfg uses s.world, ?_⟩
  intro r w' later executed
  obtain ⟨x, evaluated⟩ := evaluates_of_issues determined_answer uses (bare s.world)
  obtain rfl := solo_evaluates (server_settles cfg) executed evaluated
  have looked : Looked s.world (bare s.world) := ⟨rfl, rfl, fun _ _ => rfl⟩
  have accepts : Accepted s.world w' r ↔
      effectivelyOpen (settingsSeen s.world) s.world.clock = true ∧ ∃ fp id,
        Votable (bare s.world) (normalizeEmail cfg req.email) req.otp fp id ∧
          Fits (normalizeEmail cfg req.email) fp ip userAgent := by
    have from_bare := verifyVote_accepts (w := bare s.world) (cached_of_run run) well_formed evaluated
    exact from_bare
  simp only [votable_looked looked] at accepts
  rw [accepts]
  constructor
  · intro exact_ fp id votable
    constructor
    · intro is_open
      obtain ⟨seen, fp', id', votable', fits⟩ := exact_.mpr ⟨is_open, fp, id, votable⟩
      obtain ⟨rfl, rfl⟩ := one_record votable votable'
      exact ⟨seen, fits⟩
    · rintro ⟨seen, fits⟩
      exact (exact_.mp ⟨seen, fp, id, votable, fits⟩).1
  · intro unhindered
    constructor
    · rintro ⟨seen, fp, id, votable, fits⟩
      exact ⟨(unhindered fp id votable).mpr ⟨seen, fits⟩, fp, id, votable⟩
    · rintro ⟨is_open, fp, id, votable⟩
      obtain ⟨seen, fits⟩ := (unhindered fp id votable).mp is_open
      exact ⟨seen, fp, id, votable, fits⟩

/-- A code is asked for with a fingerprint of n characters. -/
def askedWith (n : Nat) : List Move :=
  .start (.requestOTP "10.0.0.1".toList
    (.ok ⟨"ann@gmail.com".toList, List.replicate n 'x', "token".toList, 1⟩)) :: runs 0 14

def readyToVote (n : Nat) : State := after (server devConfig) anySchedule twoCandidates.start (askedWith n)

def annsVote : Except Str VerifyVoteRequest := .ok ⟨"ann@gmail.com".toList, "100000".toList⟩

/- A record, in a form that can be computed. -/
theorem record_read {w : World} {key : Str} {d : Decoded}
    (record : (w.redis.get itoa w.clock key).toOption.map decodeRecord = some d) :
    ∃ stored, w.redis.get itoa w.clock key = .ok stored ∧ decodeRecord stored = d := by
  obtain ⟨stored, held, decodes⟩ := Option.map_eq_some_iff.mp record
  refine ⟨stored, ?_, decodes⟩
  cases found : w.redis.get itoa w.clock key with
  | error err =>
    rw [found] at held
    cases held
  | ok text =>
    rw [found] at held
    cases held
    rfl

/- The first voter, in a form that can be computed. -/
theorem first_votable {w : World} {email code fp : Str} {id : Int}
    (unblocked : (w.redis.lookup w.clock (otpBlockedKey email)).isNone = true)
    (record : (w.redis.get itoa w.clock (otpKey email)).toOption.map decodeRecord =
      some (.record code id fp))
    (no_votes : w.db.votes = []) (candidate : (w.db.candidates.any fun c => c.id = id) = true) :
    Votable w email code fp id := by
  refine ⟨⟨Option.isNone_iff_eq_none.mp unblocked, record_read record⟩, ?_, ?_, ?_⟩
  · simp [no_votes]
  · simp [no_votes]
  · simpa using candidate

theorem ready_reached (n : Nat)
    (runs : (exec (server devConfig) anySchedule twoCandidates.start (askedWith n)).isSome = true) :
    Reaches (server devConfig) anySchedule twoCandidates.start (readyToVote n) := reaches_after runs

/- With an ordinary fingerprint the request is accepted. -/
theorem acceptance_exact_short : ∃ r w' later,
    Executes devConfig (readyToVote 3).world
      (Handlers.verifyVote devConfig "10.0.0.1".toList [] annsVote) r w' later ∧
        Accepted (readyToVote 3).world w' r := by
  have votable : Votable (readyToVote 3).world "ann@gmail.com".toList "100000".toList
      (List.replicate 3 'x') 1 :=
    first_votable (by decide +kernel) (by decide +kernel) (by decide +kernel) (by decide +kernel)
  have is_open : effectivelyOpen (readyToVote 3).world.db.settings (readyToVote 3).world.clock = true := by
    decide +kernel
  have seen : effectivelyOpen (settingsSeen (readyToVote 3).world) (readyToVote 3).world.clock = true := by
    decide +kernel
  have same : normalizeEmail devConfig "ann@gmail.com".toList = "ann@gmail.com".toList := by
    decide +kernel
  have well_formed : bindBody (VerifyVoteRequest.check devConfig) annsVote =
      .ok ⟨"ann@gmail.com".toList, "100000".toList⟩ := by
    have valid : VerifyVoteRequest.check devConfig ⟨"ann@gmail.com".toList, "100000".toList⟩ = [] := by
      decide +kernel
    rw [annsVote, bindBody, if_pos valid]
  obtain ⟨⟨r, w', later, executed⟩, exact_⟩ := acceptance_exact
    (ready_reached 3 (by decide +kernel)) "10.0.0.1".toList [] well_formed
  refine ⟨r, w', later, executed, ?_⟩
  apply ((exact_ r w' later executed).mpr _).mpr
  · rw [same]
    exact ⟨is_open, _, _, votable⟩
  · rw [same]
    intro fp id other
    obtain ⟨rfl, rfl⟩ := one_record votable other
    constructor
    · intro _
      exact ⟨seen, by decide, by decide, by decide, by decide⟩
    · intro _
      exact is_open

/- With a fingerprint of 256 characters the code was sent, but it cannot be redeemed. -/
theorem long_fingerprint_refused : ∃ s r w' later,
    Reaches (server devConfig) anySchedule twoCandidates.start s ∧
      Executes devConfig s.world (Handlers.verifyVote devConfig "10.0.0.1".toList [] annsVote) r w' later ∧
        Acceptable s.world "ann@gmail.com".toList "100000".toList ∧
          r.status = 500 ∧ w'.db.votes = [] := by
  have votable : Votable (readyToVote 256).world "ann@gmail.com".toList "100000".toList
      (List.replicate 256 'x') 1 :=
    first_votable (by decide +kernel) (by decide +kernel) (by decide +kernel) (by decide +kernel)
  have is_open : effectivelyOpen (readyToVote 256).world.db.settings
      (readyToVote 256).world.clock = true := by decide +kernel
  have refused : (evaluate answer (Handlers.verifyVote devConfig "10.0.0.1".toList [] annsVote)
      (bare (readyToVote 256).world)).map (fun x => (x.1.status, x.2.db.votes)) = some (500, []) := by
    decide +kernel
  have reached := ready_reached 256 (by decide +kernel)
  generalize readyToVote 256 = s at votable is_open refused reached
  obtain ⟨x, evaluated, outcome⟩ := Option.map_eq_some_iff.mp refused
  obtain ⟨w', later, executed⟩ := solo_exists (server_settles devConfig) (server_goes devConfig) evaluated
  have same : x = (x.1, bare w') := solo_evaluates (server_settles devConfig) executed evaluated
  have left : x.2.db = w'.db := congrArg (fun p => p.2.db) same
  obtain ⟨status, votes⟩ := Prod.mk.inj outcome
  rw [left] at votes
  exact ⟨s, x.1, w', later, reached, executed, ⟨is_open, _, _, votable⟩, status, votes⟩

end VoteAcceptance
