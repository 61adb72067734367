import VotingApp.EmailBlock

/-!
A stored code and the Verify calls that succeed with it. Verify reads the record in one
command and removes it in the next; two calls that read it before either removes it both
succeed.
-/
namespace SingleUse
open GoText GoTime Tables EffectProgram CallPool PoolHistory ExpiringStore VotingWorld
open OtpService VotingSettings VoteService CustomDomains Handlers VotingServer
open Footprints Frames OtpRecords Provenance SettingsCache EmailBlock

/-- The last thing a call has done is to read a record with the code that it presents. -/
def Hit (cfg : Config) (req : Call) (email : Str) (past : History) : Prop :=
  ∃ otp stored id fp rest, guesses cfg req = some (email, otp) ∧
    past = ⟨.redis (.get (otpKey email)), .ok stored⟩ :: rest ∧
      decodeRecord stored = .record otp id fp

/-- The removal directly follows a read with the right code, and nothing else follows it. -/
def HitRule (cfg : Config) (req : Call) (past : History) (c : Cmd) : Prop :=
  (∀ e, Hit cfg req e past → c = clear e) ∧ ∀ e key stored rest, c = clear e →
    past = ⟨.redis (.get key), .ok stored⟩ :: rest → Hit cfg req e past

def NoHit (cfg : Config) (req : Call) (past : History) : Prop := ∀ e, ¬ Hit cfg req e past

section Rule
variable {cfg : Config} {req : Call}

theorem no_hit_cons {c : Cmd} (no_read : ∀ e, c ≠ .redis (.get (otpKey e))) (r : Reply c)
    (past : History) : NoHit cfg req (⟨c, r⟩ :: past) := by
  intro e hit
  obtain ⟨otp, stored, id, fp, rest, -, same, -⟩ := hit
  have head := (List.cons.inj same).1
  exact no_read e (congrArg Exchange.cmd head)

theorem hit_free {past : History} {c : Cmd} (none_pending : NoHit cfg req past)
    (other : ∀ e, c ≠ clear e) : HitRule cfg req past c := by
  constructor
  · intro e hit
    exact absurd hit (none_pending e)
  · intro e key stored rest same
    exact absurd same (other e)

theorem hit_neutral {c : Cmd} (other : ∀ e, c ≠ clear e)
    (no_read : ∀ e, c ≠ .redis (.get (otpKey e))) :
    Neutral (HitRule cfg req) (NoHit cfg req) c := by
  intro past none_pending
  constructor
  · exact hit_free none_pending other
  · intro r
    exact no_hit_cons no_read r past

/- Counting a failure, whatever was read before, is no removal after a read. -/
theorem recordFailure_hits (email : Str) :
    (recordFailure email).Keeps (HitRule cfg req) (NoHit cfg req) := by
  have blocking : (blockEmail email).Keeps (HitRule cfg req) (NoHit cfg req) := by
    intro past none_pending
    apply meets_redis
    · exact hit_free none_pending (by simp [clear])
    · intro r
      have after : NoHit cfg req (⟨block email, r⟩ :: past) := by
        apply no_hit_cons
        simp [block]
      apply meets_redis
      · constructor
        · intro e hit
          exact absurd hit (after e)
        · intro e key stored rest _ same
          cases (List.cons.inj same).1
      · intro r'
        exact no_hit_cons (c := clear email) (by simp [clear]) r' _
  intro past none_pending
  apply meets_redis
  · exact hit_free none_pending (by simp [clear])
  · intro r
    have after : NoHit cfg req (⟨count email, r⟩ :: past) := by
      apply no_hit_cons
      simp [count]
    cases r with
    | error err => exact after
    | ok attempts =>
      dsimp only
      split
      · apply keeps_redis (I := NoHit cfg req) _ _ _ after
        · exact hit_neutral (by simp [clear]) (by simp)
        · intro r
          split
          · exact blocking
          · exact keeps_done _
      · split
        · exact blocking _ after
        · exact after

theorem verify_hits {email otp : Str} (guessed : guesses cfg req = some (email, otp)) :
    (OtpService.verify email otp).Keeps (HitRule cfg req) (NoHit cfg req) := by
  have reject := rejectGuess_keeps (@recordFailure_hits cfg req email)
  intro past none_pending
  apply meets_bind (Q := fun now _ => NoHit cfg req now)
  · apply meets_redis
    · exact hit_free none_pending (by simp [clear])
    · intro r
      have looked : NoHit cfg req (⟨.redis (.exists (otpBlockedKey email)), r⟩ :: past) := by
        apply no_hit_cons
        simp
      cases r <;> exact looked
  · intro now blocked none_pending
    rcases blocked with err | blocked
    · exact none_pending
    · cases blocked with
      | true => exact none_pending
      | false =>
        apply meets_redis
        · exact hit_free none_pending (by simp [clear])
        · intro r
          have missed_of : ∀ {x : Except GoErr Str}, (∀ stored id fp, x = .ok stored →
              decodeRecord stored ≠ .record otp id fp) →
              NoHit cfg req (⟨.redis (.get (otpKey email)), x⟩ :: now) := by
            intro x other e hit
            obtain ⟨otp', stored, id, fp, rest, guessed', same, decoded⟩ := hit
            rw [guessed, Option.some.injEq, Prod.mk.injEq] at guessed'
            obtain ⟨rfl, rfl⟩ := guessed'
            have head := (List.cons.inj same).1
            cases head
            exact other stored id fp rfl decoded
          cases r with
          | error err =>
            have nothing : NoHit cfg req (⟨.redis (.get (otpKey email)), .error err⟩ :: now) :=
              missed_of fun stored id fp same => absurd same (by simp)
            dsimp only
            split <;> exact nothing
          | ok stored =>
            have missed : (∀ id fp, decodeRecord stored ≠ .record otp id fp) →
                NoHit cfg req (⟨.redis (.get (otpKey email)), .ok stored⟩ :: now) := by
              intro other
              apply missed_of
              intro stored' id fp same
              cases same
              exact other id fp
            dsimp only
            split
            · rename_i decoded
              apply meets_bind (recordFailure_hits email _ (missed (by simp [decoded])))
              intro now r kept
              exact kept
            · rename_i storedOTP decoded
              split
              · exact reject _ (missed (by simp [decoded]))
              · apply meets_bind (recordFailure_hits email _ (missed (by simp [decoded])))
                intro now r kept
                exact kept
            · rename_i storedOTP candidateID fingerprint decoded
              split
              · rename_i wrong
                apply reject _ (missed _)
                intro id fp same
                rw [decoded, Decoded.record.injEq] at same
                exact wrong same.1
              · rename_i same_code
                have code : storedOTP = otp := not_not.mp same_code
                subst storedOTP
                have hit : Hit cfg req email
                    (⟨.redis (.get (otpKey email)), .ok stored⟩ :: now) :=
                  ⟨otp, stored, candidateID, fingerprint, now, guessed, rfl, decoded⟩
                apply meets_redis
                · constructor
                  · intro e hit'
                    obtain ⟨otp', _, _, _, _, guessed', -, -⟩ := hit'
                    rw [guessed, Option.some.injEq, Prod.mk.injEq] at guessed'
                    rw [← guessed'.1]
                    rfl
                  · intro e key stored' rest cleared _
                    have same : email = e := by simpa [clear] using cleared
                    rw [← same]
                    exact hit
                · intro r
                  exact no_hit_cons (c := clear email) (by simp [clear]) r _

theorem update_hits : ∀ c, UpdateCmd c → Neutral (HitRule cfg req) (NoHit cfg req) c := by
  intro c sent
  cases sent <;> exact hit_neutral (by simp [clear]) (by simp)

theorem domain_hits : ∀ c, DomainCmd c → Neutral (HitRule cfg req) (NoHit cfg req) c := by
  intro c sent
  cases sent <;> exact hit_neutral (by simp [clear]) (by simp)

theorem hit_respected (cfg : Config) (req : Call) :
    Respected cfg req (HitRule cfg req) (NoHit cfg req) := by
  apply respected_of_verify
  · intro c sent
    cases sent <;> exact hit_neutral (by simp [clear]) (by simp)
  · exact update_hits
  · intro email c sent
    cases sent <;> exact hit_neutral (by simp [clear]) (by simp)
  · intro email otp guessed
    exact verify_hits guessed
  · intro email fp id ip userAgent
    exact hit_neutral (by simp [clear]) (by simp)
  · intro id c sent
    cases sent <;> exact hit_neutral (by simp [clear]) (by simp)
  · exact domain_hits

end Rule

/-- The event reads a record with the code that its call presents. -/
def HitEvent (cfg : Config) (s : State) (email : Str) (ev : LogEntry) : Prop :=
  ∃ job, s.jobs[ev.caller]? = some job ∧ Hit cfg job.req email [ev.exchange]

/-- The event wrote a record of the email and it is there when the later one reads it. -/
structure ReadsRecord (s : State) (email : Str) (late : Log) (read : LogEntry) (mid : Log)
    (store : LogEntry) (older : Log) : Prop where
  order : s.log = late ++ read :: (mid ++ store :: older)
  stores : ∃ value, store.cmd = .redis (.set (otpKey email) value otpTTL)
  took : TookEffect store
  reads : ∃ stored, read.exchange = ⟨.redis (.get (otpKey email)), .ok stored⟩
  since : ∀ ev ∈ mid, ¬ Wrote (otpKey email) ev

/-- The Verify of this call has succeeded with the record that was stored at this place of the
log: it has read it and its next command was the removal. -/
def Uses (s : State) (email : Str) (store : LogEntry) (older : Log) (i : Nat) : Prop :=
  ∃ late read mid newer r, ReadsRecord s email late read mid store older ∧ read.caller = i ∧
    own i late = newer ++ [⟨clear email, r⟩]

/-- Each record makes at most one Verify call succeed. -/
def UsedOnce (s : State) (email : Str) : Prop := ∀ store older i j,
  Uses s email store older i → Uses s email store older j → i = j

/-- Two calls read a record with its code, and nobody writes the key in between. -/
def ReadTwice (cfg : Config) (s : State) (email : Str) : Prop := ∃ late second mid first older,
  s.log = late ++ second :: (mid ++ first :: older) ∧ second.caller ≠ first.caller ∧
    HitEvent cfg s email second ∧ HitEvent cfg s email first ∧ ∀ ev ∈ mid, ¬ Wrote (otpKey email) ev

theorem hit_head {cfg : Config} {req : Call} {email : Str} {x : Exchange Cmd Reply}
    {rest rest' : History} (hit : Hit cfg req email (x :: rest)) : Hit cfg req email (x :: rest') := by
  obtain ⟨otp, stored, id, fp, tail, guessed, same, decoded⟩ := hit
  obtain ⟨rfl, -⟩ := List.cons.inj same
  exact ⟨otp, stored, id, fp, rest', guessed, rfl, decoded⟩

section Runs
variable {cfg : Config} {allow : State → Move → Bool} {seed : Seed} {s : State}

theorem hit_rule (run : Reaches (server cfg) allow seed.start s) {late older : Log} {ev : LogEntry}
    (split : s.log = late ++ ev :: older) : ∃ job, s.jobs[ev.caller]? = some job ∧
      HitRule cfg job.req (own ev.caller older) ev.cmd :=
  contract_of_logged (fun req => program_keeps (hit_respected cfg req) []
    fun e hit => by
      obtain ⟨_, _, _, _, _, _, same, _⟩ := hit
      cases same) rfl rfl run split

/- A call whose next command is the removal has read the record with its code. -/
theorem uses_hit (run : Reaches (server cfg) allow seed.start s) {email : Str} {store read : LogEntry}
    {late mid older : Log} {newer : History} {r : Except GoErr Unit}
    (source : ReadsRecord s email late read mid store older)
    (next : own read.caller late = newer ++ [⟨clear email, r⟩]) : HitEvent cfg s email read := by
  obtain ⟨stored, reads⟩ := source.reads
  obtain ⟨late', ev, early, rfl, mine, cleared, -, nothing⟩ := own_member_split next
  have at_ev : s.log = late' ++ ev :: (early ++ read :: (mid ++ store :: older)) := by
    rw [source.order]
    simp
  obtain ⟨job, at_job, -, only⟩ := hit_rule run at_ev
  refine ⟨job, by rw [← mine]; exact at_job, ?_⟩
  have past : own ev.caller (early ++ read :: (mid ++ store :: older)) =
      ⟨.redis (.get (otpKey email)), .ok stored⟩ :: own read.caller (mid ++ store :: older) := by
    rw [mine, own_append, nothing]
    simp [own, reads]
  rw [past] at only
  rw [reads]
  exact hit_head (only email (otpKey email) stored _ (congrArg Exchange.cmd cleared) rfl)

/- Two calls that succeed with one record have read it twice. -/
theorem used_once (run : Reaches (server cfg) allow seed.start s) {email : Str}
    (apart : ¬ ReadTwice cfg s email) : UsedOnce s email := by
  intro store older i j uses_i uses_j
  obtain ⟨late, read, mid, newer, r, source, rfl, next⟩ := uses_i
  obtain ⟨late', read', mid', newer', r', source', rfl, next'⟩ := uses_j
  have hit := uses_hit run source next
  have hit' := uses_hit run source' next'
  rcases split_cases (source.order.symm.trans source'.order) with
    ⟨-, same, -⟩ | ⟨between, -, rest⟩ | ⟨between, -, rest⟩
  · rw [same]
  · have parts : mid = between ++ read' :: mid' := List.append_cancel_right
      (show mid ++ store :: older = (between ++ read' :: mid') ++ store :: older by rw [rest]; simp)
    by_contra apart_callers
    refine apart ⟨late, read, between, read', mid' ++ store :: older, ?_, apart_callers, hit, hit', ?_⟩
    · rw [source.order, rest]
    · intro ev member
      exact source.since ev (by rw [parts]; exact List.mem_append_left _ member)
  · have parts : mid' = between ++ read :: mid := List.append_cancel_right
      (show mid' ++ store :: older = (between ++ read :: mid) ++ store :: older by rw [rest]; simp)
    by_contra apart_callers
    refine apart ⟨late', read', between, read, mid ++ store :: older, ?_, Ne.symm apart_callers, hit',
      hit, ?_⟩
    · rw [source'.order, rest]
    · intro ev member
      exact source'.since ev (by rw [parts]; exact List.mem_append_left _ member)

/- Once its call has returned, a read with the right code has been followed by the removal. -/
theorem hit_followed (run : Reaches (server cfg) allow seed.start s)
    (finished : ∀ job ∈ s.jobs, isFinished job = true) {late older : Log} {ev : LogEntry}
    (split : s.log = late ++ ev :: older) {email : Str} (hit : HitEvent cfg s email ev) :
    ∃ newer r, own ev.caller late = newer ++ [⟨clear email, r⟩] := by
  obtain ⟨job, at_job, is_hit⟩ := hit
  rcases own_next late older ev with nothing | ⟨newer, next, mid, at_late, mine, skipped, past⟩
  · have history : job.past = ev.exchange :: own ev.caller older := by
      rw [past_of_job rfl rfl run at_job, split, own_append, nothing]
      simp [own]
    have member := List.mem_of_getElem? at_job
    have held := contract_of_job (fun req => program_keeps (hit_respected cfg req) []
      fun e hit => by
        obtain ⟨_, _, _, _, _, _, same, _⟩ := hit
        cases same) rfl run job member
    cases rest : job.rest with
    | call c next =>
      have done := finished job member
      simp [isFinished, rest] at done
    | done a =>
      rw [rest, meets_done, history] at held
      exact absurd (hit_head is_hit) (held email)
  · have at_next : s.log = newer ++ next :: (mid ++ ev :: older) := by rw [split, at_late]; simp
    obtain ⟨job', at_job', forced, -⟩ := hit_rule run at_next
    rw [mine, at_job, Option.some.injEq] at at_job'
    subst job'
    rw [mine, past] at forced
    obtain ⟨r, exchange⟩ := exchange_of_cmd (forced email (hit_head is_hit))
    refine ⟨own ev.caller newer, r, ?_⟩
    rw [at_late, own_append]
    simp [own, mine, skipped, exchange]

/- Two calls that have read one record with its code both succeed with it. -/
theorem twice_used (run : Reaches (server cfg) allow seed.start s)
    (finished : ∀ job ∈ s.jobs, isFinished job = true) {email : Str}
    (twice : ReadTwice cfg s email) : ¬ UsedOnce s email := by
  intro once
  obtain ⟨late, second, mid, first, older, split, apart, hit_second, hit_first, since⟩ := twice
  have at_first : s.log = (late ++ second :: mid) ++ first :: older := by rw [split]; simp
  have reads : ∀ ev, HitEvent cfg s email ev →
      ∃ stored, ev.exchange = ⟨.redis (.get (otpKey email)), .ok stored⟩ := by
    intro ev hit
    obtain ⟨job, -, otp, stored, id, fp, rest, -, same, -⟩ := hit
    exact ⟨stored, (List.cons.inj same).1⟩
  obtain ⟨stored, exchange⟩ := reads first hit_first
  obtain ⟨between, store, oldest, otp, fp, id, rfl, is_stored, idle, -, -⟩ :=
    read_was_stored run at_first exchange
  have no_write : ¬ Wrote (otpKey email) first := by
    intro wrote
    rw [Wrote, show first.cmd = _ from congrArg Exchange.cmd exchange] at wrote
    exact absurd wrote.1 List.not_mem_nil
  have uses_first : Uses s email store oldest first.caller := by
    obtain ⟨newer, r, next⟩ := hit_followed run finished at_first hit_first
    exact ⟨_, first, between, newer, r,
      ⟨at_first, ⟨_, is_stored.record⟩, is_stored.wrote.2, ⟨stored, exchange⟩, idle⟩, rfl, next⟩
  have uses_second : Uses s email store oldest second.caller := by
    obtain ⟨newer, r, next⟩ := hit_followed run finished split hit_second
    refine ⟨late, second, mid ++ first :: between, newer, r,
      ⟨?_, ⟨_, is_stored.record⟩, is_stored.wrote.2, reads second hit_second, ?_⟩, rfl, next⟩
    · rw [split]
      simp
    · intro ev member
      rcases List.mem_append.mp member with newer | older
      · exact since ev newer
      · rcases List.mem_cons.mp older with same | older
        · rw [same]
          exact no_write
        · exact idle ev older
  exact apart (once store oldest second.caller first.caller uses_second uses_first)

/- A Verify call that has answered with success has used a record. -/
theorem verified_redeemed (run : Reaches (server cfg) allow seed.start s)
    {job : Job Cmd Reply Call Answer} (member : job ∈ s.jobs) {email otp fp : Str} {id : Int}
    (is : job.req = .verify email otp) (answered : job.rest = .done (.verified (.ok (fp, id)))) :
    Redeemed email otp fp id job.past := by
  have meets : ∀ req, (program cfg req).Meets (fun _ _ => True) (fun past a =>
      ∀ email otp fp id, req = .verify email otp → a = .verified (.ok (fp, id)) →
        Redeemed email otp fp id past) [] := by
    intro req
    by_cases verifies : ∃ email otp, req = .verify email otp
    · obtain ⟨email, otp, rfl⟩ := verifies
      apply meets_bind (verify_redeems fun _ _ _ => trivial)
      intro past found redeemed email' otp' fp id same answer
      cases same
      cases answer
      exact redeemed fp id rfl
    · apply meets_mono (meets_trivial (fun _ _ => trivial) _) fun _ _ h => h
      intro past a _ email otp fp id same
      exact absurd ⟨email, otp, same⟩ verifies
  have held := contract_of_job meets rfl run job member
  rw [answered] at held
  exact held email otp fp id is rfl

theorem verified_uses (run : Reaches (server cfg) allow seed.start s) {i : Nat}
    {job : Job Cmd Reply Call Answer} (at_i : s.jobs[i]? = some job) {email otp : Str}
    {found : Str × Int} (is : job.req = .verify email otp)
    (answered : job.rest = .done (.verified (.ok found))) : ∃ store older, Uses s email store older i := by
  obtain ⟨stored, r, rest, -, past⟩ :=
    verified_redeemed run (List.mem_of_getElem? at_i) is answered
  rw [past_of_job rfl rfl run at_i] at past
  have parts : own i s.log = [⟨clear email, r⟩] ++ ⟨.redis (.get (otpKey email)), .ok stored⟩ ::
      ⟨.redis (.exists (otpBlockedKey email)), .ok 0⟩ :: rest := past
  obtain ⟨late, read, early, split, mine, exchange, next, -⟩ := own_member_split parts
  obtain ⟨mid, store, oldest, otp', fp, id, rfl, is_stored, idle, -, -⟩ :=
    read_was_stored run split exchange
  exact ⟨store, oldest, late, read, mid, [], r,
    ⟨split, ⟨_, is_stored.record⟩, is_stored.wrote.2, ⟨stored, exchange⟩, idle⟩, mine, next⟩

end Runs

/- In every run, whatever fails: a Verify call that answers with success uses the record of one
   GenerateAndStore. As long as no two calls read one record with its code, each record is used
   once, and at any time when all calls have returned only then. -/
theorem record_single_use {cfg : Config} {allow : State → Move → Bool} {seed : Seed} {s : State}
    (run : Reaches (server cfg) allow seed.start s) (email : Str) :
    (∀ i job otp found, s.jobs[i]? = some job → job.req = .verify email otp →
      job.rest = .done (.verified (.ok found)) → ∃ store older, Uses s email store older i) ∧
      (¬ ReadTwice cfg s email → UsedOnce s email) ∧
        ((∀ job ∈ s.jobs, isFinished job = true) → UsedOnce s email → ¬ ReadTwice cfg s email) := by
  refine ⟨?_, fun apart => used_once run apart, ?_⟩
  · intro i job otp found at_i is answered
    exact verified_uses run at_i is answered
  · intro finished once twice
    exact twice_used run finished twice once

/- One code is stored, and presented once. -/
def presentedOnce : State :=
  after (server devConfig) faultless twoCandidates.start
    (storeMoves ++ guess "100000" :: runs 1 3)

theorem record_single_use_presented_once :
    presentedOnce.jobs.map verifiedAnswer = [none, some ("phone".toList, 1)] ∧
      (∀ i job otp found, presentedOnce.jobs[i]? = some job → job.req = .verify voterEmail otp →
        job.rest = .done (.verified (.ok found)) →
          ∃ store older, Uses presentedOnce voterEmail store older i) ∧
        (¬ ReadTwice devConfig presentedOnce voterEmail → UsedOnce presentedOnce voterEmail) ∧
          ((∀ job ∈ presentedOnce.jobs, isFinished job = true) →
            UsedOnce presentedOnce voterEmail → ¬ ReadTwice devConfig presentedOnce voterEmail) :=
  ⟨by decide +kernel, record_single_use (reaches_after (by decide +kernel)) voterEmail⟩

def setsKey (key : Str) (ev : LogEntry) : Bool :=
  match ev.cmd with
  | .redis (.set key' _ _) => key' = key
  | _ => false

/- With one record and two successes, the record is used twice. -/
theorem used_twice {s : State} {email : Str}
    (single : s.log.countP (setsKey (otpKey email)) ≤ 1) {i j : Nat} (apart : i ≠ j)
    (uses_i : ∃ store older, Uses s email store older i)
    (uses_j : ∃ store older, Uses s email store older j) : ¬ UsedOnce s email := by
  intro once
  obtain ⟨store, older, uses_i⟩ := uses_i
  obtain ⟨store', older', uses_j⟩ := uses_j
  have place : ∀ {i store older}, Uses s email store older i →
      ∃ front, s.log = front ++ store :: older ∧ setsKey (otpKey email) store = true := by
    intro i store older uses
    obtain ⟨late, read, mid, -, -, source, -, -⟩ := uses
    obtain ⟨value, cmd⟩ := source.stores
    refine ⟨late ++ read :: mid, by rw [source.order]; simp, ?_⟩
    simp [setsKey, cmd]
  obtain ⟨front, split, sets⟩ := place uses_i
  obtain ⟨front', split', sets'⟩ := place uses_j
  rcases split_cases (split.symm.trans split') with ⟨-, rfl, rfl⟩ | ⟨mid, -, rfl⟩ | ⟨mid, -, rfl⟩
  · exact apart (once _ _ _ _ uses_i uses_j)
  · rw [split] at single
    simp only [List.countP_append, List.countP_cons, sets, sets', ↓reduceIte] at single
    omega
  · rw [split'] at single
    simp only [List.countP_append, List.countP_cons, sets, sets', ↓reduceIte] at single
    omega

/- Two calls present the code and read the record before either of them removes it. -/
def presentedTwice : State :=
  after (server devConfig) faultless twoCandidates.start
    (storeMoves ++ guess "100000" :: runs 1 2 ++ guess "100000" :: runs 2 2 ++ runs 1 1 ++ runs 2 1)

theorem code_verified_twice : ∃ s, Reaches (server devConfig) faultless twoCandidates.start s ∧
    s.jobs.map Job.req = [.generateAndStore voterEmail "phone".toList 1 "Ann".toList,
      .verify voterEmail "100000".toList, .verify voterEmail "100000".toList] ∧
      s.jobs.map verifiedAnswer = [none, some ("phone".toList, 1), some ("phone".toList, 1)] ∧
        ¬ UsedOnce s voterEmail := by
  have reached : Reaches (server devConfig) faultless twoCandidates.start presentedTwice :=
    reaches_after (by decide +kernel)
  refine ⟨presentedTwice, reached, by decide +kernel, by decide +kernel, ?_⟩
  have uses : ∀ i, presentedTwice.jobs[i]?.map (fun job => (job.req, verifiedAnswer job)) =
      some (.verify voterEmail "100000".toList, some ("phone".toList, 1)) →
        ∃ store older, Uses presentedTwice voterEmail store older i := by
    intro i shown
    obtain ⟨job, at_i, same⟩ := Option.map_eq_some_iff.mp shown
    obtain ⟨is, answered⟩ := Prod.mk.inj same
    unfold verifiedAnswer at answered
    split at answered
    · rename_i found done
      exact verified_uses reached at_i is done
    · cases answered
  exact used_twice (by decide +kernel) (show (1 : Nat) ≠ 2 by decide)
    (uses 1 (by decide +kernel)) (uses 2 (by decide +kernel))

end SingleUse
