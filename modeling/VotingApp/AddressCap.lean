import VotingApp.Provenance
import VotingApp.SettingsCache

/-!
The limit of votes for one address. It is counted when a code is requested, and the row
with its address is written when the code is redeemed.
-/
namespace AddressCap
open GoText GoTime Tables EffectProgram CallPool PoolHistory VotingWorld
open OtpService VotingSettings VoteService CustomDomains Handlers VotingServer
open Footprints Frames OtpRecords Provenance SettingsCache

/-- The rows of an address. -/
def votesFrom (a : Str) (w : World) : Int := w.db.countVotes fun v => v.voterIp = a

def inBackground (job : Job Cmd Reply Call Answer) : Bool :=
  match job.req with
  | .warmCache => true
  | _ => false

/-- A call that is under way, other than a warming of the cache in the background. -/
def busy (job : Job Cmd Reply Call Answer) : Bool := !(isFinished job || inBackground job)

/-- RequestOTP and VerifyVote requests, one at a time; what one leaves in the background
may go on. -/
def oneAtATime (s : State) : Move → Bool
  | .start (.requestOTP _ _) => s.jobs.all fun job => isFinished job || inBackground job
  | .start (.verifyVote _ _ _) => s.jobs.all fun job => isFinished job || inBackground job
  | .start _ => false
  | _ => true

def StoresCode : Cmd → Prop
  | .redis (.set key _ _) => ∃ e, key = otpKey e
  | _ => False

/-- A code is stored for an address only after fewer votes than allowed were counted for it. -/
def CountRule (req : Call) (past : History) (c : Cmd) : Prop :=
  ∀ ip body, req = .requestOTP ip body → StoresCode c → ip ≠ [] →
    ∃ n : Int, n < maxVotesPerIP ∧
      (⟨.sql (.countVotesByIP ip), .ok n⟩ : Exchange Cmd Reply) ∈ past

/- What stores no code, with any request. -/
def Codeless (_ : History) (c : Cmd) : Prop := ¬ StoresCode c

theorem codeless_neutral {c : Cmd} (codeless : ¬ StoresCode c) :
    Neutral Codeless (fun _ => True) c := fun _ _ => ⟨codeless, fun _ => trivial⟩

theorem codeless_set {key value : Str} {ttl : Nat} (other : ∀ e, otpKey e ≠ key) :
    ¬ StoresCode (.redis (.set key value ttl)) := by
  rintro ⟨e, same⟩
  exact other e same.symm

theorem codeless_update : ∀ c, UpdateCmd c → Neutral Codeless (fun _ => True) c := by
  intro c sent
  cases sent with
  | set raw => exact codeless_neutral (codeless_set (by simp))
  | _ => exact codeless_neutral id

theorem codeless_verify (email : Str) : ∀ c, VerifyCmd email c →
    Neutral Codeless (fun _ => True) c := by
  intro c sent
  cases sent with
  | block => exact codeless_neutral (codeless_set (by simp))
  | _ => exact codeless_neutral id

theorem codeless_vote (email : Str) : ∀ c, VoteCmd email c →
    Neutral Codeless (fun _ => True) c := by
  intro c sent
  cases sent with
  | set raw => exact codeless_neutral (codeless_set (by simp))
  | block => exact codeless_neutral (codeless_set (by simp))
  | _ => exact codeless_neutral id

theorem codeless_domain : ∀ c, DomainCmd c → Neutral Codeless (fun _ => True) c := by
  intro c sent
  cases sent with
  | mark => exact codeless_neutral (codeless_set (by simp))
  | _ => exact codeless_neutral id

/- Only the calls that ask for a code store one. -/
theorem codeless_respected {cfg : Config} {req : Call} (silent : asksCode cfg req = none) :
    Respected cfg req Codeless (fun _ => True) where
  plain c sent := by cases sent <;> exact codeless_neutral id
  status := keeps_of_issues getStatus_issues fun c sent =>
    codeless_update c (broadcast_update c (payload_broadcast c (status_payload c sent)))
  broadcast := keeps_of_issues broadcastPayload_issues fun c sent =>
    codeless_update c (broadcast_update c sent)
  update isOpen endsAt := keeps_of_issues (updateSettings_issues isOpen endsAt) codeless_update
  mode value := keeps_of_issues (updateCustomDomainsOnly_issues value) codeless_update
  generate email fp candidate name asked := by
    rw [silent] at asked
    cases asked
  verify email otp _ := keeps_of_issues (verify_issues email otp) (codeless_verify email)
  vote email otp ip userAgent _ :=
    keeps_of_issues (verifyAndVote_issues email otp ip userAgent) (codeless_vote email)
  deleteCandidate _ n _ _ := keeps_of_issues (deleteCandidate_issues n) fun c sent => by
    cases sent <;> exact codeless_neutral id
  insertDomain domain := keeps_of_issues (insert_issues domain) codeless_domain
  deleteDomain domain := keeps_of_issues (delete_issues domain) codeless_domain
  warmCache := keeps_of_issues warmCache_issues codeless_domain

section Rule
variable {req : Call} {α : Type}

theorem count_of_codeless {p : Act α} (codeless : p.Keeps Codeless fun _ => True) :
    p.Keeps (CountRule req) (fun _ => True) := by
  intro past held
  apply meets_mono (codeless past held) _ fun _ _ h => h
  intro now c no_code ip body _ stores
  exact absurd stores no_code

/- nameAndStore stores after the count that the history holds. -/
theorem nameAndStore_counts (email fp : Str) (id : Int) {past : History}
    (counted : ∀ ip body, req = .requestOTP ip body → ip ≠ [] → ∃ n : Int, n < maxVotesPerIP ∧
      (⟨.sql (.countVotesByIP ip), .ok n⟩ : Exchange Cmd Reply) ∈ past) :
    (nameAndStore email fp id).Meets (CountRule req) (fun _ _ => True) past := by
  refine meets_sql (fun _ _ _ stores => stores.elim) fun r => ?_
  cases r with
  | error err => trivial
  | ok name =>
    apply meets_mono (meets_of_issues (generateAndStore_issues email fp id name) _)
      (fun _ _ h => h) fun _ _ _ => trivial
    rintro now c ⟨added, rfl, -⟩ _ ip body is _ some_ip
    obtain ⟨n, few, member⟩ := counted ip body is some_ip
    exact ⟨n, few, List.mem_append_right _ (List.mem_cons_of_mem _ member)⟩

theorem prepareOTPRequest_counts {ip : Str} {body : Except Str RequestOTPRequest}
    (is : req = .requestOTP ip body) (email fp : Str) (id : Int) (past : History) :
    (prepareOTPRequest email fp ip id).Meets (CountRule req) (fun _ _ => True) past := by
  refine meets_sql (fun _ _ _ stores => stores.elim) fun byEmail => ?_
  cases byEmail with
  | error err => trivial
  | ok byEmail =>
    dsimp only
    split
    · trivial
    · refine meets_sql (fun _ _ _ stores => stores.elim) fun byFingerprint => ?_
      cases byFingerprint with
      | error err => trivial
      | ok byFingerprint =>
        dsimp only
        split
        · trivial
        · split
          · rename_i no_ip
            apply nameAndStore_counts
            intro ip' body' is' some_ip
            rw [is] at is'
            cases is'
            exact absurd no_ip some_ip
          · refine meets_sql (fun _ _ _ stores => stores.elim) fun count => ?_
            cases count with
            | error err => trivial
            | ok count =>
              dsimp only
              split
              · trivial
              · rename_i few
                apply nameAndStore_counts
                intro ip' body' is' some_ip
                rw [is] at is'
                cases is'
                exact ⟨count, Int.not_le.mp few, List.mem_cons_self⟩

theorem requestOTP_counts (cfg : Config) {ip : Str} {body : Except Str RequestOTPRequest}
    (is : req = .requestOTP ip body) :
    (Handlers.requestOTP cfg ip body).Keeps (CountRule req) (fun _ => True) := by
  have plain : Respected cfg .getCandidates Codeless fun _ => True := codeless_respected rfl
  apply requestOTP_parts (count_of_codeless (allow_keeps plain ip))
    (count_of_codeless (isVotingOpen_keeps plain))
    (fun email => count_of_codeless (isEmailAllowed_keeps plain email))
    (fun token => count_of_codeless (captchaVerify_keeps plain token ip))
  exact fun asked _ past _ => prepareOTPRequest_counts is _ _ _ past

theorem program_counts (cfg : Config) (req : Call) :
    (program cfg req).Meets (CountRule req) (fun _ _ => True) [] := by
  cases is : req with
  | requestOTP ip body => exact keeps_map _ (requestOTP_counts cfg rfl) [] trivial
  | _ =>
    apply meets_trivial
    intro past c ip body same
    cases same

end Rule

/-- Only RequestOTP and VerifyVote run, and what they leave in the background. -/
def requested : Call → Bool
  | .requestOTP _ _ => true
  | .verifyVote _ _ _ => true
  | .warmCache => true
  | _ => false

def Undeleting (_ : History) (c : Cmd) : Prop := ∀ id, c ≠ .sql (.deleteCandidate id)

theorem undeleting_neutral {c : Cmd} (other : ∀ id, c ≠ .sql (.deleteCandidate id)) :
    Neutral Undeleting (fun _ => True) c := fun _ _ => ⟨other, fun _ => trivial⟩

theorem undeleting_respected (cfg : Config) {req : Call} (asked : requested req = true) :
    Respected cfg req Undeleting (fun _ => True) where
  plain c sent := by cases sent <;> exact undeleting_neutral (by simp)
  status := keeps_of_issues getStatus_issues fun c sent => by
    cases sent <;> exact undeleting_neutral (by simp)
  broadcast := keeps_of_issues broadcastPayload_issues fun c sent => by
    cases sent <;> exact undeleting_neutral (by simp)
  update isOpen endsAt := keeps_of_issues (updateSettings_issues isOpen endsAt) fun c sent => by
    cases sent <;> exact undeleting_neutral (by simp)
  mode value := keeps_of_issues (updateCustomDomainsOnly_issues value) fun c sent => by
    cases sent <;> exact undeleting_neutral (by simp)
  generate email fp id name _ :=
    keeps_of_issues (generateAndStore_issues email fp id name) fun c sent => by
      cases sent <;> exact undeleting_neutral (by simp)
  verify email otp _ := keeps_of_issues (verify_issues email otp) fun c sent => by
    cases sent <;> exact undeleting_neutral (by simp)
  vote email otp ip userAgent _ :=
    keeps_of_issues (verifyAndVote_issues email otp ip userAgent) fun c sent => by
      cases sent <;> exact undeleting_neutral (by simp)
  deleteCandidate id n same _ := by
    subst req
    cases asked
  insertDomain domain := keeps_of_issues (insert_issues domain) fun c sent => by
    cases sent <;> exact undeleting_neutral (by simp)
  deleteDomain id := keeps_of_issues (delete_issues id) fun c sent => by
    cases sent <;> exact undeleting_neutral (by simp)
  warmCache := keeps_of_issues warmCache_issues fun c sent => by
    cases sent <;> exact undeleting_neutral (by simp)

/-- The insertion adds a row with the address, with the code that was stored then. -/
def RedeemedFrom (cfg : Config) (s : State) (a : Str) (insertion store : LogEntry) : Prop :=
  ∃ b otp read, b.ip = a ∧ Inserted insertion b.email b.fingerprint b.candidateID b.ip b.userAgent ∧
    Trail cfg s b otp insertion read store

/-- The code of a row of the address was stored when the log had this length. -/
def StoredAt (cfg : Config) (s : State) (a : Str) (insertion : LogEntry) (n : Nat) : Prop :=
  ∃ store front mid older, RedeemedFrom cfg s a insertion store ∧
    s.log = front ++ insertion :: (mid ++ store :: older) ∧ older.length = n

def AskedFrom (s : State) (a : Str) (store : LogEntry) : Prop :=
  ∃ job body, s.jobs[store.caller]? = some job ∧ job.req = .requestOTP a body

/-- A code that is redeemed from the address was stored when the rows of the address, with the other
codes outstanding then that are redeemed from it later, were already as many as allowed: there are such
others, which nobody counts, or the code went to another address, whose rows were counted instead. -/
def Overbooked (cfg : Config) (s : State) (a : Str) : Prop := ∃ late store older insertion others,
  s.log = late ++ store :: older ∧ insertion ∈ late ∧ insertion ∉ others ∧
    RedeemedFrom cfg s a insertion store ∧ List.Sublist others late ∧
      (∀ other ∈ others, ∃ store' ∈ older, RedeemedFrom cfg s a other store') ∧
        maxVotesPerIP ≤ votesFrom a store.before + others.length ∧
          (AskedFrom s a store → others ≠ [])

/-- At no time are there more rows of the address than allowed. -/
def Capped (s : State) (a : Str) : Prop :=
  votesFrom a s.world ≤ maxVotesPerIP ∧ ∀ ev ∈ s.log, votesFrom a ev.after ≤ maxVotesPerIP

/-- The event adds a row of the address. -/
def Adds (a : Str) (ev : LogEntry) : Prop := votesFrom a ev.before < votesFrom a ev.after

instance (a : Str) : DecidablePred (Adds a) := fun _ => inferInstanceAs (Decidable (_ < _))

/- Of those that have a time, one has the latest. -/
theorem latest_of {A : Type} {R : A → Nat → Prop} {l : List A} (some_member : l ≠ [])
    (timed : ∀ x ∈ l, ∃ n, R x n) : ∃ x ∈ l, ∃ n, R x n ∧ ∀ y ∈ l, ∃ m, R y m ∧ m ≤ n := by
  induction l with
  | nil => exact absurd rfl some_member
  | cons first rest ih =>
    obtain ⟨n, at_n⟩ := timed first List.mem_cons_self
    cases rest with
    | nil =>
      refine ⟨first, List.mem_cons_self, n, at_n, ?_⟩
      intro y member
      rw [List.mem_singleton.mp member]
      exact ⟨n, at_n, Nat.le_refl n⟩
    | cons second rest =>
      obtain ⟨x, inside, k, at_k, latest⟩ :=
        ih (by simp) fun y member => timed y (List.mem_cons_of_mem _ member)
      by_cases later : n ≤ k
      · refine ⟨x, List.mem_cons_of_mem _ inside, k, at_k, ?_⟩
        intro y member
        rcases List.mem_cons.mp member with rfl | member
        · exact ⟨n, at_n, later⟩
        · exact latest y member
      · refine ⟨first, List.mem_cons_self, n, at_n, ?_⟩
        intro y member
        rcases List.mem_cons.mp member with rfl | member
        · exact ⟨n, at_n, Nat.le_refl n⟩
        · obtain ⟨m, at_m, below⟩ := latest y member
          exact ⟨m, at_m, by omega⟩

section Runs
variable {cfg : Config} {seed : Seed} {s : State} {a : Str}

theorem inserted_count {ev : LogEntry} {b : Ballot}
    (inserted : Inserted ev b.email b.fingerprint b.candidateID b.ip b.userAgent) (a : Str) :
    votesFrom a ev.after = votesFrom a ev.before + if b.ip = a then 1 else 0 := by
  unfold votesFrom Db.countVotes
  rw [inserted.grown, List.countP_append]
  by_cases same : b.ip = a
  · simp [same, Db.newVote]
  · simp [same, Db.newVote]

theorem only_requests (run : Reaches (server cfg) oneAtATime seed.start s) :
    ∀ job ∈ s.jobs, requested job.req = true := by
  apply requests_satisfy (P := fun req => requested req = true) rfl _ _ run
  · intro t req allowed
    cases req with
    | requestOTP ip body => rfl
    | verifyVote ip userAgent body => rfl
    | _ => cases allowed
  · intro c req spawned
    cases c with
    | goWarmCache =>
      rw [List.mem_singleton.mp spawned]
      rfl
    | _ => cases spawned

theorem none_deleted (run : Reaches (server cfg) oneAtATime seed.start s) {ev : LogEntry}
    (logged : ev ∈ s.log) (id : Int) : ev.cmd ≠ .sql (.deleteCandidate id) := by
  have meets : ∀ req, (program cfg req).Meets (fun past c => requested req = true → Undeleting past c)
      (fun _ _ => True) [] := by
    intro req
    cases asked : requested req with
    | true =>
      exact meets_mono (program_keeps (undeleting_respected cfg asked) [] trivial)
        (fun _ _ rule _ => rule) fun _ _ _ => trivial
    | false =>
      apply meets_trivial
      intro past c other
      cases other
  obtain ⟨late, older, split⟩ := List.append_of_mem logged
  obtain ⟨job, at_job, rule⟩ := contract_of_logged meets rfl rfl run split
  exact rule (only_requests run job (List.mem_of_getElem? at_job)) id

/- Only one request is under way. -/
theorem one_request (run : Reaches (server cfg) oneAtATime seed.start s) (i j : Nat)
    (job job' : Job Cmd Reply Call Answer) (at_i : s.jobs[i]? = some job) (at_j : s.jobs[j]? = some job')
    (busy_i : busy job = true) (busy_j : busy job' = true) : i = j := by
  apply one_busy rfl _ _ _ run i j job job' at_i at_j busy_i busy_j
  · intro t req allowed job member
    have idle : (isFinished job || inBackground job) = true := by
      cases req with
      | requestOTP ip body => exact List.all_eq_true.mp allowed job member
      | verifyVote ip userAgent body => exact List.all_eq_true.mp allowed job member
      | _ => cases allowed
    rw [busy, idle]
    rfl
  · intro c req member
    cases c with
    | goWarmCache =>
      rw [List.mem_singleton.mp member]
      rfl
    | _ => cases member
  · intro job c next r waiting is_busy
    unfold busy isFinished inBackground at is_busy ⊢
    rw [waiting]
    simp only [Bool.not_or, Bool.and_eq_true] at is_busy ⊢
    exact ⟨rfl, is_busy.2⟩

/- An event adds one row of the address, by an INSERT from there, or none. -/
theorem adds_cases (run : Reaches (server cfg) oneAtATime seed.start s) {ev : LogEntry}
    (logged : ev ∈ s.log) : (votesFrom a ev.after = votesFrom a ev.before ∧ ¬ Adds a ev) ∨
      (Adds a ev ∧ votesFrom a ev.after = votesFrom a ev.before + 1 ∧ ∃ b : Ballot, b.ip = a ∧
        Inserted ev b.email b.fingerprint b.candidateID b.ip b.userAgent) := by
  rcases votes_step (performed_of_run run ev logged) with
    still | ⟨email, fp, id, ip, userAgent, inserted⟩ | ⟨id, removed⟩
  · have same : votesFrom a ev.after = votesFrom a ev.before := by
      unfold votesFrom Db.countVotes
      rw [still]
    exact Or.inl ⟨same, by rw [Adds, same]; exact Int.lt_irrefl _⟩
  · have grown := inserted_count (b := ⟨email, fp, id, ip, userAgent⟩) inserted a
    by_cases mine : ip = a
    · rw [if_pos mine] at grown
      exact Or.inr ⟨by rw [Adds, grown]; omega, grown, ⟨email, fp, id, ip, userAgent⟩, mine, inserted⟩
    · rw [if_neg mine] at grown
      exact Or.inl ⟨by omega, by rw [Adds, grown]; omega⟩
  · exact absurd removed.cmd (none_deleted run logged id)

theorem adds_inserts (run : Reaches (server cfg) oneAtATime seed.start s) {ev : LogEntry}
    (logged : ev ∈ s.log) (adds : Adds a ev) : ∃ b : Ballot, b.ip = a ∧
      Inserted ev b.email b.fingerprint b.candidateID b.ip b.userAgent := by
  rcases adds_cases run logged with ⟨-, idle⟩ | ⟨-, -, inserts⟩
  · exact absurd adds idle
  · exact inserts

/- The rows of the address are the events that have added one. -/
theorem rows_are_added (run : Reaches (server cfg) oneAtATime seed.start s) :
    votesFrom a s.world = s.log.countP (Adds a) := by
  induction run with
  | refl => rfl
  | @tail t t' l run allowed step ih =>
    have whole := Reaches.tail run allowed step
    cases step_sound step with
    | start req => exact ih
    | env moved =>
      rw [← ih]
      unfold votesFrom
      rw [(env_scope moved).1]
    | @run i o job c next r w at_i waiting performed =>
      rcases adds_cases (a := a) whole List.mem_cons_self with ⟨same, idle⟩ | ⟨adds, more, -⟩
      · rw [List.countP_cons_of_neg (by simpa using idle), ← ih]
        exact same
      · rw [List.countP_cons_of_pos (by simpa using adds), Nat.cast_add, Nat.cast_one, ← ih]
        exact more

theorem rows_before (run : Reaches (server cfg) oneAtATime seed.start s) {late older : Log}
    {ev : LogEntry} (split : s.log = late ++ ev :: older) :
    votesFrom a ev.before = older.countP (Adds a) := by
  obtain ⟨moment⟩ := moment_of_logged rfl run split
  have rows := rows_are_added (a := a) moment.reached
  rwa [moment.pre_world, moment.pre_log] at rows

/- The rows only grow, so that the cap is kept if it is kept at last. -/
theorem capped_at_last (run : Reaches (server cfg) oneAtATime seed.start s)
    (few : votesFrom a s.world ≤ maxVotesPerIP) : Capped s a := by
  refine ⟨few, ?_⟩
  intro ev logged
  obtain ⟨late, older, split⟩ := List.append_of_mem logged
  obtain ⟨moment⟩ := moment_of_logged rfl run split
  have now := rows_are_added (a := a) moment.taken
  have all := rows_are_added (a := a) run
  rw [moment.post_world, moment.post_log] at now
  rw [split, List.countP_append] at all
  omega

/- The unique key on the email: no two events add a row of one email. -/
theorem added_once (run : Reaches (server cfg) oneAtATime seed.start s) {late mid older : Log}
    {newer ev : LogEntry} (split : s.log = late ++ newer :: (mid ++ ev :: older)) {b b' : Ballot}
    (inserted : Inserted ev b.email b.fingerprint b.candidateID b.ip b.userAgent)
    (inserted' : Inserted newer b'.email b'.fingerprint b'.candidateID b'.ip b'.userAgent) :
    b.email ≠ b'.email := by
  intro same
  obtain ⟨t, t', reached, log, world, later, log', world'⟩ := interval rfl run split
  have kept : ∃ v ∈ t'.world.db.votes, v.voterEmail = b.email := by
    apply kept_since (I := fun w => ∃ v ∈ w.db.votes, v.voterEmail = b.email) _ later log'
    · intro x member held
      have logged : x ∈ s.log := by rw [split]; simp [member]
      obtain ⟨v, there, is_email⟩ := held
      rcases votes_step (performed_of_run run x logged) with
        still | ⟨email, fp, id, ip, userAgent, more⟩ | ⟨id, removed⟩
      · exact ⟨v, by rw [still]; exact there, is_email⟩
      · exact ⟨v, by rw [more.grown]; exact List.mem_append_left _ there, is_email⟩
      · exact absurd removed.cmd (none_deleted run logged id)
    · rw [world, inserted.grown]
      exact ⟨_, List.mem_append_right _ (List.mem_singleton_self _), rfl⟩
    · intro w e w' moved held
      rw [(env_scope moved).1]
      exact held
  obtain ⟨v, there, is_email⟩ := kept
  rw [world'] at there
  exact inserted'.new_email v there (is_email.trans same)

/- Whichever of the two is the newer. -/
theorem row_each (run : Reaches (server cfg) oneAtATime seed.start s) {front back : Log}
    {ev other : LogEntry} (split : s.log = front ++ ev :: back) (member : other ∈ front ++ back)
    {b b' : Ballot} (inserted : Inserted ev b.email b.fingerprint b.candidateID b.ip b.userAgent)
    (inserted' : Inserted other b'.email b'.fingerprint b'.candidateID b'.ip b'.userAgent) :
    b.email ≠ b'.email := by
  rcases List.mem_append.mp member with newer | older
  · obtain ⟨first, second, rfl⟩ := List.append_of_mem newer
    rw [List.append_assoc] at split
    exact added_once run split inserted inserted'
  · obtain ⟨first, second, rfl⟩ := List.append_of_mem older
    exact (added_once run split inserted' inserted).symm

theorem redeemed_adds {insertion store : LogEntry} (redeemed : RedeemedFrom cfg s a insertion store) :
    Adds a insertion := by
  obtain ⟨b, otp, read, mine, inserted, -⟩ := redeemed
  have grown := inserted_count inserted a
  rw [if_pos mine] at grown
  rw [Adds, grown]
  omega

/- The codes that are redeemed are as many rows. -/
theorem overbooked_exceeds (run : Reaches (server cfg) oneAtATime seed.start s)
    (overbooked : Overbooked cfg s a) : maxVotesPerIP < votesFrom a s.world := by
  obtain ⟨late, store, older, insertion, others, split, inside, apart, redeemed, order, earlier, full, -⟩ :=
    overbooked
  obtain ⟨front, back, rfl⟩ := List.append_of_mem inside
  have rest : List.Sublist others (front ++ back) := by
    obtain ⟨first, second, rfl, in_front, in_back⟩ := List.sublist_append_iff.mp order
    rcases List.sublist_cons_iff.mp in_back with skipped | ⟨more, rfl, -⟩
    · exact in_front.append skipped
    · exact absurd (by simp) apart
  have all_add : others.countP (Adds a) = others.length := by
    apply List.countP_eq_length.mpr
    intro other member
    obtain ⟨store', -, redeemed'⟩ := earlier other member
    simpa using redeemed_adds redeemed'
  have few := rest.countP_le (p := fun ev => decide (Adds a ev))
  have own := redeemed_adds redeemed
  have before := rows_before (a := a) run split
  have rows := rows_are_added (a := a) run
  rw [split, List.append_assoc, List.cons_append, List.countP_append,
    List.countP_cons_of_pos (by simpa using own), List.countP_append] at rows
  rw [List.countP_append] at few
  have skipped : older.countP (Adds a) ≤ (store :: older).countP (Adds a) :=
    (List.sublist_cons_self store older).countP_le
  omega

/- While a request for a code is under way, no row is added. -/
theorem none_added (run : Reaches (server cfg) oneAtATime seed.start s) {late mid older : Log}
    {newer ev : LogEntry} (split : s.log = late ++ newer :: (mid ++ ev :: older))
    (same_call : ev.caller = newer.caller) {job : Job Cmd Reply Call Answer}
    (at_job : s.jobs[newer.caller]? = some job) {ip : Str} {body : Except Str RequestOTPRequest}
    (asks : job.req = .requestOTP ip body) {x : LogEntry} (member : x ∈ mid) : ¬ Adds a x := by
  intro adds
  have logged : x ∈ s.log := by rw [split]; simp [member]
  obtain ⟨b, -, inserted⟩ := adds_inserts run logged adds
  obtain ⟨before, after, at_x⟩ := List.append_of_mem logged
  obtain ⟨caster, at_caster, rule⟩ := rule_of_run run at_x
  rw [inserted.cmd] at rule
  obtain ⟨otp, stored, r, rest, presented, -⟩ := rule
  have works : ∀ job : Job Cmd Reply Call Answer, job.req ≠ .warmCache → (∀ a, job.rest ≠ .done a) →
      busy job = true := by
    intro job foreground running
    have is_front : inBackground job = false := by
      unfold inBackground
      split
      · rename_i same
        exact absurd same foreground
      · rfl
    have unfinished : isFinished job = false := by
      unfold isFinished
      split
      · rename_i a done
        exact absurd done (running a)
      · rfl
    rw [busy, is_front, unfinished]
    rfl
  have other : caster.req ≠ .warmCache := by
    intro warms
    rw [warms] at presented
    cases presented
  have same := alone_between (P := fun req => req ≠ .warmCache) rfl (fun t => one_request) works run split
    same_call member at_job at_caster (by rw [asks]; simp) other
  -- A call that asks for a code presents none.
  rw [same, at_job, Option.some.injEq] at at_caster
  rw [← at_caster, asks] at presented
  cases presented

/- The count that the request was answered is that of the rows when its code is stored. -/
theorem counted_few (run : Reaches (server cfg) oneAtATime seed.start s) {late older : Log}
    {store : LogEntry} (split : s.log = late ++ store :: older) (stores : StoresCode store.cmd)
    (asked : AskedFrom s a store) (some_ip : a ≠ []) : votesFrom a store.before < maxVotesPerIP := by
  obtain ⟨job, body, at_job, asks⟩ := asked
  obtain ⟨job', at_job', rule⟩ := contract_of_logged (program_counts cfg) rfl rfl run split
  rw [at_job, Option.some.injEq] at at_job'
  subst job'
  obtain ⟨n, few, member⟩ := rule a body asks stores some_ip
  obtain ⟨counting, logged, mine, exchange⟩ := mem_own.mp member
  obtain ⟨gap, oldest, rfl⟩ := List.append_of_mem logged
  have at_counting : s.log = (late ++ store :: gap) ++ counting :: oldest := by
    rw [split]
    simp
  have performed := performed_of_run run counting (by rw [at_counting]; simp)
  obtain ⟨answer, -⟩ := answered_sql performed exchange
  have count : votesFrom a counting.before = n := by
    rw [SqlCmd.run, Except.ok.injEq] at answer
    exact answer
  have quiet : gap.countP (Adds a) = 0 := by
    apply List.countP_eq_zero.mpr
    intro x member adds
    exact none_added run split mine at_job asks member (by simpa using adds)
  have no_row : ¬ Adds a counting := by
    intro adds
    obtain ⟨b, -, inserted⟩ := adds_inserts run (by rw [at_counting]; simp) adds
    have cmd : counting.cmd = .sql (.countVotesByIP a) := congrArg Exchange.cmd exchange
    rw [inserted.cmd] at cmd
    cases cmd
  have then_rows := rows_before (a := a) run at_counting
  have rows := rows_before (a := a) run split
  rw [List.countP_append, quiet, List.countP_cons_of_neg (by simpa using no_row)] at rows
  omega

/- A row that is added has its code, and that was stored at some time. -/
theorem adds_stored (run : Reaches (server cfg) oneAtATime seed.start s) {x : LogEntry}
    (member : x ∈ s.log.filter (Adds a)) : ∃ n, StoredAt cfg s a x n := by
  obtain ⟨logged, adds⟩ := List.mem_filter.mp member
  obtain ⟨b, mine, inserted⟩ := adds_inserts run logged (by simpa using adds)
  obtain ⟨late, older, split⟩ := List.append_of_mem logged
  obtain ⟨otp, read, store, trail⟩ := insertion_has_trail run split inserted.cmd
  obtain ⟨front, between, mid, oldest, order, -⟩ := trail.order
  exact ⟨oldest.length, store, front, between ++ read :: mid, oldest,
    ⟨b, otp, read, mine, inserted, trail⟩, by rw [order]; simp, rfl⟩

/- Of the codes that are redeemed the last one to be stored was one too many. -/
theorem exceeds_overbooked (run : Reaches (server cfg) oneAtATime seed.start s) (some_ip : a ≠ [])
    (many : maxVotesPerIP < votesFrom a s.world) : Overbooked cfg s a := by
  have total := rows_are_added (a := a) run
  have some_row : s.log.filter (Adds a) ≠ [] := by
    intro none_added
    rw [List.countP_eq_length_filter, none_added] at total
    have cap : maxVotesPerIP = 5 := rfl
    simp at total
    omega
  obtain ⟨insertion, -, n, ⟨store, front, mid, older, redeemed, split, rfl⟩, latest⟩ :=
    latest_of some_row fun x member => adds_stored run member
  have at_store : s.log = (front ++ insertion :: mid) ++ store :: older := by
    rw [split]
    simp
  have once : ∀ other ∈ front ++ mid, ∀ b b' : Ballot,
      Inserted insertion b.email b.fingerprint b.candidateID b.ip b.userAgent →
        Inserted other b'.email b'.fingerprint b'.candidateID b'.ip b'.userAgent → b.email ≠ b'.email := by
    intro other member b b' inserted inserted'
    apply row_each run split _ inserted inserted'
    rw [← List.append_assoc]
    exact List.mem_append_left _ member
  obtain ⟨b, otp, read, mine, inserted, trail⟩ := redeemed
  have redeemed : RedeemedFrom cfg s a insertion store := ⟨b, otp, read, mine, inserted, trail⟩
  have rows := rows_before (a := a) run at_store
  have no_row : ¬ Adds a store := by
    intro adds
    obtain ⟨b', -, inserts⟩ := adds_inserts run (by rw [at_store]; simp) adds
    have cmd := trail.stored.record
    rw [inserts.cmd] at cmd
    cases cmd
  have others_count : ((front ++ mid).filter (Adds a)).length + 1 + older.countP (Adds a) =
      s.log.countP (Adds a) := by
    rw [at_store, ← List.countP_eq_length_filter, List.countP_append, List.countP_append, List.countP_append,
      List.countP_cons_of_pos (by simpa using redeemed_adds redeemed),
      List.countP_cons_of_neg (by simpa using no_row)]
    omega
  have full : maxVotesPerIP ≤ votesFrom a store.before + ((front ++ mid).filter (Adds a)).length := by
    omega
  refine ⟨front ++ insertion :: mid, store, older, insertion, (front ++ mid).filter (Adds a), at_store,
    by simp, ?_, redeemed, ?_, ?_, full, ?_⟩
  · intro again
    obtain ⟨member, adds⟩ := List.mem_filter.mp again
    exact once insertion member b b inserted inserted rfl
  · apply List.filter_sublist.trans
    exact (List.Sublist.refl front).append (List.sublist_cons_self insertion mid)
  · intro other member
    obtain ⟨inside, adds⟩ := List.mem_filter.mp member
    have logged : other ∈ s.log.filter (Adds a) := by
      apply List.mem_filter.mpr
      refine ⟨?_, adds⟩
      rw [split]
      rcases List.mem_append.mp inside with newer | between
      · simp [newer]
      · simp [between]
    obtain ⟨k, ⟨store', front', mid', oldest, redeemed', split', rfl⟩, earlier⟩ := latest other logged
    refine ⟨store', ?_, redeemed'⟩
    have both : (front' ++ other :: mid') ++ store' :: oldest =
        (front ++ insertion :: mid) ++ store :: older := by
      rw [← at_store, split']
      simp
    rcases split_cases both with ⟨-, same, -⟩ | ⟨gap, -, rest⟩ | ⟨gap, -, rest⟩
    · -- One code cannot be redeemed twice: both rows would have its email.
      exfalso
      obtain ⟨b', otp', read', -, inserted', trail'⟩ := redeemed'
      apply once other inside b b' inserted inserted'
      obtain ⟨job, at_job, asked⟩ := trail.stored.asked
      obtain ⟨job', at_job', asked'⟩ := trail'.stored.asked
      rw [same, at_job, Option.some.injEq] at at_job'
      rw [← at_job', asked, Option.some.injEq, Prod.mk.injEq] at asked'
      exact asked'.1
    · rw [rest] at earlier
      simp only [List.length_append, List.length_cons] at earlier
      omega
    · rw [rest]
      simp
  · intro asked none_else
    rw [none_else] at full
    have few := counted_few run at_store (by rw [trail.stored.record]; exact ⟨_, rfl⟩) asked some_ip
    simp at full
    omega

/- What the count is enough for: codes that are redeemed from where they were asked for, each before the
   next one is stored that will be redeemed from there. -/
theorem capped_one_by_one (run : Reaches (server cfg) oneAtATime seed.start s) (some_ip : a ≠ [])
    (at_home : ∀ insertion store, RedeemedFrom cfg s a insertion store → AskedFrom s a store)
    (in_turn : ∀ late store older, s.log = late ++ store :: older → ∀ insertion ∈ late,
      RedeemedFrom cfg s a insertion store → ∀ other ∈ late, ∀ store' ∈ older,
        ¬ RedeemedFrom cfg s a other store') : Capped s a := by
  apply capped_at_last run
  by_contra beyond
  obtain ⟨late, store, older, insertion, others, split, inside, -, redeemed, order, earlier, -, uncounted⟩ :=
    exceeds_overbooked run some_ip (Int.not_le.mp beyond)
  obtain ⟨other, member⟩ := List.exists_mem_of_ne_nil others (uncounted (at_home insertion store redeemed))
  obtain ⟨store', before, redeemed'⟩ := earlier other member
  exact in_turn late store older split insertion inside redeemed other (order.subset member) store' before
    redeemed'

/- In every run of requests the cap of an address holds exactly when none of the codes that are redeemed
   from it was one too many when it was stored. -/
theorem cap_holds_iff (run : Reaches (server cfg) oneAtATime seed.start s) (some_ip : a ≠ []) :
    Capped s a ↔ ¬ Overbooked cfg s a := by
  constructor
  · rintro ⟨capped, -⟩ overbooked
    have beyond := overbooked_exceeds run overbooked
    omega
  · intro never
    apply capped_at_last run
    by_contra beyond
    exact never (exceeds_overbooked run some_ip (Int.not_le.mp beyond))

end Runs

def office : String := "10.0.0.1"

def voters : List (String × String) :=
  [("c@gmail.com", "phone c"), ("d@gmail.com", "phone d"), ("e@gmail.com", "phone e"),
    ("f@gmail.com", "phone f")]

/- One request after the other, each run to its end. -/
def inTurn (first : Nat) (length : Nat) : List Call → List Move
  | [] => []
  | req :: rest => .start req :: runs first length ++ inTurn (first + 1) length rest

/- One voter votes; an hour later five others ask for their codes and then redeem them. -/
def officeMoves : List Move :=
  .start (requestFrom office "a@gmail.com" "phone a" 1) :: runs 0 14 ++
    .start (verifyFrom office "a@gmail.com" "100000") :: runs 1 9 ++
      .env (.tick hour) :: .start (requestFrom office "b@gmail.com" "phone b" 2) :: runs 2 12 ++
        inTurn 3 11 (voters.map fun v => requestFrom office v.1 v.2 1) ++
          .start (verifyFrom office "b@gmail.com" "100000") :: runs 7 9 ++
            inTurn 8 9 (voters.map fun v => verifyFrom office v.1 "100000")

def crowdedOffice : State :=
  after (server devConfig) oneAtATime twoCandidates.start officeMoves

theorem crowdedOffice_reached :
    Reaches (server devConfig) oneAtATime twoCandidates.start crowdedOffice :=
  reaches_after (by decide +kernel)

theorem cap_holds_iff_crowded_office :
    Capped crowdedOffice office.toList ↔ ¬ Overbooked devConfig crowdedOffice office.toList :=
  cap_holds_iff crowdedOffice_reached (by decide)

/- All twelve requests were answered 200, and six rows carry the address. -/
theorem six_votes_from_one_address :
    ∃ s, Reaches (server devConfig) oneAtATime twoCandidates.start s ∧
      s.jobs.map statusOf = List.replicate 12 (some 200) ∧ votesFrom office.toList s.world = 6 ∧
        ¬ Capped s office.toList := by
  have six : votesFrom office.toList crowdedOffice.world = 6 := by decide +kernel
  refine ⟨crowdedOffice, crowdedOffice_reached, by decide +kernel, six, ?_⟩
  rintro ⟨capped, -⟩
  rw [six] at capped
  exact absurd capped (by decide)

end AddressCap
