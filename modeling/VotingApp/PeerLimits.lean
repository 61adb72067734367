import VotingApp.DomainCache
import VotingApp.EmailBlock
import VotingApp.Gateway

/-!
The limits by address, seen from the network. They follow the peer exactly as long as no two
sets of headers of one peer resolve to different addresses.
-/
namespace PeerLimits
open GoText GoTime Tables EffectProgram CallPool PoolHistory Renaming ExpiringStore VotingWorld
open OtpService VotingSettings VoteService CustomDomains Handlers VotingServer
open Footprints Frames RedisKeys OtpRecords SettingsCache EmailBlock DomainCache Counters Gateway

/-- RateLimit goes on with the request on this answer to its INCR. It fails open. -/
def letsPass (cfg : Config) : Except GoErr Int → Bool
  | .ok count => count ≤ cfg.rateLimitMax
  | .error _ => true

/-- What RateLimit decides by an exchange, if it is the INCR under the key. -/
def decision (cfg : Config) (key : Str) : Exchange Cmd Reply → Option Bool
  | ⟨.redis (.incr k), r⟩ => if k = key then some (letsPass cfg r) else none
  | _ => none

def decided (cfg : Config) (job : Job Cmd Reply Call Answer) : Option Bool :=
  match job.req with
  | .requestOTP ip _ => job.past.findSome? (decision cfg (rateLimitKey ip))
  | _ => none

def ipCount : Exchange Cmd Reply → Option (Except GoErr Int)
  | ⟨.sql (.countVotesByIP _), r⟩ => some r
  | _ => none

/-- What the limits by address have come to: the decisions and the IP counts, request by
request, and the addresses in the table. -/
structure Limits where
  decisions : List (Option Bool)
  ipCounts : List (List (Except GoErr Int))
  storedIPs : List Str

def limits (cfg : Config) (s : State) : Limits where
  decisions := s.jobs.map (decided cfg)
  ipCounts := s.jobs.map fun job => job.past.filterMap ipCount
  storedIPs := s.world.db.votes.map Vote.voterIp

/-- What can come in: which headers a peer sends. -/
abbrev Senders := Str → Headers → Prop

def Sent (sends : Senders) : Label Oracle Env Arrival → Prop
  | .start (.vote r) => sends r.peer r.headers
  | _ => True

def withoutHeaders : Arrival → Arrival
  | .vote r => .vote { r with headers := ⟨[], []⟩ }
  | .other req => .other req

/-- The same peers, order and times: the two differ in the headers at most. -/
def Agree (t t' : Traffic) : Prop :=
  t.map (Label.rename withoutHeaders) = t'.map (Label.rename withoutHeaders)

/-- A request that the rate limit lets pass for this peer. -/
def passes (cfg : Config) (gin : ClientIP) (s : Front) (peer : Str) (ev : LogEntry) : Bool :=
  s.jobs[ev.caller]?.any fun job =>
    match job.req with
    | .vote ⟨sender, headers, .requestOTP _⟩ =>
      sender = peer &&
        decision cfg (rateLimitKey (setup gin sender headers)) ev.exchange = some true
    | _ => false

/-- A rate-limit window of the peer: no counter that its requests are counted on runs out. -/
def Window (gin : ClientIP) (sends : Senders) (peer : Str) (mid : Log) : Prop :=
  ∀ h, sends peer h → Unbroken (rateLimitKey (setup gin peer h)) mid

/-- Whatever headers are sent, the limits come out the same. -/
def SameLimits (cfg : Config) (gin : ClientIP) (seed : Seed) (sends : Senders) : Prop :=
  ∀ t t', Agree t t' → (∀ l ∈ t, Sent sends l) → (∀ l ∈ t', Sent sends l) →
    ∀ s, traced cfg gin seed t = some s → ∃ s', traced cfg gin seed t' = some s' ∧
      limits cfg (behind gin s') = limits cfg (behind gin s)

/-- While Redis answers, no more requests of a peer pass in a window than allowed. -/
def PassesBounded (cfg : Config) (gin : ClientIP) (seed : Seed) (sends : Senders) : Prop :=
  ∀ t s, (∀ l ∈ t, Sent sends l) → traced cfg gin seed t = some s →
    ∀ peer late mid oldest, s.log = late ++ (mid ++ oldest) → RedisAnswers mid →
      Window gin sends peer mid → mid.countP (passes cfg gin s peer) ≤ cfg.rateLimitMax.toNat

/-- The limits depend on the network peer only. -/
structure PeerLimited (cfg : Config) (gin : ClientIP) (seed : Seed) (sends : Senders) : Prop where
  same : SameLimits cfg gin seed sends
  bounded : PassesBounded cfg gin seed sends

/-- All that a peer sends resolves to one address. -/
def OneAddress (resolve : Str → Headers → Str) (sends : Senders) : Prop :=
  ∀ peer h h', sends peer h → sends peer h' → resolve peer h = resolve peer h'

/-- Who writes a counter of the rate limit. -/
def RateRule (_ : History) (c : Cmd) : Prop := ∀ ip, WritesKey (rateLimitKey ip) c →
  c = .redis (.incr (rateLimitKey ip)) ∨ ∃ ttl, c = .redis (.expire (rateLimitKey ip) ttl)

section Rule

theorem rate_neutral {c : Cmd} (rule : RateRule [] c) : Neutral RateRule (fun _ => True) c :=
  fun _ _ => ⟨rule, fun _ => trivial⟩

theorem rate_unwritten {c : Cmd} (out : ∀ ip, ¬ WritesKey (rateLimitKey ip) c) :
    Neutral RateRule (fun _ => True) c :=
  rate_neutral fun ip writes => absurd writes (out ip)

theorem plain_rated {req : Call} : ∀ c, PlainCmd req c → Neutral RateRule (fun _ => True) c := by
  intro c sent past _
  constructor
  · intro ip writes
    cases sent with
    | rate ip' =>
      have same : rateLimitKey ip = rateLimitKey ip' := by simpa [WritesKey, writtenKeys] using writes
      rw [same]
      exact Or.inl rfl
    | rateWindow ip' =>
      have same : rateLimitKey ip = rateLimitKey ip' := by simpa [WritesKey, writtenKeys] using writes
      rw [same]
      exact Or.inr ⟨_, rfl⟩
    | _ => simp [WritesKey, writtenKeys] at writes
  · intro _
    trivial

theorem rate_respected (cfg : Config) (req : Call) : Respected cfg req RateRule (fun _ => True) := by
  apply respected_of_verify plain_rated
  · intro c sent
    apply rate_unwritten
    intro ip
    cases sent <;> simp [WritesKey, writtenKeys]
  · intro email c sent
    apply rate_unwritten
    intro ip
    cases sent <;> simp [WritesKey, writtenKeys]
  · intro email otp _
    apply keeps_of_issues (verify_issues email otp)
    intro c sent
    apply rate_unwritten
    intro ip
    cases sent <;> simp [WritesKey, writtenKeys]
  · intro email fp candidate ip userAgent
    exact rate_unwritten fun _ => id
  · intro id c sent
    apply rate_unwritten
    intro ip
    cases sent <;> simp [WritesKey]
  · intro c sent
    apply rate_unwritten
    intro ip
    cases sent <;> simp [WritesKey, writtenKeys]

section Counting
variable {cfg : Config} {allow : State → Move → Bool} {seed : Seed} {s : State}

theorem rate_rule (run : Reaches (server cfg) allow seed.start s) {ev : LogEntry}
    (logged : ev ∈ s.log) : RateRule [] ev.cmd := by
  obtain ⟨late, older, split⟩ := List.append_of_mem logged
  obtain ⟨job, -, rule⟩ := contract_of_logged
    (fun req => program_keeps (rate_respected cfg req) [] trivial) rfl rfl run split
  exact rule

/- A Redis command has run, or it has failed and left everything as it was. -/
theorem ran_or_idle {ev : LogEntry} (performed : Performed ev) {c : RedisCmd}
    (cmd : ev.cmd = .redis c) :
    ev.after.redis = (c.run ev.before.redis ev.before.clock).2 ∨
      (ev.oracle.fault ≠ none ∧ ev.after.redis = ev.before.redis) := by
  obtain ⟨r, exchange⟩ := exchange_of_cmd cmd
  obtain ⟨-, after⟩ := exchange_redis performed exchange
  rw [after]
  cases fault : ev.oracle.fault with
  | none =>
    rw [faulty_ok fault]
    exact Or.inl rfl
  | some f =>
    cases faulty_state (o := ev.oracle) ev.before.redis (c.run ev.before.redis ev.before.clock) with
    | inl ran => exact Or.inl ran
    | inr idle => exact Or.inr ⟨Option.some_ne_none f, idle⟩

theorem unchanged_counts {ev : LogEntry} {k : Str} (other : ev.cmd ≠ .redis (.incr k))
    (same : ev.after.redis k = ev.before.redis k) : CountsUp k ev := by
  intro e left
  rw [same] at left
  exact Or.inr ⟨other, e.deadline, left⟩

theorem expire_counts {ev : LogEntry} {k : Str} {ttl : Nat} (cmd : ev.cmd = .redis (.expire k ttl))
    (ran : ev.after.redis = (ev.before.redis.expire ev.before.clock k ttl).2) : CountsUp k ev := by
  have other : ev.cmd ≠ .redis (.incr k) := by
    rw [cmd]
    intro same
    cases same
  unfold Store.expire at ran
  cases found : ev.before.redis.lookup ev.before.clock k with
  | none =>
    rw [found] at ran
    exact unchanged_counts other (by rw [ran])
  | some entry =>
    rw [found] at ran
    dsimp only at ran
    intro e left
    rw [ran, put_self, Option.some.injEq] at left
    subst e
    exact Or.inr ⟨other, entry.deadline, (lookup_some found).1⟩

/- What an event leaves of a counter, unless it has failed and left everything as it was. -/
theorem rate_step (run : Reaches (server cfg) allow seed.start s) {ev : LogEntry}
    (logged : ev ∈ s.log) {ip : Str} (counting : Counting (rateLimitKey ip) ev.before) :
    CountsUp (rateLimitKey ip) ev ∨ (ev.oracle.fault ≠ none ∧ (∃ c, ev.cmd = .redis c) ∧
      ev.after.redis = ev.before.redis) := by
  have performed := performed_of_run run ev logged
  by_cases writes : WritesKey (rateLimitKey ip) ev.cmd
  · cases rate_rule run logged ip writes with
    | inl incr =>
      cases ran_or_idle performed incr with
      | inr idle => exact Or.inr ⟨idle.1, ⟨_, incr⟩, idle.2⟩
      | inl ran =>
        obtain ⟨d, counted, -⟩ := incr_counts counting
        dsimp only [RedisCmd.run] at ran
        rw [counted] at ran
        dsimp only at ran
        left
        intro e left
        rw [ran, put_self, Option.some.injEq] at left
        exact Or.inl ⟨incr, d, left.symm⟩
    | inr expire =>
      obtain ⟨ttl, expire⟩ := expire
      cases ran_or_idle performed expire with
      | inr idle => exact Or.inr ⟨idle.1, ⟨_, expire⟩, idle.2⟩
      | inl ran => exact Or.inl (expire_counts expire ran)
  · left
    apply unchanged_counts _ (key_frame writes performed)
    intro incr
    rw [incr] at writes
    exact writes List.mem_cons_self

theorem rate_counting (run : Reaches (server cfg) allow seed.start s) (ip : Str) : ∀ ev ∈ s.log,
    Counting (rateLimitKey ip) ev.before → Counting (rateLimitKey ip) ev.after := by
  intro ev logged counting
  cases rate_step run logged counting with
  | inl up => exact counting_after counting up
  | inr idle =>
    unfold Counting
    rw [idle.2.2]
    exact counting

theorem rate_count_up (run : Reaches (server cfg) allow seed.start s) {mid : Log}
    (answers : RedisAnswers mid) (ip : Str) : ∀ ev ∈ mid, ev ∈ s.log →
      Counting (rateLimitKey ip) ev.before → CountsUp (rateLimitKey ip) ev := by
  intro ev member logged counting
  cases rate_step run logged counting with
  | inl up => exact up
  | inr idle =>
    obtain ⟨failed, ⟨c, cmd⟩, -⟩ := idle
    exact absurd (answers ev member c cmd) failed

/-- The rate limit lets a request pass by the counter under the key. -/
def passesBy (cfg : Config) (key : Str) (ev : LogEntry) : Bool :=
  decision cfg key ev.exchange = some true

theorem passesBy_incr {key : Str} {ev : LogEntry} (passing : passesBy cfg key ev = true) :
    ∃ r, ev.exchange = ⟨.redis (.incr key), r⟩ ∧ letsPass cfg r = true := by
  unfold passesBy decision at passing
  split at passing
  · rename_i k r exchange
    split at passing
    · rename_i same
      rw [same] at exchange
      simp only [Option.some.injEq, decide_eq_true_eq] at passing
      exact ⟨r, exchange, passing⟩
    · simp at passing
  · simp at passing

/- While the counter is kept, no more requests pass by it than allowed. -/
theorem passes_by_counter (run : Reaches (server cfg) allow seed.start s) {ip : Str}
    {late mid oldest : Log} (split : s.log = late ++ (mid ++ oldest)) (answers : RedisAnswers mid)
    (unbroken : Unbroken (rateLimitKey ip) mid) :
    mid.countP (passesBy cfg (rateLimitKey ip)) ≤ cfg.rateLimitMax.toNat := by
  rcases newest_split (fun ev => passesBy cfg (rateLimitKey ip) ev = true) mid with
    never | ⟨newer, ev, early, rfl, passing, none_since⟩
  · rw [List.countP_eq_zero.mpr never]
    exact Nat.zero_le _
  · have at_ev : s.log = (late ++ newer) ++ ev :: (early ++ oldest) := by rw [split]; simp
    have logged : ev ∈ s.log := by rw [at_ev]; simp
    have counting := counting_before run (rate_counting run ip) at_ev
    obtain ⟨r, exchange, lets⟩ := passesBy_incr passing
    have no_fault : ev.oracle.fault = none :=
      answers ev (by simp) _ (congrArg Exchange.cmd exchange)
    obtain ⟨answer, -⟩ := exchange_redis (performed_of_run run ev logged) exchange
    obtain ⟨d, counted, -⟩ := incr_counts counting
    rw [faulty_ok no_fault] at answer
    dsimp only [RedisCmd.run] at answer
    rw [counted] at answer
    rw [answer] at lets
    have within : tally (rateLimitKey ip) ev.before + 1 ≤ cfg.rateLimitMax := of_decide_eq_true lets
    have counts := tally_counts run (rate_counting run ip) at_ev
      (fun c member => rate_count_up run answers ip c (by simp [member]) (by rw [at_ev]; simp [member]))
      (fun n x o shape => unbroken (newer ++ ev :: n) x o (by rw [shape]; simp))
      (unbroken newer ev early rfl)
    have fewer : early.countP (passesBy cfg (rateLimitKey ip)) ≤
        early.countP (increments (rateLimitKey ip)) := by
      apply List.countP_mono_left
      intro c member passing
      obtain ⟨r, exchange, -⟩ := passesBy_incr passing
      exact decide_eq_true (congrArg Exchange.cmd exchange)
    rw [List.countP_append, List.countP_eq_zero.mpr none_since, List.countP_cons_of_pos passing]
    omega

end Counting
end Rule

section Front
variable {cfg : Config} {gin : ClientIP} {seed : Seed} {sends : Senders}

/- Every request that has come in is one the peers send. -/
theorem jobs_sent {t : Traffic} {s : Front} (drawn : ∀ l ∈ t, Sent sends l)
    (runs : traced cfg gin seed t = some s) :
    ∀ job ∈ s.jobs, ∀ r, job.req = .vote r → sends r.peer r.headers := by
  classical
  have run : Reaches (gateway cfg gin) (fun _ l => decide (Sent sends l)) { world := seed.world } s :=
    reaches_of_allowed (fun l member _ => decide_eq_true (drawn l member)) runs
  apply requests_satisfy (P := fun req => ∀ r, req = .vote r → sends r.peer r.headers) rfl _ _ run
  · intro _ req allowed r is
    subst is
    exact of_decide_eq_true allowed
  · intro c req spawned r is
    obtain ⟨req', -, same⟩ := List.mem_map.mp spawned
    rw [is] at same
    cases same

theorem passes_sender {s : Front} {peer : Str} {ev : LogEntry} (passing : passes cfg gin s peer ev = true) :
    ∃ job headers body, s.jobs[ev.caller]? = some job ∧
      job.req = .vote ⟨peer, headers, .requestOTP body⟩ ∧
        passesBy cfg (rateLimitKey (setup gin peer headers)) ev = true := by
  obtain ⟨job, at_job, held⟩ := (Option.any_eq_true ..).mp passing
  split at held
  · rename_i sender headers body is
    simp only [Bool.and_eq_true, decide_eq_true_eq] at held
    obtain ⟨rfl, let_pass⟩ := held
    exact ⟨job, headers, body, at_job, is, decide_eq_true let_pass⟩
  · cases held

/- With one address for the peer all its requests are counted on one counter. -/
theorem passes_bounded (one : OneAddress (setup gin) sends) : PassesBounded cfg gin seed sends := by
  intro t s drawn runs peer late mid oldest split answers window
  have sent := jobs_sent drawn runs
  have run := reached_behind runs
  by_cases some_pass : ∃ ev ∈ mid, passes cfg gin s peer ev = true
  · obtain ⟨ev, -, passing⟩ := some_pass
    obtain ⟨job, headers, body, at_job, is, -⟩ := passes_sender passing
    have sends_these := sent job (List.mem_of_getElem? at_job) _ is
    have counted : mid.countP (passes cfg gin s peer) ≤
        mid.countP (passesBy cfg (rateLimitKey (setup gin peer headers))) := by
      apply List.countP_mono_left
      intro c _ passing
      obtain ⟨job', headers', body', at_job', is', by_key⟩ := passes_sender passing
      have sends_those := sent job' (List.mem_of_getElem? at_job') _ is'
      rw [one peer headers headers' sends_these sends_those]
      exact by_key
    have bound := passes_by_counter run split answers (window headers sends_these)
    exact Nat.le_trans counted bound
  · have none_pass : mid.countP (passes cfg gin s peer) = 0 := by
      apply List.countP_eq_zero.mpr
      intro ev member passing
      exact some_pass ⟨ev, member, passing⟩
    rw [none_pass]
    exact Nat.zero_le _

/- Labels that agree become the same call. -/
theorem same_call (one : OneAddress (setup gin) sends) {l l' : Label Oracle Env Arrival}
    (agree : Label.rename withoutHeaders l = Label.rename withoutHeaders l') (sent : Sent sends l)
    (sent' : Sent sends l') : Label.rename (callOf gin) l = Label.rename (callOf gin) l' := by
  cases l with
  | run i o =>
    cases l' <;> cases agree
    rfl
  | env x =>
    cases l' <;> cases agree
    rfl
  | start arrival =>
    cases l' with
    | run i o => cases agree
    | env x => cases agree
    | start arrival' =>
      cases arrival with
      | other req =>
        cases arrival' <;> cases agree
        rfl
      | vote r =>
        cases arrival' with
        | other req => cases agree
        | vote r' =>
          obtain ⟨peer, headers, request⟩ := r
          obtain ⟨peer', headers', request'⟩ := r'
          cases agree
          have same := one peer headers headers' sent sent'
          cases request <;> simp [Label.rename, callOf, same]

theorem same_calls (one : OneAddress (setup gin) sends) {t t' : Traffic} (agree : Agree t t')
    (drawn : ∀ l ∈ t, Sent sends l) (drawn' : ∀ l ∈ t', Sent sends l) :
    t.map (Label.rename (callOf gin)) = t'.map (Label.rename (callOf gin)) := by
  induction t generalizing t' with
  | nil =>
    cases t' with
    | nil => rfl
    | cons l' t' => cases agree
  | cons l t ih =>
    cases t' with
    | nil => cases agree
    | cons l' t' =>
      obtain ⟨head, tail⟩ := List.cons.inj agree
      rw [List.map_cons, List.map_cons,
        same_call one head (drawn l List.mem_cons_self) (drawn' l' List.mem_cons_self),
        ih tail (fun x member => drawn x (List.mem_cons_of_mem _ member))
          (fun x member => drawn' x (List.mem_cons_of_mem _ member))]

theorem same_limits (one : OneAddress (setup gin) sends) : SameLimits cfg gin seed sends := by
  intro t t' agree drawn drawn' s runs
  have first := exec_behind cfg gin seed t
  rw [same_calls one agree drawn drawn', exec_behind cfg gin seed t', runs, Option.map_some,
    Option.map_eq_some_iff] at first
  obtain ⟨s', runs', same⟩ := first
  exact ⟨s', runs', by rw [same]⟩

/-- A request that comes as far as its count. -/
def knock (peer : Str) (h : Headers) (i : Nat) : Traffic :=
  [.start (.vote ⟨peer, h, .requestOTP (.error [])⟩), .run i {}]

def flood (peer : Str) (h : Headers) : Nat → Traffic
  | 0 => []
  | n + 1 => flood peer h n ++ knock peer h n

theorem exec_start {s s' : Front} {arrival : Arrival} {l : Label Oracle Env Arrival}
    (ran : (gateway cfg gin).step { s with jobs := s.jobs ++ [(gateway cfg gin).begin arrival] } l = some s') :
    exec (gateway cfg gin) anyTraffic s [.start arrival, l] = some s' := by
  change ((gateway cfg gin).step _ l).bind (fun s => exec (gateway cfg gin) anyTraffic s []) = some s'
  rw [ran]
  rfl

theorem knock_counts (cfg : Config) (gin : ClientIP) (s : Front) (peer : Str) (h : Headers) {key : Str}
    (counted : rateLimitKey (setup gin peer h) = key) : ∃ s' job,
      exec (gateway cfg gin) anyTraffic s (knock peer h s.jobs.length) = some s' ∧
      s'.world = { s.world with redis := (s.world.redis.incr atoi s.world.clock key).2 } ∧
      s'.jobs = s.jobs ++ [job] ∧ decided cfg (Job.rename (callOf gin) job) =
        some (letsPass cfg (fromStore (s.world.redis.incr atoi s.world.clock key).1)) := by
  let arrival : Arrival := .vote ⟨peer, h, .requestOTP (.error [])⟩
  obtain ⟨next, waiting⟩ : ∃ next, (gateway cfg gin).program arrival =
      .call (.redis (.incr (rateLimitKey (setup gin peer h)))) next := ⟨_, rfl⟩
  subst key
  have at_end : (s.jobs ++ [(gateway cfg gin).begin arrival])[s.jobs.length]? =
      some ((gateway cfg gin).begin arrival) := List.getElem?_concat_length
  have ran := step_complete (Step.run (m := gateway cfg gin)
    (s := { s with jobs := s.jobs ++ [(gateway cfg gin).begin arrival] }) (o := {}) at_end waiting rfl)
  let reply := fromStore (s.world.redis.incr atoi s.world.clock
    (rateLimitKey (setup gin peer h))).1
  refine ⟨_, ⟨arrival, [⟨.redis (.incr (rateLimitKey (setup gin peer h))), reply⟩], next reply⟩,
    exec_start ran, rfl, ?_, ?_⟩
  · change (s.jobs ++ [(gateway cfg gin).begin arrival]).set s.jobs.length _ ++ [] = _
    rw [List.append_nil, List.set_append_right _ _ (Nat.le_refl _), Nat.sub_self]
    rfl
  · simp [arrival, reply, Job.rename, callOf, decided, decision]

/- The counter after so many knocks, and the rest of a cold Redis. -/
def counted (key : Str) (n : Nat) : Store Str Str :=
  if n = 0 then fun _ => none else Store.put (fun _ => none) key (some ⟨.number n, none⟩)

theorem counted_incr (key : Str) (n now : Nat) :
    (counted key n).incr atoi now key = (.ok (n + 1), counted key (n + 1)) := by
  cases n with
  | zero => exact incr_absent atoi rfl now
  | succ n =>
    have held : counted key (n + 1) key = some ⟨.number ((n + 1 : Nat) : Int), none⟩ := by
      rw [counted, if_neg (Nat.succ_ne_zero n), put_self]
    rw [incr_forever atoi held]
    unfold counted
    rw [if_neg (Nat.succ_ne_zero n), if_neg (Nat.succ_ne_zero (n + 1))]
    congr 1
    funext k
    by_cases here : k = key <;> simp [Store.put, here]

theorem counted_other {key other : Str} (ne : other ≠ key) (n now : Nat) :
    ((counted key n).incr atoi now other).1 = .ok 1 := by
  have absent : counted key n other = none := by
    unfold counted
    split
    · rfl
    · exact put_other _ _ ne
  rw [incr_absent atoi absent]

theorem flood_counts (cfg : Config) (gin : ClientIP) (seed : Seed) (peer : Str) (h : Headers) (n : Nat) :
    ∃ s, traced cfg gin seed (flood peer h n) = some s ∧ s.jobs.length = n ∧
      s.world.redis = counted (rateLimitKey (setup gin peer h)) n := by
  induction n with
  | zero => exact ⟨_, rfl, rfl, rfl⟩
  | succ n ih =>
    obtain ⟨s, runs, count, redis⟩ := ih
    obtain ⟨s', job, knocked, world, jobs, -⟩ := knock_counts cfg gin s peer h rfl
    refine ⟨s', ?_, by rw [jobs, List.length_append, count]; rfl, ?_⟩
    · rw [count] at knocked
      unfold traced at runs ⊢
      rw [flood, exec_append, runs]
      exact knocked
    · rw [world, redis, counted_incr]

theorem flood_agrees (peer : Str) (h : Headers) (n : Nat) {h' : Headers} :
    Agree (flood peer h n ++ knock peer h n) (flood peer h n ++ knock peer h' n) := by
  unfold Agree
  rw [List.map_append, List.map_append]
  rfl

theorem flood_sent {peer : Str} {h : Headers} (sent : sends peer h) (n : Nat) :
    ∀ l ∈ flood peer h n, Sent sends l := by
  induction n with
  | zero => simp [flood]
  | succ n ih =>
    intro l member
    cases List.mem_append.mp member with
    | inl old => exact ih l old
    | inr new =>
      simp only [knock, List.mem_cons, List.not_mem_nil, or_false] at new
      rcases new with rfl | rfl
      · exact sent
      · trivial

/- Two addresses of one peer: the last of as many knocks as allowed and one more is let pass from
   the other address only. -/
theorem one_address (some_pass : 1 ≤ cfg.rateLimitMax) (same : SameLimits cfg gin seed sends) :
    OneAddress (setup gin) sends := by
  intro peer h h' sent sent'
  by_contra apart
  have other : rateLimitKey (setup gin peer h') ≠ rateLimitKey (setup gin peer h) :=
    fun keys => apart (((rateKey_eq _).1 _).mp keys).symm
  let n := cfg.rateLimitMax.toNat
  obtain ⟨s, runs, count, redis⟩ := flood_counts cfg gin seed peer h n
  obtain ⟨s₁, job₁, knocked₁, -, jobs₁, decided₁⟩ := knock_counts cfg gin s peer h rfl
  obtain ⟨s₂, job₂, knocked₂, -, jobs₂, decided₂⟩ := knock_counts cfg gin s peer h' rfl
  have drawn : ∀ h₀, sends peer h₀ → ∀ l ∈ flood peer h n ++ knock peer h₀ n, Sent sends l := by
    intro h₀ sent₀ l member
    cases List.mem_append.mp member with
    | inl early => exact flood_sent sent n l early
    | inr last =>
      simp only [knock, List.mem_cons, List.not_mem_nil, or_false] at last
      rcases last with rfl | rfl
      · exact sent₀
      · trivial
  have reaches : ∀ h₀ s₀, exec (gateway cfg gin) anyTraffic s (knock peer h₀ s.jobs.length) = some s₀ →
      traced cfg gin seed (flood peer h n ++ knock peer h₀ n) = some s₀ := by
    intro h₀ s₀ knocked
    rw [count] at knocked
    unfold traced at runs ⊢
    rw [exec_append, runs]
    exact knocked
  obtain ⟨s₃, again, limited⟩ := same _ _ (flood_agrees peer h n) (drawn h sent) (drawn h' sent')
    s₁ (reaches h s₁ knocked₁)
  rw [reaches h' s₂ knocked₂, Option.some.injEq] at again
  subst s₃
  have decisions := congrArg Limits.decisions limited
  simp only [limits, behind, Pool.rename, jobs₁, jobs₂, List.map_append, List.map_cons, List.map_nil]
    at decisions
  have last := List.append_cancel_left decisions
  rw [decided₁, decided₂, redis, counted_incr, counted_other other] at last
  simp only [fromStore, letsPass, List.cons.injEq, Option.some.injEq, and_true] at last
  have beyond : ¬ ((n : Int) + 1 ≤ cfg.rateLimitMax) := by omega
  rw [decide_eq_true some_pass, decide_eq_false beyond] at last
  cases last

end Front

/- If all that a peer sends resolves to one address the limits follow the peer, and where a request
   can pass at all, only then. -/
theorem limits_follow_peer (cfg : Config) {parseIP : Str → Option Str} {gin : ClientIP}
    (trusts : TrustsAll cfg parseIP gin) (seed : Seed) (sends : Senders) :
    (OneAddress (resolved cfg parseIP) sends → PeerLimited cfg gin seed sends) ∧
      (1 ≤ cfg.rateLimitMax →
        (PeerLimited cfg gin seed sends ↔ OneAddress (resolved cfg parseIP) sends)) := by
  have reads : setup gin = resolved cfg parseIP := funext fun peer => funext fun h => trusts.reads peer h
  rw [← reads]
  have enough : OneAddress (setup gin) sends → PeerLimited cfg gin seed sends :=
    fun one => ⟨same_limits one, passes_bounded one⟩
  exact ⟨enough, fun some_pass => ⟨fun limited => one_address some_pass limited.same, enough⟩⟩

def isOctet (s : Str) : Bool :=
  s ≠ [] && s.length ≤ 3 && s.all Char.isDigit && (s.length = 1 || s.head? ≠ some '0') &&
    (atoi s).any (· ≤ 255)

/-- net.ParseIP on the addresses of four octets. -/
def parseIPv4 (s : Str) : Option Str :=
  if (splitAll '.' s).length = 4 && (splitAll '.' s).all isOctet then some s else none

/- Peers that send no such headers. -/
theorem limits_follow_direct_peers :
    PeerLimited devConfig (clientIP devConfig parseIPv4) twoCandidates fun _ h => h = ⟨[], []⟩ := by
  apply (limits_follow_peer devConfig (clientIP_trusts devConfig parseIPv4) twoCandidates _).1
  rintro peer h h' rfl rfl
  rfl

/- Six requests of one peer, each with the headers that its number is given. -/
def sixKnocks (headers : Nat → Headers) : Traffic :=
  (List.range 6).flatMap fun i => knock "203.0.113.9".toList (headers i) i

def direct (_ : Nat) : Headers := ⟨[], []⟩

def invented (i : Nat) : Headers := ⟨"10.0.0.".toList ++ itoa i, []⟩

/- Sent as they are the sixth is denied; with a new X-Forwarded-For for each all six pass. -/
theorem limit_evaded : TrustsAll devConfig parseIPv4 (clientIP devConfig parseIPv4) ∧
    ∃ s s', Agree (sixKnocks direct) (sixKnocks invented) ∧
    traced devConfig (clientIP devConfig parseIPv4) twoCandidates (sixKnocks direct) = some s ∧
    traced devConfig (clientIP devConfig parseIPv4) twoCandidates (sixKnocks invented) = some s' ∧
    (limits devConfig (behind (clientIP devConfig parseIPv4) s)).decisions =
      List.replicate 5 (some true) ++ [some false] ∧
    (limits devConfig (behind (clientIP devConfig parseIPv4) s')).decisions =
      List.replicate 6 (some true) := by
  have plain : (traced devConfig (clientIP devConfig parseIPv4) twoCandidates (sixKnocks direct)).map
      (fun s => (limits devConfig (behind (clientIP devConfig parseIPv4) s)).decisions) =
      some (List.replicate 5 (some true) ++ [some false]) := by decide +kernel
  have evading : (traced devConfig (clientIP devConfig parseIPv4) twoCandidates (sixKnocks invented)).map
      (fun s => (limits devConfig (behind (clientIP devConfig parseIPv4) s)).decisions) =
      some (List.replicate 6 (some true)) := by decide +kernel
  obtain ⟨s, runs, denied⟩ := Option.map_eq_some_iff.mp plain
  obtain ⟨s', runs', passed⟩ := Option.map_eq_some_iff.mp evading
  exact ⟨clientIP_trusts devConfig parseIPv4, s, s', rfl, runs, runs', denied, passed⟩

end PeerLimits
