import VotingApp.AckedCodes
import VotingApp.AddressCap

/-!
How many wrong codes are answered against one record when every call runs to its end before
the next one. The attempts counter lives as long as a record does, but it starts with a
failure, and that may have been a failure against an earlier record.
-/
namespace GuessBudget
open GoText GoTime Tables EffectProgram CallPool PoolHistory ExpiringStore VotingWorld
open OtpService VotingSettings VoteService CustomDomains Handlers VotingServer
open Footprints Frames OtpRecords Provenance SettingsCache EmailBlock SingleUse AckedCodes AddressCap

def asksRedis (s : State) (i : Nat) : Bool :=
  match nextCmd s i with
  | some (.redis _) => true
  | _ => false

/-- A call starts, and time passes, only when no other call is under way, and Redis never fails. -/
def atomic (s : State) : Move → Bool
  | .start _ => s.jobs.all fun job => !busy job
  | .run i o => o.fault.isNone || !asksRedis s i
  | .env (.tick _) => s.jobs.all fun job => !busy job
  | .env _ => true

/-- What a counted failure leads to: the sixth blocks the email, and a block removes the record. -/
inductive Owed (email : Str) : History → Cmd → Prop where
  | sixth {n : Int} (full : maxOTPAttempts ≤ n) (past : History) :
    Owed email (⟨count email, .ok n⟩ :: past) (block email)
  | removal (r : Except GoErr Unit) (past : History) :
    Owed email (⟨block email, r⟩ :: past) (clear email)

def Owes (_ : Call) (past : History) (d : Cmd) : Prop := ∃ email, Owed email past d

def TurnRule (req : Call) (past : History) (c : Cmd) : Prop := ∀ d, Owes req past d → c = d

def Paid (req : Call) (past : History) : Prop := ∀ d, ¬ Owes req past d

section Rule
variable {cfg : Config} {req : Call}

theorem owed_cons {email : Str} {x : Exchange Cmd Reply} {past : History} {d : Cmd}
    (owed : Owed email (x :: past) d) :
    (∃ n, x = ⟨count email, .ok n⟩ ∧ maxOTPAttempts ≤ n ∧ d = block email) ∨
      ∃ r, x = ⟨block email, r⟩ ∧ d = clear email := by
  cases owed with
  | @sixth n full => exact Or.inl ⟨n, rfl, full, rfl⟩
  | removal r => exact Or.inr ⟨r, rfl, rfl⟩

theorem paid_cons {c : Cmd} (other : ∀ e, c ≠ count e ∧ c ≠ block e) (r : Reply c)
    (past : History) : Paid req (⟨c, r⟩ :: past) := by
  intro d owes
  obtain ⟨email, owed⟩ := owes
  rcases owed_cons owed with ⟨n, same, -, -⟩ | ⟨r', same, -⟩
  · exact (other email).1 (congrArg Exchange.cmd same)
  · exact (other email).2 (congrArg Exchange.cmd same)

theorem turn_neutral {c : Cmd} (other : ∀ e, c ≠ count e ∧ c ≠ block e) :
    Neutral (TurnRule req) (Paid req) c := by
  intro past paid
  constructor
  · intro d owes
    exact absurd owes (paid d)
  · intro r
    exact paid_cons other r past

/- The block that is due is set, and the removal follows. -/
theorem blockEmail_turns {email : Str} {past : History}
    (due : ∀ d, Owes req past d → d = block email) :
    (blockEmail email).Meets (TurnRule req) (fun now _ => Paid req now) past := by
  apply meets_redis
  · intro d owes
    exact (due d owes).symm
  · intro r
    apply meets_redis
    · intro d owes
      obtain ⟨e, owed⟩ := owes
      rcases owed_cons owed with ⟨n, same, -, -⟩ | ⟨r', same, rfl⟩
      · have head := congrArg Exchange.cmd same
        simp [count] at head
      · have head := congrArg Exchange.cmd same
        have email_is : email = e := by simpa [block] using head
        rw [email_is]
        rfl
    · intro r'
      exact paid_cons (c := clear email) (by simp [clear, count, block]) r' _

theorem recordFailure_turns (email : Str) :
    (recordFailure email).Keeps (TurnRule req) (Paid req) := by
  intro past paid
  apply meets_redis
  · intro d owes
    exact absurd owes (paid d)
  · intro r
    have due : ∀ d, Owes req (⟨count email, r⟩ :: past) d →
        d = block email ∧ ∃ n, r = .ok n ∧ maxOTPAttempts ≤ n := by
      intro d owes
      obtain ⟨e, owed⟩ := owes
      rcases owed_cons owed with ⟨n, same, full, rfl⟩ | ⟨r', same, -⟩
      · have head := congrArg Exchange.cmd same
        have email_is : email = e := by simpa [count] using head
        subst e
        cases same
        exact ⟨rfl, n, rfl, full⟩
      · have head := congrArg Exchange.cmd same
        simp [block, count] at head
    cases r with
    | error err =>
      intro d owes
      obtain ⟨-, n, same, -⟩ := due d owes
      cases same
    | ok attempts =>
      have few : ¬ maxOTPAttempts ≤ attempts → Paid req (⟨count email, .ok attempts⟩ :: past) := by
        intro below d owes
        obtain ⟨-, n, same, full⟩ := due d owes
        cases same
        exact below full
      dsimp only
      split
      · rename_i first
        have below : ¬ maxOTPAttempts ≤ attempts := by
          have six : ¬ (6 : Int) ≤ 1 := by decide
          rw [first]
          exact six
        rw [if_neg below]
        exact keeps_redis (turn_neutral (by simp [count, block])) (fun _ => keeps_done _) _ (few below)
      · split
        · exact blockEmail_turns fun d owes => (due d owes).1
        · rename_i below
          exact few below

theorem verify_turns (email otp : Str) :
    (OtpService.verify email otp).Keeps (TurnRule req) (Paid req) := by
  apply verify_keeps otp (recordFailure_turns email)
  · exact turn_neutral (by simp [count, block])
  · exact turn_neutral (by simp [count, block])
  · exact turn_neutral (by simp [count, block])

theorem turn_respected (cfg : Config) (req : Call) :
    Respected cfg req (TurnRule req) (Paid req) := by
  apply respected_of_verify
  · intro c sent
    cases sent with
    | rate ip =>
      apply turn_neutral
      intro e
      constructor
      · intro same
        simp only [count, Cmd.redis.injEq, RedisCmd.incr.injEq] at same
        simp at same
      · simp [block]
    | _ => exact turn_neutral (by simp [count, block])
  · intro c sent
    cases sent <;> exact turn_neutral (by simp [count, block])
  · intro email c sent
    cases sent <;> exact turn_neutral (by simp [count, block])
  · intro email otp _
    exact verify_turns email otp
  · intro email fp id ip userAgent
    exact turn_neutral (by simp [count, block])
  · intro id c sent
    cases sent <;> exact turn_neutral (by simp [count, block])
  · intro c sent
    cases sent with
    | mark =>
      apply turn_neutral
      intro e
      constructor
      · simp [count]
      · intro same
        simp only [block, Cmd.redis.injEq, RedisCmd.set.injEq] at same
        simp at same
    | _ => exact turn_neutral (by simp [count, block])

theorem program_turns (cfg : Config) (req : Call) :
    (program cfg req).Meets (TurnRule req) (fun now _ => Paid req now) [] := by
  apply program_keeps (turn_respected cfg req) []
  intro d owes
  obtain ⟨email, owed⟩ := owes
  cases owed

end Rule

section Turns
variable {cfg : Config} {seed : Seed} {s : State}

theorem answers_of_atomic (run : Reaches (server cfg) atomic seed.start s) : RedisAnswers s.log := by
  intro ev logged c cmd
  obtain ⟨late, older, split⟩ := List.append_of_mem logged
  obtain ⟨moment⟩ := moment_of_logged rfl run split
  have next : nextCmd moment.pre ev.caller = some (.redis c) := by
    rw [nextCmd_waiting moment.waiting moment.asked, cmd]
  have allowed := moment.allowed
  simp only [atomic, asksRedis, next, Bool.not_true, Bool.or_false] at allowed
  exact Option.isNone_iff_eq_none.mp allowed

/- Only one call is under way. -/
theorem one_call (run : Reaches (server cfg) atomic seed.start s) {i j : Nat}
    {job job' : Job Cmd Reply Call Answer} (at_i : s.jobs[i]? = some job)
    (at_j : s.jobs[j]? = some job') (busy_i : busy job = true) (busy_j : busy job' = true) : i = j := by
  apply one_busy rfl _ _ _ run i j job job' at_i at_j busy_i busy_j
  · intro t req allowed job member
    have idle := List.all_eq_true.mp allowed job member
    simpa using idle
  · intro c req member
    cases c with
    | goWarmCache =>
      rw [List.mem_singleton.mp member]
      rfl
    | _ => cases member
  · intro job c next r waiting is_busy
    unfold busy isFinished inBackground at is_busy ⊢
    rw [waiting]
    simp only [Bool.not_or, Bool.and_eq_true] at is_busy ⊢
    exact ⟨rfl, is_busy.2⟩

/- The warming of the cache sends the commands of the domain cache. -/
theorem background_sends (run : Reaches (server cfg) atomic seed.start s) {late older : Log}
    {ev : LogEntry} (split : s.log = late ++ ev :: older) :
    ∃ job, s.jobs[ev.caller]? = some job ∧ (inBackground job = true → DomainCmd ev.cmd) := by
  have meets : ∀ req, (program cfg req).Meets (fun _ c => req = .warmCache → DomainCmd c)
      (fun _ _ => True) [] := by
    intro req
    by_cases warms : req = .warmCache
    · subst req
      have issues : (program cfg .warmCache).Issues DomainCmd :=
        issues_bind warmCache_issues fun _ => by trivial
      apply meets_mono (meets_of_issues issues fun now c _ sent => sent)
      · intro past c sent _
        exact sent
      · intro past a _
        trivial
    · apply meets_trivial
      intro past c same
      exact absurd same warms
  obtain ⟨job, at_job, sends⟩ := contract_of_logged meets rfl rfl run split
  refine ⟨job, at_job, ?_⟩
  intro background
  apply sends
  unfold inBackground at background
  split at background
  · assumption
  · cases background

/- While one call is under way, whatever another owes has been done. -/
theorem owed_done {owed : Call → History → Cmd → Prop}
    (meets : ∀ req, (program cfg req).Meets (fun past c => ∀ d, owed req past d → c = d)
      (fun past _ => ∀ d, ¬ owed req past d) [])
    (run : Reaches (server cfg) atomic seed.start s) {late skip older : Log} {now ev : LogEntry}
    (split : s.log = late ++ now :: (skip ++ ev :: older)) (not_domain : ¬ DomainCmd now.cmd)
    (ev_not_domain : ¬ DomainCmd ev.cmd) {job : Job Cmd Reply Call Answer}
    (at_job : s.jobs[ev.caller]? = some job) {d : Cmd}
    (due : owed job.req (ev.exchange :: own ev.caller older) d) (other : now.cmd ≠ d) :
    ∃ (newer : Log) (next : LogEntry) (mid : Log), skip = newer ++ next :: mid ∧
      next.caller = ev.caller ∧ next.cmd = d ∧ own ev.caller mid = [] := by
  obtain ⟨moment⟩ := moment_of_logged rfl run split
  have at_ev : moment.pre.log = skip ++ ev :: older := moment.pre_log
  obtain ⟨waiting, at_waiting, background⟩ := background_sends moment.reached at_ev
  obtain ⟨job', at_job', kept⟩ := job_persists (since_moment moment) at_waiting
  rw [at_job, Option.some.injEq] at at_job'
  subst job'
  rw [kept.1] at due
  rcases owed_next (m := server cfg) meets rfl rfl moment.reached at_ev at_waiting due with
    ⟨nothing, unfinished⟩ | followed
  · exfalso
    have is_busy : ∀ j : Job Cmd Reply Call Answer, (∀ a, j.rest ≠ .done a) →
        ¬ inBackground j = true → busy j = true := by
      intro j running foreground
      have not_finished : isFinished j = false := by
        unfold isFinished
        split
        · rename_i a done
          exact absurd done (running a)
        · rfl
      simp [busy, not_finished, Bool.eq_false_iff.mpr foreground]
    have busy_ev : busy waiting = true :=
      is_busy waiting unfinished fun back => ev_not_domain (background back)
    have busy_now : busy moment.job = true := by
      apply is_busy
      · intro a done
        rw [moment.asked] at done
        cases done
      · intro back
        obtain ⟨last, at_last, background'⟩ := background_sends run split
        obtain ⟨later, at_later, kept'⟩ := job_persists moment.later moment.resumed
        rw [at_last, Option.some.injEq] at at_later
        subst later
        apply not_domain
        apply background'
        unfold inBackground at back ⊢
        rw [kept'.1]
        exact back
    have same := one_call moment.reached at_waiting moment.waiting busy_ev busy_now
    obtain ⟨job', at_job', rule⟩ := contract_of_logged meets rfl rfl run split
    rw [← same, at_job, Option.some.injEq] at at_job'
    subst job'
    rw [own_append, ← same, nothing, kept.1] at rule
    apply other
    apply rule
    simpa [own] using due
  · exact followed

/-- A wrong guess owes a count. -/
def OwesCount (cfg : Config) (req : Call) (past : History) (d : Cmd) : Prop :=
  ∃ email, Missed cfg req email past ∧ d = count email

/- When a wrong guess is compared, no other is waiting to be counted. -/
theorem none_uncounted (run : Reaches (server cfg) atomic seed.start s) {late older : Log}
    {now : LogEntry} (split : s.log = late ++ now :: older) (not_domain : ¬ DomainCmd now.cmd)
    {email : Str} (other : now.cmd ≠ count email) : uncounted cfg s.jobs email older = 0 := by
  have meets : ∀ req, (program cfg req).Meets (fun past c => ∀ d, OwesCount cfg req past d → c = d)
      (fun past _ => ∀ d, ¬ OwesCount cfg req past d) [] := by
    intro req
    have counted : Counted cfg req [] := by
      intro e missed
      obtain ⟨_, _, _, _, _, same, _⟩ := missed
      cases same
    apply meets_mono (program_keeps (guess_respected cfg req) [] counted)
    · intro past c rule d owes
      obtain ⟨e, missed, rfl⟩ := owes
      exact rule.2 e missed
    · intro past _ counted d owes
      obtain ⟨e, missed, -⟩ := owes
      exact counted e missed
  apply List.countP_eq_zero.mpr
  intro i _ owing
  unfold owes at owing
  split at owing
  · rename_i job x rest at_job past
    have missed : Missed cfg job.req email (x :: rest) := missed_iff owing
    obtain ⟨skip, ev, oldest, rfl, rfl, rfl, rfl, alone⟩ := own_cons_split past
    have read : ¬ DomainCmd ev.cmd := by
      obtain ⟨_, _, _, _, _, same, _⟩ := missed
      have cmd := congrArg Exchange.cmd (List.cons.inj same).1
      rw [show ev.cmd = _ from cmd]
      intro sent
      cases sent
    obtain ⟨newer, next, mid, rfl, mine, -, -⟩ :=
      owed_done meets run split not_domain read at_job ⟨email, missed, rfl⟩ other
    exact alone next (by simp) mine
  · cases owing

end Turns

/-- The number under the key of the counter, whether it has expired or not. -/
def tally (email : Str) (w : World) : Int :=
  match w.redis (otpAttemptsKey email) with
  | some ⟨.number n, _⟩ => n
  | _ => 0

/-- A record of the email and what has happened since, up to its removal or the next record. -/
structure Life (s : State) (email : Str) (late mid : Log) (store : LogEntry) (older : Log) : Prop where
  order : s.log = late ++ (mid ++ store :: older)
  stores : Stores email store
  unwritten : ∀ ev ∈ mid, ¬ Wrote (otpKey email) ev

/-- Each failure counted in these events, but for the first, finds the counter still there. -/
def CountedOn (email : Str) (mid : Log) : Prop := ∀ newer c rest, mid = newer ++ c :: rest →
  c.cmd = count email → (∃ c' ∈ rest, c'.cmd = count email) → counter email c.before ≠ 0

/-- A counter that was running when the record was stored does not run out between two failures
counted against it. -/
def InPhase (email : Str) (store : LogEntry) (mid : Log) : Prop :=
  counter email store.before ≠ 0 → CountedOn email mid

section Counter
variable {cfg : Config} {allow : State → Move → Bool} {seed : Seed} {s : State}

theorem tally_eq {email : Str} {w : World} {n : Int} {d : Option Nat}
    (held : w.redis (otpAttemptsKey email) = some ⟨.number n, d⟩) : tally email w = n := by
  unfold tally
  rw [held]

theorem tally_congr {email : Str} {w w' : World}
    (same : w'.redis (otpAttemptsKey email) = w.redis (otpAttemptsKey email)) :
    tally email w' = tally email w := by
  unfold tally
  rw [same]

theorem numeric_before (run : Reaches (server cfg) allow seed.start s) (clean : RedisAnswers s.log)
    {late older : Log} {ev : LogEntry} (split : s.log = late ++ ev :: older) (email : Str) :
    Numeric email ev.before :=
  Counters.counting_before run (attempts_counting run clean email) split

/- Without a removal the counted failures are no more than the number in the store. -/
theorem counts_le_tally (run : Reaches (server cfg) allow seed.start s) (clean : RedisAnswers s.log)
    {email : Str} {late early oldest : Log} {ev : LogEntry}
    (split : s.log = late ++ ev :: (early ++ oldest))
    (unwritten : ∀ x ∈ early, ¬ Wrote (otpKey email) x) (counted : CountedOn email early) :
    (early.countP (counts email) : Int) ≤ tally email ev.before := by
  induction early generalizing late ev with
  | nil =>
    have numeric := numeric_before run clean split email
    cases held : ev.before.redis (otpAttemptsKey email) with
    | none => simp [tally, held]
    | some e =>
      obtain ⟨n, d, rfl, positive⟩ := numeric e held
      rw [tally_eq held]
      simp only [List.countP_nil, Int.natCast_zero]
      omega
  | cons c early ih =>
    have at_c : s.log = (late ++ [ev]) ++ c :: (early ++ oldest) := by rw [split]; simp
    have logged : c ∈ s.log := by rw [at_c]; simp
    have rest := ih at_c (fun x member => unwritten x (List.mem_cons_of_mem c member))
      (fun newer x older shape => counted (c :: newer) x older (by rw [shape]; rfl))
    have adjacent : s.log = late ++ ev :: ([] ++ c :: (early ++ oldest)) := split
    obtain ⟨same, -⟩ := key_between run adjacent (k := otpAttemptsKey email) (by simp)
    rw [tally_congr same]
    have numeric := numeric_before run clean at_c email
    rcases attempts_cases run clean logged numeric with
      ⟨n, d, exchange, rfl, after, ⟨zero, -⟩ | before⟩ | ⟨other, ⟨wrote, -⟩ | kept | ⟨e, before, after⟩⟩
    · have is_count : c.cmd = count email := congrArg Exchange.cmd exchange
      have head : counts email c = true := decide_eq_true is_count
      have nothing : early.countP (counts email) = 0 := by
        apply List.countP_eq_zero.mpr
        intro x member is_counted
        exact counted [] c early rfl is_count ⟨x, member, of_decide_eq_true is_counted⟩ zero
      rw [List.countP_cons_of_pos head, nothing, tally_eq after, zero]
      simp
    · have is_count : c.cmd = count email := congrArg Exchange.cmd exchange
      have head : counts email c = true := decide_eq_true is_count
      rw [tally_eq before] at rest
      rw [List.countP_cons_of_pos head, tally_eq after]
      push_cast
      omega
    · exact absurd wrote (unwritten c List.mem_cons_self)
    · have head : ¬ counts email c = true := by simpa [counts] using other
      rw [List.countP_cons_of_neg head, tally_congr kept]
      exact rest
    · have head : ¬ counts email c = true := by simpa [counts] using other
      have before := (lookup_some before).1
      obtain ⟨n, d, rfl, -⟩ := numeric e before
      rw [tally_eq before] at rest
      rw [List.countP_cons_of_neg head, tally_eq after]
      exact rest

theorem counter_zero {email : Str} {w : World} (numeric : Numeric email w)
    (zero : counter email w = 0) : w.redis.lookup w.clock (otpAttemptsKey email) = none := by
  cases found : w.redis.lookup w.clock (otpAttemptsKey email) with
  | none => rfl
  | some e =>
    obtain ⟨n, d, rfl, positive⟩ := numeric e (lookup_some found).1
    unfold counter at zero
    rw [found] at zero
    dsimp only at zero
    omega

/-- The counter has been started since and cannot run out before this time. -/
def Lasts (email : Str) (time : Nat) (w : World) : Prop := ∃ n d,
  w.redis (otpAttemptsKey email) = some ⟨.number n, d⟩ ∧ 1 ≤ n ∧ ∀ t ∈ d, time ≤ t

theorem lasting_counter {email : Str} {time : Nat} {w : World} (lasts : Lasts email time w)
    (early : w.clock < time) : counter email w ≠ 0 := by
  obtain ⟨n, d, held, positive, late⟩ := lasts
  have live : Entry.live w.clock (⟨.number n, d⟩ : Entry Str) = true := by
    cases d with
    | none => rfl
    | some t => exact live_iff.mpr (Nat.lt_of_lt_of_le early (late t rfl))
  unfold counter Store.lookup
  rw [held, Option.filter_some, if_pos live]
  dsimp only
  omega

/- A counter that is started after the record is stored outlives the record. -/
theorem started_lasts (run : Reaches (server cfg) allow seed.start s) (clean : RedisAnswers s.log)
    {email : Str} {late early older : Log} {ev store : LogEntry}
    (split : s.log = late ++ ev :: (early ++ store :: older)) (stores : Stores email store)
    (unwritten : ∀ x ∈ early, ¬ Wrote (otpKey email) x) (fresh : counter email store.before = 0) :
    ((∀ c ∈ early, c.cmd ≠ count email) ∧
      ev.before.redis.lookup ev.before.clock (otpAttemptsKey email) = none) ∨
      Lasts email (store.before.clock + otpTTL) ev.before := by
  have performed := performed_of_run run
  induction early generalizing late ev with
  | nil =>
    left
    constructor
    · intro c member
      cases member
    · have at_store : s.log = (late ++ [ev]) ++ store :: older := by rw [split]; simp
      have numeric := numeric_before run clean at_store email
      have adjacent : s.log = late ++ ev :: ([] ++ store :: older) := split
      obtain ⟨same, -⟩ := key_between run adjacent (k := otpAttemptsKey email) (by simp)
      have other : ¬ WritesKey (otpAttemptsKey email) store.cmd := by
        obtain ⟨-, value, ttl, cmd⟩ := stores
        rw [cmd]
        simp [WritesKey, writtenKeys]
      have kept := key_frame other (performed store (by rw [split]; simp))
      exact gone_stays (same.trans kept) (clock_between run adjacent) (counter_zero numeric fresh)
  | cons c early ih =>
    have at_c : s.log = (late ++ [ev]) ++ c :: (early ++ store :: older) := by rw [split]; simp
    have logged : c ∈ s.log := by rw [at_c]; simp
    have adjacent : s.log = late ++ ev :: ([] ++ c :: (early ++ store :: older)) := split
    obtain ⟨same, -⟩ := key_between run adjacent (k := otpAttemptsKey email) (by simp)
    have ticking := clock_between run adjacent
    have after_store := clock_between run at_c
    have numeric := numeric_before run clean at_c email
    have before := ih at_c fun x member => unwritten x (List.mem_cons_of_mem c member)
    rcases attempts_cases run clean logged numeric with
      ⟨n, d, exchange, rfl, after, origin⟩ | ⟨other, ⟨wrote, -⟩ | kept | ⟨e, found, after⟩⟩
    · right
      have nonneg := counter_nonneg numeric
      refine ⟨_, d, same.trans after, by omega, ?_⟩
      rcases origin with ⟨-, rfl⟩ | running
      · intro t member
        cases member
      · rcases before with ⟨-, gone⟩ | ⟨m, d', held, -, late⟩
        · obtain ⟨m, d', is, positive⟩ := numeric _ running
          have zero : counter email c.before = 0 := by
            unfold counter
            rw [gone]
          rw [zero] at is
          cases is
          omega
        · rw [running] at held
          cases held
          exact late
    · exact absurd wrote (unwritten c List.mem_cons_self)
    · rcases before with ⟨none_counted, gone⟩ | ⟨m, d, held, positive, late⟩
      · left
        constructor
        · intro x member
          rcases List.mem_cons.mp member with rfl | member
          · exact other
          · exact none_counted x member
        · exact gone_stays (same.trans kept) ticking gone
      · exact Or.inr ⟨m, d, (same.trans kept).trans held, positive, late⟩
    · rcases before with ⟨-, gone⟩ | ⟨m, d, held, positive, -⟩
      · rw [gone] at found
        cases found
      · obtain ⟨raw, -⟩ := lookup_some found
        rw [held, Option.some.injEq] at raw
        subst e
        refine Or.inr ⟨m, some (c.before.clock + otpTTL), same.trans after, positive, ?_⟩
        intro t member
        cases member
        omega

end Counter

section Budget
variable {cfg : Config} {seed : Seed} {s : State}

/- The sixth failure has removed the record before the next call reads. -/
theorem sixth_clears (run : Reaches (server cfg) atomic seed.start s) {late skip older : Log}
    {now c : LogEntry} (split : s.log = late ++ now :: (skip ++ c :: older)) {email : Str} {key : Str}
    (reads : now.cmd = .redis (.get key)) {n : Int} (exchange : c.exchange = ⟨count email, .ok n⟩)
    (full : maxOTPAttempts ≤ n) : ∃ drop ∈ skip, Wrote (otpKey email) drop := by
  have not_domain : ¬ DomainCmd now.cmd := by
    rw [reads]
    intro sent
    cases sent
  have meets := program_turns cfg
  have job_of : ∀ {front back : Log} {ev : LogEntry}, s.log = front ++ ev :: back →
      ∃ job, s.jobs[ev.caller]? = some job := by
    intro front back ev at_ev
    obtain ⟨job, at_job, -⟩ := contract_of_logged meets rfl rfl run at_ev
    exact ⟨job, at_job⟩
  have counts_here : c.cmd = count email := congrArg Exchange.cmd exchange
  have c_foreground : ¬ DomainCmd c.cmd := by
    rw [counts_here]
    intro sent
    cases sent
  obtain ⟨job, at_job⟩ := job_of (show s.log = (late ++ now :: skip) ++ c :: older by rw [split]; simp)
  have due : Owes job.req (c.exchange :: own c.caller older) (block email) := by
    rw [exchange]
    exact ⟨email, .sixth full _⟩
  obtain ⟨newer, b, mid, rfl, mine, blocks, -⟩ := owed_done meets run split not_domain c_foreground
    at_job due (by rw [reads]; simp [block])
  have at_b : s.log = late ++ now :: (newer ++ b :: (mid ++ c :: older)) := by rw [split]; simp
  obtain ⟨r, blocked⟩ := exchange_of_cmd blocks
  have b_foreground : ¬ DomainCmd b.cmd := by
    rw [blocks]
    intro sent
    generalize shape : block email = d at sent
    cases sent with
    | mark =>
      simp only [block, Cmd.redis.injEq, RedisCmd.set.injEq] at shape
      simp at shape
    | _ => cases shape
  obtain ⟨job', at_job'⟩ := job_of
    (show s.log = (late ++ now :: newer) ++ b :: (mid ++ c :: older) by rw [at_b]; simp)
  have due' : Owes job'.req (b.exchange :: own b.caller (mid ++ c :: older)) (clear email) := by
    rw [blocked]
    exact ⟨email, .removal r _⟩
  obtain ⟨newest, drop, mid', rfl, -, clears, -⟩ := owed_done meets run at_b not_domain b_foreground
    at_job' due' (by rw [reads]; simp [clear])
  refine ⟨drop, by simp, ?_, ?_⟩
  · rw [clears]
    exact List.mem_cons_self
  · intro f fault
    rw [answers_of_atomic run drop (by rw [at_b]; simp) _ clears] at fault
    cases fault

theorem guess_reads {jobs : List (Job Cmd Reply Call Answer)} {email : Str} {ev : LogEntry}
    (wrong : wrongGuess cfg jobs email ev = true) :
    ∃ stored, ev.exchange = ⟨.redis (.get (otpKey email)), .ok stored⟩ := by
  obtain ⟨job, -, is_missed⟩ := (Option.any_eq_true ..).mp wrong
  have missed : Missed cfg job.req email [ev.exchange] := missed_iff is_missed
  obtain ⟨otp, stored, code, rest, -, same, -⟩ := missed
  exact ⟨stored, (List.cons.inj same).1⟩

/- While the record is read, at most five failures have been counted against it. -/
theorem counted_below (run : Reaches (server cfg) atomic seed.start s) {email : Str}
    {late early older : Log} {guess store : LogEntry}
    (split : s.log = late ++ guess :: (early ++ store :: older)) {key : Str}
    (reads : guess.cmd = .redis (.get key))
    (unwritten : ∀ ev ∈ early, ¬ Wrote (otpKey email) ev) (counted : CountedOn email early) :
    (early.countP (counts email) : Int) < maxOTPAttempts := by
  have clean := answers_of_atomic run
  rcases newest_split (fun ev => ev.cmd = count email) early with
    never | ⟨skip, c, rest, rfl, is_count, none_since⟩
  · have nothing : early.countP (counts email) = 0 := by
      apply List.countP_eq_zero.mpr
      intro x member is_counted
      exact never x member (of_decide_eq_true is_counted)
    rw [nothing]
    decide
  · have at_c : s.log = late ++ guess :: (skip ++ c :: (rest ++ store :: older)) := by rw [split]; simp
    have after_c : s.log = (late ++ guess :: skip) ++ c :: (rest ++ store :: older) := by
      rw [at_c]
      simp
    have logged : c ∈ s.log := by rw [after_c]; simp
    have numeric := numeric_before run clean after_c email
    have older_counts := counts_le_tally run clean after_c
      (fun x member => unwritten x (by simp [member]))
      (fun newer x last shape => counted (skip ++ c :: newer) x last (by rw [shape]; simp))
    have head : counts email c = true := decide_eq_true is_count
    have nothing : skip.countP (counts email) = 0 := by
      apply List.countP_eq_zero.mpr
      intro x member is_counted
      exact none_since x member (of_decide_eq_true is_counted)
    rw [List.countP_append, nothing, List.countP_cons_of_pos head]
    rcases attempts_cases run clean logged numeric with
      ⟨n, d, exchange, value, after, origin⟩ | ⟨other, -⟩
    · have at_most : (rest.countP (counts email) : Int) + 1 ≤ n := by
        rcases origin with ⟨zero, -⟩ | running
        · have none_before : rest.countP (counts email) = 0 := by
            apply List.countP_eq_zero.mpr
            intro x member is_counted
            exact counted skip c rest rfl is_count ⟨x, member, of_decide_eq_true is_counted⟩ zero
          rw [none_before, value, zero]
          simp
        · rw [tally_eq running] at older_counts
          rw [value]
          omega
      have below : n < maxOTPAttempts := by
        by_contra full
        obtain ⟨drop, member, wrote⟩ :=
          sixth_clears run at_c reads exchange (Int.not_lt.mp full)
        exact unwritten drop (by simp [member]) wrote
      push_cast
      omega
    · exact absurd is_count other

/- In every atomic run, against a record that no running counter gets out of phase with, at most
   maxOTPAttempts wrong codes are compared before it is removed or replaced. -/
theorem guess_budget (run : Reaches (server cfg) atomic seed.start s) (email : Str) :
    ∀ late mid store older, Life s email late mid store older → InPhase email store mid →
      (mid.countP (wrongGuess cfg s.jobs email) : Int) ≤ maxOTPAttempts := by
  intro late mid store older life in_phase
  have clean := answers_of_atomic run
  rcases newest_split (fun ev => wrongGuess cfg s.jobs email ev = true) mid with
    never | ⟨newer, guess, early, rfl, wrong, none_since⟩
  · rw [List.countP_eq_zero.mpr never]
    decide
  · have at_guess : s.log = (late ++ newer) ++ guess :: (early ++ store :: older) := by
      rw [life.order]
      simp
    have at_early : s.log = (late ++ newer ++ [guess]) ++ (early ++ store :: older) := by
      rw [life.order]
      simp
    obtain ⟨stored, exchange⟩ := guess_reads wrong
    have reads : guess.cmd = .redis (.get (otpKey email)) := congrArg Exchange.cmd exchange
    have unwritten : ∀ ev ∈ early, ¬ Wrote (otpKey email) ev :=
      fun ev member => life.unwritten ev (by simp [member])
    have in_time : guess.before.clock < store.before.clock + otpTTL := by
      have at_store : s.log = (late ++ newer ++ guess :: early) ++ store :: older := by
        rw [at_guess]
        simp
      obtain ⟨value, -, left⟩ := stored_entry run at_store life.stores
      obtain ⟨same, -⟩ := key_unwritten run at_guess unwritten
      have performed := performed_of_run run guess (by rw [at_guess]; simp)
      obtain ⟨answer, -⟩ := answered_redis performed exchange
      rw [RedisCmd.run, get_text itoa (same.trans left) guess.before.clock] at answer
      split at answer
      · assumption
      · cases answer
    have counted : CountedOn email early := by
      by_cases fresh : counter email store.before = 0
      · intro front c rest shape is_count before
        have at_c : s.log = (late ++ newer ++ guess :: front) ++ c :: (rest ++ store :: older) := by
          rw [at_guess, shape]
          simp
        have ordered : s.log = (late ++ newer) ++ guess :: (front ++ c :: (rest ++ store :: older)) := by
          rw [at_guess, shape]
          simp
        have ticking := clock_between run ordered
        rcases started_lasts run clean at_c life.stores
          (fun x member => unwritten x (by rw [shape]; simp [member])) fresh with
          ⟨none_counted, -⟩ | lasts
        · obtain ⟨c', member, is_count'⟩ := before
          exact absurd is_count' (none_counted c' member)
        · exact lasting_counter lasts (by omega)
      · intro front c rest shape
        exact in_phase fresh (newer ++ guess :: front) c rest (by rw [shape]; simp)
    have accounted := guesses_accounted run email at_early
    have read_only : ¬ DomainCmd guess.cmd := by
      rw [reads]
      intro sent
      cases sent
    have none_owed : uncounted cfg s.jobs email (early ++ store :: older) = 0 := by
      apply none_uncounted run at_guess read_only
      rw [reads]
      simp [count]
    have below := counted_below run at_guess reads unwritten counted
    rw [none_owed] at accounted
    rw [List.countP_append, List.countP_eq_zero.mpr none_since, List.countP_cons_of_pos wrong]
    push_cast
    omega

end Budget

/-- The events since the last record of the email was stored. -/
def sinceStore (email : Str) (log : Log) : Log :=
  log.takeWhile fun ev => !setsKey (otpKey email) ev

theorem last_life {s : State} (email : Str) (stored : s.log.any (setsKey (otpKey email)) = true)
    (clean : ∀ ev ∈ s.log, ev.oracle.fault = none)
    (kept : ∀ ev ∈ sinceStore email s.log, ¬ WritesKey (otpKey email) ev.cmd) :
    ∃ store older, store ∈ s.log ∧ Life s email [] (sinceStore email s.log) store older := by
  rcases newest_split (fun ev => setsKey (otpKey email) ev = true) s.log with
    never | ⟨newer, store, older, split, sets, since⟩
  · obtain ⟨ev, member, sets⟩ := List.any_eq_true.mp stored
    exact absurd sets (never ev member)
  · have taken : sinceStore email s.log = newer := by
      unfold sinceStore
      rw [split, List.takeWhile_append_of_pos]
      · rw [List.takeWhile_cons_of_neg (by simp [sets]), List.append_nil]
      · intro ev member
        simpa using since ev member
    have logged : store ∈ s.log := by rw [split]; simp
    refine ⟨store, older, logged, ?_⟩
    rw [taken] at kept ⊢
    constructor
    · exact split
    · constructor
      · intro f fault
        rw [clean store logged] at fault
        cases fault
      · unfold setsKey at sets
        split at sets
        · rename_i key value ttl cmd
          have same : key = otpKey email := of_decide_eq_true sets
          subst key
          exact ⟨value, ttl, cmd⟩
        · cases sets
    · intro ev member wrote
      exact kept ev member wrote.1

/- A code is stored and guessed wrong twice. -/
def guessedTwice : State :=
  after (server devConfig) atomic twoCandidates.start
    (storeMoves ++ guess "111111" :: runs 1 4 ++ guess "222222" :: runs 2 3)

theorem guess_budget_twice : ∃ late mid store older,
    Life guessedTwice voterEmail late mid store older ∧ InPhase voterEmail store mid ∧
      mid.countP (wrongGuess devConfig guessedTwice.jobs voterEmail) = 2 ∧
        (mid.countP (wrongGuess devConfig guessedTwice.jobs voterEmail) : Int) ≤ maxOTPAttempts := by
  have reached : Reaches (server devConfig) atomic twoCandidates.start guessedTwice :=
    reaches_after (by decide +kernel)
  obtain ⟨store, older, logged, life⟩ := last_life (s := guessedTwice) voterEmail
    (by decide +kernel) (by decide +kernel) (by decide +kernel)
  have in_phase : InPhase voterEmail store (sinceStore voterEmail guessedTwice.log) := by
    intro running
    exfalso
    apply running
    have fresh : ∀ ev ∈ guessedTwice.log, setsKey (otpKey voterEmail) ev = true →
        counter voterEmail ev.before = 0 := by
      decide +kernel
    obtain ⟨-, value, ttl, cmd⟩ := life.stores
    exact fresh store logged (by simp [setsKey, cmd])
  exact ⟨[], _, store, older, life, in_phase, by decide +kernel,
    guess_budget reached voterEmail [] _ store older life in_phase⟩

/- A wrong guess starts the counter; the voter asks again, is wrong four times, and is wrong five
   times more after the counter has run out. -/
def guessedOn : State :=
  after (server devConfig) atomic twoCandidates.start
    (.start (requestFrom office "a@gmail.com" "phone a" 1) :: runs 0 14 ++ guess "111111" :: runs 1 4 ++
      .env (.tick (4 * minute)) :: .start (requestFrom office "a@gmail.com" "phone a" 1) :: runs 2 11 ++
        guess "111111" :: runs 3 3 ++ guess "222222" :: runs 4 3 ++ guess "333333" :: runs 5 3 ++
          guess "444444" :: runs 6 3 ++ .env (.tick minute) :: guess "555555" :: runs 7 4 ++
            guess "666666" :: runs 8 3 ++ guess "777777" :: runs 9 3 ++ guess "888888" :: runs 10 3 ++
              guess "999999" :: runs 11 3)

/- Nine wrong codes are answered against the second record, and the email is not blocked. -/
theorem nine_guesses_at_one_code : ∃ s, Reaches (server devConfig) atomic twoCandidates.start s ∧
    (∀ job ∈ s.jobs, isFinished job = true) ∧ ∃ late mid store older,
      Life s voterEmail late mid store older ∧ (∀ ev ∈ mid, ¬ Blocked voterEmail ev.before) ∧
        mid.countP (wrongGuess devConfig s.jobs voterEmail) = 9 ∧ maxOTPAttempts < 9 := by
  refine ⟨guessedOn, reaches_after (by decide +kernel), by decide +kernel, ?_⟩
  obtain ⟨store, older, -, life⟩ := last_life (s := guessedOn) voterEmail
    (by decide +kernel) (by decide +kernel) (by decide +kernel)
  refine ⟨[], _, store, older, life, ?_, by decide +kernel, by decide⟩
  have free : ∀ ev ∈ sinceStore voterEmail guessedOn.log,
      ev.before.redis.present ev.before.clock (otpBlockedKey voterEmail) = 0 := by
    decide +kernel
  intro ev member blocked
  exact blocked (free ev member)

end GuessBudget
