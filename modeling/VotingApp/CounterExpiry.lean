import VotingApp.Isolation

/-!
The deadlines of the counters. Only the caller that saw the value one sets a deadline, by a
second command whose answer nobody reads, so a counter without one has a caller to thank.
-/
namespace CounterExpiry
open GoText GoTime Tables EffectProgram CallPool PoolHistory Purging ExpiringStore VotingWorld
open OtpService VotingSettings CustomDomains Handlers VotingServer Footprints Frames OtpRecords
open Aliases RedisKeys Isolation

abbrev Desk := Pool Cmd Reply World Oracle Op Answer
abbrev DeskMove := Label Oracle Env Op

/-- How long a key is meant to count, if it is a counter. -/
def Key.window : Key → Option Nat
  | .rate _ => some rateLimitWindow
  | .attempts _ => some otpTTL
  | _ => none

def Counter (key : Str) (window : Nat) : Prop := ∃ k : Key, Key.window k = some window ∧ key = k.text

theorem counter_window {key : Str} {window window' : Nat} (one : Counter key window)
    (other : Counter key window') : window = window' := by
  obtain ⟨k, is, text⟩ := one
  obtain ⟨k', is', text'⟩ := other
  have same : k = k' := text_injective (text.symm.trans text')
  rw [same, is'] at is
  exact (Option.some.inj is).symm

/-- If the key exists, it runs out within the window. -/
def Expires (w : World) (key : Str) (window : Nat) : Prop :=
  ∀ e, w.redis.lookup w.clock key = some e → ∃ d, e.deadline = some d ∧ d ≤ w.clock + window

/-- Every existing counter has a TTL of at most its window. -/
def AllExpire (w : World) : Prop := ∀ key window, Counter key window → Expires w key window

/-- The call has seen the value one and must now set the deadline. -/
def Owes (key : Str) (past : History) : Prop := past.head? = some ⟨.redis (.incr key), .ok 1⟩

/-- An INCR created the key and its answer was lost. -/
def CreatesUnseen (key : Str) (ev : LogEntry) : Prop :=
  ev.cmd = .redis (.incr key) ∧ ev.oracle.fault ≠ none ∧ TookEffect ev ∧
    ev.before.redis.lookup ev.before.clock key = none

/-- An EXPIRE of the key failed and took no effect. -/
def LosesDeadline (key : Str) (ev : LogEntry) : Prop :=
  (∃ ttl, ev.cmd = .redis (.expire key ttl)) ∧ ¬ TookEffect ev

/-- No answer to the INCR of a new counter and no EXPIRE of a counter is lost. -/
def Undisturbed (log : Log) : Prop := ∀ ev ∈ log, ∀ key window, Counter key window →
  ¬ CreatesUnseen key ev ∧ ¬ LosesDeadline key ev

/- Who writes a counter, and that the value one is answered by an EXPIRE. -/
def CounterRule (past : History) (c : Cmd) : Prop := ∀ key window, Counter key window →
  (Owes key past → c = .redis (.expire key window)) ∧
    (WritesKey key c → c = .redis (.incr key) ∨ c = .redis (.expire key window) ∨
      ∃ keys, c = .redis (.del keys))

/- No deadline is owed. -/
def Settled (past : History) : Prop := ∀ key window, Counter key window → ¬ Owes key past

section Rule

theorem settled_nil : Settled [] := by
  intro key window _ owes
  cases owes

theorem counter_idle {past : History} {c : Cmd} (settled : Settled past)
    (idle : ∀ key window, Counter key window → ¬ WritesKey key c) : CounterRule past c :=
  fun key window counter => ⟨fun owes => absurd owes (settled key window counter),
    fun writes => absurd writes (idle key window counter)⟩

/- What a call owes, it owes for its last command. -/
theorem owes_last {key : Str} {past : History} {c : Cmd} {r : Reply c}
    (owes : Owes key (⟨c, r⟩ :: past)) :
    (⟨c, r⟩ : Exchange Cmd Reply) = ⟨.redis (.incr key), .ok 1⟩ := by
  simpa [Owes] using owes

theorem settled_idle {past : History} {c : Cmd}
    (idle : ∀ key window, Counter key window → ¬ WritesKey key c) (r : Reply c) :
    Settled (⟨c, r⟩ :: past) := by
  intro key window counter owes
  have same : c = .redis (.incr key) := congrArg Exchange.cmd (owes_last owes)
  apply idle key window counter
  rw [same]
  exact List.mem_singleton.mpr rfl

theorem settled_counted {past : History} {key : Str} {r : Except GoErr Int} (more : r ≠ .ok 1) :
    Settled (⟨.redis (.incr key), r⟩ :: past) := by
  intro key' window _ owes
  have same := owes_last owes
  cases same
  exact more rfl

theorem settled_other {past : History} {c : Cmd} (other : ∀ key, c ≠ .redis (.incr key))
    (r : Reply c) : Settled (⟨c, r⟩ :: past) := by
  intro key window _ owes
  exact other key (congrArg Exchange.cmd (owes_last owes))

/- A command that writes no counter. -/
theorem idle_neutral {c : Cmd} (idle : ∀ key window, Counter key window → ¬ WritesKey key c) :
    Neutral CounterRule Settled c := by
  intro past settled
  constructor
  · exact counter_idle settled idle
  · exact settled_idle idle

theorem del_neutral (keys : List Str) : Neutral CounterRule Settled (.redis (.del keys)) := by
  intro past settled
  constructor
  · intro key window counter
    constructor
    · intro owes
      exact absurd owes (settled key window counter)
    · intro _
      exact Or.inr (Or.inr ⟨keys, rfl⟩)
  · exact settled_other (by simp)

theorem idle_within {owned : Key → Prop} (none_counts : ∀ k, owned k → Key.window k = none) {c : Cmd}
    (within : Within owned c) : ∀ key window, Counter key window → ¬ WritesKey key c := by
  intro key window counter writes
  obtain ⟨k, mine, text⟩ := within key (written_named writes)
  obtain ⟨k', is, text'⟩ := counter
  have same : k = k' := text_injective (text.symm.trans text')
  rw [← same, none_counts k mine] at is
  cases is

/- A program that keeps to keys without a window. -/
theorem keeps_within {α : Type} {p : Act α} {owned : Key → Prop}
    (none_counts : ∀ k, owned k → Key.window k = none) (within : p.Issues (Within owned)) :
    p.Keeps CounterRule Settled :=
  keeps_of_issues within fun _ sent => idle_neutral (idle_within none_counts sent)

theorem counts_once {past : History} (settled : Settled past) (key : Str) :
    CounterRule past (.redis (.incr key)) := by
  intro key' window' counter'
  constructor
  · intro owes
    exact absurd owes (settled key' window' counter')
  · intro writes
    have same : key' = key := List.mem_singleton.mp writes
    rw [same]
    exact Or.inl rfl

theorem sets_deadline {past : History} {key : Str} {window : Nat} (counter : Counter key window) :
    CounterRule (⟨.redis (.incr key), .ok 1⟩ :: past) (.redis (.expire key window)) := by
  intro key' window' counter'
  constructor
  · intro owes
    have same : key' = key := by
      have last := owes_last owes
      cases last
      rfl
    rw [same] at counter' ⊢
    rw [counter_window counter counter']
  · intro writes
    have same : key' = key := List.mem_singleton.mp writes
    rw [same] at counter' ⊢
    rw [counter_window counter counter']
    exact Or.inr (Or.inl rfl)

theorem rate_counter (ip : Str) : Counter (rateLimitKey ip) rateLimitWindow := ⟨.rate ip, rfl, rfl⟩

theorem attempts_counter (email : Str) : Counter (otpAttemptsKey email) otpTTL :=
  ⟨.attempts email, rfl, rfl⟩

theorem allow_keeps (cfg : Config) (ip : Str) : (Handlers.allow cfg ip).Keeps CounterRule Settled := by
  intro past settled
  apply meets_redis (counts_once settled _)
  intro r
  cases r with
  | error err => exact settled_counted (by simp)
  | ok count =>
    by_cases one : count = 1
    · subst one
      apply meets_redis (sets_deadline (rate_counter ip))
      intro r
      apply settled_other
      simp
    · dsimp only
      rw [if_neg one]
      exact settled_counted (by simpa using one)

theorem blockEmail_keeps (email : Str) : (blockEmail email).Keeps CounterRule Settled := by
  have no_window : ∀ k, k = .blocked email → Key.window k = none := by
    intro k is
    rw [is]
    rfl
  apply keeps_redis
  · apply idle_neutral
    exact idle_within no_window (within_one rfl rfl)
  · intro r
    apply keeps_redis (del_neutral _)
    intro r
    exact keeps_done _

theorem recordFailure_keeps (email : Str) : (recordFailure email).Keeps CounterRule Settled := by
  intro past settled
  apply meets_redis (counts_once settled _)
  intro r
  cases r with
  | error err => exact settled_counted (by simp)
  | ok attempts =>
    by_cases one : attempts = 1
    · subst one
      apply meets_redis (sets_deadline (attempts_counter email))
      intro r
      apply settled_other
      simp
    · dsimp only
      rw [if_neg one]
      have counted : Settled (⟨.redis (.incr (otpAttemptsKey email)), .ok attempts⟩ :: past) :=
        settled_counted (by simpa using one)
      split
      · exact blockEmail_keeps email _ counted
      · exact counted

theorem verify_keeps (email otp : Str) :
    (OtpService.verify email otp).Keeps CounterRule Settled := by
  have idle : ∀ {c : Cmd}, (∀ key, ¬ WritesKey key c) → Neutral CounterRule Settled c :=
    fun writes => idle_neutral fun key _ _ => writes key
  have blocked := @idle (.redis (.exists (otpBlockedKey email))) fun _ => List.not_mem_nil
  have read := @idle (.redis (.get (otpKey email))) fun _ => List.not_mem_nil
  exact Footprints.verify_keeps otp (recordFailure_keeps email) blocked read (del_neutral _)

theorem generate_idle {email : Str} : ∀ c, GenerateCmd email c → Neutral CounterRule Settled c := by
  intro c sent
  cases sent with
  | withdraw => exact del_neutral _
  | store value =>
    apply idle_neutral
    have no_window : ∀ k, k = .otp email → Key.window k = none := by
      intro k is
      rw [is]
      rfl
    exact idle_within no_window (within_one rfl rfl)
  | blocked => exact idle_neutral fun key window counter writes => List.not_mem_nil writes
  | _ => exact idle_neutral fun key window counter writes => writes.elim

theorem op_keeps (cfg : Config) (op : Op) : (op.program cfg).Keeps CounterRule Settled := by
  have within := op_within cfg op
  cases op with
  | generateAndStore email fp id name =>
    exact keeps_map _ (keeps_of_issues (generateAndStore_issues email fp id name) generate_idle)
  | verify email otp => exact keeps_map _ (verify_keeps email otp)
  | allow ip => exact keeps_map _ (allow_keeps cfg ip)
  | _ =>
    apply keeps_within _ within
    intro k mine
    first
      | (rw [mine]; rfl)
      | (rcases mine with is | is <;> rw [is] <;> rfl)

end Rule

section Deadlines
variable {st : Store Str Str} {now : Nat} {key : Str}

/- INCR creates the key, or leaves the deadline as it is. -/
theorem incr_deadline {e : Entry Str} (left : (st.incr atoi now key).2 key = some e) :
    (st.lookup now key = none ∧ (st.incr atoi now key).1 = .ok 1) ∨
      ∃ e₀, st key = some e₀ ∧ e₀.deadline = e.deadline := by
  unfold Store.incr at left ⊢
  split at left
  · rename_i absent
    left
    rw [absent]
    exact ⟨rfl, rfl⟩
  · rename_i n d found
    right
    dsimp only at left
    rw [put_self] at left
    cases left
    exact ⟨_, (lookup_some found).1, rfl⟩
  · rename_i t d found
    right
    split at left
    · dsimp only at left
      rw [put_self] at left
      cases left
      exact ⟨_, (lookup_some found).1, rfl⟩
    · exact ⟨e, left, rfl⟩
  · right
    exact ⟨e, left, rfl⟩

/- After EXPIRE the key runs out within the time given. -/
theorem expire_deadline {ttl : Nat} {e : Entry Str} (left : (st.expire now key ttl).2 key = some e) :
    ∃ d, e.deadline = some d ∧ d ≤ now + ttl := by
  unfold Store.expire at left
  split at left
  · rename_i absent
    dsimp only at left
    rw [Store.lookup, left, Option.filter_some] at absent
    obtain ⟨v, deadline⟩ := e
    cases deadline with
    | none => simp [Entry.live] at absent
    | some d =>
      have late : ¬ now < d := by simpa [live_iff] using absent
      exact ⟨d, rfl, by omega⟩
  · dsimp only at left
    rw [put_self] at left
    cases left
    exact ⟨now + ttl, rfl, Nat.le_refl _⟩

end Deadlines

/- What one command leaves under a counter: a deadline within the window, the value one that
   its own caller has seen, or the deadline that was there before. -/
theorem counter_step {past : History} {w w' : World} {o : Oracle} {c : Cmd} {r : Reply c}
    (rule : CounterRule past c) (performed : w.perform o c = some (r, w')) {i : Nat} {key : Str}
    {window : Nat} (counter : Counter key window)
    (seen : ¬ CreatesUnseen key ⟨i, o, c, r, w, w'⟩) (set : ¬ LosesDeadline key ⟨i, o, c, r, w, w'⟩)
    {e : Entry Str} (left : w'.redis key = some e) :
    (∃ d, e.deadline = some d ∧ d ≤ w.clock + window) ∨
      Owes key (⟨c, r⟩ :: past) ∨
      (c ≠ .redis (.expire key window) ∧ ∃ e₀, w.redis key = some e₀ ∧ e₀.deadline = e.deadline) := by
  by_cases writes : WritesKey key c
  · rcases (rule key window counter).2 writes with is | is | ⟨keys, is⟩
    · subst is
      obtain ⟨answer, reached⟩ := perform_redis performed
      rw [reached] at left
      by_cases took : TookEffect ⟨i, o, .redis (.incr key), r, w, w'⟩
      · have ran : (faulty o w.redis ((RedisCmd.incr key).run w.redis w.clock)).2 =
            (w.redis.incr atoi w.clock key).2 := faulty_took took _ _
        dsimp only at left
        rw [ran] at left
        rcases incr_deadline left with ⟨absent, one⟩ | kept
        · right; left
          have clean : o.fault = none := by
            by_contra fault
            exact seen ⟨rfl, fault, took, absent⟩
          have first : r = .ok 1 := by
            rw [answer, faulty_ok clean]
            exact congrArg fromStore one
          rw [first]
          rfl
        · right; right
          exact ⟨by simp, kept⟩
      · have idle : (faulty o w.redis ((RedisCmd.incr key).run w.redis w.clock)).2 = w.redis :=
          faulty_lost took _ _
        dsimp only at left
        rw [idle] at left
        right; right
        exact ⟨by simp, e, left, rfl⟩
    · subst is
      left
      obtain ⟨-, reached⟩ := perform_redis performed
      have took : TookEffect ⟨i, o, .redis (.expire key window), r, w, w'⟩ := by
        by_contra lost
        exact set ⟨⟨window, rfl⟩, lost⟩
      have ran : (faulty o w.redis ((RedisCmd.expire key window).run w.redis w.clock)).2 =
          (w.redis.expire w.clock key window).2 := faulty_took took _ _
      rw [reached] at left
      dsimp only at left
      rw [ran] at left
      exact expire_deadline left
    · subst is
      obtain ⟨-, reached⟩ := perform_redis performed
      rw [reached] at left
      dsimp only at left
      rcases faulty_state (o := o) w.redis ((RedisCmd.del keys).run w.redis w.clock) with ran | idle
      · have gone : (w.redis.del keys) key = none := del_self _ writes
        rw [ran, RedisCmd.run] at left
        dsimp only at left
        rw [gone] at left
        cases left
      · rw [idle] at left
        right; right
        exact ⟨by simp, e, left, rfl⟩
  · have same := key_frame writes performed
    right; right
    constructor
    · intro is
      rw [is] at writes
      exact writes (List.mem_singleton.mpr rfl)
    · exact ⟨e, by rw [← same, left], rfl⟩

/-- Every counter runs out within its window, or a caller still owes it the deadline. -/
def Bounded (s : Desk) : Prop := ∀ key window, Counter key window → ∀ e,
  s.world.redis key = some e →
    (∃ d, e.deadline = some d ∧ d ≤ s.world.clock + window) ∨ ∃ job ∈ s.jobs, Owes key job.past

theorem bounded_step {s s' : Desk} {cfg : Config} {l : DeskMove} (step : Step (desk cfg) s l s')
    (contract : ∀ job ∈ s.jobs, job.rest.Meets CounterRule (fun past _ => Settled past) job.past)
    (undisturbed : Undisturbed s'.log) (bounded : Bounded s) : Bounded s' := by
  intro key window counter e left
  cases step with
  | start req =>
    rcases bounded key window counter e left with fine | ⟨job, member, owes⟩
    · exact Or.inl fine
    · exact Or.inr ⟨job, List.mem_append_left _ member, owes⟩
  | env moved =>
    obtain ⟨-, redis, -, ticking⟩ := env_scope moved
    dsimp only at left
    rw [redis] at left
    rcases bounded key window counter e left with ⟨d, is, early⟩ | owed
    · exact Or.inl ⟨d, is, by dsimp only; omega⟩
    · exact Or.inr owed
  | @run i o job c next r w at_i waiting performed =>
    have member := List.mem_of_getElem? at_i
    have rule := contract job member
    rw [waiting, meets_call] at rule
    have inside : i < s.jobs.length := (List.getElem?_eq_some_iff.mp at_i).1
    have clock : w.clock = s.world.clock := perform_clock performed
    obtain ⟨seen, set⟩ := undisturbed _ List.mem_cons_self key window counter
    rcases counter_step rule.1 performed counter seen set left with ⟨d, is, early⟩ | owes | kept
    · exact Or.inl ⟨d, is, by dsimp only; omega⟩
    · exact Or.inr ⟨_, List.mem_append_left _ (List.mem_set inside _), owes⟩
    · obtain ⟨other, e₀, before, same⟩ := kept
      rcases bounded key window counter e₀ before with ⟨d, is, early⟩ | ⟨job', member', owes⟩
      · exact Or.inl ⟨d, same ▸ is, by dsimp only; omega⟩
      · -- whoever owes the deadline is not the one that moved
        obtain ⟨j, at_j⟩ := List.getElem?_of_mem member'
        have apart : i ≠ j := by
          intro here
          rw [here, at_j] at at_i
          cases at_i
          exact other ((rule.1 key window counter).1 owes)
        right
        refine ⟨job', List.mem_append_left _ (List.mem_of_getElem? (i := j) ?_), owes⟩
        rw [List.getElem?_set_ne apart]
        exact at_j

section Runs
variable {cfg : Config} {allow : Desk → DeskMove → Bool} {w : World} {s t : Desk}

theorem bounded_run (fresh : ∀ key, w.redis key = none)
    (run : Reaches (desk cfg) allow { world := w } s) (undisturbed : Undisturbed s.log) :
    Bounded s := by
  induction run with
  | refl =>
    intro key window _ e held
    rw [fresh key] at held
    cases held
  | @tail u u' l run allowed step ih =>
    have contract := contract_of_job (fun op => op_keeps cfg op [] settled_nil) rfl run
    have shape := step_sound step
    obtain ⟨newer, grown⟩ := log_grows (.tail .refl allowed step)
    apply bounded_step shape contract undisturbed
    apply ih
    intro ev member
    exact undisturbed ev (by rw [grown]; exact List.mem_append_right _ member)

theorem clock_later (later : Reaches (desk cfg) allow s t) : s.world.clock ≤ t.world.clock := by
  apply related_since (R := fun w w' => w.clock ≤ w'.clock) (fun w => Nat.le_refl _)
    (fun a b c => Nat.le_trans) _ _ later
  · intro w e w' moved
    exact (env_scope moved).2.2.2
  · intro w o c r w' performed
    exact Nat.le_of_eq (perform_clock performed).symm

/- In silence a counter that runs out within the window is gone after one. -/
theorem silent_window {key : Str} {window : Nat} (expires : Expires s.world key window)
    (run : Reaches (desk cfg) allow { world := w } s) (later : Reaches (desk cfg) allow s t)
    {newer : List LogEntry} (split : t.log = newer ++ s.log)
    (silent : ∀ ev ∈ newer, ¬ WritesKey key ev.cmd)
    (passed : s.world.clock + window ≤ t.world.clock) :
    t.world.redis.lookup t.world.clock key = none := by
  have performed := logged_performed rfl (reaches_trans run later)
  have same : t.world.redis key = s.world.redis key := by
    apply frame_since (fun w => w.redis key) _ later split
    · intro ev member
      exact key_frame (silent ev member) (performed ev (by rw [split]; simp [member]))
    · intro w e w' moved
      rw [(env_scope moved).2.1]
  cases early : s.world.redis.lookup s.world.clock key with
  | none => exact gone_stays same (clock_later later) early
  | some e =>
    obtain ⟨d, is, bound⟩ := expires e early
    have held := (lookup_some early).1
    obtain ⟨v, deadline⟩ := e
    dsimp only at is
    subst is
    have late : Entry.live t.world.clock (⟨v, some d⟩ : Entry Str) = false := by
      rw [Bool.eq_false_iff]
      intro live
      have before := live_iff.mp live
      omega
    rw [Store.lookup, same, held, Option.filter_some, if_neg (by simp [late])]

end Runs

/- While nothing of the two commands is lost and no call stops between them, every counter
   runs out within its window; after a silent window the next count is the first again. -/
theorem counters_expire {cfg : Config} {allow : Desk → DeskMove → Bool} {w : World} {s : Desk}
    (fresh : ∀ key, w.redis key = none) (run : Reaches (desk cfg) allow { world := w } s)
    (undisturbed : Undisturbed s.log) (nobody : ∀ job ∈ s.jobs, Settled job.past) :
    AllExpire s.world ∧
      ∀ key window, Counter key window → ∀ t newer, Reaches (desk cfg) allow s t →
        t.log = newer ++ s.log → (∀ ev ∈ newer, ¬ WritesKey key ev.cmd) →
        s.world.clock + window ≤ t.world.clock →
        ((RedisCmd.incr key).run t.world.redis t.world.clock).1 = .ok 1 := by
  have all : AllExpire s.world := by
    intro key window counter e found
    have held := (lookup_some found).1
    rcases bounded_run fresh run undisturbed key window counter e held with fine | ⟨job, member, owes⟩
    · exact fine
    · exact absurd owes (nobody job member key window counter)
  constructor
  · exact all
  · intro key window counter t newer later split silent passed
    have gone := silent_window (all key window counter) run later split silent passed
    rw [RedisCmd.run, Store.incr, gone]
    rfl

def silentIP : Str := "9.9.9.9".toList

/- Someone asks six times, one more than allowed. The oracle is for the EXPIRE. -/
def sixRequests (o : Oracle) : List DeskMove :=
  [.start (.allow silentIP), .run 0 {}, .run 0 o] ++
    (List.range 5).flatMap fun n => [.start (.allow silentIP), .run (n + 1) {}]

def deskAfter (ls : List DeskMove) : Desk :=
  after (desk devConfig) free { world := twoCandidates.world } ls

def allowed (job : Job Cmd Reply Op Answer) : Option Bool :=
  match job.rest with
  | .done (.flag (.ok b)) => some b
  | _ => none

def seesOne : Exchange Cmd Reply → Bool
  | ⟨.redis (.incr _), .ok 1⟩ => true
  | _ => false

theorem settled_of_head {past : History} (h : past.head?.any seesOne = false) : Settled past := by
  intro key window _ owes
  rw [Owes] at owes
  rw [owes] at h
  cases h

theorem undisturbed_of_clean {log : Log} (clean : ∀ ev ∈ log, ev.oracle.fault = none) :
    Undisturbed log := by
  intro ev member key window _
  constructor
  · intro ⟨_, fault, _⟩
    exact fault (clean ev member)
  · intro ⟨_, lost⟩
    apply lost
    intro f fault
    rw [clean ev member] at fault
    cases fault

/- Denied in the first hour, counted from one again after a silent one. -/
theorem denied_for_an_hour :
    (deskAfter (sixRequests {})).jobs.map allowed =
      [some true, some true, some true, some true, some true, some false] ∧
      AllExpire (deskAfter (sixRequests {})).world ∧
      ((RedisCmd.incr (rateLimitKey silentIP)).run (deskAfter (sixRequests {})).world.redis
        ((deskAfter (sixRequests {})).world.clock + hour)).1 = .ok 1 := by
  have answers : (deskAfter (sixRequests {})).jobs.map allowed =
      [some true, some true, some true, some true, some true, some false] := by decide +kernel
  have run : Reaches (desk devConfig) free { world := twoCandidates.world }
      (deskAfter (sixRequests {})) := reaches_after (by decide +kernel)
  have clean : ∀ ev ∈ (deskAfter (sixRequests {})).log, ev.oracle.fault = none := by decide +kernel
  have heads : ∀ job ∈ (deskAfter (sixRequests {})).jobs, job.past.head?.any seesOne = false := by
    decide +kernel
  generalize deskAfter (sixRequests {}) = s at answers run clean heads ⊢
  obtain ⟨all, silence⟩ := counters_expire (fun _ => rfl) run (undisturbed_of_clean clean)
    fun job member => settled_of_head (heads job member)
  have hourLater : Reaches (desk devConfig) free s
      { s with world := { s.world with clock := s.world.clock + hour } } :=
    .tail (l := .env (.tick hour)) .refl rfl rfl
  have first := silence _ _ (rate_counter silentIP) _ [] hourLater rfl (by simp) (Nat.le_refl _)
  exact ⟨answers, all, first⟩

def expireLost : Oracle := { fault := some ⟨false, "i/o timeout".toList⟩ }

/- Without its deadline the counter denies the address two hours later, and for good. -/
theorem denied_for_good :
    Reaches (desk devConfig) free { world := twoCandidates.world } (deskAfter (sixRequests expireLost)) ∧
      (∀ job ∈ (deskAfter (sixRequests expireLost)).jobs, (allowed job).isSome = true) ∧
      ¬ AllExpire (deskAfter (sixRequests expireLost)).world ∧
      (deskAfter (sixRequests expireLost ++
        [.env (.tick (2 * hour)), .start (.allow silentIP), .run 6 {}])).jobs.map allowed =
        [some true, some true, some true, some true, some true, some false, some false] := by
  have run : Reaches (desk devConfig) free { world := twoCandidates.world }
      (deskAfter (sixRequests expireLost)) := reaches_after (by decide +kernel)
  have done : ∀ job ∈ (deskAfter (sixRequests expireLost)).jobs, (allowed job).isSome = true := by
    decide +kernel
  have forever : ((deskAfter (sixRequests expireLost)).world.redis.lookup
      (deskAfter (sixRequests expireLost)).world.clock (rateLimitKey silentIP)).map Entry.deadline =
        some none := by decide +kernel
  have later : (deskAfter (sixRequests expireLost ++
      [.env (.tick (2 * hour)), .start (.allow silentIP), .run 6 {}])).jobs.map allowed =
      [some true, some true, some true, some true, some true, some false, some false] := by
    decide +kernel
  constructor
  · exact run
  · constructor
    · exact done
    · constructor
      · intro all
        obtain ⟨e, found, none⟩ := Option.map_eq_some_iff.mp forever
        obtain ⟨d, is, -⟩ := all _ _ (rate_counter silentIP) e found
        rw [none] at is
        cases is
      · exact later

end CounterExpiry
