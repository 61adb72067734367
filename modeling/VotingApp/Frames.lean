import VotingApp.Footprints

/-!
What each command changes, and where a run starts. Everything a command does not
write is as it was.
-/
namespace Frames
open GoText GoTime Tables WsHub EffectProgram CallPool PoolHistory ExpiringStore VotingWorld
open OtpService VotingSettings CustomDomains Handlers VotingServer

/-- An election before its first vote: candidates, default settings, a cold Redis. -/
structure Seed where
  clock : Nat
  candidates : List Candidate
  nextCandidate : Int
  distinct : (candidates.map Candidate.id).Nodup
  below : ∀ c ∈ candidates, c.id < nextCandidate
  dated : ∀ c ∈ candidates, printable c.createdAt ∧ ∀ t ∈ c.updatedAt, printable t

def Seed.world (seed : Seed) : World :=
  { clock := seed.clock
    db := { candidates := seed.candidates, nextCandidate := seed.nextCandidate } }

def Seed.start (seed : Seed) : State := { world := seed.world }

/-- A development setup: no captcha secret, and the rune tables cut down to ASCII. -/
def devConfig : Config where
  rateLimitMax := 5
  turnstileSecret := []
  validEmail s := s.contains '@'
  lowerRune := Char.toLower
  isSpace := Char.isWhitespace
  quote s := '"' :: s ++ ['"']

def newYear : Nat := daysOf ⟨2025, 1, 1⟩ * secondsADay * second

def twoCandidates : Seed where
  clock := newYear
  candidates := [⟨1, "Ann".toList, [], [], newYear, none⟩, ⟨2, "Bob".toList, [], [], newYear, none⟩]
  nextCandidate := 3
  distinct := by decide
  below := by decide
  dated := by decide +kernel

/- One job taking its next commands without a fault. -/
def runs (caller n : Nat) : List Move := List.replicate n (.run caller {})

def requestFrom (ip email fp : String) (candidateID : Int) : Call :=
  .requestOTP ip.toList (.ok ⟨email.toList, fp.toList, "token".toList, candidateID⟩)

def verifyFrom (ip email otp : String) : Call :=
  .verifyVote ip.toList [] (.ok ⟨email.toList, otp.toList⟩)

theorem bindBody_ok {α : Type} {check : α → List Str} {body : Except Str α} {r : α}
    (bound : bindBody check body = .ok r) : body = .ok r := by
  cases body with
  | error text => cases bound
  | ok r' =>
    dsimp only [bindBody] at bound
    split at bound
    · exact bound
    · cases bound

/-- The command a job waits to send. -/
def nextCmd (s : State) (i : Nat) : Option Cmd :=
  s.jobs[i]?.bind fun job =>
    match job.rest with
    | .call c _ => some c
    | .done _ => none

/-- The schedule in which no command fails. -/
def faultless (_ : State) : Move → Bool
  | .run _ o => o.fault.isNone
  | _ => true

def anySchedule (_ : State) (_ : Move) : Bool := true

/-- The keys a Redis command can write. -/
def writtenKeys : RedisCmd → List Str
  | .exists _ => []
  | .get _ => []
  | .set key _ _ => [key]
  | .del keys => keys
  | .incr key => [key]
  | .expire key _ => [key]
  | .sadd key _ => [key]
  | .srem key _ => [key]
  | .sismember _ _ => []

def WritesKey (k : Str) : Cmd → Prop
  | .redis c => k ∈ writtenKeys c
  | _ => False

instance (k : Str) : DecidablePred (WritesKey k) := fun c => by
  cases c <;> simp only [WritesKey] <;> infer_instance

def WritesVotes : Cmd → Prop
  | .sql (.insertVote _ _ _ _ _) => True
  | .sql (.deleteCandidate _) => True
  | _ => False

def WritesCandidates : Cmd → Prop
  | .sql (.insertCandidate _ _ _) => True
  | .sql (.updateCandidate _ _ _ _) => True
  | .sql (.deleteCandidate _) => True
  | _ => False

def WritesSettings : Cmd → Prop
  | .sql (.updateSettings _ _) => True
  | .sql (.updateCustomDomainsOnly _) => True
  | _ => False

def WritesDomains : Cmd → Prop
  | .sql (.insertDomain _) => True
  | .sql (.deleteDomain _) => True
  | _ => False

theorem run_frame {c : RedisCmd} {k : Str} (out : k ∉ writtenKeys c) (st : Store Str Str)
    (now : Nat) : (c.run st now).2 k = st k := by
  cases c with
  | «exists» key => rfl
  | get key => rfl
  | set key value ttl => exact set_other st now value ttl (by simpa [writtenKeys] using out)
  | del keys => exact del_other st out
  | incr key => exact incr_other atoi st now (by simpa [writtenKeys] using out)
  | expire key ttl => exact expire_other st now ttl (by simpa [writtenKeys] using out)
  | sadd key members => exact sadd_other st now members (by simpa [writtenKeys] using out)
  | srem key member => exact srem_other st now member (by simpa [writtenKeys] using out)
  | sismember key member => rfl

section Performing
variable {w w' : World} {o : Oracle}

theorem faulty_ok {α σ : Type} (ok : o.fault = none) (before : σ) (ran : Except GoErr α × σ) :
    faulty o before ran = ran := by
  simp [faulty, ok]

/- A command either runs or leaves its part of the world alone. -/
theorem faulty_state {α σ : Type} (before : σ) (ran : Except GoErr α × σ) :
    (faulty o before ran).2 = ran.2 ∨ (faulty o before ran).2 = before := by
  unfold faulty
  split
  · exact Or.inl rfl
  · split
    · exact Or.inl rfl
    · exact Or.inr rfl

/- An answer without error comes from a command that ran. -/
theorem faulty_answered {α σ : Type} {before : σ} {ran : Except GoErr α × σ} {a : α}
    (answered : (faulty o before ran).1 = .ok a) :
    o.fault = none ∧ faulty o before ran = ran := by
  cases fault : o.fault with
  | none => exact ⟨rfl, faulty_ok fault before ran⟩
  | some f => simp [faulty, fault] at answered

theorem perform_redis {c : RedisCmd} {r : Except GoErr c.Result}
    (h : w.perform o (.redis c) = some (r, w')) :
    r = (faulty o w.redis (c.run w.redis w.clock)).1 ∧
      w' = { w with redis := (faulty o w.redis (c.run w.redis w.clock)).2 } := by
  simp only [World.perform, Option.some.injEq, Prod.mk.injEq] at h
  exact ⟨h.1.symm, h.2.symm⟩

theorem perform_sql {c : SqlCmd} {r : Except GoErr c.Result}
    (h : w.perform o (.sql c) = some (r, w')) :
    r = (faulty o w.db (c.run w.db w.clock)).1 ∧
      w' = { w with db := (faulty o w.db (c.run w.db w.clock)).2 } := by
  simp only [World.perform, Option.some.injEq, Prod.mk.injEq] at h
  exact ⟨h.1.symm, h.2.symm⟩

/- Commands of other kinds leave Redis and the database alone, and none moves the clock. -/
theorem perform_scope {c : Cmd} {r : Reply c} (h : w.perform o c = some (r, w')) :
    w'.clock = w.clock ∧ ((∃ rc, c = .redis rc) ∨ w'.redis = w.redis) ∧
      ((∃ sc, c = .sql sc) ∨ w'.db = w.db) := by
  cases c with
  | redis c =>
    obtain ⟨-, rfl⟩ := perform_redis h
    exact ⟨rfl, Or.inl ⟨c, rfl⟩, Or.inr rfl⟩
  | sql c =>
    obtain ⟨-, rfl⟩ := perform_sql h
    exact ⟨rfl, Or.inr rfl, Or.inl ⟨c, rfl⟩⟩
  | enqueue recipient subject body =>
    simp only [World.perform] at h
    split at h
    · cases h
      exact ⟨rfl, Or.inr rfl, Or.inr rfl⟩
    · split at h
      · cases h
        exact ⟨rfl, Or.inr rfl, Or.inr rfl⟩
      · cases h
        exact ⟨rfl, Or.inr rfl, Or.inr rfl⟩
  | broadcast data =>
    simp only [World.perform, Option.map_eq_some_iff] at h
    obtain ⟨hub, -, same⟩ := h
    cases same
    exact ⟨rfl, Or.inr rfl, Or.inr rfl⟩
  | _ =>
    simp only [World.perform, Option.some.injEq, Prod.mk.injEq] at h
    obtain ⟨-, rfl⟩ := h
    exact ⟨rfl, Or.inr rfl, Or.inr rfl⟩

theorem perform_clock {c : Cmd} {r : Reply c} (h : w.perform o c = some (r, w')) :
    w'.clock = w.clock := (perform_scope h).1

theorem key_frame {c : Cmd} {r : Reply c} {k : Str} (out : ¬ WritesKey k c)
    (h : w.perform o c = some (r, w')) : w'.redis k = w.redis k := by
  rcases (perform_scope h).2.1 with ⟨rc, rfl⟩ | same
  · obtain ⟨-, rfl⟩ := perform_redis h
    rcases faulty_state (o := o) w.redis (rc.run w.redis w.clock) with ran | idle
    · simp only [ran]
      exact run_frame out w.redis w.clock
    · simp only [idle]
  · rw [same]

/- A part of the database that one statement leaves alone. -/
theorem db_frame {X : Type} (f : Db → X) {c : Cmd} {r : Reply c}
    (keeps : ∀ sc, c = .sql sc → ∀ db now, f (sc.run db now).2 = f db)
    (h : w.perform o c = some (r, w')) : f w'.db = f w.db := by
  rcases (perform_scope h).2.2 with ⟨sc, rfl⟩ | same
  · obtain ⟨-, rfl⟩ := perform_sql h
    rcases faulty_state (o := o) w.db (sc.run w.db w.clock) with ran | idle
    · simp only [ran]
      exact keeps sc rfl w.db w.clock
    · simp only [idle]
  · rw [same]

theorem insertVote_cases (db : Db) (now : Nat) (email fp : Str) (id : Int) (ip userAgent : Str) :
    (∃ err, db.insertVote now email fp id ip userAgent = (.error err, db)) ∨
      ((∀ v ∈ db.votes, v.voterEmail ≠ email) ∧ (∀ v ∈ db.votes, v.voterFingerprint ≠ fp) ∧
        (∃ c ∈ db.candidates, c.id = id) ∧
        db.insertVote now email fp id ip userAgent = (.ok (), { db with
          votes := db.votes ++ [db.newVote now email fp id ip userAgent]
          nextVote := db.nextVote + 1 })) := by
  unfold Db.insertVote
  split
  · exact Or.inl ⟨_, rfl⟩
  · split
    · exact Or.inl ⟨_, rfl⟩
    · split
      · exact Or.inl ⟨_, rfl⟩
      · split
        · exact Or.inl ⟨_, rfl⟩
        · split
          · exact Or.inl ⟨_, rfl⟩
          · rename_i fresh_email
            split
            · exact Or.inl ⟨_, rfl⟩
            · rename_i fresh_fp
              split
              · rename_i exists_candidate
                simp only [List.any_eq_true, decide_eq_true_eq, not_exists, not_and] at fresh_email fresh_fp
                simp only [List.any_eq_true, decide_eq_true_eq] at exists_candidate
                exact Or.inr ⟨fresh_email, fresh_fp, exists_candidate, rfl⟩
              · exact Or.inl ⟨_, rfl⟩

/- Every statement leaves alone the tables it does not write. -/
theorem statement_frame (db : Db) (now : Nat) (c : SqlCmd) :
    (WritesVotes (.sql c) ∨ (c.run db now).2.votes = db.votes) ∧
      (WritesCandidates (.sql c) ∨ (c.run db now).2.candidates = db.candidates) ∧
        (WritesSettings (.sql c) ∨ (c.run db now).2.settings = db.settings) ∧
          (WritesDomains (.sql c) ∨ (c.run db now).2.customDomains = db.customDomains) := by
  cases c with
  | insertVote email fp id ip userAgent =>
    have rest : ∀ x : Except GoErr Unit × Db, x = db.insertVote now email fp id ip userAgent →
        x.2.candidates = db.candidates ∧ x.2.settings = db.settings ∧
          x.2.customDomains = db.customDomains := by
      rintro x rfl
      rcases insertVote_cases db now email fp id ip userAgent with ⟨err, refused⟩ | ⟨-, -, -, done⟩
      · rw [refused]
        exact ⟨rfl, rfl, rfl⟩
      · rw [done]
        exact ⟨rfl, rfl, rfl⟩
    obtain ⟨candidates, settings, domains⟩ := rest _ rfl
    exact ⟨Or.inl trivial, Or.inr candidates, Or.inr settings, Or.inr domains⟩
  | insertCandidate =>
    simp only [SqlCmd.run, Db.insertCandidate]
    split <;> exact ⟨Or.inr rfl, Or.inl trivial, Or.inr rfl, Or.inr rfl⟩
  | updateCandidate =>
    simp only [SqlCmd.run, Db.updateCandidate]
    split <;> exact ⟨Or.inr rfl, Or.inl trivial, Or.inr rfl, Or.inr rfl⟩
  | deleteCandidate => exact ⟨Or.inl trivial, Or.inl trivial, Or.inr rfl, Or.inr rfl⟩
  | updateSettings =>
    simp only [SqlCmd.run, Db.updateSettings]
    split <;> exact ⟨Or.inr rfl, Or.inr rfl, Or.inl trivial, Or.inr rfl⟩
  | updateCustomDomainsOnly => exact ⟨Or.inr rfl, Or.inr rfl, Or.inl trivial, Or.inr rfl⟩
  | insertDomain =>
    simp only [SqlCmd.run, Db.insertDomain]
    split
    · exact ⟨Or.inr rfl, Or.inr rfl, Or.inr rfl, Or.inl trivial⟩
    · split <;> exact ⟨Or.inr rfl, Or.inr rfl, Or.inr rfl, Or.inl trivial⟩
  | deleteDomain => exact ⟨Or.inr rfl, Or.inr rfl, Or.inr rfl, Or.inl trivial⟩
  | _ => exact ⟨Or.inr rfl, Or.inr rfl, Or.inr rfl, Or.inr rfl⟩

theorem votes_frame {c : Cmd} {r : Reply c} (out : ¬ WritesVotes c)
    (h : w.perform o c = some (r, w')) : w'.db.votes = w.db.votes := by
  apply db_frame Db.votes _ h
  rintro sc rfl db now
  exact (statement_frame db now sc).1.resolve_left out

theorem settings_frame {c : Cmd} {r : Reply c} (out : ¬ WritesSettings c)
    (h : w.perform o c = some (r, w')) : w'.db.settings = w.db.settings := by
  apply db_frame Db.settings _ h
  rintro sc rfl db now
  exact (statement_frame db now sc).2.2.1.resolve_left out

theorem domains_frame {c : Cmd} {r : Reply c} (out : ¬ WritesDomains c)
    (h : w.perform o c = some (r, w')) : w'.db.customDomains = w.db.customDomains := by
  apply db_frame Db.customDomains _ h
  rintro sc rfl db now
  exact (statement_frame db now sc).2.2.2.resolve_left out

end Performing

/- An event of the log is a command that was performed. -/
def Performed (ev : LogEntry) : Prop :=
  ev.before.perform ev.oracle ev.cmd = some (ev.reply, ev.after)

section Logged
variable {ev : LogEntry}

theorem exchange_of_cmd {c : Cmd} (cmd : ev.cmd = c) : ∃ r, ev.exchange = ⟨c, r⟩ := by
  subst c
  exact ⟨ev.reply, rfl⟩

theorem exchange_sql {c : SqlCmd} {r : Except GoErr c.Result} (performed : Performed ev)
    (h : ev.exchange = ⟨.sql c, r⟩) :
    r = (faulty ev.oracle ev.before.db (c.run ev.before.db ev.before.clock)).1 ∧
      ev.after = { ev.before with
        db := (faulty ev.oracle ev.before.db (c.run ev.before.db ev.before.clock)).2 } := by
  obtain ⟨caller, oracle, cmd, reply, before, after⟩ := ev
  cases h
  exact perform_sql performed

theorem exchange_redis {c : RedisCmd} {r : Except GoErr c.Result} (performed : Performed ev)
    (h : ev.exchange = ⟨.redis c, r⟩) :
    r = (faulty ev.oracle ev.before.redis (c.run ev.before.redis ev.before.clock)).1 ∧
      ev.after = { ev.before with
        redis := (faulty ev.oracle ev.before.redis (c.run ev.before.redis ev.before.clock)).2 } := by
  obtain ⟨caller, oracle, cmd, reply, before, after⟩ := ev
  cases h
  exact perform_redis performed

theorem answered_sql {c : SqlCmd} {a : c.Result} (performed : Performed ev)
    (h : ev.exchange = ⟨.sql c, .ok a⟩) :
    (c.run ev.before.db ev.before.clock).1 = .ok a ∧
      ev.after = { ev.before with db := (c.run ev.before.db ev.before.clock).2 } := by
  obtain ⟨answer, after⟩ := exchange_sql performed h
  obtain ⟨-, ran⟩ := faulty_answered answer.symm
  rw [ran] at answer after
  exact ⟨answer.symm, after⟩

theorem answered_redis {c : RedisCmd} {a : c.Result} (performed : Performed ev)
    (h : ev.exchange = ⟨.redis c, .ok a⟩) :
    (c.run ev.before.redis ev.before.clock).1 = .ok a ∧
      ev.after = { ev.before with redis := (c.run ev.before.redis ev.before.clock).2 } := by
  obtain ⟨answer, after⟩ := exchange_redis performed h
  obtain ⟨-, ran⟩ := faulty_answered answer.symm
  rw [ran] at answer after
  exact ⟨answer.symm, after⟩

end Logged

theorem performed_of_run {cfg : Config} {allow : State → Move → Bool} {seed : Seed} {s : State}
    (run : Reaches (server cfg) allow seed.start s) : ∀ ev ∈ s.log, Performed ev :=
  logged_performed rfl run

/-- No command of the log has failed. -/
def NoFaults (log : Log) : Prop := ∀ ev ∈ log, ev.oracle.fault = none

/-- Redis has answered every command of the log. -/
def RedisAnswers (log : Log) : Prop := ∀ ev ∈ log, ∀ c, ev.cmd = .redis c → ev.oracle.fault = none

theorem redis_answers {log : Log} (clean : NoFaults log) : RedisAnswers log :=
  fun ev logged _ _ => clean ev logged

theorem no_faults {cfg : Config} {seed : Seed} {s : State}
    (run : Reaches (server cfg) faultless seed.start s) : NoFaults s.log := by
  intro ev member
  obtain ⟨late, older, split⟩ := List.append_of_mem member
  obtain ⟨moment⟩ := moment_of_logged rfl run split
  simpa [faultless] using moment.allowed

/- A write that took effect, whatever its answer. -/
def TookEffect (ev : LogEntry) : Prop := ∀ f, ev.oracle.fault = some f → f.applied = true

theorem faulty_took {α : Type} {σ : Type} {ev : LogEntry} (took : TookEffect ev) (before : σ)
    (ran : Except GoErr α × σ) : (faulty ev.oracle before ran).2 = ran.2 := by
  cases fault : ev.oracle.fault with
  | none => rw [faulty_ok fault]
  | some f => simp [faulty, fault, took f fault]

theorem faulty_lost {α : Type} {σ : Type} {ev : LogEntry} (lost : ¬ TookEffect ev) (before : σ)
    (ran : Except GoErr α × σ) : (faulty ev.oracle before ran).2 = before := by
  simp only [TookEffect, not_forall] at lost
  obtain ⟨f, fault, not_applied⟩ := lost
  simp [faulty, fault, not_applied]

/-- A vote row went in: both unique keys were free and the candidate was there. -/
structure Inserted (ev : LogEntry) (email fp : Str) (id : Int) (ip userAgent : Str) : Prop where
  cmd : ev.cmd = .sql (.insertVote email fp id ip userAgent)
  took : TookEffect ev
  new_email : ∀ v ∈ ev.before.db.votes, v.voterEmail ≠ email
  new_fingerprint : ∀ v ∈ ev.before.db.votes, v.voterFingerprint ≠ fp
  candidate : ∃ c ∈ ev.before.db.candidates, c.id = id
  grown : ev.after.db.votes =
    ev.before.db.votes ++ [ev.before.db.newVote ev.before.clock email fp id ip userAgent]

/-- A DELETE of a candidate was executed. -/
structure Removed (ev : LogEntry) (id : Int) : Prop where
  cmd : ev.cmd = .sql (.deleteCandidate id)
  after : ev.after.db = (ev.before.db.deleteCandidate id).2

/- What an event can do to the votes. -/
theorem votes_step {ev : LogEntry} (performed : Performed ev) :
    ev.after.db.votes = ev.before.db.votes ∨
      (∃ email fp id ip userAgent, Inserted ev email fp id ip userAgent) ∨
        ∃ id, Removed ev id := by
  by_cases writes : WritesVotes ev.cmd
  · by_cases took : TookEffect ev
    · cases cmd : ev.cmd with
      | sql sc =>
        rw [cmd] at writes
        obtain ⟨r, exchange⟩ := exchange_of_cmd cmd
        obtain ⟨-, after⟩ := exchange_sql performed exchange
        rw [faulty_took took] at after
        cases sc with
        | insertVote email fp id ip userAgent =>
          rcases insertVote_cases ev.before.db ev.before.clock email fp id ip userAgent
            with ⟨err, refused⟩ | ⟨new_email, new_fp, candidate, inserted⟩
          · exact Or.inl (by rw [after, SqlCmd.run, refused])
          · exact Or.inr (Or.inl ⟨email, fp, id, ip, userAgent, cmd, took, new_email, new_fp,
              candidate, by rw [after, SqlCmd.run, inserted]⟩)
        | deleteCandidate id =>
          exact Or.inr (Or.inr ⟨id, cmd, by rw [after, SqlCmd.run]⟩)
        | _ => exact absurd writes id
      | _ =>
        rw [cmd] at writes
        exact absurd writes id
    · rcases (perform_scope performed).2.2 with ⟨sc, cmd⟩ | same
      · obtain ⟨r, exchange⟩ := exchange_of_cmd cmd
        obtain ⟨-, after⟩ := exchange_sql performed exchange
        exact Or.inl (by rw [after, faulty_lost took])
      · exact Or.inl (by rw [same])
  · exact Or.inl (votes_frame writes performed)

theorem env_scope {w w' : World} {e : Env} (h : w.env e = some w') :
    w'.db = w.db ∧ w'.redis = w.redis ∧ w'.outbox = w.outbox ∧ w.clock ≤ w'.clock := by
  cases e with
  | tick d =>
    simp only [World.env, Option.some.injEq] at h
    subst w'
    exact ⟨rfl, rfl, rfl, Nat.le_add_right _ _⟩
  | _ =>
    simp only [World.env, Option.map_eq_some_iff] at h
    obtain ⟨hub, -, rfl⟩ := h
    exact ⟨rfl, rfl, rfl, Nat.le_refl _⟩

theorem clock_since {cfg : Config} {allow : State → Move → Bool} {s s' : State}
    (run : Reaches (server cfg) allow s s') : s.world.clock ≤ s'.world.clock := by
  apply related_since (R := fun w w' => w.clock ≤ w'.clock) (fun w => Nat.le_refl _)
    (fun a b c => Nat.le_trans) _ _ run
  · intro w e w' moved
    exact (env_scope moved).2.2.2
  · intro w o c r w' performed
    exact Nat.le_of_eq (perform_clock performed).symm

theorem clock_between {cfg : Config} {allow : State → Move → Bool} {seed : Seed} {s : State}
    (run : Reaches (server cfg) allow seed.start s) {late mid older : Log} {ev e : LogEntry}
    (split : s.log = late ++ ev :: (mid ++ e :: older)) : e.before.clock ≤ ev.before.clock := by
  obtain ⟨t, t', reached, log, world, later, log', world'⟩ := interval rfl run split
  have ticking := clock_since later
  have performed := logged_performed rfl run e (by rw [split]; simp)
  rw [world, world', perform_clock performed] at ticking
  exact ticking

/- What no event in between writes, the newer event finds as the older one left it. -/
theorem key_between {cfg : Config} {allow : State → Move → Bool} {seed : Seed} {s : State}
    (run : Reaches (server cfg) allow seed.start s) {late mid older : Log} {ev e : LogEntry}
    (split : s.log = late ++ ev :: (mid ++ e :: older)) {k : Str}
    (idle : ∀ x ∈ mid, ¬ WritesKey k x.cmd) :
    ev.before.redis k = e.after.redis k ∧ e.after.clock ≤ ev.before.clock := by
  obtain ⟨t, t', reached, log, world, later, log', world'⟩ := interval rfl run split
  have same := frame_since (fun w => w.redis k)
    (fun w env w' moved => by rw [(env_scope moved).2.1]) later log' fun x member =>
      key_frame (idle x member) (performed_of_run run x (by rw [split]; simp [member]))
  have ticking := clock_since later
  rw [world, world'] at same ticking
  exact ⟨same, ticking⟩

end Frames
