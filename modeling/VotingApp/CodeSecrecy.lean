import VotingApp.Lib.Guessing
import VotingApp.Isolation
import VotingApp.RecordFormat
import VotingApp.VoteAcceptance

/-!
What can be found out about a code without the mailbox it is sent to. Codes of one email that
nobody presents stand for each other: exchanging them shows in the record and in the mail only.
-/
namespace CodeSecrecy
open GoText Tables EffectProgram CallPool Lockstep Guessing ExpiringStore VotingWorld
open WsHub OtpService VotingSettings VoteService CustomDomains Handlers VotingServer
open Footprints Frames OtpRecords SettingsCache EmailBlock DomainCache Aliases Isolation RecordFormat
open VoteAcceptance (judge)

/-- The call asks for a code of the email. -/
def asks (cfg : Config) (email : Str) (req : Call) : Bool :=
  (asksCode cfg req).any fun asked => asked.1 = email

/-- The normalized email and the code that a call presents, in order to vote or not. -/
def guess (cfg : Config) : Call → Option (Str × Str)
  | .verify email otp => some (email, otp)
  | req => (presents cfg req).map fun p => (p.email, p.otp)

/-- The codes of the draws are the same, or both are hidden ones. -/
def Like (hidden : Str → Bool) (n m : Nat) : Prop :=
  n = m ∨ (hidden (otpCode n) = true ∧ hidden (otpCode m) = true)

variable {hidden : Str → Bool} {email : Str} {cfg : Config}

/-- Records of two such codes. -/
inductive RecordLike (hidden : Str → Bool) : Str → Str → Prop where
  | code {n m : Nat} (like : Like hidden n m) (id : Int) (fp : Str) :
    RecordLike hidden (otpRecord (otpCode n) id fp) (otpRecord (otpCode m) id fp)

/-- Mail texts with two such codes. -/
inductive BodyLike (hidden : Str → Bool) : Str → Str → Prop where
  | code {n m : Nat} (like : Like hidden n m) (name : Str) :
    BodyLike hidden (otpBody name (otpCode n)) (otpBody name (otpCode m))

/-- Entries that are the same but for the code. -/
inductive EntryLike (hidden : Str → Bool) : Option (Entry Str) → Option (Entry Str) → Prop where
  | same (e : Option (Entry Str)) : EntryLike hidden e e
  | record {a b : Str} (like : RecordLike hidden a b) (deadline : Option Nat) :
    EntryLike hidden (some ⟨.text a, deadline⟩) (some ⟨.text b, deadline⟩)

/-- Mails that are the same but for the code, and for that only if they go to the email. -/
inductive MailLike (hidden : Str → Bool) (email : Str) : Mail → Mail → Prop where
  | same (m : Mail) : MailLike hidden email m m
  | code {body body' : Str} (like : BodyLike hidden body body') :
    MailLike hidden email ⟨email, otpSubject, body⟩ ⟨email, otpSubject, body'⟩

/-- The same world to everyone who reads neither the record nor the mailbox of the email. -/
structure Veiled (hidden : Str → Bool) (email : Str) (w v : World) : Prop where
  clock : w.clock = v.clock
  db : w.db = v.db
  hub : w.hub = v.hub
  redis : ∀ key, key ≠ otpKey email → w.redis key = v.redis key
  record : EntryLike hidden (w.redis (otpKey email)) (v.redis (otpKey email))
  mails : List.Forall₂ (MailLike hidden email) w.outbox v.outbox

/-- The same commands, or two that write or mail such codes. -/
inductive CmdLike (hidden : Str → Bool) (email : Str) : Cmd → Cmd → Prop where
  | apart {c : Cmd} (untouched : ¬ Touches (otpKey email) c) : CmdLike hidden email c c
  | read : CmdLike hidden email (.redis (.get (otpKey email))) (.redis (.get (otpKey email)))
  | clear (keys : List Str) : CmdLike hidden email (.redis (.del keys)) (.redis (.del keys))
  | store {value value' : Str} (like : RecordLike hidden value value') (ttl : Nat) :
    CmdLike hidden email (.redis (.set (otpKey email) value ttl))
      (.redis (.set (otpKey email) value' ttl))
  | mail {body body' : Str} (like : BodyLike hidden body body') :
    CmdLike hidden email (.enqueue email otpSubject body) (.enqueue email otpSubject body')

/-- The same replies, or such draws to a call that asks for a code, or two records of such codes. -/
def ReplyLike (hidden : Str → Bool) (email : Str) (asking : Bool) (c c' : Cmd) (r : Reply c)
    (r' : Reply c') : Prop :=
  HEq r r' ∨
    (asking = true ∧ c = .randInt ∧ ∃ n m, Like hidden n m ∧
      HEq r (Except.ok n : Except GoErr Nat) ∧ HEq r' (Except.ok m : Except GoErr Nat)) ∨
    (c = .redis (.get (otpKey email)) ∧ ∃ a b, RecordLike hidden a b ∧
      HEq r (Except.ok a : Except GoErr Str) ∧ HEq r' (Except.ok b : Except GoErr Str))

/-- The same oracle, or two that draw such codes for a call that asks for one. -/
def OracleLike (hidden : Str → Bool) (asking : Bool) (o o' : Oracle) : Prop :=
  o' = o ∨ (asking = true ∧ ∃ d, o' = { o with draw := d } ∧
    Like hidden (o.draw % 900000) (d % 900000))

def likeness (cfg : Config) (hidden : Str → Bool) (email : Str) :
    Likeness Cmd Reply World Oracle Call where
  worlds := Veiled hidden email
  cmds _ := CmdLike hidden email
  replies req := ReplyLike hidden email (asks cfg email req)
  oracles req := OracleLike hidden (asks cfg email req)

/-- The call presents no hidden code for the email. -/
def Unguessed (cfg : Config) (hidden : Str → Bool) (email : Str) (req : Call) : Prop :=
  ∀ otp, guess cfg req = some (email, otp) → hidden otp = false

section Worlds
variable {w v w' : World} {o : Oracle}

theorem veiled_refl (w : World) : Veiled hidden email w w where
  clock := rfl
  db := rfl
  hub := rfl
  redis _ _ := rfl
  record := .same _
  mails := List.forall₂_same.mpr fun m _ => .same m

/- What a Redis command makes of two alike stores, if it leaves the record alone. -/
theorem veiled_redis {c : RedisCmd} (apart : otpKey email ∉ keysOf c)
    (veiled : Veiled hidden email w v) :
    (faulty o w.redis (c.run w.redis w.clock)).1 = (faulty o v.redis (c.run v.redis v.clock)).1 ∧
      Veiled hidden email { w with redis := (faulty o w.redis (c.run w.redis w.clock)).2 }
        { v with redis := (faulty o v.redis (c.run v.redis v.clock)).2 } := by
  have agree : ∀ key ∈ keysOf c, w.redis key = v.redis key := fun key named =>
    veiled.redis key fun same => apart (same ▸ named)
  obtain ⟨reply, kept⟩ := faulty_alike o (run_alike c w.clock agree)
  have unwritten : otpKey email ∉ writtenKeys c := by
    cases c <;> simp_all [writtenKeys, keysOf]
  have idle : ∀ st : Store Str Str, (faulty o st (c.run st w.clock)).2 (otpKey email) =
      st (otpKey email) := by
    intro st
    rcases faulty_state (o := o) st (c.run st w.clock) with ran | lost
    · rw [ran]
      exact run_frame unwritten st w.clock
    · rw [lost]
  have same_time : c.run v.redis v.clock = c.run v.redis w.clock := by rw [veiled.clock]
  rw [same_time]
  refine ⟨reply, veiled.clock, veiled.db, veiled.hub, ?_, ?_, veiled.mails⟩
  · intro key other
    exact kept key (veiled.redis key other)
  · dsimp only
    rw [idle, idle]
    exact veiled.record

theorem veiled_env {e : Env} (veiled : Veiled hidden email w v) (moved : w.env e = some w') :
    ∃ v', v.env e = some v' ∧ Veiled hidden email w' v' := by
  obtain ⟨clock, db, hub, redis, record, mails⟩ := veiled
  cases e with
  | tick d =>
    cases moved
    exact ⟨_, rfl, congrArg (· + d) clock, db, hub, redis, record, mails⟩
  | _ =>
    obtain ⟨h, turned, rfl⟩ := Option.map_eq_some_iff.mp moved
    rw [hub] at turned
    exact ⟨{ v with hub := h }, by simp [World.env, turned], clock, db, rfl, redis, record, mails⟩

/- A write of the record, and a removal. -/
theorem veiled_record {a b : Option (Entry Str)} {st st' : Store Str Str}
    (like : EntryLike hidden a b) (veiled : Veiled hidden email w v)
    (at_w : st (otpKey email) = a) (at_v : st' (otpKey email) = b)
    (others : ∀ key, key ≠ otpKey email → w.redis key = v.redis key → st key = st' key) :
    Veiled hidden email { w with redis := st } { v with redis := st' } where
  clock := veiled.clock
  db := veiled.db
  hub := veiled.hub
  redis key other := others key other (veiled.redis key other)
  record := by
    dsimp only
    rw [at_w, at_v]
    exact like
  mails := veiled.mails

/- A fault shows in two runs alike: the same error, and the command took effect in both or in none. -/
theorem faulty_both {α σ : Type} {P : σ → σ → Prop} {Q : Except GoErr α → Except GoErr α → Prop}
    (o : Oracle) {before before' : σ} (ran ran' : Except GoErr α × σ) (idle : P before before')
    (reached : P ran.2 ran'.2) (replies : Q ran.1 ran'.1) (errors : ∀ err, Q (.error err) (.error err)) :
    Q (faulty o before ran).1 (faulty o before' ran').1 ∧
      P (faulty o before ran).2 (faulty o before' ran').2 := by
  cases fault : o.fault with
  | none =>
    rw [faulty_ok fault, faulty_ok fault]
    exact ⟨replies, reached⟩
  | some f =>
    simp only [faulty, fault]
    refine ⟨errors _, ?_⟩
    cases f.applied with
    | true => exact reached
    | false => exact idle

/- Two texts with one deadline run out together. -/
theorem texts_run_out {st st' : Store Str Str} {key a b : Str} {deadline : Option Nat}
    (at_w : st key = some ⟨.text a, deadline⟩) (at_v : st' key = some ⟨.text b, deadline⟩) (now : Nat) :
    (st.get itoa now key = .ok a ∧ st'.get itoa now key = .ok b) ∨
      (st.get itoa now key = .error .missing ∧ st'.get itoa now key = .error .missing) := by
  simp only [Store.get, Store.lookup, at_w, at_v, Option.filter_some]
  by_cases live : Entry.live now (⟨.text a, deadline⟩ : Entry Str) = true
  · have live' : Entry.live now (⟨.text b, deadline⟩ : Entry Str) = true := live
    rw [if_pos live, if_pos live']
    exact Or.inl ⟨rfl, rfl⟩
  · have live' : ¬ Entry.live now (⟨.text b, deadline⟩ : Entry Str) = true := live
    rw [if_neg live, if_neg live']
    exact Or.inr ⟨rfl, rfl⟩

/- What is read of two alike records is alike. -/
theorem read_like (asking : Bool) (veiled : Veiled hidden email w v) :
    ReplyLike hidden email asking (.redis (.get (otpKey email))) (.redis (.get (otpKey email)))
      (fromStore (w.redis.get itoa w.clock (otpKey email)))
      (fromStore (v.redis.get itoa v.clock (otpKey email))) := by
  rw [← veiled.clock]
  generalize at_w : w.redis (otpKey email) = a
  generalize at_v : v.redis (otpKey email) = b
  have like := veiled.record
  rw [at_w, at_v] at like
  cases like with
  | same e =>
    simp only [Store.get, Store.lookup, at_w, at_v]
    exact Or.inl HEq.rfl
  | record like deadline =>
    rcases texts_run_out at_w at_v w.clock with ⟨read, read'⟩ | ⟨gone, gone'⟩
    · rw [read, read']
      exact Or.inr (Or.inr ⟨rfl, _, _, like, HEq.rfl, HEq.rfl⟩)
    · rw [gone, gone']
      exact Or.inl HEq.rfl

/- A command that leaves the record alone, and draws nothing. -/
theorem perform_apart {c : Cmd} {r : Reply c} (apart : ¬ Touches (otpKey email) c)
    (veiled : Veiled hidden email w v) (performed : w.perform o c = some (r, w')) :
    ∃ v', v.perform o c = some (r, v') ∧ Veiled hidden email w' v' := by
  obtain ⟨clock, db, hub, redis, record, mails⟩ := veiled
  cases c with
  | redis c =>
    obtain ⟨reply, reached⟩ := veiled_redis (o := o) apart ⟨clock, db, hub, redis, record, mails⟩
    obtain ⟨rfl, rfl⟩ := perform_redis performed
    exact ⟨_, by rw [World.perform, reply], reached⟩
  | sql c =>
    obtain ⟨answer, reached⟩ := perform_sql performed
    rw [db, clock] at answer reached
    refine ⟨{ v with db := (faulty o v.db (c.run v.db v.clock)).2 }, ?_, ?_⟩
    · rw [answer, World.perform]
    · rw [reached]
      exact ⟨rfl, rfl, hub, redis, record, mails⟩
  | enqueue recipient subject body =>
    have sent := List.rel_append mails (.cons (MailLike.same ⟨recipient, subject, body⟩) .nil)
    simp only [World.perform] at performed ⊢
    split at performed
    · cases performed
      exact ⟨_, rfl, clock, db, hub, redis, record, sent⟩
    · cases performed
      refine ⟨_, rfl, ?_⟩
      split
      · exact ⟨clock, db, hub, redis, record, sent⟩
      · exact ⟨clock, db, hub, redis, record, mails⟩
  | broadcast data =>
    obtain ⟨h, room, reached⟩ := Option.map_eq_some_iff.mp performed
    cases reached
    rw [hub] at room
    exact ⟨{ v with hub := h }, by rw [World.perform, room, Option.map_some], clock, db, rfl, redis,
      record, mails⟩
  | now =>
    cases performed
    exact ⟨v, by rw [World.perform, clock], clock, db, hub, redis, record, mails⟩
  | register =>
    cases performed
    exact ⟨{ v with hub := v.hub.register }, by rw [World.perform, hub], clock, db,
      congrArg Hub.register hub, redis, record, mails⟩
  | sendToOne client data =>
    cases performed
    exact ⟨_, rfl, clock, db, congrArg (Hub.sendToOne · client data) hub, redis, record, mails⟩
  | startPumps client =>
    cases performed
    exact ⟨_, rfl, clock, db, congrArg (Hub.startPumps · client) hub, redis, record, mails⟩
  | _ =>
    cases performed
    exact ⟨v, rfl, clock, db, hub, redis, record, mails⟩

/- Only the drawing of a number looks at the draw. -/
theorem undrawn {c : Cmd} (other : c ≠ .randInt) (d : Nat) :
    v.perform { o with draw := d } c = v.perform o c := by
  cases c with
  | randInt => exact absurd rfl other
  | _ => rfl

/- Alike commands under alike oracles have alike replies and lead to alike worlds. -/
theorem veiled_perform {asking : Bool} {o' : Oracle} {c c' : Cmd} {r : Reply c}
    (veiled : Veiled hidden email w v) (like : CmdLike hidden email c c')
    (oracles : OracleLike hidden asking o o') (performed : w.perform o c = some (r, w')) :
    ∃ r' v', v.perform o' c' = some (r', v') ∧ ReplyLike hidden email asking c c' r r' ∧
      Veiled hidden email w' v' := by
  by_cases drawing : c = .randInt
  · subst drawing
    cases like with
    | apart untouched =>
      cases performed
      refine ⟨_, v, rfl, ?_, veiled⟩
      rcases oracles with rfl | ⟨asked, d, rfl, draws⟩
      · exact Or.inl HEq.rfl
      · cases fault : o.fault with
        | none =>
          refine Or.inr (Or.inl ⟨asked, rfl, _, _, draws, ?_, ?_⟩)
          · rw [faulty_ok fault]
          · rw [faulty_ok rfl]
        | some f =>
          left
          simp only [faulty, fault]
          exact HEq.rfl
  · have same_oracle : v.perform o' c' = v.perform o c' := by
      rcases oracles with rfl | ⟨-, d, rfl, -⟩
      · rfl
      · apply undrawn
        cases like <;> first | exact drawing | simp
    rw [same_oracle]
    cases like with
    | apart untouched =>
      obtain ⟨v', performed', reached⟩ := perform_apart untouched veiled performed
      exact ⟨r, v', performed', Or.inl HEq.rfl, reached⟩
    | read =>
      obtain ⟨rfl, rfl⟩ := perform_redis performed
      obtain ⟨replies, reached⟩ := faulty_both
        (P := fun st st' => Veiled hidden email { w with redis := st } { v with redis := st' }) o
        ((RedisCmd.get (otpKey email)).run w.redis w.clock)
        ((RedisCmd.get (otpKey email)).run v.redis v.clock) veiled veiled
        (read_like asking veiled) fun err => Or.inl HEq.rfl
      exact ⟨_, _, rfl, replies, reached⟩
    | clear keys =>
      obtain ⟨rfl, rfl⟩ := perform_redis performed
      have reached : Veiled hidden email { w with redis := w.redis.del keys }
          { v with redis := v.redis.del keys } := by
        by_cases gone : otpKey email ∈ keys
        · apply veiled_record (.same none) veiled (del_self _ gone) (del_self _ gone)
          intro key _ agree
          simp [Store.del, agree]
        · apply veiled_record veiled.record veiled (del_other _ gone) (del_other _ gone)
          intro key _ agree
          simp [Store.del, agree]
      obtain ⟨replies, reached⟩ := faulty_both
        (P := fun st st' => Veiled hidden email { w with redis := st } { v with redis := st' })
        (Q := fun r r' => r = r') o
        ((RedisCmd.del keys).run w.redis w.clock)
        ((RedisCmd.del keys).run v.redis v.clock) veiled reached rfl fun err => rfl
      exact ⟨_, _, rfl, Or.inl (heq_of_eq replies), reached⟩
    | @store value value' codes ttl =>
      obtain ⟨rfl, rfl⟩ := perform_redis performed
      have stored : ∀ now now', now = now' → Veiled hidden email
          { w with redis := w.redis.set now (otpKey email) value ttl }
          { v with redis := v.redis.set now' (otpKey email) value' ttl } := by
        rintro now - rfl
        apply veiled_record (.record codes (deadlineAfter now ttl)) veiled
        · exact set_self _ _ _ _ _
        · exact set_self _ _ _ _ _
        · intro key other agree
          rw [set_other _ _ _ _ other, set_other _ _ _ _ other, agree]
      obtain ⟨replies, reached⟩ := faulty_both
        (P := fun st st' => Veiled hidden email { w with redis := st } { v with redis := st' })
        (Q := fun r r' => r = r') o
        ((RedisCmd.set (otpKey email) value ttl).run w.redis w.clock)
        ((RedisCmd.set (otpKey email) value' ttl).run v.redis v.clock)
        veiled (stored _ _ veiled.clock) rfl fun err => rfl
      exact ⟨_, _, rfl, Or.inl (heq_of_eq replies), reached⟩
    | @mail body body' codes =>
      obtain ⟨clock, db, hub, redis, record, mails⟩ := veiled
      have sent := List.rel_append mails (.cons (.code codes) .nil)
      simp only [World.perform] at performed ⊢
      split at performed
      · cases performed
        exact ⟨_, _, rfl, Or.inl HEq.rfl, clock, db, hub, redis, record, sent⟩
      · cases performed
        refine ⟨_, _, rfl, Or.inl HEq.rfl, ?_⟩
        split
        · exact ⟨clock, db, hub, redis, record, sent⟩
        · exact ⟨clock, db, hub, redis, record, mails⟩

end Worlds

/-- Commands that leave the record alone, and draw nothing while a code is asked for. -/
def Quiet (email : Str) (asking : Bool) (c : Cmd) : Prop :=
  ¬ Touches (otpKey email) c ∧ (asking = true → c ≠ .randInt)

/-- The program is in step with itself. -/
abbrev Steady (hidden : Str → Bool) (email : Str) (asking : Bool) {α : Type} (p : Act α) : Prop :=
  InStep (CmdLike hidden email) (ReplyLike hidden email asking) p p

section Programs
variable {asking : Bool} {α β : Type}

theorem quiet_reply {c : Cmd} (quiet : Quiet email asking c) {r r' : Reply c}
    (like : ReplyLike hidden email asking c c r r') : r = r' := by
  rcases like with same | ⟨asked, drawn, -⟩ | ⟨read, -⟩
  · exact eq_of_heq same
  · exact absurd drawn (quiet.2 asked)
  · rw [read] at quiet
    exact absurd List.mem_cons_self quiet.1

theorem steady_quiet {p : Act α} (uses : p.Issues (Quiet email asking)) :
    Steady hidden email asking p :=
  instep_of_issues uses (fun _ quiet => .apart quiet.1) fun _ quiet _ _ like => quiet_reply quiet like

theorem steady_keeps {p : Act α}
    (keeps : p.Keeps (fun _ c => Quiet email asking c) fun _ => True) : Steady hidden email asking p :=
  steady_quiet (issues_of_keeps keeps)

theorem quiet_sql (c : SqlCmd) : Quiet email asking (.sql c) :=
  ⟨fun touched => touched, fun _ drawn => Cmd.noConfusion drawn⟩

theorem quiet_redis {c : RedisCmd} (apart : otpKey email ∉ keysOf c) : Quiet email asking (.redis c) :=
  ⟨apart, fun _ drawn => Cmd.noConfusion drawn⟩

theorem steady_sql {c : SqlCmd} {f : Except GoErr c.Result → Act α}
    (rest : ∀ r, Steady hidden email asking (f r)) : Steady hidden email asking (sql c >>= f) :=
  instep_same (.apart fun touched => touched) (fun _ _ => quiet_reply (quiet_sql c)) rest

theorem steady_redis {c : RedisCmd} (apart : otpKey email ∉ keysOf c)
    {f : Except GoErr c.Result → Act α} (rest : ∀ r, Steady hidden email asking (f r)) :
    Steady hidden email asking (redis c >>= f) :=
  instep_same (.apart apart) (fun _ _ => quiet_reply (quiet_redis apart)) rest

theorem steady_clear {keys : List Str} {f : Except GoErr Unit → Act α}
    (rest : ∀ r, Steady hidden email asking (f r)) :
    Steady hidden email asking (redis (.del keys) >>= f) := by
  apply instep_same (.clear keys) _ rest
  intro r r' like
  rcases like with same | ⟨-, drawn, -⟩ | ⟨read, -⟩
  · exact eq_of_heq same
  · cases drawn
  · cases read

/- Reading the record is the only way in which its code gets into a program. -/
theorem steady_read {f : Except GoErr Str → Act α} (same : ∀ r, Steady hidden email asking (f r))
    (records : ∀ a b, RecordLike hidden a b →
      InStep (CmdLike hidden email) (ReplyLike hidden email asking) (f (.ok a)) (f (.ok b))) :
    Steady hidden email asking (redis (.get (otpKey email)) >>= f) := by
  apply InStep.call .read
  intro r r' like
  rcases like with equal | ⟨-, drawn, -⟩ | ⟨-, a, b, like, is, is'⟩
  · cases equal
    exact same r
  · cases drawn
  · cases is
    cases is'
    exact records a b like

theorem step_store {value value' : Str} (like : RecordLike hidden value value') {ttl : Nat}
    {f f' : Except GoErr Unit → Act α}
    (rest : ∀ r, InStep (CmdLike hidden email) (ReplyLike hidden email asking) (f r) (f' r)) :
    InStep (CmdLike hidden email) (ReplyLike hidden email asking)
      (redis (.set (otpKey email) value ttl) >>= f) (redis (.set (otpKey email) value' ttl) >>= f') := by
  apply InStep.call (.store like ttl)
  intro r r' told
  rcases told with same | ⟨-, drawn, -⟩ | ⟨read, -⟩
  · cases eq_of_heq same
    exact rest r
  · cases drawn
  · cases read

theorem step_mail {body body' : Str} (like : BodyLike hidden body body')
    {f f' : Option GoErr → Act α}
    (rest : ∀ r, InStep (CmdLike hidden email) (ReplyLike hidden email asking) (f r) (f' r)) :
    InStep (CmdLike hidden email) (ReplyLike hidden email asking)
      (issue (Cmd.enqueue email otpSubject body) >>= f)
      (issue (Cmd.enqueue email otpSubject body') >>= f') := by
  apply InStep.call (.mail like)
  intro r r' told
  rcases told with same | ⟨-, drawn, -⟩ | ⟨read, -⟩
  · cases eq_of_heq same
    exact rest r
  · cases drawn
  · cases read

/- The draw for a code. Two draws that are not the same are two hidden ones. -/
theorem step_draw {f : Except GoErr Nat → Act α}
    (failed : ∀ err, Steady hidden email asking (f (.error err)))
    (drawn : ∀ n m, Like hidden n m →
      InStep (CmdLike hidden email) (ReplyLike hidden email asking) (f (.ok n)) (f (.ok m))) :
    Steady hidden email asking ((issue Cmd.randInt : Act (Except GoErr Nat)) >>= f) := by
  have apart : CmdLike hidden email .randInt .randInt := .apart fun touched => touched.elim
  apply InStep.call apart
  intro r r' told
  rcases told with same | ⟨-, -, n, m, like, is, is'⟩ | ⟨read, -⟩
  · cases eq_of_heq same
    cases r with
    | error err => exact failed err
    | ok n => exact drawn n n (Or.inl rfl)
  · cases is
    cases is'
    exact drawn n m like
  · cases read

theorem steady_blocked : Steady hidden email asking (isEmailBlocked email) := by
  apply steady_redis (by simp [keysOf])
  intro r
  cases r <;> exact .done _

theorem steady_failure : Steady hidden email asking (recordFailure email) := by
  have block : Steady hidden email asking (blockEmail email) :=
    steady_redis (by simp [keysOf]) fun _ => steady_clear fun _ => .done _
  apply steady_redis (by simp [keysOf])
  intro r
  cases r with
  | error err => exact .done _
  | ok attempts =>
    dsimp only
    split
    · apply steady_redis (by simp [keysOf])
      intro _
      split
      · exact block
      · exact .done _
    · split
      · exact block
      · exact .done _

theorem steady_reject : Steady hidden email asking (rejectGuess email) := by
  apply instep_bind steady_failure
  intro r
  cases r <;> exact .done _

/- A code that is not hidden is refused whichever of the hidden ones is stored. -/
theorem refused_alike {otp : Str} {n m : Nat} (unguessed : hidden otp = false)
    (like : Like hidden n m) : otpCode n ≠ otp ↔ otpCode m ≠ otp := by
  rcases like with rfl | ⟨hidden_n, hidden_m⟩
  · rfl
  · constructor
    · rintro - rfl
      rw [hidden_m] at unguessed
      cases unguessed
    · rintro - rfl
      rw [hidden_n] at unguessed
      cases unguessed

/- What becomes of two records whose codes are refused alike. -/
theorem judge_alike {otp code code' stored stored' fp : Str} {id : Int}
    (same : code ≠ otp ↔ code' ≠ otp)
    (read : decodeRecord stored = if inInt64 id then .record code id fp else .badCandidate code)
    (read' : decodeRecord stored' = if inInt64 id then .record code' id fp else .badCandidate code') :
    InStep (CmdLike hidden email) (ReplyLike hidden email asking) (judge email otp stored)
      (judge email otp stored') := by
  unfold judge
  rw [read, read']
  by_cases fits : inInt64 id = true
  · rw [if_pos fits, if_pos fits]
    dsimp only
    by_cases refused : code ≠ otp
    · rw [if_pos refused, if_pos (same.mp refused)]
      exact steady_reject
    · rw [if_neg refused, if_neg fun other => refused (same.mpr other)]
      exact steady_clear fun _ => .done _
  · rw [if_neg fits, if_neg fits]
    dsimp only
    by_cases refused : code ≠ otp
    · rw [if_pos refused, if_pos (same.mp refused)]
      exact steady_reject
    · rw [if_neg refused, if_neg fun other => refused (same.mpr other)]
      exact instep_bind steady_failure fun _ => .done _

theorem judge_records {otp a b : Str} (unguessed : hidden otp = false) (like : RecordLike hidden a b) :
    InStep (CmdLike hidden email) (ReplyLike hidden email asking) (judge email otp a)
      (judge email otp b) := by
  cases like with
  | @code n m like id fp =>
    exact judge_alike (refused_alike unguessed like) (decodeRecord_otpRecord n id fp)
      (decodeRecord_otpRecord m id fp)

theorem judge_steady (otp stored : Str) : Steady hidden email asking (judge email otp stored) := by
  unfold judge
  split
  · exact instep_bind steady_failure fun _ => .done _
  · split
    · exact steady_reject
    · exact instep_bind steady_failure fun _ => .done _
  · split
    · exact steady_reject
    · exact steady_clear fun _ => .done _

theorem verify_steady {otp : Str} (unguessed : hidden otp = false) :
    Steady hidden email asking (OtpService.verify email otp) := by
  apply instep_bind steady_blocked
  intro blocked
  rcases blocked with err | blocked
  · exact .done _
  · cases blocked with
    | true => exact .done _
    | false =>
      apply steady_read
      · intro r
        cases r with
        | error err =>
          dsimp only
          split <;> exact .done _
        | ok stored => exact judge_steady otp stored
      · intro a b like
        exact judge_records unguessed like

/- Which code is drawn shows in the record and the mail only. -/
theorem generateAndStore_steady (fp : Str) (id : Int) (name : Str) :
    Steady hidden email asking (OtpService.generateAndStore email fp id name) := by
  apply step_draw
  · intro err
    exact .done _
  · intro n m like
    apply instep_bind steady_blocked
    intro blocked
    rcases blocked with err | blocked
    · exact .done _
    · cases blocked with
      | true => exact .done _
      | false =>
        apply step_store (.code like id fp)
        intro r
        cases r with
        | error err => exact .done _
        | ok _ =>
          apply step_mail (.code like name)
          intro sent
          cases sent with
          | none => exact .done _
          | some err => exact steady_clear fun _ => .done _

end Programs

section Calls
variable {asking : Bool} {req : Call}

theorem quiet_neutral {c : Cmd} (quiet : Quiet email asking c) :
    Neutral (fun (_ : History) c => Quiet email asking c) (fun _ => True) c :=
  fun _ _ => ⟨quiet, fun _ => trivial⟩

theorem update_quiet {c : Cmd} (sent : UpdateCmd c) : Quiet email asking c := by
  cases sent <;> exact ⟨by simp [Touches, keysOf], by simp⟩

theorem generate_quiet {e : Str} (other : e ≠ email) {c : Cmd} (sent : GenerateCmd e c) :
    Quiet email false c := by
  cases sent <;> exact ⟨by simp [Touches, keysOf, other.symm], by simp⟩

theorem vote_quiet {e : Str} (other : e ≠ email) {c : Cmd} (sent : VoteCmd e c) :
    Quiet email asking c := by
  cases sent <;> exact ⟨by simp [Touches, keysOf, other.symm], by simp⟩

theorem domain_quiet {c : Cmd} (sent : DomainCmd c) : Quiet email asking c := by
  cases sent <;> exact ⟨by simp [Touches, keysOf], by simp⟩

/- A call that is not about the email is quiet, its draws apart. -/
theorem quiet_respected (draws : asking = true → asksCode cfg req = none)
    (asked : ∀ e fp id, asksCode cfg req = some (e, fp, id) → e ≠ email)
    (guessed : ∀ e otp, guess cfg req = some (e, otp) → e ≠ email) :
    Respected cfg req (fun _ c => Quiet email asking c) (fun _ => True) where
  plain c sent := by
    apply quiet_neutral
    cases sent <;> exact ⟨by simp [Touches, keysOf], by simp⟩
  status := keeps_of_issues getStatus_issues fun c sent => quiet_neutral
    (update_quiet (broadcast_update c (payload_broadcast c (status_payload c sent))))
  broadcast := keeps_of_issues broadcastPayload_issues fun c sent =>
    quiet_neutral (update_quiet (broadcast_update c sent))
  update isOpen endsAt := keeps_of_issues (updateSettings_issues isOpen endsAt) fun _ sent =>
    quiet_neutral (update_quiet sent)
  mode value := keeps_of_issues (updateCustomDomainsOnly_issues value) fun _ sent =>
    quiet_neutral (update_quiet sent)
  generate e fp id name is := by
    have silent : asking = false := by
      cases asking with
      | false => rfl
      | true =>
        rw [draws rfl] at is
        cases is
    rw [silent]
    exact keeps_of_issues (generateAndStore_issues e fp id name) fun _ sent =>
      quiet_neutral (generate_quiet (asked e fp id is) sent)
  verify e otp is := by
    have other : e ≠ email := guessed e otp (by rw [is, guess])
    exact keeps_of_issues (verify_issues e otp) fun c sent =>
      quiet_neutral (vote_quiet other (verify_vote e c sent))
  vote e otp ip userAgent is := by
    have other : e ≠ email := by
      apply guessed e otp
      cases req <;> simp_all [guess, presents]
    exact keeps_of_issues (verifyAndVote_issues e otp ip userAgent) fun _ sent =>
      quiet_neutral (vote_quiet other sent)
  deleteCandidate id n _ _ := keeps_of_issues (deleteCandidate_issues n) fun _ sent => by
    cases sent <;> exact quiet_neutral (quiet_sql _)
  insertDomain domain := keeps_of_issues (insert_issues domain) fun _ sent =>
    quiet_neutral (domain_quiet sent)
  deleteDomain id := keeps_of_issues (delete_issues id) fun _ sent =>
    quiet_neutral (domain_quiet sent)
  warmCache := keeps_of_issues warmCache_issues fun _ sent => quiet_neutral (domain_quiet sent)

/- The parts of the calls that are not about one email. -/
theorem quiet_parts (cfg : Config) (email : Str) (asking : Bool) :
    Respected cfg .getCandidates (fun _ c => Quiet email asking c) (fun _ => True) :=
  quiet_respected (fun _ => rfl) (by simp [asksCode]) (by simp [guess, presents])

theorem prepare_steady (fp ip : Str) (id : Int) :
    Steady hidden email asking (prepareOTPRequest email fp ip id) := by
  have store : Steady hidden email asking (nameAndStore email fp id) := by
    apply steady_sql
    intro name
    cases name with
    | error err => exact .done _
    | ok name => exact generateAndStore_steady fp id name
  apply steady_sql
  intro byEmail
  cases byEmail with
  | error err => exact .done _
  | ok byEmail =>
    dsimp only
    split
    · exact .done _
    · apply steady_sql
      intro byFingerprint
      cases byFingerprint with
      | error err => exact .done _
      | ok byFingerprint =>
        dsimp only
        split
        · exact .done _
        · split
          · exact store
          · apply steady_sql
            intro count
            cases count with
            | error err => exact .done _
            | ok count =>
              dsimp only
              split
              · exact .done _
              · exact store

theorem requestOTP_steady {asked : RequestOTPRequest} {ip : Str} {body : Except Str RequestOTPRequest}
    (bound : bindBody (RequestOTPRequest.check cfg) body = .ok asked)
    (about : normalizeEmail cfg asked.email = email) :
    Steady hidden email asking (Handlers.requestOTP cfg ip body) := by
  have parts := quiet_parts cfg email asking
  have answered : Steady hidden email asking (requestOTPFor cfg ip asked) := by
    unfold requestOTPFor
    rw [about]
    apply instep_bind (steady_keeps (isEmailAllowed_keeps parts _))
    intro allowed
    rcases allowed with err | allowed
    · exact .done _
    · cases allowed with
      | false => exact .done _
      | true =>
        apply instep_bind (steady_keeps (captchaVerify_keeps parts _ _))
        intro human
        rcases human with err | human
        · exact .done _
        · cases human with
          | false => exact .done _
          | true => exact instep_bind (prepare_steady _ _ _) fun _ => .done _
  have guarded : Steady hidden email asking (requestOTPGuarded cfg ip body) := by
    apply instep_bind (steady_keeps (isVotingOpen_keeps parts))
    intro opened
    rcases opened with err | opened
    · exact .done _
    · cases opened with
      | false => exact .done _
      | true =>
        dsimp only
        rw [bound]
        exact answered
  apply instep_bind (steady_keeps (allow_keeps parts ip))
  intro allowed
  rcases allowed with err | allowed
  · exact guarded
  · cases allowed with
    | false => exact .done _
    | true => exact guarded

theorem verifyAndVote_steady {otp : Str} (unguessed : hidden otp = false) (ip userAgent : Str) :
    Steady hidden email asking (VoteService.verifyAndVote email otp ip userAgent) := by
  apply instep_bind (verify_steady unguessed)
  intro found
  rcases found with err | found
  · exact .done _
  · apply steady_sql
    intro r
    cases r with
    | error err =>
      dsimp only
      split <;> exact .done _
    | ok _ =>
      have told : Steady hidden email asking broadcastPayload :=
        steady_quiet (issues_mono broadcastPayload_issues fun c sent => update_quiet (broadcast_update c sent))
      exact instep_bind told fun _ => .done _

theorem verifyVote_steady {asked : VerifyVoteRequest} {ip userAgent : Str}
    {body : Except Str VerifyVoteRequest}
    (bound : bindBody (VerifyVoteRequest.check cfg) body = .ok asked)
    (about : normalizeEmail cfg asked.email = email) (unguessed : hidden asked.otp = false) :
    Steady hidden email asking (Handlers.verifyVote cfg ip userAgent body) := by
  apply instep_bind (steady_keeps (isVotingOpen_keeps (quiet_parts cfg email asking)))
  intro opened
  rcases opened with err | opened
  · exact .done _
  · cases opened with
    | false => exact .done _
    | true =>
      dsimp only
      rw [bound]
      dsimp only
      rw [about]
      exact instep_bind (verifyAndVote_steady unguessed ip userAgent) fun _ => .done _

/- Every call is in step with itself, unless it presents a hidden code for the email. -/
theorem program_steady {req : Call} (unguessed : Unguessed cfg hidden email req) :
    Steady hidden email (asks cfg email req) (program cfg req) := by
  by_cases about : asks cfg email req = true ∨ ∃ otp, guess cfg req = some (email, otp)
  · cases req with
    | requestOTP ip body =>
      have asked : asks cfg email (.requestOTP ip body) = true := by
        rcases about with asked | ⟨otp, presented⟩
        · exact asked
        · cases presented
      unfold asks asksCode at asked
      cases bound : bindBody (RequestOTPRequest.check cfg) body with
      | error details => simp [bound] at asked
      | ok r =>
        have same : normalizeEmail cfg r.email = email := by simpa [bound] using asked
        exact instep_map _ (requestOTP_steady bound same)
    | generateAndStore e fp id name =>
      have same : e = email := by simpa [asks, asksCode, guess, presents] using about
      rw [same]
      exact instep_map _ (generateAndStore_steady fp id name)
    | verifyVote ip userAgent body =>
      have presented : ∃ otp, guess cfg (.verifyVote ip userAgent body) = some (email, otp) := by
        rcases about with asked | presented
        · cases asked
        · exact presented
      obtain ⟨otp, presented⟩ := presented
      cases bound : bindBody (VerifyVoteRequest.check cfg) body with
      | error details => simp [guess, presents, bound] at presented
      | ok r =>
        have parts : normalizeEmail cfg r.email = email ∧ r.otp = otp := by
          simpa [guess, presents, bound] using presented
        have safe : hidden r.otp = false := by
          rw [parts.2]
          exact unguessed otp presented
        exact instep_map _ (verifyVote_steady bound parts.1 safe)
    | verify e otp =>
      have same : e = email := by simpa [asks, asksCode, guess, presents] using about
      subst same
      exact instep_map _ (verify_steady (unguessed otp rfl))
    | verifyAndVote e otp ip userAgent =>
      have same : e = email := by simpa [asks, asksCode, guess, presents] using about
      subst same
      exact instep_map _ (verifyAndVote_steady (unguessed otp rfl) ip userAgent)
    | _ => simp [asks, asksCode, guess, presents] at about
  · obtain ⟨unasked, unpresented⟩ := not_or.mp about
    rw [Bool.not_eq_true] at unasked
    rw [unasked]
    apply steady_keeps
    apply program_keeps
    apply quiet_respected
    · intro asked
      cases asked
    · rintro e fp id is rfl
      simp [asks, is] at unasked
    · rintro e otp is rfl
      exact unpresented ⟨otp, is⟩

theorem server_respects (cfg : Config) (hidden : Str → Bool) (email : Str) :
    Respects (server cfg) (likeness cfg hidden email) (Unguessed cfg hidden email) where
  program req unguessed := program_steady unguessed
  spawns {req c c'} like := by
    have quietly : ∀ otp, guess cfg .warmCache = some (email, otp) → hidden otp = false := by
      intro otp presented
      cases presented
    have left : ∀ c : Cmd, ∀ new ∈ VotingServer.spawns c, Unguessed cfg hidden email new := by
      intro c new member
      cases c with
      | goWarmCache =>
        rw [List.mem_singleton.mp member]
        exact quietly
      | _ => cases member
    cases like with
    | apart _ => exact ⟨rfl, left c⟩
    | _ => exact ⟨rfl, fun _ member => absurd member List.not_mem_nil⟩
  perform veiled like oracles performed := veiled_perform veiled like oracles performed
  env veiled moved := veiled_env veiled moved

end Calls

/-- A call that asks for a code of the email draws anew, if what it drew is hidden. -/
def redraw (cfg : Config) (hidden : Str → Bool) (email : Str) (draws : Nat → Nat) (n : Nat)
    (req : Call) (o : Oracle) : Oracle :=
  if asks cfg email req && hidden (otpCode (o.draw % 900000)) then { o with draw := draws n } else o

theorem redraw_like (draws : Nat → Nat) (among : ∀ n, hidden (otpCode (draws n % 900000)) = true)
    (n : Nat) (req : Call) (o : Oracle) :
    OracleLike hidden (asks cfg email req) o (redraw cfg hidden email draws n req o) := by
  unfold redraw
  split
  · rename_i drawn
    rw [Bool.and_eq_true] at drawn
    exact Or.inr ⟨drawn.1, draws n, rfl, Or.inr ⟨drawn.2, among n⟩⟩
  · exact Or.inl rfl

/- Whatever calls run, interleaved and failing in any way: as long as none presents a hidden code
   for the email, other hidden codes could have been drawn for it instead. Every call would have
   given the same answer at the same time, the tables, the hub, the clock, every other key and the
   mails of everyone else would be the same, and the record and the mails of the email would differ
   in the code only. -/
theorem codes_exchangeable (cfg : Config) (hidden : Str → Bool) (email : Str) (draws : Nat → Nat)
    (among : ∀ n, hidden (otpCode (draws n % 900000)) = true) (seed : Seed) {moves : List Move}
    {s : State} (run : exec (server cfg) anySchedule seed.start moves = some s)
    (unguessed : ∀ req, Label.start req ∈ moves → ∀ otp, guess cfg req = some (email, otp) →
      hidden otp = false) :
    ∃ t, exec (server cfg) anySchedule seed.start
        (retold (server cfg) (redraw cfg hidden email draws) 0 seed.start moves) = some t ∧
      t.jobs.map shown = s.jobs.map shown ∧ Veiled hidden email s.world t.world := by
  have start : Matched (likeness cfg hidden email) (Unguessed cfg hidden email) seed.start seed.start :=
    ⟨veiled_refl _, .nil⟩
  obtain ⟨t, run', matched⟩ := exec_matched (server_respects cfg hidden email)
    (redraw_like draws among) 0 (fun _ _ => rfl) start unguessed run
  exact ⟨t, run', shown_matched matched, matched.world⟩

/-- Ann asks for a code, and somebody tries a wrong one. -/
def annsWrongGuess : List Move :=
  .start (requestFrom "10.0.0.1" "ann@gmail.com" "phone" 1) :: runs 0 14 ++
    .start (verifyFrom "10.0.0.9" "ann@gmail.com" "999999") :: runs 1 5

/-- The move presents no hidden code, for whichever email. -/
def avoids (cfg : Config) (hidden : Str → Bool) : Move → Bool
  | .start req => (guess cfg req).all fun p => !hidden p.2
  | _ => true

def eitherCode (code : Str) : Bool := code = "100000".toList || code = "123456".toList

/- The guess fails in the same way, whichever of two codes was drawn. -/
theorem codes_exchangeable_two : ∃ s t,
    exec (server devConfig) anySchedule twoCandidates.start annsWrongGuess = some s ∧
      exec (server devConfig) anySchedule twoCandidates.start (retold (server devConfig)
        (redraw devConfig eitherCode "ann@gmail.com".toList fun _ => 23456) 0 twoCandidates.start
        annsWrongGuess) = some t ∧
      t.jobs.map shown = s.jobs.map shown := by
  have runs : (exec (server devConfig) anySchedule twoCandidates.start annsWrongGuess).isSome = true := by
    decide +kernel
  obtain ⟨s, run⟩ := Option.isSome_iff_exists.mp runs
  have drawn : eitherCode (otpCode (23456 % 900000)) = true := by decide +kernel
  have wrong : annsWrongGuess.all (avoids devConfig eitherCode) = true := by decide +kernel
  have unguessed : ∀ req, Label.start req ∈ annsWrongGuess → ∀ otp,
      guess devConfig req = some ("ann@gmail.com".toList, otp) → eitherCode otp = false := by
    intro req member otp guessed
    have unhidden := List.all_eq_true.mp wrong (.start req) member
    simpa [avoids, guessed] using unhidden
  obtain ⟨t, run', same, -⟩ := codes_exchangeable devConfig eitherCode "ann@gmail.com".toList
    (fun _ => 23456) (fun _ => drawn) twoCandidates run unguessed
  exact ⟨s, t, run, run', same⟩

/-- The world without the record and the mailbox of the email. -/
def veil (email : Str) (w : World) : World :=
  { w with
    redis := fun key => if key = otpKey email then none else w.redis key
    outbox := w.outbox.filter fun m => m.recipient ≠ email }

/-- All that can be seen without reading the two: every request, every answer, and the world. -/
def view (email : Str) (s : State) : List (Call × Option Answer) × World :=
  (s.jobs.map shown, veil email s.world)

/-- The draws for a code of the email are set, the one of the nth move among them. -/
def drawing (cfg : Config) (email : Str) (draws : Nat → Nat) (n : Nat) (req : Call) (o : Oracle) :
    Oracle := if asks cfg email req then { o with draw := draws n } else o

/-- The code that a move presents for the email. -/
def presented (cfg : Config) (email : Str) : Move → Option Str
  | .start req => ((guess cfg req).filter fun p => p.1 = email).map Prod.snd
  | _ => none

/-- Moves in a game in which the draw of the kth move is c, and all others are known. -/
def game (cfg : Config) (email : Str) (draws : Nat → Nat) (k c : Nat) :
    Nat → State → Move → Option State :=
  turned (server cfg) (drawing cfg email (Function.update draws k c))

/-- A player who sees all but the record and the mailbox, and plans every move of everyone. -/
abbrev Plan := List (List (Call × Option Answer) × World) → Move

theorem veiled_view {s t : State} {fine : Call → Prop}
    (matched : Matched (likeness cfg hidden email) fine s t) : view email t = view email s := by
  have veiled : Veiled hidden email s.world t.world := matched.world
  have redis : (fun key => if key = otpKey email then none else t.world.redis key) =
      fun key => if key = otpKey email then none else s.world.redis key := by
    funext key
    by_cases is : key = otpKey email
    · rw [if_pos is, if_pos is]
    · rw [if_neg is, if_neg is, veiled.redis key is]
  have mails : t.world.outbox.filter (fun m => m.recipient ≠ email) =
      s.world.outbox.filter fun m => m.recipient ≠ email := by
    have alike := veiled.mails
    generalize s.world.outbox = xs at alike
    generalize t.world.outbox = ys at alike
    induction alike with
    | nil => rfl
    | cons head _ ih =>
      cases head with
      | same m => rw [List.filter_cons, List.filter_cons, ih]
      | code like =>
        rw [List.filter_cons_of_neg (by simp), List.filter_cons_of_neg (by simp)]
        exact ih
  unfold view veil
  rw [shown_matched matched, redis, mails, veiled.clock, veiled.db, veiled.hub]

theorem otpCode_injective {n m : Nat} (n_small : n < 900000) (m_small : m < 900000)
    (same : otpCode n = otpCode m) : n = m := by
  have of_n := (otpCode_digits n_small).spells
  rw [same, (otpCode_digits m_small).spells] at of_n
  omega

/- Until one of two codes is presented, no plan sees a difference between them. -/
theorem codes_blind (cfg : Config) (email : Str) (draws : Nat → Nat) (k : Nat) (seed : Seed)
    (plan : Plan) : Blind (presented cfg email) otpCode (game cfg email draws k) (view email) plan
      seed.start (Finset.range 900000) := by
  intro x x_in y y_in n past reached unnamed
  let hidden : Str → Bool := fun code => code = otpCode x || code = otpCode y
  have start : Matched (likeness cfg hidden email) (Unguessed cfg hidden email) seed.start seed.start :=
    ⟨veiled_refl _, .nil⟩
  have draws_like : ∀ i req o, OracleLike hidden (asks cfg email req)
      (drawing cfg email (Function.update draws k x) i req o)
      (drawing cfg email (Function.update draws k y) i req o) := by
    intro i req o
    unfold drawing
    cases asked : asks cfg email req with
    | false => exact Or.inl rfl
    | true =>
      by_cases at_k : i = k
      · refine Or.inr ⟨rfl, y, ?_, Or.inr ?_⟩
        · simp [at_k]
        · simp [at_k, hidden, Nat.mod_eq_of_lt (Finset.mem_range.mp x_in),
            Nat.mod_eq_of_lt (Finset.mem_range.mp y_in)]
      · left
        simp [at_k]
  have ok : ∀ i < n, ∀ past', play (game cfg email draws k x) (view email) plan seed.start i = some past' →
      ∀ req, plan past'.1 = .start req → Unguessed cfg hidden email req := by
    intro i less past' at_i req starts otp guessed
    have presents_otp : named (presented cfg email) (game cfg email draws k x) (view email) plan
        seed.start i = some otp := by
      rw [named, at_i, Option.bind_some, starts]
      simp [presented, guessed]
    obtain ⟨not_x, not_y⟩ := unnamed i less
    rw [presents_otp] at not_x not_y
    simp only [ne_eq, Option.some.injEq] at not_x not_y
    simp [hidden, not_x, not_y]
  obtain ⟨t, reached', -⟩ := play_matched (server_respects cfg hidden email)
    (fun s t matched => veiled_view matched) draws_like start reached ok
  exact ⟨t, reached'⟩

/- However a player plans the moves of everyone, seeing every answer and all of the world but the
   record and the mailbox of the email, and whatever the other draws are: of the 900000 codes that
   the kth move can draw, those that get presented within n moves are at most as many as the codes
   that are presented for the email in any one of the plays. -/
theorem guesses_hit_few (cfg : Config) (email : Str) (draws : Nat → Nat) (k : Nat) (seed : Seed)
    (plan : Plan) {n guesses : Nat}
    (few : ∀ c ∈ Finset.range 900000, ((List.range n).filterMap (named (presented cfg email)
      (game cfg email draws k c) (view email) plan seed.start)).length ≤ guesses) :
    ((Finset.range 900000).filter (Hits (presented cfg email) otpCode (game cfg email draws k)
      (view email) plan seed.start n)).card ≤ guesses :=
  hits_bounded (codes_blind cfg email draws k seed plan)
    (fun _ x_in _ y_in => otpCode_injective (Finset.mem_range.mp x_in) (Finset.mem_range.mp y_in)) few

/- Within three moves at most three codes can be hit, here by trying one again and again. -/
theorem guesses_hit_few_three : ((Finset.range 900000).filter (Hits
    (presented devConfig "ann@gmail.com".toList) otpCode
    (game devConfig "ann@gmail.com".toList (fun _ => 0) 1) (view "ann@gmail.com".toList)
    (fun _ => .start (verifyFrom "10.0.0.9" "ann@gmail.com" "123456")) twoCandidates.start 3)).card ≤ 3 := by
  apply guesses_hit_few
  intro c _
  apply (List.length_filterMap_le _ _).trans
  rw [List.length_range]

end CodeSecrecy
