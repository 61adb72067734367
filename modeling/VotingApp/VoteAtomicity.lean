import VotingApp.Lib.SingleFailure
import VotingApp.VoteAcceptance

/-!
A vote over two stores without a transaction. The code is used up in Redis before the vote is
inserted in the database, so a failure in between, or a vote that the database refuses, costs
the voter the code.
-/
namespace VoteAtomicity
open GoText GoTime JsonText Tables WsHub EffectProgram CallPool SoloRun SingleFailure ExpiringStore
open VotingWorld OtpService VotingSettings VoteService CustomDomains Handlers VotingServer
open Footprints Frames OtpRecords SettingsCache PayloadReads SoloServer VoteAcceptance

/-- The commands of Redis and of the database. -/
def stores : Cmd → Bool
  | .redis _ => true
  | .sql _ => true
  | _ => false

/-- The server, at most one of whose steps at Redis or the database fails. -/
abbrev failsOnce (cfg : Config) : Machine Cmd Reply (World × Plan Fault) Oracle Env Call Answer :=
  planned (server cfg) stores Oracle.fault

abbrev Attempt := World × Plan Fault

def bareAttempt (s : Attempt) : Attempt := (bare s.1, s.2)

/-- What a command answers under the plan. -/
def answerOnce (s : Attempt) : (c : Cmd) → Option (Reply c × Attempt)
  | .redis c =>
    let ran := faulty { fault := s.2.hits 0 } s.1.redis (c.run s.1.redis s.1.clock)
    some (ran.1, { s.1 with redis := ran.2 }, s.2.next)
  | .sql c =>
    let ran := faulty { fault := s.2.hits 0 } s.1.db (c.run s.1.db s.1.clock)
    some (ran.1, { s.1 with db := ran.2 }, s.2.next)
  | .now => some (s.1.clock, s)
  | .broadcast _ => some ((), s)
  | .goWarmCache => some ((), s)
  | _ => none

/- Only the fault of an oracle matters to a store. -/
theorem faulty_oracle {α σ : Type} (o : Oracle) (before : σ) (ran : Except GoErr α × σ) :
    faulty o before ran = faulty { fault := o.fault } before ran := rfl

def anyOracle (_ : Oracle) : Bool := true

theorem attempt_settles (cfg : Config) :
    Settles (failsOnce cfg) anyOracle hubOnly bareAttempt answerOnce where
  performs {s o c r s' x} _ performed answered := by
    obtain ⟨meets, unwritten, left⟩ := planned_performs performed
    obtain ⟨w', plan'⟩ := s'
    dsimp only at unwritten left
    subst left
    cases c with
    | redis c =>
      obtain ⟨rfl, rfl⟩ := perform_redis unwritten
      cases answered
      have same : o.fault = s.2.hits 0 := meets
      rw [faulty_oracle o, same]
      rfl
    | sql c =>
      obtain ⟨rfl, rfl⟩ := perform_sql unwritten
      cases answered
      have same : o.fault = s.2.hits 0 := meets
      rw [faulty_oracle o, same]
      rfl
    | broadcast data =>
      cases answered
      obtain ⟨hub, -, same⟩ := Option.map_eq_some_iff.mp unwritten
      cases same
      rfl
    | now =>
      cases answered
      cases unwritten
      rfl
    | goWarmCache =>
      cases answered
      cases unwritten
      rfl
    | _ => cases answered
  env {s e s'} calm moved := by
    obtain ⟨moved, same⟩ := planned_env moved
    have view := (server_settles cfg).env calm moved
    exact Prod.ext view same

theorem attempt_goes (cfg : Config) (s : Attempt) (c : Cmd) (x : Reply c × Attempt)
    (answered : answerOnce (bareAttempt s) c = some x) : ∃ s₁ o r s₂,
      Calm (failsOnce cfg) hubOnly s s₁ ∧ anyOracle o = true ∧
        (failsOnce cfg).perform s₁ o c = some (r, s₂) := by
  obtain ⟨w, plan⟩ := s
  let planned : Oracle := { fault := plan.hits 0 }
  cases c with
  | broadcast data =>
    obtain ⟨w', path, room⟩ := room_for_broadcast cfg w
    have sent : (server cfg).perform w' {} (.broadcast data) =
        some ((), { w' with hub := { w'.hub with queue := w'.hub.queue ++ [data] } }) := by
      change (w'.hub.send data).map _ = _
      rw [Hub.send, if_pos room]
      rfl
    exact ⟨(w', plan), {}, _, _, calm_planned path plan, rfl, planned_perform rfl sent⟩
  | redis c => exact ⟨(w, plan), planned, _, _, .refl _, rfl, planned_perform rfl rfl⟩
  | sql c => exact ⟨(w, plan), planned, _, _, .refl _, rfl, planned_perform rfl rfl⟩
  | now => exact ⟨(w, plan), {}, _, _, .refl _, rfl, planned_perform rfl rfl⟩
  | goWarmCache => exact ⟨(w, plan), {}, _, _, .refl _, rfl, planned_perform rfl rfl⟩
  | _ => cases answered

/-- The call is executed alone from this world, and its steps fail as planned. -/
abbrev Attempts (cfg : Config) {α : Type} (s : Attempt) (p : Act α) (a : α) (s' : Attempt)
    (later : List Call) : Prop := Solo (failsOnce cfg) anyOracle hubOnly s p a s' later

/-- A live record of the email with this code, candidate and fingerprint. -/
def LiveRecord (w : World) (email otp fp : Str) (id : Int) : Prop := ∃ stored,
  w.redis.get itoa w.clock (otpKey email) = .ok stored ∧ decodeRecord stored = .record otp id fp

/-- What Redis has about the codes of an email: the record, the counter and the block flag. -/
def codesOf (w : World) (email : Str) : List (Option (Entry Str)) :=
  [otpKey email, otpAttemptsKey email, otpBlockedKey email].map (w.redis.lookup w.clock)

def alreadyVoted : GoErr := newError "already voted"

/-- An error leaves votes and codes as they were, success adds the vote and uses up the code. -/
structure AllOrNothing (w w' : World) (email otp : Str) (r : Option GoErr) : Prop where
  nothing : ∀ err, r = some err → err ≠ alreadyVoted → (∃ fp id, LiveRecord w email otp fp id) →
    w'.db.votes = w.db.votes ∧ codesOf w' email = codesOf w email
  all : r = none → (∃ v, v.voterEmail = email ∧ w'.db.votes = w.db.votes ++ [v]) ∧
    w'.redis.lookup w'.clock (otpKey email) = none

/-- The command failed without effect. -/
def lost (f : Option Fault) : Bool := f.any fun f => !f.applied

/-- The call stops before it uses up the code. -/
def stopped (w : World) (plan : Plan Fault) (email : Str) : Bool :=
  (w.redis.lookup w.clock (otpBlockedKey email)).isSome || (plan.hits 0).isSome ||
    (plan.hits 1).isSome

/-- What the database says to the vote. -/
def verdict (w : World) (email fp : Str) (id : Int) (ip userAgent : Str) : Except GoErr Unit :=
  (w.db.insertVote w.clock email fp id ip userAgent).1

def isRefused : Except GoErr Unit → Bool
  | .ok _ => false
  | .error err => !isDuplicate err

/-- Nothing goes wrong between the two stores: the call stops before, or the INSERT fails with a
text that reads as a duplicate, or the DEL is lost and the vote not inserted, or the vote is not
refused for another reason than a duplicate. -/
def Spared (w : World) (plan : Plan Fault) (email fp : Str) (id : Int) (ip userAgent : Str) : Prop :=
  stopped w plan email = true ∨
    match plan.hits 3 with
    | some f => isDuplicate ⟨f.text, []⟩ = true
    | none => if lost (plan.hits 2) then verdict w email fp id ip userAgent ≠ .ok ()
      else isRefused (verdict w email fp id ip userAgent) = false

section Evaluating
variable {w : World} {plan : Plan Fault}

theorem redis_runs {α : Type} {c : RedisCmd} {f : Except GoErr c.Result → Act α}
    (healthy : plan.hits 0 = none) : evaluate answerOnce (redis c >>= f) (w, plan) =
      evaluate answerOnce (f (c.run w.redis w.clock).1)
        ({ w with redis := (c.run w.redis w.clock).2 }, plan.next) := by
  have answered : answerOnce (w, plan) (.redis c) =
      some ((c.run w.redis w.clock).1, { w with redis := (c.run w.redis w.clock).2 }, plan.next) := by
    rw [answerOnce, healthy]
    rfl
  exact evaluate_call answered

theorem redis_fails {α : Type} {c : RedisCmd} {f : Except GoErr c.Result → Act α} {fault : Fault}
    (hit : plan.hits 0 = some fault) : evaluate answerOnce (redis c >>= f) (w, plan) =
      evaluate answerOnce (f (.error ⟨fault.text, []⟩))
        ({ w with redis := if fault.applied then (c.run w.redis w.clock).2 else w.redis },
          plan.next) := by
  have answered : answerOnce (w, plan) (.redis c) = some (.error ⟨fault.text, []⟩,
      { w with redis := if fault.applied then (c.run w.redis w.clock).2 else w.redis },
        plan.next) := by
    rw [answerOnce, hit]
    rfl
  exact evaluate_call answered

theorem sql_runs {α : Type} {c : SqlCmd} {f : Except GoErr c.Result → Act α}
    (healthy : plan.hits 0 = none) : evaluate answerOnce (sql c >>= f) (w, plan) =
      evaluate answerOnce (f (c.run w.db w.clock).1)
        ({ w with db := (c.run w.db w.clock).2 }, plan.next) := by
  have answered : answerOnce (w, plan) (.sql c) =
      some ((c.run w.db w.clock).1, { w with db := (c.run w.db w.clock).2 }, plan.next) := by
    rw [answerOnce, healthy]
    rfl
  exact evaluate_call answered

theorem sql_fails {α : Type} {c : SqlCmd} {f : Except GoErr c.Result → Act α} {fault : Fault}
    (hit : plan.hits 0 = some fault) : evaluate answerOnce (sql c >>= f) (w, plan) =
      evaluate answerOnce (f (.error ⟨fault.text, []⟩))
        ({ w with db := if fault.applied then (c.run w.db w.clock).2 else w.db }, plan.next) := by
  have answered : answerOnce (w, plan) (.sql c) = some (.error ⟨fault.text, []⟩,
      { w with db := if fault.applied then (c.run w.db w.clock).2 else w.db }, plan.next) := by
    rw [answerOnce, hit]
    rfl
  exact evaluate_call answered

/- The check of the block flag. -/
theorem blocked_runs (email : Str) (healthy : plan.hits 0 = none) :
    evaluate answerOnce (isEmailBlocked email) (w, plan) =
      some (.ok (w.redis.lookup w.clock (otpBlockedKey email)).isSome, w, plan.next) := by
  unfold isEmailBlocked
  rw [redis_runs healthy]
  dsimp only [RedisCmd.run]
  rw [Store.present]
  cases w.redis.lookup w.clock (otpBlockedKey email) <;> rfl

theorem blocked_fails (email : Str) {fault : Fault} (hit : plan.hits 0 = some fault) :
    ∃ err, evaluate answerOnce (isEmailBlocked email) (w, plan) = some (.error err, w, plan.next) := by
  unfold isEmailBlocked
  rw [redis_fails hit]
  dsimp only [RedisCmd.run]
  rw [ite_self]
  exact ⟨_, rfl⟩

/-- The keys after the DEL of the record and the counter, which may have been lost. -/
def usedUp (w : World) (plan : Plan Fault) (email : Str) : World :=
  { w with redis := if lost (plan.hits 2) then w.redis
      else w.redis.del [otpKey email, otpAttemptsKey email] }

theorem verify_stops {email otp : Str} (stops : stopped w plan email = true) : ∃ err plan',
      evaluate answerOnce (OtpService.verify email otp) (w, plan) = some (.error err, w, plan') := by
  unfold OtpService.verify
  cases first : plan.hits 0 with
  | some fault =>
    obtain ⟨err, checked⟩ := blocked_fails (w := w) email first
    rw [evaluate_then checked]
    exact ⟨_, _, rfl⟩
  | none =>
    rw [evaluate_then (blocked_runs email first)]
    cases blocked : w.redis.lookup w.clock (otpBlockedKey email) with
    | some e => exact ⟨_, _, rfl⟩
    | none =>
      have second : (plan.hits 1).isSome = true := by simpa [stopped, blocked, first] using stops
      obtain ⟨fault, hit⟩ := Option.isSome_iff_exists.mp second
      dsimp only [Option.isSome_none]
      rw [redis_fails ((hits_next plan 0).trans hit)]
      dsimp only [RedisCmd.run]
      rw [ite_self]
      exact ⟨_, _, rfl⟩

/- Past the check of the block and the reading of the record. -/
theorem verify_reads {email otp : Str} (goes : stopped w plan email = false) :
    evaluate answerOnce (OtpService.verify email otp) (w, plan) =
      evaluate answerOnce (match w.redis.get itoa w.clock (otpKey email) with
        | .error err => .done (.error (if (storeError err).is .redisNil then
            newError "OTP expired or not found"
            else wrapError "fetching OTP from Redis" (storeError err)))
        | .ok stored => judge email otp stored)
        (w, plan.next.next) := by
  simp only [stopped, Bool.or_eq_false_iff, Option.isSome_eq_false_iff, Option.isNone_iff_eq_none]
    at goes
  obtain ⟨⟨unblocked, first⟩, second⟩ := goes
  unfold OtpService.verify
  rw [evaluate_then (blocked_runs email first), unblocked]
  dsimp only [Option.isSome_none]
  rw [redis_runs ((hits_next plan 0).trans second)]
  dsimp only [RedisCmd.run]
  cases w.redis.get itoa w.clock (otpKey email) with
  | error err =>
    dsimp only [fromStore]
    split <;> rfl
  | ok stored => rfl

theorem verify_goes {email otp fp : Str} {id : Int} (live : LiveRecord w email otp fp id)
    (goes : stopped w plan email = false) :
    evaluate answerOnce (OtpService.verify email otp) (w, plan) =
      some (.ok (fp, id), usedUp w plan email, plan.next.next.next) := by
  obtain ⟨stored, held, decodes⟩ := live
  rw [verify_reads goes, held]
  dsimp only [judge]
  rw [decodes]
  simp only [ne_eq, not_true_eq_false, ↓reduceIte]
  have third : plan.next.next.hits 0 = plan.hits 2 := by simp
  cases hit : plan.hits 2 with
  | none =>
    rw [redis_runs (third.trans hit)]
    simp [usedUp, hit, lost, RedisCmd.run]
  | some fault =>
    rw [redis_fails (third.trans hit)]
    obtain ⟨applied, text⟩ := fault
    cases applied <;> simp [usedUp, hit, lost, RedisCmd.run]

/- Only the code of a live record is accepted. -/
theorem live_of_verify {email otp fp : Str} {id : Int} {s : Attempt}
    (evaluated : evaluate answerOnce (OtpService.verify email otp) (w, plan) = some (.ok (fp, id), s)) :
    LiveRecord w email otp fp id := by
  cases stops : stopped w plan email with
  | true =>
    obtain ⟨err, plan', fails⟩ := @verify_stops w plan email otp stops
    rw [fails] at evaluated
    cases evaluated
  | false =>
    rw [verify_reads stops] at evaluated
    cases held : w.redis.get itoa w.clock (otpKey email) with
    | error err =>
      rw [held] at evaluated
      cases evaluated
    | ok stored =>
      rw [held] at evaluated
      exact ⟨stored, held, judge_accepts evaluated⟩

theorem recording_not_voted (err : GoErr) : wrapError "recording vote" err ≠ alreadyVoted := by
  intro same
  have heads : some 'r' = some 'a' := congrArg (fun e => e.text.head?) same
  exact absurd heads (by decide)

/- A live record is there. -/
theorem record_there {email otp fp : Str} {id : Int} (live : LiveRecord w email otp fp id) :
    w.redis.lookup w.clock (otpKey email) ≠ none := by
  obtain ⟨stored, held, -⟩ := live
  intro nothing
  rw [Store.get, nothing] at held
  cases held

theorem usedUp_gone (email : Str) (told : lost (plan.hits 2) = false) :
    (usedUp w plan email).redis.lookup w.clock (otpKey email) = none := by
  have gone : (w.redis.del [otpKey email, otpAttemptsKey email]) (otpKey email) = none :=
    del_self w.redis List.mem_cons_self
  simp [usedUp, told, Store.lookup, gone]

/- The first of the codes is the record. -/
theorem codes_changed {w' : World} {email : Str} (there : w.redis.lookup w.clock (otpKey email) ≠ none)
    (gone : w'.redis.lookup w'.clock (otpKey email) = none) : codesOf w' email ≠ codesOf w email := by
  intro same
  have first : (codesOf w' email).head? = (codesOf w email).head? := by rw [same]
  simp only [codesOf, List.map_cons, List.head?_cons, gone, Option.some.injEq] at first
  exact there first.symm

/- The answer about which nothing is said. -/
theorem voted_whole (w' : World) (email otp : Str) :
    AllOrNothing w w' email otp (some (newError "already voted")) := by
  constructor
  · intro err is other
    cases is
    exact absurd rfl other
  · intro is
    cases is

/- The INSERT fails, so the DEL did not. -/
theorem insert_fails {email otp fp ip userAgent : Str} {id : Int}
    (live : LiveRecord w email otp fp id) (goes : stopped w plan email = false) {fault : Fault}
    (hit : plan.hits 3 = some fault) :
    ∃ r s', evaluate answerOnce (VoteService.verifyAndVote email otp ip userAgent) (w, plan) =
        some (r, s') ∧
      (AllOrNothing w s'.1 email otp r ↔ isDuplicate ⟨fault.text, []⟩ = true) := by
  have fourth : plan.next.next.next.hits 0 = some fault := by simp [hit]
  have told : lost (plan.hits 2) = false := by
    cases second : plan.hits 2 with
    | none => rfl
    | some other => cases one_hit second hit
  unfold VoteService.verifyAndVote
  rw [evaluate_then (verify_goes live goes)]
  dsimp only
  rw [sql_fails fourth]
  dsimp only
  cases duplicate : isDuplicate ⟨fault.text, []⟩ with
  | true =>
    refine ⟨_, _, rfl, ?_⟩
    simp only [voted_whole]
  | false =>
    refine ⟨_, _, rfl, ?_⟩
    simp only [Bool.false_eq_true, iff_false]
    intro whole
    have kept := (whole.nothing _ rfl (recording_not_voted _) ⟨fp, id, live⟩).2
    exact codes_changed (record_there live) (usedUp_gone email told) kept

/- The vote is in, and nothing that follows can undo that. -/
theorem sent_once (s : Attempt) (email : Str) : ∃ s', evaluate answerOnce broadcastPayload s =
    some ((), s') ∧ s'.1.db = s.1.db ∧ s'.1.clock = s.1.clock ∧
      s'.1.redis (otpKey email) = s.1.redis (otpKey email) := by
  have total : ∀ s c, BroadcastCmd c → ∃ x, answerOnce s c = some x := by
    intro s c sent
    cases sent <;> exact ⟨_, rfl⟩
  obtain ⟨x, evaluated⟩ := evaluates_of_issues total broadcastPayload_issues s
  let part : Attempt → Db × Nat × Option (Entry Str) := fun s =>
    (s.1.db, s.1.clock, s.1.redis (otpKey email))
  have keeps : ∀ s c (x : Reply c × Attempt), BroadcastCmd c → answerOnce s c = some x →
      part x.2 = part s := by
    intro s c x sent answered
    have untouched : ∀ c : RedisCmd, otpKey email ∉ writtenKeys c → ∀ fault : Option Fault,
        (faulty { fault := fault } s.1.redis (c.run s.1.redis s.1.clock)).2 (otpKey email) =
          s.1.redis (otpKey email) := by
      intro c out fault
      rcases faulty_state (o := { fault := fault }) s.1.redis (c.run s.1.redis s.1.clock) with ran | idle
      · rw [ran]
        exact run_frame out s.1.redis s.1.clock
      · rw [idle]
    have read : ∀ c : SqlCmd, (c.run s.1.db s.1.clock).2 = s.1.db → ∀ fault : Option Fault,
        (faulty { fault := fault } s.1.db (c.run s.1.db s.1.clock)).2 = s.1.db := by
      intro c same fault
      rcases faulty_state (o := { fault := fault }) s.1.db (c.run s.1.db s.1.clock) with ran | idle
      · rw [ran, same]
      · exact idle
    cases sent with
    | get =>
      cases answered
      simp only [part, untouched (.get votingSettingsRedisKey) (by simp [writtenKeys])]
    | set raw =>
      cases answered
      have apart : otpKey email ∉ writtenKeys (.set votingSettingsRedisKey raw 0) := by
        simp [writtenKeys]
      simp only [part, untouched _ apart]
    | select =>
      cases answered
      simp only [part, read .getSettings rfl]
    | board =>
      cases answered
      simp only [part, read .getAllWithVotes rfl]
    | now =>
      cases answered
      rfl
    | send data =>
      cases answered
      rfl
  have same : part x.2 = part s := evaluate_keeps part keeps broadcastPayload_issues evaluated
  simp only [part, Prod.mk.injEq] at same
  exact ⟨x.2, evaluated, same⟩

/- The INSERT runs. -/
theorem insert_runs {email otp fp ip userAgent : Str} {id : Int}
    (live : LiveRecord w email otp fp id) (goes : stopped w plan email = false)
    (healthy : plan.hits 3 = none) :
    ∃ r s', evaluate answerOnce (VoteService.verifyAndVote email otp ip userAgent) (w, plan) =
        some (r, s') ∧
      (AllOrNothing w s'.1 email otp r ↔
        if lost (plan.hits 2) then verdict w email fp id ip userAgent ≠ .ok ()
          else isRefused (verdict w email fp id ip userAgent) = false) := by
  have fourth : plan.next.next.next.hits 0 = none := by simp [healthy]
  have same_insert : (usedUp w plan email).db.insertVote (usedUp w plan email).clock email fp id ip
      userAgent = w.db.insertVote w.clock email fp id ip userAgent := rfl
  unfold VoteService.verifyAndVote verdict
  rw [evaluate_then (verify_goes live goes)]
  dsimp only
  rw [sql_runs fourth]
  dsimp only [SqlCmd.run]
  rw [same_insert]
  rcases insertVote_cases w.db w.clock email fp id ip userAgent with ⟨err, refused⟩ | ⟨-, -, -, done⟩
  · rw [refused]
    dsimp only
    cases duplicate : isDuplicate err with
    | true =>
      refine ⟨_, _, rfl, ?_⟩
      simp [voted_whole, isRefused, duplicate]
    | false =>
      refine ⟨_, _, rfl, ?_⟩
      cases told : lost (plan.hits 2) with
      | true =>
        have same : usedUp w plan email = w := by rw [usedUp, if_pos told]
        rw [same]
        simp only [↓reduceIte, ne_eq, reduceCtorEq, not_false_eq_true, iff_true]
        constructor
        · intro err is other there
          exact ⟨rfl, rfl⟩
        · intro is
          cases is
      | false =>
        simp only [Bool.false_eq_true, ↓reduceIte, isRefused, duplicate, Bool.not_false, reduceCtorEq,
          iff_false]
        intro whole
        have kept := (whole.nothing _ rfl (recording_not_voted _) ⟨fp, id, live⟩).2
        exact codes_changed (record_there live) (usedUp_gone email told) kept
  · rw [done]
    dsimp only
    obtain ⟨s', sent, db, clock, record⟩ := sent_once ({ usedUp w plan email with db := { w.db with
      votes := w.db.votes ++ [w.db.newVote w.clock email fp id ip userAgent]
      nextVote := w.db.nextVote + 1 } }, plan.next.next.next.next) email
    rw [evaluate_then sent]
    refine ⟨_, _, rfl, ?_⟩
    have added : s'.1.db.votes = w.db.votes ++ [w.db.newVote w.clock email fp id ip userAgent] := by
      rw [db]
    have found : s'.1.redis.lookup s'.1.clock (otpKey email) =
        (usedUp w plan email).redis.lookup w.clock (otpKey email) := by
      rw [clock]
      exact lookup_congr record _
    cases told : lost (plan.hits 2) with
    | true =>
      simp only [↓reduceIte, ne_eq, not_true_eq_false, iff_false]
      intro whole
      have gone := (whole.all rfl).2
      have same : usedUp w plan email = w := by rw [usedUp, if_pos told]
      rw [found, same] at gone
      exact record_there live gone
    | false =>
      simp only [Bool.false_eq_true, ↓reduceIte, isRefused, iff_true]
      constructor
      · intro err is
        cases is
      · intro _
        rw [found]
        exact ⟨⟨_, rfl, added⟩, usedUp_gone email told⟩

/- With the code of a live record. -/
theorem live_outcome {email otp fp ip userAgent : Str} {id : Int}
    (live : LiveRecord w email otp fp id) :
    ∃ r s', evaluate answerOnce (VoteService.verifyAndVote email otp ip userAgent) (w, plan) =
        some (r, s') ∧
      (AllOrNothing w s'.1 email otp r ↔ Spared w plan email fp id ip userAgent) := by
  unfold Spared
  cases stops : stopped w plan email with
  | true =>
    obtain ⟨err, plan', fails⟩ := @verify_stops w plan email otp stops
    unfold VoteService.verifyAndVote
    rw [evaluate_then fails]
    refine ⟨_, _, rfl, ?_⟩
    simp only [true_or, iff_true]
    constructor
    · intro err is other there
      exact ⟨rfl, rfl⟩
    · intro is
      cases is
  | false =>
    simp only [Bool.false_eq_true, false_or]
    cases hit : plan.hits 3 with
    | some fault => exact insert_fails live stops hit
    | none => exact insert_runs live stops hit

/- Without it there is no success. -/
theorem dead_outcome {email otp ip userAgent : Str} (dead : ¬ ∃ fp id, LiveRecord w email otp fp id)
    {r : Option GoErr} {s' : Attempt}
    (evaluated : evaluate answerOnce (VoteService.verifyAndVote email otp ip userAgent) (w, plan) =
      some (r, s')) : AllOrNothing w s'.1 email otp r := by
  unfold VoteService.verifyAndVote at evaluated
  rw [evaluate_bind, Option.bind_eq_some_iff] at evaluated
  obtain ⟨⟨found, s⟩, verified, rest⟩ := evaluated
  rcases found with err | ⟨fp, id⟩
  · cases rest
    constructor
    · intro err is other there
      exact absurd there dead
    · intro is
      cases is
  · exact absurd ⟨fp, id, live_of_verify verified⟩ dead

end Evaluating

theorem once_determined (s : Attempt) (c : Cmd) (determined : Determined c) :
    ∃ x, answerOnce s c = some x := by
  cases c with
  | redis c => exact ⟨_, rfl⟩
  | sql c => exact ⟨_, rfl⟩
  | now => exact ⟨_, rfl⟩
  | broadcast data => exact ⟨_, rfl⟩
  | goWarmCache => exact ⟨_, rfl⟩
  | _ => cases determined

theorem one_live_record {w : World} {email otp fp fp' : Str} {id id' : Int}
    (first : LiveRecord w email otp fp id) (second : LiveRecord w email otp fp' id') :
    fp' = fp ∧ id' = id := by
  obtain ⟨stored, held, decodes⟩ := first
  obtain ⟨stored', held', decodes'⟩ := second
  rw [held, Except.ok.injEq] at held'
  rw [← held', decodes] at decodes'
  cases decodes'
  exact ⟨rfl, rfl⟩

/- The hub and the mail queue have no part in it. -/
theorem whole_bare {w w' : World} {email otp : Str} {r : Option GoErr} :
    AllOrNothing (bare w) (bare w') email otp r ↔ AllOrNothing w w' email otp r := by
  constructor
  · intro whole
    exact ⟨whole.nothing, whole.all⟩
  · intro whole
    exact ⟨whole.nothing, whole.all⟩

/- From every state, for every request and every plan of at most one failure, the call comes to
   an answer when it is executed alone, and it is all or nothing if and only if it is spared
   whenever it was given the code of the live record. -/
theorem all_or_nothing_iff (cfg : Config) (w : World) (plan : Plan Fault)
    (email otp ip userAgent : Str) :
    (∃ r s' later, Attempts cfg (w, plan) (VoteService.verifyAndVote email otp ip userAgent) r s' later) ∧
      ∀ r s' later,
        Attempts cfg (w, plan) (VoteService.verifyAndVote email otp ip userAgent) r s' later →
          (AllOrNothing w s'.1 email otp r ↔ ∀ fp id, LiveRecord w email otp fp id →
            Spared w plan email fp id ip userAgent) := by
  have uses := issues_mono (verifyAndVote_issues email otp ip userAgent) (vote_determined email)
  obtain ⟨x, evaluated⟩ := evaluates_of_issues once_determined uses (bareAttempt (w, plan))
  constructor
  · obtain ⟨s', later, run⟩ := solo_exists (attempt_settles cfg) (attempt_goes cfg) evaluated
    exact ⟨x.1, s', later, run⟩
  · intro r s' later run
    obtain rfl := solo_evaluates (attempt_settles cfg) run evaluated
    by_cases there : ∃ fp id, LiveRecord w email otp fp id
    · obtain ⟨fp, id, live⟩ := there
      have at_bare : LiveRecord (bare w) email otp fp id := live
      obtain ⟨r', s'', outcome, exact_⟩ := @live_outcome (bare w) plan email otp fp ip userAgent id at_bare
      have same := evaluated.symm.trans outcome
      cases same
      have exact_ : AllOrNothing w s'.1 email otp r ↔ Spared w plan email fp id ip userAgent :=
        whole_bare.symm.trans exact_
      constructor
      · intro whole fp' id' live'
        obtain ⟨rfl, rfl⟩ := one_live_record live live'
        exact exact_.mp whole
      · intro spared
        exact exact_.mpr (spared fp id live)
    · have whole := whole_bare.mp (dead_outcome (w := bare w) there evaluated)
      constructor
      · intro _ fp id live
        exact absurd ⟨fp, id, live⟩ there
      · exact fun _ => whole

def brokenConnection : Fault := ⟨false, "invalid connection".toList⟩

/- The code is sent and presented, and the INSERT of the vote fails. -/
theorem failed_insert_takes_code : ∃ s r s' later,
    Reaches (server devConfig) anySchedule twoCandidates.start s ∧
      LiveRecord s.world "ann@gmail.com".toList "100000".toList "xxx".toList 1 ∧
        Attempts devConfig (s.world, some (3, brokenConnection))
          (VoteService.verifyAndVote "ann@gmail.com".toList "100000".toList "10.0.0.1".toList []) r s' later ∧
            ¬ AllOrNothing s.world s'.1 "ann@gmail.com".toList "100000".toList r := by
  have live : LiveRecord (readyToVote 3).world "ann@gmail.com".toList "100000".toList "xxx".toList 1 :=
    record_read (by decide +kernel)
  have goes : stopped (readyToVote 3).world (some (3, brokenConnection)) "ann@gmail.com".toList = false := by
    decide +kernel
  have reached := ready_reached 3 (by decide +kernel)
  have other : isDuplicate ⟨brokenConnection.text, []⟩ = false := by decide
  generalize readyToVote 3 = s at live goes reached
  have at_bare : LiveRecord (bare s.world) "ann@gmail.com".toList "100000".toList "xxx".toList 1 := live
  obtain ⟨r, s₁, evaluated, exact_⟩ := @insert_fails (bare s.world) (some (3, brokenConnection))
    _ _ _ "10.0.0.1".toList [] _ at_bare goes _ rfl
  obtain ⟨s', later, run⟩ := solo_exists (attempt_settles devConfig) (attempt_goes devConfig)
    (w := (s.world, some (3, brokenConnection))) evaluated
  have same := solo_evaluates (attempt_settles devConfig) run evaluated
  cases same
  refine ⟨s, r, s', later, reached, live, run, ?_⟩
  intro whole
  rw [whole_bare.symm.trans exact_, other] at whole
  cases whole

end VoteAtomicity
