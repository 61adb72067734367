import VotingApp.Lib.CallPool
import VotingApp.Lib.ExpiringStore
import VotingApp.Tables
import VotingApp.Hub

/-!
The world the server runs in: the clock, Redis, the database, the mail queue and
the hub. A command is one atomic step of a handler. Its oracle decides whether it
fails, and whether a failed one took effect before its answer was lost.
-/
namespace VotingWorld
open GoText GoTime Tables WsHub EffectProgram CallPool ExpiringStore

inductive RedisCmd where
  | exists (key : Str)
  | get (key : Str)
  | set (key value : Str) (ttl : Nat)
  | del (keys : List Str)
  | incr (key : Str)
  | expire (key : Str) (ttl : Nat)
  | sadd (key : Str) (members : List Str)
  | srem (key member : Str)
  | sismember (key member : Str)
  deriving DecidableEq, Repr

abbrev RedisCmd.Result : RedisCmd → Type
  | .exists _ => Nat
  | .get _ => Str
  | .set _ _ _ => Unit
  | .del _ => Unit
  | .incr _ => Int
  | .expire _ _ => Bool
  | .sadd _ _ => Nat
  | .srem _ _ => Nat
  | .sismember _ _ => Bool

inductive SqlCmd where
  | countVotesByEmail (email : Str)
  | countVotesByFingerprint (fingerprint : Str)
  | countVotesByIP (ip : Str)
  | countVotesFor (candidateID : Int)
  | insertVote (email fingerprint : Str) (candidateID : Int) (ip userAgent : Str)
  | getAllWithVotes
  | candidateName (id : Int)
  | insertCandidate (name description imagePath : Str)
  | updateCandidate (id : Int) (name description : Str) (imagePath : Option Str)
  | deleteCandidate (id : Int)
  | getSettings
  | updateSettings (isOpen : Bool) (endsAt : Option Nat)
  | updateCustomDomainsOnly (value : Bool)
  | allDomains
  | insertDomain (domain : Str)
  | domainById (id : Int)
  | deleteDomain (id : Int)
  | countDomain (domain : Str)
  deriving DecidableEq, Repr

abbrev SqlCmd.Result : SqlCmd → Type
  | .countVotesByEmail _ => Int
  | .countVotesByFingerprint _ => Int
  | .countVotesByIP _ => Int
  | .countVotesFor _ => Int
  | .insertVote _ _ _ _ _ => Unit
  | .getAllWithVotes => List CandidateWithVotes
  | .candidateName _ => Str
  | .insertCandidate _ _ _ => Int
  | .updateCandidate _ _ _ _ => Int
  | .deleteCandidate _ => Int
  | .getSettings => Settings
  | .updateSettings _ _ => Unit
  | .updateCustomDomainsOnly _ => Unit
  | .allDomains => List CustomDomain
  | .insertDomain _ => Unit
  | .domainById _ => Str
  | .deleteDomain _ => Int
  | .countDomain _ => Int

/-- What the Turnstile endpoint sent back. -/
inductive Siteverify where
  | failed (err : GoErr)
  | unreadable (err : GoErr)
  | answered (success : Bool)
  deriving DecidableEq, Repr

inductive Cmd where
  | redis (c : RedisCmd)
  | sql (c : SqlCmd)
  | now
  | randInt
  | enqueue (recipient subject body : Str)
  | siteverify (token remoteIP : Str)
  | broadcast (data : Str)
  | register
  | sendToOne (client : Nat) (data : Str)
  | startPumps (client : Nat)
  | goWarmCache
  deriving DecidableEq, Repr

abbrev Reply : Cmd → Type
  | .redis c => Except GoErr c.Result
  | .sql c => Except GoErr c.Result
  | .now => Nat
  | .randInt => Except GoErr Nat
  | .enqueue _ _ _ => Option GoErr
  | .siteverify _ _ => Siteverify
  | .broadcast _ => Unit
  | .register => Nat
  | .sendToOne _ _ => Unit
  | .startPumps _ => Unit
  | .goWarmCache => Unit

structure Fault where
  applied : Bool
  text : Str
  deriving DecidableEq, Repr

structure Oracle where
  fault : Option Fault := none
  draw : Nat := 0
  verdict : Siteverify := .answered true
  deriving DecidableEq, Repr

structure Mail where
  recipient : Str
  subject : Str
  body : Str
  deriving DecidableEq, Repr

structure World where
  clock : Nat
  redis : Store Str Str := fun _ => none
  db : Db := {}
  outbox : List Mail := []
  hub : Hub := {}

def storeError : StoreError → GoErr
  | .missing => ⟨"redis: nil".toList, [.redisNil]⟩
  | .wrongType => newError "WRONGTYPE Operation against a key holding the wrong kind of value"
  | .notInteger => newError "ERR value is not an integer or out of range"

def fromStore {α : Type} : Except StoreError α → Except GoErr α
  | .ok a => .ok a
  | .error e => .error (storeError e)

def RedisCmd.run (st : Store Str Str) (now : Nat) :
    (c : RedisCmd) → Except GoErr c.Result × Store Str Str
  | .exists key => (.ok (st.present now key), st)
  | .get key => (fromStore (st.get itoa now key), st)
  | .set key value ttl => (.ok (), st.set now key value ttl)
  | .del keys => (.ok (), st.del keys)
  | .incr key => (fromStore (st.incr atoi now key).1, (st.incr atoi now key).2)
  | .expire key ttl => (.ok (st.expire now key ttl).1, (st.expire now key ttl).2)
  | .sadd key members => (fromStore (st.sadd now key members).1, (st.sadd now key members).2)
  | .srem key member => (fromStore (st.srem now key member).1, (st.srem now key member).2)
  | .sismember key member => (fromStore (st.sismember now key member), st)

def SqlCmd.run (db : Db) (now : Nat) : (c : SqlCmd) → Except GoErr c.Result × Db
  | .countVotesByEmail email => (.ok (db.countVotes fun v => v.voterEmail = email), db)
  | .countVotesByFingerprint fp => (.ok (db.countVotes fun v => v.voterFingerprint = fp), db)
  | .countVotesByIP ip => (.ok (db.countVotes fun v => v.voterIp = ip), db)
  | .countVotesFor id => (.ok (db.countVotes fun v => v.candidateId = id), db)
  | .insertVote email fp id ip userAgent => db.insertVote now email fp id ip userAgent
  | .getAllWithVotes => (.ok db.getAllWithVotes, db)
  | .candidateName id => (db.candidateName id, db)
  | .insertCandidate name description path => db.insertCandidate now name description path
  | .updateCandidate id name description path => db.updateCandidate now id name description path
  | .deleteCandidate id => db.deleteCandidate id
  | .getSettings => (.ok db.settings, db)
  | .updateSettings isOpen endsAt => db.updateSettings isOpen endsAt
  | .updateCustomDomainsOnly value => db.updateCustomDomainsOnly value
  | .allDomains => (.ok db.allDomains, db)
  | .insertDomain domain => db.insertDomain now domain
  | .domainById id => (db.domainById id, db)
  | .deleteDomain id => db.deleteDomain id
  | .countDomain domain => (.ok (db.countDomain domain), db)

/- A faulty command answers with an error; applied says whether it took effect. -/
def faulty {α σ : Type} (o : Oracle) (before : σ) (ran : Except GoErr α × σ) : Except GoErr α × σ :=
  match o.fault with
  | none => ran
  | some f => (.error ⟨f.text, []⟩, if f.applied then ran.2 else before)

def World.perform (w : World) (o : Oracle) : (c : Cmd) → Option (Reply c × World)
  | .redis c =>
    let ran := faulty o w.redis (c.run w.redis w.clock)
    some (ran.1, { w with redis := ran.2 })
  | .sql c =>
    let ran := faulty o w.db (c.run w.db w.clock)
    some (ran.1, { w with db := ran.2 })
  | .now => some (w.clock, w)
  | .randInt => some ((faulty o () (.ok (o.draw % 900000), ())).1, w)
  | .enqueue recipient subject body =>
    let sent := { w with outbox := w.outbox ++ [⟨recipient, subject, body⟩] }
    match o.fault with
    | none => some (none, sent)
    | some f => some (some ⟨f.text, []⟩, if f.applied then sent else w)
  | .siteverify _ _ => some (o.verdict, w)
  | .broadcast data => (w.hub.send data).map fun hub => ((), { w with hub := hub })
  | .register => some (w.hub.clients.length, { w with hub := w.hub.register })
  | .sendToOne client data => some ((), { w with hub := w.hub.sendToOne client data })
  | .startPumps client => some ((), { w with hub := w.hub.startPumps client })
  | .goWarmCache => some ((), w)

/-- What happens besides the calls: time, the hub loop and the pumps of the clients. -/
inductive Env where
  | tick (d : Nat)
  | hubBroadcast (order : List Nat)
  | hubUnregister (client : Nat)
  | pump (client : Nat)
  | pumpFail (client : Nat)
  deriving DecidableEq, Repr

def World.env (w : World) : Env → Option World
  | .tick d => some { w with clock := w.clock + d }
  | .hubBroadcast order => (w.hub.broadcast order).map fun hub => { w with hub := hub }
  | .hubUnregister client => (w.hub.unregister client).map fun hub => { w with hub := hub }
  | .pump client => (w.hub.pump client Client.pumpStep).map fun hub => { w with hub := hub }
  | .pumpFail client => (w.hub.pump client Client.pumpFail).map fun hub => { w with hub := hub }

abbrev Act (α : Type) := Prog Cmd Reply α

def redis (c : RedisCmd) : Act (Except GoErr c.Result) := issue (Cmd.redis c)

def sql (c : SqlCmd) : Act (Except GoErr c.Result) := issue (Cmd.sql c)

section Commands
variable {α : Type} {allowed : Cmd → Prop}

theorem issues_redis {c : RedisCmd} {f : Except GoErr c.Result → Act α} (ok : allowed (.redis c))
    (rest : ∀ r, (f r).Issues allowed) : (redis c >>= f).Issues allowed := ⟨ok, rest⟩

theorem issues_sql {c : SqlCmd} {f : Except GoErr c.Result → Act α} (ok : allowed (.sql c))
    (rest : ∀ r, (f r).Issues allowed) : (sql c >>= f).Issues allowed := ⟨ok, rest⟩

theorem issues_issue {c : Cmd} {f : Reply c → Act α} (ok : allowed c)
    (rest : ∀ r, (f r).Issues allowed) : (issue c >>= f).Issues allowed := ⟨ok, rest⟩

variable {pre : List (Exchange Cmd Reply) → Cmd → Prop}
  {post : List (Exchange Cmd Reply) → α → Prop} {past : List (Exchange Cmd Reply)}

theorem meets_redis {c : RedisCmd} {f : Except GoErr c.Result → Act α} (ok : pre past (.redis c))
    (rest : ∀ r, (f r).Meets pre post (⟨.redis c, r⟩ :: past)) :
    (redis c >>= f).Meets pre post past := ⟨ok, rest⟩

theorem meets_sql {c : SqlCmd} {f : Except GoErr c.Result → Act α} (ok : pre past (.sql c))
    (rest : ∀ r, (f r).Meets pre post (⟨.sql c, r⟩ :: past)) :
    (sql c >>= f).Meets pre post past := ⟨ok, rest⟩

theorem meets_issue {c : Cmd} {f : Reply c → Act α} (ok : pre past c)
    (rest : ∀ r, (f r).Meets pre post (⟨c, r⟩ :: past)) :
    (issue c >>= f).Meets pre post past := ⟨ok, rest⟩

variable {I : List (Exchange Cmd Reply) → Prop}

theorem keeps_redis {c : RedisCmd} {f : Except GoErr c.Result → Act α}
    (neutral : Neutral pre I (.redis c)) (rest : ∀ r, (f r).Keeps pre I) :
    (redis c >>= f).Keeps pre I := keeps_call neutral rest

theorem keeps_sql {c : SqlCmd} {f : Except GoErr c.Result → Act α}
    (neutral : Neutral pre I (.sql c)) (rest : ∀ r, (f r).Keeps pre I) :
    (sql c >>= f).Keeps pre I := keeps_call neutral rest

theorem keeps_issue {c : Cmd} {f : Reply c → Act α} (neutral : Neutral pre I c)
    (rest : ∀ r, (f r).Keeps pre I) : (issue c >>= f).Keeps pre I := keeps_call neutral rest

variable {fair : Oracle → Bool} {holds : World → Prop} {ends : α → Prop}

theorem secures_redis {c : RedisCmd} {f : Except GoErr c.Result → Act α}
    (step : ∀ w o r w', holds w → fair o = true → w.perform o (.redis c) = some (r, w') →
      holds w' ∧ Secures World.perform fair holds ends (f r)) :
    Secures World.perform fair holds ends (redis c >>= f) := step

theorem secures_sql {c : SqlCmd} {f : Except GoErr c.Result → Act α}
    (step : ∀ w o r w', holds w → fair o = true → w.perform o (.sql c) = some (r, w') →
      holds w' ∧ Secures World.perform fair holds ends (f r)) :
    Secures World.perform fair holds ends (sql c >>= f) := step

theorem secures_issue {c : Cmd} {f : Reply c → Act α}
    (step : ∀ w o r w', holds w → fair o = true → w.perform o c = some (r, w') →
      holds w' ∧ Secures World.perform fair holds ends (f r)) :
    Secures World.perform fair holds ends (issue c >>= f) := step

end Commands
end VotingWorld
