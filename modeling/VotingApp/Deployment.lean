import VotingApp.AdminServer

/-!
Instances of the server in front of one database: SeedDefaultAdmin of migrate.go and what main.go does
before it listens, run beside the calls that other instances serve. The schema is in place.
-/
namespace Deployment
open GoText GoTime Tables EffectProgram CallPool Embedding VotingWorld VotingServer AdminServer

/-- argon2id.CreateHash with DefaultParams, beside what the admin server is given. -/
structure DeployConfig where
  admin : AdminConfig
  createDefaultHash : Nat → Str → Option Str

inductive DeployCmd where
  | admin (c : AdminCmd)
  | countAdmins
  | createDefaultHash (password : Str)
  | insertAdmin (email hash : Str)

abbrev DeployReply : DeployCmd → Type
  | .admin c => AdminReply c
  | .countAdmins => Except GoErr Int
  | .createDefaultHash _ => Option Str
  | .insertAdmin _ _ => Except GoErr Unit

/-- The admins table with its AUTO_INCREMENT counter. -/
structure DeployWorld where
  admin : AdminWorld
  nextAdmin : Int := 1

def DeployWorld.admins (w : DeployWorld) : List Admin := w.admin.admins

def DeployWorld.withAdmin (w : DeployWorld) (email hash : Str) : DeployWorld :=
  { admin := { w.admin with admins := w.admins ++ [⟨w.nextAdmin, email, hash⟩] }
    nextAdmin := w.nextAdmin + 1 }

/- The email column is UNIQUE. -/
def DeployWorld.insertAdmin (cfg : DeployConfig) (w : DeployWorld) (email hash : Str) :
    Except GoErr Unit × DeployWorld :=
  if 255 < email.length then (.error (dataTooLong "email"), w)
  else if 255 < hash.length then (.error (dataTooLong "password_hash"), w)
  else if w.admins.any fun a => cfg.admin.sameEmail a.email email then
    (.error (duplicateEntry email "email"), w)
  else (.ok (), w.withAdmin email hash)

def DeployWorld.perform (cfg : DeployConfig) (w : DeployWorld) (o : Oracle) :
    (c : DeployCmd) → Option (DeployReply c × DeployWorld)
  | .admin c => (w.admin.perform cfg.admin o c).map fun ran => (ran.1, { w with admin := ran.2 })
  | .countAdmins => some ((faulty o () (.ok (w.admins.length : Int), ())).1, w)
  | .createDefaultHash password =>
    some (if o.fault.isSome then none else cfg.createDefaultHash o.draw password, w)
  | .insertAdmin email hash => some (faulty o w (w.insertAdmin cfg email hash))

abbrev DeployAct (α : Type) := Prog DeployCmd DeployReply α
abbrev DeployHistory := List (Exchange DeployCmd DeployReply)

def countAdmins : DeployAct (Except GoErr Int) := issue DeployCmd.countAdmins

def createDefaultHash (password : Str) : DeployAct (Option Str) :=
  issue (DeployCmd.createDefaultHash password)

def insertAdmin (email hash : Str) : DeployAct (Except GoErr Unit) :=
  issue (DeployCmd.insertAdmin email hash)

/-- Whether a function returns or panics. -/
inductive Outcome where
  | returned
  | panicked
  deriving DecidableEq, Repr

def seedDefaultAdmin (email password : Str) : DeployAct Outcome := do
  match ← countAdmins with
  | .error _ => return .panicked
  | .ok count =>
    if 0 < count then return .returned
    else
      match ← createDefaultHash password with
      | none => return .panicked
      | some hash =>
        match ← insertAdmin email hash with
        | .error _ => return .panicked
        | .ok () => return .returned

/-- The commands of the admin server, sent by an instance. -/
def served {α : Type} (p : AdminAct α) : DeployAct α := embed DeployCmd.admin (fun _ r => r) p

/- main up to ListenAndServe. A cache that is not warmed is only logged. -/
def main (email password : Str) : DeployAct Outcome := do
  match ← seedDefaultAdmin email password with
  | .panicked => return .panicked
  | .returned =>
    let _ ← served (embed AdminCmd.voting (fun _ r => r) CustomDomains.warmCache)
    return .returned

/-- An instance is started with its default admin, or serves a call. -/
inductive DeployCall where
  | main (email password : Str)
  | call (c : AdminCall)
  deriving DecidableEq

inductive DeployAnswer where
  | listens (o : Outcome)
  | answered (a : AdminAnswer)

def program (cfg : DeployConfig) : DeployCall → DeployAct DeployAnswer
  | .main email password => DeployAnswer.listens <$> Deployment.main email password
  | .call c => DeployAnswer.answered <$> served (AdminServer.program cfg.admin c)

def spawns : DeployCmd → List DeployCall
  | .admin c => (AdminServer.spawns c).map .call
  | _ => []

abbrev Fleet := Pool DeployCmd DeployReply DeployWorld Oracle DeployCall DeployAnswer
abbrev FleetMove := Label Oracle Env DeployCall
abbrev FleetJob := Job DeployCmd DeployReply DeployCall DeployAnswer

def deployment (cfg : DeployConfig) :
    Machine DeployCmd DeployReply DeployWorld Oracle Env DeployCall DeployAnswer where
  perform := DeployWorld.perform cfg
  env w e := (w.admin.voting.env e).map fun voting => { w with admin := { w.admin with voting := voting } }
  program := program cfg
  spawns := spawns

/-- A deployment before its first start: the tables are there, and no account. -/
def unused (w : World) : Fleet := { world := { admin := ⟨w, []⟩ } }

end Deployment
