import VotingApp.Lib.Embedding
import VotingApp.Api
import VotingApp.Frames

/-!
The admin routes: admin_service.go and admin_repo.go, the handlers of admin_handler.go that they
serve, jwt_middleware.go, and the router that puts it in front of the other routes.
-/
namespace AdminServer
open GoText GoTime JsonText Tables EffectProgram CallPool Embedding VotingWorld
open VotingSettings Handlers VotingServer Frames

structure Admin where
  id : Int
  email : Str
  passwordHash : Str
  deriving DecidableEq, Repr

/-- The claims of a parsed token that the code reads. -/
structure TokenClaims where
  sub : Json
  email : Json

/-- The claims of a token that Login issues. -/
structure SessionClaims where
  sub : Int
  email : Str
  exp : Int
  iat : Int
  deriving DecidableEq, Repr

/-- What the packages for tokens and for passwords do, with the secret and the parameters they are
given, and which emails are equal to the database. -/
structure AdminConfig where
  voting : Config
  parse : Nat → Str → Option TokenClaims
  sign : SessionClaims → Option Str
  comparePasswordAndHash : Str → Str → Bool
  createHash : Nat → Str → Option Str
  sameEmail : Str → Str → Bool

inductive AdminCmd where
  | voting (c : Cmd)
  | getByEmail (email : Str)
  | getByID (id : Int)
  | updatePassword (adminID : Int) (newHash : Str)
  | createHash (password : Str)
  | timeNow

abbrev AdminReply : AdminCmd → Type
  | .voting c => Reply c
  | .getByEmail _ => Except GoErr Admin
  | .getByID _ => Except GoErr Admin
  | .updatePassword _ _ => Except GoErr Unit
  | .createHash _ => Option Str
  | .timeNow => Nat

structure AdminWorld where
  voting : World
  admins : List Admin := []

def findAdmin (admins : List Admin) (found : Admin → Bool) : Except GoErr Admin :=
  match admins.find? found with
  | some admin => .ok admin
  | none => .error noRows

def AdminWorld.perform (cfg : AdminConfig) (w : AdminWorld) (o : Oracle) :
    (c : AdminCmd) → Option (AdminReply c × AdminWorld)
  | .voting c => (w.voting.perform o c).map fun ran => (ran.1, { w with voting := ran.2 })
  | .getByEmail email =>
    some ((faulty o () (findAdmin w.admins fun a => cfg.sameEmail a.email email, ())).1, w)
  | .getByID id => some ((faulty o () (findAdmin w.admins fun a => a.id = id, ())).1, w)
  | .updatePassword adminID newHash =>
    let ran := faulty o w.admins (.ok (), w.admins.map fun a =>
      if a.id = adminID then { a with passwordHash := newHash } else a)
    some (ran.1, { w with admins := ran.2 })
  | .createHash password => some (if o.fault.isSome then none else cfg.createHash o.draw password, w)
  | .timeNow => some (w.voting.clock, w)

abbrev AdminAct (α : Type) := Prog AdminCmd AdminReply α
abbrev AdminHistory := List (Exchange AdminCmd AdminReply)

def getByEmail (email : Str) : AdminAct (Except GoErr Admin) := issue (AdminCmd.getByEmail email)

def getByID (id : Int) : AdminAct (Except GoErr Admin) := issue (AdminCmd.getByID id)

def updatePassword (adminID : Int) (newHash : Str) : AdminAct (Except GoErr Unit) :=
  issue (AdminCmd.updatePassword adminID newHash)

def createHash (password : Str) : AdminAct (Option Str) := issue (AdminCmd.createHash password)

def timeNow : AdminAct Nat := issue AdminCmd.timeNow

/-- An answer, and the admin_token cookie that it sets or clears. -/
structure AdminAnswer where
  answer : Answer
  setCookie : Option (Option Str) := none

def respond (r : Response) : AdminAnswer := { answer := .http r }

/- time.Time.Unix. -/
def unix (t : Nat) : Int := ((t / second : Nat) : Int) - (daysOf ⟨1970, 1, 1⟩ * secondsADay : Nat)

/- jwt.MapClaims of AdminService.Login: the token is good for 24 hours. -/
def sessionClaims (admin : Admin) (expiry issued : Nat) : SessionClaims :=
  ⟨admin.id, admin.email, unix (expiry + 24 * hour), unix issued⟩

/- AdminService.Login. All of its errors are answered alike. -/
def serviceLogin (cfg : AdminConfig) (email password : Str) : AdminAct (Option Str) := do
  match ← getByEmail email with
  | .error _ => return none
  | .ok admin =>
    if cfg.comparePasswordAndHash password admin.passwordHash then
      let expiry ← timeNow
      let issued ← timeNow
      return cfg.sign (sessionClaims admin expiry issued)
    else return none

structure LoginRequest where
  email : Str
  password : Str
  deriving DecidableEq, Repr

/-- The binding tags of LoginRequest. -/
def LoginRequest.check (cfg : AdminConfig) (r : LoginRequest) : List Str :=
  requiredEmail cfg.voting "LoginRequest" r.email ++ required "LoginRequest" "Password" r.password

def success : Response := ⟨200, some (.obj [jsonName "message" (.str "success".toList)])⟩

def login (cfg : AdminConfig) (body : Except Str LoginRequest) : AdminAct AdminAnswer := do
  match bindBody (LoginRequest.check cfg) body with
  | .error details => return respond (badBody details)
  | .ok req =>
    match ← serviceLogin cfg req.email req.password with
    | none => return respond (errorJSON 401 "Invalid email or password")
    | some token => return { answer := .http success, setCookie := some (some token) }

def logout : AdminAnswer := { answer := .http success, setCookie := some none }

/- JWTAuth. The claims of a token that parses are always MapClaims. -/
def jwtAuth (cfg : AdminConfig) (cookie : Option Str) (next : TokenClaims → AdminAct AdminAnswer) :
    AdminAct AdminAnswer :=
  match cookie with
  | none => return respond (errorJSON 401 "Authentication required")
  | some tokenStr => do
    let now ← timeNow
    match cfg.parse now tokenStr with
    | none => return respond (errorJSON 401 "Invalid or expired token")
    | some claims => next claims

def me (claims : TokenClaims) : AdminAnswer :=
  respond (successJSON 200 (.obj [jsonName "email" claims.email, jsonName "id" claims.sub]))

inductive ChangeError where
  | weakPassword
  | invalidCredentials
  | incorrectPassword
  | failed
  deriving DecidableEq, Repr

/- AdminService.ChangePassword. -/
def serviceChangePassword (cfg : AdminConfig) (adminID : Int) (oldPassword newPassword : Str) :
    AdminAct (Option ChangeError) := do
  if (String.ofList newPassword).utf8ByteSize < 10 then return some .weakPassword
  else
    match ← getByID adminID with
    | .error _ => return some .invalidCredentials
    | .ok admin =>
      if cfg.comparePasswordAndHash oldPassword admin.passwordHash then
        match ← createHash newPassword with
        | none => return some .failed
        | some newHash =>
          match ← updatePassword adminID newHash with
          | .error _ => return some .failed
          | .ok () => return none
      else return some .incorrectPassword

structure ChangePasswordRequest where
  oldPassword : Str
  newPassword : Str
  deriving DecidableEq, Repr

/-- The binding tags of ChangePasswordRequest. -/
def ChangePasswordRequest.check (r : ChangePasswordRequest) : List Str :=
  required "ChangePasswordRequest" "OldPassword" r.oldPassword ++
    required "ChangePasswordRequest" "NewPassword" r.newPassword

/- strconv.Atoi of the claim as it is printed. A number is a float64, which is printed with an exponent
from a million on. -/
def adminID : Json → Option Int
  | .num n => if n.natAbs < 1000000 then some n else none
  | .str s => atoi s
  | _ => none

def answerChanged : Option ChangeError → Response
  | none => detailJSON 200 "Password changed successfully"
  | some .incorrectPassword => errorJSON 401 "Current password is incorrect"
  | some .weakPassword => errorJSON 400 "New password must be at least 10 characters"
  | some _ => errorJSON 500 "Failed to change password"

def changePassword (cfg : AdminConfig) (body : Except Str ChangePasswordRequest) (claims : TokenClaims) :
    AdminAct AdminAnswer := do
  match bindBody ChangePasswordRequest.check body with
  | .error details => return respond (badBody details)
  | .ok req =>
    match adminID claims.sub with
    | none => return respond (errorJSON 500 "Invalid admin session")
    | some id =>
      let changed ← serviceChangePassword cfg id req.oldPassword req.newPassword
      return respond (answerChanged changed)

/-- The calls an admin page makes. A route of the voting server is sent with the cookie too. -/
inductive AdminCall where
  | login (body : Except Str LoginRequest)
  | logout
  | me (cookie : Option Str)
  | changePassword (cookie : Option Str) (body : Except Str ChangePasswordRequest)
  | route (cookie : Option Str) (call : Call)
  deriving DecidableEq

/- The routes of the group that uses JWTAuth. -/
def protectedRoute : Call → Bool
  | .addCandidate _ _ _ => true
  | .updateCandidate _ _ _ _ => true
  | .deleteCandidate _ => true
  | .updateVotingSettings _ => true
  | .listDomains => true
  | .addDomain _ => true
  | .deleteDomain _ => true
  | .updateDomainMode _ => true
  | _ => false

def route (cfg : AdminConfig) (call : Call) : AdminAct AdminAnswer :=
  (fun a => { answer := a }) <$> embed AdminCmd.voting (fun _ r => r) (VotingServer.program cfg.voting call)

def program (cfg : AdminConfig) : AdminCall → AdminAct AdminAnswer
  | .login body => login cfg body
  | .logout => return logout
  | .me cookie => jwtAuth cfg cookie fun claims => return me claims
  | .changePassword cookie body => jwtAuth cfg cookie (changePassword cfg body)
  | .route cookie call =>
    if protectedRoute call then jwtAuth cfg cookie fun _ => route cfg call else route cfg call

def spawns : AdminCmd → List AdminCall
  | .voting c => (VotingServer.spawns c).map (.route none)
  | _ => []

def adminServer (cfg : AdminConfig) :
    Machine AdminCmd AdminReply AdminWorld Oracle Env AdminCall AdminAnswer where
  perform := AdminWorld.perform cfg
  env w e := (w.voting.env e).map fun voting => { w with voting := voting }
  program := program cfg
  spawns := spawns

end AdminServer
