import VotingApp.Lib.Credentials
import VotingApp.AdminAccounts

/-!
Who changes what is for an admin to change. The tokens are those of jwt_middleware.go: signed by
Login, checked by JWTAuth, and handed out in a cookie to whoever has logged in.
-/
namespace AdminSessions
open GoText GoTime JsonText Tables EffectProgram CallPool PoolHistory Credentials VotingWorld
open Handlers VotingServer Frames AdminServer Deployment PublicRoutes AdminAccounts AdminAuth

/-- The token that an answer sets as a cookie. -/
def tokenOf : DeployAnswer → Option Str
  | .answered a => a.setCookie.join
  | .listens _ => none

/-- The token that a call is sent with, where JWTAuth looks at it. -/
def presented : DeployCall → Option Str
  | .call req => cookieOf req
  | .main _ _ => none

/-- What can be reached from outside: the routes, and the starting of an instance. -/
def reachable : DeployCall → Bool
  | .call req => publishedCall req
  | .main _ _ => true

/-- A call is sent with a token that anyone could make up, or with one that a login was answered. -/
def cookiesKept (free : Str → Bool) : Fleet → FleetMove → Bool :=
  unforged reachable presented tokenOf free

/-- What the token package is relied on for: nobody without the secret makes a token that parses,
and a signed token says what was signed and parses until it expires. -/
structure Tokens (cfg : AdminConfig) (free : Str → Bool) : Prop where
  unforgeable : ∀ now token, free token = true → cfg.parse now token = none
  authentic : ∀ now token claims session, cfg.sign session = some token →
    cfg.parse now token = some claims → claims.sub = .num session.sub ∧ unix now < session.exp

/-- The commands of an admin: the guarded statements, and the change of a password. -/
def adminOnly : DeployCmd → Bool
  | .admin (.voting c) => guarded c
  | .admin (.updatePassword _ _) => true
  | _ => false

/-- A login has verified a password of this account, at this time, and was answered with this token in
its cookie. -/
def LoggedIn (cfg : DeployConfig) (s : Fleet) (token : Str) (account : Admin) (at_time : Nat) : Prop :=
  ∃ login ∈ s.jobs, ∃ body issued answer, login.req = .call (.login (.ok body)) ∧
    login.rest = .done answer ∧ tokenOf answer = some token ∧
    (⟨.admin (.getByEmail body.email), .ok account⟩ : Exchange DeployCmd DeployReply) ∈ login.past ∧
    cfg.admin.comparePasswordAndHash body.password account.passwordHash = true ∧
    (⟨.admin .timeNow, at_time⟩ : Exchange DeployCmd DeployReply) ∈ login.past ∧
    (⟨.admin .timeNow, issued⟩ : Exchange DeployCmd DeployReply) ∈ login.past ∧
    cfg.admin.sign (sessionClaims account at_time issued) = some token

/-- Before it sends the command the call has had its token checked, within 24 hours of the login. -/
def SignedIn (cfg : DeployConfig) (s : Fleet) (caller : Nat) (older : List (Event DeployCmd DeployReply
    DeployWorld Oracle)) (account : Admin) : Prop :=
  ∃ job req token at_time now, s.jobs[caller]? = some job ∧ job.req = .call req ∧
    cookieOf req = some token ∧ LoggedIn cfg s token account at_time ∧
    (⟨.admin .timeNow, now⟩ : Exchange DeployCmd DeployReply) ∈ own caller older ∧
    unix now < unix (at_time + 24 * hour)

section Runs
variable {cfg : DeployConfig} {free : Str → Bool} {s : Fleet}

/- What a command starts is a route, and it carries no token. -/
theorem spawned_bare (c : DeployCmd) : ∀ req ∈ (deployment cfg).spawns c,
    reachable req = true ∧ presented req = none := by
  intro req member
  cases c with
  | countAdmins => cases member
  | createDefaultHash password => cases member
  | insertAdmin email hash => cases member
  | admin c =>
    obtain ⟨req, begun, rfl⟩ := List.mem_map.mp member
    cases c with
    | voting c =>
      obtain ⟨call, started, rfl⟩ := List.mem_map.mp begun
      have warms : call = .warmCache := by
        cases c with
        | goWarmCache => exact List.mem_singleton.mp started
        | _ => cases started
      rw [warms]
      exact ⟨rfl, rfl⟩
    | _ => cases begun

/- A token that is set has been signed by a login. -/
theorem handed_logged {allow : Fleet → FleetMove → Bool} (w : World)
    (run : Reaches (deployment cfg) allow (unused w) s) {token : Str} (handed : HandedOut tokenOf s token) :
    ∃ account at_time, LoggedIn cfg s token account at_time := by
  obtain ⟨job, member, answer, ended, sets⟩ := handed
  have ends := contract_of_job (program_rules cfg) rfl run job member
  rw [ended, meets_done] at ends
  have answered := sets
  cases answer with
  | listens o => cases sets
  | answered a =>
    cases started : job.req with
    | main email password =>
      rw [started] at ends
      exact ends.elim
    | call req =>
      rw [started] at ends
      obtain ⟨own, own_past, signs⟩ := ends
      obtain ⟨body, account, at_time, issued, rfl, found, correct, looked, stamped, signed⟩ :=
        signs token (Option.join_eq_some_iff.mp sets)
      have seen : ∀ x ∈ own, carried x ∈ job.past := by
        intro x inside
        rw [own_past]
        exact List.mem_map_of_mem inside
      exact ⟨account, at_time, job, member, body, issued, _, started, ended, answered, seen _ found, correct,
        seen _ looked, seen _ stamped, signed⟩

/- The account of a login was accounted for when it was read. -/
theorem logged_descends {allow : Fleet → FleetMove → Bool} (w : World)
    (run : Reaches (deployment cfg) allow (unused w) s) {token : Str} {account : Admin} {at_time : Nat}
    (logged : LoggedIn cfg s token account at_time) : Accounted cfg s account := by
  obtain ⟨login, member, body, -, -, -, -, -, found, -⟩ := logged
  exact (accounted_of_run w run).2 login member _ found account (Or.inr ⟨body.email, rfl⟩)

/- A call that JWTAuth lets in carries the token of a login that has not expired. -/
theorem letIn_signed (tokens : Tokens cfg.admin free) (w : World)
    (run : Reaches (deployment cfg) (cookiesKept free) (unused w) s) {caller : Nat} {job : FleetJob}
    (at_job : s.jobs[caller]? = some job) {req : AdminCall} (started : job.req = .call req)
    {older : List (Event DeployCmd DeployReply DeployWorld Oracle)} {past : AdminHistory}
    (own_past : own caller older = past.map carried) {claims : TokenClaims}
    (let_in : LetIn cfg.admin req past claims) :
    ∃ account, SignedIn cfg s caller older account ∧ Accounted cfg s account ∧
      claims.sub = .num account.id := by
  obtain ⟨token, now, cookie, looked, parsed⟩ := let_in
  have entitled := entitled_of_run rfl spawned_bare (fun _ _ allowed => allowed) run job
    (List.mem_of_getElem? at_job)
  rw [started] at entitled
  have handed : HandedOut tokenOf s token := by
    rcases entitled.2 token cookie with is_free | handed
    · rw [tokens.unforgeable now token is_free] at parsed
      cases parsed
    · exact handed
  obtain ⟨account, at_time, logged⟩ := handed_logged w run handed
  have accounted := logged_descends w run logged
  have signs : ∃ issued, cfg.admin.sign (sessionClaims account at_time issued) = some token := by
    obtain ⟨-, -, -, issued, -, -, -, -, -, -, -, -, signs⟩ := logged
    exact ⟨issued, signs⟩
  obtain ⟨issued, signs⟩ := signs
  obtain ⟨same_sub, unexpired⟩ := tokens.authentic now token claims _ signs parsed
  refine ⟨account, ⟨job, req, token, at_time, now, at_job, started, cookie, logged, ?_, unexpired⟩,
    accounted, same_sub⟩
  rw [own_past]
  exact List.mem_map_of_mem looked

/- Whoever calls and however the calls are interleaved: a guarded statement is sent, and a password
changed, by a call whose token a login has set within 24 hours, after a password was verified against
a hash that comes from a seeded one. And a password is only changed of the account that logged in. -/
theorem writes_authenticated (cfg : DeployConfig) (free : Str → Bool) (tokens : Tokens cfg.admin free)
    (w : World) (run : Reaches (deployment cfg) (cookiesKept free) (unused w) s)
    {newer older : List (Event DeployCmd DeployReply DeployWorld Oracle)}
    {ev : Event DeployCmd DeployReply DeployWorld Oracle} (split : s.log = newer ++ ev :: older)
    (writes : adminOnly ev.cmd = true) :
    ∃ account, SignedIn cfg s ev.caller older account ∧ Accounted cfg s account ∧
      ∀ id newHash, ev.cmd = .admin (.updatePassword id newHash) → id = account.id := by
  obtain ⟨job, at_job, rule⟩ := contract_of_logged (program_rules cfg) rfl rfl run split
  have reached := (entitled_of_run rfl spawned_bare (fun _ _ allowed => allowed) run job
    (List.mem_of_getElem? at_job)).1
  cases started : job.req with
  | main email password =>
    rw [started] at rule
    cases sent : ev.cmd with
    | admin c =>
      rw [sent] at rule writes
      obtain ⟨v, rfl, harmless⟩ := rule
      rw [adminOnly, harmless] at writes
      cases writes
    | _ =>
      rw [sent] at writes
      cases writes
  | call req =>
    rw [started] at rule reached
    cases sent : ev.cmd with
    | admin c =>
      rw [sent] at rule writes
      obtain ⟨past, own_past, admits⟩ := rule
      cases c with
      | voting v =>
        obtain ⟨claims, let_in⟩ := admits reached writes
        obtain ⟨account, signed, accounted, -⟩ := letIn_signed tokens w run at_job started own_past let_in
        refine ⟨account, signed, accounted, ?_⟩
        intro id newHash other
        cases other
      | updatePassword id newHash =>
        obtain ⟨hash, cookie, body, claims, admin, -, let_in, is_admin, -⟩ := admits
        obtain ⟨account, signed, accounted, sub⟩ :=
          letIn_signed tokens w run at_job started own_past let_in
        refine ⟨account, signed, accounted, ?_⟩
        intro id' newHash' same
        cases same
        rw [sub, adminID] at is_admin
        split at is_admin
        · exact (Option.some.inj is_admin).symm
        · cases is_admin
      | _ => cases writes
    | _ =>
      rw [sent] at writes
      cases writes

end Runs

/-- A setup with one token, which is signed at the new year for the first admin. -/
def dayAdmin : AdminConfig :=
  { devAdmin with
    parse := fun now token =>
      if token = firstToken ∧ unix now < 1735776000 then some ⟨.num 1, .str adminEmail⟩ else none
    sign := fun session => if session.sub = 1 ∧ session.exp = 1735776000 then some firstToken else none }

def dayDeploy : DeployConfig := ⟨dayAdmin, fun _ password => some password⟩

def madeUp (token : Str) : Bool := token ≠ firstToken

theorem day_tokens : Tokens dayAdmin madeUp where
  unforgeable now token free := by
    have other : token ≠ firstToken := of_decide_eq_true free
    exact if_neg fun same => other same.1
  authentic now token claims session signed parsed := by
    obtain ⟨⟨is_first, until_then⟩, -⟩ := Option.ite_none_right_eq_some.mp signed
    obtain ⟨⟨-, unexpired⟩, said⟩ := Option.ite_none_right_eq_some.mp parsed
    rw [← Option.some.inj said, is_first, until_then]
    exact ⟨rfl, unexpired⟩

def sessionFleet : Fleet :=
  after (deployment dayDeploy) (cookiesKept madeUp) (unused twoCandidates.world) changedMoves

theorem change_authenticated : ∃ ev older account, sessionFleet.log = ev :: older ∧
    adminOnly ev.cmd = true ∧ SignedIn dayDeploy sessionFleet ev.caller older account := by
  have run : Reaches (deployment dayDeploy) (cookiesKept madeUp) (unused twoCandidates.world) sessionFleet :=
    reaches_after (by decide +kernel)
  have last : (sessionFleet.log.head?.map fun ev => adminOnly ev.cmd) = some true := by decide +kernel
  cases logged : sessionFleet.log with
  | nil =>
    rw [logged] at last
    cases last
  | cons ev older =>
    rw [logged] at last
    have writes : adminOnly ev.cmd = true := Option.some.inj last
    have split : sessionFleet.log = [] ++ ev :: older := logged
    obtain ⟨account, signed, -⟩ :=
      writes_authenticated dayDeploy madeUp day_tokens twoCandidates.world run split writes
    exact ⟨ev, older, account, rfl, writes, signed⟩

end AdminSessions
