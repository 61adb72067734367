import VotingApp.Lib.Clients
import VotingApp.Unauthorized

/-!
AdminAuthContext.tsx behind the response interceptor of api.ts. The pages of a browser share its
admin_token cookie, and every one of them has a flag of its own that says whether it is signed in.
-/
namespace AdminAuth
open GoText GoTime JsonText Tables EffectProgram CallPool PoolHistory Clients VotingWorld
open Handlers VotingServer Frames Api AdminServer Unauthorized

/-- The state of an AdminAuthProvider. -/
structure Auth where
  isAuthenticated : Bool := false
  loading : Bool := true
  deriving DecidableEq, Repr

/-- A page, with the provider that is mounted in it. mounts counts those that were. -/
structure Page where
  provider : Option Auth := none
  mounts : Nat := 0
  deriving DecidableEq, Repr

structure Browser where
  adminToken : Option Str := none
  pages : List Page := []
  deriving DecidableEq, Repr

inductive Kind where
  | me
  | login
  | logout
  | other
  deriving DecidableEq, Repr

/-- The page that has sent a request, and the provider that was mounted then. -/
structure Request where
  page : Nat
  mount : Nat
  kind : Kind
  deriving DecidableEq, Repr

/-- What login returns. -/
structure LoginResult where
  success : Bool
  message : Option Str
  deriving DecidableEq, Repr

abbrev AdminTurn := Turn Browser Request AdminCall LoginResult

/- The setters of a provider that is not mounted do nothing. -/
def Page.update (f : Auth → Auth) (p : Page) : Page := { p with provider := p.provider.map f }

def Browser.onPage (page : Nat) (f : Page → Page) (b : Browser) : Browser :=
  { b with pages := b.pages.modify page f }

def setIsAuthenticated (value : Bool) (x : Auth) : Auth := { x with isAuthenticated := value }

def answerOf (a : Option AdminAnswer) : Option Answer := a.map AdminAnswer.answer

/- The response interceptor. onUnauthorized is that of the provider that is mounted now. -/
def intercept (a : Option AdminAnswer) (p : Page) : Page :=
  if status (answerOf a) = some 401 then p.update (setIsAuthenticated false) else p

/- The continuations of the provider. -/
def settled (kind : Kind) (a : Option AdminAnswer) (x : Auth) : Auth :=
  match kind with
  | .me => { isAuthenticated := (resolved (answerOf a)).isSome, loading := false }
  | .login => if (resolved (answerOf a)).isSome then setIsAuthenticated true x else x
  | .logout => setIsAuthenticated false x
  | .other => x

def arrive (tag : Request) (a : Option AdminAnswer) (p : Page) : Page :=
  if tag.mount = p.mounts then (intercept a p).update (settled tag.kind a) else intercept a p

/- Set-Cookie. -/
def Browser.setCookie (a : Option AdminAnswer) (b : Browser) : Browser :=
  match a.bind AdminAnswer.setCookie with
  | some cookie => { b with adminToken := cookie }
  | none => b

def loginResult (a : Option AdminAnswer) : LoginResult :=
  if (resolved (answerOf a)).isSome then ⟨true, none⟩
  else ⟨false, some (errorText (answerOf a) "Login failed")⟩

def settle (b : Browser) (tag : Request) (a : Option AdminAnswer) : AdminTurn :=
  { next := (b.setCookie a).onPage tag.page (arrive tag a)
    out := if tag.kind = .login then [loginResult a] else [] }

inductive Input where
  | openPage
  | mount (page : Nat)
  | unmount (page : Nat)
  | login (page : Nat) (req : LoginRequest)
  | logout (page : Nat)
  | changePassword (page : Nat) (req : ChangePasswordRequest)
  | call (page : Nat) (call : Call)
  | cookie (value : Option Str)
  deriving DecidableEq

/- A request carries the cookie of the time it is sent. -/
def send (b : Browser) (page : Nat) (kind : Kind) (req : AdminCall) : Option AdminTurn :=
  b.pages[page]?.map fun p => { next := b, sent := some (⟨page, p.mounts, kind⟩, req) }

def isMounted (b : Browser) (page : Nat) : Bool := b.pages[page]?.any fun p => p.provider.isSome

/- useEffect of the provider asks /me when it is mounted. The cookie of a browser can go at any time. -/
def press (b : Browser) : Input → Option AdminTurn
  | .openPage => some { next := { b with pages := b.pages ++ [{}] } }
  | .mount page =>
    if isMounted b page then none
    else send (b.onPage page fun p => ⟨some {}, p.mounts + 1⟩) page .me (.me b.adminToken)
  | .unmount page => some { next := b.onPage page fun p => { p with provider := none } }
  | .login page req => if isMounted b page then send b page .login (.login (.ok req)) else none
  | .logout page => if isMounted b page then send b page .logout .logout else none
  | .changePassword page req => send b page .other (.changePassword b.adminToken (.ok req))
  | .call page call => send b page .other (.route b.adminToken call)
  | .cookie value => some { next := { b with adminToken := value } }

/-- A browser starts with the cookie that it has kept. -/
def admin : App Browser (Option Str) Input Request AdminCall AdminAnswer LoginResult where
  mount cookie := { next := { adminToken := cookie } }
  input := press
  settle := settle

abbrev Admins := Site AdminCmd AdminReply AdminWorld Oracle Browser Request AdminCall AdminAnswer
abbrev AdminMove := Clients.Move Oracle Env (Option Str) Input AdminCall

/-- No browser has come yet. -/
def noBrowsers (seed : Seed) (admins : List Admin) : Admins := ⟨{ world := ⟨seed.world, admins⟩ }, [], []⟩

/-- isAuthenticated of the provider with this number in a page, while it is mounted. -/
def Browser.authOf (b : Browser) (page mount : Nat) : Option Bool :=
  b.pages[page]?.bind fun p => if p.mounts = mount then p.provider.map Auth.isAuthenticated else none

def authOf (s : Admins) (i page mount : Nat) : Option Bool :=
  s.clients[i]?.bind fun b => b.authOf page mount

/-- The cookie that JWTAuth is given. -/
def sentCookie : AdminCall → Option (Option Str)
  | .me cookie => some cookie
  | .changePassword cookie _ => some cookie
  | .route cookie call => if protectedRoute call then some cookie else none
  | _ => none

/-- A logout is over, or an answer arrives by which JWTAuth has denied the cookie that is in use. -/
def Justified (cfg : AdminConfig) (s : Admins) (i page : Nat) (move : AdminMove) : Prop :=
  ∃ k f b, (move = .land k ∨ move = .lose k) ∧ s.flights[k]? = some f ∧ f.client = i ∧ f.tag.page = page ∧
    s.clients[i]? = some b ∧ (f.req = .logout ∨ move = .land k ∧ sentCookie f.req = some b.adminToken ∧
      Denied cfg b.adminToken (own f.job s.pool.log))

/-- No provider goes from signed in to signed out otherwise. -/
def FollowsCookie (cfg : AdminConfig) (s : Admins) (move : AdminMove) (s' : Admins) : Prop :=
  ∀ i page mount, authOf s i page mount = some true → authOf s' i page mount = some false →
    Justified cfg s i page move

/-- An answer is not about credentials or a mistyped password, and not about a cookie that is not in use. -/
def AboutCookie (cfg : AdminConfig) (inUse : Option Str) : AdminCall → AdminHistory → Prop
  | .login (.ok req), past => ¬ Unknown cfg req past
  | .me cookie, past => Denied cfg cookie past → cookie = inUse
  | .changePassword cookie (.ok req), past =>
    (Denied cfg cookie past → cookie = inUse) ∧ ¬ Mistyped cfg req.oldPassword past
  | .changePassword cookie (.error _), past => Denied cfg cookie past → cookie = inUse
  | .route cookie call, past => protectedRoute call = true → Denied cfg cookie past → cookie = inUse
  | _, _ => True

/-- To a page that is signed in, only such answers come, and the answer to its own /me is not lost. -/
def Undisturbed (cfg : AdminConfig) (s : Admins) (move : AdminMove) (_ : Admins) : Prop :=
  ∀ i page mount, authOf s i page mount = some true → ∀ k f b, s.flights[k]? = some f → f.client = i →
    f.tag.page = page → s.clients[i]? = some b →
      (move = .land k → AboutCookie cfg b.adminToken f.req (own f.job s.pool.log)) ∧
      (move = .lose k → ¬ (f.tag.kind = .me ∧ f.tag.mount = mount))

/-- A page has this provider, and it is signed in. -/
theorem authOf_some {b : Browser} {page mount : Nat} {value : Bool} (is : b.authOf page mount = some value) :
    ∃ p x, b.pages[page]? = some p ∧ p.mounts = mount ∧ p.provider = some x ∧
      x.isAuthenticated = value := by
  obtain ⟨p, at_page, inside⟩ := Option.bind_eq_some_iff.mp is
  split at inside
  · rename_i current
    obtain ⟨x, mounted, same⟩ := Option.map_eq_some_iff.mp inside
    exact ⟨p, x, at_page, current, mounted, same⟩
  · cases inside

theorem authOf_other {b : Browser} {page other mount : Nat} {f : Page → Page} (apart : other ≠ page) :
    (b.onPage other f).authOf page mount = b.authOf page mount := by
  rw [Browser.authOf, Browser.onPage, List.getElem?_modify_ne f b.pages apart, Browser.authOf]

theorem authOf_at {b : Browser} {page mount : Nat} {f : Page → Page} {p : Page}
    (at_page : b.pages[page]? = some p) : (b.onPage page f).authOf page mount =
      if (f p).mounts = mount then (f p).provider.map Auth.isAuthenticated else none := by
  rw [Browser.authOf, Browser.onPage, List.getElem?_modify_eq, at_page]
  rfl

theorem setCookie_pages (a : Option AdminAnswer) (b : Browser) : (b.setCookie a).pages = b.pages := by
  unfold Browser.setCookie
  split <;> rfl

theorem setCookie_authOf (a : Option AdminAnswer) (b : Browser) (page mount : Nat) :
    (b.setCookie a).authOf page mount = b.authOf page mount := by
  rw [Browser.authOf, setCookie_pages, Browser.authOf]

theorem resolved_not_401 {a : Option Answer} (refused : status a = some 401) :
    (resolved a).isSome = false := by
  obtain ⟨r, rfl, is_401⟩ := status_some refused
  simp [resolved, is_401]

/-- An answer, or that there is none, by which a provider signs out. -/
def SignsOut (tag : Request) (mount : Nat) (a : Option AdminAnswer) : Prop :=
  status (answerOf a) = some 401 ∨ tag.mount = mount ∧
    (tag.kind = .logout ∨ tag.kind = .me ∧ (resolved (answerOf a)).isSome = false)

theorem arrive_mounts (tag : Request) (a : Option AdminAnswer) (p : Page) :
    (arrive tag a p).mounts = p.mounts := by
  unfold arrive intercept
  split <;> split <;> rfl

theorem arrive_signs_out {tag : Request} {a : Option AdminAnswer} {p : Page} {x : Auth}
    (mounted : p.provider = some x) (signed : x.isAuthenticated = true) :
    (arrive tag a p).provider.map Auth.isAuthenticated = some false ↔ SignsOut tag p.mounts a := by
  unfold arrive intercept SignsOut
  by_cases refused : status (answerOf a) = some 401
  · have unresolved := resolved_not_401 refused
    by_cases mine : tag.mount = p.mounts
    · cases kind : tag.kind <;>
        simp [refused, mine, mounted, Page.update, settled, setIsAuthenticated, unresolved]
    · simp [refused, mine, mounted, Page.update, setIsAuthenticated]
  · by_cases mine : tag.mount = p.mounts
    · cases kind : tag.kind with
      | login =>
        cases fine : (resolved (answerOf a)).isSome <;>
          simp [refused, mine, mounted, signed, Page.update, settled, setIsAuthenticated, fine]
      | _ => simp [refused, mine, mounted, signed, Page.update, settled, setIsAuthenticated]
    · simp [refused, mine, mounted, signed]

/- A provider that is signed in signs out by an answer to its page exactly so. -/
theorem settle_authOf {b : Browser} {tag : Request} {a : Option AdminAnswer} {page mount : Nat}
    (signed : b.authOf page mount = some true) :
    (settle b tag a).next.authOf page mount = some false ↔ tag.page = page ∧ SignsOut tag mount a := by
  by_cases same : tag.page = page
  · obtain ⟨p, x, at_page, rfl, mounted, is_signed⟩ := authOf_some signed
    have here : (b.setCookie a).pages[tag.page]? = some p := by rw [setCookie_pages, same, at_page]
    rw [settle, ← same, authOf_at here, if_pos (arrive_mounts tag a p),
      arrive_signs_out mounted is_signed, and_iff_right rfl]
  · rw [settle, authOf_other same, setCookie_authOf, signed]
    simp [same]

theorem send_next {b : Browser} {page : Nat} {kind : Kind} {req : AdminCall} {t : AdminTurn}
    (sends : send b page kind req = some t) : t.next = b := by
  obtain ⟨p, -, rfl⟩ := Option.map_eq_some_iff.mp sends
  rfl

/- Nothing else signs a provider out, though it can be unmounted. -/
theorem press_authOf {b : Browser} {x : Input} {t : AdminTurn} {page mount : Nat}
    (takes : press b x = some t) (signed : b.authOf page mount = some true) :
    t.next.authOf page mount ≠ some false := by
  have stays : b.authOf page mount ≠ some false := by simp [signed]
  cases x with
  | openPage =>
    cases takes
    obtain ⟨p, x, at_page, -⟩ := authOf_some signed
    have inside := (List.getElem?_eq_some_iff.mp at_page).1
    rw [Browser.authOf, List.getElem?_append_left inside]
    exact stays
  | mount other =>
    simp only [press] at takes
    split at takes
    · cases takes
    · rename_i unmounted
      rw [send_next takes]
      by_cases same : other = page
      · obtain ⟨p, x, at_page, -, mounted, -⟩ := authOf_some signed
        rw [isMounted, same, at_page, Option.any_some, mounted] at unmounted
        exact absurd rfl unmounted
      · rw [authOf_other same]
        exact stays
  | unmount other =>
    cases takes
    by_cases same : other = page
    · obtain ⟨p, x, at_page, -⟩ := authOf_some signed
      rw [same, authOf_at at_page]
      simp
    · rw [authOf_other same]
      exact stays
  | login other req =>
    simp only [press] at takes
    split at takes
    · rw [send_next takes]
      exact stays
    · cases takes
  | logout other =>
    simp only [press] at takes
    split at takes
    · rw [send_next takes]
      exact stays
    · cases takes
  | changePassword other req =>
    rw [send_next takes]
    exact stays
  | call other req =>
    rw [send_next takes]
    exact stays
  | cookie value =>
    cases takes
    exact stays

def kindOf : AdminCall → Kind
  | .me _ => .me
  | .login _ => .login
  | .logout => .logout
  | .changePassword _ _ => .other
  | .route _ _ => .other

/-- A request is of the kind that its continuation is for. -/
def Asked (tag : Request) (req : AdminCall) : Prop := tag.kind = kindOf req

theorem send_asked {b : Browser} {page : Nat} {kind : Kind} {req : AdminCall} {t : AdminTurn}
    (sends : send b page kind req = some t) (asked : kind = kindOf req) :
    t.Fits (fun _ => True) Asked := by
  obtain ⟨p, -, rfl⟩ := Option.map_eq_some_iff.mp sends
  refine ⟨trivial, fun tag req same => ?_⟩
  cases same
  exact asked

theorem press_asked {b : Browser} {x : Input} {t : AdminTurn} (takes : press b x = some t) :
    t.Fits (fun _ => True) Asked := by
  cases x with
  | openPage =>
    cases takes
    exact ⟨trivial, fun _ _ sends => by cases sends⟩
  | mount page =>
    simp only [press] at takes
    split at takes
    · cases takes
    · exact send_asked takes rfl
  | unmount page =>
    cases takes
    exact ⟨trivial, fun _ _ sends => by cases sends⟩
  | login page req =>
    simp only [press] at takes
    split at takes
    · exact send_asked takes rfl
    · cases takes
  | logout page =>
    simp only [press] at takes
    split at takes
    · exact send_asked takes rfl
    · cases takes
  | changePassword page req => exact send_asked takes rfl
  | call page req => exact send_asked takes rfl
  | cookie value =>
    cases takes
    exact ⟨trivial, fun _ _ sends => by cases sends⟩

/- But for a logout, a provider signs out by a status of 401 only, if its /me is answered so or by success. -/
theorem signsOut_401 {tag : Request} {req : AdminCall} {mount : Nat} {a : Option AdminAnswer}
    (asked : Asked tag req) (other : kindOf req ≠ .logout)
    (known : kindOf req = .me → status (answerOf a) = some 401 ∨ (resolved (answerOf a)).isSome = true) :
    SignsOut tag mount a ↔ status (answerOf a) = some 401 := by
  constructor
  · rintro (refused | ⟨-, logout | ⟨is_me, unresolved⟩⟩)
    · exact refused
    · exact absurd (asked.symm.trans logout) other
    · rcases known (asked.symm.trans is_me) with refused | fine
      · exact refused
      · rw [unresolved] at fine
        cases fine
  · exact Or.inl

/- An answer that arrives at a page which is signed in signs it out for its cookie, unless it is about
   something else. -/
theorem landed_iff {cfg : AdminConfig} {tag : Request} {req : AdminCall} {past : AdminHistory}
    {a : AdminAnswer} {mount : Nat} (inUse : Option Str) (asked : Asked tag req)
    (explained : Explained cfg req past a) :
    (SignsOut tag mount (some a) →
      req = .logout ∨ sentCookie req = some inUse ∧ Denied cfg inUse past) ↔
        AboutCookie cfg inUse req past := by
  obtain ⟨refused, also⟩ := explained
  cases req with
  | me cookie =>
    have known : status (answerOf (some a)) = some 401 ∨ (resolved (answerOf (some a))).isSome = true :=
      also.symm.imp_left refused.mpr
    rw [signsOut_401 asked (fun other => by cases other) fun _ => known]
    constructor
    · intro justified denied
      rcases justified (refused.mpr denied) with logout | ⟨sent, -⟩
      · cases logout
      · exact Option.some.inj sent
    · intro about is_401
      have denied := refused.mp is_401
      obtain rfl := about denied
      exact Or.inr ⟨rfl, denied⟩
  | login body =>
    rw [signsOut_401 asked (fun other => by cases other) fun other => by cases other]
    cases body with
    | error text => exact ⟨fun _ => trivial, fun _ is_401 => (refused.mp is_401).elim⟩
    | ok body =>
      constructor
      · intro justified unknown
        rcases justified (refused.mpr unknown) with logout | ⟨sent, -⟩
        · cases logout
        · cases sent
      · intro known is_401
        exact absurd (refused.mp is_401) known
  | logout => exact ⟨fun _ => trivial, fun _ _ => Or.inl rfl⟩
  | changePassword cookie body =>
    rw [signsOut_401 asked (fun other => by cases other) fun other => by cases other]
    cases body with
    | error text =>
      constructor
      · intro justified denied
        rcases justified (refused.mpr denied) with logout | ⟨sent, -⟩
        · cases logout
        · exact Option.some.inj sent
      · intro about is_401
        have denied := refused.mp is_401
        obtain rfl := about denied
        exact Or.inr ⟨rfl, denied⟩
    | ok body =>
      constructor
      · intro justified
        constructor
        · intro denied
          rcases justified (refused.mpr (Or.inl denied)) with logout | ⟨sent, -⟩
          · cases logout
          · exact Option.some.inj sent
        · intro mistyped
          rcases justified (refused.mpr (Or.inr mistyped)) with logout | ⟨sent, denied⟩
          · cases logout
          · cases sent
            exact also mistyped denied
      · rintro ⟨about, correct⟩ is_401
        have denied := (refused.mp is_401).resolve_right correct
        obtain rfl := about denied
        exact Or.inr ⟨rfl, denied⟩
  | route cookie call =>
    rw [signsOut_401 asked (fun other => by cases other) fun other => by cases other]
    constructor
    · intro justified guarded denied
      rcases justified (refused.mpr ⟨guarded, denied⟩) with logout | ⟨sent, -⟩
      · cases logout
      · rw [sentCookie, if_pos guarded] at sent
        exact Option.some.inj sent
    · intro about is_401
      obtain ⟨guarded, denied⟩ := refused.mp is_401
      obtain rfl := about guarded denied
      exact Or.inr ⟨if_pos guarded, denied⟩

/- Without an answer it signs out after a logout, or when its own /me is lost. -/
theorem lost_iff {tag : Request} {req : AdminCall} {mount : Nat} (asked : Asked tag req) :
    (SignsOut tag mount none → req = .logout) ↔ ¬ (tag.kind = .me ∧ tag.mount = mount) := by
  constructor
  · rintro only ⟨is_me, mine⟩
    obtain rfl := only (Or.inr ⟨mine, Or.inr ⟨is_me, rfl⟩⟩)
    rw [Asked, is_me] at asked
    cases asked
  · rintro other (refused | ⟨mine, is_logout | ⟨is_me, -⟩⟩)
    · cases refused
    · rw [Asked, is_logout] at asked
      cases req with
      | logout => rfl
      | _ => cases asked
    · exact absurd ⟨is_me, mine⟩ other

section Runs
variable {cfg : AdminConfig} {seed : Seed} {admins : List Admin} {s s' : Admins}

theorem admin_keeps (cfg : AdminConfig) (seed : Seed) (admins : List Admin) :
    Keeps admin (adminServer cfg) (noBrowsers seed admins).pool (fun _ => false) (fun _ => True)
      (fun _ _ => True) (fun _ => Asked) where
  grows _ := ⟨fun _ _ => trivial, fun _ _ asked => asked⟩
  mount _ _ := ⟨trivial, fun _ _ sends => by cases sends⟩
  input _ _ _ _ _ takes := press_asked takes
  settle _ _ _ _ _ _ _ _ _ _ := ⟨trivial, fun _ _ sends => by cases sends⟩

theorem asked_of_run (run : Visited admin (adminServer cfg) anyMove (noBrowsers seed admins) s) {k : Nat}
    {f : Flight Request AdminCall} (at_k : s.flights[k]? = some f) :
    Asked f.tag f.req ∧ Served s.pool f :=
  (holds_of_run (opening_none admin) (admin_keeps cfg seed admins) run).flights f
    (List.mem_of_getElem? at_k)

theorem explained_of_run (run : Visited admin (adminServer cfg) anyMove (noBrowsers seed admins) s)
    {k : Nat} {f : Flight Request AdminCall} (at_k : s.flights[k]? = some f) {a : AdminAnswer}
    (is_answer : answerAt s.pool f.job = some a) :
    Explained cfg f.req (own f.job s.pool.log) a := by
  obtain ⟨-, job, at_job, same⟩ := asked_of_run run at_k
  obtain ⟨job', at_job', finished⟩ := answered_job.mp is_answer
  obtain rfl : job = job' := Option.some.inj (at_job.symm.trans at_job')
  have reached := pool_reaches run
  have explained := contract_of_job (program_explained cfg) rfl reached job
    (List.mem_of_getElem? at_job)
  rw [finished, meets_done, past_of_job rfl rfl reached at_job, same] at explained
  exact explained

theorem authOf_client {i page mount : Nat} {value : Bool} (is : authOf s i page mount = some value) :
    ∃ b, s.clients[i]? = some b ∧ b.authOf page mount = some value :=
  Option.bind_eq_some_iff.mp is

theorem authOf_turned {i j page mount : Nat} {b : Browser} (at_j : s.clients[j]? = some b)
    (turn : AdminTurn) {t : Admins} (turned : t.clients = s.clients.set j turn.next) :
    authOf t i page mount = if j = i then turn.next.authOf page mount else authOf s i page mount := by
  have inside := (List.getElem?_eq_some_iff.mp at_j).1
  rw [authOf, turned]
  split
  · rename_i same
    rw [← same, List.getElem?_set_self inside]
    rfl
  · rename_i apart
    rw [List.getElem?_set_ne apart, authOf]

/- A move that brings no answer signs nobody out. -/
theorem silent_stays {move : AdminMove} (step : s.step admin (adminServer cfg) move = some s')
    (no_land : ∀ k, move ≠ .land k) (no_lose : ∀ k, move ≠ .lose k) {i page mount : Nat}
    (signed : authOf s i page mount = some true) : authOf s' i page mount ≠ some false := by
  have stays : authOf s i page mount ≠ some false := by simp [signed]
  obtain ⟨b, at_i, is_signed⟩ := authOf_client signed
  cases move with
  | serve l =>
    obtain ⟨p, -, rfl⟩ := Option.map_eq_some_iff.mp step
    exact stays
  | mount v =>
    cases step
    have inside := (List.getElem?_eq_some_iff.mp at_i).1
    rw [authOf, show ((s.mounted (adminServer cfg) (admin.mount v)).clients)[i]? = s.clients[i]? from
      List.getElem?_append_left inside]
    exact stays
  | input j x =>
    obtain ⟨c, at_j, moved⟩ := Option.bind_eq_some_iff.mp step
    obtain ⟨t, takes, rfl⟩ := Option.map_eq_some_iff.mp moved
    rw [authOf_turned at_j t (turned_clients j t)]
    split
    · rename_i same
      rw [same, at_i] at at_j
      cases at_j
      exact press_authOf takes is_signed
    · exact stays
  | land k => exact absurd rfl (no_land k)
  | lose k => exact absurd rfl (no_lose k)

/- An answer, or that there is none, signs out the providers that are signed in in its page. -/
theorem settled_authOf {k : Nat} {f : Flight Request AdminCall} {c : Browser}
    (at_client : s.clients[f.client]? = some c) (a : Option AdminAnswer) {i page mount : Nat}
    (signed : authOf s i page mount = some true) :
    authOf ((s.close k f).turned (adminServer cfg) f.client (admin.settle c f.tag a)) i page mount =
        some false ↔ f.client = i ∧ f.tag.page = page ∧ SignsOut f.tag mount a := by
  obtain ⟨b, at_i, is_signed⟩ := authOf_client signed
  have clients : ((s.close k f).turned (adminServer cfg) f.client (admin.settle c f.tag a)).clients =
      s.clients.set f.client (admin.settle c f.tag a).next := turned_clients _ _
  rw [authOf_turned at_client _ clients]
  split
  · rename_i same
    rw [same, at_i] at at_client
    cases at_client
    rw [and_iff_right same]
    exact settle_authOf is_signed
  · rename_i apart
    rw [signed]
    simp [apart]

section Justified
variable {k i page : Nat} {f : Flight Request AdminCall} {b : Browser}

theorem justified_land (at_k : s.flights[k]? = some f) (client : f.client = i) (is_page : f.tag.page = page)
    (at_i : s.clients[i]? = some b) : Justified cfg s i page (.land k) ↔ f.req = .logout ∨
      sentCookie f.req = some b.adminToken ∧ Denied cfg b.adminToken (own f.job s.pool.log) := by
  constructor
  · rintro ⟨k', f', b', same | other, at_k', -, -, at_i', justified⟩
    · cases same
      cases at_k.symm.trans at_k'
      cases at_i.symm.trans at_i'
      exact justified.imp_right And.right
    · cases other
  · intro justified
    exact ⟨k, f, b, Or.inl rfl, at_k, client, is_page, at_i, justified.imp_right fun denied => ⟨rfl, denied⟩⟩

theorem justified_lose (at_k : s.flights[k]? = some f) (client : f.client = i) (is_page : f.tag.page = page)
    (at_i : s.clients[i]? = some b) : Justified cfg s i page (.lose k) ↔ f.req = .logout := by
  constructor
  · rintro ⟨k', f', b', other | same, at_k', -, -, -, logout | ⟨other, -⟩⟩
    · cases other
    · cases other
    · cases same
      cases at_k.symm.trans at_k'
      exact logout
    · cases other
  · intro logout
    exact ⟨k, f, b, Or.inr rfl, at_k, client, is_page, at_i, Or.inl logout⟩

end Justified

theorem land_follows (run : Visited admin (adminServer cfg) anyMove (noBrowsers seed admins) s) {k : Nat}
    (step : s.step admin (adminServer cfg) (.land k) = some s') :
    FollowsCookie cfg s (.land k) s' ↔ Undisturbed cfg s (.land k) s' := by
  obtain ⟨f, c, a, at_k, -, at_client, is_answer, rfl⟩ := land_step step
  have asked := (asked_of_run run at_k).1
  have explained := explained_of_run run at_k is_answer
  constructor
  · intro follows i page mount signed k' f' b at_k' client is_page at_i
    refine ⟨fun same => ?_, fun other => by cases other⟩
    cases same
    cases at_k.symm.trans at_k'
    apply (@landed_iff cfg f.tag f.req _ a mount b.adminToken asked explained).mp
    intro out
    exact (justified_land at_k client is_page at_i).mp
      (follows i page mount signed ((settled_authOf at_client (some a) signed).mpr ⟨client, is_page, out⟩))
  · intro undisturbed i page mount signed signed_out
    obtain ⟨client, is_page, out⟩ := (settled_authOf at_client (some a) signed).mp signed_out
    obtain ⟨b, at_i, -⟩ := authOf_client signed
    have about := (undisturbed i page mount signed k f b at_k client is_page at_i).1 rfl
    exact (justified_land at_k client is_page at_i).mpr
      ((landed_iff b.adminToken asked explained).mpr about out)

theorem lose_follows (run : Visited admin (adminServer cfg) anyMove (noBrowsers seed admins) s) {k : Nat}
    (step : s.step admin (adminServer cfg) (.lose k) = some s') :
    FollowsCookie cfg s (.lose k) s' ↔ Undisturbed cfg s (.lose k) s' := by
  obtain ⟨f, c, at_k, -, at_client, rfl⟩ := lose_step step
  have asked := (asked_of_run run at_k).1
  constructor
  · intro follows i page mount signed k' f' b at_k' client is_page at_i
    refine ⟨fun other => (by cases other), fun same => ?_⟩
    cases same
    cases at_k.symm.trans at_k'
    apply (lost_iff asked).mp
    intro out
    exact (justified_lose at_k client is_page at_i).mp
      (follows i page mount signed ((settled_authOf at_client none signed).mpr ⟨client, is_page, out⟩))
  · intro undisturbed i page mount signed signed_out
    obtain ⟨client, is_page, out⟩ := (settled_authOf at_client none signed).mp signed_out
    obtain ⟨b, at_i, -⟩ := authOf_client signed
    have other := (undisturbed i page mount signed k f b at_k client is_page at_i).2 rfl
    exact (justified_lose at_k client is_page at_i).mpr ((lost_iff asked).mpr other out)

/- One step keeps to the cookie exactly if it brings no such answer. -/
theorem step_follows (run : Visited admin (adminServer cfg) anyMove (noBrowsers seed admins) s)
    {move : AdminMove} (step : s.step admin (adminServer cfg) move = some s') :
    FollowsCookie cfg s move s' ↔ Undisturbed cfg s move s' := by
  cases move with
  | land k => exact land_follows run step
  | lose k => exact lose_follows run step
  | _ =>
    constructor
    · intro _ i page mount _ k f b _ _ _ _
      exact ⟨fun other => (by cases other), fun other => (by cases other)⟩
    · intro _ i page mount signed signed_out
      exact absurd signed_out (silent_stays step (fun _ other => by cases other)
        (fun _ other => by cases other) signed)

end Runs

/- Any number of browsers with any number of pages, whatever they send and in whatever order answers come
   or are lost. In every run, no provider is signed out but by a logout or by the denial of the cookie in
   use, exactly if no other answer of 401 comes to a page that is signed in: not one to credentials or to
   a mistyped password, not a late one for another cookie, and no /me of a provider is lost after it has
   signed in. -/
theorem follows_cookie_iff (cfg : AdminConfig) (seed : Seed) (admins : List Admin) (moves : List AdminMove) :
    Every admin (adminServer cfg) (FollowsCookie cfg) (noBrowsers seed admins) moves ↔
      Every admin (adminServer cfg) (Undisturbed cfg) (noBrowsers seed admins) moves :=
  every_iff (fun _ _ _ run step => step_follows run step) moves

/-- A setup whose tokens are the time at which they expire, with passwords for their own hashes. -/
def devAdmin : AdminConfig where
  voting := devConfig
  parse now token := (atoi token).bind fun exp =>
    if unix now < exp then some ⟨.num 1, .str "admin@vote.com".toList⟩ else none
  sign claims := some (itoa claims.exp)
  comparePasswordAndHash password hash := password = hash
  createHash _ password := some password
  sameEmail email other := email = other

def oneAdmin : Admins := noBrowsers twoCandidates [⟨1, "admin@vote.com".toList, "first password".toList⟩]

def serves (caller n : Nat) : List AdminMove := List.replicate n (.serve (.run caller {}))

def signIn : AdminMove := .input 0 (.login 0 ⟨"admin@vote.com".toList, "first password".toList⟩)

/- An admin without a cookie opens the login page and signs in. -/
def signInMoves : List AdminMove :=
  [.mount none, .input 0 .openPage, .input 0 (.mount 0), .land 0, signIn] ++ serves 1 3 ++ [.land 1]

/- Then the current password is mistyped. -/
def mistypedMoves : List AdminMove :=
  signInMoves ++ .input 0 (.changePassword 0 ⟨"wrong password".toList, "second password".toList⟩) ::
    serves 2 2

/- Or the session expires. Two requests are denied, and the admin signs in again between their answers. -/
def lateMoves : List AdminMove :=
  signInMoves ++ [.serve (.env (.tick (25 * hour))), .input 0 (.call 0 .listDomains),
    .input 0 (.call 0 .listDomains)] ++ serves 2 1 ++ serves 3 1 ++ [.land 2, signIn] ++ serves 4 3 ++
      [.land 4]

/-- The cookie of a browser is one that JWTAuth would accept now. -/
def cookieValid (cfg : AdminConfig) (s : Admins) (i : Nat) : Bool :=
  s.clients[i]?.any fun b => b.adminToken.any fun token =>
    (cfg.parse s.pool.world.voting.clock token).isSome

/-- An answer signs the first provider out though its cookie is valid, and not because of a cookie. -/
def LosesSession (s : Admins) (k : Nat) : Prop :=
  ∃ s', s.step admin (adminServer devAdmin) (.land k) = some s' ∧ cookieValid devAdmin s 0 = true ∧
    authOf s 0 0 1 = some true ∧ authOf s' 0 0 1 = some false ∧ ¬ Justified devAdmin s 0 0 (.land k)

theorem losesSession_of {s : Admins} {k job : Nat} {req : AdminCall} {inUse : Option Str}
    (valid : cookieValid devAdmin s 0 = true) (signed : authOf s 0 0 1 = some true)
    (lands : (s.step admin (adminServer devAdmin) (.land k)).map (authOf · 0 0 1) = some (some false))
    (flight : s.flights[k]?.map (fun f => (f.client, f.tag.page, f.req, f.job)) = some (0, 0, req, job))
    (client : s.clients[0]?.map Browser.adminToken = some inUse) (not_logout : req ≠ .logout)
    (unrelated : sentCookie req = some inUse → ¬ Denied devAdmin inUse (own job s.pool.log)) :
    LosesSession s k := by
  obtain ⟨s', step, signed_out⟩ := Option.map_eq_some_iff.mp lands
  obtain ⟨f, at_k, is_flight⟩ := Option.map_eq_some_iff.mp flight
  obtain ⟨b, at_0, is_token⟩ := Option.map_eq_some_iff.mp client
  simp only [Prod.mk.injEq] at is_flight
  obtain ⟨is_client, is_page, rfl, rfl⟩ := is_flight
  subst is_token
  refine ⟨s', step, valid, signed, signed_out, ?_⟩
  rw [justified_land at_k is_client is_page at_0]
  rintro (logout | ⟨sent, denied⟩)
  · exact not_logout logout
  · exact unrelated sent denied

def mistyped : Admins := after admin (adminServer devAdmin) oneAdmin mistypedMoves

def late : Admins := after admin (adminServer devAdmin) oneAdmin lateMoves

/- The tokens of the two sessions. -/
def firstToken : Str := "1735776000".toList

def secondToken : Str := "1735866000".toList

/- A mistyped password signs an admin out whose cookie is valid, and so does a late answer. -/
theorem valid_session_lost :
    (Visited admin (adminServer devAdmin) anyMove oneAdmin mistyped ∧ LosesSession mistyped 2) ∧
      Visited admin (adminServer devAdmin) anyMove oneAdmin late ∧ LosesSession late 3 := by
  refine ⟨⟨visited_after (by decide +kernel), ?_⟩, visited_after (by decide +kernel), ?_⟩
  · apply @losesSession_of mistyped 2 2 (.changePassword (some firstToken)
      (.ok ⟨"wrong password".toList, "second password".toList⟩)) (some firstToken)
    · decide +kernel
    · decide +kernel
    · decide +kernel
    · decide +kernel
    · decide +kernel
    · exact fun other => by cases other
    · exact fun _ => by decide +kernel
  · apply @losesSession_of late 3 3 (.route (some firstToken) .listDomains) (some secondToken)
    · decide +kernel
    · decide +kernel
    · decide +kernel
    · decide +kernel
    · decide +kernel
    · exact fun other => by cases other
    · exact fun same => absurd same (by decide +kernel)

end AdminAuth
