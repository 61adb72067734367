import Mathlib.Logic.Relation
import VotingApp.Lib.Derived
import VotingApp.Deployment
import VotingApp.PublicRoutes
import VotingApp.AdminAuth

/-!
The accounts of the admins over the life of a deployment: where an account comes from, and how its
password hash has come to be what it is.
-/
namespace AdminAccounts
open GoText GoTime JsonText Tables EffectProgram CallPool PoolHistory Embedding Derived VotingWorld
open Handlers VotingServer Frames AdminServer Deployment PublicRoutes AdminAuth

/-- The cookie that JWTAuth is given by a call. -/
def cookieOf : AdminCall → Option Str
  | .me cookie => cookie
  | .changePassword cookie _ => cookie
  | .route cookie call => if protectedRoute call then cookie else none
  | _ => none

/-- JWTAuth has let the call in with these claims. -/
def LetIn (cfg : AdminConfig) (req : AdminCall) (past : AdminHistory) (claims : TokenClaims) : Prop :=
  ∃ token now, cookieOf req = some token ∧
    (⟨.timeNow, now⟩ : Exchange AdminCmd AdminReply) ∈ past ∧ cfg.parse now token = some claims

/-- The call was let in as the admin that it has read, knows the password that the hash read was
made of, and has had newHash made of a new one. -/
def Shown (cfg : AdminConfig) (req : AdminCall) (past : AdminHistory) (id : Int) (hash newHash : Str) :
    Prop :=
  ∃ cookie body claims admin, req = .changePassword cookie (.ok body) ∧ LetIn cfg req past claims ∧
    adminID claims.sub = some id ∧
    (⟨.getByID id, .ok admin⟩ : Exchange AdminCmd AdminReply) ∈ past ∧ admin.passwordHash = hash ∧
    cfg.comparePasswordAndHash body.oldPassword hash = true ∧
    10 ≤ (String.ofList body.newPassword).utf8ByteSize ∧
    (⟨.createHash body.newPassword, some newHash⟩ : Exchange AdminCmd AdminReply) ∈ past

/-- The token is signed for an admin whose password the call knows. -/
def Signed (cfg : AdminConfig) (req : AdminCall) (past : AdminHistory) (token : Str) : Prop :=
  ∃ body admin expiry issued, req = .login (.ok body) ∧
    (⟨.getByEmail body.email, .ok admin⟩ : Exchange AdminCmd AdminReply) ∈ past ∧
    cfg.comparePasswordAndHash body.password admin.passwordHash = true ∧
    (⟨.timeNow, expiry⟩ : Exchange AdminCmd AdminReply) ∈ past ∧
    (⟨.timeNow, issued⟩ : Exchange AdminCmd AdminReply) ∈ past ∧
    cfg.sign (sessionClaims admin expiry issued) = some token

def publishedCall : AdminCall → Bool
  | .route _ call => published call
  | _ => true

/-- What a call has seen before it sends a command. -/
def AdminRule (cfg : AdminConfig) (req : AdminCall) (past : AdminHistory) : AdminCmd → Prop
  | .updatePassword id newHash => ∃ hash, Shown cfg req past id hash newHash
  | .voting c => publishedCall req = true → guarded c = true → ∃ claims, LetIn cfg req past claims
  | _ => True

/-- And before it sets a cookie. -/
def AdminEnd (cfg : AdminConfig) (req : AdminCall) (past : AdminHistory) (a : AdminAnswer) : Prop :=
  ∀ token, a.setCookie = some (some token) → Signed cfg req past token

section Contracts
variable {cfg : AdminConfig} {req : AdminCall} {past : AdminHistory}

theorem letIn_later {claims : TokenClaims} (let_in : LetIn cfg req past claims) (added : AdminHistory) :
    LetIn cfg req (added ++ past) claims := by
  obtain ⟨token, now, cookie, looked, parsed⟩ := let_in
  exact ⟨token, now, cookie, List.mem_append_right _ looked, parsed⟩

theorem respond_ends (r : Response) : AdminEnd cfg req past (respond r) := by
  intro token sets
  cases sets

theorem login_admits (body : Except Str LoginRequest) :
    (login cfg body).Meets (AdminRule cfg (.login body)) (AdminEnd cfg (.login body)) [] := by
  unfold login
  cases bound : bindBody (LoginRequest.check cfg) body with
  | error details => exact respond_ends _
  | ok creds =>
    have signs : (serviceLogin cfg creds.email creds.password).Meets (AdminRule cfg (.login body))
        (fun now token => ∀ t, token = some t → Signed cfg (.login body) now t) [] := by
      refine issue_meets trivial ?_
      intro found
      cases found with
      | error err =>
        intro t other
        cases other
      | ok admin =>
        dsimp only
        split
        · rename_i correct
          refine issue_meets trivial fun expiry => issue_meets trivial fun issued => ?_
          intro t is_signed
          exact ⟨creds, admin, expiry, issued, by rw [bindBody_ok bound], by simp, correct, by simp,
            by simp, is_signed⟩
        · intro t other
          cases other
    apply meets_bind signs
    intro now token signed
    cases token with
    | none => exact respond_ends _
    | some token =>
      intro t sets
      cases sets
      exact signed token rfl

/- JWTAuth lets a call in with the claims of its cookie, or answers it. -/
theorem jwtAuth_admits {cookie : Option Str} (carried : cookieOf req = cookie)
    {next : TokenClaims → AdminAct AdminAnswer}
    (handles : ∀ now claims, LetIn cfg req [⟨.timeNow, now⟩] claims →
      (next claims).Meets (AdminRule cfg req) (AdminEnd cfg req) [⟨.timeNow, now⟩]) :
    (jwtAuth cfg cookie next).Meets (AdminRule cfg req) (AdminEnd cfg req) [] := by
  cases cookie with
  | none => exact respond_ends _
  | some token =>
    refine issue_meets trivial ?_
    intro now
    cases parsed : cfg.parse now token with
    | none => exact respond_ends _
    | some claims => exact handles now claims ⟨token, now, carried, List.mem_singleton_self _, parsed⟩

theorem changePassword_admits (cookie : Option Str) (body : Except Str ChangePasswordRequest)
    (now : Nat) (claims : TokenClaims)
    (let_in : LetIn cfg (.changePassword cookie body) [⟨.timeNow, now⟩] claims) :
    (changePassword cfg body claims).Meets (AdminRule cfg (.changePassword cookie body))
      (AdminEnd cfg (.changePassword cookie body)) [⟨.timeNow, now⟩] := by
  unfold changePassword
  cases bound : bindBody ChangePasswordRequest.check body with
  | error details => exact respond_ends _
  | ok sent =>
    dsimp only
    cases is_admin : adminID claims.sub with
    | none => exact respond_ends _
    | some id =>
      have changes : (serviceChangePassword cfg id sent.oldPassword sent.newPassword).Meets
          (AdminRule cfg (.changePassword cookie body)) (fun _ _ => True) [⟨.timeNow, now⟩] := by
        unfold serviceChangePassword
        split
        · trivial
        · rename_i long
          refine issue_meets trivial ?_
          intro found
          cases found with
          | error err => trivial
          | ok admin =>
            dsimp only
            split
            · rename_i correct
              refine issue_meets trivial ?_
              intro made
              cases made with
              | none => trivial
              | some newHash =>
                have shown : Shown cfg (.changePassword cookie body)
                    [⟨.createHash sent.newPassword, some newHash⟩, ⟨.getByID id, .ok admin⟩,
                      ⟨.timeNow, now⟩] id admin.passwordHash newHash :=
                  ⟨cookie, sent, claims, admin, by rw [bindBody_ok bound], letIn_later let_in [_, _],
                    is_admin, by simp, rfl, correct, by omega, by simp⟩
                refine issue_meets ⟨admin.passwordHash, shown⟩ ?_
                intro done
                cases done <;> trivial
            · trivial
      apply meets_bind changes
      exact fun _ _ _ => respond_ends _

/- The commands of a route are those of the voting server. -/
theorem route_admits {cookie : Option Str} {call : Call} {allowed : Cmd → Prop}
    (uses : (VotingServer.program cfg.voting call).Issues allowed)
    (fine : ∀ added c, allowed c → AdminRule cfg (.route cookie call) (added ++ past) (.voting c)) :
    (route cfg call).Meets (AdminRule cfg (.route cookie call)) (AdminEnd cfg (.route cookie call)) past := by
  have sent : (embed AdminCmd.voting (fun _ r => r) (VotingServer.program cfg.voting call)).Meets
      (AdminRule cfg (.route cookie call)) (fun _ _ => True) past := by
    apply meets_mono (meets_of_issues (embed_within uses) _) (fun _ _ ok => ok) fun _ _ _ => trivial
    intro now c grown is_voting
    obtain ⟨added, rfl, -⟩ := grown
    obtain ⟨c', rfl, ok⟩ := is_voting
    exact fine added c' ok
  apply meets_bind sent
  intro now a _ token sets
  cases sets

theorem program_admits (cfg : AdminConfig) (req : AdminCall) :
    (AdminServer.program cfg req).Meets (AdminRule cfg req) (AdminEnd cfg req) [] := by
  cases req with
  | login body => exact login_admits body
  | logout =>
    intro token sets
    cases sets
  | me cookie => exact jwtAuth_admits rfl fun _ _ _ => respond_ends _
  | changePassword cookie body => exact jwtAuth_admits rfl (changePassword_admits cookie body)
  | route cookie call =>
    unfold AdminServer.program
    dsimp only
    split
    · rename_i is_protected
      apply jwtAuth_admits (by rw [cookieOf, if_pos is_protected])
      intro now claims let_in
      apply route_admits (issues_trivial _)
      exact fun added c _ _ _ => ⟨claims, letIn_later let_in added⟩
    · rename_i is_public
      cases is_published : published call with
      | true =>
        apply route_admits (public_harmless cfg.voting is_published (by simpa using is_public))
        intro added c harmless _ is_guarded
        rw [harmless] at is_guarded
        cases is_guarded
      | false =>
        apply route_admits (issues_trivial _)
        intro added c _ other
        rw [publishedCall, is_published] at other
        cases other

end Contracts

/-- An exchange of the admin server, as the instance has it that serves the call. -/
def carried (x : Exchange AdminCmd AdminReply) : Exchange DeployCmd DeployReply := ⟨.admin x.cmd, x.reply⟩

/-- What a program of an instance has seen before it sends a command. -/
def DeployRule (cfg : DeployConfig) : DeployCall → DeployHistory → DeployCmd → Prop
  | .main email password, past, .insertAdmin name hash => name = email ∧
      (⟨.createDefaultHash password, some hash⟩ : Exchange DeployCmd DeployReply) ∈ past
  | .main _ _, _, .admin c => ∃ v, c = .voting v ∧ Harmless v
  | .main _ _, _, _ => True
  | .call req, past, .admin c => ∃ own, past = own.map carried ∧ AdminRule cfg.admin req own c
  | .call _, _, _ => False

/-- And before it ends. -/
def DeployEnd (cfg : DeployConfig) : DeployCall → DeployHistory → DeployAnswer → Prop
  | .call req, past, .answered a => ∃ own, past = own.map carried ∧ AdminEnd cfg.admin req own a
  | .main email _, past, .listens .returned =>
    (∃ n, 0 < n ∧ (⟨.countAdmins, .ok n⟩ : Exchange DeployCmd DeployReply) ∈ past) ∨
      ∃ hash, (⟨.insertAdmin email hash, .ok ()⟩ : Exchange DeployCmd DeployReply) ∈ past
  | .main _ _, _, .listens .panicked => True
  | _, _, _ => False

section Instances
variable {cfg : DeployConfig}

theorem call_rules (req : AdminCall) :
    (Deployment.program cfg (.call req)).Meets (DeployRule cfg (.call req)) (DeployEnd cfg (.call req)) [] := by
  have own : (served (AdminServer.program cfg.admin req)).Meets (DeployRule cfg (.call req))
      (fun past a => ∃ own, past = own.map carried ∧ AdminEnd cfg.admin req own a) [] := by
    have same_past : ∀ past past' (c : AdminCmd) (r : AdminReply c), past' = past.map carried →
        (⟨.admin c, r⟩ :: past' : DeployHistory) = (⟨c, r⟩ :: past : AdminHistory).map carried := by
      intro past past' c r same
      rw [same]
      rfl
    exact embed_contract same_past (fun past _ _ same rule => ⟨past, same, rule⟩)
      (fun past _ _ same ends => ⟨past, same, ends⟩) (program_admits cfg.admin req) rfl
  apply meets_bind own
  exact fun _ _ ends => ends

theorem seedDefaultAdmin_rules (email password : Str) :
    (seedDefaultAdmin email password).Meets (DeployRule cfg (.main email password))
      (fun past o => DeployEnd cfg (.main email password) past (.listens o)) [] := by
  refine issue_meets trivial ?_
  intro count
  cases count with
  | error err => trivial
  | ok count =>
    dsimp only
    split
    · rename_i some_admin
      exact Or.inl ⟨count, some_admin, List.mem_singleton_self _⟩
    · refine issue_meets trivial ?_
      intro made
      cases made with
      | none => trivial
      | some hash =>
        refine issue_meets ⟨rfl, List.mem_cons_self⟩ ?_
        intro inserted
        cases inserted with
        | error err => trivial
        | ok done => exact Or.inr ⟨hash, List.mem_cons_self⟩

/- The cache is warmed after the admin is seeded, by commands that leave the accounts alone. -/
theorem main_rules (email password : Str) :
    (Deployment.program cfg (.main email password)).Meets (DeployRule cfg (.main email password))
      (DeployEnd cfg (.main email password)) [] := by
  have starts : (Deployment.main email password).Meets (DeployRule cfg (.main email password))
      (fun past o => DeployEnd cfg (.main email password) past (.listens o)) [] := by
    apply meets_bind (seedDefaultAdmin_rules email password)
    intro past o ends
    cases o with
    | panicked => trivial
    | returned =>
      have warms : (served (embed AdminCmd.voting (fun _ r => r) CustomDomains.warmCache)).Issues
          fun c => ∃ c', c = DeployCmd.admin c' ∧ ∃ v, c' = .voting v ∧ Harmless v :=
        embed_within (embed_within warmCache_harmless)
      apply meets_bind (meets_of_issues warms ?_)
      · intro now _ grown
        obtain ⟨added, rfl, -⟩ := grown
        rcases ends with ⟨n, positive, counted⟩ | ⟨hash, inserted⟩
        · exact Or.inl ⟨n, positive, List.mem_append_right _ counted⟩
        · exact Or.inr ⟨hash, List.mem_append_right _ inserted⟩
      · rintro now _ - ⟨c, rfl, harmless⟩
        exact harmless
  apply meets_bind starts
  exact fun _ _ ends => ends

theorem program_rules (cfg : DeployConfig) (req : DeployCall) :
    (Deployment.program cfg req).Meets (DeployRule cfg req) (DeployEnd cfg req) [] := by
  cases req with
  | main email password => exact main_rules email password
  | call req => exact call_rules req

end Instances

/-- What updatePassword does to a row. -/
def rehash (id : Int) (newHash : Str) (a : Admin) : Admin :=
  if a.id = id then { a with passwordHash := newHash } else a

@[simp] theorem rehash_id (id : Int) (newHash : Str) (a : Admin) : (rehash id newHash a).id = a.id := by
  unfold rehash
  split <;> rfl

@[simp] theorem rehash_email (id : Int) (newHash : Str) (a : Admin) :
    (rehash id newHash a).email = a.email := by
  unfold rehash
  split <;> rfl

section Steps
variable {cfg : DeployConfig} {w w' : DeployWorld} {o : Oracle}

/- The accounts are changed by two statements and by nothing else. -/
theorem perform_accounts {c : DeployCmd} {r : DeployReply c} (performed : w.perform cfg o c = some (r, w')) :
    (w'.admins = w.admins ∧ w'.nextAdmin = w.nextAdmin) ∨
      (∃ id newHash, c = .admin (.updatePassword id newHash) ∧
        w'.admins = w.admins.map (rehash id newHash) ∧ w'.nextAdmin = w.nextAdmin) ∨
      ∃ email hash, c = .insertAdmin email hash ∧
        (w.admins.any fun a => cfg.admin.sameEmail a.email email) = false ∧ w' = w.withAdmin email hash := by
  cases c with
  | countAdmins =>
    cases performed
    exact Or.inl ⟨rfl, rfl⟩
  | createDefaultHash password =>
    cases performed
    exact Or.inl ⟨rfl, rfl⟩
  | insertAdmin email hash =>
    have ran : (faulty o w (w.insertAdmin cfg email hash)).2 = w' := congrArg Prod.snd (Option.some.inj performed)
    have inserts : (w.insertAdmin cfg email hash).2 = w ∨
        (w.admins.any fun a => cfg.admin.sameEmail a.email email) = false ∧
          (w.insertAdmin cfg email hash).2 = w.withAdmin email hash := by
      unfold DeployWorld.insertAdmin
      split
      · exact Or.inl rfl
      · split
        · exact Or.inl rfl
        · split
          · exact Or.inl rfl
          · rename_i unique
            exact Or.inr ⟨by simpa using unique, rfl⟩
    have applied : w' = w ∨ w' = (w.insertAdmin cfg email hash).2 := by
      rw [← ran]
      unfold faulty
      split
      · exact Or.inr rfl
      · dsimp only
        split
        · exact Or.inr rfl
        · exact Or.inl rfl
    rcases applied with same | same
    · exact Or.inl ⟨by rw [same], by rw [same]⟩
    · rcases inserts with stays | ⟨unique, added⟩
      · exact Or.inl ⟨by rw [same, stays], by rw [same, stays]⟩
      · exact Or.inr (Or.inr ⟨email, hash, rfl, unique, by rw [same, added]⟩)
  | admin c =>
    obtain ⟨⟨r', admin'⟩, ran, same⟩ := Option.map_eq_some_iff.mp performed
    cases same
    cases c with
    | voting c =>
      obtain ⟨voting', -, same⟩ := Option.map_eq_some_iff.mp ran
      cases same
      exact Or.inl ⟨rfl, rfl⟩
    | getByEmail email =>
      cases ran
      exact Or.inl ⟨rfl, rfl⟩
    | getByID id =>
      cases ran
      exact Or.inl ⟨rfl, rfl⟩
    | createHash password =>
      cases ran
      exact Or.inl ⟨rfl, rfl⟩
    | timeNow =>
      cases ran
      exact Or.inl ⟨rfl, rfl⟩
    | updatePassword id newHash =>
      cases ran
      unfold faulty
      split
      · exact Or.inr (Or.inl ⟨id, newHash, rfl, rfl, rfl⟩)
      · dsimp only
        split
        · exact Or.inr (Or.inl ⟨id, newHash, rfl, rfl, rfl⟩)
        · exact Or.inl ⟨rfl, rfl⟩

theorem env_accounts {e : Env} (moved : (deployment cfg).env w e = some w') :
    w'.admins = w.admins ∧ w'.nextAdmin = w.nextAdmin := by
  obtain ⟨voting', -, same⟩ := Option.map_eq_some_iff.mp moved
  cases same
  exact ⟨rfl, rfl⟩

/- An admin that is read by a statement is in the table, under the id that was asked for. -/
theorem findAdmin_found {admins : List Admin} {found : Admin → Bool} {a : Admin}
    (answer : findAdmin admins found = .ok a) : a ∈ admins ∧ found a = true := by
  unfold findAdmin at answer
  split at answer
  · rename_i admin at_admin
    cases answer
    exact ⟨List.mem_of_find?_eq_some at_admin, List.find?_some at_admin⟩
  · cases answer

theorem faulty_ok {α σ : Type} {before : σ} {ran : Except GoErr α × σ} {a : α}
    (answer : (faulty o before ran).1 = .ok a) : ran.1 = .ok a := by
  unfold faulty at answer
  split at answer
  · exact answer
  · cases answer

theorem getByID_reads {id : Int} {a : Admin}
    (performed : w.perform cfg o (.admin (.getByID id)) = some (.ok a, w')) : a ∈ w.admins ∧ a.id = id := by
  obtain ⟨answer, -⟩ := Prod.mk.inj (Option.some.inj performed)
  obtain ⟨member, same_id⟩ := findAdmin_found (faulty_ok answer)
  exact ⟨member, by simpa using same_id⟩

theorem getByEmail_reads {email : Str} {a : Admin}
    (performed : w.perform cfg o (.admin (.getByEmail email)) = some (.ok a, w')) :
    a ∈ w.admins ∧ cfg.admin.sameEmail a.email email = true := by
  obtain ⟨answer, -⟩ := Prod.mk.inj (Option.some.inj performed)
  exact findAdmin_found (faulty_ok answer)

end Steps

/-- The hash was made of the password that an instance was started with for this email. -/
def Seeded (s : Fleet) (email hash : Str) : Prop :=
  ∃ job ∈ s.jobs, ∃ password, job.req = .main email password ∧
    (⟨.createDefaultHash password, some hash⟩ : Exchange DeployCmd DeployReply) ∈ job.past

/-- A call has shown itself entitled to replace this hash of the admin by the other one. -/
def Replaces (cfg : DeployConfig) (s : Fleet) (id : Int) (hash newHash : Str) : Prop :=
  ∃ job ∈ s.jobs, ∃ req own later, job.req = .call req ∧ job.past = later ++ own.map carried ∧
    Shown cfg.admin req own id hash newHash

/-- The account was seeded, and its hash comes from the first one by replacements. -/
def Descends (cfg : DeployConfig) (s : Fleet) (a : Admin) : Prop :=
  ∃ first, Seeded s a.email first ∧ Relation.ReflTransGen (Replaces cfg s a.id) first a.passwordHash

/-- The row is still there, whatever its hash has become. -/
def Kept (s : Fleet) (a : Admin) : Prop := ∃ b ∈ s.world.admins, b.id = a.id ∧ b.email = a.email

def readsAdmin (x : Exchange DeployCmd DeployReply) (a : Admin) : Prop :=
  (∃ id, x = ⟨.admin (.getByID id), .ok a⟩) ∨ ∃ email, x = ⟨.admin (.getByEmail email), .ok a⟩

section Runs
variable {cfg : DeployConfig} {allow : Fleet → FleetMove → Bool} {s s' : Fleet} {l : FleetMove}

theorem step_accounts (step : Step (deployment cfg) s l s') :
    (s'.world.admins = s.world.admins ∧ s'.world.nextAdmin = s.world.nextAdmin) ∨
      (∃ id newHash, s'.world.admins = s.world.admins.map (rehash id newHash) ∧
        s'.world.nextAdmin = s.world.nextAdmin) ∨
      ∃ email hash, (s.world.admins.any fun a => cfg.admin.sameEmail a.email email) = false ∧
        s'.world = s.world.withAdmin email hash := by
  cases step with
  | start req => exact Or.inl ⟨rfl, rfl⟩
  | env moved => exact Or.inl (env_accounts moved)
  | run at_i waiting performed =>
    rcases perform_accounts performed with same | ⟨id, newHash, -, updated⟩ | ⟨email, hash, -, inserted⟩
    · exact Or.inl same
    · exact Or.inr (Or.inl ⟨id, newHash, updated⟩)
    · exact Or.inr (Or.inr ⟨email, hash, inserted⟩)

/-- The AUTO_INCREMENT key of the table. -/
def Keyed (w : DeployWorld) : Prop :=
  (∀ a ∈ w.admins, a.id < w.nextAdmin) ∧ (w.admins.map Admin.id).Nodup

theorem keyed_of_run (w : World) (run : Reaches (deployment cfg) allow (unused w) s) : Keyed s.world := by
  refine reaches_inv (I := fun s => Keyed s.world) ⟨by simp [unused, DeployWorld.admins], ?_⟩ ?_ run
  · exact List.nodup_nil
  · intro s l s' keyed _ step
    obtain ⟨below, apart⟩ := keyed
    rcases step_accounts step with ⟨same, next⟩ | ⟨id, newHash, updated, next⟩ | ⟨email, hash, -, inserted⟩
    · constructor
      · rw [same, next]
        exact below
      · rw [same]
        exact apart
    · have ids : Admin.id ∘ rehash id newHash = Admin.id := funext fun a => rehash_id id newHash a
      constructor
      · intro a member
        rw [updated] at member
        obtain ⟨b, inside, rfl⟩ := List.mem_map.mp member
        rw [next, rehash_id]
        exact below b inside
      · rw [updated, List.map_map, ids]
        exact apart
    · rw [inserted]
      constructor
      · intro a member
        cases List.mem_append.mp member with
        | inl old =>
          have before := below a old
          simp only [DeployWorld.withAdmin]
          omega
        | inr new =>
          rw [List.mem_singleton.mp new]
          simp only [DeployWorld.withAdmin]
          omega
      · have fresh : s.world.nextAdmin ∉ s.world.admins.map Admin.id := by
          intro member
          obtain ⟨a, inside, same⟩ := List.mem_map.mp member
          have before := below a inside
          omega
        have added : (s.world.withAdmin email hash).admins.map Admin.id =
            s.world.admins.map Admin.id ++ [s.world.nextAdmin] := by
          simp [DeployWorld.withAdmin, DeployWorld.admins]
        rw [added]
        exact List.Nodup.append apart (List.nodup_singleton _) (by simpa using fresh)

/- A row is left alone, or its hash is replaced. -/
theorem kept_step (step : Step (deployment cfg) s l s') {a : Admin} (kept : Kept s a) : Kept s' a := by
  obtain ⟨b, member, same_id, same_email⟩ := kept
  rcases step_accounts step with ⟨same, -⟩ | ⟨id, newHash, updated, -⟩ | ⟨email, hash, -, inserted⟩
  · exact ⟨b, by rw [same]; exact member, same_id, same_email⟩
  · refine ⟨rehash id newHash b, ?_, by simpa using same_id, by simpa using same_email⟩
    rw [updated]
    exact List.mem_map_of_mem member
  · refine ⟨b, ?_, same_id, same_email⟩
    rw [inserted]
    exact List.mem_append_left _ member

theorem seeded_step (step : Step (deployment cfg) s l s') {email hash : Str} (seeded : Seeded s email hash) :
    Seeded s' email hash := by
  obtain ⟨job, member, password, started, made⟩ := seeded
  obtain ⟨job', member', req, added, past⟩ := member_kept step member
  exact ⟨job', member', password, req.trans started, by rw [past]; exact List.mem_append_right _ made⟩

theorem replaces_step (step : Step (deployment cfg) s l s') {id : Int} {hash newHash : Str}
    (replaces : Replaces cfg s id hash newHash) : Replaces cfg s' id hash newHash := by
  obtain ⟨job, member, req, own, later, started, own_past, shown⟩ := replaces
  obtain ⟨job', member', same_req, added, past⟩ := member_kept step member
  refine ⟨job', member', req, own, added ++ later, same_req.trans started, ?_, shown⟩
  rw [past, own_past, List.append_assoc]

theorem descends_step (step : Step (deployment cfg) s l s') {a : Admin} (descends : Descends cfg s a) :
    Descends cfg s' a := by
  obtain ⟨first, seeded, chain⟩ := descends
  exact ⟨first, seeded_step step seeded, chain.lift (fun hash => hash) fun _ _ => replaces_step step⟩

/-- What holds of each account that is in the table or has been read of it. -/
def Accounted (cfg : DeployConfig) (s : Fleet) (a : Admin) : Prop := Kept s a ∧ Descends cfg s a

/- A replacement is shown for the row that was read: it has the id, so it has the email. -/
theorem replaced_descends (keyed : Keyed s.world) {job : FleetJob} (member : job ∈ s.jobs)
    {req : AdminCall} {own : AdminHistory} (started : job.req = .call req)
    (own_past : job.past = own.map carried) {id : Int} {hash newHash : Str}
    (shown : Shown cfg.admin req own id hash newHash)
    (answers : ∀ a, (⟨.getByID id, .ok a⟩ : Exchange AdminCmd AdminReply) ∈ own → a.id = id)
    (in_past : ∀ a, (⟨.getByID id, .ok a⟩ : Exchange AdminCmd AdminReply) ∈ own → Accounted cfg s a)
    {a : Admin} (in_table : a ∈ s.world.admins) (mine : a.id = id) :
    Descends cfg s { a with passwordHash := newHash } := by
  have replaces : Replaces cfg s id hash newHash :=
    ⟨job, member, req, own, [], started, own_past, shown⟩
  obtain ⟨cookie, body, claims, admin, -, -, -, read, of_hash, -⟩ := shown
  have same_id := answers admin read
  obtain ⟨⟨b, in_b, b_id, b_email⟩, first, seeded, chain⟩ := in_past admin read
  have same_row : b = a :=
    List.inj_on_of_nodup_map keyed.2 in_b in_table (by rw [b_id, same_id, mine])
  rw [same_id, of_hash] at chain
  rw [← b_email, same_row] at seeded
  refine ⟨first, seeded, ?_⟩
  change Relation.ReflTransGen (Replaces cfg s a.id) first newHash
  rw [mine]
  exact chain.tail replaces

/- What is inserted was made for the instance, and what is replaced was shown. -/
theorem accounts_derive (cfg : DeployConfig) (allow : Fleet → FleetMove → Bool) (w : World) :
    Derives (deployment cfg) allow (unused w) (fun w a => a ∈ w.admins) readsAdmin (Accounted cfg) where
  stable run step fact := ⟨kept_step step fact.1, descends_step step fact.2⟩
  env moved held := by
    rw [(env_accounts moved).1] at held
    exact held
  read performed read := by
    rcases read with ⟨id, same⟩ | ⟨email, same⟩
    · cases same
      exact (@getByID_reads cfg _ _ _ _ _ performed).1
    · cases same
      exact (@getByEmail_reads cfg _ _ _ _ _ performed).1
  write := by
    intro s s' i o w' x job c r next run step at_i waiting performed in_store in_past held
    have member := List.mem_of_getElem? at_i
    have rule := contract_of_job (program_rules cfg) rfl run job member
    rw [waiting, meets_call] at rule
    have kept : s'.world = w' := by
      cases step with
      | run at_i' waiting' performed' =>
        cases at_i.symm.trans at_i'
        cases waiting.symm.trans waiting'
        cases performed.symm.trans performed'
        rfl
    have in_table : Kept s' x := ⟨x, by rw [kept]; exact held, rfl, rfl⟩
    refine ⟨in_table, ?_⟩
    rcases perform_accounts performed with ⟨same, -⟩ | ⟨id, newHash, rfl, updated, -⟩ |
      ⟨email, hash, rfl, -, rfl⟩
    · rw [same] at held
      exact descends_step step (in_store x held).2
    · rw [updated] at held
      obtain ⟨a, in_a, rfl⟩ := List.mem_map.mp held
      unfold rehash
      split
      · rename_i mine
        cases started : job.req with
        | main email password =>
          rw [started] at rule
          obtain ⟨⟨v, other, -⟩, -⟩ := rule
          cases other
        | call req =>
          rw [started] at rule
          obtain ⟨⟨own, own_past, hash, shown⟩, -⟩ := rule
          have read_here : ∀ a, (⟨.getByID id, .ok a⟩ : Exchange AdminCmd AdminReply) ∈ own →
              (⟨.admin (.getByID id), .ok a⟩ : Exchange DeployCmd DeployReply) ∈ job.past := by
            intro a read
            rw [own_past]
            exact List.mem_map_of_mem read
          have answers : ∀ a, (⟨.getByID id, .ok a⟩ : Exchange AdminCmd AdminReply) ∈ own → a.id = id := by
            intro a read
            obtain ⟨u, o', u', asked⟩ := exchange_performed rfl rfl run member (read_here a read)
            exact (@getByID_reads cfg _ _ _ _ _ asked).2
          apply descends_step step
          apply replaced_descends (keyed_of_run w run) member started own_past shown answers ?_ in_a mine
          exact fun a read => in_past _ (read_here a read) a (Or.inl ⟨id, rfl⟩)
      · exact descends_step step (in_store a in_a).2
    · cases List.mem_append.mp held with
      | inl old => exact descends_step step (in_store x old).2
      | inr new =>
        rw [List.mem_singleton.mp new]
        cases started : job.req with
        | main name password =>
          rw [started] at rule
          obtain ⟨⟨rfl, made⟩, -⟩ := rule
          exact ⟨hash, seeded_step step ⟨job, member, password, started, made⟩, .refl⟩
        | call req =>
          rw [started] at rule
          exact rule.1.elim

/- Whatever instances are started and whatever is called, this holds of every account in the table
and of every one that a job has read. -/
theorem accounted_of_run (w : World) (run : Reaches (deployment cfg) allow (unused w) s) :
    (∀ a ∈ s.world.admins, Accounted cfg s a) ∧
      ∀ job ∈ s.jobs, ∀ past ∈ job.past, ∀ a, readsAdmin past a → Accounted cfg s a := by
  have nothing : ∀ a, a ∈ (unused w).world.admins → Accounted cfg (unused w) a := by
    intro a member
    cases member
  exact derived_of_run (accounts_derive cfg allow w) rfl nothing run

/- Every account is that of some instance's default admin, and its hash has come from the seeded one
by replacements, each of them made by a call that was let in as that admin and knew the password of
the hash it had read. -/
theorem password_descends (cfg : DeployConfig) (allow : Fleet → FleetMove → Bool) (w : World)
    (run : Reaches (deployment cfg) allow (unused w) s) {a : Admin} (account : a ∈ s.world.admins) :
    Descends cfg s a :=
  ((accounted_of_run w run).1 a account).2

end Runs

/-- A setup whose tokens and hashes are those of the one with a single admin. -/
def devDeploy : DeployConfig := ⟨devAdmin, fun _ password => some password⟩

def adminEmail : Str := "admin@vote.com".toList

def firstPassword : Str := "first password".toList

def secondPassword : Str := "second password".toList

def running (job n : Nat) : List FleetMove := List.replicate n (.run job {})

/- The instance seeds its admin, who signs in and changes the password. -/
def changedMoves : List FleetMove :=
  .start (.main adminEmail firstPassword) :: running 0 6 ++
    .start (.call (.login (.ok ⟨adminEmail, firstPassword⟩))) :: running 1 3 ++
    .start (.call (.changePassword (some firstToken) (.ok ⟨firstPassword, secondPassword⟩))) :: running 2 4

def anyFleetMove (_ : Fleet) (_ : FleetMove) : Bool := true

def changedFleet : Fleet := after (deployment devDeploy) anyFleetMove (unused twoCandidates.world) changedMoves

theorem changed_password_descends :
    Reaches (deployment devDeploy) anyFleetMove (unused twoCandidates.world) changedFleet ∧
      Descends devDeploy changedFleet ⟨1, adminEmail, secondPassword⟩ := by
  have run : Reaches (deployment devDeploy) anyFleetMove (unused twoCandidates.world) changedFleet :=
    reaches_after (by decide +kernel)
  exact ⟨run, password_descends devDeploy anyFleetMove twoCandidates.world run (by decide +kernel)⟩

end AdminAccounts
