import VotingApp.AdminSessions

/-!
SeedDefaultAdmin run by any number of instances at once: between its COUNT and its INSERT another
instance can insert the same admin, and the key on the email stops the second one.
-/
namespace DefaultAdmin
open GoText Tables EffectProgram Embedding CallPool PoolHistory Credentials VotingWorld
open Frames AdminServer Deployment AdminAccounts AdminAuth

/-- Every instance is started with this email, and a password of its own. -/
def startedWith (email : Str) (_ : Fleet) : FleetMove → Bool
  | .start (.main name _) => name = email
  | _ => true

section Runs
variable {cfg : DeployConfig} {email : Str} {s s' : Fleet}

theorem started_of_run (w : World) (run : Reaches (deployment cfg) (startedWith email) (unused w) s) :
    ∀ job ∈ s.jobs, ∀ name password, job.req = .main name password → name = email := by
  refine reaches_inv (I := fun s => ∀ job ∈ s.jobs, ∀ name password,
    job.req = .main name password → name = email) ?_ ?_ run
  · intro job member
    cases member
  · intro s l s' held allowed step job member name password is_main
    rcases request_of_step step member with ⟨old, in_old, same⟩ | started | ⟨c, begun⟩
    · exact held old in_old name password (same.trans is_main)
    · rw [started, is_main] at allowed
      exact of_decide_eq_true allowed
    · rw [is_main] at begun
      cases c with
      | admin c =>
        obtain ⟨req, -, other⟩ := List.mem_map.mp begun
        cases other
      | _ => cases begun

/- An instance inserts the email that it was started with. -/
theorem inserts_email {req : DeployCall} {past : DeployHistory} {name hash : Str}
    (started : ∀ first password, req = .main first password → first = email)
    (rule : DeployRule cfg req past (.insertAdmin name hash)) : name = email := by
  cases req with
  | main first password =>
    rw [rule.1]
    exact started first password rfl
  | call req => exact rule.elim

/- A row is inserted only into a table that has none. -/
theorem at_most_one (self_same : cfg.admin.sameEmail email email = true) (w : World)
    (run : Reaches (deployment cfg) (startedWith email) (unused w) s) :
    s.world.admins.length ≤ 1 ∧ ∀ a ∈ s.world.admins, a.email = email := by
  induction run with
  | refl => exact ⟨Nat.zero_le _, fun a member => by cases member⟩
  | @tail t t' l run allowed step ih =>
    obtain ⟨short, named⟩ := ih
    have taken := step_sound step
    cases taken with
    | start req => exact ⟨short, named⟩
    | env moved =>
      rw [(env_accounts moved).1]
      exact ⟨short, named⟩
    | @run i o job c next r w' at_i waiting performed =>
      change w'.admins.length ≤ 1 ∧ ∀ a ∈ w'.admins, a.email = email
      rcases perform_accounts performed with ⟨same, -⟩ | ⟨id, newHash, -, updated, -⟩ |
        ⟨name, hash, rfl, unique, rfl⟩
      · rw [same]
        exact ⟨short, named⟩
      · rw [updated]
        refine ⟨by simpa using short, ?_⟩
        intro a member
        obtain ⟨b, inside, rfl⟩ := List.mem_map.mp member
        rw [rehash_email]
        exact named b inside
      · have member := List.mem_of_getElem? at_i
        have rule := contract_of_job (program_rules cfg) rfl run job member
        rw [waiting, meets_call] at rule
        have is_email : name = email := inserts_email (started_of_run w run job member) rule.1
        have nobody : t.world.admins = [] := by
          cases rows : t.world.admins with
          | nil => rfl
          | cons a rest =>
            rw [rows] at unique named
            have mine := named a List.mem_cons_self
            rw [List.any_cons, mine, is_email, self_same] at unique
            cases unique
        have added : (t.world.withAdmin name hash).admins = [⟨t.world.nextAdmin, name, hash⟩] := by
          rw [DeployWorld.withAdmin, nobody]
          rfl
        rw [added]
        refine ⟨Nat.le_refl _, ?_⟩
        intro a new
        rw [List.mem_singleton.mp new]
        exact is_email

/- No step removes an account. -/
theorem accounts_grow {allow : Fleet → FleetMove → Bool} (run : Reaches (deployment cfg) allow s s') :
    s.world.admins.length ≤ s'.world.admins.length := by
  refine reaches_inv (I := fun t => s.world.admins.length ≤ t.world.admins.length) (Nat.le_refl _) ?_ run
  intro t l t' held allowed step
  rcases step_accounts step with ⟨same, -⟩ | ⟨id, newHash, updated, -⟩ | ⟨email, hash, -, inserted⟩
  · rw [same]
    exact held
  · rw [updated, List.length_map]
    exact held
  · rw [inserted]
    simp only [DeployWorld.withAdmin, DeployWorld.admins, List.length_append, List.length_singleton] at held ⊢
    omega

/- An account that was there when a job asked is there still. -/
theorem account_since {allow : Fleet → FleetMove → Bool} (w : World)
    (run : Reaches (deployment cfg) allow (unused w) s) {job : FleetJob} (member : job ∈ s.jobs)
    {x : Exchange DeployCmd DeployReply} (inside : x ∈ job.past)
    (shows : ∀ w o w', DeployWorld.perform cfg w o x.cmd = some (x.reply, w') → 0 < w'.admins.length) :
    0 < s.world.admins.length := by
  obtain ⟨w', o, t, performed, later⟩ := exchange_left rfl rfl run member inside
  exact Nat.lt_of_lt_of_le (shows _ _ _ performed) (accounts_grow later)

theorem counted_some {w w' : DeployWorld} {o : Oracle} {n : Int} (positive : 0 < n)
    (performed : w.perform cfg o .countAdmins = some (.ok n, w')) : 0 < w'.admins.length := by
  obtain ⟨answer, same⟩ := Prod.mk.inj (Option.some.inj performed)
  have counted : (w.admins.length : Int) = n := Except.ok.inj (faulty_ok answer)
  rw [← same]
  omega

theorem inserted_some {w w' : DeployWorld} {o : Oracle} {name hash : Str}
    (performed : w.perform cfg o (.insertAdmin name hash) = some (.ok (), w')) : 0 < w'.admins.length := by
  have ran : faulty o w (w.insertAdmin cfg name hash) = (.ok (), w') := Option.some.inj performed
  have inserts : w.insertAdmin cfg name hash = (.ok (), w') := by
    unfold faulty at ran
    split at ran
    · exact ran
    · cases ran
  unfold DeployWorld.insertAdmin at inserts
  split at inserts
  · cases inserts
  · split at inserts
    · cases inserts
    · split at inserts
      · cases inserts
      · cases inserts
        simp [DeployWorld.withAdmin, DeployWorld.admins]

/- An INSERT has been answered with an error. -/
def Refused (past : DeployHistory) : Prop := ∃ name hash err,
  (⟨.insertAdmin name hash, .error err⟩ : Exchange DeployCmd DeployReply) ∈ past

theorem admin_unrefused {past now : DeployHistory} (unrefused : ¬ Refused past)
    (grown : Grown (fun c => ∃ c', c = DeployCmd.admin c') past now) : ¬ Refused now := by
  obtain ⟨added, rfl, own⟩ := grown
  rintro ⟨name, hash, err, member⟩
  rcases List.mem_append.mp member with new | old
  · obtain ⟨c', same⟩ := own _ new
    cases same
  · exact unrefused ⟨name, hash, err, old⟩

/- Commands of the admin server go on as long as no INSERT has been refused. -/
theorem served_unrefused {α : Type} (p : AdminAct α) {past : DeployHistory} (unrefused : ¬ Refused past) :
    (served p).Meets (fun past _ => ¬ Refused past) (fun past _ => ¬ Refused past) past := by
  have sends : (served p).Issues fun c => ∃ c', c = DeployCmd.admin c' := embed_issues p
  have kept : (served p).Meets (fun now _ => ¬ Refused now) _ past :=
    meets_of_issues sends fun now c grown _ => admin_unrefused unrefused grown
  exact meets_mono kept (fun _ _ unrefused => unrefused) fun _ _ grown => admin_unrefused unrefused grown

theorem seed_panics (name password : Str) : (seedDefaultAdmin name password).Meets
    (fun past _ => ¬ Refused past) (fun past o => Refused past → o = .panicked) [] := by
  refine issue_meets (by rintro ⟨_, _, _, member⟩; cases member) ?_
  intro count
  cases count with
  | error err => exact fun _ => rfl
  | ok count =>
    dsimp only
    split
    · rintro ⟨_, _, _, member⟩
      cases List.mem_singleton.mp member
    · refine issue_meets ?_ ?_
      · rintro ⟨_, _, _, member⟩
        cases List.mem_singleton.mp member
      · intro made
        cases made with
        | none => exact fun _ => rfl
        | some hash =>
          refine issue_meets ?_ ?_
          · rintro ⟨_, _, _, member⟩
            simp at member
          · intro inserted
            cases inserted with
            | error err => exact fun _ => rfl
            | ok done =>
              rintro ⟨_, _, _, member⟩
              simp at member

/- A refused INSERT is the last thing that an instance does: it panics. -/
theorem refused_panics (cfg : DeployConfig) (req : DeployCall) : (Deployment.program cfg req).Meets
    (fun past _ => ¬ Refused past) (fun past a => Refused past → a = .listens .panicked) [] := by
  cases req with
  | main name password =>
    have starts : (Deployment.main name password).Meets (fun past _ => ¬ Refused past)
        (fun past o => Refused past → o = .panicked) [] := by
      apply meets_bind (seed_panics name password)
      intro past o panics
      cases o with
      | panicked => exact fun _ => rfl
      | returned =>
        have unrefused : ¬ Refused past := by
          intro refused
          cases panics refused
        apply meets_bind (served_unrefused _ unrefused)
        exact fun now _ still refused => absurd refused still
    apply meets_bind starts
    intro past o panics refused
    rw [panics refused]
  | call req =>
    have nothing : ¬ Refused [] := by
      rintro ⟨_, _, _, member⟩
      cases member
    apply meets_bind (served_unrefused _ nothing)
    exact fun now _ still refused => absurd refused still

/- What is in the table fitted its column. -/
theorem emails_fit (w : World) {allow : Fleet → FleetMove → Bool}
    (run : Reaches (deployment cfg) allow (unused w) s) : ∀ a ∈ s.world.admins, a.email.length ≤ 255 := by
  refine reaches_inv (I := fun t => ∀ a ∈ t.world.admins, a.email.length ≤ 255) ?_ ?_ run
  · intro a member
    cases member
  · intro t l t' fit allowed step
    cases step with
    | start req => exact fit
    | env moved =>
      rw [(env_accounts moved).1]
      exact fit
    | @run i o job c next r w' at_i waiting performed =>
      change ∀ a ∈ w'.admins, a.email.length ≤ 255
      rcases perform_accounts performed with ⟨same, -⟩ | ⟨id, newHash, -, updated, -⟩ |
        ⟨name, hash, rfl, unique, rfl⟩
      · rw [same]
        exact fit
      · rw [updated]
        intro a member
        obtain ⟨b, inside, rfl⟩ := List.mem_map.mp member
        rw [rehash_email]
        exact fit b inside
      · intro a member
        rcases List.mem_append.mp member with old | new
        · exact fit a old
        · rw [List.mem_singleton.mp new]
          by_contra long
          have left : (faulty o t.world (t.world.insertAdmin cfg name hash)).2 = t.world.withAdmin name hash :=
            congrArg Prod.snd (Option.some.inj performed)
          rw [DeployWorld.insertAdmin, if_pos (Nat.lt_of_not_le long)] at left
          have same : t.world = t.world.withAdmin name hash := by
            rcases faulty_state (o := o) t.world
                ((.error (dataTooLong "email") : Except GoErr Unit), t.world) with took | lost
            · exact took.symm.trans left
            · exact lost.symm.trans left
          have counter := congrArg DeployWorld.nextAdmin same
          change t.world.nextAdmin = t.world.nextAdmin + 1 at counter
          omega

/-- An INSERT is refused, on the key of the email unless the connection fails or the hash is too long; it
leaves the database as it was, and the instance has panicked. -/
structure LosesRace (s : Fleet) (ev : Event DeployCmd DeployReply DeployWorld Oracle) (email hash : Str) :
    Prop where
  refused : ∃ err, ev.exchange = ⟨.insertAdmin email hash, .error err⟩ ∧
    (ev.oracle.fault = none → hash.length ≤ 255 → err = duplicateEntry email "email")
  untouched : ev.after = ev.before
  panicked : ∃ job, s.jobs[ev.caller]? = some job ∧ job.rest = .done (.listens .panicked)

theorem taken_refused {w : DeployWorld} {name : Str} (hash : Str) (fits : name.length ≤ 255)
    (taken : (w.admins.any fun a => cfg.admin.sameEmail a.email name) = true) :
    ∃ err, w.insertAdmin cfg name hash = (.error err, w) ∧
      (hash.length ≤ 255 → err = duplicateEntry name "email") := by
  rw [DeployWorld.insertAdmin, if_neg (Nat.not_lt.mpr fits), if_pos taken]
  split
  · rename_i long
    exact ⟨_, rfl, fun short => by omega⟩
  · exact ⟨_, rfl, fun _ => rfl⟩

/- A statement that is refused changes nothing, whether its answer gets through or not. -/
theorem refused_anyway {α σ : Type} {o : Oracle} {before after : σ} {err : GoErr} {reply : Except GoErr α}
    (performed : faulty o before (.error err, before) = (reply, after)) :
    ∃ err', reply = .error err' ∧ (o.fault = none → err' = err) ∧ after = before := by
  cases fault : o.fault with
  | none =>
    rw [Frames.faulty_ok fault] at performed
    obtain ⟨rfl, rfl⟩ := Prod.mk.inj performed
    exact ⟨err, rfl, fun _ => rfl, rfl⟩
  | some f =>
    obtain ⟨same, left⟩ := Prod.mk.inj performed
    simp only [fault] at same left
    refine ⟨_, same.symm, by simp, ?_⟩
    rw [← left]
    split <;> rfl

theorem race_lost (self_same : cfg.admin.sameEmail email email = true) (w : World)
    (run : Reaches (deployment cfg) (startedWith email) (unused w) s)
    {ev : Event DeployCmd DeployReply DeployWorld Oracle} (logged : ev ∈ s.log) {name hash : Str}
    (inserts : ev.cmd = .insertAdmin name hash) (seeded : ev.before.admins ≠ []) :
    LosesRace s ev email hash := by
  obtain ⟨late, older, split⟩ := List.append_of_mem logged
  obtain ⟨moment⟩ := moment_of_logged rfl run split
  obtain ⟨job, at_job, rule⟩ := contract_of_logged (program_rules cfg) rfl rfl run split
  rw [inserts] at rule
  obtain rfl := inserts_email (started_of_run w run job (List.mem_of_getElem? at_job)) rule
  obtain ⟨-, named⟩ := at_most_one self_same w moment.reached
  have fit := emails_fit w moment.reached
  rw [moment.pre_world] at named fit
  obtain ⟨a, rest, rows⟩ := List.exists_cons_of_ne_nil seeded
  have there : a ∈ ev.before.admins := by simp [rows]
  have taken : (ev.before.admins.any fun a => cfg.admin.sameEmail a.email name) = true :=
    List.any_eq_true.mpr ⟨a, there, by rw [named a there]; exact self_same⟩
  have short : name.length ≤ 255 := by
    rw [← named a there]
    exact fit a there
  obtain ⟨err, refusal, on_key⟩ := taken_refused hash short taken
  obtain ⟨caller, oracle, cmd, reply, before, after⟩ := ev
  dsimp only at inserts refusal on_key
  subst inserts
  have performed : faulty oracle before (before.insertAdmin cfg name hash) = (reply, after) :=
    Option.some.inj moment.performed
  rw [refusal] at performed
  obtain ⟨err', rfl, plain, rfl⟩ := refused_anyway performed
  have ends := contract_of_job (refused_panics cfg) rfl run job (List.mem_of_getElem? at_job)
  have refused : Refused job.past := by
    rw [past_of_job rfl rfl run at_job]
    exact ⟨name, hash, err', mem_own.mpr ⟨_, logged, rfl, rfl⟩⟩
  refine ⟨⟨err', rfl, fun healthy hash_fits => (plain healthy).trans (on_key hash_fits)⟩, rfl, job, at_job, ?_⟩
  cases rest : job.rest with
  | done answer =>
    rw [rest, meets_done] at ends
    rw [ends refused]
  | call c next =>
    rw [rest, meets_call] at ends
    exact absurd refused ends.1

/- However many instances are started and whatever they are asked meanwhile, there is at most one
account; once an instance listens there is exactly one; and an instance that inserts when there is one
loses the race: its INSERT is refused on the key, and it panics. -/
theorem seeded_once (cfg : DeployConfig) (self_same : cfg.admin.sameEmail email email = true) (w : World)
    (run : Reaches (deployment cfg) (startedWith email) (unused w) s) :
    s.world.admins.length ≤ 1 ∧
      (∀ job ∈ s.jobs, job.rest = .done (.listens .returned) →
        ∃ a, s.world.admins = [a] ∧ a.email = email) ∧
      ∀ ev ∈ s.log, ∀ name hash, ev.cmd = .insertAdmin name hash → ev.before.admins ≠ [] →
        LosesRace s ev email hash := by
  obtain ⟨short, named⟩ := at_most_one self_same w run
  refine ⟨short, ?_, fun ev logged name hash inserts seeded => race_lost self_same w run logged inserts seeded⟩
  intro job member listens
  have ends := contract_of_job (program_rules cfg) rfl run job member
  rw [listens, meets_done] at ends
  have some_account : 0 < s.world.admins.length := by
    cases started : job.req with
    | call req =>
      rw [started] at ends
      exact ends.elim
    | main name password =>
      rw [started] at ends
      rcases ends with ⟨n, positive, counted⟩ | ⟨hash, inserted⟩
      · exact account_since w run member counted fun _ _ _ performed => counted_some positive performed
      · exact account_since w run member inserted fun _ _ _ performed => inserted_some performed
  obtain ⟨a, only⟩ := List.length_eq_one_iff.mp (Nat.le_antisymm short some_account)
  exact ⟨a, only, named a (by rw [only]; exact List.mem_singleton_self a)⟩

end Runs

def outcomeOf : DeployAnswer → Option Outcome
  | .listens o => some o
  | .answered _ => none

/- Two instances count before either inserts, and the second one panics. -/
def racing : List FleetMove :=
  [.start (.main adminEmail firstPassword), .start (.main adminEmail secondPassword)] ++ running 0 1 ++
    running 1 2 ++ running 0 5 ++ running 1 1

def racedFleet : Fleet :=
  after (deployment devDeploy) (startedWith adminEmail) (unused twoCandidates.world) racing

theorem raced_once : HandedOut outcomeOf racedFleet .panicked ∧ HandedOut outcomeOf racedFleet .returned ∧
    ∃ a, racedFleet.world.admins = [a] ∧ a.email = adminEmail := by
  have run : Reaches (deployment devDeploy) (startedWith adminEmail) (unused twoCandidates.world) racedFleet :=
    reaches_after (by decide +kernel)
  have panics : HandedOut outcomeOf racedFleet .panicked := handsOut_iff.mp (by decide +kernel)
  have listens : HandedOut outcomeOf racedFleet .returned := handsOut_iff.mp (by decide +kernel)
  refine ⟨panics, listens, ?_⟩
  obtain ⟨job, member, answer, ended, outcome⟩ := listens
  cases answer with
  | answered a => cases outcome
  | listens o =>
    cases outcome
    exact (seeded_once devDeploy (by decide) twoCandidates.world run).2.1 job member ended

end DefaultAdmin
