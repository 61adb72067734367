import VotingApp.Lib.Purging
import VotingApp.DomainCache
import VotingApp.Aliases

/-!
One keyspace for everyone. The key builders never meet, so what is stored for one email is
touched by the operations on that email only, and deleting these from a run shows nowhere else.
-/
namespace Isolation
open GoText Tables EffectProgram CallPool Purging ExpiringStore VotingWorld
open WsHub OtpService VotingSettings CustomDomains Handlers VotingServer Footprints Frames OtpRecords
open RedisKeys SettingsCache EmailBlock DomainCache Aliases

/-- The service methods that use Redis. -/
inductive Op where
  | generateAndStore (voterEmail fingerprint : Str) (candidateID : Int) (candidateName : Str)
  | verify (email otp : Str)
  | allow (ip : Str)
  | getStatus
  | isVotingOpen
  | getCustomDomainsOnly
  | updateSettings (isOpen : Bool) (endsAt : Option Nat)
  | updateCustomDomainsOnly (value : Bool)
  | insertDomain (domain : Str)
  | deleteDomain (id : Int)
  | warmCache
  | isDomainAllowed (domain : Str)

def Op.program (cfg : Config) : Op → Act Answer
  | .generateAndStore email fp id name => Answer.error <$> OtpService.generateAndStore email fp id name
  | .verify email otp => Answer.verified <$> OtpService.verify email otp
  | .allow ip => Answer.flag <$> Handlers.allow cfg ip
  | .getStatus => Answer.status <$> VotingSettings.getStatus
  | .isVotingOpen => Answer.flag <$> VotingSettings.isVotingOpen
  | .getCustomDomainsOnly => Answer.flag <$> VotingSettings.getCustomDomainsOnly
  | .updateSettings isOpen endsAt => Answer.error <$> VotingSettings.updateSettings isOpen endsAt
  | .updateCustomDomainsOnly value => Answer.error <$> VotingSettings.updateCustomDomainsOnly value
  | .insertDomain domain => Answer.error <$> CustomDomains.insert domain
  | .deleteDomain id => Answer.error <$> CustomDomains.delete id
  | .warmCache => Answer.error <$> CustomDomains.warmCache
  | .isDomainAllowed domain => Answer.flag <$> CustomDomains.isDomainAllowed cfg.lowerRune domain

/-- The record, the counter and the block of an email. -/
def Codes (email : Str) (k : Key) : Prop := k = .otp email ∨ k = .attempts email ∨ k = .blocked email

/-- The keys an operation may use. -/
def Op.owns : Op → Key → Prop
  | .generateAndStore e _ _ _, k => Codes e k
  | .verify e _, k => Codes e k
  | .allow ip, k => k = .rate ip
  | .insertDomain _, k => k = .domains ∨ k = .warmed
  | .deleteDomain _, k => k = .domains ∨ k = .warmed
  | .warmCache, k => k = .domains ∨ k = .warmed
  | .isDomainAllowed _, k => k = .domains ∨ k = .warmed
  | _, k => k = .settings

/-- The service methods, interleaved in any way. -/
def desk (cfg : Config) : Machine Cmd Reply World Oracle Env Op Answer where
  perform := World.perform
  env := World.env
  program := Op.program cfg
  spawns
    | .goWarmCache => [.warmCache]
    | _ => []

/-- The OTP operations on an email. -/
def concerns (email : Str) : Op → Bool
  | .generateAndStore e _ _ _ => e = email
  | .verify e _ => e = email
  | _ => false

/-- Every key a command names is one of these. -/
def Within (owned : Key → Prop) (c : Cmd) : Prop :=
  ∀ key, Touches key c → ∃ k, owned k ∧ key = k.text

theorem codeKeys_text {e key : Str} (member : key ∈ codeKeys e) : ∃ k, Codes e k ∧ key = k.text := by
  simp only [codeKeys, List.mem_cons, List.not_mem_nil, or_false] at member
  rcases member with is | is | is
  · exact ⟨.otp e, Or.inl rfl, is⟩
  · exact ⟨.attempts e, Or.inr (Or.inl rfl), is⟩
  · exact ⟨.blocked e, Or.inr (Or.inr rfl), is⟩

theorem codes_owner {e f : Str} {k : Key} (left : Codes e k) (right : Codes f k) : e = f := by
  rcases left with is | is | is <;> rcases right with is' | is' | is' <;>
    · rw [is] at is'
      first | exact Key.noConfusion is' | (cases is'; rfl)

theorem within_one {owned : Key → Prop} {c : RedisCmd} {k : Key} (mine : owned k)
    (only : keysOf c = [k.text]) : Within owned (.redis c) := by
  intro key touches
  have member : key ∈ [k.text] := only ▸ touches
  exact ⟨k, mine, List.mem_singleton.mp member⟩

theorem within_none {owned : Key → Prop} {c : Cmd} (keyless : ∀ key, ¬ Touches key c) :
    Within owned c :=
  fun key touches => absurd touches (keyless key)

section Footprint
variable {owned : Key → Prop}

theorem within_codes {e : Str} {c : Cmd} (codes : ∀ key, Touches key c → key ∈ codeKeys e) :
    Within (Codes e) c :=
  fun key touches => codeKeys_text (codes key touches)

theorem within_update (mine : owned .settings) : ∀ c, UpdateCmd c → Within owned c := by
  intro c sent
  cases sent with
  | get => exact within_one mine rfl
  | set raw => exact within_one mine rfl
  | invalidate => exact within_one mine rfl
  | _ => exact within_none fun key touches => touches.elim

theorem within_payload (mine : owned .settings) (c : Cmd) (sent : PayloadCmd c) : Within owned c :=
  within_update mine c (broadcast_update c (payload_broadcast c sent))

theorem within_status (mine : owned .settings) (c : Cmd) (sent : StatusCmd c) : Within owned c :=
  within_payload mine c (status_payload c sent)

theorem within_domain (mine : owned .domains) (mine' : owned .warmed) :
    ∀ c, DomainCmd c → Within owned c := by
  intro c sent
  cases sent with
  | mark => exact within_one mine' rfl
  | add domains => exact within_one mine rfl
  | remove domain => exact within_one mine rfl
  | drop => exact within_one mine rfl
  | _ => exact within_none fun key touches => touches.elim

theorem isDomainAllowed_within (mine : owned .domains) (mine' : owned .warmed)
    (lowerRune : Char → Char) (domain : Str) :
    (isDomainAllowed lowerRune domain).Issues (Within owned) := by
  have fallBack : ∀ d, (fallBackToDB d).Issues (Within owned) := by
    intro d
    apply issues_sql (within_none fun key touches => touches.elim)
    intro r
    cases r with
    | error err => trivial
    | ok count => exact issues_issue (within_none fun key touches => touches.elim) fun _ => trivial
  apply issues_redis (within_one mine' rfl)
  intro r
  cases r with
  | error err => exact fallBack _
  | ok warmed =>
    dsimp only
    split
    · exact fallBack _
    · exact ⟨within_one mine rfl, fun _ => trivial⟩

theorem allow_within {ip : Str} (mine : owned (.rate ip)) (cfg : Config) :
    (allow cfg ip).Issues (Within owned) := by
  apply issues_redis (within_one mine rfl)
  intro r
  cases r with
  | error err => trivial
  | ok count =>
    dsimp only
    split
    · exact issues_redis (within_one mine rfl) fun _ => trivial
    · trivial

end Footprint

/- No operation reads, writes or expires any key but its own. -/
theorem op_within (cfg : Config) (op : Op) : (op.program cfg).Issues (Within op.owns) := by
  cases op with
  | generateAndStore e fp id name =>
    exact issues_map _ (issues_mono (generateAndStore_issues e fp id name) fun c sent =>
      within_codes fun key touches => generate_touches sent touches)
  | verify e otp =>
    exact issues_map _ (issues_mono (verify_issues e otp) fun c sent =>
      within_codes fun key touches => verify_touches sent touches)
  | allow ip =>
    have mine : (Op.allow ip).owns (.rate ip) := rfl
    exact issues_map _ (allow_within mine cfg)
  | getStatus => exact issues_map _ (issues_mono getStatus_issues (within_status rfl))
  | isVotingOpen => exact issues_map _ (issues_mono isVotingOpen_issues (within_payload rfl))
  | getCustomDomainsOnly =>
    have mine : Op.getCustomDomainsOnly.owns .settings := rfl
    apply issues_map
    apply issues_bind (issues_mono getStatus_issues (within_status mine))
    intro r
    cases r <;> trivial
  | updateSettings isOpen endsAt =>
    exact issues_map _ (issues_mono (updateSettings_issues isOpen endsAt) (within_update rfl))
  | updateCustomDomainsOnly value =>
    exact issues_map _ (issues_mono (updateCustomDomainsOnly_issues value) (within_update rfl))
  | insertDomain domain =>
    exact issues_map _ (issues_mono (insert_issues domain) (within_domain (Or.inl rfl) (Or.inr rfl)))
  | deleteDomain id =>
    exact issues_map _ (issues_mono (delete_issues id) (within_domain (Or.inl rfl) (Or.inr rfl)))
  | warmCache =>
    exact issues_map _ (issues_mono warmCache_issues (within_domain (Or.inl rfl) (Or.inr rfl)))
  | isDomainAllowed domain =>
    exact issues_map _ (isDomainAllowed_within (Or.inl rfl) (Or.inr rfl) _ _)

/-- The same to everyone but one email: all but its code keys, and the mails. -/
structure SameBut (email : Str) (w v : World) : Prop where
  clock : w.clock = v.clock
  db : w.db = v.db
  hub : w.hub = v.hub
  redis : ∀ key, key ∉ codeKeys email → w.redis key = v.redis key

/- A Redis command sees and changes only the keys it names. -/
theorem run_alike (c : RedisCmd) {st st' : Store Str Str} (now : Nat)
    (same : ∀ key ∈ keysOf c, st key = st' key) :
    Alike st st' (c.run st now) (c.run st' now) := by
  cases c with
  | «exists» key =>
    have found := lookup_congr (same key (by simp [keysOf])) now
    simp only [RedisCmd.run, Store.present, found]
    exact idle_alike _ st st'
  | get key =>
    have found := lookup_congr (same key (by simp [keysOf])) now
    simp only [RedisCmd.run, Store.get, found]
    exact idle_alike _ st st'
  | set key value ttl => exact put_alike _ st st' key _
  | del keys =>
    obtain ⟨-, agree⟩ := del_alike st st' keys
    exact ⟨rfl, agree⟩
  | incr key =>
    obtain ⟨answer, agree⟩ := incr_alike atoi (same key (by simp [keysOf])) now
    exact ⟨congrArg fromStore answer, agree⟩
  | expire key ttl =>
    obtain ⟨answer, agree⟩ := expire_alike (same key (by simp [keysOf])) now ttl
    exact ⟨congrArg Except.ok answer, agree⟩
  | sadd key members =>
    obtain ⟨answer, agree⟩ := sadd_alike (same key (by simp [keysOf])) now members
    exact ⟨congrArg fromStore answer, agree⟩
  | srem key member =>
    obtain ⟨answer, agree⟩ := srem_alike (same key (by simp [keysOf])) now member
    exact ⟨congrArg fromStore answer, agree⟩
  | sismember key member =>
    have found := setAt_congr (same key (by simp [keysOf])) now
    simp only [RedisCmd.run, Store.sismember, found]
    exact idle_alike _ st st'

theorem faulty_alike {α : Type} (o : Oracle) {st st' : Store Str Str}
    {ran ran' : Except GoErr α × Store Str Str} (alike : Alike st st' ran ran') :
    Alike st st' (faulty o st ran) (faulty o st' ran') := by
  cases fault : o.fault with
  | none =>
    rw [faulty_ok fault, faulty_ok fault]
    exact alike
  | some f =>
    simp only [faulty, fault]
    constructor
    · rfl
    · intro key same
      by_cases applied : f.applied = true
      · simpa [applied] using alike.2 key same
      · simpa [applied] using same

/- Commands on other keys: the same reply, and the same to everyone but the email. -/
theorem perform_open {email : Str} {w v w' : World} {o : Oracle} {c : Cmd} {r : Reply c}
    (other : ∀ key ∈ codeKeys email, ¬ Touches key c) (same : SameBut email w v)
    (performed : w.perform o c = some (r, w')) :
    ∃ v', v.perform o c = some (r, v') ∧ SameBut email w' v' := by
  obtain ⟨clock, db, hub, redis⟩ := same
  cases c with
  | redis c =>
    obtain ⟨answer, reached⟩ := perform_redis performed
    have agree : ∀ key ∈ keysOf c, w.redis key = v.redis key := fun key named =>
      redis key fun member => other key member named
    obtain ⟨reply, kept⟩ := faulty_alike o (run_alike c w.clock agree)
    rw [clock] at reply kept answer reached
    refine ⟨{ v with redis := (faulty o v.redis (c.run v.redis v.clock)).2 }, ?_, ?_⟩
    · rw [answer, reply, World.perform]
    · rw [reached]
      exact ⟨rfl, db, hub, fun key out => kept key (redis key out)⟩
  | sql c =>
    obtain ⟨answer, reached⟩ := perform_sql performed
    rw [db, clock] at answer reached
    refine ⟨{ v with db := (faulty o v.db (c.run v.db v.clock)).2 }, ?_, ?_⟩
    · rw [answer, World.perform]
    · rw [reached]
      exact ⟨rfl, rfl, hub, redis⟩
  | enqueue recipient subject body =>
    simp only [World.perform] at performed ⊢
    split at performed
    · cases performed
      exact ⟨_, rfl, clock, db, hub, redis⟩
    · cases performed
      refine ⟨_, rfl, ?_⟩
      split
      · exact ⟨clock, db, hub, redis⟩
      · exact ⟨clock, db, hub, redis⟩
  | broadcast data =>
    simp only [World.perform, Option.map_eq_some_iff] at performed
    obtain ⟨sent, room, reached⟩ := performed
    cases reached
    rw [hub] at room
    refine ⟨{ v with hub := sent }, ?_, clock, db, rfl, redis⟩
    rw [World.perform, room, Option.map_some]
  | now =>
    cases performed
    exact ⟨v, by rw [World.perform, clock], clock, db, hub, redis⟩
  | register =>
    cases performed
    exact ⟨{ v with hub := v.hub.register }, by rw [World.perform, hub], clock, db,
      congrArg Hub.register hub, redis⟩
  | sendToOne client data =>
    cases performed
    exact ⟨{ v with hub := v.hub.sendToOne client data }, rfl, clock, db,
      congrArg (Hub.sendToOne · client data) hub, redis⟩
  | startPumps client =>
    cases performed
    exact ⟨{ v with hub := v.hub.startPumps client }, rfl, clock, db,
      congrArg (Hub.startPumps · client) hub, redis⟩
  | _ =>
    cases performed
    exact ⟨v, rfl, clock, db, hub, redis⟩

theorem written_named {c : Cmd} {key : Str} (writes : WritesKey key c) : Touches key c := by
  cases c with
  | redis c =>
    cases c <;> first | exact writes | exact absurd writes List.not_mem_nil
  | _ => exact writes.elim

/-- What the OTP operations on an email send. -/
def OtpCmd (email : Str) (c : Cmd) : Prop := GenerateCmd email c ∨ VerifyCmd email c

theorem otp_touches {email key : Str} {c : Cmd} (sent : OtpCmd email c) (touches : Touches key c) :
    key ∈ codeKeys email := by
  rcases sent with generates | verifies
  · exact generate_touches generates touches
  · exact verify_touches verifies touches

theorem quiet_rest {email : Str} {w w' : World} {o : Oracle} {c : Cmd} {r : Reply c}
    (sent : OtpCmd email c) (performed : w.perform o c = some (r, w')) :
    w'.clock = w.clock ∧ w'.db = w.db ∧ w'.hub = w.hub := by
  cases c with
  | redis c =>
    obtain ⟨-, reached⟩ := perform_redis performed
    rw [reached]
    exact ⟨rfl, rfl, rfl⟩
  | randInt =>
    cases performed
    exact ⟨rfl, rfl, rfl⟩
  | enqueue recipient subject body =>
    simp only [World.perform] at performed
    split at performed
    · cases performed
      exact ⟨rfl, rfl, rfl⟩
    · cases performed
      split <;> exact ⟨rfl, rfl, rfl⟩
  | _ => rcases sent with sent | sent <;> cases sent

/- Their commands change nothing but the code keys of the email, and the mails. -/
theorem perform_quiet {email : Str} {w v w' : World} {o : Oracle} {c : Cmd} {r : Reply c}
    (sent : OtpCmd email c) (same : SameBut email w v)
    (performed : w.perform o c = some (r, w')) : SameBut email w' v := by
  have redis : ∀ key, key ∉ codeKeys email → w'.redis key = v.redis key := by
    intro key out
    rw [← same.redis key out]
    exact key_frame (fun writes => out (otp_touches sent (written_named writes))) performed
  have rest := quiet_rest sent performed
  obtain ⟨clock, db, hub⟩ := rest
  exact ⟨clock.trans same.clock, db.trans same.db, hub.trans same.hub, redis⟩

theorem env_same {email : Str} {w v w' : World} {e : Env} (same : SameBut email w v)
    (moved : w.env e = some w') : ∃ v', v.env e = some v' ∧ SameBut email w' v' := by
  obtain ⟨clock, db, hub, redis⟩ := same
  cases e with
  | tick d =>
    cases moved
    exact ⟨{ v with clock := v.clock + d }, rfl, congrArg (· + d) clock, db, hub, redis⟩
  | _ =>
    simp only [World.env, Option.map_eq_some_iff] at moved
    obtain ⟨next, stepped, reached⟩ := moved
    cases reached
    rw [hub] at stepped
    exact ⟨{ v with hub := next }, by rw [World.env, stepped, Option.map_some], clock, db, rfl, redis⟩

/- Operations on other emails and of other kinds keep away from the keys of this one. -/
theorem op_open {email : Str} {op : Op} (other : concerns email op = false) {c : Cmd}
    (sent : Within op.owns c) : ∀ key ∈ codeKeys email, ¬ Touches key c := by
  intro key member touches
  obtain ⟨k, mine, is⟩ := sent key touches
  obtain ⟨k', codes, is'⟩ := codeKeys_text member
  have same : k = k' := text_injective (is.symm.trans is')
  rw [same] at mine
  cases op with
  | generateAndStore e fp id name =>
    rw [codes_owner mine codes] at other
    simp [concerns] at other
  | verify e otp =>
    rw [codes_owner mine codes] at other
    simp [concerns] at other
  | _ => rcases codes with rfl | rfl | rfl <;> simp [Op.owns] at mine

theorem desk_unseen (cfg : Config) (email : Str) :
    Unseen (desk cfg) (concerns email) (SameBut email) (OtpCmd email)
      (fun c => ∀ key ∈ codeKeys email, ¬ Touches key c) where
  issues op := by
    by_cases is : concerns email op = true
    · cases op with
      | generateAndStore e fp id name =>
        have mine : e = email := by simpa [concerns] using is
        apply issues_map
        apply issues_mono (generateAndStore_issues e fp id name)
        intro c sent
        rw [Sends, if_pos is]
        exact Or.inl (mine ▸ sent)
      | verify e otp =>
        have mine : e = email := by simpa [concerns] using is
        apply issues_map
        apply issues_mono (verify_issues e otp)
        intro c sent
        rw [Sends, if_pos is]
        exact Or.inr (mine ▸ sent)
      | _ => cases is
    · apply issues_mono (op_within cfg op)
      intro c sent
      rw [Sends, if_neg is]
      exact op_open (Bool.eq_false_iff.mpr is) sent
  quiet_spawns c sent := by
    rcases sent with sent | sent <;> cases sent <;> rfl
  open_spawns c _ op spawned := by
    cases c with
    | goWarmCache =>
      have only : op = .warmCache := List.mem_singleton.mp spawned
      rw [only]
      rfl
    | _ => exact absurd spawned List.not_mem_nil
  quiet_step := perform_quiet
  open_step := perform_open
  env_step := env_same

/- Deleting the OTP operations on an email from a run leaves every other operation with the
   same replies and the same answer, because no two keys are spelled the same and every
   operation keeps to its own. -/
theorem voters_isolated (cfg : Config) :
    (∀ email w ls s, exec (desk cfg) free { world := w } ls = some s → ∃ t,
      exec (desk cfg) free { world := w } (purge (desk cfg) (concerns email) { world := w } ls) =
        some t ∧ t.jobs = s.jobs.filter (isShown (concerns email))) ∧
    Function.Injective Key.text ∧
    ∀ op : Op, (op.program cfg).Issues (Within op.owns) := by
  constructor
  · intro email w ls s run
    have start : Purged (concerns email) (SameBut email) (OtpCmd email)
        (fun c => ∀ key ∈ codeKeys email, ¬ Touches key c)
        ({ world := w } : Pool Cmd Reply World Oracle Op Answer) { world := w } :=
      ⟨⟨rfl, rfl, rfl, fun _ _ => rfl⟩, rfl, fun job member => absurd member List.not_mem_nil⟩
    obtain ⟨t, run', purged⟩ := exec_purged (desk_unseen cfg email) start run
    exact ⟨t, run', purged.jobs⟩
  · exact ⟨text_injective, op_within cfg⟩

/- Two voters ask for codes at the same time, one of them with a colon in the address. -/
def twoVoters : List (Label Oracle Env Op) :=
  [.start (.generateAndStore "a@x.de".toList "phone".toList 1 "Ann".toList),
    .start (.generateAndStore ":a@x.de".toList "laptop".toList 2 "Bob".toList),
    .run 1 {}, .run 0 { draw := 7 }, .run 0 {}, .run 1 {}, .run 1 {}, .run 0 {}, .env (.tick 3),
    .run 0 {}, .run 1 {}]

/- The one with the colon has no part in the result of the other. -/
theorem voters_isolated_two : ∃ t,
    exec (desk devConfig) free { world := twoCandidates.world } (purge (desk devConfig)
      (concerns ":a@x.de".toList) { world := twoCandidates.world } twoVoters) = some t ∧
      t.jobs.map (fun job => job.past.length) = [4] := by
  have runs : (exec (desk devConfig) free { world := twoCandidates.world } twoVoters).isSome = true := by
    decide +kernel
  obtain ⟨s, run⟩ := Option.isSome_iff_exists.mp runs
  obtain ⟨t, run', same⟩ := (voters_isolated devConfig).1 ":a@x.de".toList _ _ s run
  have steps : (exec (desk devConfig) free { world := twoCandidates.world } twoVoters).map
      (fun s => (s.jobs.filter (isShown (concerns ":a@x.de".toList))).map
        fun job => job.past.length) = some [4] := by decide +kernel
  rw [run, Option.map_some, Option.some.injEq] at steps
  exact ⟨t, run', by rw [same]; exact steps⟩

end Isolation
