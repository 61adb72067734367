import VotingApp.EmailBlock

/-!
The Redis set in front of the custom_email_domains table. A call that has changed the table,
or has read it for a rebuild, writes to the set in a later command. When two of them cross
over one domain, the set is left with what the table no longer holds.
-/
namespace DomainCache
open GoText GoTime JsonText Tables EffectProgram CallPool PoolHistory ExpiringStore VotingWorld
open OtpService VotingSettings VoteService CustomDomains Handlers VotingServer
open Footprints Frames TableInvariants OtpRecords EmailBlock SettingsCache

/-- A server that comes up over sound tables with an empty Redis. -/
structure Restart where
  world : World
  sound : Sound world.db
  cold : world.redis = fun _ => none

def Restart.start (boot : Restart) : State := { world := boot.world }

def freshBoot (seed : Seed) : Restart where
  world := seed.world
  sound := seed_sound seed
  cold := rfl

/-- What isDomainAllowedFromDB asks of the table. -/
def listed (domain : Str) (db : Db) : Bool := db.customDomains.any fun row => row.domain = domain

def inCache (domain : Str) (w : World) : Bool := domain ∈ w.redis.members customDomainsRedisKey

/- The command that a call owes the set after its last command. -/
def Owed : History → Option Cmd
  | ⟨.sql (.insertDomain domain), .ok _⟩ :: _ =>
    some (.redis (.sadd customDomainsRedisKey [domain]))
  | ⟨.sql (.deleteDomain _), .ok rows⟩ :: ⟨.sql (.domainById _), .ok domain⟩ :: _ =>
    if rows = 0 then none else some (.redis (.srem customDomainsRedisKey domain))
  | ⟨.redis (.del keys), _⟩ :: ⟨.sql .allDomains, .ok rows⟩ :: _ =>
    if keys = [customDomainsRedisKey] ∧ rows ≠ [] then
      some (.redis (.sadd customDomainsRedisKey (rows.map CustomDomain.domain)))
    else none
  | _ => none

/- The set only gets what is owed to it, and a rebuild drops it after its SELECT. -/
def SetRule (past : History) : Cmd → Prop
  | .redis (.sadd key members) => Owed past = some (.redis (.sadd key members))
  | .redis (.srem key member) => Owed past = some (.redis (.srem key member))
  | .redis (.del keys) => customDomainsRedisKey ∈ keys →
      keys = [customDomainsRedisKey] ∧ ∃ rows rest, past = ⟨.sql .allDomains, .ok rows⟩ :: rest
  | .redis (.set key _ ttl) => key ≠ customDomainsRedisKey ∧ (key = customDomainsWarmedRedisKey →
      ttl = 0 ∧ ∃ x ∈ past, x.cmd = .redis (.del [customDomainsRedisKey]))
  | .redis (.incr key) => key ≠ customDomainsRedisKey ∧ key ≠ customDomainsWarmedRedisKey
  | .redis (.expire key _) => key ≠ customDomainsRedisKey ∧ key ≠ customDomainsWarmedRedisKey
  | .sql (.deleteDomain id) => ∃ domain rest, past = ⟨.sql (.domainById id), .ok domain⟩ :: rest
  | _ => True

def CacheRule (past : History) (c : Cmd) : Prop :=
  SetRule past c ∧ ∀ due, Owed past = some due → c = due

def Clear (past : History) : Prop := Owed past = none

theorem rule_of_clear {past : History} {c : Cmd} (clear : Clear past) (rule : SetRule past c) :
    CacheRule past c := by
  constructor
  · exact rule
  · intro due owes
    rw [clear] at owes
    cases owes

theorem cache_neutral {c : Cmd} (free : ∀ past, SetRule past c)
    (quiet : ∀ r past, Clear (⟨c, r⟩ :: past)) : Neutral CacheRule Clear c := by
  intro past clear
  constructor
  · exact rule_of_clear clear (free past)
  · intro r
    exact quiet r past

/- Only three commands can leave something owed. -/
theorem clear_other {c : Cmd} (insert : ∀ d, c ≠ .sql (.insertDomain d))
    (delete : ∀ id, c ≠ .sql (.deleteDomain id))
    (drop : c ≠ .redis (.del [customDomainsRedisKey])) (r : Reply c) (past : History) :
    Clear (⟨c, r⟩ :: past) := by
  unfold Clear
  unfold Owed
  split
  · rename_i same
    cases same
    exact absurd rfl (insert _)
  · rename_i same
    cases same
    exact absurd rfl (delete _)
  · rename_i keys reply rows rest same
    cases same
    rw [if_neg]
    rintro ⟨rfl, -⟩
    exact drop rfl
  · rfl

theorem neutral_other {c : Cmd} (free : ∀ past, SetRule past c)
    (insert : ∀ d, c ≠ .sql (.insertDomain d)) (delete : ∀ id, c ≠ .sql (.deleteDomain id))
    (drop : c ≠ .redis (.del [customDomainsRedisKey])) : Neutral CacheRule Clear c :=
  cache_neutral free (clear_other insert delete drop)

theorem insert_cache (domain : Str) : (CustomDomains.insert domain).Keeps CacheRule Clear := by
  intro past clear
  apply meets_sql
  · exact rule_of_clear clear trivial
  · intro r
    cases r with
    | error err => exact rfl
    | ok _ =>
      apply meets_redis
      · constructor
        · rfl
        · intro due owes
          cases owes
          rfl
      · intro r
        change Clear _
        apply clear_other <;> simp

theorem delete_cache (id : Int) : (CustomDomains.delete id).Keeps CacheRule Clear := by
  intro past clear
  apply meets_sql
  · exact rule_of_clear clear trivial
  · intro r
    cases r with
    | error err =>
      change Clear _
      apply clear_other <;> simp
    | ok domain =>
      have found : Clear (⟨.sql (.domainById id), .ok domain⟩ :: past) := by
        apply clear_other <;> simp
      apply meets_sql
      · exact rule_of_clear found ⟨domain, past, rfl⟩
      · intro r
        cases r with
        | error err => exact rfl
        | ok rows =>
          dsimp only
          split
          · rename_i none_left
            exact if_pos none_left
          · rename_i some_left
            have owes : Owed (⟨.sql (.deleteDomain id), .ok rows⟩ ::
                ⟨.sql (.domainById id), .ok domain⟩ :: past) =
                some (.redis (.srem customDomainsRedisKey domain)) := if_neg some_left
            apply meets_redis
            · constructor
              · exact owes
              · intro due same
                rw [owes] at same
                cases same
                rfl
            · intro r
              change Clear _
              apply clear_other <;> simp

/- The last command of a rebuild. -/
theorem mark_cache {past : History} (clear : Clear past)
    (dropped : ∃ x ∈ past, x.cmd = .redis (.del [customDomainsRedisKey])) :
    CacheRule past (.redis (.set customDomainsWarmedRedisKey "1".toList 0)) ∧
      ∀ r, Clear (⟨.redis (.set customDomainsWarmedRedisKey "1".toList 0), r⟩ :: past) := by
  constructor
  · exact rule_of_clear clear ⟨by decide, fun _ => ⟨rfl, dropped⟩⟩
  · intro r
    apply clear_other <;> simp

theorem warmCache_cache : CustomDomains.warmCache.Keeps CacheRule Clear := by
  intro past clear
  apply meets_sql
  · exact rule_of_clear clear trivial
  · intro r
    cases r with
    | error err =>
      change Clear _
      apply clear_other <;> simp
    | ok rows =>
      have selected : Clear (⟨.sql .allDomains, .ok rows⟩ :: past) := by
        apply clear_other <;> simp
      apply meets_redis
      · exact rule_of_clear selected fun _ => ⟨rfl, rows, past, rfl⟩
      · intro r
        split
        · rename_i nothing
          have dropped : Clear (⟨.redis (.del [customDomainsRedisKey]), r⟩ ::
              ⟨.sql .allDomains, .ok rows⟩ :: past) := if_neg fun both => both.2 nothing
          exact mark_cache dropped ⟨_, List.mem_cons_self, rfl⟩
        · rename_i something
          have owes : Owed (⟨.redis (.del [customDomainsRedisKey]), r⟩ ::
              ⟨.sql .allDomains, .ok rows⟩ :: past) =
              some (.redis (.sadd customDomainsRedisKey (rows.map CustomDomain.domain))) :=
            if_pos ⟨rfl, something⟩
          apply meets_redis
          · constructor
            · exact owes
            · intro due same
              rw [owes] at same
              cases same
              rfl
          · intro r'
            apply mark_cache
            · apply clear_other <;> simp
            · exact ⟨_, List.mem_cons_of_mem _ List.mem_cons_self, rfl⟩

theorem broadcast_cache : ∀ c, BroadcastCmd c → Neutral CacheRule Clear c := by
  intro c sent
  cases sent with
  | set raw =>
    apply neutral_other _ (by simp) (by simp) (by simp)
    intro past
    exact ⟨by decide, fun same => absurd same (by decide)⟩
  | _ => exact neutral_other (fun _ => trivial) (by simp) (by simp) (by simp)

/- Commands of the one-time codes touch neither key. -/
theorem verify_cache (email : Str) : ∀ c, VerifyCmd email c → Neutral CacheRule Clear c := by
  intro c sent
  cases sent with
  | count => exact neutral_other (fun _ => ⟨by simp, by simp⟩) (by simp) (by simp) (by simp)
  | expire => exact neutral_other (fun _ => ⟨by simp, by simp⟩) (by simp) (by simp) (by simp)
  | block => exact neutral_other (fun _ => ⟨by simp, by simp⟩) (by simp) (by simp) (by simp)
  | clear =>
    apply neutral_other _ (by simp) (by simp) (by simp)
    intro past dropped
    simp at dropped
  | _ => exact neutral_other (fun _ => trivial) (by simp) (by simp) (by simp)

theorem cache_respected (cfg : Config) (req : Call) : Respected cfg req CacheRule Clear where
  plain c sent := by
    cases sent with
    | rate ip => exact neutral_other (fun _ => ⟨by simp, by simp⟩) (by simp) (by simp) (by simp)
    | rateWindow ip =>
      exact neutral_other (fun _ => ⟨by simp, by simp⟩) (by simp) (by simp) (by simp)
    | _ => exact neutral_other (fun _ => trivial) (by simp) (by simp) (by simp)
  status := keeps_of_issues getStatus_issues fun c sent =>
    broadcast_cache c (payload_broadcast c (status_payload c sent))
  broadcast := keeps_of_issues broadcastPayload_issues broadcast_cache
  update isOpen endsAt := by
    apply keeps_of_issues (updateSettings_issues isOpen endsAt)
    intro c sent
    cases sent with
    | set raw => exact broadcast_cache _ (.set raw)
    | invalidate =>
      apply neutral_other _ (by simp) (by simp) (by decide)
      intro past dropped
      exact absurd dropped (by decide)
    | _ => exact neutral_other (fun _ => trivial) (by simp) (by simp) (by simp)
  mode value := by
    apply keeps_of_issues (updateCustomDomainsOnly_issues value)
    intro c sent
    cases sent with
    | set raw => exact broadcast_cache _ (.set raw)
    | invalidate =>
      apply neutral_other _ (by simp) (by simp) (by decide)
      intro past dropped
      exact absurd dropped (by decide)
    | _ => exact neutral_other (fun _ => trivial) (by simp) (by simp) (by simp)
  generate email fp candidate name _ := by
    apply keeps_of_issues (generateAndStore_issues email fp candidate name)
    intro c sent
    cases sent with
    | store value => exact neutral_other (fun _ => ⟨by simp, by simp⟩) (by simp) (by simp) (by simp)
    | withdraw =>
      apply neutral_other _ (by simp) (by simp) (by simp)
      intro past dropped
      simp at dropped
    | _ => exact neutral_other (fun _ => trivial) (by simp) (by simp) (by simp)
  verify email otp _ := keeps_of_issues (verify_issues email otp) (verify_cache email)
  vote email otp ip userAgent _ := by
    apply keeps_of_issues (verifyAndVote_issues email otp ip userAgent)
    intro c sent
    cases sent with
    | set raw => exact broadcast_cache _ (.set raw)
    | blocked => exact verify_cache email _ .blocked
    | read => exact verify_cache email _ .read
    | count => exact verify_cache email _ .count
    | expire => exact verify_cache email _ .expire
    | block => exact verify_cache email _ .block
    | clear => exact verify_cache email _ .clear
    | _ => exact neutral_other (fun _ => trivial) (by simp) (by simp) (by simp)
  deleteCandidate _ n _ _ := by
    apply keeps_of_issues (deleteCandidate_issues n)
    intro c sent
    cases sent <;> exact neutral_other (fun _ => trivial) (by simp) (by simp) (by simp)
  insertDomain := insert_cache
  deleteDomain := delete_cache
  warmCache := warmCache_cache

/-- The value a command gives a domain in the set. -/
def puts (domain : Str) : Cmd → Option Bool
  | .redis (.sadd key members) =>
    if key = customDomainsRedisKey ∧ domain ∈ members then some true else none
  | .redis (.srem key member) =>
    if key = customDomainsRedisKey ∧ member = domain then some false else none
  | .redis (.del keys) => if customDomainsRedisKey ∈ keys then some false else none
  | _ => none

/-- The step at the table of an Insert, a Delete or a WarmCache. -/
def AtTable : Cmd → Prop
  | .sql (.insertDomain _) => True
  | .sql (.deleteDomain _) => True
  | .sql .allDomains => True
  | _ => False

def ChangesDomain (domain : Str) (ev : LogEntry) : Prop :=
  listed domain ev.after.db ≠ listed domain ev.before.db

/-- A call takes its step at the table, another call then turns the domain around there and in
the set, and after that the first one puts into the set what the table held at its own step. -/
def Crossed (domain : Str) (log : Log) : Prop := ∃ put told change step : LogEntry,
  List.Sublist [put, told, change, step] log ∧ put.caller = step.caller ∧
    told.caller = change.caller ∧ AtTable step.cmd ∧
      puts domain put.cmd = some (listed domain step.after.db) ∧
        ChangesDomain domain change ∧ puts domain told.cmd = some (listed domain change.after.db) ∧
          listed domain change.after.db ≠ listed domain step.after.db

/-- The call has begun an Insert, a Delete or a WarmCache and has not returned. -/
def InFlight (job : Job Cmd Reply Call Answer) : Prop :=
  isFinished job = false ∧ ∃ x ∈ job.past, DomainCmd x.cmd

theorem owed_begun {past : History} {due : Cmd} (owes : Owed past = some due) :
    ∃ x ∈ past, DomainCmd x.cmd := by
  unfold Owed at owes
  split at owes
  · exact ⟨_, List.mem_cons_self, .insert _⟩
  · exact ⟨_, List.mem_cons_self, .delete _⟩
  · exact ⟨_, List.mem_cons_of_mem _ List.mem_cons_self, .snapshot⟩
  · cases owes

theorem listed_iff {domain : Str} {db : Db} :
    listed domain db = true ↔ ∃ row ∈ db.customDomains, row.domain = domain := by
  simp [listed]

theorem listed_congr {domain : Str} {db db' : Db} (same : db'.customDomains = db.customDomains) :
    listed domain db' = listed domain db := by
  rw [listed, listed, same]

theorem listed_allDomains {domain : Str} {db : Db} :
    domain ∈ db.allDomains.map CustomDomain.domain ↔ listed domain db = true := by
  simp [listed_iff, Db.allDomains]

/- Rows that were there stay the only ones with their ids, since ids are never used again. -/
def RowsKept (db db' : Db) : Prop := db.nextDomain ≤ db'.nextDomain ∧
  ∀ row ∈ db'.customDomains, row.id < db.nextDomain → row ∈ db.customDomains

theorem rows_refl (db : Db) : RowsKept db db := by
  constructor
  · omega
  · exact fun row member _ => member

theorem rows_trans {a b c : Db} (first : RowsKept a b) (second : RowsKept b c) : RowsKept a c := by
  obtain ⟨le, back⟩ := first
  obtain ⟨le', back'⟩ := second
  constructor
  · omega
  · intro row member old
    have middle : row ∈ b.customDomains := back' row member (by omega)
    exact back row middle old

theorem insertDomain_rows (db : Db) (now : Nat) (domain : Str) :
    RowsKept db (db.insertDomain now domain).2 := by
  unfold Db.insertDomain
  split
  · exact rows_refl db
  · split
    · exact rows_refl db
    · constructor
      · dsimp only
        omega
      · intro row member old
        rcases List.mem_append.mp member with there | new
        · exact there
        · rw [List.mem_singleton.mp new] at old
          dsimp only at old
          omega

theorem statement_rows (db : Db) (now : Nat) (c : SqlCmd) : RowsKept db (c.run db now).2 := by
  cases c with
  | insertVote email fp id ip userAgent =>
    rcases insertVote_cases db now email fp id ip userAgent with ⟨err, refused⟩ | ⟨-, -, -, done⟩
    · rw [SqlCmd.run, refused]
      exact rows_refl db
    · rw [SqlCmd.run, done]
      exact rows_refl db
  | insertCandidate name description path =>
    simp only [SqlCmd.run, Db.insertCandidate]
    split <;> exact rows_refl db
  | updateCandidate id name description path =>
    simp only [SqlCmd.run, Db.updateCandidate]
    split <;> exact rows_refl db
  | updateSettings isOpen endsAt =>
    simp only [SqlCmd.run, Db.updateSettings]
    split <;> exact rows_refl db
  | insertDomain domain => exact insertDomain_rows db now domain
  | deleteDomain id =>
    constructor
    · exact Int.le_refl _
    · intro row member _
      exact List.mem_of_mem_filter member
  | _ => exact rows_refl db

theorem performed_rows {w w' : World} {o : Oracle} {c : Cmd} {r : Reply c}
    (h : w.perform o c = some (r, w')) : RowsKept w.db w'.db := by
  rcases (perform_scope h).2.2 with ⟨sc, rfl⟩ | same
  · obtain ⟨-, rfl⟩ := perform_sql h
    rcases faulty_state (o := o) w.db (sc.run w.db w.clock) with ran | idle
    · simp only [ran]
      exact statement_rows w.db w.clock sc
    · simp only [idle]
      exact rows_refl w.db
  · rw [same]
    exact rows_refl w.db

theorem rows_since {cfg : Config} {allow : State → Move → Bool} {s s' : State}
    (run : Reaches (server cfg) allow s s') : RowsKept s.world.db s'.world.db := by
  apply related_since (R := fun w w' => RowsKept w.db w'.db) _ _ _ _ run
  · exact fun w => rows_refl w.db
  · exact fun a b c first second => rows_trans first second
  · intro w e w' moved
    rw [(env_scope moved).1]
    exact rows_refl w.db
  · exact fun w o c r w' performed => performed_rows performed

/- What is owed comes from what the call has seen or done at the table. -/
theorem owed_sadd {past : History} {key : Str} {members : List Str}
    (owes : Owed past = some (.redis (.sadd key members))) : key = customDomainsRedisKey ∧
      ((∃ domain rest, past = ⟨.sql (.insertDomain domain), .ok ()⟩ :: rest ∧ members = [domain]) ∨
        ∃ dropped rows rest, past = dropped :: ⟨.sql .allDomains, .ok rows⟩ :: rest ∧
          members = rows.map CustomDomain.domain) := by
  unfold Owed at owes
  split at owes
  · cases owes
    exact ⟨rfl, Or.inl ⟨_, _, rfl, rfl⟩⟩
  · split at owes <;> cases owes
  · split at owes
    · cases owes
      exact ⟨rfl, Or.inr ⟨_, _, _, rfl, rfl⟩⟩
    · cases owes
  · cases owes

theorem owed_srem {past : History} {key member : Str}
    (owes : Owed past = some (.redis (.srem key member))) : key = customDomainsRedisKey ∧
      ∃ id id' rows rest, past = ⟨.sql (.deleteDomain id), .ok rows⟩ ::
        ⟨.sql (.domainById id'), .ok member⟩ :: rest ∧ rows ≠ 0 := by
  unfold Owed at owes
  split at owes
  · cases owes
  · split at owes
    · cases owes
    · rename_i some_left
      cases owes
      exact ⟨rfl, _, _, _, _, rfl, some_left⟩
  · split at owes <;> cases owes
  · cases owes

/- One command and the set. -/
theorem set_step {ev : LogEntry} (performed : Performed ev) (no_fault : ev.oracle.fault = none)
    {past : History} (rule : SetRule past ev.cmd) {held : List Str}
    (before : ev.before.redis.HoldsSet customDomainsRedisKey held) :
    ∃ held', ev.after.redis.HoldsSet customDomainsRedisKey held' ∧
      ∀ d, decide (d ∈ held') = (puts d ev.cmd).getD (decide (d ∈ held)) := by
  obtain ⟨caller, oracle, cmd, reply, was, now⟩ := ev
  dsimp only at no_fault rule before
  have idle : ¬ WritesKey customDomainsRedisKey cmd → (∀ d, puts d cmd = none) →
      ∃ held', now.redis.HoldsSet customDomainsRedisKey held' ∧
        ∀ d, decide (d ∈ held') = (puts d cmd).getD (decide (d ∈ held)) := by
    intro apart silent
    refine ⟨held, ?_, ?_⟩
    · have same : now.redis customDomainsRedisKey = was.redis customDomainsRedisKey :=
        key_frame apart performed
      unfold Store.HoldsSet
      rw [same]
      exact before
    · intro d
      rw [silent d]
      rfl
  cases cmd with
  | redis c =>
    obtain ⟨-, after⟩ := perform_redis performed
    dsimp only at after
    rw [faulty_ok no_fault] at after
    subst now
    cases c with
    | sadd key members =>
      obtain ⟨rfl, -⟩ := owed_sadd rule
      obtain ⟨held', after, mem⟩ := sadd_holds before was.clock members
      refine ⟨held', after, ?_⟩
      intro d
      by_cases new : d ∈ members <;> simp [puts, mem d, new]
    | srem key member =>
      obtain ⟨rfl, -⟩ := owed_srem rule
      obtain ⟨held', after, mem⟩ := srem_holds before was.clock member
      refine ⟨held', after, ?_⟩
      intro d
      by_cases same : member = d
      · simp [puts, mem d, same]
      · have other : d ≠ member := Ne.symm same
        simp [puts, mem d, same, other]
    | del keys =>
      by_cases dropped : customDomainsRedisKey ∈ keys
      · refine ⟨[], holds_empty (del_self _ dropped), ?_⟩
        intro d
        simp [puts, dropped]
      · apply idle dropped
        intro d
        simp [puts, dropped]
    | set key value ttl => exact idle (by simpa [WritesKey, writtenKeys, eq_comm] using rule.1) fun _ => rfl
    | incr key => exact idle (by simpa [WritesKey, writtenKeys, eq_comm] using rule.1) fun _ => rfl
    | expire key ttl => exact idle (by simpa [WritesKey, writtenKeys, eq_comm] using rule.1) fun _ => rfl
    | _ => exact idle (by simp [WritesKey, writtenKeys]) fun _ => rfl
  | _ => exact idle id fun _ => rfl

section Runs
variable {cfg : Config} {boot : Restart} {s : State}

theorem faultless_log (run : Reaches (server cfg) faultless boot.start s) : NoFaults s.log := by
  intro ev member
  obtain ⟨late, older, split⟩ := List.append_of_mem member
  obtain ⟨moment⟩ := moment_of_logged rfl run split
  simpa [faultless] using moment.allowed

theorem cache_rule (run : Reaches (server cfg) faultless boot.start s) {late older : Log}
    {ev : LogEntry} (split : s.log = late ++ ev :: older) :
    CacheRule (own ev.caller older) ev.cmd := by
  obtain ⟨job, -, rule⟩ := contract_of_logged
    (fun req => program_keeps (cache_respected cfg req) [] rfl) rfl rfl run split
  exact rule

theorem finished_clear (run : Reaches (server cfg) faultless boot.start s)
    {job : Job Cmd Reply Call Answer} (member : job ∈ s.jobs) (done : isFinished job = true) :
    Clear job.past := by
  have held := contract_of_job
    (fun req => program_keeps (cache_respected cfg req) [] rfl) rfl run job member
  cases rest : job.rest with
  | done a =>
    rw [rest] at held
    exact held
  | call c next => simp [isFinished, rest] at done

/- With none in flight, nothing is owed. -/
theorem quiet_clear (run : Reaches (server cfg) faultless boot.start s)
    (quiet : ∀ job ∈ s.jobs, ¬ InFlight job) {job : Job Cmd Reply Call Answer}
    (member : job ∈ s.jobs) : Clear job.past := by
  cases done : isFinished job with
  | true => exact finished_clear run member done
  | false =>
    cases owes : Owed job.past with
    | none => exact owes
    | some due => exact absurd ⟨done, owed_begun owes⟩ (quiet job member)

/- What an event leaves owed, its call has sent since. -/
theorem paid (run : Reaches (server cfg) faultless boot.start s)
    (quiet : ∀ job ∈ s.jobs, ¬ InFlight job) {late older : Log} {ev : LogEntry}
    (split : s.log = late ++ ev :: older) {due : Cmd}
    (owes : Owed (ev.exchange :: own ev.caller older) = some due) :
    ∃ newer next mid, late = newer ++ next :: mid ∧ next.caller = ev.caller ∧ next.cmd = due := by
  rcases own_next late older ev with nothing | ⟨newer, next, mid, at_late, mine, -, past⟩
  · obtain ⟨moment⟩ := moment_of_logged rfl run split
    obtain ⟨job, at_job, -⟩ := job_persists moment.later moment.resumed
    have clear := quiet_clear run quiet (List.mem_of_getElem? at_job)
    have history : job.past = ev.exchange :: own ev.caller older := by
      rw [past_of_job rfl rfl run at_job, split, own_append, nothing]
      simp [own]
    rw [Clear, history, owes] at clear
    cases clear
  · have at_next : s.log = newer ++ next :: (mid ++ ev :: older) := by rw [split, at_late]; simp
    obtain ⟨-, forced⟩ := cache_rule run at_next
    rw [mine, past] at forced
    exact ⟨newer, next, mid, at_late, mine, forced due owes⟩

/- The set is a set at all times. -/
theorem set_held (run : Reaches (server cfg) faultless boot.start s) :
    ∃ held, s.world.redis.HoldsSet customDomainsRedisKey held := by
  apply kept_since (I := fun w => ∃ held, w.redis.HoldsSet customDomainsRedisKey held) _ run
    (List.append_nil s.log).symm
  · intro ev member before
    obtain ⟨held, before⟩ := before
    obtain ⟨late, older, split⟩ := List.append_of_mem member
    obtain ⟨held', after, -⟩ := set_step (logged_performed rfl run ev member)
      (faultless_log run ev member) (cache_rule run split).1 before
    exact ⟨held', after⟩
  · refine ⟨[], holds_empty ?_⟩
    change boot.world.redis _ = none
    rw [boot.cold]
  · intro w e w' moved held
    rw [(env_scope moved).2.1]
    exact held

/- What one event does to the set. -/
theorem cache_step (run : Reaches (server cfg) faultless boot.start s) {late older : Log}
    {ev : LogEntry} (split : s.log = late ++ ev :: older) (domain : Str) :
    inCache domain ev.after = (puts domain ev.cmd).getD (inCache domain ev.before) := by
  obtain ⟨moment⟩ := moment_of_logged rfl run split
  obtain ⟨held, before⟩ := set_held moment.reached
  rw [moment.pre_world] at before
  have no_fault := faultless_log run ev (by rw [split]; simp)
  obtain ⟨held', after, same⟩ := set_step moment.performed no_fault (cache_rule run split).1 before
  rw [inCache, inCache, members_holds after, members_holds before]
  exact same domain

end Runs

theorem insertDomain_ok {db : Db} {now : Nat} {new : Str}
    (ok : (db.insertDomain now new).1 = .ok ()) : listed new (db.insertDomain now new).2 = true := by
  unfold Db.insertDomain at ok ⊢
  split at ok
  · cases ok
  · rename_i fits
    split at ok
    · cases ok
    · rename_i free
      rw [if_neg fits, if_neg free]
      simp [listed]

theorem insertDomain_listed (db : Db) (now : Nat) (new domain : Str) :
    listed domain (db.insertDomain now new).2 = listed domain db ∨
      (new = domain ∧ (db.insertDomain now new).1 = .ok () ∧
        listed domain (db.insertDomain now new).2 = true) := by
  unfold Db.insertDomain
  split
  · exact Or.inl rfl
  · split
    · exact Or.inl rfl
    · by_cases same : new = domain
      · right
        refine ⟨same, rfl, ?_⟩
        simp [listed, same]
      · left
        simp [listed, same]

theorem deleteDomain_listed {db : Db} {id : Int} {domain : Str}
    (changes : listed domain (db.deleteDomain id).2 ≠ listed domain db) :
    listed domain (db.deleteDomain id).2 = false ∧
      ∃ row ∈ db.customDomains, row.id = id ∧ row.domain = domain := by
  have shrinks : listed domain (db.deleteDomain id).2 = true → listed domain db = true := by
    intro still
    obtain ⟨row, member, same⟩ := listed_iff.mp still
    exact listed_iff.mpr ⟨row, List.mem_of_mem_filter member, same⟩
  cases after : listed domain (db.deleteDomain id).2 with
  | true => exact absurd (after.trans (shrinks after).symm) changes
  | false =>
    constructor
    · rfl
    · have before : listed domain db = true := by
        rw [after] at changes
        simpa using changes.symm
      obtain ⟨row, member, same⟩ := listed_iff.mp before
      refine ⟨row, member, ?_, same⟩
      by_contra other
      have stays : listed domain (db.deleteDomain id).2 = true :=
        listed_iff.mpr ⟨row, List.mem_filter.mpr ⟨member, by simpa using other⟩, same⟩
      rw [after] at stays
      cases stays

/- What one statement does to a domain of the table. -/
theorem change_cases {ev : LogEntry} (performed : Performed ev) (no_fault : ev.oracle.fault = none)
    {domain : Str} (changes : ChangesDomain domain ev) :
    (ev.exchange = ⟨.sql (.insertDomain domain), .ok ()⟩ ∧ listed domain ev.after.db = true) ∨
      ∃ id rows, ev.exchange = ⟨.sql (.deleteDomain id), .ok rows⟩ ∧ rows ≠ 0 ∧
        (∃ row ∈ ev.before.db.customDomains, row.id = id ∧ row.domain = domain) ∧
          listed domain ev.after.db = false := by
  obtain ⟨caller, oracle, cmd, reply, was, now⟩ := ev
  have writes : WritesDomains cmd := by
    by_contra other
    exact changes (listed_congr (domains_frame other performed))
  cases cmd with
  | sql sc =>
    obtain ⟨answer, after⟩ := perform_sql performed
    dsimp only at no_fault answer after
    rw [faulty_ok no_fault] at answer after
    subst reply now
    cases sc with
    | insertDomain new =>
      left
      rcases insertDomain_listed was.db was.clock new domain with same | ⟨rfl, ok, there⟩
      · exact absurd same changes
      · constructor
        · exact congrArg (Exchange.mk (Cmd.sql (.insertDomain new))) ok
        · exact there
    | deleteDomain id =>
      right
      obtain ⟨gone, row, member, named, same⟩ := deleteDomain_listed changes
      refine ⟨id, _, rfl, ?_, ⟨row, member, named, same⟩, gone⟩
      have counted : 0 < was.db.customDomains.countP fun row => row.id = id :=
        List.countP_pos_iff.mpr ⟨row, member, by simpa using named⟩
      exact Int.natCast_ne_zero_iff_pos.mpr counted
    | _ => exact absurd writes id
  | _ => exact absurd writes id

section Runs
variable {cfg : Config} {boot : Restart} {s : State}

/- A DELETE takes the row whose domain its call has read. -/
theorem delete_names (run : Reaches (server cfg) faultless boot.start s) {late older : Log}
    {ev : LogEntry} (split : s.log = late ++ ev :: older) {id : Int}
    (deletes : ev.cmd = .sql (.deleteDomain id)) :
    ∃ domain rest, own ev.caller older = ⟨.sql (.domainById id), .ok domain⟩ :: rest ∧
      ∀ row ∈ ev.before.db.customDomains, row.id = id → row.domain = domain := by
  obtain ⟨rule, -⟩ := cache_rule run split
  rw [deletes] at rule
  obtain ⟨domain, rest, past⟩ := rule
  refine ⟨domain, rest, past, ?_⟩
  obtain ⟨mid, read, oldest, rfl, -, reads, -, -⟩ := own_cons_split past
  obtain ⟨t, t', reached, -, world, later, -, world'⟩ := interval rfl run split
  obtain ⟨answer, after⟩ := answered_sql (logged_performed rfl run read (by rw [split]; simp)) reads
  have kept := rows_since later
  rw [world, world', after] at kept
  have sound : Sound read.before.db := by
    have := sound_since boot.sound reached
    rw [world, after] at this
    exact this
  have found : read.before.db.domainById id = .ok domain := answer
  unfold Db.domainById at found
  split at found
  · rename_i row hit
    cases found
    intro row' member named
    have there := List.mem_of_find?_eq_some hit
    have named' : row.id = id := by simpa using List.find?_some hit
    have below := sound.domainsBelow row there
    have old : row' ∈ read.before.db.customDomains := kept.2 row' member (by
      change row'.id < read.before.db.nextDomain
      omega)
    have same := List.inj_on_of_nodup_map sound.domainIds old there (named.trans named'.symm)
    rw [same]
  · cases found

/- With none in flight, a change of the table has been told to the set. -/
theorem change_told (run : Reaches (server cfg) faultless boot.start s)
    (quiet : ∀ job ∈ s.jobs, ¬ InFlight job) {late older : Log} {ev : LogEntry}
    (split : s.log = late ++ ev :: older) {domain : Str} (changes : ChangesDomain domain ev) :
    ∃ newer told mid, late = newer ++ told :: mid ∧ told.caller = ev.caller ∧
      puts domain told.cmd = some (listed domain ev.after.db) := by
  have member : ev ∈ s.log := by rw [split]; simp
  rcases change_cases (logged_performed rfl run ev member) (faultless_log run ev member) changes with
    ⟨inserts, there⟩ | ⟨id, rows, deletes, some_left, ⟨row, at_row, named, same⟩, gone⟩
  · have owes : Owed (ev.exchange :: own ev.caller older) =
        some (.redis (.sadd customDomainsRedisKey [domain])) := by
      rw [inserts]
      rfl
    obtain ⟨newer, told, mid, at_late, mine, cmd⟩ := paid run quiet split owes
    refine ⟨newer, told, mid, at_late, mine, ?_⟩
    rw [cmd, there]
    simp [puts]
  · obtain ⟨domain', rest, past, names⟩ := delete_names run split (congrArg Exchange.cmd deletes)
    have domain_same : row.domain = domain' := names row at_row named
    rw [same] at domain_same
    subst domain'
    have owes : Owed (ev.exchange :: own ev.caller older) =
        some (.redis (.srem customDomainsRedisKey domain)) := by
      rw [deletes, past]
      exact if_neg some_left
    obtain ⟨newer, told, mid, at_late, mine, cmd⟩ := paid run quiet split owes
    refine ⟨newer, told, mid, at_late, mine, ?_⟩
    rw [cmd, gone]
    simp [puts]

/- A DELETE that found a row has left its domain out of the table. -/
theorem delete_unlists (run : Reaches (server cfg) faultless boot.start s) {late older : Log}
    {ev : LogEntry} (split : s.log = late ++ ev :: older) {id id' : Int} {rows : Int} {domain : Str}
    {rest : History} (deletes : ev.exchange = ⟨.sql (.deleteDomain id), .ok rows⟩)
    (past : own ev.caller older = ⟨.sql (.domainById id'), .ok domain⟩ :: rest)
    (some_left : rows ≠ 0) : listed domain ev.after.db = false := by
  obtain ⟨domain', rest', past', names⟩ := delete_names run split (congrArg Exchange.cmd deletes)
  have same : id' = id ∧ domain = domain' := by
    rw [past] at past'
    cases past'
    exact ⟨rfl, rfl⟩
  obtain ⟨rfl, rfl⟩ := same
  obtain ⟨moment⟩ := moment_of_logged rfl run split
  obtain ⟨answer, after⟩ := answered_sql moment.performed deletes
  have sound : Sound ev.before.db := by
    rw [← moment.pre_world]
    exact sound_since boot.sound moment.reached
  have counted : (ev.before.db.customDomains.countP fun row => row.id = id') ≠ 0 := by
    intro zero
    apply some_left
    have counts : ((ev.before.db.customDomains.countP fun row => row.id = id' : Nat) : Int) = rows :=
      Except.ok.inj answer
    rw [← counts, zero]
    rfl
  obtain ⟨row, at_row, named⟩ := List.countP_pos_iff.mp (Nat.pos_of_ne_zero counted)
  have named : row.id = id' := by simpa using named
  cases left : listed domain ev.after.db with
  | false => rfl
  | true =>
    rw [after] at left
    obtain ⟨other, member, same⟩ := listed_iff.mp left
    obtain ⟨there, apart⟩ := List.mem_filter.mp member
    have one : other = row := List.inj_on_of_nodup_map sound.domains there at_row
      (same.trans (names row at_row named).symm)
    subst other
    simp [named] at apart

/- What is put into the set is what its call has left or seen in the table; only the DEL of
   a rebuild is followed by the rest of the rebuild. -/
theorem put_source (run : Reaches (server cfg) faultless boot.start s) {late older : Log}
    {put : LogEntry} (split : s.log = late ++ put :: older) {domain : Str} {value : Bool}
    (given : puts domain put.cmd = some value) :
    (∃ mid step oldest, older = mid ++ step :: oldest ∧ step.caller = put.caller ∧
      AtTable step.cmd ∧ listed domain step.after.db = value) ∨
        ∃ due, Owed (put.exchange :: own put.caller older) = some due ∧
          puts domain due = some true := by
  obtain ⟨rule, -⟩ := cache_rule run split
  have logged := logged_performed rfl run
  cases cmd : put.cmd with
  | redis c =>
    rw [cmd] at given rule
    cases c with
    | sadd key members =>
      left
      obtain ⟨rfl, ⟨new, rest, past, rfl⟩ | ⟨dropped, rows, rest, past, rfl⟩⟩ := owed_sadd rule
      · obtain ⟨mid, step, oldest, rfl, mine, inserts, -, -⟩ := own_cons_split past
        refine ⟨mid, step, oldest, rfl, mine, ?_, ?_⟩
        · rw [show step.cmd = _ from congrArg Exchange.cmd inserts]
          trivial
        · obtain ⟨answer, after⟩ := answered_sql (logged step (by rw [split]; simp)) inserts
          simp only [puts, List.mem_singleton, true_and, Option.ite_none_right_eq_some,
            Option.some.injEq] at given
          obtain ⟨rfl, rfl⟩ := given
          rw [after]
          exact insertDomain_ok answer
      · have past : own put.caller older = [dropped] ++ ⟨.sql .allDomains, .ok rows⟩ :: rest := past
        obtain ⟨mid, step, oldest, at_older, mine, selects, -, -⟩ := own_member_split past
        refine ⟨mid, step, oldest, at_older, mine, ?_, ?_⟩
        · rw [show step.cmd = _ from congrArg Exchange.cmd selects]
          trivial
        · have in_log : step ∈ s.log := by rw [split, at_older]; simp
          obtain ⟨answer, after⟩ := answered_sql (logged step in_log) selects
          simp only [puts, true_and, Option.ite_none_right_eq_some, Option.some.injEq] at given
          obtain ⟨member, rfl⟩ := given
          cases answer
          rw [after]
          exact listed_allDomains.mp member
    | srem key member =>
      left
      obtain ⟨rfl, id, id', rows, rest, past, some_left⟩ := owed_srem rule
      obtain ⟨mid, step, oldest, rfl, mine, deletes, rest_past, -⟩ := own_cons_split past
      refine ⟨mid, step, oldest, rfl, mine, ?_, ?_⟩
      · rw [show step.cmd = _ from congrArg Exchange.cmd deletes]
        trivial
      · simp only [puts, true_and, Option.ite_none_right_eq_some, Option.some.injEq] at given
        obtain ⟨rfl, rfl⟩ := given
        rw [← mine] at rest_past
        have at_step : s.log = (late ++ put :: mid) ++ step :: oldest := by rw [split]; simp
        exact delete_unlists run at_step deletes rest_past some_left
    | del keys =>
      simp only [puts, Option.ite_none_right_eq_some, Option.some.injEq] at given
      obtain ⟨drops, rfl⟩ := given
      obtain ⟨rfl, rows, rest, past⟩ := rule drops
      by_cases member : domain ∈ rows.map CustomDomain.domain
      · right
        obtain ⟨r, exchange⟩ := exchange_of_cmd cmd
        refine ⟨.redis (.sadd customDomainsRedisKey (rows.map CustomDomain.domain)), ?_, ?_⟩
        · rw [exchange, past]
          apply if_pos
          constructor
          · rfl
          · rintro rfl
            exact absurd member List.not_mem_nil
        · exact if_pos ⟨rfl, member⟩
      · left
        obtain ⟨mid, step, oldest, rfl, mine, selects, -, -⟩ := own_cons_split past
        refine ⟨mid, step, oldest, rfl, mine, ?_, ?_⟩
        · rw [show step.cmd = _ from congrArg Exchange.cmd selects]
          trivial
        · obtain ⟨answer, after⟩ := answered_sql (logged step (by rw [split]; simp)) selects
          cases answer
          rw [after]
          exact Bool.eq_false_iff.mpr fun there => member (listed_allDomains.mpr there)
    | _ => cases given
  | _ =>
    rw [cmd] at given
    cases given

/- The marker is set for good, and a rebuild that has dropped the set has set it. -/
theorem marker_source (run : Reaches (server cfg) faultless boot.start s) :
    s.world.redis customDomainsWarmedRedisKey = none ∨
      (∃ raw, s.world.redis customDomainsWarmedRedisKey = some ⟨.text raw, none⟩) ∧
        ∃ ev ∈ s.log, ev.cmd = .redis (.del [customDomainsRedisKey]) := by
  have logged : ∀ ev ∈ s.log, Performed ev := logged_performed rfl run
  rcases last_change (fun w => w.redis customDomainsWarmedRedisKey)
    (fun ev => WritesKey customDomainsWarmedRedisKey ev.cmd)
    (fun w e w' moved => by rw [(env_scope moved).2.1]) rfl run
    (fun ev member idle => key_frame idle (logged ev member)) with
    ⟨-, same⟩ | ⟨newer, ev, older, split, writes, -, same⟩
  · left
    rw [same]
    change boot.world.redis _ = none
    rw [boot.cold]
  · have member : ev ∈ s.log := by rw [split]; simp
    obtain ⟨rule, -⟩ := cache_rule run split
    cases cmd : ev.cmd with
    | redis c =>
      rw [cmd] at writes rule
      obtain ⟨r, exchange⟩ := exchange_of_cmd cmd
      obtain ⟨-, after⟩ := exchange_redis (logged ev member) exchange
      rw [faulty_ok (faultless_log run ev member)] at after
      cases c with
      | set key raw ttl =>
        have named : customDomainsWarmedRedisKey = key := by simpa [WritesKey, writtenKeys] using writes
        subst key
        obtain ⟨no_ttl, x, in_past, drops⟩ := rule.2 rfl
        right
        constructor
        · refine ⟨raw, ?_⟩
          rw [same, after]
          dsimp only [RedisCmd.run]
          rw [set_self, no_ttl]
          rfl
        · obtain ⟨e, in_older, -, exchanged⟩ := mem_own.mp in_past
          refine ⟨e, by rw [split]; simp [in_older], ?_⟩
          rw [← drops, ← exchanged]
          rfl
      | del keys =>
        left
        rw [same, after]
        exact del_self _ writes
      | sadd key members =>
        obtain ⟨rfl, -⟩ := owed_sadd rule
        simp [WritesKey, writtenKeys] at writes
      | srem key member =>
        obtain ⟨rfl, -⟩ := owed_srem rule
        simp [WritesKey, writtenKeys] at writes
      | incr key => exact absurd (by simpa [WritesKey, writtenKeys] using writes) rule.2.symm
      | expire key ttl => exact absurd (by simpa [WritesKey, writtenKeys] using writes) rule.2.symm
      | _ => simp [WritesKey, writtenKeys] at writes
    | _ =>
      rw [cmd] at writes
      exact absurd writes id

/-- What EXISTS says of the marker. -/
def Warmed (w : World) : Prop := w.redis.present w.clock customDomainsWarmedRedisKey ≠ 0

instance : DecidablePred Warmed := fun w =>
  inferInstanceAs (Decidable (w.redis.present w.clock customDomainsWarmedRedisKey ≠ 0))

theorem warmed_source (run : Reaches (server cfg) faultless boot.start s) (warmed : Warmed s.world) :
    (∃ raw, s.world.redis customDomainsWarmedRedisKey = some ⟨.text raw, none⟩) ∧
      ∃ ev ∈ s.log, ev.cmd = .redis (.del [customDomainsRedisKey]) := by
  rcases marker_source run with absent | marked
  · exfalso
    apply warmed
    rw [present_zero, Store.lookup, absent]
    rfl
  · exact marked

/- The last command that puts the domain in or out of the set, at a quiet time. -/
theorem last_put (run : Reaches (server cfg) faultless boot.start s)
    (quiet : ∀ job ∈ s.jobs, ¬ InFlight job) (warmed : Warmed s.world) (domain : Str) :
    ∃ newer put mid step oldest, s.log = newer ++ put :: (mid ++ step :: oldest) ∧
      (∀ e ∈ newer, puts domain e.cmd = none) ∧ put.caller = step.caller ∧ AtTable step.cmd ∧
        puts domain put.cmd = some (listed domain step.after.db) ∧
          inCache domain s.world = listed domain step.after.db := by
  obtain ⟨-, drop, dropped, drops⟩ := warmed_source run warmed
  rcases newest_split (fun ev => puts domain ev.cmd ≠ none) s.log with
    never | ⟨newer, put, older, split, given, fresh⟩
  · exact absurd (by rw [drops]; simp [puts]) (never drop dropped)
  · obtain ⟨value, given⟩ := Option.ne_none_iff_exists'.mp given
    have fresh : ∀ e ∈ newer, puts domain e.cmd = none :=
      fun e member => not_not.mp (fresh e member)
    rcases put_source run split given with ⟨mid, step, oldest, rfl, mine, at_table, value_same⟩ |
      ⟨due, owes, adds⟩
    · refine ⟨newer, put, mid, step, oldest, split, fresh, mine.symm, at_table, ?_, ?_⟩
      · rw [value_same]
        exact given
      · obtain ⟨moment⟩ := moment_of_logged rfl run split
        have kept := frame_since (inCache domain)
          (fun w e w' moved => by rw [inCache, inCache, (env_scope moved).2.1]) moment.later
          (by rw [split, moment.post_log]) fun e member => by
            obtain ⟨late, early, at_newer⟩ := List.append_of_mem member
            have at_e : s.log = late ++ e :: (early ++ put :: (mid ++ step :: oldest)) := by
              rw [split, at_newer]
              simp
            rw [cache_step run at_e, fresh e member]
            rfl
        rw [kept, moment.post_world, cache_step run split, given, value_same]
        rfl
    · obtain ⟨late, next, early, at_newer, -, cmd⟩ := paid run quiet split owes
      have silent := fresh next (by rw [at_newer]; simp)
      rw [cmd, adds] at silent
      cases silent

/- A domain that no two calls have crossed over is in the set exactly when it is in the table. -/
theorem set_follows_table (run : Reaches (server cfg) faultless boot.start s)
    (quiet : ∀ job ∈ s.jobs, ¬ InFlight job) (warmed : Warmed s.world) {domain : Str}
    (apart : ¬ Crossed domain s.log) : inCache domain s.world = listed domain s.world.db := by
  obtain ⟨newer, put, mid, step, oldest, split, fresh, mine, at_table, given, cached⟩ :=
    last_put run quiet warmed domain
  rw [cached]
  by_contra stale
  have at_step : s.log = (newer ++ put :: mid) ++ step :: oldest := by rw [split]; simp
  have logged : ∀ ev ∈ s.log, Performed ev := logged_performed rfl run
  rcases newest_split (ChangesDomain domain) (newer ++ put :: mid) with
    never | ⟨late, change, early, parts, changes, since⟩
  · obtain ⟨moment⟩ := moment_of_logged rfl run at_step
    apply stale
    have idle : ∀ e ∈ newer ++ put :: mid, listed domain e.after.db = listed domain e.before.db :=
      fun e member => not_not.mp (never e member)
    have kept := frame_since (fun w => listed domain w.db)
      (fun w e w' moved => by rw [(env_scope moved).1]) moment.later
      (by rw [at_step, moment.post_log]) idle
    rw [moment.post_world] at kept
    exact kept.symm
  · have at_change : s.log = late ++ change :: (early ++ step :: oldest) := by
      rw [at_step, parts]
      simp
    obtain ⟨moment⟩ := moment_of_logged rfl run at_change
    have idle : ∀ e ∈ late, listed domain e.after.db = listed domain e.before.db :=
      fun e member => not_not.mp (since e member)
    have kept := frame_since (fun w => listed domain w.db)
      (fun w e w' moved => by rw [(env_scope moved).1]) moment.later
      (by rw [at_change, moment.post_log]) idle
    rw [moment.post_world] at kept
    have turned : listed domain change.after.db ≠ listed domain step.after.db := by
      rw [← kept]
      exact Ne.symm stale
    obtain ⟨before, told, between, at_late, same_call, tells⟩ := change_told run quiet at_change changes
    have at_told : s.log = before ++ told :: (between ++ change :: (early ++ step :: oldest)) := by
      rw [at_change, at_late]
      simp
    rcases split_cases (at_told.symm.trans split) with ⟨-, rfl, -⟩ | ⟨gap, in_newer, -⟩ |
      ⟨gap, -, between_put⟩
    · rw [given] at tells
      exact turned (Option.some.inj tells).symm
    · have silent := fresh told (by rw [in_newer]; simp)
      rw [tells] at silent
      cases silent
    · apply apart
      refine ⟨put, told, change, step, ?_, mine, same_call, at_table, given, changes, tells, turned⟩
      rw [split, between_put]
      exact pick put newer (pick told gap (pick change between (pick step early (List.nil_sublist _))))

end Runs

/- The set, the marker and the table stay as they are while only lookups run. -/
def Still (w w' : World) : Prop := w'.redis = w.redis ∧ w'.db = w.db

theorem isDomainAllowed_alone {w : World} {raw : Str} {held : List Str}
    (marked : w.redis customDomainsWarmedRedisKey = some ⟨.text raw, none⟩)
    (held_set : w.redis.HoldsSet customDomainsRedisKey held) (lowerRune : Char → Char)
    (text : Str) : Secures World.perform noFault (Still w)
      (fun r => r = .ok (decide (text.map lowerRune ∈ held)))
      (CustomDomains.isDomainAllowed lowerRune text) := by
  apply secures_redis
  intro v o r v' still fair performed
  obtain ⟨answer, same⟩ := perform_redis performed
  rw [faulty_ok (noFault_none fair)] at answer same
  subst r v'
  refine ⟨still, ?_⟩
  dsimp only [RedisCmd.run]
  rw [still.1, present_forever marked]
  apply secures_redis
  intro u o r u' still fair performed
  obtain ⟨answer, same⟩ := perform_redis performed
  rw [faulty_ok (noFault_none fair)] at answer same
  subst r u'
  refine ⟨still, ?_⟩
  dsimp only [RedisCmd.run]
  rw [still.1, sismember_holds held_set]
  exact congrArg Except.ok (decide_eq_decide.mpr Iff.rfl)

/- In every faultless run, at every time when no Insert, Delete or WarmCache is in flight and
   the marker is there: if no two calls have crossed over a domain, the set holds exactly the
   domains of the table, and IsDomainAllowed, asked now and alone, answers as the table does. -/
theorem domain_cache_coherent {cfg : Config} {boot : Restart} {s : State}
    (run : Reaches (server cfg) faultless boot.start s)
    (quiet : ∀ job ∈ s.jobs, ¬ InFlight job) (warmed : Warmed s.world)
    (apart : ∀ domain, ¬ Crossed domain s.log) :
    (∀ domain, domain ∈ s.world.redis.members customDomainsRedisKey ↔
      ∃ row ∈ s.world.db.customDomains, row.domain = domain) ∧
      ∀ text, AnswersAlone cfg s (.isDomainAllowed text)
        (fun a => a = .flag (.ok (listed (text.map cfg.lowerRune) s.world.db))) := by
  have follows : ∀ domain, inCache domain s.world = listed domain s.world.db :=
    fun domain => set_follows_table run quiet warmed (apart domain)
  constructor
  · intro domain
    rw [← listed_iff, ← follows domain, inCache, decide_eq_true_iff]
  · intro text t moves job at_n a done
    obtain ⟨⟨raw, marked⟩, -⟩ := warmed_source run warmed
    obtain ⟨held, held_set⟩ := set_held run
    have begun : (started cfg s (.isDomainAllowed text)).jobs[s.jobs.length]? =
        some ((server cfg).begin (.isDomainAllowed text)) := by
      simp [started]
    have secured : Secures World.perform noFault (Still s.world)
        (fun a => a = .flag (.ok (listed (text.map cfg.lowerRune) s.world.db)))
        (program cfg (.isDomainAllowed text)) := by
      apply secures_bind (isDomainAllowed_alone marked held_set cfg.lowerRune text)
      rintro r rfl
      have same := follows (text.map cfg.lowerRune)
      rw [inCache, members_holds held_set] at same
      rw [same]
      rfl
    have env_still : ∀ w e w', w.env e = some w' → Still s.world w → Still s.world w' := by
      intro w e w' moved still
      obtain ⟨db, redis, -, -⟩ := env_scope moved
      exact ⟨redis.trans still.1, db.trans still.2⟩
    obtain ⟨-, job', at_n', held_post⟩ := alone_secured (I := Still s.world) env_still begun
      secured ⟨rfl, rfl⟩ moves
    rw [at_n', Option.some.injEq] at at_n
    subst job'
    rw [done] at held_post
    exact held_post

instance : DecidablePred AtTable := fun c => by
  unfold AtTable
  split <;> infer_instance

/- A crossing takes a change of the table between a call's own step there and its word to the set. -/
theorem crossed_needs {domain : Str} {log : Log} (crossed : Crossed domain log) :
    ∃ put change step : LogEntry,
      [put, change, step] ∈ log.sublistsLen 3 ∧ put.caller = step.caller ∧ AtTable step.cmd ∧
        change.after.db.customDomains ≠ change.before.db.customDomains := by
  obtain ⟨put, told, change, step, order, mine, -, at_table, -, changes, -, -⟩ := crossed
  refine ⟨put, change, step, ?_, mine, at_table, ?_⟩
  · rw [List.mem_sublistsLen]
    constructor
    · exact ((List.sublist_cons_self told [change, step]).cons_cons put).trans order
    · rfl
  · intro same
    exact changes (listed_congr same)

/- The cache is warmed, two domains are added, and the first one is deleted. -/
def maintained : State :=
  after (server devConfig) faultless twoCandidates.start
    (.start .warmCache :: runs 0 3 ++ .start (.insertDomain "a.edu".toList) :: runs 1 2 ++
      .start (.insertDomain "b.edu".toList) :: runs 2 2 ++ .start (.deleteDomainRow 1) :: runs 3 3)

theorem maintained_reached :
    Reaches (server devConfig) faultless (freshBoot twoCandidates).start maintained :=
  reaches_after (by decide +kernel)

theorem maintained_apart (domain : Str) : ¬ Crossed domain maintained.log := by
  intro crossed
  have apart : ∀ l ∈ maintained.log.sublistsLen 3, ∀ put ∈ l.head?, ∀ change ∈ l[1]?,
      ∀ step ∈ l[2]?, ¬ (put.caller = step.caller ∧ AtTable step.cmd ∧
        change.after.db.customDomains ≠ change.before.db.customDomains) := by
    decide +kernel
  obtain ⟨put, change, step, order, rest⟩ := crossed_needs crossed
  exact apart _ order put rfl change rfl step rfl rest

theorem maintained_quiet : ∀ job ∈ maintained.jobs, ¬ InFlight job := by
  have finished : ∀ job ∈ maintained.jobs, isFinished job = true := by decide +kernel
  intro job member flying
  have unfinished := flying.1
  rw [finished job member] at unfinished
  cases unfinished

theorem domain_cache_coherent_maintained :
    maintained.world.db.customDomains.map CustomDomain.domain = ["b.edu".toList] ∧
      (∀ domain, domain ∈ maintained.world.redis.members customDomainsRedisKey ↔
        ∃ row ∈ maintained.world.db.customDomains, row.domain = domain) ∧
        ∀ text, AnswersAlone devConfig maintained (.isDomainAllowed text)
          (fun a => a = .flag (.ok (listed (text.map devConfig.lowerRune) maintained.world.db))) :=
  ⟨by decide +kernel, domain_cache_coherent maintained_reached maintained_quiet
    (by decide +kernel) maintained_apart⟩

def flagAnswer (job : Job Cmd Reply Call Answer) : Option Bool :=
  match job.rest with
  | .done (.flag (.ok b)) => some b
  | _ => none

/- A warming reads the empty table, a domain is added, and the warming drops the set. -/
def overwritten : State :=
  after (server devConfig) faultless twoCandidates.start
    (.start .warmCache :: runs 0 1 ++ .start (.insertDomain "a.edu".toList) :: runs 1 2 ++ runs 0 2)

/- Nothing is in flight, the marker is there, the table has the domain, the set does not, and
   IsDomainAllowed refuses it. -/
theorem rebuild_forgets_domain : ∃ s t,
    Reaches (server devConfig) faultless (freshBoot twoCandidates).start s ∧
      (∀ job ∈ s.jobs, isFinished job = true) ∧ Warmed s.world ∧
        s.world.redis.members customDomainsRedisKey = [] ∧
          listed "a.edu".toList s.world.db = true ∧
            Reaches (server devConfig) (alone s.jobs.length noFault)
              (started devConfig s (.isDomainAllowed "a.edu".toList)) t ∧
                t.jobs.map flagAnswer = [none, none, some false] := by
  have two : overwritten.jobs.length = 2 := by decide +kernel
  refine ⟨overwritten, after (server devConfig) (alone 2 noFault)
    (started devConfig overwritten (.isDomainAllowed "a.edu".toList)) (runs 2 2),
    reaches_after (by decide +kernel), by decide +kernel, by decide +kernel, by decide +kernel,
    by decide +kernel, ?_, by decide +kernel⟩
  rw [two]
  exact reaches_after (by decide +kernel)

end DomainCache
