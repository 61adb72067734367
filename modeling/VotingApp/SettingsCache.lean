import VotingApp.OtpRecords
import VotingApp.TableInvariants

/-!
Redis in front of the settings row. A cached text was selected from the row; it can be
old only as long as an update is between its UPDATE and its DEL, unless a reader writes
back what it selected before such an update.
-/
namespace SettingsCache
open GoText GoTime JsonText Tables EffectProgram CallPool PoolHistory ExpiringStore VotingWorld
open OtpService VotingSettings VoteService CustomDomains Handlers VotingServer
open Footprints Frames OtpRecords TableInvariants

/-- A row whose ends_at survives being printed and read again. -/
def Storable (v : Settings) : Prop := ∀ t ∈ v.endsAt, printable t = true ∧ t % second = 0

theorem marshal_storable {v : Settings} (storable : Storable v) :
    marshalSettings v = .ok (print (cachedSettings v)) := by
  have fits : v.endsAt.all printable = true := by
    cases ends : v.endsAt with
    | none => rfl
    | some t => exact (storable t (by rw [ends]; rfl)).1
  rw [marshalSettings, if_pos fits]

theorem readTime_jsonTime {v : Settings} (storable : Storable v) :
    readTime (jsonTime v.endsAt) = some v.endsAt := by
  cases ends : v.endsAt with
  | none => rfl
  | some t =>
    obtain ⟨fits, whole⟩ := storable t (by rw [ends]; rfl)
    rw [jsonTime, readTime, parse_format whole fits]
    rfl

/- What toRedis writes is what fromRedis reads. -/
theorem unmarshal_marshal {v : Settings} (storable : Storable v) {raw : Str}
    (marshalled : marshalSettings v = .ok raw) : unmarshalSettings raw = .ok v := by
  rw [marshal_storable storable] at marshalled
  cases marshalled
  have isOpen : readMember zeroSettings (jsonName "is_open" (jsonBool v.isOpen)) =
      some ⟨v.isOpen, none, false⟩ := rfl
  have endsAt : readMember ⟨v.isOpen, none, false⟩ (jsonName "ends_at" (jsonTime v.endsAt)) =
      some ⟨v.isOpen, v.endsAt, false⟩ := by
    have named : readMember ⟨v.isOpen, none, false⟩ (jsonName "ends_at" (jsonTime v.endsAt)) =
      (readTime (jsonTime v.endsAt)).map fun t => ⟨v.isOpen, t, false⟩ := rfl
    rw [named, readTime_jsonTime storable]
    rfl
  have customOnly : readMember ⟨v.isOpen, v.endsAt, false⟩
      (jsonName "custom_domains_only" (jsonBool v.customDomainsOnly)) = some v := rfl
  simp only [unmarshalSettings, parse_print, cachedSettings, List.foldlM_cons, List.foldlM_nil,
    isOpen, endsAt, customOnly, Option.bind_eq_bind, Option.bind_some, Option.pure_def]

/- The last thing a call has done is to change the settings row. -/
def JustUpdated : History → Prop
  | ⟨.sql (.updateSettings _ _), .ok _⟩ :: _ => True
  | ⟨.sql (.updateCustomDomainsOnly _), .ok _⟩ :: _ => True
  | _ => False

def invalidate : Cmd := .redis (.del [votingSettingsRedisKey])

/- The key is only set to what has just been selected. -/
def WriteRule (past : History) : Cmd → Prop
  | .redis (.set key raw ttl) => key = votingSettingsRedisKey → ∃ v rest,
      past = ⟨.sql .getSettings, .ok v⟩ :: rest ∧ marshalSettings v = .ok raw ∧ ttl = 0
  | .redis (.incr key) => key ≠ votingSettingsRedisKey
  | .redis (.expire key _) => key ≠ votingSettingsRedisKey
  | .redis (.sadd key _) => key ≠ votingSettingsRedisKey
  | .redis (.srem key _) => key ≠ votingSettingsRedisKey
  | _ => True

/-- How the calls use the row and its cache: a write-back follows its SELECT, and an
invalidation follows each update. -/
def SettingsRule (past : History) (c : Cmd) : Prop :=
  WriteRule past c ∧ (JustUpdated past → c = invalidate)

def Settled (past : History) : Prop := ¬ JustUpdated past

theorem settings_neutral {c : Cmd} (other : ∀ past, WriteRule past c)
    (quiet : ∀ r past, ¬ JustUpdated (⟨c, r⟩ :: past)) : Neutral SettingsRule Settled c := by
  intro past settled
  constructor
  · exact ⟨other past, fun updated => absurd updated settled⟩
  · intro r
    exact quiet r past

theorem getStatus_settings : VotingSettings.getStatus.Keeps SettingsRule Settled := by
  intro past settled
  refine meets_bind (Q := fun now _ => Settled now) ?_ ?_
  · refine meets_redis ⟨trivial, fun updated => absurd updated settled⟩ fun r => ?_
    cases r <;> exact id
  · intro now cached settled
    cases cached with
    | ok cached => exact settled
    | error err =>
      refine meets_sql ⟨trivial, fun updated => absurd updated settled⟩ fun r => ?_
      cases r with
      | error err => exact id
      | ok v =>
        refine meets_bind (Q := fun now _ => Settled now) ?_ fun _ _ kept => kept
        unfold toRedis
        cases marshalled : marshalSettings v with
        | error err => exact id
        | ok raw =>
          refine meets_redis ⟨fun _ => ⟨v, now, rfl, marshalled, rfl⟩, fun updated => updated.elim⟩
            fun r => ?_
          cases r <;> exact id

theorem isVotingOpen_settings : VotingSettings.isVotingOpen.Keeps SettingsRule Settled := by
  apply keeps_bind getStatus_settings
  intro status
  cases status with
  | error err => exact keeps_done _
  | ok v =>
    dsimp only
    split
    · cases v.endsAt with
      | none => exact keeps_done _
      | some endsAt =>
        exact keeps_call (settings_neutral (fun _ => trivial) fun _ _ => id) fun _ => keeps_done _
    · exact keeps_done _

theorem broadcastPayload_settings : broadcastPayload.Keeps SettingsRule Settled := by
  have build : buildWSPayload.Keeps SettingsRule Settled := by
    apply keeps_sql (settings_neutral (fun _ => trivial) fun _ _ => id)
    intro board
    cases board with
    | error err => exact keeps_done _
    | ok candidates =>
      apply keeps_bind isVotingOpen_settings
      intro opened
      exact keeps_bind getStatus_settings fun _ => keeps_done _
  apply keeps_bind build
  intro payload
  cases payload with
  | error err => exact keeps_done _
  | ok data =>
    exact keeps_call (settings_neutral (fun _ => trivial) fun _ _ => id) fun _ => keeps_done _

theorem updateSettings_settings (isOpen : Bool) (endsAt : Option Nat) :
    (VotingSettings.updateSettings isOpen endsAt).Keeps SettingsRule Settled := by
  intro past settled
  refine meets_sql ⟨trivial, fun updated => absurd updated settled⟩ fun r => ?_
  cases r with
  | error err => exact id
  | ok _ =>
    refine meets_redis ⟨trivial, fun _ => rfl⟩ fun _ => ?_
    exact meets_bind (broadcastPayload_settings _ id) fun _ _ kept => kept

theorem updateCustomDomainsOnly_settings (value : Bool) :
    (VotingSettings.updateCustomDomainsOnly value).Keeps SettingsRule Settled := by
  intro past settled
  refine meets_sql ⟨trivial, fun updated => absurd updated settled⟩ fun r => ?_
  cases r with
  | error err => exact id
  | ok _ => exact meets_redis ⟨trivial, fun _ => rfl⟩ fun _ => id

theorem verify_settings (email otp : Str) :
    (OtpService.verify email otp).Keeps SettingsRule Settled := by
  apply keeps_of_issues (verify_issues email otp)
  intro c sent
  cases sent with
  | block =>
    exact settings_neutral (fun _ same => by simp at same) fun _ _ => id
  | count => exact settings_neutral (by simp [WriteRule]) fun _ _ => id
  | expire => exact settings_neutral (by simp [WriteRule]) fun _ _ => id
  | _ => exact settings_neutral (fun _ => trivial) fun _ _ => id

theorem domain_settings : ∀ c, DomainCmd c → Neutral SettingsRule Settled c := by
  intro c sent
  cases sent with
  | add domains => exact settings_neutral (by simp [WriteRule]) fun _ _ => id
  | remove domain => exact settings_neutral (by simp [WriteRule]) fun _ _ => id
  | mark =>
    exact settings_neutral (fun _ same => by simp at same) fun _ _ => id
  | _ => exact settings_neutral (fun _ => trivial) fun _ _ => id

theorem verifyAndVote_settings (email otp ip userAgent : Str) :
    (VoteService.verifyAndVote email otp ip userAgent).Keeps SettingsRule Settled := by
  apply keeps_bind (verify_settings email otp)
  intro found
  cases found with
  | error err => exact keeps_done _
  | ok found =>
    apply keeps_sql (settings_neutral (fun _ => trivial) fun _ _ => id)
    intro r
    cases r with
    | error err =>
      dsimp only
      split <;> exact keeps_done _
    | ok _ => exact keeps_bind broadcastPayload_settings fun _ => keeps_done _

theorem settings_respected (cfg : Config) (req : Call) :
    Respected cfg req SettingsRule Settled where
  plain c sent := by
    cases sent with
    | rate ip => exact settings_neutral (by simp [WriteRule]) fun _ _ => id
    | rateWindow ip => exact settings_neutral (by simp [WriteRule]) fun _ _ => id
    | _ => exact settings_neutral (fun _ => trivial) fun _ _ => id
  status := getStatus_settings
  broadcast := broadcastPayload_settings
  update := updateSettings_settings
  mode := updateCustomDomainsOnly_settings
  generate email fp candidate name _ := by
    apply keeps_of_issues (generateAndStore_issues email fp candidate name)
    intro c sent
    cases sent with
    | store value =>
      exact settings_neutral (fun _ same => by simp at same) fun _ _ => id
    | _ => exact settings_neutral (fun _ => trivial) fun _ _ => id
  verify email otp _ := verify_settings email otp
  vote email otp ip userAgent _ := verifyAndVote_settings email otp ip userAgent
  deleteCandidate _ n _ _ := by
    apply keeps_of_issues (deleteCandidate_issues n)
    intro c sent
    cases sent <;> exact settings_neutral (fun _ => trivial) fun _ _ => id
  insertDomain domain := keeps_of_issues (insert_issues domain) domain_settings
  deleteDomain id := keeps_of_issues (delete_issues id) domain_settings
  warmCache := keeps_of_issues warmCache_issues domain_settings

def ChangesSettings (ev : LogEntry) : Prop := ev.after.db.settings ≠ ev.before.db.settings

instance : DecidablePred ChangesSettings := fun ev =>
  inferInstanceAs (Decidable (ev.after.db.settings ≠ ev.before.db.settings))

/-- During these events a call has done such an update and then invalidated the cache. -/
def Overtaken (updates : LogEntry → Prop) (mid : Log) : Prop := ∃ del update : LogEntry,
  List.Sublist [del, update] mid ∧ del.caller = update.caller ∧ del.cmd = invalidate ∧ updates update

def WritesBack : Cmd → Prop
  | .redis (.set key _ _) => key = votingSettingsRedisKey
  | _ => False

instance : DecidablePred WritesBack := fun c => by
  unfold WritesBack
  split <;> infer_instance

/-- A call writes back the row it has selected, after an update that came in between has
already invalidated the cache. -/
def StaleWriteBack (updates : LogEntry → Prop) (log : Log) : Prop :=
  ∃ late set mid select oldest, log = late ++ set :: (mid ++ select :: oldest) ∧
    WritesBack set.cmd ∧ select.cmd = .sql .getSettings ∧ select.caller = set.caller ∧
      (∀ ev ∈ mid, ev.caller ≠ set.caller) ∧ Overtaken updates mid

theorem stale_mono {updates : LogEntry → Prop} {newer older : Log}
    (stale : StaleWriteBack updates older) : StaleWriteBack updates (newer ++ older) := by
  obtain ⟨late, set, mid, select, oldest, rfl, rest⟩ := stale
  exact ⟨newer ++ late, set, mid, select, oldest, by simp, rest⟩

/- A stale write-back takes two calls. -/
theorem stale_needs_two {updates : LogEntry → Prop} {log : Log}
    (stale : StaleWriteBack updates log) :
    ∃ set ∈ log, ∃ update ∈ log, WritesBack set.cmd ∧ updates update ∧
      update.caller ≠ set.caller := by
  obtain ⟨late, set, mid, select, oldest, rfl, writes, -, -, apart, del, update, order, -, -, changes⟩ :=
    stale
  have in_mid : update ∈ mid := order.subset (by simp)
  exact ⟨set, by simp, update, by simp [in_mid], writes, changes, apart update in_mid⟩

/-- No call is between its UPDATE and its DEL. -/
def NoneUpdating (s : State) : Prop := ∀ job ∈ s.jobs, ¬ JustUpdated job.past

/-- The key is absent, or its text decodes to exactly the row. -/
def Coherent (w : World) : Prop := ∀ e, w.redis votingSettingsRedisKey = some e →
  ∃ raw, e = ⟨.text raw, none⟩ ∧ unmarshalSettings raw = .ok w.db.settings

/-- The log since a SELECT whose row is what the key holds. -/
structure CachedFrom (log : Log) (raw : Str) (v : Settings) (newer : Log) (set : LogEntry)
    (mid : Log) (select : LogEntry) (oldest : Log) : Prop where
  order : log = newer ++ set :: (mid ++ select :: oldest)
  sets : set.cmd = .redis (.set votingSettingsRedisKey raw 0)
  selects : select.exchange = ⟨.sql .getSettings, .ok v⟩
  same_call : select.caller = set.caller
  apart : ∀ ev ∈ mid, ev.caller ≠ set.caller
  last : ∀ ev ∈ newer, ¬ Wrote votingSettingsRedisKey ev
  marshalled : marshalSettings v = .ok raw

section Runs
variable {cfg : Config} {allow : State → Move → Bool} {seed : Seed} {s : State}

theorem settings_rule (run : Reaches (server cfg) allow seed.start s) {late older : Log}
    {ev : LogEntry} (split : s.log = late ++ ev :: older) :
    SettingsRule (own ev.caller older) ev.cmd := by
  obtain ⟨job, -, rule⟩ := contract_of_logged
    (fun req => program_keeps (settings_respected cfg req) [] id) rfl rfl run split
  exact rule

theorem finished_settled (run : Reaches (server cfg) allow seed.start s)
    {job : Job Cmd Reply Call Answer} (member : job ∈ s.jobs) {a : Answer}
    (done : job.rest = .done a) : ¬ JustUpdated job.past := by
  have held := contract_of_job
    (fun req => program_keeps (settings_respected cfg req) [] id) rfl run job member
  rw [done] at held
  exact held

/- What a write leaves under the key: nothing, or what its call has just selected. -/
theorem settings_write (run : Reaches (server cfg) allow seed.start s) {late older : Log}
    {ev : LogEntry} (split : s.log = late ++ ev :: older)
    (wrote : Wrote votingSettingsRedisKey ev) :
    ev.after.redis votingSettingsRedisKey = none ∨ ∃ raw v rest,
      ev.cmd = .redis (.set votingSettingsRedisKey raw 0) ∧
        own ev.caller older = ⟨.sql .getSettings, .ok v⟩ :: rest ∧ marshalSettings v = .ok raw ∧
          ev.after.redis votingSettingsRedisKey = some ⟨.text raw, none⟩ := by
  obtain ⟨rule, -⟩ := settings_rule run split
  have performed := performed_of_run run ev (by rw [split]; simp)
  obtain ⟨writes, took⟩ := wrote
  cases cmd : ev.cmd with
  | redis c =>
    rw [cmd] at rule writes
    obtain ⟨r, exchange⟩ := exchange_of_cmd cmd
    obtain ⟨-, after⟩ := exchange_redis performed exchange
    have run_after : ev.after.redis = (c.run ev.before.redis ev.before.clock).2 := by
      rw [after]
      exact faulty_took took _ _
    rw [run_after]
    cases c with
    | set key raw ttl =>
      have same : votingSettingsRedisKey = key := by simpa [WritesKey, writtenKeys] using writes
      subst key
      obtain ⟨v, rest, past, marshalled, no_ttl⟩ := rule rfl
      subst ttl
      refine Or.inr ⟨raw, v, rest, rfl, past, marshalled, ?_⟩
      dsimp only [RedisCmd.run]
      rw [set_self]
      rfl
    | del keys => exact Or.inl (del_self _ writes)
    | incr key => exact absurd (by simpa [WritesKey, writtenKeys] using writes) (Ne.symm rule)
    | expire key ttl => exact absurd (by simpa [WritesKey, writtenKeys] using writes) (Ne.symm rule)
    | sadd key members => exact absurd (by simpa [WritesKey, writtenKeys] using writes) (Ne.symm rule)
    | srem key member => exact absurd (by simpa [WritesKey, writtenKeys] using writes) (Ne.symm rule)
    | _ => simp [WritesKey, writtenKeys] at writes
  | _ =>
    rw [cmd] at writes
    exact absurd writes id

/- What the key holds was selected by the call that wrote it last. -/
theorem cached_from (run : Reaches (server cfg) allow seed.start s) :
    s.world.redis votingSettingsRedisKey = none ∨ ∃ raw v newer set mid select oldest,
      CachedFrom s.log raw v newer set mid select oldest ∧
        s.world.redis votingSettingsRedisKey = some ⟨.text raw, none⟩ := by
  have logged := performed_of_run run
  rcases last_change (fun w => w.redis votingSettingsRedisKey) (Wrote votingSettingsRedisKey)
    (fun w e w' moved => by rw [(env_scope moved).2.1]) rfl run
    (fun ev member idle => key_kept (logged ev member) idle) with
    ⟨-, same⟩ | ⟨newer, set, older, split, wrote, last, same⟩
  · exact Or.inl same
  · rcases settings_write run split wrote with gone | ⟨raw, v, rest, sets, past, marshalled, left⟩
    · exact Or.inl (same.trans gone)
    · obtain ⟨mid, select, oldest, rfl, same_call, selects, -, apart⟩ := own_cons_split past
      exact Or.inr ⟨raw, v, newer, set, mid, select, oldest,
        ⟨split, sets, selects, same_call, apart, last, marshalled⟩, same.trans left⟩

/- A changed row comes from an UPDATE that reported success. -/
theorem change_is_update {ev : LogEntry} (performed : Performed ev)
    (no_fault : ev.oracle.fault = none) (changes : ChangesSettings ev) (rest : History) :
    JustUpdated (ev.exchange :: rest) := by
  obtain ⟨caller, oracle, cmd, reply, before, after⟩ := ev
  have update : WritesSettings cmd := by
    by_contra other
    exact changes (settings_frame other performed)
  cases cmd with
  | sql sc =>
    obtain ⟨answer, same⟩ := perform_sql performed
    dsimp only at no_fault answer same
    rw [faulty_ok no_fault] at answer same
    subst reply
    cases sc with
    | updateSettings isOpen endsAt =>
      simp only [ChangesSettings, same, SqlCmd.run, Db.updateSettings] at changes
      simp only [Event.exchange, SqlCmd.run, Db.updateSettings]
      split
      · trivial
      · rename_i unprintable
        rw [if_neg unprintable] at changes
        exact absurd rfl changes
    | updateCustomDomainsOnly value => trivial
    | _ => exact absurd update id
  | _ => exact absurd update id

/- After an update its call has done nothing more, or its next event is the invalidation. -/
theorem update_followed (run : Reaches (server cfg) allow seed.start s) {late older : Log}
    {update : LogEntry} (split : s.log = late ++ update :: older)
    (updated : ∀ rest, JustUpdated (update.exchange :: rest)) :
    own update.caller late = [] ∨ ∃ (newer : Log) (del : LogEntry) (mid : Log),
      late = newer ++ del :: mid ∧ del.caller = update.caller ∧ del.cmd = invalidate ∧
        own update.caller mid = [] := by
  rcases own_next late older update with nothing | ⟨newer, del, mid, at_late, mine, idle, past⟩
  · exact Or.inl nothing
  · have at_del : s.log = newer ++ del :: (mid ++ update :: older) := by rw [split, at_late]; simp
    obtain ⟨-, next⟩ := settings_rule run at_del
    rw [mine, past] at next
    exact Or.inr ⟨newer, del, mid, at_late, mine, next (updated _), idle⟩

/- A row that differs from what an event left has been changed since. -/
theorem changer_since (run : Reaches (server cfg) allow seed.start s) {newer older : Log}
    {ev : LogEntry} (split : s.log = newer ++ ev :: older)
    (changed : s.world.db.settings ≠ ev.after.db.settings) :
    ∃ update ∈ newer, ChangesSettings update := by
  obtain ⟨moment⟩ := moment_of_logged rfl run split
  by_contra none_changes
  apply changed
  rw [← moment.post_world]
  apply frame_since (fun w => w.db.settings) _ moment.later (by rw [split, moment.post_log])
  · intro e member
    exact not_not.mp fun changes => none_changes ⟨e, member, changes⟩
  · intro w e w' moved
    rw [(env_scope moved).1]

/- An update after a SELECT either has invalidated the cache by now or is about to. -/
theorem changed_since (run : Reaches (server cfg) allow seed.start s) (clean : NoFaults s.log)
    {newer older : Log} {ev : LogEntry} (split : s.log = newer ++ ev :: older)
    (changed : s.world.db.settings ≠ ev.after.db.settings) :
    Overtaken ChangesSettings newer ∨ ∃ job ∈ s.jobs, JustUpdated job.past := by
  obtain ⟨update, member, changes⟩ := changer_since run split changed
  obtain ⟨late, early, at_newer⟩ := List.append_of_mem member
  have at_update : s.log = late ++ update :: (early ++ ev :: older) := by
    rw [split, at_newer]
    simp
  obtain ⟨updating⟩ := moment_of_logged rfl run at_update
  have no_fault : update.oracle.fault = none := clean update (by rw [at_update]; simp)
  have updated := change_is_update updating.performed no_fault changes
  rcases update_followed run at_update updated with
    nothing | ⟨recent, del, mid, at_late, mine, invalidates, -⟩
  · right
    obtain ⟨job, at_job, -⟩ := job_persists updating.later updating.resumed
    refine ⟨job, List.mem_of_getElem? at_job, ?_⟩
    rw [past_of_job rfl rfl run at_job, at_update, own_append, nothing]
    simp only [own, ↓reduceIte, List.nil_append]
    exact updated _
  · left
    refine ⟨del, update, ?_, mine, invalidates, changes⟩
    rw [at_newer, at_late]
    exact (List.singleton_sublist.mpr (by simp)).append (List.singleton_sublist.mpr (by simp))

/- Without a stale write-back nothing has overtaken what the key holds. -/
theorem cache_not_overtaken {updates : LogEntry → Prop} (clean : NoFaults s.log)
    (fresh : ¬ StaleWriteBack updates s.log) {raw : Str} {v : Settings} {newer mid oldest : Log}
    {set select : LogEntry} (source : CachedFrom s.log raw v newer set mid select oldest) :
    ¬ Overtaken updates (newer ++ set :: mid) := by
  rintro ⟨del, update, order, same, invalidates, changes⟩
  obtain ⟨late, early, parts, in_newer, in_rest⟩ := List.sublist_append_iff.mp order
  cases late with
  | cons first late =>
    obtain ⟨rfl, -⟩ := List.cons.inj parts
    have member : del ∈ newer := in_newer.subset List.mem_cons_self
    apply source.last del member
    constructor
    · rw [invalidates]
      exact List.mem_cons_self
    · intro f fault
      rw [clean del (by rw [source.order]; simp [member])] at fault
      cases fault
  | nil =>
    rw [List.nil_append] at parts
    rw [← parts] at in_rest
    have select_cmd : select.cmd = .sql .getSettings := congrArg Exchange.cmd source.selects
    cases in_rest with
    | cons _ in_mid =>
      have writes : WritesBack set.cmd := by rw [source.sets]; rfl
      exact fresh ⟨newer, set, mid, select, oldest, source.order, writes, select_cmd,
        source.same_call, source.apart, del, update, in_mid, same, invalidates, changes⟩
    | cons_cons _ _ =>
      rw [source.sets] at invalidates
      cases invalidates

theorem selected_row (run : Reaches (server cfg) allow seed.start s) {late older : Log}
    {select : LogEntry} (split : s.log = late ++ select :: older) {v : Settings}
    (selects : select.exchange = ⟨.sql .getSettings, .ok v⟩) :
    select.before.db.settings = v ∧ select.after.db.settings = v ∧ Storable v := by
  obtain ⟨selecting⟩ := moment_of_logged rfl run split
  obtain ⟨answer, after⟩ := answered_sql selecting.performed selects
  have row : select.before.db.settings = v := by simpa [SqlCmd.run] using answer
  have same : select.after.db.settings = v := by
    rw [after]
    exact row
  refine ⟨row, same, ?_⟩
  rw [← same, ← selecting.post_world]
  exact (sound_of_run selecting.taken).endsAt

/- A hit shows what the call that wrote the key last had selected. -/
theorem hit_source (run : Reaches (server cfg) allow seed.start s) {late older : Log}
    {look : LogEntry} (split : s.log = late ++ look :: older) {raw : Str} {v : Settings}
    (hit : look.exchange = ⟨.redis (.get votingSettingsRedisKey), .ok raw⟩)
    (decodes : unmarshalSettings raw = .ok v) :
    look.before.redis votingSettingsRedisKey = some ⟨.text raw, none⟩ ∧
      ∃ newer set mid select oldest, CachedFrom older raw v newer set mid select oldest := by
  obtain ⟨looking⟩ := moment_of_logged rfl run split
  obtain ⟨answer, -⟩ := answered_redis looking.performed hit
  have source := cached_from looking.reached
  rw [looking.pre_world, looking.pre_log] at source
  rcases source with absent | ⟨raw', v', newer, set, mid, select, oldest, source, held⟩
  · rw [RedisCmd.run, get_absent itoa absent] at answer
    cases answer
  · rw [RedisCmd.run, get_forever itoa held] at answer
    cases answer
    have at_select : s.log = (late ++ look :: (newer ++ set :: mid)) ++ select :: oldest := by
      rw [split, source.order]
      simp
    have same := unmarshal_marshal (selected_row run at_select source.selects).2.2 source.marshalled
    rw [decodes] at same
    cases same
    exact ⟨held, newer, set, mid, select, oldest, source⟩

/- Without faults and stale write-backs the cache agrees with the row whenever no update
   is between its two steps. -/
theorem cache_coherent (run : Reaches (server cfg) allow seed.start s) (clean : NoFaults s.log)
    (fresh : ¬ StaleWriteBack ChangesSettings s.log) (quiet : NoneUpdating s) : Coherent s.world := by
  intro e held
  rcases cached_from run with absent | ⟨raw, v, newer, set, mid, select, oldest, source, text⟩
  · rw [absent] at held
    cases held
  · rw [text, Option.some.injEq] at held
    refine ⟨raw, held.symm, ?_⟩
    have at_select : s.log = (newer ++ set :: mid) ++ select :: oldest := by
      rw [source.order]
      simp
    obtain ⟨-, row, storable⟩ := selected_row run at_select source.selects
    have same : s.world.db.settings = v := by
      by_contra changed
      rw [← row] at changed
      rcases changed_since run clean at_select changed with overtaken | ⟨job, member, updating⟩
      · exact cache_not_overtaken clean fresh source overtaken
      · exact quiet job member updating
    rw [same]
    exact unmarshal_marshal storable source.marshalled

end Runs

def noFault (o : Oracle) : Bool := o.fault.isNone

theorem noFault_none {o : Oracle} (fair : noFault o = true) : o.fault = none := by
  simpa [noFault] using fair

/-- The row is v, and so is what Redis has of it. -/
def Agrees (v : Settings) (w : World) : Prop := w.db.settings = v ∧ Coherent w

theorem getStatus_alone {v : Settings} (storable : Storable v) :
    Secures World.perform noFault (Agrees v) (fun r => r = .ok v) VotingSettings.getStatus := by
  apply secures_bind (Q := fun cached => ∀ x, cached = .ok x → x = v)
  · apply secures_redis
    intro w o r w' agrees fair performed
    obtain ⟨answer, same⟩ := perform_redis performed
    rw [faulty_ok (noFault_none fair)] at answer same
    subst r w'
    refine ⟨agrees, ?_⟩
    cases held : w.redis votingSettingsRedisKey with
    | none =>
      rw [RedisCmd.run, get_absent itoa held]
      intro x hit
      cases hit
    | some e =>
      obtain ⟨raw, rfl, decodes⟩ := agrees.2 e held
      rw [RedisCmd.run, get_forever itoa held]
      intro x hit
      have same : unmarshalSettings raw = .ok x := hit
      rw [decodes, agrees.1] at same
      cases same
      rfl
  · intro cached hit
    cases cached with
    | ok x => exact congrArg _ (hit x rfl)
    | error err =>
      apply secures_sql
      intro w o r w' agrees fair performed
      obtain ⟨answer, same⟩ := perform_sql performed
      rw [faulty_ok (noFault_none fair)] at answer same
      subst r w'
      refine ⟨agrees, ?_⟩
      rw [SqlCmd.run, agrees.1]
      refine secures_bind (Q := fun _ => True) ?_ fun _ _ => rfl
      rw [toRedis, marshal_storable storable]
      apply secures_redis
      intro w o r w' agrees fair performed
      obtain ⟨answer, same⟩ := perform_redis performed
      rw [faulty_ok (noFault_none fair)] at answer same
      subst r w'
      refine ⟨⟨agrees.1, ?_⟩, trivial⟩
      intro e held
      dsimp only [RedisCmd.run] at held
      rw [set_self, Option.some.injEq] at held
      refine ⟨_, held.symm, ?_⟩
      rw [agrees.1]
      exact unmarshal_marshal storable (marshal_storable storable)

theorem isVotingOpen_alone {v : Settings} (storable : Storable v) :
    Secures World.perform noFault (Agrees v)
      (fun r => ∃ b, r = .ok b ∧ (b = true → v.isOpen = true)) VotingSettings.isVotingOpen := by
  apply secures_bind (getStatus_alone storable)
  rintro status rfl
  dsimp only
  split
  · rename_i opened
    cases ends : v.endsAt with
    | none => exact ⟨true, rfl, fun _ => opened⟩
    | some endsAt =>
      apply secures_issue
      intro w o now w' agrees fair performed
      simp only [World.perform, Option.some.injEq, Prod.mk.injEq] at performed
      obtain ⟨rfl, rfl⟩ := performed
      exact ⟨agrees, _, rfl, fun _ => opened⟩
  · exact ⟨false, rfl, fun h => absurd h Bool.false_ne_true⟩

theorem agrees_env {v : Settings} {w : World} {e : Env} {w' : World} (moved : w.env e = some w')
    (agrees : Agrees v w) : Agrees v w' := by
  obtain ⟨db, redis, -, -⟩ := env_scope moved
  unfold Agrees Coherent
  rw [db, redis]
  exact agrees

def started (cfg : Config) (s : State) (req : Call) : State :=
  { s with jobs := s.jobs ++ [(server cfg).begin req] }

/-- Every answer of a call that is started now and runs with nobody in between. -/
def AnswersAlone (cfg : Config) (s : State) (req : Call) (post : Answer → Prop) : Prop :=
  ∀ t, Reaches (server cfg) (alone s.jobs.length noFault) (started cfg s req) t →
    ∀ job, t.jobs[s.jobs.length]? = some job → ∀ a, job.rest = .done a → post a

theorem answers_alone {cfg : Config} {s : State} {req : Call} {post : Answer → Prop}
    {v : Settings} (agrees : Agrees v s.world)
    (secures : Secures World.perform noFault (Agrees v) post (program cfg req)) :
    AnswersAlone cfg s req post := by
  intro t run job at_n a done
  have begun : (started cfg s req).jobs[s.jobs.length]? = some ((server cfg).begin req) := by
    simp [started]
  obtain ⟨-, job', at_n', held⟩ := alone_secured (I := Agrees v)
    (fun _ _ _ moved => agrees_env moved) begun secures agrees run
  rw [at_n', Option.some.injEq] at at_n
  subst job'
  rw [done] at held
  exact held

/- In every faultless run without a stale write-back, whenever no update is between its
   two steps, the key is absent or decodes to the row, and a status asked for now and
   alone is the row. -/
theorem settings_cache_coherent {cfg : Config} {seed : Seed} {s : State}
    (run : Reaches (server cfg) faultless seed.start s)
    (fresh : ¬ StaleWriteBack ChangesSettings s.log) (quiet : NoneUpdating s) :
    Coherent s.world ∧
      AnswersAlone cfg s .getStatus (fun a => a = .status (.ok s.world.db.settings)) ∧
        AnswersAlone cfg s .isVotingOpen
          (fun a => ∃ b, a = .flag (.ok b) ∧ (b = true → s.world.db.settings.isOpen = true)) := by
  have coherent := cache_coherent run (no_faults run) fresh quiet
  have storable : Storable s.world.db.settings := (sound_of_run run).endsAt
  refine ⟨coherent, answers_alone ⟨rfl, coherent⟩ ?_, answers_alone ⟨rfl, coherent⟩ ?_⟩
  · apply secures_bind (getStatus_alone storable)
    rintro status rfl
    rfl
  · apply secures_bind (isVotingOpen_alone storable)
    rintro opened ⟨b, rfl, is_open⟩
    exact ⟨b, rfl, is_open⟩

/- An admin closes the voting and then somebody asks for the status. -/
def closed : State :=
  after (server devConfig) faultless twoCandidates.start
    (.start (.updateSettings false none) :: runs 0 8 ++ .start .getStatus :: runs 1 1)

theorem closed_reached : Reaches (server devConfig) faultless twoCandidates.start closed :=
  reaches_after (by decide +kernel)

def isFinished (job : Job Cmd Reply Call Answer) : Bool :=
  match job.rest with
  | .done _ => true
  | .call _ _ => false

/- When no call is in flight, no update is between its two steps. -/
theorem none_updating_of_finished {cfg : Config} {allow : State → Move → Bool} {seed : Seed}
    {s : State} (run : Reaches (server cfg) allow seed.start s)
    (finished : ∀ job ∈ s.jobs, isFinished job = true) : NoneUpdating s := by
  intro job member
  have done := finished job member
  cases rest : job.rest with
  | done a => exact finished_settled run member rest
  | call c next => simp [isFinished, rest] at done

theorem closed_not_stale : ¬ StaleWriteBack ChangesSettings closed.log := by
  intro stale
  have apart : ∀ set ∈ closed.log, ∀ update ∈ closed.log, ¬ (WritesBack set.cmd ∧
      ChangesSettings update ∧ update.caller ≠ set.caller) := by
    decide +kernel
  obtain ⟨set, at_set, update, at_update, two⟩ := stale_needs_two stale
  exact apart set at_set update at_update two

theorem settings_cache_coherent_closed :
    closed.world.db.settings = ⟨false, none, false⟩ ∧ Coherent closed.world ∧
      AnswersAlone devConfig closed .getStatus
        (fun a => a = .status (.ok closed.world.db.settings)) ∧
        AnswersAlone devConfig closed .isVotingOpen
          (fun a => ∃ b, a = .flag (.ok b) ∧ (b = true → closed.world.db.settings.isOpen = true)) :=
  ⟨by decide +kernel, settings_cache_coherent closed_reached closed_not_stale
    (none_updating_of_finished closed_reached (by decide +kernel))⟩

/- What a reader of the key gets. -/
def cachedStatus (w : World) : Option Settings :=
  (w.redis.get itoa w.clock votingSettingsRedisKey).toOption.bind fun raw =>
    (unmarshalSettings raw).toOption

/- A reader of the key gets what its text decodes to. -/
theorem cached_text {w : World} {raw : Str} {s : Settings}
    (held : w.redis votingSettingsRedisKey = some ⟨.text raw, none⟩)
    (decodes : unmarshalSettings raw = .ok s) : cachedStatus w = some s := by
  unfold cachedStatus
  rw [get_forever itoa held]
  change (unmarshalSettings raw).toOption = some s
  rw [decodes]
  rfl

theorem coherent_status {w : World} (coherent : Coherent w) :
    cachedStatus w = none ∨ cachedStatus w = some w.db.settings := by
  unfold cachedStatus
  cases held : w.redis votingSettingsRedisKey with
  | none =>
    rw [get_absent itoa held]
    exact Or.inl rfl
  | some e =>
    obtain ⟨raw, rfl, decodes⟩ := coherent e held
    rw [get_forever itoa held]
    right
    change (unmarshalSettings raw).toOption = _
    rw [decodes]
    rfl

def statusAnswer (job : Job Cmd Reply Call Answer) : Option Settings :=
  match job.rest with
  | .done (.status (.ok v)) => some v
  | _ => none

/- A reader selects the open row, an admin closes the voting, the reader writes back. -/
def reopenMoves : List Move :=
  .start .getStatus :: runs 0 2 ++ .start (.updateSettings false none) :: runs 1 8 ++ runs 0 1

def reopened : State := after (server devConfig) faultless twoCandidates.start reopenMoves

/- Nothing is in flight, the row is closed, and the next status is open. -/
theorem stale_write_back_reopens :
    ∃ s t, Reaches (server devConfig) faultless twoCandidates.start s ∧
      (∀ job ∈ s.jobs, isFinished job = true) ∧ ¬ Coherent s.world ∧
        s.world.db.settings = ⟨false, none, false⟩ ∧
          Reaches (server devConfig) (alone s.jobs.length noFault)
            (started devConfig s .getStatus) t ∧
              t.jobs.map statusAnswer =
                [some ⟨true, none, false⟩, none, some ⟨true, none, false⟩] := by
  have two : reopened.jobs.length = 2 := by decide +kernel
  refine ⟨reopened, after (server devConfig) (alone 2 noFault) (started devConfig reopened .getStatus)
    (runs 2 1), reaches_after (by decide +kernel), by decide +kernel, ?_, by decide +kernel, ?_,
    by decide +kernel⟩
  swap
  · rw [two]
    exact reaches_after (by decide +kernel)
  intro coherent
  have wrong : cachedStatus reopened.world = some ⟨true, none, false⟩ := by decide +kernel
  have row : reopened.world.db.settings = ⟨false, none, false⟩ := by decide +kernel
  have either := coherent_status coherent
  rw [wrong, row] at either
  revert either
  decide

end SettingsCache
