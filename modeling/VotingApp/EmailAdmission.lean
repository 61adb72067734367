import VotingApp.SoloServer
import VotingApp.DomainCache
import VotingApp.Aliases

/-!
Which addresses may ask for a code. The answer is read through the cache of the settings and
through the cache of the custom domains, and either can be lost at any time; what it should
be is said by the tables alone.
-/
namespace EmailAdmission
open GoText GoTime JsonText Tables EffectProgram CallPool SoloRun ExpiringStore VotingWorld
open OtpService VotingSettings VoteService CustomDomains Handlers VotingServer
open Footprints Frames TableInvariants SettingsCache DomainCache SoloServer Aliases

/-- The lowercased text after the last @ is a custom domain, or it is built in and the custom
domains are not the only ones. -/
def Admitted (cfg : Config) (db : Db) (email : Str) : Prop := ∃ front back,
  email = front ++ '@' :: back ∧ '@' ∉ back ∧
    ((∃ row ∈ db.customDomains, row.domain = toLower cfg back) ∨
      (isBuiltin (toLower cfg back) = true ∧ db.settings.customDomainsOnly = false))

/-- The operations of the administrator and the warming of the cache. -/
inductive Operation : Call → Prop where
  | addDomain (body : Except Str Str) : Operation (.addDomain body)
  | deleteDomain (id : Str) : Operation (.deleteDomain id)
  | updateDomainMode (body : Except Str Bool) : Operation (.updateDomainMode body)
  | warmCache : Operation .warmCache

/-- One operation after the other, each with what it leaves in the background, over a Redis that
can be flushed in between. The list is what has still to be done in the background. -/
inductive Sequential (cfg : Config) (w₀ : World) : World → List Call → Prop where
  | start : Sequential cfg w₀ w₀ []
  | operation {w w' : World} {req : Call} {a : Answer} {later : List Call}
      (run : Sequential cfg w₀ w []) (op : Operation req)
      (executed : Completes cfg w (program cfg req) a w' later) : Sequential cfg w₀ w' later
  | asked {w w' : World} {email : Str} {r : Except GoErr Bool} {later : List Call}
      (run : Sequential cfg w₀ w [])
      (executed : Completes cfg w (isEmailAllowed cfg email) r w' later) : Sequential cfg w₀ w' later
  | background {w w' : World} {req : Call} {a : Answer} {rest later : List Call}
      (run : Sequential cfg w₀ w (req :: rest))
      (executed : Completes cfg w (program cfg req) a w' later) :
      Sequential cfg w₀ w' (rest ++ later)
  | flush {w : World} (run : Sequential cfg w₀ w []) :
      Sequential cfg w₀ { w with redis := fun _ => none } []
  | env {w w' : World} {e : Env} (run : Sequential cfg w₀ w []) (moved : w.env e = some w') :
      Sequential cfg w₀ w' []

/-- What Redis has of the settings is the row. -/
def Mirrored (v : Memory) : Prop := ∀ e, v.redis votingSettingsRedisKey = some e →
  ∃ raw, e = ⟨.text raw, none⟩ ∧ unmarshalSettings raw = .ok v.db.settings

/-- Without the marker the set is not asked; with it the set holds the table. -/
def Follows (v : Memory) : Prop := v.redis customDomainsWarmedRedisKey = none ∨
  ((∃ raw, v.redis customDomainsWarmedRedisKey = some ⟨.text raw, none⟩) ∧
    ∃ held, v.redis.HoldsSet customDomainsRedisKey held ∧
      ∀ domain, domain ∈ held ↔ listed domain v.db = true)

/-- Both caches say what the tables say, and no custom domain is a built-in one. -/
structure Consistent (v : Memory) : Prop where
  sound : Sound v.db
  settings : Mirrored v
  domains : Follows v
  apart : ∀ row ∈ v.db.customDomains, isBuiltin row.domain = false

theorem consistent_cold {db : Db} (sound : Sound db)
    (apart : ∀ row ∈ db.customDomains, isBuiltin row.domain = false) :
    Consistent ⟨db, fun _ => none⟩ where
  sound := sound
  settings e held := by cases held
  domains := Or.inl rfl
  apart := apart

/- The settings key says nothing about the domains. -/
theorem follows_congr {v v' : Memory} (listing : ∀ d, listed d v'.db = listed d v.db)
    (keys : ∀ k, k ≠ votingSettingsRedisKey → v'.redis k = v.redis k) (follows : Follows v) :
    Follows v' := by
  have set_key := keys customDomainsRedisKey (by simp)
  have marker := keys customDomainsWarmedRedisKey (by simp)
  unfold Follows Store.HoldsSet
  simp only [set_key, marker, listing]
  exact follows

/- A change of the table and of the set, if there is one to be asked. -/
theorem follows_change {v v' : Memory}
    (marker : v'.redis customDomainsWarmedRedisKey = v.redis customDomainsWarmedRedisKey)
    (change : ∀ held, v.redis.HoldsSet customDomainsRedisKey held →
      (∀ d, d ∈ held ↔ listed d v.db = true) →
        ∃ held', v'.redis.HoldsSet customDomainsRedisKey held' ∧
          ∀ d, d ∈ held' ↔ listed d v'.db = true) (follows : Follows v) : Follows v' := by
  rcases follows with unmarked | ⟨⟨raw, marked⟩, held, held_set, same⟩
  · left
    rw [marker]
    exact unmarked
  · right
    constructor
    · exact ⟨raw, marker.trans marked⟩
    · exact change held held_set same

theorem mirrored_congr {v v' : Memory}
    (key : v'.redis votingSettingsRedisKey = v.redis votingSettingsRedisKey)
    (row : v'.db.settings = v.db.settings) (mirrored : Mirrored v) : Mirrored v' := by
  unfold Mirrored
  rw [key, row]
  exact mirrored

/-- From consistent keys and tables the program ends in consistent ones. -/
def Settles (cfg : Config) {α : Type} (p : Act α) : Prop :=
  ∀ v, Consistent v → Leads cfg v p fun _ v' => Consistent v'

section Operations
variable {cfg : Config} {α β : Type}

theorem settles_done (a : α) : Settles cfg (.done a : Act α) :=
  fun _ consistent => leads_done consistent

theorem settles_bind {p : Act α} {f : α → Act β} (first : Settles cfg p)
    (rest : ∀ a, Settles cfg (f a)) : Settles cfg (p >>= f) :=
  fun v consistent => ends_bind (first v consistent) fun a v' => rest a v'

theorem settles_map {p : Act α} (f : α → β) (h : Settles cfg p) : Settles cfg (f <$> p) :=
  settles_bind h fun a => settles_done (f a)

theorem insertDomain_cases (db : Db) (now : Nat) (domain : Str) :
    (∃ err, db.insertDomain now domain = (.error err, db)) ∨
      ∃ row db', row.domain = domain ∧ db.insertDomain now domain = (.ok (), db') ∧
        db'.customDomains = db.customDomains ++ [row] ∧ db'.settings = db.settings := by
  unfold Db.insertDomain
  split
  · exact Or.inl ⟨_, rfl⟩
  · split
    · exact Or.inl ⟨_, rfl⟩
    · exact Or.inr ⟨⟨db.nextDomain, domain, toColumn now⟩, _, rfl, rfl, rfl, rfl⟩

theorem listed_append {db db' : Db} {row : CustomDomain} {d : Str}
    (rows : db'.customDomains = db.customDomains ++ [row]) :
    listed d db' = true ↔ listed d db = true ∨ d = row.domain := by
  rw [listed, listed, rows, List.any_append, Bool.or_eq_true, List.any_cons, List.any_nil,
    Bool.or_false, decide_eq_true_iff]
  exact or_congr_right eq_comm

/- The new row of a domain that is not built in, and the word to the set. -/
theorem insert_settles {domain : Str} (custom : isBuiltin domain = false) :
    Settles cfg (CustomDomains.insert domain) := by
  intro v consistent
  apply leads_sql
  intro now
  have sound := insertDomain_sound consistent.sound now domain
  dsimp only [SqlCmd.run]
  rcases insertDomain_cases v.db now domain with ⟨err, refused⟩ | ⟨row, db', name, done, rows, settings⟩
  · rw [refused]
    exact leads_done consistent
  · rw [done] at sound ⊢
    apply leads_redis
    intro later
    apply leads_done
    constructor
    · exact sound
    · apply mirrored_congr (sadd_other _ _ _ (by simp)) settings consistent.settings
    · apply follows_change (sadd_other _ _ _ (by simp)) _ consistent.domains
      intro held held_set same
      obtain ⟨held', after, members⟩ := sadd_holds held_set later [domain]
      refine ⟨held', after, ?_⟩
      intro d
      rw [members, same]
      rw [List.mem_singleton, ← name]
      exact (listed_append rows).symm
    · intro row' member
      dsimp only at member
      rw [rows] at member
      rcases List.mem_append.mp member with old | new
      · exact consistent.apart row' old
      · rw [List.mem_singleton.mp new, name]
        exact custom

/- The deleted row is the only one with its id and the only one with its domain. -/
theorem listed_deleted {db : Db} (sound : Sound db) {row : CustomDomain}
    (found : row ∈ db.customDomains) (d : Str) :
    listed d (db.deleteDomain row.id).2 = true ↔ listed d db = true ∧ d ≠ row.domain := by
  rw [listed_iff, listed_iff]
  constructor
  · rintro ⟨other, member, rfl⟩
    obtain ⟨there, apart⟩ := List.mem_filter.mp member
    refine ⟨⟨other, there, rfl⟩, ?_⟩
    intro same
    have equal : other = row := List.inj_on_of_nodup_map sound.domains there found same
    simp [equal] at apart
  · rintro ⟨⟨other, there, rfl⟩, apart⟩
    refine ⟨other, List.mem_filter.mpr ⟨there, ?_⟩, rfl⟩
    have different : other.id ≠ row.id := by
      intro same
      exact apart (congrArg CustomDomain.domain
        (List.inj_on_of_nodup_map sound.domainIds there found same))
    simpa using different

theorem domainById_cases (db : Db) (id : Int) : db.domainById id = .error noRows ∨
    ∃ row ∈ db.customDomains, row.id = id ∧ db.domainById id = .ok row.domain := by
  unfold Db.domainById
  split
  · rename_i row found
    exact Or.inr ⟨row, List.mem_of_find?_eq_some found, by simpa using List.find?_some found, rfl⟩
  · exact Or.inl rfl

theorem deleteDomain_counts {db : Db} {row : CustomDomain} (found : row ∈ db.customDomains) :
    (db.deleteDomain row.id).1 ≠ .ok 0 := by
  unfold Db.deleteDomain
  simp only [ne_eq, Except.ok.injEq, Int.natCast_eq_zero, List.countP_eq_zero, not_forall]
  exact ⟨row, found, by simp⟩

theorem delete_settles (id : Int) : Settles cfg (CustomDomains.delete id) := by
  intro v consistent
  apply leads_sql
  intro now
  dsimp only [SqlCmd.run]
  rcases domainById_cases v.db id with missing | ⟨row, found, rfl, name⟩
  · rw [missing]
    exact leads_done consistent
  · rw [name]
    apply leads_sql
    intro later
    have counted : (v.db.deleteDomain row.id).1 ≠ .ok 0 := deleteDomain_counts found
    dsimp only [SqlCmd.run]
    rw [show (v.db.deleteDomain row.id).1 = .ok _ from rfl] at counted ⊢
    dsimp only
    rw [if_neg fun none_left => counted (congrArg Except.ok none_left)]
    apply leads_redis
    intro last
    apply leads_done
    constructor
    · exact deleteDomain_sound consistent.sound row.id
    · exact mirrored_congr (srem_other _ _ _ (by simp)) rfl consistent.settings
    · apply follows_change (srem_other _ _ _ (by simp)) _ consistent.domains
      intro held held_set same
      obtain ⟨held', after, members⟩ := srem_holds held_set last row.domain
      refine ⟨held', after, ?_⟩
      intro d
      rw [members, same]
      exact (listed_deleted consistent.sound found d).symm
    · intro other member
      exact consistent.apart other (List.mem_of_mem_filter member)

/- The rebuild leaves the set with the table, whatever was there before. -/
theorem warmCache_settles : Settles cfg CustomDomains.warmCache := by
  intro v consistent
  apply leads_sql
  intro now
  dsimp only [SqlCmd.run]
  apply leads_redis
  intro dropped
  dsimp only [RedisCmd.run]
  have empty : (v.redis.del [customDomainsRedisKey]).HoldsSet customDomainsRedisKey [] :=
    holds_empty (del_self _ List.mem_cons_self)
  have settings : (v.redis.del [customDomainsRedisKey]) votingSettingsRedisKey =
      v.redis votingSettingsRedisKey := del_other _ (by decide)
  have rebuilt : ∀ (st : Store Str Str) (held : List Str) (marked : Nat),
      st.HoldsSet customDomainsRedisKey held → (∀ d, d ∈ held ↔ listed d v.db = true) →
        st votingSettingsRedisKey = v.redis votingSettingsRedisKey →
          Consistent ⟨v.db, st.set marked customDomainsWarmedRedisKey "1".toList 0⟩ := by
    intro st held marked held_set same kept
    constructor
    · exact consistent.sound
    · refine mirrored_congr (v := v) ?_ rfl consistent.settings
      rw [← kept]
      have marker : votingSettingsRedisKey ≠ customDomainsWarmedRedisKey := by simp
      exact set_other st marked "1".toList 0 marker
    · right
      refine ⟨⟨"1".toList, set_self st marked customDomainsWarmedRedisKey "1".toList 0⟩, held, ?_, same⟩
      have marker : customDomainsRedisKey ≠ customDomainsWarmedRedisKey := by simp
      exact (set_other st marked "1".toList 0 marker).trans held_set
    · exact consistent.apart
  split
  · rename_i nothing
    apply leads_redis
    intro marked
    apply leads_done
    apply rebuilt _ [] marked empty _ settings
    intro d
    rw [← listed_allDomains, nothing]
    rfl
  · apply leads_redis
    intro added
    apply leads_redis
    intro marked
    apply leads_done
    obtain ⟨held, after, members⟩ := sadd_holds empty added (v.db.allDomains.map CustomDomain.domain)
    apply rebuilt _ held marked after
    · intro d
      rw [members, listed_allDomains]
      simp
    · exact (sadd_other _ _ _ (by simp)).trans settings

theorem updateCustomDomainsOnly_settles (value : Bool) :
    Settles cfg (VotingSettings.updateCustomDomainsOnly value) := by
  intro v consistent
  apply leads_sql
  intro now
  apply leads_redis
  intro later
  apply leads_done
  constructor
  · exact { consistent.sound with }
  · intro e held
    have gone : (v.redis.del [votingSettingsRedisKey]) votingSettingsRedisKey = none :=
      del_self _ List.mem_cons_self
    dsimp only [RedisCmd.run] at held
    rw [gone] at held
    cases held
  · apply follows_congr _ _ consistent.domains
    · intro d
      rfl
    · intro k other
      exact del_other _ (by simpa using other)
  · exact consistent.apart

theorem addDomain_settles (body : Except Str Str) : Settles cfg (addDomain cfg body) := by
  unfold addDomain
  split
  · exact settles_done _
  · dsimp only
    split
    · exact settles_done _
    · split
      · exact settles_done _
      · rename_i custom
        apply settles_bind (insert_settles (by simpa using custom))
        intro r
        cases r <;> exact settles_done _

theorem deleteDomain_settles (id : Str) : Settles cfg (Handlers.deleteDomain id) := by
  unfold Handlers.deleteDomain
  split
  · exact settles_done _
  · apply settles_bind (delete_settles _)
    intro r
    cases r <;> exact settles_done _

theorem updateDomainMode_settles (body : Except Str Bool) :
    Settles cfg (updateDomainMode body) := by
  unfold updateDomainMode
  cases body with
  | error details => exact settles_done _
  | ok value =>
    apply settles_bind (updateCustomDomainsOnly_settles value)
    intro r
    cases r <;> exact settles_done _

theorem operation_settles {req : Call} (op : Operation req) : Settles cfg (program cfg req) := by
  cases op with
  | addDomain body => exact settles_map _ (addDomain_settles body)
  | deleteDomain id => exact settles_map _ (deleteDomain_settles id)
  | updateDomainMode body => exact settles_map _ (updateDomainMode_settles body)
  | warmCache => exact settles_map _ warmCache_settles

end Operations

section Reading
variable {cfg : Config} {v : Memory}

theorem consistent_storable (consistent : Consistent v) : Storable v.db.settings :=
  consistent.sound.endsAt

theorem fromRedis_leads (consistent : Consistent v) : Leads cfg v fromRedis fun r v' =>
    v' = v ∧ (r = .ok v.db.settings ∨ ∃ err, r = .error err) := by
  apply leads_redis
  intro now
  dsimp only [RedisCmd.run]
  cases held : v.redis votingSettingsRedisKey with
  | some e =>
    obtain ⟨raw, rfl, decodes⟩ := consistent.settings e held
    rw [get_forever itoa held]
    dsimp only [fromStore]
    rw [decodes]
    exact leads_done ⟨rfl, Or.inl rfl⟩
  | none =>
    rw [get_absent itoa held]
    exact leads_done ⟨rfl, Or.inr ⟨_, rfl⟩⟩

/- GetStatus returns the row; at most it fills the cache with it. -/
theorem getStatus_leads (consistent : Consistent v) : Leads cfg v getStatus fun r v' =>
    r = .ok v.db.settings ∧ v'.db = v.db ∧ Consistent v' := by
  have storable := consistent_storable consistent
  unfold VotingSettings.getStatus
  refine ends_bind (fromRedis_leads consistent) ?_
  rintro r v' ⟨rfl, rfl | ⟨err, rfl⟩⟩
  · exact leads_done ⟨rfl, rfl, consistent⟩
  · apply leads_sql
    intro now
    dsimp only [SqlCmd.run]
    rw [toRedis, marshal_storable storable]
    apply leads_redis
    intro later
    apply leads_done
    refine ⟨rfl, rfl, consistent.sound, ?_, ?_, consistent.apart⟩
    · intro e stored
      dsimp only [RedisCmd.run] at stored
      rw [set_self, Option.some.injEq] at stored
      exact ⟨_, stored.symm, unmarshal_marshal storable (marshal_storable storable)⟩
    · apply follows_congr _ _ consistent.domains
      · intro d
        rfl
      · intro k other
        exact set_other _ _ _ _ other

theorem countDomain_listed (domain : Str) (db : Db) :
    decide (0 < db.countDomain domain) = listed domain db := by
  unfold Db.countDomain listed
  rw [Bool.eq_iff_iff, decide_eq_true_iff, List.any_eq_true, Int.natCast_pos, List.countP_pos_iff]

/- Marked or not, the answer is the one of the table. -/
theorem isDomainAllowed_leads (consistent : Consistent v) (lowerRune : Char → Char) (text : Str) :
    Leads cfg v (CustomDomains.isDomainAllowed lowerRune text) fun r v' =>
      r = .ok (listed (text.map lowerRune) v.db) ∧ v' = v := by
  apply leads_redis
  intro now
  dsimp only [RedisCmd.run]
  rcases consistent.domains with unmarked | ⟨⟨raw, marked⟩, held, held_set, same⟩
  · rw [present_absent unmarked]
    apply leads_sql
    intro later
    apply leads_warming
    apply leads_done
    exact ⟨congrArg Except.ok (countDomain_listed _ v.db), rfl⟩
  · rw [present_forever marked]
    apply leads_redis
    intro later
    apply leads_done
    constructor
    · dsimp only [RedisCmd.run]
      rw [sismember_agrees held_set (same _)]
      rfl
    · rfl

theorem lowered_twice (settled : ∀ c, cfg.lowerRune (cfg.lowerRune c) = cfg.lowerRune c) (s : Str) :
    (toLower cfg s).map cfg.lowerRune = toLower cfg s := by
  rw [toLower, List.map_map]
  exact List.map_congr_left fun c _ => settled c

/- An address without an @ is not admitted, one with an @ by what follows the last. -/
theorem admitted_at {front back : Str} (clean : '@' ∉ back) (db : Db) :
    Admitted cfg db (front ++ '@' :: back) ↔ listed (toLower cfg back) db = true ∨
      (isBuiltin (toLower cfg back) = true ∧ db.settings.customDomainsOnly = false) := by
  rw [listed_iff]
  constructor
  · rintro ⟨front', back', shape, clean', admitted⟩
    have parts : cutLast '@' (front' ++ '@' :: back') = some (front', back') := cutLast_append clean'
    rw [← shape, cutLast_append clean] at parts
    cases parts
    exact admitted
  · intro admitted
    exact ⟨front, back, rfl, clean, admitted⟩

/- The handler asks the two lists in the order of the switch. -/
theorem isEmailAllowed_leads (settled : ∀ c, cfg.lowerRune (cfg.lowerRune c) = cfg.lowerRune c)
    (consistent : Consistent v) (email : Str) : Leads cfg v (isEmailAllowed cfg email) fun r v' =>
      (∃ b, r = .ok b ∧ (b = true ↔ Admitted cfg v.db email)) ∧ Consistent v' := by
  have mode : Leads cfg v getCustomDomainsOnly fun r v' =>
      r = .ok v.db.settings.customDomainsOnly ∧ v'.db = v.db ∧ Consistent v' := by
    unfold getCustomDomainsOnly
    refine ends_bind (getStatus_leads consistent) ?_
    rintro r v' ⟨rfl, db, kept⟩
    exact leads_done ⟨rfl, db, kept⟩
  unfold isEmailAllowed
  refine ends_bind mode ?_
  rintro r v' ⟨rfl, db, kept⟩
  dsimp only
  rcases cutLast_cases '@' email with ⟨none_at, absent⟩ | ⟨front, back, found, rfl, clean⟩
  · have builtin : isEmailDomainAllowed cfg email = false := by rw [isEmailDomainAllowed, none_at]
    have refused : ¬ Admitted cfg v.db email := by
      rintro ⟨front, back, rfl, -⟩
      exact absent (by simp)
    rw [builtin, Bool.and_false, none_at, if_neg Bool.false_ne_true]
    exact leads_done ⟨⟨false, rfl, by simpa using refused⟩, kept⟩
  · have builtin : isEmailDomainAllowed cfg (front ++ '@' :: back) = isBuiltin (toLower cfg back) := by
      rw [isEmailDomainAllowed, found]
    rw [builtin, found, admitted_at clean]
    split
    · rename_i passes
      have both : v.db.settings.customDomainsOnly = false ∧ isBuiltin (toLower cfg back) = true := by
        simpa using passes
      exact leads_done ⟨⟨true, rfl, by simp [both]⟩, kept⟩
    · rename_i blocked
      dsimp only
      refine ends_mono (isDomainAllowed_leads kept cfg.lowerRune (toLower cfg back)) ?_
      rintro r v'' ⟨rfl, rfl⟩
      rw [lowered_twice settled, db]
      refine ⟨⟨_, rfl, ?_⟩, kept⟩
      constructor
      · exact Or.inl
      · rintro (custom | ⟨builtin, both⟩)
        · exact custom
        · simp [builtin, both] at blocked

/-- What a lookup sends. -/
inductive LookupCmd : Cmd → Prop where
  | warmed : LookupCmd (.redis (.exists customDomainsWarmedRedisKey))
  | member (domain : Str) : LookupCmd (.redis (.sismember customDomainsRedisKey domain))
  | count (domain : Str) : LookupCmd (.sql (.countDomain domain))
  | goWarmCache : LookupCmd .goWarmCache

theorem isDomainAllowed_lookup (lowerRune : Char → Char) (text : Str) :
    (CustomDomains.isDomainAllowed lowerRune text).Issues LookupCmd := by
  have table : ∀ domain, (fallBackToDB domain).Issues LookupCmd := by
    intro domain
    apply issues_bind
    · apply issues_sql (.count domain)
      intro r
      cases r <;> trivial
    · intro r
      cases r with
      | error err => trivial
      | ok allowed => exact issues_issue .goWarmCache fun _ => trivial
  apply issues_redis .warmed
  intro r
  cases r with
  | error err => exact table _
  | ok warmed =>
    dsimp only
    split
    · exact table _
    · exact ⟨.member _, fun _ => trivial⟩

/- The question always comes to an answer. -/
theorem isEmailAllowed_determined (email : Str) : (isEmailAllowed cfg email).Issues Determined := by
  have status : ∀ c, StatusCmd c → Determined c := by
    intro c sent
    cases sent <;> trivial
  have lookup : ∀ c, LookupCmd c → Determined c := by
    intro c sent
    cases sent <;> trivial
  unfold isEmailAllowed
  apply issues_bind
  · apply issues_bind (issues_mono getStatus_issues status)
    intro r
    cases r <;> trivial
  · intro r
    cases r with
    | error err => trivial
    | ok customOnly =>
      dsimp only
      split
      · trivial
      · split
        · trivial
        · exact issues_mono (isDomainAllowed_lookup cfg.lowerRune _) lookup

end Reading

/- Both caches are consistent with the tables after any number of operations, and only warmings
   are left to be done. -/
theorem sequential_consistent {cfg : Config}
    (settled : ∀ c, cfg.lowerRune (cfg.lowerRune c) = cfg.lowerRune c) {boot : Restart}
    (empty : boot.world.db.customDomains = []) {w : World} {pending : List Call}
    (run : Sequential cfg boot.world w pending) :
    Consistent (memory w) ∧ ∀ req ∈ pending, req = .warmCache := by
  have spawned : ∀ {α : Type} {w w' : World} {p : Act α} {a : α} {later : List Call},
      Completes cfg w p a w' later → ∀ req ∈ later, req = .warmCache := by
    intro α w w' p a later executed req member
    obtain ⟨c, left⟩ := solo_spawns executed req member
    change req ∈ spawns c at left
    unfold spawns at left
    split at left
    · exact List.mem_singleton.mp left
    · cases left
  induction run with
  | start =>
    constructor
    · have cold := consistent_cold boot.sound (by simp [empty])
      rw [← boot.cold] at cold
      exact cold
    · intro req member
      cases member
  | operation run op executed ih =>
    constructor
    · exact operation_settles op _ ih.1 _ _ _ _ rfl executed
    · exact spawned executed
  | asked run executed ih =>
    constructor
    · exact (isEmailAllowed_leads settled ih.1 _ _ _ _ _ rfl executed).2
    · exact spawned executed
  | background run executed ih =>
    obtain rfl := ih.2 _ List.mem_cons_self
    constructor
    · exact operation_settles .warmCache _ ih.1 _ _ _ _ rfl executed
    · intro req member
      rcases List.mem_append.mp member with waiting | new
      · exact ih.2 req (List.mem_cons_of_mem _ waiting)
      · exact spawned executed req new
  | flush run ih =>
    constructor
    · exact consistent_cold ih.1.sound ih.1.apart
    · exact ih.2
  | env run moved ih =>
    obtain ⟨db, redis, -, -⟩ := env_scope moved
    constructor
    · unfold memory
      rw [db, redis]
      exact ih.1
    · exact ih.2

/- From an empty table and a cold Redis, after any operations one by one, with flushes between
   them: isEmailAllowed always comes to an answer, and answers yes exactly for the admitted
   addresses. No custom domain is a built-in one, so with the custom domains only, no address
   with a built-in domain gets a yes. -/
theorem email_admission {cfg : Config}
    (settled : ∀ c, cfg.lowerRune (cfg.lowerRune c) = cfg.lowerRune c) {boot : Restart}
    (empty : boot.world.db.customDomains = []) {w : World} {pending : List Call}
    (run : Sequential cfg boot.world w pending) :
    (∀ email, (∃ r w' later, Completes cfg w (isEmailAllowed cfg email) r w' later) ∧
      ∀ r w' later, Completes cfg w (isEmailAllowed cfg email) r w' later →
        ∃ b, r = .ok b ∧ (b = true ↔ Admitted cfg w.db email)) ∧
      (∀ row ∈ w.db.customDomains, isBuiltin row.domain = false) ∧
        (w.db.settings.customDomainsOnly = true → ∀ front back, '@' ∉ back →
          isBuiltin (toLower cfg back) = true → ∀ r w' later,
            Completes cfg w (isEmailAllowed cfg (front ++ '@' :: back)) r w' later →
              r = .ok false) := by
  obtain ⟨consistent, -⟩ := sequential_consistent settled empty run
  have answers : ∀ email r w' later, Completes cfg w (isEmailAllowed cfg email) r w' later →
      ∃ b, r = .ok b ∧ (b = true ↔ Admitted cfg w.db email) := by
    intro email r w' later executed
    exact (isEmailAllowed_leads settled consistent email _ _ _ _ rfl executed).1
  refine ⟨?_, consistent.apart, ?_⟩
  · intro email
    constructor
    · obtain ⟨r, w', later, executed⟩ := executes_of_issues cfg (isEmailAllowed_determined email) w
      exact ⟨r, w', later, completes_of_executes executed⟩
    · exact answers email
  · intro only front back clean builtin r w' later executed
    obtain ⟨b, rfl, iff⟩ := answers _ r w' later executed
    cases b with
    | false => rfl
    | true =>
      have admitted := (admitted_at clean w.db).mp (iff.mp rfl)
      rcases admitted with custom | ⟨-, both⟩
      · obtain ⟨row, member, name⟩ := listed_iff.mp custom
        have apart := consistent.apart row member
        rw [name, builtin] at apart
        cases apart
      · rw [only] at both
        cases both

/- A domain is added; its addresses are admitted in any case, in capitals too. -/
theorem email_admission_custom : ∃ w pending,
    Sequential devConfig (freshBoot twoCandidates).world w pending ∧
      ∀ r w' later, Completes devConfig w (isEmailAllowed devConfig "ana@A.Edu".toList) r w' later →
        r = .ok true := by
  let request : Call := .addDomain (.ok "a.edu".toList)
  have added : (evaluate answer (program devConfig request) (bare (freshBoot twoCandidates).world)).map
      (fun x => listed "a.edu".toList x.2.db) = some true := by decide +kernel
  obtain ⟨x, evaluated, row⟩ := Option.map_eq_some_iff.mp added
  obtain ⟨w, later, executed⟩ :=
    solo_exists (server_settles devConfig) (server_goes devConfig) evaluated
  have outcome := solo_evaluates (server_settles devConfig) executed evaluated
  have sequential : Sequential devConfig (freshBoot twoCandidates).world w later :=
    .operation .start (.addDomain _) (completes_of_executes executed)
  refine ⟨w, later, sequential, ?_⟩
  intro r w' later' asked
  have clean : '@' ∉ "A.Edu".toList := by decide
  have lowered : toLower devConfig "A.Edu".toList = "a.edu".toList := by decide
  have admitted : Admitted devConfig w.db ("ana".toList ++ '@' :: "A.Edu".toList) := by
    rw [admitted_at clean, lowered]
    left
    rw [outcome] at row
    exact row
  obtain ⟨b, rfl, iff⟩ := ((email_admission toLower_twice rfl sequential).1 _).2 r w' later' asked
  rw [iff.mpr admitted]

end EmailAdmission
