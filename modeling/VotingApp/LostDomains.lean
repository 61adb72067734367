import VotingApp.RedisFaults

/-!
The custom domains behind a Redis that fails. Once the marker is there only the set is asked,
so a word to the set that is lost while the marker is there, or a marker on a set that has
not been filled, stays wrong.
-/
namespace LostDomains
open GoText GoTime JsonText Tables EffectProgram CallPool SoloRun Session ExpiringStore VotingWorld
open OtpService VotingSettings VoteService CustomDomains Handlers VotingServer
open Footprints Frames TableInvariants SettingsCache DomainCache SoloServer EmailAdmission RedisFaults

inductive RepositoryCall : Call → Prop where
  | insert (domain : Str) : RepositoryCall (.insertDomain domain)
  | delete (id : Int) : RepositoryCall (.deleteDomainRow id)
  | warmCache : RepositoryCall .warmCache
  | isDomainAllowed (domain : Str) : RepositoryCall (.isDomainAllowed domain)

def cachedSet (w : World) : List Str := w.redis.members customDomainsRedisKey

/-- The set holds the domains of the table and no others. -/
def sameSet (w : World) : Bool :=
  ((cachedSet w).all fun d => listed d w.db) &&
    w.db.customDomains.all fun row => row.domain ∈ cachedSet w

def tookEffect (f : Option Fault) : Bool := f.all Fault.applied

instance (w : World) : Decidable (Warmed w) :=
  inferInstanceAs (Decidable (w.redis.present w.clock customDomainsWarmedRedisKey ≠ 0))

/-- No SISMEMBER fails, no SADD or SREM that has something to do fails without effect while
the marker is there, and the marker is only set on a set that is the table. -/
def toldTheSet : Conduct := fun w c f =>
  match c with
  | .sismember _ _ => f.isNone
  | .sadd _ new => tookEffect f || !decide (Warmed w) || new.all fun d => d ∈ cachedSet w
  | .srem _ member => tookEffect f || !decide (Warmed w) || decide (member ∉ cachedSet w)
  | .set _ _ _ => !tookEffect f || sameSet w
  | _ => true

def Marked (v : Memory) : Prop := v.redis customDomainsWarmedRedisKey ≠ none

/-- The set has these members, and neither it nor the marker runs out. -/
structure Stored (v : Memory) (held : List Str) : Prop where
  set : v.redis.HoldsSet customDomainsRedisKey held
  marker : Marked v → ∃ raw, v.redis customDomainsWarmedRedisKey = some ⟨.text raw, none⟩

/-- If there is a marker, the members are the domains of the table. -/
structure Holding (v : Memory) (held : List Str) : Prop extends Stored v held where
  sound : Sound v.db
  follows : Marked v → ∀ d, d ∈ held ↔ listed d v.db = true

theorem cachedSet_holds {w : World} {held : List Str}
    (set : (memory w).redis.HoldsSet customDomainsRedisKey held) : cachedSet w = held :=
  members_holds set

theorem sameSet_iff {w : World} {held : List Str}
    (set : (memory w).redis.HoldsSet customDomainsRedisKey held) :
    sameSet w = true ↔ ∀ d, d ∈ held ↔ listed d w.db = true := by
  rw [sameSet, cachedSet_holds set, Bool.and_eq_true, List.all_eq_true, List.all_eq_true]
  constructor
  · intro same d
    constructor
    · exact same.1 d
    · intro there
      obtain ⟨row, member, is⟩ := listed_iff.mp there
      rw [← is]
      exact of_decide_eq_true (same.2 row member)
  · intro same
    constructor
    · intro d member
      exact (same d).mp member
    · intro row member
      exact decide_eq_true ((same row.domain).mpr (listed_iff.mpr ⟨row, member, rfl⟩))

section Words
variable {cfg : Config} {α : Type} {v : Memory} {held : List Str} {Q : α → Memory → Prop}

/- A word to the set, which may be lost where that makes no difference. -/
theorem word_survives (set : v.redis.HoldsSet customDomainsRedisKey held) {c : RedisCmd}
    {f : Except GoErr c.Result → Act α} (told : List Str → Prop)
    (takes : ∀ now, (c.run v.redis now).2 customDomainsWarmedRedisKey =
        v.redis customDomainsWarmedRedisKey ∧
      ∃ held', (c.run v.redis now).2.HoldsSet customDomainsRedisKey held' ∧ told held')
    (lost : ∀ w text, memory w = v → toldTheSet w c (some ⟨false, text⟩) = true → Marked v → told held)
    (rest : ∀ r v' held', v'.db = v.db →
      v'.redis customDomainsWarmedRedisKey = v.redis customDomainsWarmedRedisKey →
        v'.redis.HoldsSet customDomainsRedisKey held' → (Marked v → told held') →
          Survives cfg toldTheSet v' (f r) Q) :
    Survives cfg toldTheSet v (redis c >>= f) Q := by
  apply survives_redis
  · intro w at_v runs
    obtain ⟨marker, held', set', is_told⟩ := takes w.clock
    exact rest _ _ held' rfl marker set' fun _ => is_told
  · intro w fault at_v possible
    obtain ⟨applied, text⟩ := fault
    obtain ⟨marker, held', set', is_told⟩ := takes w.clock
    cases applied with
    | true => exact rest _ _ held' rfl marker set' fun _ => is_told
    | false => exact rest _ _ held rfl rfl set (lost w text at_v possible)

/- A lost command is admitted only where it had nothing to do. -/
theorem nothing_to_do {w : World} (at_v : memory w = v) (stored : Stored v held)
    (marked : Marked v) {idle : Bool} (admitted : (false || !decide (Warmed w) || idle) = true) :
    idle = true := by
  have warmed : Warmed w := by
    obtain ⟨raw, text⟩ := stored.marker marked
    rw [← at_v] at text
    have present : w.redis.present w.clock customDomainsWarmedRedisKey = 1 := present_forever text _
    rw [Warmed, present]
    decide
  simpa [warmed] using admitted

theorem sadd_survives (stored : Stored v held) {new : List Str} {f : Except GoErr Nat → Act α}
    (rest : ∀ r v' held', v'.db = v.db →
      v'.redis customDomainsWarmedRedisKey = v.redis customDomainsWarmedRedisKey →
        v'.redis.HoldsSet customDomainsRedisKey held' →
          (Marked v → ∀ d, d ∈ held' ↔ d ∈ held ∨ d ∈ new) →
            Survives cfg toldTheSet v' (f r) Q) :
    Survives cfg toldTheSet v (redis (.sadd customDomainsRedisKey new) >>= f) Q := by
  apply word_survives stored.set (c := .sadd customDomainsRedisKey new) _ _ _ rest
  · intro now
    exact ⟨sadd_other _ _ _ (by simp), sadd_holds stored.set now new⟩
  · intro w text at_v possible marked d
    have idle := nothing_to_do at_v stored marked possible
    have set := stored.set
    rw [← at_v] at set
    rw [cachedSet_holds set, List.all_eq_true] at idle
    constructor
    · exact Or.inl
    · intro there
      cases there with
      | inl old => exact old
      | inr added => exact of_decide_eq_true (idle d added)

theorem srem_survives (stored : Stored v held) {member : Str} {f : Except GoErr Nat → Act α}
    (rest : ∀ r v' held', v'.db = v.db →
      v'.redis customDomainsWarmedRedisKey = v.redis customDomainsWarmedRedisKey →
        v'.redis.HoldsSet customDomainsRedisKey held' →
          (Marked v → ∀ d, d ∈ held' ↔ d ∈ held ∧ d ≠ member) →
            Survives cfg toldTheSet v' (f r) Q) :
    Survives cfg toldTheSet v (redis (.srem customDomainsRedisKey member) >>= f) Q := by
  apply word_survives stored.set (c := .srem customDomainsRedisKey member) _ _ _ rest
  · intro now
    exact ⟨srem_other _ _ _ (by simp), srem_holds stored.set now member⟩
  · intro w text at_v possible marked d
    have idle := nothing_to_do at_v stored marked possible
    have set := stored.set
    rw [← at_v] at set
    rw [cachedSet_holds set, decide_eq_true_eq] at idle
    constructor
    · intro old
      exact ⟨old, fun same => idle (same ▸ old)⟩
    · exact And.left

/- Only the marker says whether there is a marker. -/
theorem marked_congr {v v' : Memory}
    (marker : v'.redis customDomainsWarmedRedisKey = v.redis customDomainsWarmedRedisKey)
    (marked : Marked v') : Marked v := by
  unfold Marked at marked ⊢
  rw [← marker]
  exact marked

theorem stored_told {v' : Memory} {held' : List Str} (stored : Stored v held)
    (marker : v'.redis customDomainsWarmedRedisKey = v.redis customDomainsWarmedRedisKey)
    (set : v'.redis.HoldsSet customDomainsRedisKey held') : Stored v' held' := by
  constructor
  · exact set
  · intro marked
    rw [marker]
    exact stored.marker (marked_congr marker marked)

theorem holding_told {v' : Memory} {held' : List Str} (holding : Holding v held)
    (sound : Sound v'.db)
    (marker : v'.redis customDomainsWarmedRedisKey = v.redis customDomainsWarmedRedisKey)
    (set : v'.redis.HoldsSet customDomainsRedisKey held')
    (follows : Marked v → ∀ d, d ∈ held' ↔ listed d v'.db = true) : Holding v' held' := by
  constructor
  · exact stored_told holding.toStored marker set
  · exact sound
  · intro marked
    exact follows (marked_congr marker marked)

/-- The keys once the marker has been set. -/
def withMarker (v : Memory) (now : Nat) : Memory :=
  { v with redis := v.redis.set now customDomainsWarmedRedisKey "1".toList 0 }

theorem holding_marked (stored : Stored v held) (sound : Sound v.db)
    (same : ∀ d, d ∈ held ↔ listed d v.db = true) (now : Nat) : Holding (withMarker v now) held := by
  constructor
  · constructor
    · have marker : customDomainsRedisKey ≠ customDomainsWarmedRedisKey := by simp
      exact (set_other v.redis now "1".toList 0 marker).trans stored.set
    · intro marked
      exact ⟨"1".toList, set_self v.redis now customDomainsWarmedRedisKey "1".toList 0⟩
  · exact sound
  · exact fun _ => same

/- The marker, on a set that is the table. -/
theorem mark_survives (stored : Stored v held) (sound : Sound v.db)
    (follows : Marked v → ∀ d, d ∈ held ↔ listed d v.db = true) {f : Except GoErr Unit → Act α}
    (rest : ∀ r v', Holding v' held → Survives cfg toldTheSet v' (f r) Q) :
    Survives cfg toldTheSet v (redis (.set customDomainsWarmedRedisKey "1".toList 0) >>= f) Q := by
  have marks : ∀ w, memory w = v → sameSet w = true → Holding (withMarker v w.clock) held := by
    intro w at_v same
    have set := stored.set
    rw [← at_v] at set
    have table := (sameSet_iff set).mp same
    apply holding_marked stored sound
    rw [← at_v]
    exact table
  apply survives_redis
  · intro w at_v runs
    exact rest _ _ (marks w at_v runs)
  · intro w fault at_v possible
    obtain ⟨applied, text⟩ := fault
    cases applied with
    | true => exact rest _ _ (marks w at_v possible)
    | false => exact rest _ _ ⟨stored, sound, follows⟩

end Words

/-- However Redis fails within the condition, the set follows the table. -/
def KeepsSet (cfg : Config) {α : Type} (p : Act α) : Prop := ∀ v held, Holding v held →
  Survives cfg toldTheSet v p fun _ v' => ∃ held', Holding v' held'

section Operations
variable {cfg : Config}

theorem insert_keeps (domain : Str) : KeepsSet cfg (CustomDomains.insert domain) := by
  intro v held holding
  apply survives_sql
  intro now
  have sound := insertDomain_sound holding.sound now domain
  dsimp only [SqlCmd.run]
  rcases insertDomain_cases v.db now domain with ⟨err, refused⟩ | ⟨row, db', name, done, rows, -⟩
  · rw [refused]
    exact survives_done ⟨held, holding⟩
  · rw [done] at sound ⊢
    have stored : Stored ⟨db', v.redis⟩ held := ⟨holding.set, holding.marker⟩
    refine sadd_survives stored fun r v' held' db marker set told => ?_
    refine survives_done ⟨held', holding_told holding (db ▸ sound) marker set ?_⟩
    intro marked d
    rw [told marked d, holding.follows marked d, List.mem_singleton, ← name, db]
    exact (listed_append rows).symm

theorem delete_keeps (id : Int) : KeepsSet cfg (CustomDomains.delete id) := by
  intro v held holding
  apply survives_sql
  intro now
  dsimp only [SqlCmd.run]
  rcases domainById_cases v.db id with missing | ⟨row, found, rfl, name⟩
  · rw [missing]
    exact survives_done ⟨held, holding⟩
  · rw [name]
    apply survives_sql
    intro later
    have counted : (v.db.deleteDomain row.id).1 ≠ .ok 0 := deleteDomain_counts found
    dsimp only [SqlCmd.run]
    rw [show (v.db.deleteDomain row.id).1 = .ok _ from rfl] at counted ⊢
    dsimp only
    rw [if_neg fun none_left => counted (congrArg Except.ok none_left)]
    have stored : Stored ⟨(v.db.deleteDomain row.id).2, v.redis⟩ held := ⟨holding.set, holding.marker⟩
    have sound := deleteDomain_sound holding.sound row.id
    refine srem_survives stored fun r v' held' db marker set told => ?_
    refine survives_done ⟨held', holding_told holding (db ▸ sound) marker set ?_⟩
    intro marked d
    rw [told marked d, holding.follows marked d, db]
    exact (listed_deleted holding.sound found d).symm

/- The rebuild: after the DEL a marked set holds nothing that the table does not. -/
theorem warmCache_keeps : KeepsSet cfg CustomDomains.warmCache := by
  intro v held holding
  apply survives_sql
  intro now
  dsimp only [SqlCmd.run]
  let fewer : List Str → Prop := fun held' => ∀ d ∈ held', listed d v.db = true
  have apart : customDomainsWarmedRedisKey ∉ [customDomainsRedisKey] := by decide
  have marker := del_other v.redis apart
  have gone : (v.redis.del [customDomainsRedisKey]) customDomainsRedisKey = none :=
    del_self v.redis List.mem_cons_self
  refine word_survives holding.set (c := .del [customDomainsRedisKey]) fewer ?_ ?_ ?_
  · intro clock
    exact ⟨marker, [], holds_empty gone, by simp [fewer]⟩
  · intro w text at_v possible marked d member
    exact (holding.follows marked d).mp member
  · intro r v' held' db marker set told
    have stored := stored_told holding.toStored marker set
    have sound : Sound v'.db := db ▸ holding.sound
    split
    · rename_i nothing
      refine mark_survives stored sound ?_ fun r v'' after => survives_done ⟨held', after⟩
      intro marked d
      rw [db]
      constructor
      · exact told (marked_congr marker marked) d
      · intro there
        rw [← listed_allDomains, nothing] at there
        cases there
    · refine sadd_survives stored fun r v'' held'' db' marker' set' told' => ?_
      have stored' := stored_told stored marker' set'
      refine mark_survives stored' (db' ▸ sound) ?_ fun r v'' after => survives_done ⟨held'', after⟩
      intro marked d
      have before := marked_congr marker' marked
      rw [told' before d, db', db, listed_allDomains]
      constructor
      · intro either
        cases either with
        | inl kept => exact told (marked_congr marker before) d kept
        | inr listed => exact listed
      · exact Or.inr

/- The lookup: without the marker the table is asked, with it the set. -/
theorem isDomainAllowed_survives {v : Memory} {held : List Str} (holding : Holding v held)
    (lowerRune : Char → Char) (text : Str) :
    Survives cfg toldTheSet v (CustomDomains.isDomainAllowed lowerRune text) fun r v' =>
      r = .ok (listed (text.map lowerRune) v.db) ∧ v' = v := by
  have asked : Survives cfg toldTheSet v (fallBackToDB (text.map lowerRune)) fun r v' =>
      r = .ok (listed (text.map lowerRune) v.db) ∧ v' = v := by
    apply survives_sql
    intro now
    refine survives_issue (c := .goWarmCache) (by simp) (by simp) fun _ => ?_
    exact survives_done ⟨congrArg Except.ok (countDomain_listed _ v.db), rfl⟩
  apply survives_redis
  · intro w at_v runs
    dsimp only [RedisCmd.run]
    by_cases marked : Marked v
    · obtain ⟨raw, text_there⟩ := holding.marker marked
      rw [present_forever text_there]
      apply survives_redis
      · intro w' at_v' runs'
        refine survives_done ⟨?_, rfl⟩
        dsimp only [RedisCmd.run]
        rw [sismember_agrees holding.set (holding.follows marked _)]
        rfl
      · intro w' fault at_v' possible
        cases possible
    · have nothing : v.redis customDomainsWarmedRedisKey = none := by simpa [Marked] using marked
      rw [present_absent nothing]
      exact asked
  · intro w fault at_v possible
    have same : { v with redis := if fault.applied then
        (RedisCmd.run v.redis w.clock (.exists customDomainsWarmedRedisKey)).2 else v.redis } = v := by
      simp [RedisCmd.run]
    rw [same]
    exact asked

theorem call_keeps {req : Call} (among : RepositoryCall req) : KeepsSet cfg (program cfg req) := by
  intro v held holding
  cases among with
  | insert domain =>
    refine survives_bind (insert_keeps domain v held holding) fun r v' after => ?_
    exact survives_done after
  | delete id =>
    refine survives_bind (delete_keeps id v held holding) fun r v' after => ?_
    exact survives_done after
  | warmCache =>
    refine survives_bind (warmCache_keeps v held holding) fun r v' after => ?_
    exact survives_done after
  | isDomainAllowed domain =>
    refine survives_bind (isDomainAllowed_survives holding cfg.lowerRune domain) fun r v' after => ?_
    rw [after.2]
    exact survives_done ⟨held, holding⟩

end Operations

section Sessions
variable {cfg : Config} {boot : Restart} {calls : List (Call × Answer)} {w : World}

theorem session_holds (run : Calls (flaky cfg toldTheSet) boot.world calls w)
    (repository : ∀ call ∈ calls, RepositoryCall call.1) : ∃ held, Holding (memory w) held := by
  have unmarked : ¬ Marked (memory boot.world) := by
    unfold Marked memory
    rw [boot.cold]
    simp
  have init : Holding (memory boot.world) [] := by
    constructor
    · constructor
      · apply holds_empty
        exact congrFun boot.cold _
      · exact fun marked => absurd marked unmarked
    · exact boot.sound
    · exact fun marked => absurd marked unmarked
  apply calls_keep (flaky_allows cfg toldTheSet) (J := fun _ v => ∃ held, Holding v held)
    ⟨[], init⟩ _ run repository
  intro calls v req among held
  obtain ⟨held, holding⟩ := held
  exact call_keeps among v held holding

/- In every session in which no SISMEMBER fails, no word to the set is lost while the marker is
   there, and the marker is only set on a set that is the table, every lookup comes to an
   answer, and it is the one of the table. -/
theorem lookups_survive (run : Calls (flaky cfg toldTheSet) boot.world calls w)
    (repository : ∀ call ∈ calls, RepositoryCall call.1) (text : Str) :
    (∃ r w' later, Executed (flaky cfg toldTheSet) w (program cfg (.isDomainAllowed text)) r w' later) ∧
      ∀ r w' later, Executed (flaky cfg toldTheSet) w (program cfg (.isDomainAllowed text)) r w' later →
        r = .flag (.ok (listed (text.map cfg.lowerRune) w.db)) := by
  obtain ⟨held, holding⟩ := session_holds run repository
  constructor
  · have determined : ∀ c, LookupCmd c → Determined c := by
      intro c sent
      cases sent <;> trivial
    have runs : ∀ w c, LookupCmd (.redis c) → toldTheSet w c none = true := by
      intro w c sent
      cases sent <;> rfl
    have uses := issues_map Answer.flag (isDomainAllowed_lookup cfg.lowerRune text)
    exact executed_of_issues cfg uses determined runs w
  · intro r w' later asked
    have answers : Survives cfg toldTheSet (memory w) (program cfg (.isDomainAllowed text)) fun r _ =>
        r = .flag (.ok (listed (text.map cfg.lowerRune) w.db)) := by
      refine survives_bind (isDomainAllowed_survives holding cfg.lowerRune text) fun found v' after => ?_
      exact survives_done (congrArg Answer.flag after.1)
    exact answers w r w' later rfl asked

end Sessions

def answeredFlag : Answer → Option Bool
  | .flag (.ok b) => some b
  | _ => none

theorem of_answeredFlag {a : Answer} {b : Bool} (h : answeredFlag a = some b) : a = .flag (.ok b) := by
  unfold answeredFlag at h
  split at h
  · cases h
    rfl
  · cases h

def newDomain : Str := "a.edu".toList

/- The cache is warmed over the empty table, and a domain is added. -/
def adding (told : Oracle) : List (Call × List Oracle) :=
  [(.warmCache, List.replicate 3 {}), (.insertDomain newDomain, [{}, told])]

theorem adding_calls {calls : List (Call × Answer)}
    (same : calls.map Prod.fst = [.warmCache, .insertDomain newDomain]) :
    ∀ call ∈ calls, RepositoryCall call.1 := by
  intro call member
  have among : call.1 ∈ calls.map Prod.fst := List.mem_map_of_mem member
  simp only [same, List.mem_cons, List.not_mem_nil, or_false] at among
  rcases among with is | is
  · rw [is]
    exact .warmCache
  · rw [is]
    exact .insert newDomain

/- The answer to the SADD is lost, but it has added the domain. -/
def added : List (Call × Answer) × World :=
  played (flaky devConfig toldTheSet) base (adding (timedOut true))

theorem lookups_survive_added : ∃ w, listed newDomain w.db = true ∧
    (∃ r w' later, Executed (flaky devConfig toldTheSet) w
      (program devConfig (.isDomainAllowed newDomain)) r w' later) ∧
      ∀ r w' later, Executed (flaky devConfig toldTheSet) w
        (program devConfig (.isDomainAllowed newDomain)) r w' later →
          r = .flag (.ok (listed (newDomain.map devConfig.lowerRune) w.db)) := by
  have asked : added.1.map Prod.fst = [.warmCache, .insertDomain newDomain] := by decide +kernel
  have run : Calls (flaky devConfig toldTheSet) base added.1 added.2 :=
    calls_played (by decide +kernel)
  exact ⟨added.2, by decide +kernel,
    @lookups_survive devConfig (freshBoot twoCandidates) _ _ run (adding_calls asked) newDomain⟩

/- The SADD fails, the insert returns nil, and the domain is refused. -/
def lost : List (Call × Answer) × World :=
  played (flaky devConfig anyFailure) base (adding (timedOut false))

theorem lost_sadd_refuses_domain : ∃ calls w w' later,
    Calls (flaky devConfig anyFailure) base calls w ∧ (∀ call ∈ calls, RepositoryCall call.1) ∧
      listed (newDomain.map devConfig.lowerRune) w.db = true ∧
        Executed (flaky devConfig anyFailure) w (program devConfig (.isDomainAllowed newDomain))
          (.flag (.ok false)) w' later := by
  have asked : lost.1.map Prod.fst = [.warmCache, .insertDomain newDomain] := by decide +kernel
  have run : Calls (flaky devConfig anyFailure) base lost.1 lost.2 := calls_played (by decide +kernel)
  have there : listed (newDomain.map devConfig.lowerRune) lost.2.db = true := by decide +kernel
  have refused : (play (flaky devConfig anyFailure) [{}, {}] lost.2
      (program devConfig (.isDomainAllowed newDomain))).map (fun r => answeredFlag r.1) =
        some (some false) := by
    decide +kernel
  generalize lost = reached at asked run there refused
  obtain ⟨r, answered, is⟩ := Option.map_eq_some_iff.mp refused
  obtain ⟨later, executed⟩ := executed_of_play answered
  rw [of_answeredFlag is] at executed
  exact ⟨reached.1, reached.2, r.2, later, run, adding_calls asked, there, executed⟩

end LostDomains
