import VotingApp.RedisFaults

/-!
The settings behind a Redis that fails. An update that cannot delete the cached text reports
success all the same, and from then on GetStatus answers with the old text.
-/
namespace StaleStatus
open GoText GoTime JsonText Tables EffectProgram CallPool SoloRun Session ExpiringStore VotingWorld
open OtpService VotingSettings VoteService CustomDomains Handlers VotingServer
open Footprints Frames TableInvariants SettingsCache DomainCache SoloServer EmailAdmission RedisFaults

inductive SettingsCall : Call → Prop where
  | getStatus : SettingsCall .getStatus
  | updateSettings (isOpen : Bool) (endsAt : Option Nat) :
      SettingsCall (.updateSettings isOpen endsAt)
  | updateCustomDomainsOnly (value : Bool) : SettingsCall (.updateCustomDomainsOnly value)

/-- What a call has written to the row if it was an update that returned nil. -/
def written (row : Settings) : Call × Answer → Settings
  | (.updateSettings isOpen endsAt, .error none) =>
    { row with isOpen := isOpen, endsAt := endsAt.map toColumn }
  | (.updateCustomDomainsOnly value, .error none) => { row with customDomainsOnly := value }
  | _ => row

/-- The values last written to the row by updates that returned nil. -/
def lastWritten (row : Settings) (calls : List (Call × Answer)) : Settings := calls.foldl written row

/-- The key holds settings other than the row. -/
def stale (w : World) : Bool :=
  match cachedStatus w with
  | none => false
  | some v => v ≠ w.db.settings

/-- The DEL of the key does not fail without effect while the key holds something else than
the row. -/
def invalidated : Conduct := fun w c f =>
  !(c = .del [votingSettingsRedisKey] && f.any (fun f => !f.applied) && stale w)

/-- The key is absent or holds settings for good. -/
def Readable (v : Memory) : Prop := ∀ e, v.redis votingSettingsRedisKey = some e →
  ∃ raw s, e = ⟨.text raw, none⟩ ∧ unmarshalSettings raw = .ok s

/-- The row is this, and the key can be read. -/
structure Kept (row : Settings) (v : Memory) : Prop where
  settings : v.db.settings = row
  storable : Storable row
  readable : Readable v

theorem mirrored_of_fresh {w : World} (readable : Readable (memory w)) (fresh : stale w = false) :
    Mirrored (memory w) := by
  intro e held
  obtain ⟨raw, s, rfl, decodes⟩ := readable e held
  have found : cachedStatus w = some s := cached_text held decodes
  have same : s = w.db.settings := by simpa [stale, found] using fresh
  rw [same] at decodes
  exact ⟨raw, rfl, decodes⟩

section Keeping
variable {cfg : Config} {can : Conduct} {row : Settings} {α β : Type}

/- The key with the text of the row. -/
theorem kept_stored {v : Memory} (kept : Kept row v) {raw : Str}
    (marshalled : marshalSettings row = .ok raw) (now : Nat) :
    Kept row { v with redis := v.redis.set now votingSettingsRedisKey raw 0 } ∧
      Mirrored { v with redis := v.redis.set now votingSettingsRedisKey raw 0 } := by
  have decodes := unmarshal_marshal kept.storable marshalled
  have stored := set_self v.redis now votingSettingsRedisKey raw 0
  constructor
  · constructor
    · exact kept.settings
    · exact kept.storable
    · intro e held
      dsimp only at held
      rw [stored, Option.some.injEq] at held
      exact ⟨raw, row, held.symm, decodes⟩
  · intro e held
    dsimp only at held ⊢
    rw [stored, Option.some.injEq] at held
    rw [kept.settings]
    exact ⟨raw, held.symm, decodes⟩

/- Without the key. -/
theorem kept_deleted {v : Memory} (kept : Kept row v) :
    Kept row { v with redis := v.redis.del [votingSettingsRedisKey] } ∧
      Mirrored { v with redis := v.redis.del [votingSettingsRedisKey] } := by
  have gone : (v.redis.del [votingSettingsRedisKey]) votingSettingsRedisKey = none :=
    del_self v.redis List.mem_cons_self
  constructor
  · constructor
    · exact kept.settings
    · exact kept.storable
    · intro e held
      dsimp only at held
      rw [gone] at held
      cases held
  · intro e held
    dsimp only at held
    rw [gone] at held
    cases held

/-- However Redis fails, the program leaves the row as it is and no fresh key stale. -/
def Unharmed (cfg : Config) (can : Conduct) (row : Settings) (p : Act α) : Prop :=
  ∀ v, Kept row v → Survives cfg can v p fun _ v' => Kept row v' ∧ (Mirrored v → Mirrored v')

theorem unharmed_done (a : α) : Unharmed cfg can row (.done a : Act α) :=
  fun _ kept => survives_done ⟨kept, id⟩

theorem unharmed_bind {p : Act α} {f : α → Act β} (first : Unharmed cfg can row p)
    (rest : ∀ a, Unharmed cfg can row (f a)) : Unharmed cfg can row (p >>= f) := by
  intro v kept
  refine survives_bind (first v kept) fun a v' after => ?_
  refine survives_mono (rest a v' after.1) fun b v'' last => ?_
  exact ⟨last.1, fun fresh => last.2 (after.2 fresh)⟩

/- GetStatus can only go wrong by a hit, and only while the key is stale. -/
theorem fromRedis_survives {v : Memory} (kept : Kept row v) :
    Survives cfg can v fromRedis fun r v' =>
      v' = v ∧ ((∃ err, r = .error err) ∨ ∃ s, r = .ok s ∧ (Mirrored v → s = row)) := by
  apply survives_redis
  · intro w at_v runs
    cases held : v.redis votingSettingsRedisKey with
    | none =>
      dsimp only [RedisCmd.run]
      rw [get_absent itoa held]
      exact survives_done ⟨rfl, Or.inl ⟨_, rfl⟩⟩
    | some e =>
      obtain ⟨raw, s, rfl, decodes⟩ := kept.readable e held
      dsimp only [RedisCmd.run]
      rw [get_forever itoa held]
      apply survives_done
      constructor
      · rfl
      · right
        use s
        constructor
        · exact decodes
        · intro mirrored
          obtain ⟨raw', same, fresh⟩ := mirrored _ held
          cases same
          rw [decodes, kept.settings] at fresh
          cases fresh
          rfl
  · intro w fault at_v possible
    apply survives_done
    constructor
    · simp [RedisCmd.run]
    · exact Or.inl ⟨_, rfl⟩

theorem getStatus_survives {v : Memory} (kept : Kept row v) :
    Survives cfg can v getStatus fun r v' =>
      Kept row v' ∧ (Mirrored v → r = .ok row ∧ Mirrored v') := by
  refine survives_bind (fromRedis_survives kept) fun r v' found => ?_
  obtain ⟨rfl, ⟨err, rfl⟩ | ⟨s, rfl, fresh⟩⟩ := found
  · apply survives_sql
    intro now
    dsimp only [SqlCmd.run]
    rw [kept.settings, toRedis, marshal_storable kept.storable]
    have stored := kept_stored kept (marshal_storable kept.storable)
    apply survives_redis
    · intro w at_v runs
      exact survives_done ⟨(stored w.clock).1, fun _ => ⟨rfl, (stored w.clock).2⟩⟩
    · intro w fault at_v possible
      apply survives_done
      dsimp only [RedisCmd.run]
      cases fault.applied with
      | true => exact ⟨(stored w.clock).1, fun _ => ⟨rfl, (stored w.clock).2⟩⟩
      | false => exact ⟨kept, fun mirrored => ⟨rfl, mirrored⟩⟩
  · apply survives_done
    constructor
    · exact kept
    · intro mirrored
      rw [fresh mirrored]
      exact ⟨rfl, mirrored⟩

theorem getStatus_unharmed : Unharmed cfg can row getStatus := by
  intro v kept
  refine survives_mono (getStatus_survives kept) fun r v' after => ?_
  exact ⟨after.1, fun fresh => (after.2 fresh).2⟩

theorem unharmed_aside {c : Cmd} {f : Reply c → Act α} (aside : ∀ rc, c ≠ .redis rc)
    (apart : ∀ sc, c ≠ .sql sc) (rest : ∀ r, Unharmed cfg can row (f r)) :
    Unharmed cfg can row (issue c >>= f) :=
  fun v kept => survives_issue aside apart fun r => rest r v kept

theorem isVotingOpen_unharmed : Unharmed cfg can row isVotingOpen := by
  apply unharmed_bind getStatus_unharmed
  intro status
  cases status with
  | error err => exact unharmed_done _
  | ok s =>
    dsimp only
    split
    · cases s.endsAt with
      | none => exact unharmed_done _
      | some endsAt => exact unharmed_aside (by simp) (by simp) fun _ => unharmed_done _
    · exact unharmed_done _

theorem broadcastPayload_unharmed : Unharmed cfg can row broadcastPayload := by
  have build : Unharmed cfg can row buildWSPayload := by
    intro v kept
    apply survives_sql
    intro now
    apply unharmed_bind isVotingOpen_unharmed _ v kept
    intro opened
    exact unharmed_bind getStatus_unharmed fun _ => unharmed_done _
  apply unharmed_bind build
  intro payload
  cases payload with
  | error err => exact unharmed_done _
  | ok data => exact unharmed_aside (by simp) (by simp) fun _ => unharmed_done _

/-- The failures that leave no stale key behind. -/
def Invalidates (can : Conduct) : Prop := ∀ w f,
  can w (.del [votingSettingsRedisKey]) (some f) = true → f.applied = true ∨ stale w = false

/- The row after an update, with the key as it was. -/
theorem invalidate_survives {v : Memory} (kept : Kept row v) {f : Except GoErr Unit → Act α}
    {Q : α → Memory → Prop}
    (rest : ∀ r v', Kept row v' → (Invalidates can → Mirrored v') → Survives cfg can v' (f r) Q) :
    Survives cfg can v (redis (.del [votingSettingsRedisKey]) >>= f) Q := by
  have deleted := kept_deleted kept
  apply survives_redis
  · intro w at_v runs
    exact rest _ _ deleted.1 fun _ => deleted.2
  · intro w fault at_v possible
    dsimp only [RedisCmd.run]
    cases took : fault.applied with
    | true => exact rest _ _ deleted.1 fun _ => deleted.2
    | false =>
      apply rest
      · exact kept
      · intro invalidates
        cases invalidates w fault possible with
        | inl applied =>
          rw [took] at applied
          cases applied
        | inr fresh =>
          have readable : Readable (memory w) := by
            rw [at_v]
            exact kept.readable
          have mirrored := mirrored_of_fresh readable fresh
          rw [at_v] at mirrored
          exact mirrored

theorem updateSettings_survives {v : Memory} (kept : Kept row v) (isOpen : Bool)
    (endsAt : Option Nat) : Survives cfg can v (VotingSettings.updateSettings isOpen endsAt) fun r v' =>
      Kept (written row (.updateSettings isOpen endsAt, .error r)) v' ∧
        (Invalidates can → Mirrored v → Mirrored v') := by
  apply survives_sql
  intro now
  dsimp only [SqlCmd.run]
  by_cases fits : endsAt.all printable = true
  · rw [Db.updateSettings, if_pos fits]
    let row' : Settings := { row with isOpen := isOpen, endsAt := endsAt.map toColumn }
    have kept' : Kept row' { v with db := { v.db with settings :=
        { v.db.settings with isOpen := isOpen, endsAt := endsAt.map toColumn } } } := by
      constructor
      · dsimp only
        rw [kept.settings]
      · intro t member
        obtain ⟨u, given, rfl⟩ := Option.mem_map.mp member
        rw [Option.all_eq_true] at fits
        exact ⟨printable_toColumn (fits u given), toColumn_whole u⟩
      · exact kept.readable
    refine invalidate_survives kept' fun r v' kept'' mirrored => ?_
    refine survives_bind (broadcastPayload_unharmed v' kept'') fun _ v'' after => ?_
    exact survives_done ⟨after.1, fun invalidates _ => after.2 (mirrored invalidates)⟩
  · rw [Db.updateSettings, if_neg fits]
    exact survives_done ⟨kept, fun _ mirrored => mirrored⟩

theorem updateCustomDomainsOnly_survives {v : Memory} (kept : Kept row v) (value : Bool) :
    Survives cfg can v (VotingSettings.updateCustomDomainsOnly value) fun r v' =>
      Kept (written row (.updateCustomDomainsOnly value, .error r)) v' ∧
        (Invalidates can → Mirrored v → Mirrored v') := by
  apply survives_sql
  intro now
  dsimp only [SqlCmd.run, Db.updateCustomDomainsOnly]
  let row' : Settings := { row with customDomainsOnly := value }
  have kept' : Kept row' { v with db := { v.db with settings :=
      { v.db.settings with customDomainsOnly := value } } } := by
    constructor
    · dsimp only
      rw [kept.settings]
    · exact kept.storable
    · exact kept.readable
  refine invalidate_survives kept' fun r v' kept'' mirrored => ?_
  exact survives_done ⟨kept'', fun invalidates _ => mirrored invalidates⟩

/- One call of the session. -/
theorem settings_call_survives {req : Call} (among : SettingsCall req) {v : Memory}
    (kept : Kept row v) : Survives cfg can v (program cfg req) fun a v' =>
      Kept (written row (req, a)) v' ∧ (Invalidates can → Mirrored v → Mirrored v') := by
  cases among with
  | getStatus =>
    refine survives_bind (getStatus_survives kept) fun r v' after => ?_
    exact survives_done ⟨after.1, fun _ mirrored => (after.2 mirrored).2⟩
  | updateSettings isOpen endsAt =>
    refine survives_bind (updateSettings_survives kept isOpen endsAt) fun r v' after => ?_
    exact survives_done after
  | updateCustomDomainsOnly value =>
    refine survives_bind (updateCustomDomainsOnly_survives kept value) fun r v' after => ?_
    exact survives_done after

end Keeping

section Sessions
variable {cfg : Config} {can : Conduct} {boot : Restart} {calls : List (Call × Answer)} {w : World}

/- After any session the row is what was last written, and if every DEL that matters took
   effect the key agrees with it. -/
theorem session_kept (run : Calls (flaky cfg can) boot.world calls w)
    (settings : ∀ call ∈ calls, SettingsCall call.1) :
    Kept (lastWritten boot.world.db.settings calls) (memory w) ∧
      (Invalidates can → Mirrored (memory w)) := by
  have nothing : (memory boot.world).redis votingSettingsRedisKey = none := congrFun boot.cold _
  have cold : ∀ e, (memory boot.world).redis votingSettingsRedisKey ≠ some e := by
    intro e held
    rw [nothing] at held
    cases held
  have init : Kept boot.world.db.settings (memory boot.world) :=
    ⟨rfl, boot.sound.endsAt, fun e held => absurd held (cold e)⟩
  apply calls_keep (flaky_allows cfg can) (J := fun calls v =>
    Kept (lastWritten boot.world.db.settings calls) v ∧ (Invalidates can → Mirrored v))
    ⟨init, fun _ e held => absurd held (cold e)⟩ _ run settings
  intro calls v req among held
  refine survives_mono (settings_call_survives among held.1) fun a v' after => ?_
  rw [lastWritten, List.foldl_concat]
  exact ⟨after.1, fun invalidates => after.2 invalidates (held.2 invalidates)⟩

/- A GetStatus that is asked while the key agrees with the row, whatever fails. -/
theorem status_right (run : Calls (flaky cfg can) boot.world calls w)
    (settings : ∀ call ∈ calls, SettingsCall call.1) (mirrored : Mirrored (memory w)) {r : Answer}
    {w' : World} {later : List Call}
    (asked : Executed (flaky cfg can) w (program cfg .getStatus) r w' later) :
    r = .status (.ok (lastWritten boot.world.db.settings calls)) := by
  have kept := (session_kept run settings).1
  have answers : Survives cfg can (memory w) (program cfg .getStatus) fun r _ =>
      r = .status (.ok (lastWritten boot.world.db.settings calls)) := by
    refine survives_bind (getStatus_survives kept) fun status v' after => ?_
    exact survives_done (congrArg Answer.status (after.2 mirrored).1)
  exact answers w r w' later rfl asked

/- A hit of a stale key. -/
theorem stale_answers (readable : Readable (memory w)) (old : stale w = true) : ∃ v,
    v ≠ w.db.settings ∧ Executed (flaky cfg anyFailure) w (program cfg .getStatus) (.status (.ok v)) w [] := by
  cases held : w.redis votingSettingsRedisKey with
  | none =>
    have nothing : cachedStatus w = none := by
      rw [cachedStatus, get_absent itoa held]
      rfl
    simp [stale, nothing] at old
  | some e =>
    obtain ⟨raw, v, rfl, decodes⟩ := readable e held
    have found : cachedStatus w = some v := cached_text held decodes
    have other : v ≠ w.db.settings := by simpa [stale, found] using old
    have hit : (flaky cfg anyFailure).perform w {} (.redis (.get votingSettingsRedisKey)) =
        some (.ok raw, w) := by
      change some (fromStore (w.redis.get itoa w.clock votingSettingsRedisKey), w) = _
      rw [get_forever itoa held]
      rfl
    refine ⟨v, other, .call rfl hit ?_⟩
    dsimp only [Prog.bind, pure]
    rw [decodes]
    exact .done w _

/- Whatever failed before and fails now, a GetStatus that is asked now answers what was last
   written, if and only if the key does not hold other settings. -/
theorem status_exact (run : Calls (flaky cfg anyFailure) boot.world calls w)
    (settings : ∀ call ∈ calls, SettingsCall call.1) :
    (∀ r w' later, Executed (flaky cfg anyFailure) w (program cfg .getStatus) r w' later →
      r = .status (.ok (lastWritten boot.world.db.settings calls))) ↔ stale w = false := by
  have kept := (session_kept run settings).1
  constructor
  · intro right
    cases old : stale w with
    | false => rfl
    | true =>
      obtain ⟨v, other, asked⟩ : ∃ v, v ≠ w.db.settings ∧ Executed (flaky cfg anyFailure) w
        (program cfg .getStatus) (.status (.ok v)) w [] := stale_answers kept.readable old
      have same := right _ w [] asked
      cases same
      exact absurd kept.settings.symm other
  · intro fresh r w' later asked
    exact status_right run settings (mirrored_of_fresh kept.readable fresh) asked

theorem invalidated_invalidates : Invalidates invalidated := by
  intro w f possible
  cases took : f.applied with
  | true => exact Or.inl rfl
  | false => simpa [invalidated, took] using possible

/- In every session in which no DEL of the key fails without effect while the key holds other
   settings, every GetStatus answers what was last written, and there is one to be had. -/
theorem status_survives (run : Calls (flaky cfg invalidated) boot.world calls w)
    (settings : ∀ call ∈ calls, SettingsCall call.1) :
    (∀ before r after, calls = before ++ (.getStatus, r) :: after →
      r = .status (.ok (lastWritten boot.world.db.settings before))) ∧
      ∃ w' later, Executed (flaky cfg invalidated) w (program cfg .getStatus)
        (.status (.ok (lastWritten boot.world.db.settings calls))) w' later := by
  constructor
  · intro before r after split
    obtain ⟨w₁, w₂, later, earlier, asked⟩ := calls_split run split
    have among : ∀ call ∈ before, SettingsCall call.1 := by
      intro call member
      apply settings
      rw [split]
      exact List.mem_append_left _ member
    have mirrored := (session_kept earlier among).2 invalidated_invalidates
    exact status_right earlier among mirrored asked
  · have determined : ∀ c, StatusCmd c → Determined c := by
      intro c sent
      cases sent <;> trivial
    have runs : ∀ w c, StatusCmd (.redis c) → invalidated w c none = true := by
      intro w c sent
      simp [invalidated]
    obtain ⟨r, w', later, asked⟩ :=
      executed_of_issues cfg (issues_map Answer.status getStatus_issues) determined runs w
    have mirrored := (session_kept run settings).2 invalidated_invalidates
    have same := status_right run settings mirrored asked
    rw [same] at asked
    exact ⟨w', later, asked⟩

end Sessions

def answeredStatus : Answer → Option Settings
  | .status (.ok v) => some v
  | _ => none

theorem of_answeredStatus {a : Answer} {v : Settings} (h : answeredStatus a = some v) :
    a = .status (.ok v) := by
  unfold answeredStatus at h
  split at h
  · cases h
    rfl
  · cases h

/- A status is asked, the voting is closed, and a status is asked again. -/
def closing (deleted : Oracle) : List (Call × List Oracle) :=
  [(.getStatus, List.replicate 3 {}),
    (.updateSettings false none, {} :: deleted :: List.replicate 9 {}),
    (.getStatus, List.replicate 3 {})]

theorem closing_calls {calls : List (Call × Answer)}
    (same : calls.map Prod.fst = [.getStatus, .updateSettings false none, .getStatus]) :
    ∀ call ∈ calls, SettingsCall call.1 := by
  intro call member
  have among : call.1 ∈ calls.map Prod.fst := List.mem_map_of_mem member
  simp only [same, List.mem_cons, List.not_mem_nil, or_false] at among
  rcases among with is | is | is
  · rw [is]
    exact .getStatus
  · rw [is]
    exact .updateSettings false none
  · rw [is]
    exact .getStatus

/- The answer to the DEL is lost, but it has deleted the key. -/
def closedInTime : List (Call × Answer) × World :=
  played (flaky devConfig invalidated) base (closing (timedOut true))

theorem status_survives_closed : ∃ calls w, calls.map Prod.fst =
      [.getStatus, .updateSettings false none, .getStatus] ∧
    lastWritten base.db.settings calls = ⟨false, none, false⟩ ∧
      (∀ before r after, calls = before ++ (.getStatus, r) :: after →
        r = .status (.ok (lastWritten base.db.settings before))) ∧
        ∃ w' later, Executed (flaky devConfig invalidated) w (program devConfig .getStatus)
          (.status (.ok (lastWritten base.db.settings calls))) w' later := by
  have asked : closedInTime.1.map Prod.fst = [.getStatus, .updateSettings false none, .getStatus] := by
    decide +kernel
  have run : Calls (flaky devConfig invalidated) base closedInTime.1 closedInTime.2 :=
    calls_played (by decide +kernel)
  exact ⟨closedInTime.1, closedInTime.2, asked, by decide +kernel,
    @status_survives devConfig (freshBoot twoCandidates) _ _ run (closing_calls asked)⟩

/- The DEL fails, the update returns nil, and the next status is the old one. -/
def closedTooLate : List (Call × Answer) × World :=
  played (flaky devConfig anyFailure) base (closing (timedOut false))

theorem failed_del_keeps_old_status : ∃ calls w, Calls (flaky devConfig anyFailure) base calls w ∧
    (∀ call ∈ calls, SettingsCall call.1) ∧
      ∃ before, calls = before ++ [(.getStatus, .status (.ok ⟨true, none, false⟩))] ∧
        lastWritten base.db.settings before = ⟨false, none, false⟩ := by
  have asked : closedTooLate.1.map Prod.fst = [.getStatus, .updateSettings false none, .getStatus] := by
    decide +kernel
  have run : Calls (flaky devConfig anyFailure) base closedTooLate.1 closedTooLate.2 :=
    calls_played (by decide +kernel)
  have answered : (closedTooLate.1.drop 2).map (fun call => (call.1, answeredStatus call.2)) =
      [(.getStatus, some ⟨true, none, false⟩)] := by
    decide +kernel
  have row : lastWritten base.db.settings (closedTooLate.1.take 2) = ⟨false, none, false⟩ := by
    decide +kernel
  generalize closedTooLate = reached at asked run answered row
  refine ⟨reached.1, reached.2, run, closing_calls asked, reached.1.take 2, ?_, row⟩
  obtain ⟨last, only, is⟩ := List.map_eq_singleton_iff.mp answered
  obtain ⟨req, status⟩ := Prod.mk.inj is
  have same : last = (.getStatus, .status (.ok ⟨true, none, false⟩)) :=
    Prod.ext req (of_answeredStatus status)
  rw [← same, ← only, List.take_append_drop]

end StaleStatus
