import VotingApp.UseWebSocket
import VotingApp.Versions

/-!
Whether a voting status is that of one settings value. The payload and the status answer are put
together from two looks at the settings, and the error of a look is dropped.
-/
namespace TornStatus
open GoText GoTime JsonText Tables EffectProgram CallPool PoolHistory ExpiringStore VotingWorld
open OtpService VotingSettings VoteService CustomDomains Handlers VotingServer
open Footprints Frames OtpRecords SettingsCache PayloadReads UseWebSocket Versions

/-- The part of the settings that a status is about. -/
def reported (v : Settings) : Bool × Option Nat := (v.isOpen, v.endsAt)

def changesReported (ev : LogEntry) : Bool :=
  reported ev.after.db.settings ≠ reported ev.before.db.settings

/-- The settings that an exchange has shown to its call. -/
def shownBy : Exchange Cmd Reply → Option Settings
  | ⟨.redis (.get key), .ok raw⟩ =>
    if key = votingSettingsRedisKey then (unmarshalSettings raw).toOption else none
  | ⟨.sql .getSettings, .ok v⟩ => some v
  | _ => none

def ofCall (i : Nat) (ev : LogEntry) : Bool := ev.caller = i

def lookOf (i : Nat) (ev : LogEntry) : Bool := ofCall i ev && (shownBy ev.exchange).isSome

/-- A SELECT of the settings that fails. -/
def failedSelect (ev : LogEntry) : Bool :=
  ev.cmd = .sql .getSettings && ev.oracle.fault.isSome

/-- A hit, while the key holds another status than the row. -/
def staleHit (ev : LogEntry) : Bool :=
  ev.cmd = .redis (.get votingSettingsRedisKey) && ev.oracle.fault.isNone &&
    (cachedStatus ev.before).any fun v => reported v ≠ reported ev.before.db.settings

/-- None of the call's looks fails or hits a stale key, and from its first to its last one the
status in the row stays as it is. -/
structure Undisturbed (i : Nat) (log : Log) : Prop where
  read : ∀ ev ∈ log, ofCall i ev = true → failedSelect ev = false
  fresh : ∀ ev ∈ log, ofCall i ev = true → staleHit ev = false
  still : ∀ ev ∈ stretch (lookOf i) log, changesReported ev = false

/-- At one moment of the call the row was such, and at one the clock. -/
def InForce (i : Nat) (log : Log) (shown : Settings → Nat → Prop) : Prop :=
  ∃ row ∈ stretch (ofCall i) log, ∃ tick ∈ stretch (ofCall i) log,
    shown row.before.db.settings tick.before.clock

/-- What has happened since the call read the leaderboard for its payload. -/
def sinceBoard (i : Nat) (log : Log) : Log :=
  log.takeWhile fun ev => !(ofCall i ev && ev.cmd = .sql .getAllWithVotes)

/-- The payload is that of one settings value. -/
def PayloadWhole (s : State) (i : Nat) (data : Str) : Prop :=
  InForce i (sinceBoard i s.log) fun v t =>
    ∃ rows, marshalPayload ⟨rows, effectivelyOpen v t, v.endsAt⟩ = .ok data

/-- The answer 200 to a voting status request. -/
def statusResponse (customDomainsOnly isOpen opened : Bool) (endsAt : Option Nat) : Response :=
  successJSON 200 (.obj [jsonName "custom_domains_only" (jsonBool customDomainsOnly),
    jsonName "effectively_open" (jsonBool opened), jsonName "ends_at" (jsonTime endsAt),
    jsonName "is_open" (jsonBool isOpen)])

/-- The answer is that of one settings value. -/
def AnswerWhole (s : State) (i : Nat) (r : Response) : Prop :=
  InForce i s.log fun v t => ∃ custom,
    r = statusResponse custom v.isOpen (effectivelyOpen v t) v.endsAt

/-- A finished request and what it was answered. -/
def httpAnswer (s : State) (i : Nat) : Option (Call × Response) :=
  s.jobs[i]?.bind fun job =>
    match job.rest with
    | .done (.http r) => some (job.req, r)
    | _ => none

theorem job_of_answer {s : State} {i : Nat} {req : Call} {r : Response}
    (answered : httpAnswer s i = some (req, r)) :
    ∃ job, s.jobs[i]? = some job ∧ job.req = req ∧ job.rest = .done (.http r) := by
  obtain ⟨job, at_i, is⟩ := Option.bind_eq_some_iff.mp answered
  split at is
  · rename_i r' rest
    cases is
    exact ⟨job, at_i, rfl, rest⟩
  · cases is

theorem waiting_of_nextCmd {s : State} {i : Nat} {c : Cmd} (sends : nextCmd s i = some c) :
    ∃ job next, s.jobs[i]? = some job ∧ job.rest = .call c next := by
  obtain ⟨job, at_i, is⟩ := Option.bind_eq_some_iff.mp sends
  split at is
  · rename_i c' next rest
    cases is
    exact ⟨job, next, at_i, rest⟩
  · cases is

theorem effectivelyOpen_reported {v v' : Settings} (same : reported v = reported v') (t : Nat) :
    effectivelyOpen v t = effectivelyOpen v' t := by
  obtain ⟨isOpen, endsAt⟩ := Prod.mk.inj same
  rw [effectivelyOpen, effectivelyOpen, isOpen, endsAt]

theorem shown_iff {v : Settings} {x : Exchange Cmd Reply} : shownBy x = some v ↔ Shows v x := by
  constructor
  · intro shown
    unfold shownBy at shown
    split at shown
    · rename_i key raw
      split at shown
      · rename_i same
        subst key
        left
        cases decodes : unmarshalSettings raw with
        | error err => simp [decodes, Except.toOption] at shown
        | ok v' =>
          simp only [decodes, Except.toOption, Option.some.injEq] at shown
          subst v'
          exact ⟨raw, rfl, decodes⟩
      · cases shown
    · cases shown
      exact Or.inr rfl
    · cases shown
  · rintro (⟨raw, rfl, decodes⟩ | rfl)
    · simp [shownBy, decodes, Except.toOption]
    · rfl

section Runs
variable {cfg : Config} {allow : State → Move → Bool} {seed : Seed} {s : State} {i : Nat}

theorem failed_of_error (run : Reaches (server cfg) allow seed.start s) {ev : LogEntry}
    (logged : ev ∈ s.log) {err : GoErr} (failed : ev.exchange = ⟨.sql .getSettings, .error err⟩) :
    failedSelect ev = true := by
  obtain ⟨answer, -⟩ := exchange_sql (performed_of_run run ev logged) failed
  have cmd : ev.cmd = .sql .getSettings := congrArg Exchange.cmd failed
  cases fault : ev.oracle.fault with
  | none =>
    rw [faulty_ok fault] at answer
    cases answer
  | some f => simp [failedSelect, cmd, fault]

/- What a look shows is the status in the row, when it hits no stale key. -/
theorem look_row (run : Reaches (server cfg) allow seed.start s) {late older : Log} {ev : LogEntry}
    (split : s.log = late ++ ev :: older) {v : Settings} (shows : Shows v ev.exchange)
    (fresh : staleHit ev = false) : reported v = reported ev.before.db.settings := by
  rcases shows with ⟨raw, hit, decodes⟩ | selects
  · have held := (hit_source run split hit decodes).1
    have found : cachedStatus ev.before = some v := cached_text held decodes
    have cmd : ev.cmd = .redis (.get votingSettingsRedisKey) := congrArg Exchange.cmd hit
    obtain ⟨answer, -⟩ := exchange_redis (performed_of_run run ev (by rw [split]; simp)) hit
    obtain ⟨no_fault, -⟩ := faulty_answered answer.symm
    simpa [staleHit, cmd, no_fault, found] using fresh
  · rw [(selected_row run split selects).1]

/- A look leaves the row alone. -/
theorem look_keeps (run : Reaches (server cfg) allow seed.start s) {ev : LogEntry}
    (logged : ev ∈ s.log) {v : Settings} (shows : Shows v ev.exchange) :
    ev.after.db.settings = ev.before.db.settings := by
  apply settings_frame (c := ev.cmd) _ (performed_of_run run ev logged)
  intro writes
  rcases shows with ⟨raw, hit, -⟩ | selects
  · have cmd : ev.cmd = .redis (.get votingSettingsRedisKey) := congrArg Exchange.cmd hit
    rw [cmd] at writes
    exact writes
  · have cmd : ev.cmd = .sql .getSettings := congrArg Exchange.cmd selects
    rw [cmd] at writes
    exact writes

theorem own_of {ev : LogEntry} (mine : ev.caller = i) : ofCall i ev = true := by
  simp [ofCall, mine]

/- The step that has shown a GetStatus its settings. -/
theorem look_found (run : Reaches (server cfg) allow seed.start s) {part : Log} {h : History}
    {v : Option Settings} (inside : part ⊆ s.log) (mine : own i part = h) (look : Look h v)
    (read : ∀ ev ∈ part, ofCall i ev = true → failedSelect ev = false) :
    ∃ a, v = some a ∧ ∃ newer ev older, part = newer ++ ev :: older ∧ ofCall i ev = true ∧
      Shows a ev.exchange := by
  cases v with
  | none =>
    obtain ⟨err, failed⟩ := look_fails look
    rw [← mine] at failed
    obtain ⟨ev, member, caller, exchange⟩ := mem_own.mp failed
    have fails := failed_of_error run (inside member) exchange
    rw [read ev member (own_of caller)] at fails
    cases fails
  | some a =>
    obtain ⟨x, shown, shows⟩ := look_shows look
    rw [← mine] at shown
    obtain ⟨ev, member, caller, rfl⟩ := mem_own.mp shown
    obtain ⟨newer, older, split⟩ := List.append_of_mem member
    exact ⟨a, rfl, newer, ev, older, split, own_of caller, shows⟩

theorem lookOf_shows {ev : LogEntry} (mine : ofCall i ev = true) {v : Settings}
    (shows : Shows v ev.exchange) : lookOf i ev = true := by
  simp [lookOf, mine, shown_iff.mpr shows]

/- The status in the row does not move between the two steps. -/
theorem row_between (run : Reaches (server cfg) allow seed.start s) {late mid older : Log}
    {two one : LogEntry} (split : s.log = late ++ two :: (mid ++ one :: older))
    (still : ∀ ev ∈ mid, changesReported ev = false) :
    reported two.before.db.settings = reported one.after.db.settings := by
  obtain ⟨t, t', -, -, at_one, onwards, grown, at_two⟩ := interval rfl run split
  have same := frame_since (fun w : World => reported w.db.settings)
    (fun w e w' moved => by rw [(env_scope moved).1]) onwards grown fun ev member => by
      simpa [changesReported] using still ev member
  rw [at_one, at_two] at same
  exact same

/- Both looks of a call that is not disturbed show the status that the row had at the first one. -/
theorem two_looks (run : Reaches (server cfg) allow seed.start s) {span rest : Log}
    (split : s.log = span ++ rest) {last second middle first : History} {v v' : Option Settings}
    (mine : own i span = last ++ (second ++ (middle ++ first))) (look : Look first v)
    (look' : Look second v') (calm : Undisturbed i span) :
    ∃ a b, v = some a ∧ v' = some b ∧ ∃ ev ∈ span, ofCall i ev = true ∧
      reported a = reported ev.before.db.settings ∧ reported b = reported ev.before.db.settings := by
  obtain ⟨ended, rest₁, rfl, -, own₁⟩ := own_split mine
  obtain ⟨later, rest₂, rfl, own_later, own₂⟩ := own_split own₁
  obtain ⟨gap, early, rfl, -, own_early⟩ := own_split own₂
  have logged : ∀ {ev}, ev ∈ ended ++ (later ++ (gap ++ early)) → ev ∈ s.log := by
    intro ev member
    rw [split]
    exact List.mem_append_left _ member
  obtain ⟨a, rfl, early', one, oldest, rfl, one_own, one_shows⟩ := look_found run
    (fun ev member => logged (by simp [member])) own_early look
    fun ev member => calm.read ev (by simp [member])
  obtain ⟨b, rfl, late, two, later', rfl, two_own, two_shows⟩ := look_found run
    (fun ev member => logged (by simp [member])) own_later look'
    fun ev member => calm.read ev (by simp [member])
  have in_span : ended ++ ((late ++ two :: later') ++ (gap ++ (early' ++ one :: oldest))) =
      (ended ++ late) ++ two :: ((later' ++ gap ++ early') ++ one :: oldest) := by
    simp
  rw [in_span] at split calm logged
  have at_two : s.log = (ended ++ late) ++ two :: ((later' ++ gap ++ early') ++ one :: (oldest ++ rest)) := by
    rw [split]
    simp
  have at_one : s.log = ((ended ++ late) ++ two :: (later' ++ gap ++ early')) ++ one :: (oldest ++ rest) := by
    rw [split]
    simp
  have still : ∀ ev ∈ later' ++ gap ++ early', changesReported ev = false := by
    intro ev between
    apply calm.still
    exact mem_stretch rfl (lookOf_shows two_own two_shows) (lookOf_shows one_own one_shows) between
  have first_row : reported a = reported one.before.db.settings :=
    look_row run at_one one_shows (calm.fresh one (by simp) one_own)
  have second_row : reported b = reported two.before.db.settings :=
    look_row run at_two two_shows (calm.fresh two (by simp) two_own)
  refine ⟨a, b, rfl, rfl, one, by simp, one_own, first_row, ?_⟩
  calc reported b = reported two.before.db.settings := second_row
    _ = reported one.after.db.settings := row_between run at_two still
    _ = reported one.before.db.settings := by
      rw [look_keeps run (by rw [at_one]; simp) one_shows]

/- A reading of the clock by the call, or any moment if it has read none. -/
theorem judged_at (run : Reaches (server cfg) allow seed.start s) {span : Log} (inside : span ⊆ s.log)
    {clock : History} {v : Option Settings} {opened : Bool} (judged : Judged clock v opened)
    (mine : clock ⊆ own i span) {one : LogEntry} (member : one ∈ span) (one_own : ofCall i one = true) :
    ∃ tick ∈ stretch (ofCall i) span,
      opened = v.any fun v => effectivelyOpen v tick.before.clock := by
  rcases judged with ⟨t, rfl, same⟩ | ⟨-, always⟩
  · obtain ⟨tick, logged, caller, exchange⟩ := mem_own.mp (mine List.mem_cons_self)
    refine ⟨tick, mem_stretch_self logged (own_of caller), ?_⟩
    have time : t = tick.before.clock := by
      have performed := performed_of_run run tick (inside logged)
      obtain ⟨by_call, oracle, cmd, reply, before, after⟩ := tick
      cases exchange
      simp only [Performed, World.perform, Option.some.injEq, Prod.mk.injEq] at performed
      exact performed.1.symm
    rw [← time]
    exact same
  · exact ⟨one, mem_stretch_self member one_own, always _⟩

/- What a payload has been put together from is all that its call has done since its leaderboard. -/
theorem sinceBoard_split {log : Log} {parts earlier : History}
    {rows : Except GoErr (List CandidateWithVotes)}
    (mine : own i log = parts ++ ⟨.sql .getAllWithVotes, rows⟩ :: earlier)
    (others : ∀ x ∈ parts, x.cmd ≠ .sql .getAllWithVotes) :
    own i (sinceBoard i log) = parts ∧ ∃ rest, log = sinceBoard i log ++ rest := by
  obtain ⟨newer, read, oldest, rfl, caller, exchange, own_newer, -⟩ := own_member_split mine
  have cmd : read.cmd = .sql .getAllWithVotes := congrArg Exchange.cmd exchange
  have all : ∀ ev ∈ newer, (!(ofCall i ev && ev.cmd = .sql .getAllWithVotes)) = true := by
    intro ev member
    simp only [Bool.not_eq_true', Bool.and_eq_false_imp, decide_eq_false_iff_not]
    intro by_i
    apply others ev.exchange
    rw [← own_newer]
    exact mem_own.mpr ⟨ev, member, by simpa [ofCall] using by_i, rfl⟩
  have since : sinceBoard i (newer ++ read :: oldest) = newer := by
    rw [sinceBoard, List.takeWhile_append_of_pos all]
    simp [own_of caller, cmd]
  rw [since]
  exact ⟨own_newer, _, rfl⟩

theorem judged_other {clock : History} {v : Option Settings} {opened : Bool}
    (judged : Judged clock v opened) : ∀ x ∈ clock, x.cmd ≠ .sql .getAllWithVotes := by
  rcases judged with ⟨t, rfl, -⟩ | ⟨rfl, -⟩ <;> simp

/- The payload that a call is about to send. -/
theorem payload_whole (run : Reaches (server cfg) allow seed.start s) {data : Str}
    (produced : (nextCmd s i).bind carried = some data)
    (calm : Undisturbed i (sinceBoard i s.log)) : PayloadWhole s i data := by
  obtain ⟨c, sends, carries⟩ := Option.bind_eq_some_iff.mp produced
  obtain ⟨job, next, at_i, waiting⟩ := waiting_of_nextCmd sends
  have rule := contract_of_job (program_carries builds_assembled cfg) rfl run job
    (List.mem_of_getElem? at_i)
  rw [waiting, meets_call, past_of_job rfl rfl run at_i] at rule
  obtain ⟨rows, first, v, clock, opened, second, v', earlier, past, look, judged, look', marshalled⟩ :=
    rule.1 data carries
  have parts : own i s.log = (second ++ (clock ++ first)) ++ ⟨.sql .getAllWithVotes, .ok rows⟩ ::
      earlier := by
    rw [past]
    simp
  obtain ⟨mine, rest, split⟩ := sinceBoard_split parts fun x member => by
    rcases List.mem_append.mp member with last | member
    · exact look_other look' x last
    · rcases List.mem_append.mp member with timed | early
      · exact judged_other judged x timed
      · exact look_other look x early
  have unended : own i (sinceBoard i s.log) = [] ++ (second ++ (clock ++ first)) := mine
  obtain ⟨a, b, rfl, rfl, one, member, one_own, same, same'⟩ :=
    two_looks run split unended look look' calm
  obtain ⟨tick, ticked, opens⟩ := judged_at run (fun ev inside => by rw [split]; simp [inside]) judged
    (fun x inside => by rw [mine]; simp [inside]) member one_own
  refine ⟨one, mem_stretch_self member one_own, tick, ticked, rows, ?_⟩
  have ends : b.endsAt = one.before.db.settings.endsAt := congrArg Prod.snd same'
  rw [← effectivelyOpen_reported same, ← ends, ← marshalled, opens]
  rfl

/-- The settings of a status answer, and what it says of being open. -/
def Answered (past : History) (r : Response) : Prop :=
  ∃ first v clock opened second v', past = clock ++ (second ++ first) ∧ Look first (some v) ∧
    Judged clock v' opened ∧ Look second v' ∧
      r = statusResponse v.customDomainsOnly v.isOpen opened v.endsAt

theorem getVotingStatus_answers : Handlers.getVotingStatus.Meets (fun _ _ => True)
    (fun now r => r.status < 500 → Answered now r) [] := by
  have free : ∀ (c : Cmd) (past : History), PayloadCmd c → (fun _ _ => True) past c :=
    fun _ _ _ => trivial
  apply meets_bind (getStatus_looks free [])
  rintro now status ⟨first, rfl, look⟩
  cases status with
  | error err => exact fun ok => absurd ok (by decide)
  | ok v =>
    apply meets_bind (isVotingOpen_looks free _)
    rintro now opened ⟨second, v', clock, rfl, look', -, judged⟩ -
    refine ⟨first, v, clock, orClosed opened, second, v', by simp, look, judged, look', ?_⟩
    cases opened <;> rfl

theorem program_answers (cfg : Config) (req : Call) : (program cfg req).Meets (fun _ _ => True)
    (fun now a => req = .getVotingStatus → ∀ r, a = .http r → r.status < 500 → Answered now r) [] := by
  by_cases status : req = .getVotingStatus
  · subst req
    apply meets_bind getVotingStatus_answers
    rintro now r answered - r' same
    cases same
    exact answered
  · apply meets_mono (meets_trivial (fun _ _ => trivial) _) fun _ _ allowed => allowed
    exact fun _ _ _ same => absurd same status

/- The answer of a finished status request. -/
theorem answer_whole (run : Reaches (server cfg) allow seed.start s) {r : Response}
    (answered : httpAnswer s i = some (.getVotingStatus, r)) (ok : r.status = 200)
    (calm : Undisturbed i s.log) : AnswerWhole s i r := by
  obtain ⟨job, at_i, asked, finished⟩ := job_of_answer answered
  have contract := contract_of_job (program_answers cfg) rfl run job (List.mem_of_getElem? at_i)
  rw [finished, meets_done, past_of_job rfl rfl run at_i] at contract
  obtain ⟨first, v, clock, opened, second, v', past, look, judged, look', rfl⟩ :=
    contract asked r rfl (by omega)
  have split : s.log = s.log ++ [] := (List.append_nil _).symm
  have adjacent : own i s.log = clock ++ (second ++ ([] ++ first)) := past
  obtain ⟨a, b, same_a, rfl, one, member, one_own, same, same'⟩ :=
    two_looks run split adjacent look look' calm
  cases same_a
  obtain ⟨tick, ticked, opens⟩ := judged_at run (fun ev inside => inside) judged
    (fun x inside => by rw [past]; simp [inside]) member one_own
  refine ⟨one, mem_stretch_self member one_own, tick, ticked, v.customDomainsOnly, ?_⟩
  obtain ⟨is_open, ends⟩ := Prod.mk.inj same
  rw [← effectivelyOpen_reported same', ← is_open, ← ends, opens]
  rfl

/- In every run, whatever fails and whenever updates land: a payload that a call is about to send and
   a status answer are those of one settings value which was the row during the call, if its looks
   neither failed nor hit a stale key and no update came between them. -/
theorem status_whole (run : Reaches (server cfg) allow seed.start s) (i : Nat) :
    (∀ data, (nextCmd s i).bind carried = some data → Undisturbed i (sinceBoard i s.log) →
      PayloadWhole s i data) ∧
      ∀ r, httpAnswer s i = some (.getVotingStatus, r) → r.status = 200 → Undisturbed i s.log →
        AnswerWhole s i r :=
  ⟨fun _ produced calm => payload_whole run produced calm,
    fun _ answered ok calm => answer_whole run answered ok calm⟩

end Runs

instance (i : Nat) (log : Log) : Decidable (Undisturbed i log) :=
  decidable_of_iff ((∀ ev ∈ log, ofCall i ev = true → failedSelect ev = false) ∧
    (∀ ev ∈ log, ofCall i ev = true → staleHit ev = false) ∧
      ∀ ev ∈ stretch (lookOf i) log, changesReported ev = false)
    ⟨fun all => ⟨all.1, all.2.1, all.2.2⟩, fun calm => ⟨calm.read, calm.fresh, calm.still⟩⟩

def lost : Oracle := { fault := some ⟨false, "i/o timeout".toList⟩ }

/- While a browser is given its snapshot an admin sets an end, and Redis does not answer the
   first GET. Then somebody asks for the status. -/
def ended : State :=
  after (server devConfig) anySchedule twoCandidates.start
    (.start .serveWS :: runs 0 2 ++ .start (.updateSettings true (some (newYear + 3600 * second))) ::
      runs 1 2 ++ .run 0 lost :: runs 0 4 ++ .start .getVotingStatus :: runs 2 3)

theorem status_whole_ended : ∃ data r, ended.log.any changesReported = true ∧
    ended.log.any (fun ev => ev.oracle.fault.isSome) = true ∧
      (nextCmd ended 0).bind carried = some data ∧ PayloadWhole ended 0 data ∧
        httpAnswer ended 2 = some (.getVotingStatus, r) ∧ r.status = 200 ∧ AnswerWhole ended 2 r := by
  have run : Reaches (server devConfig) anySchedule twoCandidates.start ended :=
    reaches_after (by decide +kernel)
  have updated : ended.log.any changesReported = true := by decide +kernel
  have failed : ended.log.any (fun ev => ev.oracle.fault.isSome) = true := by decide +kernel
  have calm : Undisturbed 0 (sinceBoard 0 ended.log) ∧ Undisturbed 2 ended.log := by decide +kernel
  have produced : ((nextCmd ended 0).bind carried).isSome = true := by decide +kernel
  have answered : (httpAnswer ended 2).map (fun a => (a.1, a.2.status)) =
      some (.getVotingStatus, 200) := by
    decide +kernel
  generalize ended = s at run updated failed calm produced answered ⊢
  obtain ⟨data, is_data⟩ := Option.isSome_iff_exists.mp produced
  obtain ⟨⟨req, r⟩, is_answer, same⟩ := Option.map_eq_some_iff.mp answered
  obtain ⟨rfl, ok⟩ := Prod.mk.inj same
  exact ⟨data, r, updated, failed, is_data, (status_whole run 0).1 data is_data calm.1, is_answer, ok,
    (status_whole run 2).2 r is_answer ok calm.2⟩

theorem print_inj {j j' : Json} (same : print j = print j') : j = j' := by
  have parsed := congrArg JsonText.parse same
  rw [parse_print, parse_print] at parsed
  exact Option.some.inj parsed

theorem opened_of_text {p q : WsPayload} {m : Str} (marshalled : marshalPayload p = .ok m)
    (marshalled' : marshalPayload q = .ok m) : p.effectivelyOpen = q.effectivelyOpen := by
  have texts : print (jsonPayload p) = print (jsonPayload q) :=
    (marshal_text marshalled).symm.trans (marshal_text marshalled')
  have same : jsonPayload p = jsonPayload q := print_inj texts
  simp only [jsonPayload, jsonName, jsonBool, Json.obj.injEq, List.cons.injEq, Prod.mk.injEq,
    Json.bool.injEq, true_and, and_true] at same
  exact same.2.1

/- No settings are reported as open without an end and yet not as effectively open. -/
theorem open_unending_opened {v : Settings} {t : Nat} {custom custom' opened : Bool}
    (same : statusResponse custom true opened none =
      statusResponse custom' v.isOpen (effectivelyOpen v t) v.endsAt) : opened = true := by
  simp only [statusResponse, successJSON, jsonName, jsonBool, Response.mk.injEq, Option.some.injEq,
    Json.obj.injEq, List.cons.injEq, Prod.mk.injEq, Json.bool.injEq, true_and, and_true] at same
  obtain ⟨-, opened_is, ends, is_open⟩ := same
  cases unending : v.endsAt with
  | none => rw [opened_is, effectivelyOpen, ← is_open, unending]; rfl
  | some endsAt =>
    rw [unending] at ends
    cases ends

/- The same answer, by its code and the text of its body. -/
theorem response_of_text {r r' : Response} (status : r.status = r'.status)
    (body : r.body.map print = r'.body.map print) : r = r' := by
  have same : r.body = r'.body := Option.map_injective (fun _ _ => print_inj) body
  calc r = ⟨r.status, r.body⟩ := rfl
    _ = ⟨r'.status, r'.body⟩ := by rw [status, same]

/- The first SELECT for the snapshot fails while the voting is open. -/
def misread : State :=
  after (server devConfig) anySchedule twoCandidates.start
    (.start .serveWS :: runs 0 3 ++ .run 0 lost :: runs 0 3)

/- An admin closes the voting between the two looks of a status request. -/
def torn : State :=
  after (server devConfig) faultless twoCandidates.start
    (.start .getVotingStatus :: runs 0 3 ++ .start (.updateSettings false none) :: runs 1 2 ++ runs 0 3)

theorem status_torn_or_invented :
    (∃ s data, Reaches (server devConfig) anySchedule twoCandidates.start s ∧
      (∀ ev ∈ s.log, ev.before.db.settings = ⟨true, none, false⟩) ∧
        (nextCmd s 0).bind carried = some data ∧
          marshalPayload ⟨s.world.db.getAllWithVotes, false, none⟩ = .ok data ∧
            ¬ PayloadWhole s 0 data) ∧
      ∃ s r, Reaches (server devConfig) faultless twoCandidates.start s ∧
        httpAnswer s 0 = some (.getVotingStatus, r) ∧ r = statusResponse false true false none ∧
          ¬ AnswerWhole s 0 r := by
  constructor
  · have run : Reaches (server devConfig) anySchedule twoCandidates.start misread :=
      reaches_after (by decide +kernel)
    have row : ∀ ev ∈ misread.log, ev.before.db.settings = ⟨true, none, false⟩ := by decide +kernel
    have produced : ((nextCmd misread 0).bind carried).isSome = true := by decide +kernel
    have text : (nextCmd misread 0).bind carried =
        (marshalPayload ⟨misread.world.db.getAllWithVotes, false, none⟩).toOption := by
      decide +kernel
    generalize misread = s at run row produced text ⊢
    obtain ⟨data, sends⟩ := Option.isSome_iff_exists.mp produced
    have closed : marshalPayload ⟨s.world.db.getAllWithVotes, false, none⟩ = .ok data := by
      rw [sends] at text
      cases marshalled : marshalPayload ⟨s.world.db.getAllWithVotes, false, none⟩ with
      | error err =>
        rw [marshalled] at text
        cases text
      | ok m =>
        rw [marshalled] at text
        cases text
        rfl
    refine ⟨s, data, run, row, sends, closed, ?_⟩
    rintro ⟨look, member, tick, -, rows, shown⟩
    have logged : look ∈ s.log := (List.takeWhile_sublist _).subset (stretch_subset _ member)
    rw [row look logged] at shown
    cases opened_of_text shown closed
  · have run : Reaches (server devConfig) faultless twoCandidates.start torn :=
      reaches_after (by decide +kernel)
    have text : (httpAnswer torn 0).map (fun a => (a.1, a.2.status, a.2.body.map print)) =
        some (.getVotingStatus, 200, (statusResponse false true false none).body.map print) := by
      decide +kernel
    generalize torn = s at run text ⊢
    obtain ⟨⟨req, r⟩, answered, same⟩ := Option.map_eq_some_iff.mp text
    obtain ⟨rfl, status, body⟩ := by simpa only [Prod.mk.injEq] using same
    have is : r = statusResponse false true false none := response_of_text status body
    refine ⟨s, r, run, answered, is, ?_⟩
    rintro ⟨look, -, tick, -, custom, shown⟩
    rw [is] at shown
    cases open_unending_opened shown

end TornStatus
