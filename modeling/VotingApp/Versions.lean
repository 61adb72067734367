import VotingApp.HubTraces
import VotingApp.LiveRuns

/-!
How old the state is that a message describes. A table has a version, the number of its changes,
and a message has those of the tables that its call has read for it.
-/
namespace Versions
open GoText GoTime JsonText Tables WsHub EffectProgram CallPool PoolHistory ExpiringStore
open VotingWorld OtpService VotingSettings VoteService CustomDomains Handlers VotingServer
open Footprints Frames OtpRecords Provenance SettingsCache HubDelivery PayloadReads LiveRuns

def ChangesBoard (ev : LogEntry) : Prop :=
  ev.after.db.getAllWithVotes ≠ ev.before.db.getAllWithVotes

instance : DecidablePred ChangesBoard := fun ev =>
  inferInstanceAs (Decidable (ev.after.db.getAllWithVotes ≠ ev.before.db.getAllWithVotes))

instance : DecidablePred TookEffect := fun ev =>
  decidable_of_iff (ev.oracle.fault.all Fault.applied = true) (by
    cases fault : ev.oracle.fault <;> simp [TookEffect, fault])

instance (k : Str) : DecidablePred (Wrote k) := fun ev =>
  inferInstanceAs (Decidable (WritesKey k ev.cmd ∧ TookEffect ev))

def boardVersion (log : Log) : Nat := log.countP ChangesBoard

def rowVersion (log : Log) : Nat := log.countP ChangesSettings

/-- The leaderboard that the call has read last. -/
def leaderboardAt (i : Nat) : Log → Option Nat
  | [] => none
  | ev :: older =>
    if ev.caller = i ∧ ev.cmd = .sql .getAllWithVotes then some (boardVersion older)
    else leaderboardAt i older

/-- The row that the call has selected last. -/
def selectedAt (i : Nat) : Log → Option Nat
  | [] => none
  | ev :: older =>
    if ev.caller = i ∧ ev.cmd = .sql .getSettings then some (rowVersion older)
    else selectedAt i older

/-- The settings under the key: those that the call which wrote it had selected. -/
def cachedAt : Log → Option Nat
  | [] => none
  | ev :: older =>
    if Wrote votingSettingsRedisKey ev then selectedAt ev.caller older else cachedAt older

/-- What a GetStatus of the call has made of the settings so far: a hit, or a row, or nothing. -/
def lookAt (x : Exchange Cmd Reply) (older : Log) : Option Nat :=
  match x with
  | ⟨.redis (.get _), .ok raw⟩ =>
    match unmarshalSettings raw with
    | .ok _ => cachedAt older
    | .error _ => none
  | ⟨.sql .getSettings, .ok _⟩ => some (rowVersion older)
  | _ => none

/-- The settings that the call has looked at since it read the leaderboard, newest look first. -/
def looksAt (i : Nat) : Log → List (Option Nat)
  | [] => []
  | ev :: older =>
    if ev.caller = i then
      match ev.cmd with
      | .sql .getAllWithVotes => []
      | .redis (.get _) => lookAt ev.exchange older :: looksAt i older
      | .sql .getSettings => lookAt ev.exchange older :: (looksAt i older).tail
      | _ => looksAt i older
    else looksAt i older

structure Message where
  data : Str
  board : Option Nat
  looks : List (Option Nat)
  deriving DecidableEq

def messageOf (data : Str) (i : Nat) (older : Log) : Message :=
  ⟨data, leaderboardAt i older, looksAt i older⟩

/-- The messages on Hub.Broadcast, the oldest first. -/
def messages : Log → List Message
  | [] => []
  | ev :: older =>
    messages older ++ ((sentBy ev).map fun data => messageOf data ev.caller older).toList

def behind : Option Nat → Option Nat → Bool
  | some m, some n => m < n
  | _, _ => false

/-- The leaderboard, or the row, when it had changed n times. -/
def BoardAt (log : Log) (n : Nat) (rows : List CandidateWithVotes) : Prop :=
  ∃ late read older, log = late ++ read :: older ∧ boardVersion older = n ∧
    read.before.db.getAllWithVotes = rows

def RowAt (log : Log) (n : Nat) (v : Settings) : Prop :=
  ∃ late read older, log = late ++ read :: older ∧ rowVersion older = n ∧
    read.before.db.settings = v

theorem selected_skip {i : Nat} {newer older : Log} (apart : ∀ ev ∈ newer, ev.caller ≠ i) :
    selectedAt i (newer ++ older) = selectedAt i older := by
  induction newer with
  | nil => rfl
  | cons ev newer ih =>
    have other : ¬ (ev.caller = i ∧ ev.cmd = .sql .getSettings) :=
      fun both => apart ev List.mem_cons_self both.1
    rw [List.cons_append, selectedAt, if_neg other]
    exact ih fun e member => apart e (List.mem_cons_of_mem _ member)

theorem cached_skip {newer older : Log} (idle : ∀ ev ∈ newer, ¬ Wrote votingSettingsRedisKey ev) :
    cachedAt (newer ++ older) = cachedAt older := by
  induction newer with
  | nil => rfl
  | cons ev newer ih =>
    rw [List.cons_append, cachedAt, if_neg (idle ev List.mem_cons_self)]
    exact ih fun e member => idle e (List.mem_cons_of_mem _ member)

section Runs
variable {cfg : Config} {allow : State → Move → Bool} {seed : Seed} {s : State}

/- What is under the key is the row of the version that the log gives for it. -/
theorem cached_version (run : Reaches (server cfg) allow seed.start s) :
    s.world.redis votingSettingsRedisKey = none ∨ ∃ raw v n,
      s.world.redis votingSettingsRedisKey = some ⟨.text raw, none⟩ ∧ Storable v ∧
        marshalSettings v = .ok raw ∧ cachedAt s.log = some n ∧ RowAt s.log n v := by
  have logged := performed_of_run run
  rcases last_change (fun w => w.redis votingSettingsRedisKey) (Wrote votingSettingsRedisKey)
    (fun w e w' moved => by rw [(env_scope moved).2.1]) rfl run
    (fun ev member idle => key_kept (logged ev member) idle) with
    ⟨-, same⟩ | ⟨newer, set, older, split, wrote, last, same⟩
  · exact Or.inl same
  · rcases settings_write run split wrote with gone | ⟨raw, v, rest, sets, past, marshalled, left⟩
    · exact Or.inl (same.trans gone)
    · obtain ⟨mid, select, oldest, rfl, same_call, selects, -, apart⟩ := own_cons_split past
      have at_select : s.log = (newer ++ set :: mid) ++ select :: oldest := by rw [split]; simp
      obtain ⟨row, -, storable⟩ := selected_row run at_select selects
      refine Or.inr ⟨raw, v, rowVersion oldest, same.trans left, storable, marshalled, ?_,
        newer ++ set :: mid, select, oldest, at_select, rfl, row⟩
      have select_cmd : select.cmd = .sql .getSettings := congrArg Exchange.cmd selects
      rw [split, cached_skip last, cachedAt, if_pos wrote, selected_skip apart, selectedAt,
        if_pos ⟨same_call, select_cmd⟩]

/- A look at the settings shows the row of its version. -/
theorem look_version (run : Reaches (server cfg) allow seed.start s) {late older : Log}
    {look : LogEntry} (split : s.log = late ++ look :: older) {v : Settings}
    (shows : Shows v look.exchange) :
    ∃ n, lookAt look.exchange older = some n ∧ RowAt s.log n v := by
  rcases shows with ⟨raw, hit, decodes⟩ | selects
  · obtain ⟨looking⟩ := moment_of_logged rfl run split
    obtain ⟨answer, -⟩ := answered_redis looking.performed hit
    rcases cached_version looking.reached with absent | ⟨raw', v', n, held, storable, marshalled, cached, row⟩
    · rw [looking.pre_world] at absent
      rw [RedisCmd.run, get_absent itoa absent] at answer
      cases answer
    · rw [looking.pre_world] at held
      rw [RedisCmd.run, get_forever itoa held] at answer
      cases answer
      have same := unmarshal_marshal storable marshalled
      rw [decodes] at same
      cases same
      rw [looking.pre_log] at cached row
      obtain ⟨newer, read, oldest, at_read, version, was⟩ := row
      refine ⟨n, ?_, late ++ look :: newer, read, oldest, by rw [split, at_read]; simp, version, was⟩
      rw [hit, lookAt]
      simp only [decodes]
      exact cached
  · refine ⟨rowVersion older, by rw [selects, lookAt], late, look, older, split, rfl, ?_⟩
    exact (selected_row run split selects).1

end Runs

/-- Reading the clock, or not. -/
def Clocked (clock : History) (t : Nat) : Prop := clock = [] ∨ clock = [⟨.now, t⟩]

/-- The message that a command puts on a channel. -/
def carried : Cmd → Option Str
  | .broadcast data => some data
  | .sendToOne _ data => some data
  | _ => none

/-- The call has read the leaderboard, then the settings for is_open and then those for ends_at,
and this is the payload. -/
def Prepared (past : History) (data : Str) : Prop :=
  ∃ rows first v clock t second v' earlier,
    past = second ++ (clock ++ (first ++ ⟨.sql .getAllWithVotes, .ok rows⟩ :: earlier)) ∧
      Look first v ∧ Clocked clock t ∧ Look second v' ∧
        marshalPayload ⟨rows, v.any fun v => effectivelyOpen v t, v'.bind Settings.endsAt⟩ = .ok data

def CarriesRule (past : History) (c : Cmd) : Prop := ∀ data, carried c = some data →
  Prepared past data

/-- A message satisfies this of what its call has done before. -/
def Carrying (P : History → Str → Prop) (past : History) (c : Cmd) : Prop :=
  ∀ data, carried c = some data → P past data

/-- The payload with its leaderboard, its look for is_open and its look for ends_at. -/
def Assembled (past : History) (data : Str) : Prop :=
  ∃ rows first v clock opened second v' earlier,
    past = second ++ (clock ++ (first ++ ⟨.sql .getAllWithVotes, .ok rows⟩ :: earlier)) ∧
      Look first v ∧ Judged clock v opened ∧ Look second v' ∧
        marshalPayload ⟨rows, opened, v'.bind Settings.endsAt⟩ = .ok data

theorem prepared_of_assembled {past : History} {data : Str} (assembled : Assembled past data) :
    Prepared past data := by
  obtain ⟨rows, first, v, clock, opened, second, v', earlier, split, look, judged, look', marshalled⟩ :=
    assembled
  rcases judged with ⟨t, reads, rfl⟩ | ⟨idle, always⟩
  · exact ⟨rows, first, v, clock, t, second, v', earlier, split, look, Or.inr reads, look', marshalled⟩
  · rw [always 0] at marshalled
    exact ⟨rows, first, v, clock, 0, second, v', earlier, split, look, Or.inl idle, look', marshalled⟩

/- The leaderboard, then is_open, then ends_at. -/
theorem buildWSPayload_assembles {R : History → Cmd → Prop} (free : ∀ c past, PayloadCmd c → R past c)
    (past : History) :
    buildWSPayload.Meets R (fun now r => ∀ data, r = .ok data → Assembled now data) past := by
  apply meets_sql (free _ past .board)
  intro board
  cases board with
  | error err => exact fun data built => nomatch built
  | ok rows =>
    apply meets_bind (isVotingOpen_looks free _)
    rintro now opened ⟨first, v, clock, rfl, look, -, judged⟩
    apply meets_bind (getStatus_looks free _)
    rintro now status ⟨second, rfl, look'⟩
    intro data marshalled
    refine ⟨rows, first, v, clock, orClosed opened, second, status.toOption, past, rfl, look, judged,
      look', ?_⟩
    rw [← marshalled]
    cases opened <;> cases status <;> rfl

section Carrying
variable {P : History → Str → Prop}

theorem carries_free (c : Cmd) (past : History) (silent : carried c = none) : Carrying P past c := by
  intro data carries
  rw [silent] at carries
  cases carries

theorem carries_neutral {c : Cmd} (silent : carried c = none) :
    Neutral (Carrying P) (fun _ => True) c :=
  fun past _ => ⟨carries_free c past silent, fun _ => trivial⟩

theorem carries_payload (c : Cmd) (past : History) (sent : PayloadCmd c) : Carrying P past c := by
  cases sent <;> exact carries_free _ past rfl

/-- The payload satisfies P of what has been done for it. -/
def Builds (P : History → Str → Prop) : Prop := ∀ past, buildWSPayload.Meets (Carrying P)
  (fun now r => ∀ data, r = .ok data → P now data) past

theorem builds_assembled : Builds Assembled := buildWSPayload_assembles carries_payload

theorem builds_prepared : Builds Prepared := by
  intro past
  apply meets_mono (buildWSPayload_assembles (carries_payload (P := Prepared)) past)
  · exact fun _ _ carries => carries
  · exact fun now r assembled data built => prepared_of_assembled (assembled data built)

theorem broadcastPayload_carries (builds : Builds P) :
    broadcastPayload.Keeps (Carrying P) (fun _ => True) := by
  intro past _
  apply meets_bind (builds past)
  intro now r prepared
  cases r with
  | error err => trivial
  | ok data =>
    refine ⟨?_, fun _ => trivial⟩
    intro data' carries
    cases carries
    exact prepared data rfl

theorem updateSettings_carries (builds : Builds P) (isOpen : Bool) (endsAt : Option Nat) :
    (VotingSettings.updateSettings isOpen endsAt).Keeps (Carrying P) (fun _ => True) := by
  apply keeps_sql (carries_neutral rfl)
  intro r
  cases r with
  | error err => exact keeps_done _
  | ok done =>
    apply keeps_redis (carries_neutral rfl)
    intro r
    exact keeps_bind (broadcastPayload_carries builds) fun _ => keeps_done _

theorem verifyAndVote_carries (builds : Builds P) (email otp ip userAgent : Str) :
    (VoteService.verifyAndVote email otp ip userAgent).Keeps (Carrying P) (fun _ => True) := by
  have verify : (OtpService.verify email otp).Keeps (Carrying P) (fun _ => True) := by
    apply keeps_of_issues (verify_issues email otp)
    intro c sent
    cases sent <;> exact carries_neutral rfl
  apply keeps_bind verify
  intro found
  rcases found with err | ⟨fp, id⟩
  · exact keeps_done _
  · apply keeps_sql (carries_neutral rfl)
    intro r
    cases r with
    | error err =>
      dsimp only
      split <;> exact keeps_done _
    | ok done => exact keeps_bind (broadcastPayload_carries builds) fun _ => keeps_done _

theorem carries_respected (builds : Builds P) (cfg : Config) {req : Call} (other : req ≠ .serveWS) :
    Respected cfg req (Carrying P) (fun _ => True) where
  plain c sent := by
    cases sent with
    | sendToOne serves client data => exact absurd serves other
    | _ => exact carries_neutral rfl
  status := by
    apply keeps_of_issues getStatus_issues
    intro c sent
    cases sent <;> exact carries_neutral rfl
  broadcast := broadcastPayload_carries builds
  update := updateSettings_carries builds
  mode value := by
    apply keeps_sql (carries_neutral rfl)
    intro r
    cases r with
    | error err => exact keeps_done _
    | ok rows => exact keeps_redis (carries_neutral rfl) fun _ => keeps_done _
  generate email fp candidate name _ := by
    apply keeps_of_issues (generateAndStore_issues email fp candidate name)
    intro c sent
    cases sent <;> exact carries_neutral rfl
  verify email otp _ := by
    apply keeps_of_issues (verify_issues email otp)
    intro c sent
    cases sent <;> exact carries_neutral rfl
  vote email otp ip userAgent _ := verifyAndVote_carries builds email otp ip userAgent
  deleteCandidate _ n _ _ := by
    apply keeps_of_issues (deleteCandidate_issues n)
    intro c sent
    cases sent <;> exact carries_neutral rfl
  insertDomain domain := by
    apply keeps_of_issues (insert_issues domain)
    intro c sent
    cases sent <;> exact carries_neutral rfl
  deleteDomain n := by
    apply keeps_of_issues (delete_issues n)
    intro c sent
    cases sent <;> exact carries_neutral rfl
  warmCache := by
    apply keeps_of_issues warmCache_issues
    intro c sent
    cases sent <;> exact carries_neutral rfl

theorem serveWS_carries (builds : Builds P) :
    Handlers.serveWS.Meets (Carrying P) (fun _ _ => True) [] := by
  apply meets_issue (carries_free _ [] rfl)
  intro client
  apply meets_bind (builds _)
  intro now r prepared
  cases r with
  | error err => exact ⟨carries_free _ now rfl, fun _ => trivial⟩
  | ok msg =>
    dsimp only
    split
    · exact ⟨carries_free _ now rfl, fun _ => trivial⟩
    · refine ⟨?_, fun _ => ⟨carries_free _ _ rfl, fun _ => trivial⟩⟩
      intro data carries
      cases carries
      exact prepared msg rfl

theorem program_carries (builds : Builds P) (cfg : Config) (req : Call) :
    (program cfg req).Meets (Carrying P) (fun _ _ => True) [] := by
  by_cases serves : req = .serveWS
  · subst req
    exact meets_bind (serveWS_carries builds) fun _ _ _ => trivial
  · exact program_keeps (carries_respected builds cfg serves) [] trivial

end Carrying

section Runs
variable {cfg : Config} {allow : State → Move → Bool} {seed : Seed} {s : State}

/-- The commands that leave the versions of a call's message alone. -/
def quiet : Cmd → Bool
  | .sql .getAllWithVotes => false
  | .sql .getSettings => false
  | .redis (.get _) => false
  | _ => true

theorem looks_skip {i : Nat} {newer older : Log} (all : ∀ x ∈ own i newer, quiet x.cmd = true) :
    looksAt i (newer ++ older) = looksAt i older := by
  induction newer with
  | nil => rfl
  | cons ev newer ih =>
    rw [List.cons_append, looksAt]
    by_cases mine : ev.caller = i
    · simp only [own, mine, ↓reduceIte, List.forall_mem_cons] at all
      rw [if_pos mine]
      obtain ⟨here, rest⟩ := all
      change quiet ev.cmd = true at here
      split
      · rename_i cmd
        rw [cmd] at here
        cases here
      · rename_i cmd
        rw [cmd] at here
        cases here
      · rename_i cmd
        rw [cmd] at here
        cases here
      · exact ih rest
    · simp only [own, mine, ↓reduceIte] at all
      rw [if_neg mine]
      exact ih all

/-- The version l is that of the settings v, if there are any. -/
def Sees (log : Log) (l : Option Nat) : Option Settings → Prop
  | some v => ∃ n, l = some n ∧ RowAt log n v
  | none => l = none

theorem own_split {i : Nat} {log : Log} {a b : History} (h : own i log = a ++ b) :
    ∃ newer older, log = newer ++ older ∧ own i newer = a ∧ own i older = b := by
  cases b with
  | nil => exact ⟨log, [], (List.append_nil log).symm, by rw [h, List.append_nil], rfl⟩
  | cons x b =>
    obtain ⟨late, ev, early, rfl, mine, exchange, own_late, own_early⟩ := own_member_split h
    exact ⟨late, ev :: early, rfl, own_late, by simp [own, mine, exchange, own_early]⟩

theorem looks_get {i : Nat} {ev : LogEntry} {older : Log} {r : Except GoErr Str}
    (mine : ev.caller = i) (gets : ev.exchange = ⟨.redis (.get votingSettingsRedisKey), r⟩) :
    looksAt i (ev :: older) = lookAt ev.exchange older :: looksAt i older := by
  have cmd : ev.cmd = .redis (.get votingSettingsRedisKey) := congrArg Exchange.cmd gets
  simp only [looksAt, if_pos mine, cmd]

/- A SELECT takes the place of the miss before it. -/
theorem looks_select {i : Nat} {late newer older : Log} {wrote : History}
    {row : Except GoErr Settings} {r : Except GoErr Str} (quiet_write : ∀ x ∈ wrote, quiet x.cmd = true)
    (mine : own i newer =
      wrote ++ [⟨.sql .getSettings, row⟩, ⟨.redis (.get votingSettingsRedisKey), r⟩])
    (split : s.log = late ++ (newer ++ older)) :
    ∃ late' select older', s.log = late' ++ select :: older' ∧
      select.exchange = ⟨.sql .getSettings, row⟩ ∧
        looksAt i (newer ++ older) = lookAt select.exchange older' :: looksAt i older := by
  obtain ⟨front, select, rest, rfl, by_i, selects, own_front, own_rest⟩ := own_member_split mine
  have miss : own i rest = [] ++ [⟨.redis (.get votingSettingsRedisKey), r⟩] := own_rest
  obtain ⟨gap, get, back, rfl, by_i', gets, own_gap, own_back⟩ := own_member_split miss
  refine ⟨late ++ front, select, gap ++ get :: back ++ older, by rw [split]; simp, selects, ?_⟩
  have cmd : select.cmd = .sql .getSettings := congrArg Exchange.cmd selects
  have before : looksAt i (gap ++ get :: (back ++ older)) =
      lookAt get.exchange (back ++ older) :: looksAt i older := by
    rw [looks_skip (by simp [own_gap]), looks_get by_i' gets, looks_skip (by simp [own_back])]
  rw [List.append_assoc, looks_skip (by rw [own_front]; exact quiet_write), List.cons_append]
  simp only [looksAt, if_pos by_i, cmd, List.append_assoc, List.cons_append, before, List.tail_cons]

theorem look_stands (run : Reaches (server cfg) allow seed.start s) {i : Nat}
    {late newer older : Log} (split : s.log = late ++ (newer ++ older)) {v : Option Settings}
    {later : History} (mine : own i newer = later) (look : Look later v) :
    ∃ l, looksAt i (newer ++ older) = l :: looksAt i older ∧ Sees s.log l v := by
  cases look with
  | hit raw v decodes =>
    have alone : own i newer = [] ++ [⟨.redis (.get votingSettingsRedisKey), .ok raw⟩] := mine
    obtain ⟨front, get, back, rfl, by_i, gets, own_front, own_back⟩ := own_member_split alone
    refine ⟨lookAt get.exchange (back ++ older), ?_, ?_⟩
    · rw [List.append_assoc, looks_skip (by simp [own_front]), List.cons_append,
        looks_get by_i gets, looks_skip (by simp [own_back])]
    · have at_get : s.log = (late ++ front) ++ get :: (back ++ older) := by rw [split]; simp
      exact look_version run at_get (Or.inl ⟨raw, gets, decodes⟩)
  | row r v =>
    have unwritten : own i newer = [] ++ _ := mine
    obtain ⟨late', select, older', at_select, selects, looks⟩ :=
      looks_select (List.forall_mem_nil _) unwritten split
    exact ⟨_, looks, look_version run at_select (Or.inr selects)⟩
  | written r v raw done =>
    have wrote : own i newer = [⟨.redis (.set votingSettingsRedisKey raw 0), done⟩] ++ _ := mine
    obtain ⟨late', select, older', at_select, selects, looks⟩ :=
      looks_select (by simp [quiet]) wrote split
    exact ⟨_, looks, look_version run at_select (Or.inr selects)⟩
  | failed r err =>
    have unwritten : own i newer = [] ++ _ := mine
    obtain ⟨late', select, older', at_select, selects, looks⟩ :=
      looks_select (List.forall_mem_nil _) unwritten split
    exact ⟨_, looks, by rw [selects]; rfl⟩

theorem look_other {later : History} {v : Option Settings} (look : Look later v) :
    ∀ x ∈ later, x.cmd ≠ .sql .getAllWithVotes := by
  cases look <;> simp

theorem leaderboard_found {i : Nat} {newer older : Log} {read : LogEntry}
    (others : ∀ x ∈ own i newer, x.cmd ≠ .sql .getAllWithVotes) (mine : read.caller = i)
    (reads : read.cmd = .sql .getAllWithVotes) :
    leaderboardAt i (newer ++ read :: older) = some (boardVersion older) := by
  induction newer with
  | nil => rw [List.nil_append, leaderboardAt, if_pos ⟨mine, reads⟩]
  | cons ev newer ih =>
    rw [List.cons_append, leaderboardAt]
    by_cases same : ev.caller = i
    · simp only [own, same, ↓reduceIte, List.forall_mem_cons] at others
      rw [if_neg fun both => others.1 both.2]
      exact ih others.2
    · simp only [own, same, ↓reduceIte] at others
      rw [if_neg fun both => same both.1]
      exact ih others

theorem message_rule (run : Reaches (server cfg) allow seed.start s) {late older : Log}
    {ev : LogEntry} (split : s.log = late ++ ev :: older) :
    CarriesRule (own ev.caller older) ev.cmd := by
  obtain ⟨job, -, rule⟩ := contract_of_logged (program_carries builds_prepared cfg) rfl rfl run split
  exact rule

/- A message is a payload, and what it shows is what the tables held at its versions. -/
theorem message_shows (run : Reaches (server cfg) allow seed.start s) {late older : Log}
    {ev : LogEntry} (split : s.log = late ++ ev :: older) {data : Str}
    (carries : carried ev.cmd = some data) :
    ∃ rows n v t l v' l',
      marshalPayload ⟨rows, v.any fun v => effectivelyOpen v t, v'.bind Settings.endsAt⟩ = .ok data ∧
        messageOf data ev.caller older = ⟨data, some n, [l', l]⟩ ∧ BoardAt s.log n rows ∧
          Sees s.log l v ∧ Sees s.log l' v' := by
  obtain ⟨rows, first, v, clock, t, second, v', earlier, past, look, clocked, look', marshalled⟩ :=
    message_rule run split data carries
  have at_board : own ev.caller older =
      (second ++ (clock ++ first)) ++ ⟨.sql .getAllWithVotes, .ok rows⟩ :: earlier := by
    rw [past]
    simp
  obtain ⟨newer, read, oldest, rfl, mine, exchange, own_newer, -⟩ := own_member_split at_board
  obtain ⟨ended, rest, rfl, own_ended, own_rest⟩ := own_split own_newer
  obtain ⟨timed, opened, rfl, own_timed, own_opened⟩ := own_split own_rest
  have reads : read.cmd = .sql .getAllWithVotes := congrArg Exchange.cmd exchange
  have at_ended : s.log = (late ++ [ev]) ++ (ended ++ (timed ++ (opened ++ read :: oldest))) := by
    rw [split]
    simp
  have at_opened : s.log = (late ++ ev :: (ended ++ timed)) ++ (opened ++ read :: oldest) := by
    rw [split]
    simp
  obtain ⟨l', ends_look, sees'⟩ := look_stands run at_ended own_ended look'
  obtain ⟨l, open_look, sees⟩ := look_stands run at_opened own_opened look
  have clock_quiet : ∀ x ∈ own ev.caller timed, quiet x.cmd = true := by
    rw [own_timed]
    rcases clocked with rfl | rfl <;> simp [quiet]
  refine ⟨rows, boardVersion oldest, v, t, l, v', l', marshalled, ?_, ?_, sees, sees'⟩
  · have looks : looksAt ev.caller ((ended ++ (timed ++ opened)) ++ read :: oldest) = [l', l] := by
      simp only [List.append_assoc]
      rw [ends_look, looks_skip clock_quiet, open_look]
      simp [looksAt, mine, reads]
    rw [messageOf, looks, leaderboard_found _ mine reads]
    intro x member
    rw [own_newer] at member
    rcases List.mem_append.mp member with inside | inside
    · exact look_other look' x inside
    · rcases List.mem_append.mp inside with inside | inside
      · rw [← own_timed] at inside
        intro same
        have silent := clock_quiet x inside
        rw [same] at silent
        cases silent
      · exact look_other look x inside
  · have at_read : s.log = (late ++ ev :: (ended ++ (timed ++ opened))) ++ read :: oldest := by
      rw [split]
      simp
    exact ⟨_, read, oldest, at_read, rfl,
      (board_read (performed_of_run run read (by rw [at_read]; simp)) exchange).1⟩

end Runs
end Versions
