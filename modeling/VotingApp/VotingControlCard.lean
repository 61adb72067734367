import VotingApp.Lib.Clients
import VotingApp.Lib.JsDate
import VotingApp.Api
import VotingApp.TornStatus

/-!
VotingControlCard.tsx in front of the server. Every dashboard has its own copy of the two fields,
taken when it was opened, and a save sends both of them.
-/
namespace VotingControlCard
open GoText GoTime JsonText JsDate Tables EffectProgram CallPool PoolHistory Clients VotingWorld
open OtpService VotingSettings VoteService CustomDomains Handlers VotingServer
open Api Footprints Frames TableInvariants SettingsCache PayloadReads TornStatus

/-- What the card reads of a voting status. -/
structure VotingStatus where
  isOpen : Bool
  endsAt : Option Str
  deriving DecidableEq, Repr

/- An ends_at of null or of no characters is none. -/
def readEnd : Json → Option Str
  | .str s => if s = [] then none else some s
  | _ => none

def readStatus (data : Json) : Option VotingStatus :=
  match data.field "is_open".toList with
  | some (.bool isOpen) => some ⟨isOpen, (data.field "ends_at".toList).bind readEnd⟩
  | _ => none

def getStatus (a : Option Answer) : Option VotingStatus :=
  (resolved a).bind fun r => r.body.bind fun body => (body.field "data".toList).bind readStatus

/- The state of the component. A date that is none is an invalid one. -/
structure Card where
  votingOpen : Bool := true
  endsAtDate : Option (Option Int) := none
  votingLoading : Bool := false
  votingSettingsLoading : Bool := true
  deriving DecidableEq, Repr

/-- A dashboard, with what its status load was answered and which fields were edited in it. -/
structure Session where
  card : Card := {}
  loaded : Option VotingStatus := none
  toggled : Bool := false
  picked : Bool := false
  deriving DecidableEq, Repr

inductive Toast where
  | success (text : String)
  | error (text : String)
  deriving DecidableEq, Repr

/-- The requests of the card. A save was clicked in such a session. -/
inductive Request where
  | load
  | save (session : Session)
  deriving DecidableEq, Repr

inductive Input where
  | toggle
  | pick (date : Option (Option Int))
  | clear
  | save
  deriving DecidableEq, Repr

abbrev SessionTurn := Turn Session Request Call Toast

def failedToSave : Toast := .error "Failed to save voting settings."

/- endsAtDate ? endsAtDate.toISOString() : null, which throws on an invalid date. -/
def endsAtUtc : Option (Option Int) → Option (Option Str)
  | none => some none
  | some none => none
  | some (some ms) => some (some (toISOString ms))

def handleSave (x : Session) : SessionTurn :=
  match endsAtUtc x.card.endsAtDate with
  | none => { next := x, out := [failedToSave] }
  | some endsAt =>
    { next := { x with card := { x.card with votingLoading := true } }
      sent := some (.save x, .updateVotingSettings (.ok ⟨x.card.votingOpen, endsAt⟩)) }

/- No control is there before the load has settled, and no save starts during another one. -/
def press (x : Session) : Input → Option SessionTurn
  | .toggle =>
    if x.card.votingSettingsLoading then none
    else some { next := { x with
      card := { x.card with votingOpen := !x.card.votingOpen }
      toggled := true } }
  | .pick date =>
    if x.card.votingSettingsLoading then none
    else some { next := { x with card := { x.card with endsAtDate := date }, picked := true } }
  | .clear =>
    if x.card.votingSettingsLoading || x.card.endsAtDate.isNone then none
    else some { next := { x with card := { x.card with endsAtDate := none }, picked := true } }
  | .save =>
    if x.card.votingSettingsLoading || x.card.votingLoading then none else some (handleSave x)

/- A load that fails keeps the defaults. -/
def settleLoad (x : Session) (a : Option Answer) : Session :=
  match getStatus a with
  | none => { x with card := { x.card with votingSettingsLoading := false } }
  | some status => { x with
    card := { x.card with
      votingOpen := status.isOpen
      endsAtDate := match status.endsAt with
        | some s => some (newDate s)
        | none => x.card.endsAtDate
      votingSettingsLoading := false }
    loaded := some status }

def settle (x : Session) (tag : Request) (a : Option Answer) : SessionTurn :=
  match tag with
  | .load => { next := settleLoad x a }
  | .save _ =>
    { next := { x with card := { x.card with votingLoading := false } }
      out := [if (resolved a).isSome then .success "Voting settings saved successfully!"
        else failedToSave] }

def dashboard : App Session Unit Input Request Call Answer Toast where
  mount _ := { next := {}, sent := some (.load, .getVotingStatus) }
  input := press
  settle := settle

abbrev Admins := Site Cmd Reply World Oracle Session Request Call Answer

/-- What the card has for a field that nobody has edited. -/
def Session.loadedOpen (x : Session) : Bool :=
  match x.loaded with
  | some status => status.isOpen
  | none => true

def Session.loadedDate (x : Session) : Option (Option Int) :=
  x.loaded.bind fun status => status.endsAt.map newDate

/-- The settings had these two values at some time. -/
def WasSaved (log : Log) (status : VotingStatus) : Prop :=
  ∃ ev ∈ log, Storable ev.before.db.settings ∧ ev.before.db.settings.isOpen = status.isOpen ∧
    ev.before.db.settings.endsAt.map format = status.endsAt

/-- The copy of a field that was not edited is what the load has answered, and that was saved once. -/
structure Unedited (log : Log) (x : Session) : Prop where
  isOpen : x.toggled = false → x.card.votingOpen = x.loadedOpen
  endsAt : x.picked = false → x.card.endsAtDate = x.loadedDate
  saved : ∀ status, x.loaded = some status → WasSaved log status

def isLoad : Request → Bool
  | .load => true
  | .save _ => false

/-- Nothing has happened to the card. -/
def Untouched (x : Session) : Prop := x.card.votingSettingsLoading = true ∧ x.card.endsAtDate = none

/-- What a request of a card asks for. -/
def Asked (log : Log) : Request → Call → Prop
  | .load, req => req = .getVotingStatus
  | .save x, req => Unedited log x ∧ ∃ endsAt, endsAtUtc x.card.endsAtDate = some endsAt ∧
      req = .updateVotingSettings (.ok ⟨x.card.votingOpen, endsAt⟩)

theorem press_loaded {x : Session} {i : Input} {t : SessionTurn} (takes : press x i = some t) :
    x.card.votingSettingsLoading = false := by
  cases loading : x.card.votingSettingsLoading with
  | false => rfl
  | true => cases i <;> simp [press, loading] at takes

theorem handleSave_sends {x : Session} {tag : Request} {req : Call}
    (sends : (handleSave x).sent = some (tag, req)) :
    tag = .save x ∧ ∃ endsAt, endsAtUtc x.card.endsAtDate = some endsAt ∧
      req = .updateVotingSettings (.ok ⟨x.card.votingOpen, endsAt⟩) := by
  unfold handleSave at sends
  split at sends
  · cases sends
  · rename_i endsAt dated
    cases sends
    exact ⟨rfl, endsAt, dated, rfl⟩

theorem dashboard_opening : Opening dashboard isLoad Untouched where
  mount _ := ⟨rfl, rfl⟩
  input x i t takes := by
    constructor
    · rintro ⟨loading, -⟩
      rw [press_loaded takes] at loading
      cases loading
    · intro tag req sends
      cases i with
      | save =>
        simp only [dashboard, press, Option.ite_none_left_eq_some, Option.some.injEq] at takes
        obtain ⟨-, rfl⟩ := takes
        rw [(handleSave_sends sends).1]
        rfl
      | _ =>
        simp only [dashboard, press, Option.ite_none_left_eq_some, Option.some.injEq] at takes
        obtain ⟨-, rfl⟩ := takes
        cases sends
  settle x tag a := by
    cases tag with
    | load =>
      constructor
      · intro other
        cases other
      · intro tag req sends
        cases sends
    | save y =>
      constructor
      · exact fun _ untouched => untouched
      · intro tag req sends
        cases sends

theorem saved_mono {log log' : Log} (grown : log ⊆ log') {status : VotingStatus}
    (saved : WasSaved log status) : WasSaved log' status := by
  obtain ⟨ev, member, row⟩ := saved
  exact ⟨ev, grown member, row⟩

theorem unedited_mono {log log' : Log} (grown : log ⊆ log') {x : Session} (unedited : Unedited log x) :
    Unedited log' x where
  isOpen := unedited.isOpen
  endsAt := unedited.endsAt
  saved status loaded := saved_mono grown (unedited.saved status loaded)

theorem asked_mono {log log' : Log} (grown : log ⊆ log') {tag : Request} {req : Call}
    (asked : Asked log tag req) : Asked log' tag req := by
  cases tag with
  | load => exact asked
  | save x => exact ⟨unedited_mono grown asked.1, asked.2⟩

theorem press_unedited {log : Log} {x : Session} (unedited : Unedited log x) {i : Input}
    {t : SessionTurn} (takes : press x i = some t) : t.Fits (Unedited log) (Asked log) := by
  cases i with
  | toggle =>
    simp only [press, Option.ite_none_left_eq_some, Option.some.injEq] at takes
    obtain ⟨-, rfl⟩ := takes
    refine ⟨⟨fun untoggled => ?_, unedited.endsAt, unedited.saved⟩, fun tag req sends => ?_⟩
    · cases untoggled
    · cases sends
  | pick date =>
    simp only [press, Option.ite_none_left_eq_some, Option.some.injEq] at takes
    obtain ⟨-, rfl⟩ := takes
    refine ⟨⟨unedited.isOpen, fun unpicked => ?_, unedited.saved⟩, fun tag req sends => ?_⟩
    · cases unpicked
    · cases sends
  | clear =>
    simp only [press, Option.ite_none_left_eq_some, Option.some.injEq] at takes
    obtain ⟨-, rfl⟩ := takes
    refine ⟨⟨unedited.isOpen, fun unpicked => ?_, unedited.saved⟩, fun tag req sends => ?_⟩
    · cases unpicked
    · cases sends
  | save =>
    simp only [press, Option.ite_none_left_eq_some, Option.some.injEq] at takes
    obtain ⟨-, rfl⟩ := takes
    constructor
    · unfold handleSave
      split
      · exact unedited
      · exact ⟨unedited.isOpen, unedited.endsAt, unedited.saved⟩
    · intro tag req sends
      obtain ⟨rfl, asked⟩ := handleSave_sends sends
      exact ⟨unedited, asked⟩

/- The card of an untouched session takes over what the load was answered. -/
theorem settleLoad_unedited {log : Log} {x : Session} (unedited : Unedited log x)
    (untouched : Untouched x) {a : Option Answer}
    (answered : ∀ status, getStatus a = some status → WasSaved log status) :
    Unedited log (settleLoad x a) := by
  unfold settleLoad
  split
  · exact ⟨unedited.isOpen, unedited.endsAt, unedited.saved⟩
  · rename_i status is_status
    constructor
    · exact fun _ => rfl
    · intro _
      cases ends : status.endsAt with
      | none => simp [Session.loadedDate, ends, untouched.2]
      | some s => simp [Session.loadedDate, ends]
    · intro status' same
      cases same
      exact answered status is_status

section Runs
variable {cfg : Config} {allow : State → Move → Bool} {seed : Seed} {s : State}

/- Settings that a call is shown have been in the row. -/
theorem shown_row (run : Reaches (server cfg) allow seed.start s) {ev : LogEntry} (logged : ev ∈ s.log)
    {v : Settings} (shows : Shows v ev.exchange) :
    ∃ select ∈ s.log, Storable v ∧ select.before.db.settings = v := by
  obtain ⟨late, older, split⟩ := List.append_of_mem logged
  rcases shows with ⟨raw, hit, decodes⟩ | selects
  · obtain ⟨-, newer, set, mid, select, oldest, source⟩ := hit_source run split hit decodes
    have at_select : s.log = (late ++ ev :: (newer ++ set :: mid)) ++ select :: oldest := by
      rw [split, source.order]
      simp
    obtain ⟨row, -, storable⟩ := selected_row run at_select source.selects
    exact ⟨select, by rw [at_select]; simp, storable, row⟩
  · obtain ⟨row, -, storable⟩ := selected_row run split selects
    exact ⟨ev, logged, storable, row⟩

theorem readStatus_response (custom isOpen opened : Bool) (endsAt : Option Nat) :
    getStatus (some (.http (statusResponse custom isOpen opened endsAt))) =
      some ⟨isOpen, endsAt.map format⟩ := by
  have not_empty : ∀ t, format t ≠ [] := by
    intro t
    simp [format, padded]
  cases endsAt with
  | none => rfl
  | some t =>
    have read : readEnd (.str (format t)) = some (format t) := by
      rw [readEnd, if_neg (not_empty t)]
    exact congrArg (fun e => some (VotingStatus.mk isOpen e)) read

/- What a load shows has been saved. -/
theorem answered_saved (run : Reaches (server cfg) allow seed.start s) {i : Nat}
    {job : Job Cmd Reply Call Answer} (at_i : s.jobs[i]? = some job) (asked : job.req = .getVotingStatus)
    {a : Answer} (finished : job.rest = .done a) {status : VotingStatus}
    (read : getStatus (some a) = some status) : WasSaved s.log status := by
  have contract := contract_of_job (program_answers cfg) rfl run job (List.mem_of_getElem? at_i)
  rw [finished, meets_done, past_of_job rfl rfl run at_i] at contract
  obtain ⟨r, is_answer, -⟩ := Option.bind_eq_some_iff.mp read
  cases a with
  | http r' =>
    have fine : r'.status < 500 := by
      simp only [resolved, Option.ite_none_right_eq_some] at is_answer
      omega
    obtain ⟨first, v, clock, opened, second, v', past, look, judged, look', rfl⟩ :=
      contract asked r' rfl fine
    rw [readStatus_response, Option.some.injEq] at read
    subst status
    obtain ⟨x, shown, shows⟩ := look_shows look
    obtain ⟨ev, logged, -, rfl⟩ := mem_own.mp (by rw [past]; simp [shown] : x ∈ own i s.log)
    obtain ⟨select, member, storable, rfl⟩ := shown_row run logged shows
    exact ⟨select, member, storable, rfl, rfl⟩
  | _ => cases is_answer

end Runs

theorem dashboard_keeps (cfg : Config) (seed : Seed) :
    Keeps dashboard (server cfg) seed.start isLoad Untouched (fun p => Unedited p.log)
      (fun p => Asked p.log) where
  grows {p p' l} step := by
    obtain ⟨newer, grown⟩ := log_grows (.tail .refl rfl step : Reaches (server cfg) anyLabel p p')
    have subset : p.log ⊆ p'.log := by
      rw [grown]
      exact List.subset_append_right _ _
    exact ⟨fun _ => unedited_mono subset, fun _ _ => asked_mono subset⟩
  mount p _ := by
    refine ⟨⟨fun _ => rfl, fun _ => rfl, fun _ loaded => ?_⟩, fun tag req sends => ?_⟩
    · cases loaded
    · cases sends
      rfl
  input _ _ _ _ unedited takes := press_unedited unedited takes
  settle p x tag req a run unedited asked untouched answered := by
    cases tag with
    | load =>
      refine ⟨settleLoad_unedited unedited (untouched rfl) fun status read => ?_, fun _ _ sends => ?_⟩
      · cases a with
        | none => cases read
        | some b =>
          obtain ⟨i, job, at_i, same, finished⟩ := answered b rfl
          exact answered_saved run at_i (same.trans asked) finished read
      · cases sends
    | save y =>
      refine ⟨⟨unedited.isOpen, unedited.endsAt, unedited.saved⟩, fun _ _ sends => ?_⟩
      cases sends

/-- An update call writes what its request says, and nothing else. -/
def Writes (req : Call) (c : Cmd) : Prop := ∀ r isOpen endsAt, req = .updateVotingSettings (.ok r) →
  c = .sql (.updateSettings isOpen endsAt) → isOpen = r.isOpen ∧ readEndsAt r.endsAt = some endsAt

theorem updateVotingSettings_writes (r : UpdateVotingSettingsRequest) :
    (Handlers.updateVotingSettings (.ok r)).Issues (Writes (.updateVotingSettings (.ok r))) := by
  rw [Handlers.updateVotingSettings]
  cases read : readEndsAt r.endsAt with
  | none => trivial
  | some endsAt =>
    have update : Writes (.updateVotingSettings (.ok r)) (.sql (.updateSettings r.isOpen endsAt)) := by
      intro r' isOpen ends same_req same
      cases same_req
      cases same
      exact ⟨rfl, read⟩
    have broadcast : ∀ c, BroadcastCmd c → Writes (.updateVotingSettings (.ok r)) c := by
      intro c sent r' isOpen ends _ same
      rw [same] at sent
      cases sent
    have invalidate : Writes (.updateVotingSettings (.ok r)) (.redis (.del [votingSettingsRedisKey])) := by
      intro r' isOpen ends _ same
      cases same
    apply issues_bind
    · apply issues_sql update
      intro updated
      cases updated with
      | error err => trivial
      | ok _ =>
        apply issues_redis invalidate
        intro _
        exact issues_bind (issues_mono broadcastPayload_issues broadcast) fun _ => trivial
    · intro failed
      cases failed <;> trivial

theorem program_writes (cfg : Config) (req : Call) :
    (program cfg req).Meets (fun _ c => Writes req c) (fun _ _ => True) [] := by
  by_cases update : ∃ r, req = .updateVotingSettings (.ok r)
  · obtain ⟨r, rfl⟩ := update
    have issued := issues_map Answer.http (updateVotingSettings_writes r)
    exact meets_mono (meets_of_issues issued fun _ _ _ allowed => allowed) (fun _ _ allowed => allowed)
      fun _ _ _ => trivial
  · apply meets_trivial
    intro past c r isOpen endsAt same
    exact absurd ⟨r, same⟩ update

/-- The settings most recently saved by anyone. -/
def settingsOf (s : Admins) : Settings := s.pool.world.db.settings

/-- The UPDATE of a save that was clicked in this session takes effect. -/
def Saves (cfg : Config) (s : Admins) (x : Session) (s' : Admins) : Prop :=
  ∃ f ∈ s.flights, f.tag = .save x ∧ ∃ isOpen endsAt o,
    nextCmd s.pool f.job = some (.sql (.updateSettings isOpen endsAt)) ∧
      (∀ fault ∈ o.fault, fault.applied = true) ∧
        s.step dashboard (server cfg) (.serve (.run f.job o)) = some s'

/-- A date as the column of ends_at has it. -/
def columnOf : Option (Option Int) → Option Nat
  | some (some ms) => some (toColumn (ms.toNat * millisecond))
  | _ => none

/-- The end that the load of the session has answered. -/
def Session.loadedEnd (x : Session) : Option Nat :=
  x.loaded.bind fun status => status.endsAt.bind (GoTime.parse false)

/- A date in a request is read as the column will have it. -/
theorem readEndsAt_utc {date : Option (Option Int)} {sent : Option Str} {endsAt : Option Nat}
    (utc : endsAtUtc date = some sent) (read : readEndsAt sent = some endsAt) :
    endsAt.all printable = true ∧ endsAt.map toColumn = columnOf date := by
  rcases date with _ | _ | ms
  · cases utc
    cases read
    exact ⟨rfl, rfl⟩
  · cases utc
  · cases utc
    have not_empty : toISOString ms ≠ [] := by simp [toISOString]
    rw [readEndsAt, if_neg not_empty, parse_toISOString] at read
    split at read
    · rename_i four
      rw [Option.map_some, Option.some.injEq] at read
      subst endsAt
      constructor
      · rw [Option.all_some]
        exact printable_millis four
      · rw [Option.map_some, columnOf]
    · cases read

/- An end that was saved is a whole second, and is sent back as it was loaded. -/
theorem loaded_column {log : Log} {x : Session} (unedited : Unedited log x) (unpicked : x.picked = false) :
    columnOf x.card.endsAtDate = x.loadedEnd := by
  rw [unedited.endsAt unpicked, Session.loadedDate, Session.loadedEnd]
  cases loaded : x.loaded with
  | none => rfl
  | some status =>
    obtain ⟨ev, -, storable, -, ends⟩ := unedited.saved status loaded
    rw [Option.bind_some, Option.bind_some, ← ends]
    cases saved : ev.before.db.settings.endsAt with
    | none => rfl
    | some t =>
      obtain ⟨fits, whole⟩ := storable t saved
      rw [Option.map_some, Option.map_some, newDate_format whole fits, Option.bind_some,
        parse_format whole fits, columnOf, Int.toNat_natCast, millis_of_second whole]
      exact congrArg some (Nat.div_mul_cancel (Nat.dvd_of_mod_eq_zero whole))

/- What an UPDATE that takes effect leaves. -/
theorem updated_settings {w w' : World} {o : Oracle} {isOpen : Bool} {endsAt : Option Nat}
    {r : Reply (.sql (.updateSettings isOpen endsAt))} (fits : endsAt.all printable = true)
    (took : ∀ fault ∈ o.fault, fault.applied = true)
    (performed : w.perform o (.sql (.updateSettings isOpen endsAt)) = some (r, w')) :
    w'.db.settings = { w.db.settings with isOpen := isOpen, endsAt := endsAt.map toColumn } := by
  obtain ⟨-, after⟩ := perform_sql performed
  have ran : (faulty o w.db (SqlCmd.run w.db w.clock (.updateSettings isOpen endsAt))).2 =
      (SqlCmd.run w.db w.clock (.updateSettings isOpen endsAt)).2 := by
    unfold faulty
    split
    · rfl
    · rename_i fault faulted
      rw [if_pos (took fault faulted)]
  rw [after, ran, SqlCmd.run, Db.updateSettings, if_pos fits]

section Saving
variable {cfg : Config} {seed : Seed} {s s' : Admins} {x : Session}

/- What a save writes, and what the session has taken it from. -/
theorem saved_copy (run : Visited dashboard (server cfg) anyMove ⟨seed.start, [], []⟩ s)
    (saves : Saves cfg s x s') :
    Unedited s.pool.log x ∧ settingsOf s' =
      { settingsOf s with isOpen := x.card.votingOpen, endsAt := columnOf x.card.endsAtDate } := by
  obtain ⟨f, sent, tag, isOpen, endsAt, o, waits, took, step⟩ := saves
  obtain ⟨asked, job, at_job, same⟩ :=
    (holds_of_run dashboard_opening (dashboard_keeps cfg seed) run).flights f sent
  rw [tag] at asked
  obtain ⟨unedited, utc, dated, is_update⟩ := asked
  obtain ⟨p, moved, rfl⟩ := Option.map_eq_some_iff.mp step
  cases CallPool.step_sound moved with
  | @run _ _ job' c next r w at_i waiting performed =>
    obtain rfl : job = job' := Option.some.inj (at_job.symm.trans at_i)
    obtain rfl : c = .sql (.updateSettings isOpen endsAt) := by
      simpa [nextCmd, at_i, waiting] using waits
    have contract := contract_of_job (program_writes cfg) rfl (pool_reaches run) job
      (List.mem_of_getElem? at_i)
    rw [waiting, meets_call] at contract
    obtain ⟨rfl, read⟩ := contract.1 _ _ _ (same.trans is_update) rfl
    obtain ⟨fits, column⟩ := readEndsAt_utc dated read
    refine ⟨unedited, ?_⟩
    rw [← column]
    exact updated_settings fits took performed

/- Any number of dashboards, in any order. A save writes both fields as its card has them. A field that
   was not edited in the session is written as its load has answered it, which is a value that was
   saved at some time, and if the load has failed it is written as open, or without an end; so it is
   left alone exactly if that is what was saved last. -/
theorem unedited_left_iff (run : Visited dashboard (server cfg) anyMove ⟨seed.start, [], []⟩ s)
    (saves : Saves cfg s x s') :
    settingsOf s' =
        { settingsOf s with isOpen := x.card.votingOpen, endsAt := columnOf x.card.endsAtDate } ∧
      (x.toggled = false → (settingsOf s').isOpen = x.loadedOpen ∧
        ((settingsOf s').isOpen = (settingsOf s).isOpen ↔ x.loadedOpen = (settingsOf s).isOpen)) ∧
      (x.picked = false → (settingsOf s').endsAt = x.loadedEnd ∧
        ((settingsOf s').endsAt = (settingsOf s).endsAt ↔ x.loadedEnd = (settingsOf s).endsAt)) ∧
      ∀ status, x.loaded = some status → WasSaved s.pool.log status := by
  obtain ⟨unedited, written⟩ := saved_copy run saves
  refine ⟨written, fun untoggled => ?_, fun unpicked => ?_, unedited.saved⟩
  · have copy : (settingsOf s').isOpen = x.loadedOpen := by
      rw [written]
      exact unedited.isOpen untoggled
    exact ⟨copy, by rw [copy]⟩
  · have copy : (settingsOf s').endsAt = x.loadedEnd := by
      rw [written]
      exact loaded_column unedited unpicked
    exact ⟨copy, by rw [copy]⟩

end Saving

/- The UPDATE of the k-th request, which is a save. -/
theorem saves_of_flight {cfg : Config} {s s' : Admins} {k i : Nat} {x : Session} {isOpen : Bool}
    {endsAt : Option Nat} (flight : s.flights[k]?.map (fun f => (f.tag, f.job)) = some (.save x, i))
    (waits : nextCmd s.pool i = some (.sql (.updateSettings isOpen endsAt)))
    (step : s.step dashboard (server cfg) (.serve (.run i {})) = some s') : Saves cfg s x s' := by
  obtain ⟨f, at_k, same⟩ := Option.map_eq_some_iff.mp flight
  obtain ⟨tag, rfl⟩ := Prod.mk.inj same
  refine ⟨f, List.mem_of_getElem? at_k, tag, isOpen, endsAt, {}, waits, ?_, step⟩
  intro fault faulted
  cases faulted

abbrev AdminMove := Clients.Move Oracle Env Unit Input Call

def serves (caller n : Nat) : List AdminMove := List.replicate n (.serve (.run caller {}))

/-- No dashboard is open yet. -/
def noAdmins : Admins := ⟨twoCandidates.start, [], []⟩

def noon : Int := (newYear + 12 * hour : Nat) / millisecond

/- An admin opens a dashboard, picks an end and saves. -/
def endPicked : Admins :=
  after dashboard (server devConfig) noAdmins
    (.mount () :: serves 0 4 ++ [.land 0, .input 0 (.pick (some (some noon))), .input 0 .save])

/- The status that was loaded is still the saved one, and stays so. -/
theorem unedited_left_iff_picked : ∃ x s', Visited dashboard (server devConfig) anyMove noAdmins endPicked ∧
    Saves devConfig endPicked x s' ∧ x.toggled = false ∧
      (settingsOf s').isOpen = (settingsOf endPicked).isOpen := by
  have run : Visited dashboard (server devConfig) anyMove noAdmins endPicked :=
    visited_after (by decide +kernel)
  let x : Session := ⟨⟨true, some (some noon), false, false⟩, some ⟨true, none⟩, false, true⟩
  have flight : endPicked.flights[1]?.map (fun f => (f.tag, f.job)) = some (.save x, 1) := by
    decide +kernel
  have waits : nextCmd endPicked.pool 1 =
      some (.sql (.updateSettings true (some (newYear + 12 * hour)))) := by decide +kernel
  have moves : (endPicked.step dashboard (server devConfig) (.serve (.run 1 {}))).isSome = true := by
    decide +kernel
  have still : x.loadedOpen = (settingsOf endPicked).isOpen := by decide +kernel
  obtain ⟨s', step⟩ := Option.isSome_iff_exists.mp moves
  have saves : Saves devConfig endPicked x s' := saves_of_flight flight waits step
  exact ⟨x, s', run, saves, rfl, ((unedited_left_iff run saves).2.1 rfl).2.mpr still⟩

/- Two admins. The first one's load is still on its way when the second one closes the voting and
   picks an end; then it fails, and the first one saves. -/
def closedBehind : Admins :=
  after dashboard (server devConfig) noAdmins
    ([.mount (), .mount ()] ++ serves 1 4 ++ [.land 1, .input 1 .toggle,
      .input 1 (.pick (some (some noon))), .input 1 .save] ++ serves 2 1 ++ [.lose 0, .input 0 .save])

/- Nothing was edited, and the voting is open again and without an end. -/
theorem failed_load_reopens : ∃ x s', Visited dashboard (server devConfig) anyMove noAdmins closedBehind ∧
    Saves devConfig closedBehind x s' ∧ x.toggled = false ∧ x.picked = false ∧
      settingsOf closedBehind = ⟨false, some (newYear + 12 * hour), false⟩ ∧
        settingsOf s' = ⟨true, none, false⟩ := by
  have run : Visited dashboard (server devConfig) anyMove noAdmins closedBehind :=
    visited_after (by decide +kernel)
  let x : Session := ⟨⟨true, none, false, false⟩, none, false, false⟩
  have flight : closedBehind.flights[3]?.map (fun f => (f.tag, f.job)) = some (.save x, 3) := by
    decide +kernel
  have waits : nextCmd closedBehind.pool 3 = some (.sql (.updateSettings true none)) := by decide +kernel
  have before : settingsOf closedBehind = ⟨false, some (newYear + 12 * hour), false⟩ := by decide +kernel
  have reopened : (closedBehind.step dashboard (server devConfig) (.serve (.run 3 {}))).map settingsOf =
      some ⟨true, none, false⟩ := by decide +kernel
  obtain ⟨s', step, after⟩ := Option.map_eq_some_iff.mp reopened
  exact ⟨x, s', run, saves_of_flight flight waits step, rfl, rfl, before, after⟩

end VotingControlCard
