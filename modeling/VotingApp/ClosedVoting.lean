import VotingApp.PayloadReads
import VotingApp.Provenance
import VotingApp.SettingsCache

/-!
Votes and the end of the voting. VerifyVote looks at the settings once, before anything
else; what it sees then decides, however long its later steps take.
-/
namespace ClosedVoting
open GoText GoTime JsonText Tables EffectProgram CallPool PoolHistory ExpiringStore VotingWorld
open OtpService VotingSettings VoteService CustomDomains Handlers VotingServer
open Footprints Frames OtpRecords TableInvariants Provenance SettingsCache PayloadReads

/-- The first commands of a call have shown it the settings v: a hit, or a miss and the row. -/
def Looked (v : Settings) (first : History) : Prop :=
  (∃ raw, first = [⟨.redis (.get votingSettingsRedisKey), .ok raw⟩] ∧
    unmarshalSettings raw = .ok v) ∨
      ∃ r, first = [⟨.sql .getSettings, .ok v⟩, ⟨.redis (.get votingSettingsRedisKey), r⟩]

/-- The guard of a call has passed: the settings it saw first were open, and an end was
not before the clock it then read. -/
def PassedGuard (v : Settings) (past : History) : Prop := ∃ later first,
  past = later ++ first ∧ Looked v first ∧ v.isOpen = true ∧
    ∀ t ∈ v.endsAt, ∃ now : Nat, (⟨.now, now⟩ : Exchange Cmd Reply) ∈ later ∧ now ≤ t

theorem passed_grows {v : Settings} {past now : History} (passed : PassedGuard v past)
    {allowed : Cmd → Prop} (grown : Grown allowed past now) : PassedGuard v now := by
  obtain ⟨later, first, rfl, looked, opened, in_time⟩ := passed
  obtain ⟨added, rfl, -⟩ := grown
  refine ⟨added ++ later, first, by simp, looked, opened, ?_⟩
  intro t ends
  obtain ⟨clock, read, le⟩ := in_time t ends
  exact ⟨clock, List.mem_append_right _ read, le⟩

theorem looked_of_look {h : History} {v : Settings} (look : Look h (some v)) :
    ∃ later first, h = later ++ first ∧ Looked v first := by
  cases look with
  | hit raw v decodes => exact ⟨[], _, rfl, Or.inl ⟨raw, rfl, decodes⟩⟩
  | row r v => exact ⟨[], _, rfl, Or.inr ⟨r, rfl⟩⟩
  | written r v raw done => exact ⟨[_], _, rfl, Or.inr ⟨r, rfl⟩⟩

theorem opened_in_time {v : Settings} {t : Nat} (opened : effectivelyOpen v t = true) :
    v.isOpen = true ∧ ∀ endsAt ∈ v.endsAt, t ≤ endsAt := by
  simp only [effectivelyOpen, Bool.and_eq_true, Option.all_eq_true] at opened
  constructor
  · exact opened.1
  · intro endsAt ends
    have not_passed := opened.2 endsAt ends
    simpa using not_passed

theorem isVotingOpen_guards :
    VotingSettings.isVotingOpen.Meets (fun _ _ => True)
      (fun past r => r = .ok true → ∃ v, PassedGuard v past) [] := by
  apply meets_mono (isVotingOpen_looks (fun _ _ _ => trivial) []) fun _ _ allowed => allowed
  rintro past r ⟨h, v, clock, rfl, look, both, judged⟩ rfl
  cases v with
  | none => cases both
  | some v =>
    obtain ⟨later, first, rfl, looked⟩ := looked_of_look look
    use v, clock ++ later, first
    rcases judged with ⟨t, rfl, opened⟩ | ⟨rfl, always⟩
    · obtain ⟨is_open, in_time⟩ := opened_in_time opened.symm
      exact ⟨by simp, looked, is_open, fun endsAt ends => ⟨t, List.mem_cons_self, in_time endsAt ends⟩⟩
    · refine ⟨by simp, looked, (opened_in_time (always 0).symm).1, ?_⟩
      -- Open at any time means that there is no end.
      intro endsAt ends
      have past_end := (opened_in_time (always (endsAt + 1)).symm).2 endsAt ends
      omega

/- The route inserts a vote only after its guard. -/
def GuardRule (req : Call) (past : History) (c : Cmd) : Prop :=
  (∃ ip userAgent body, req = .verifyVote ip userAgent body) →
    ∀ b, c = insertOf b → ∃ v, PassedGuard v past

theorem verifyVote_guarded (cfg : Config) (ip userAgent : Str)
    (body : Except Str VerifyVoteRequest) :
    (Handlers.verifyVote cfg ip userAgent body).Meets
      (fun past c => ∀ b, c = insertOf b → ∃ v, PassedGuard v past) (fun _ _ => True) [] := by
  have look : VotingSettings.isVotingOpen.Meets
      (fun past c => ∀ b, c = insertOf b → ∃ v, PassedGuard v past)
      (fun past r => r = .ok true → ∃ v, PassedGuard v past) [] := by
    have silent : VotingSettings.isVotingOpen.Meets
        (fun past c => ∀ b, c = insertOf b → ∃ v, PassedGuard v past) (fun _ _ => True) [] := by
      apply meets_mono (meets_of_issues isVotingOpen_issues _) (fun _ _ h => h) fun _ _ _ => trivial
      intro now c _ sent b same
      subst c
      cases sent
    exact meets_mono (meets_and isVotingOpen_guards silent) (fun _ _ h => h.2) fun _ _ h => h.1
  apply meets_bind look
  intro past opened guarded
  rcases opened with err | opened
  · trivial
  · cases opened with
    | false => trivial
    | true =>
      obtain ⟨v, passed⟩ := guarded rfl
      dsimp only
      cases bindBody (VerifyVoteRequest.check cfg) body with
      | error details => trivial
      | ok req =>
        apply meets_bind (meets_of_issues (verifyAndVote_issues _ _ _ _) _)
        · intro _ _ _
          trivial
        · intro now c grown _ b _
          exact ⟨v, passed_grows passed grown⟩

theorem program_guarded (cfg : Config) (req : Call) :
    (program cfg req).Meets (GuardRule req) (fun _ _ => True) [] := by
  cases req with
  | verifyVote ip userAgent body =>
    refine meets_bind (meets_mono (verifyVote_guarded cfg ip userAgent body)
      (fun past c guarded _ => guarded) fun _ _ h => h) fun _ _ _ => trivial
  | _ =>
    apply meets_trivial
    rintro past c ⟨ip, userAgent, body, same⟩
    cases same

/-- Codes are presented through the route, never to the service behind it. -/
def throughRoute (_ : State) : Move → Bool
  | .start (.verifyAndVote _ _ _ _) => false
  | _ => true

/-- An UpdateSettings call has closed the voting and invalidated the cache by the time of
rest, and no update since has opened it again. -/
structure ClosedSince (newer rest : Log) (inval close : LogEntry) (mid oldest : Log)
    (endsAt : Option Nat) : Prop where
  order : rest = inval :: (mid ++ close :: oldest)
  closes : close.exchange = ⟨.sql (.updateSettings false endsAt), .ok ()⟩
  invalidates : inval.cmd = invalidate
  same_call : inval.caller = close.caller
  stays : ∀ ev ∈ newer ++ inval :: mid, ev.after.db.settings.isOpen = false

/-- An update of the settings that has reported success. -/
def Updates (ev : LogEntry) : Prop := JustUpdated [ev.exchange]

section Runs
variable {cfg : Config} {allow : State → Move → Bool} {seed : Seed} {s : State}

/- Every INSERT comes after the guard of its own call. -/
theorem insertion_guarded (run : Reaches (server cfg) throughRoute seed.start s)
    {late older : Log} {insertion : LogEntry} (split : s.log = late ++ insertion :: older)
    {b : Ballot} (inserts : insertion.cmd = insertOf b) :
    ∃ v, PassedGuard v (own insertion.caller older) := by
  have routed : ∀ job ∈ s.jobs, ∀ email otp ip userAgent,
      job.req ≠ .verifyAndVote email otp ip userAgent := by
    apply requests_satisfy (P := fun req => ∀ email otp ip userAgent,
      req ≠ .verifyAndVote email otp ip userAgent) rfl _ _ run
    · rintro t req allowed email otp ip userAgent rfl
      cases allowed
    · rintro c req spawned email otp ip userAgent rfl
      cases c <;> simp [server, spawns] at spawned
  obtain ⟨job, at_job, rule⟩ := contract_of_logged (program_guarded cfg) rfl rfl run split
  obtain ⟨job', at_job', records⟩ := rule_of_run run split
  rw [at_job, Option.some.injEq] at at_job'
  subst job'
  rw [inserts] at records
  obtain ⟨otp, stored, reply, rest, presented, -, -⟩ := records
  refine rule ?_ b inserts
  cases req : job.req with
  | verifyVote ip userAgent body => exact ⟨ip, userAgent, body, rfl⟩
  | verifyAndVote email otp ip userAgent =>
    exact absurd req (routed job (List.mem_of_getElem? at_job) email otp ip userAgent)
  | _ =>
    rw [req] at presented
    cases presented

/- What a guard saw was in the row at some moment before. -/
theorem looked_at_row (run : Reaches (server cfg) allow seed.start s) {late : Log}
    {look : LogEntry} {older : Log} (split : s.log = late ++ look :: older) {v : Settings}
    (saw : (∃ raw, look.exchange = ⟨.redis (.get votingSettingsRedisKey), .ok raw⟩ ∧
      unmarshalSettings raw = .ok v) ∨ look.exchange = ⟨.sql .getSettings, .ok v⟩) :
    ∃ select ∈ look :: older, select.before.db.settings = v := by
  rcases saw with ⟨raw, hit, decodes⟩ | selects
  · obtain ⟨-, newer, set, mid, select, oldest, source⟩ := hit_source run split hit decodes
    have at_select : s.log = (late ++ look :: (newer ++ set :: mid)) ++ select :: oldest := by
      rw [split, source.order]
      simp
    refine ⟨select, ?_, (selected_row run at_select source.selects).1⟩
    rw [source.order]
    simp
  · exact ⟨look, List.mem_cons_self, (selected_row run split selects).1⟩

/- The event of the look that a passed guard tells of. -/
theorem look_of_guard {i : Nat} {log : Log} {v : Settings} (passed : PassedGuard v (own i log)) :
    ∃ late look older, log = late ++ look :: older ∧ look.caller = i ∧
      Looked v (look.exchange :: own i older) ∧ v.isOpen = true := by
  obtain ⟨later, first, past, looked, opened, -⟩ := passed
  have shown := looked
  rcases looked with ⟨raw, rfl, -⟩ | ⟨r, rfl⟩
  · obtain ⟨late, look, older, at_look, mine, hit, -, rest⟩ := own_member_split past
    exact ⟨late, look, older, at_look, mine, by rw [hit, rest]; exact shown, opened⟩
  · obtain ⟨late, look, older, at_look, mine, selects, -, rest⟩ := own_member_split past
    exact ⟨late, look, older, at_look, mine, by rw [selects, rest]; exact shown, opened⟩

theorem shown_by {v : Settings} {x : Exchange Cmd Reply} {rest : History} (looked : Looked v (x :: rest)) :
    (∃ raw, x = ⟨.redis (.get votingSettingsRedisKey), .ok raw⟩ ∧ unmarshalSettings raw = .ok v) ∨
      x = ⟨.sql .getSettings, .ok v⟩ := by
  rcases looked with ⟨raw, same, decodes⟩ | ⟨r, same⟩
  · exact Or.inl ⟨raw, (List.cons.inj same).1, decodes⟩
  · exact Or.inr (List.cons.inj same).1

/- A row that was closed and not opened since is closed. -/
theorem row_stays_closed (run : Reaches (server cfg) allow seed.start s) {newer oldest : Log}
    {close : LogEntry} (split : s.log = newer ++ close :: oldest) {endsAt : Option Nat}
    (closes : close.exchange = ⟨.sql (.updateSettings false endsAt), .ok ()⟩)
    (stays : ∀ ev ∈ newer, ev.after.db.settings.isOpen = false) :
    s.world.db.settings.isOpen = false := by
  obtain ⟨closing⟩ := moment_of_logged rfl run split
  refine kept_since (I := fun w => w.db.settings.isOpen = false) ?_ closing.later
    (by rw [split, closing.post_log]) (fun ev member _ => stays ev member) ?_
  · intro w e w' moved held
    rw [(env_scope moved).1]
    exact held
  · obtain ⟨answer, after⟩ := answered_sql closing.performed closes
    rw [closing.post_world, after]
    simp only [SqlCmd.run, Db.updateSettings] at answer ⊢
    split at answer
    · rename_i fits
      rw [if_pos fits]
    · cases answer

/- Nor does the cache show it open, unless by a stale write-back. -/
theorem cache_stays_closed (run : Reaches (server cfg) allow seed.start s)
    (clean : NoFaults s.log) (fresh : ¬ StaleWriteBack Updates s.log) {newer rest mid oldest : Log}
    {inval close : LogEntry} {endsAt : Option Nat} (split : s.log = newer ++ rest)
    (closed : ClosedSince newer rest inval close mid oldest endsAt) {raw : Str} {v : Settings}
    {later between older : Log} {set select : LogEntry}
    (source : CachedFrom s.log raw v later set between select older) : v.isOpen = false := by
  have at_select : s.log = (later ++ set :: between) ++ select :: older := by
    rw [source.order]
    simp
  have at_close : s.log = (newer ++ inval :: mid) ++ close :: oldest := by
    rw [split, closed.order]
    simp
  have close_cmd : close.cmd = .sql (.updateSettings false endsAt) :=
    congrArg Exchange.cmd closed.closes
  have select_cmd : select.cmd = .sql .getSettings := congrArg Exchange.cmd source.selects
  rcases split_cases (at_select.symm.trans at_close) with
    ⟨-, same, -⟩ | ⟨gap, after_close, -⟩ | ⟨gap, before_close, -⟩
  · rw [same, close_cmd] at select_cmd
    cases select_cmd
  · rw [← (selected_row run at_select source.selects).2.1]
    exact closed.stays select (by rw [after_close]; simp)
  · refine absurd ⟨inval, close, ?_, closed.same_call, closed.invalidates, ?_⟩
      (cache_not_overtaken clean fresh source)
    · rw [before_close]
      exact (List.singleton_sublist.mpr (by simp)).append (List.singleton_sublist.mpr (by simp))
    · rw [Updates, closed.closes]
      trivial

theorem no_faults_older {newer older : Log} (clean : NoFaults (newer ++ older)) : NoFaults older :=
  fun ev member => clean ev (List.mem_append_right _ member)

/- A call that looks at the settings after the closing does not see them open. -/
theorem late_look_sees_closed (run : Reaches (server cfg) allow seed.start s)
    (clean : NoFaults s.log) (fresh : ¬ StaleWriteBack Updates s.log) {late between rest mid oldest : Log}
    {look inval close : LogEntry} {endsAt : Option Nat}
    (split : s.log = late ++ look :: (between ++ rest))
    (closed : ClosedSince between rest inval close mid oldest endsAt) {v : Settings}
    (saw : (∃ raw, look.exchange = ⟨.redis (.get votingSettingsRedisKey), .ok raw⟩ ∧
      unmarshalSettings raw = .ok v) ∨ look.exchange = ⟨.sql .getSettings, .ok v⟩) :
    v.isOpen = false := by
  obtain ⟨looking⟩ := moment_of_logged rfl run split
  have older_clean : NoFaults looking.pre.log := by
    rw [split] at clean
    rw [looking.pre_log]
    rw [List.append_cons] at clean
    exact no_faults_older clean
  have older_fresh : ¬ StaleWriteBack Updates looking.pre.log := by
    intro stale
    apply fresh
    rw [split, ← looking.pre_log, ← List.singleton_append, ← List.append_assoc]
    exact stale_mono stale
  rcases saw with ⟨raw, hit, decodes⟩ | selects
  · obtain ⟨-, later, set, gap, select, older, source⟩ := hit_source run split hit decodes
    rw [← looking.pre_log] at source
    exact cache_stays_closed looking.reached older_clean older_fresh looking.pre_log closed source
  · rw [← (selected_row run split selects).1, ← looking.pre_world]
    have at_close : looking.pre.log = (between ++ inval :: mid) ++ close :: oldest := by
      rw [looking.pre_log, closed.order]
      simp
    exact row_stays_closed looking.reached at_close closed.closes closed.stays

/-- What the guard at the start of VerifyVote secures: every INSERT follows the guard of
its own call, which saw settings that the row held then or had held before, open and not
past their end; and once an update has closed the voting, only calls begun before still insert. -/
structure GuardDecides (s : State) : Prop where
  guarded : ∀ late insertion older b, s.log = late ++ insertion :: older →
    insertion.cmd = insertOf b →
      ∃ v, PassedGuard v (own insertion.caller older) ∧
        ∃ skip look oldest, older = skip ++ look :: oldest ∧ look.caller = insertion.caller ∧
          Looked v (look.exchange :: own insertion.caller oldest) ∧
          ∃ select ∈ look :: oldest, select.before.db.settings = v
  frozen : NoFaults s.log → ¬ StaleWriteBack Updates s.log →
    ∀ newer rest inval close mid oldest endsAt, s.log = newer ++ rest →
      ClosedSince newer rest inval close mid oldest endsAt →
        ∀ insertion ∈ newer, ∀ b, insertion.cmd = insertOf b → own insertion.caller rest ≠ []

theorem votes_pass_the_guard (run : Reaches (server cfg) throughRoute seed.start s) :
    GuardDecides s where
  guarded late insertion older b split inserts := by
    obtain ⟨v, passed⟩ := insertion_guarded run split inserts
    refine ⟨v, passed, ?_⟩
    obtain ⟨skip, look, oldest, rfl, mine, looked, -⟩ := look_of_guard passed
    have at_look : s.log = (late ++ insertion :: skip) ++ look :: oldest := by
      rw [split]
      simp
    exact ⟨skip, look, oldest, rfl, mine, looked, looked_at_row run at_look (shown_by looked)⟩
  frozen clean fresh newer rest inval close mid oldest endsAt split closed insertion member b
      inserts := by
    intro new_call
    obtain ⟨late, early, rfl⟩ := List.append_of_mem member
    have at_insertion : s.log = late ++ insertion :: (early ++ rest) := by
      rw [split]
      simp
    obtain ⟨v, passed⟩ := insertion_guarded run at_insertion inserts
    rw [own_append, new_call, List.append_nil] at passed
    obtain ⟨skip, look, between, rfl, -, looked, opened⟩ := look_of_guard passed
    have at_look : s.log = (late ++ insertion :: skip) ++ look :: (between ++ rest) := by
      rw [at_insertion]
      simp
    have since : ClosedSince between rest inval close mid oldest endsAt := by
      refine { closed with stays := ?_ }
      intro ev later
      apply closed.stays ev
      rcases List.mem_append.mp later with in_between | in_rest
      · simp [in_between]
      · exact List.mem_append_right _ in_rest
    rw [late_look_sees_closed run clean fresh at_look since (shown_by looked)] at opened
    cases opened

end Runs

/- A voter has passed the guard when an admin closes the voting, and then votes. -/
def lateVoteMoves : List Move :=
  .start (requestFrom "10.0.0.1" "a@gmail.com" "phone" 1) :: runs 0 14 ++
    .start (verifyFrom "10.0.0.1" "a@gmail.com" "100000") :: runs 1 2 ++
      .start (.updateVotingSettings (.ok ⟨false, none⟩)) :: runs 2 8 ++ runs 1 7

def lateVote : State := after (server devConfig) throughRoute twoCandidates.start lateVoteMoves

theorem votes_pass_the_guard_late_vote :
    lateVote.world.db.votes.length = 1 ∧ GuardDecides lateVote :=
  ⟨by decide +kernel, votes_pass_the_guard (reaches_after (by decide +kernel))⟩

/- All three calls were answered 200, and the row went in while the voting was closed. -/
theorem vote_inserted_while_closed :
    ∃ s, Reaches (server devConfig) throughRoute twoCandidates.start s ∧
      s.jobs.map statusOf = [some 200, some 200, some 200] ∧
        ∃ ev ∈ s.log, ev.before.db.settings.isOpen = false ∧
          ev.before.db.votes.length < ev.after.db.votes.length :=
  ⟨lateVote, reaches_after (by decide +kernel), by decide +kernel, by decide +kernel⟩

end ClosedVoting
