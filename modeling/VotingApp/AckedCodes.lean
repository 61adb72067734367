import VotingApp.SingleUse

/-!
What can happen to a code after GenerateAndStore has returned nil. Every removal of a record
names its key only, so a call can remove what another one has stored.
-/
namespace AckedCodes
open GoText GoTime Tables EffectProgram CallPool PoolHistory ExpiringStore VotingWorld
open OtpService VotingSettings VoteService CustomDomains Handlers VotingServer
open Footprints Frames OtpRecords Provenance SettingsCache EmailBlock SingleUse

/-- The last thing a call has done is to store a record of the email. -/
def JustStored (email : Str) (past : History) : Prop := ∃ value ttl rest,
  past = ⟨.redis (.set (otpKey email) value ttl), .ok ()⟩ :: rest

/-- The mail of the record just stored could not be queued. -/
def JustRefused (email : Str) (past : History) : Prop := ∃ subject body err rest,
  past = ⟨.enqueue email subject body, some err⟩ :: rest ∧ JustStored email rest

def withdraw (email : Str) : Cmd := .redis (.del [otpKey email])

/-- A stored record is mailed next, and a record is removed after a refused mail, a matching
read, or a block. -/
def DropRule (past : History) (c : Cmd) : Prop :=
  (∀ e, JustStored e past → ∃ subject body, c = .enqueue e subject body) ∧
    ∀ keys e, c = .redis (.del keys) → otpKey e ∈ keys → (c = withdraw e ∧ JustRefused e past) ∨
      (c = clear e ∧ (Matched e past ∨ ∃ r rest, past = ⟨block e, r⟩ :: rest))

def Mailed (past : History) : Prop := ∀ e, ¬ JustStored e past

theorem mailed_cons {c : Cmd} (other : ∀ e value ttl, c ≠ .redis (.set (otpKey e) value ttl))
    (r : Reply c) (past : History) : Mailed (⟨c, r⟩ :: past) := by
  intro e stored
  obtain ⟨value, ttl, rest, same⟩ := stored
  have head := (List.cons.inj same).1
  exact other e value ttl (congrArg Exchange.cmd head)

theorem drop_free {past : History} {c : Cmd} (mailed : Mailed past)
    (other : ∀ keys e, c = .redis (.del keys) → otpKey e ∉ keys) : DropRule past c := by
  constructor
  · intro e stored
    exact absurd stored (mailed e)
  · intro keys e same member
    exact absurd member (other keys e same)

theorem drop_neutral {c : Cmd} (other : ∀ keys e, c = .redis (.del keys) → otpKey e ∉ keys)
    (no_set : ∀ e value ttl, c ≠ .redis (.set (otpKey e) value ttl)) :
    Neutral DropRule Mailed c := by
  intro past mailed
  constructor
  · exact drop_free mailed other
  · intro r
    exact mailed_cons no_set r past

theorem generate_drops (email fp : Str) (id : Int) (name : Str) :
    (OtpService.generateAndStore email fp id name).Keeps DropRule Mailed := by
  apply keeps_issue (drop_neutral (by simp) (by simp))
  intro n
  cases n with
  | error err => exact keeps_done _
  | ok n =>
    apply keeps_bind
    · apply keeps_redis (drop_neutral (by simp) (by simp))
      intro r
      cases r <;> exact keeps_done _
    · intro blocked
      rcases blocked with err | blocked
      · exact keeps_done _
      · cases blocked with
        | true => exact keeps_done _
        | false =>
          intro past mailed
          apply meets_redis
          · exact drop_free mailed (by simp)
          · intro r
            cases r with
            | error err =>
              intro e stored
              obtain ⟨value, ttl, rest, same⟩ := stored
              cases (List.cons.inj same).1
            | ok _ =>
              have stored : JustStored email
                  (⟨.redis (.set (otpKey email) (otpRecord (otpCode n) id fp) otpTTL), .ok ()⟩ ::
                    past) := ⟨_, _, _, rfl⟩
              apply meets_issue
              · constructor
                · intro e stored'
                  obtain ⟨value, ttl, rest, same⟩ := stored'
                  have head := congrArg Exchange.cmd (List.cons.inj same).1
                  have same_email : email = e := by
                    simp only [Cmd.redis.injEq, RedisCmd.set.injEq, RedisKeys.otpKey_eq] at head
                    exact head.1
                  subst e
                  exact ⟨_, _, rfl⟩
                · intro keys e same
                  cases same
              · intro r
                cases r with
                | none => exact mailed_cons (by simp) _ _
                | some err =>
                  apply meets_redis
                  · constructor
                    · intro e stored'
                      exact absurd stored' (mailed_cons (by simp) _ _ e)
                    · intro keys e same member
                      cases same
                      have same_email : e = email := by simpa using member
                      subst e
                      exact Or.inl ⟨rfl, _, _, err, _, rfl, stored⟩
                  · intro r
                    change Mailed _
                    apply mailed_cons
                    simp

theorem recordFailure_drops (email : Str) : (recordFailure email).Keeps DropRule Mailed := by
  have blocking : (blockEmail email).Keeps DropRule Mailed := by
    intro past mailed
    apply meets_redis
    · exact drop_free mailed (by simp)
    · intro r
      have after : Mailed (⟨block email, r⟩ :: past) := by
        apply mailed_cons
        intro e value ttl same
        simp only [block, Cmd.redis.injEq, RedisCmd.set.injEq] at same
        simp at same
      apply meets_redis
      · constructor
        · intro e stored
          exact absurd stored (after e)
        · intro keys e same member
          cases same
          have same_email : e = email := by simpa using member
          subst e
          exact Or.inr ⟨rfl, Or.inr ⟨r, past, rfl⟩⟩
      · intro r'
        change Mailed _
        apply mailed_cons
        simp
  apply keeps_redis (drop_neutral (by simp) (by simp))
  intro attempts
  cases attempts with
  | error err => exact keeps_done _
  | ok attempts =>
    dsimp only
    split
    · apply keeps_redis (drop_neutral (by simp) (by simp))
      intro r
      split
      · exact blocking
      · exact keeps_done _
    · split
      · exact blocking
      · exact keeps_done _

theorem verify_drops (email otp : Str) : (OtpService.verify email otp).Keeps DropRule Mailed := by
  have reject := rejectGuess_keeps (recordFailure_drops email)
  intro past mailed
  apply meets_bind (Q := fun now blocked => Mailed now ∧ (blocked = .ok false →
    ∃ rest, now = ⟨.redis (.exists (otpBlockedKey email)), .ok 0⟩ :: rest))
  · apply meets_mono (isEmailBlocked_meets (drop_free mailed (by simp))) fun _ _ h => h
    intro now blocked checked
    obtain ⟨r, rfl, free⟩ := checked
    constructor
    · apply mailed_cons
      simp
    · intro clear_answer
      rw [free clear_answer]
      exact ⟨past, rfl⟩
  · intro now blocked checked
    obtain ⟨mailed, free⟩ := checked
    rcases blocked with err | blocked
    · exact mailed
    · cases blocked with
      | true => exact mailed
      | false =>
        obtain ⟨rest, rfl⟩ := free rfl
        apply meets_redis
        · exact drop_free mailed (by simp)
        · intro r
          have after : Mailed (⟨.redis (.get (otpKey email)), r⟩ ::
              ⟨.redis (.exists (otpBlockedKey email)), .ok 0⟩ :: rest) := by
            apply mailed_cons
            simp
          cases r with
          | error err =>
            dsimp only
            split <;> exact after
          | ok stored =>
            dsimp only
            split
            · apply meets_bind (recordFailure_drops email _ after)
              intro now r kept
              exact kept
            · split
              · exact reject _ after
              · apply meets_bind (recordFailure_drops email _ after)
                intro now r kept
                exact kept
            · split
              · exact reject _ after
              · apply meets_redis
                · constructor
                  · intro e just
                    exact absurd just (after e)
                  · intro keys e same member
                    cases same
                    have same_email : e = email := by simpa using member
                    subst e
                    exact Or.inr ⟨rfl, Or.inl ⟨stored, rest, rfl⟩⟩
                · intro r
                  change Mailed _
                  apply mailed_cons
                  simp

theorem broadcast_drops : ∀ c, BroadcastCmd c → Neutral DropRule Mailed c := by
  intro c sent
  cases sent with
  | set raw =>
    apply drop_neutral (by simp)
    intro e value ttl same
    simp only [Cmd.redis.injEq, RedisCmd.set.injEq] at same
    simp at same
  | _ => exact drop_neutral (by simp) (by simp)

theorem update_drops : ∀ c, UpdateCmd c → Neutral DropRule Mailed c := by
  intro c sent
  cases sent with
  | set raw => exact broadcast_drops _ (.set raw)
  | invalidate =>
    apply drop_neutral _ (by simp)
    intro keys e same
    cases same
    simp
  | _ => exact drop_neutral (by simp) (by simp)

theorem domain_drops : ∀ c, DomainCmd c → Neutral DropRule Mailed c := by
  intro c sent
  cases sent with
  | mark =>
    apply drop_neutral (by simp)
    intro e value ttl same
    simp only [Cmd.redis.injEq, RedisCmd.set.injEq] at same
    simp at same
  | drop =>
    apply drop_neutral _ (by simp)
    intro keys e same
    cases same
    simp
  | _ => exact drop_neutral (by simp) (by simp)

theorem drop_respected (cfg : Config) (req : Call) : Respected cfg req DropRule Mailed where
  plain c sent := by
    cases sent <;> exact drop_neutral (by simp) (by simp)
  status := keeps_of_issues getStatus_issues fun c sent =>
    broadcast_drops c (payload_broadcast c (status_payload c sent))
  broadcast := keeps_of_issues broadcastPayload_issues broadcast_drops
  update isOpen endsAt := keeps_of_issues (updateSettings_issues isOpen endsAt) update_drops
  mode value := keeps_of_issues (updateCustomDomainsOnly_issues value) update_drops
  generate email fp candidate name _ := generate_drops email fp candidate name
  verify email otp _ := verify_drops email otp
  vote email otp ip userAgent _ := by
    apply keeps_bind (verify_drops email otp)
    intro found
    cases found with
    | error err => exact keeps_done _
    | ok found =>
      apply keeps_sql (drop_neutral (by simp) (by simp))
      intro r
      cases r with
      | error err =>
        dsimp only
        split <;> exact keeps_done _
      | ok _ =>
        exact keeps_bind (keeps_of_issues broadcastPayload_issues broadcast_drops)
          fun _ => keeps_done _
  deleteCandidate _ n _ _ := by
    apply keeps_of_issues (deleteCandidate_issues n)
    intro c sent
    cases sent <;> exact drop_neutral (by simp) (by simp)
  insertDomain domain := keeps_of_issues (insert_issues domain) domain_drops
  deleteDomain domain := keeps_of_issues (delete_issues domain) domain_drops
  warmCache := keeps_of_issues warmCache_issues domain_drops

/-- A record of the email is there and has not expired. -/
def Held (email : Str) (w : World) : Prop := w.redis.present w.clock (otpKey email) ≠ 0

/-- The event stores a record of the email, whatever its answer. -/
def Stores (email : Str) (ev : LogEntry) : Prop :=
  TookEffect ev ∧ ∃ value ttl, ev.cmd = .redis (.set (otpKey email) value ttl)

/-- A store that its call has been told of. -/
def Told (email : Str) (store : LogEntry) : Prop := ∃ value ttl,
  store.exchange = ⟨.redis (.set (otpKey email) value ttl), .ok ()⟩

/-- In these later events the call that has stored a record has gone on to queue its mail. -/
def Queued (email : Str) (store : LogEntry) (late : Log) : Prop := ∃ subject body newer,
  own store.caller late = newer ++ [⟨.enqueue email subject body, none⟩]

def Refused (email : Str) (store : LogEntry) (late : Log) : Prop := ∃ subject body err newer,
  own store.caller late = newer ++ [⟨.enqueue email subject body, some err⟩]

/-- A SET that stores a record answers without an error. A mail is refused only where nothing
was held before, and then the same record is removed again. A Verify removes no record that was
stored after it has read one, and blockEmail removes one only while its block is in force. -/
structure Orderly (email : Str) (log : Log) : Prop where
  told : ∀ ev ∈ log, Stores email ev → Told email ev
  over_nothing : ∀ late store older, log = late ++ store :: older → Stores email store →
    Refused email store late → ¬ Held email store.before
  withdrawn : ∀ late drop mid store older, log = late ++ drop :: (mid ++ store :: older) →
    Stores email store → store.caller = drop.caller →
      JustRefused email (own drop.caller (mid ++ store :: older)) → drop.cmd = withdraw email →
        Held email drop.before → TookEffect drop ∧ ∀ ev ∈ mid, ¬ Stores email ev
  uncrossed : ∀ late drop mid read older, log = late ++ drop :: (mid ++ read :: older) →
    drop.cmd = clear email → read.caller = drop.caller → own drop.caller mid = [] →
      (∃ stored, read.exchange = ⟨.redis (.get (otpKey email)), .ok stored⟩) →
        Held email drop.before → ∀ ev ∈ mid, ¬ Stores email ev
  in_force : ∀ late drop older, log = late ++ drop :: older → drop.cmd = clear email →
    (∃ r rest, own drop.caller older = ⟨block email, r⟩ :: rest) →
      Held email drop.before → Blocked email drop.before

/-- What has become of a record since it was stored: it is still there, its time has passed, a
Verify has succeeded with it, the email has been blocked, or another record has been stored
whose call has queued its mail or is about to. -/
inductive Fate (s : State) (email : Str) (late : Log) (store : LogEntry) (older : Log) : Prop where
  | kept (value : Str) (stored : store.cmd = .redis (.set (otpKey email) value otpTTL))
    (held : s.world.redis (otpKey email) =
      some ⟨.text value, some (store.before.clock + otpTTL)⟩)
  | expired (late : store.before.clock + otpTTL ≤ s.world.clock)
  | verified (i : Nat) (used : Uses s email store older i)
  | blocked (ev : LogEntry) (since : ev ∈ late) (now : Blocked email ev.before)
  | replaced (newer : Log) (ev : LogEntry) (mid : Log) (shape : late = newer ++ ev :: mid)
    (stores : Stores email ev) (mailed : Queued email ev newer ∨ own ev.caller newer = [])

section Runs
variable {cfg : Config} {allow : State → Move → Bool} {seed : Seed} {s : State}

theorem drop_rule (run : Reaches (server cfg) allow seed.start s) {late older : Log} {ev : LogEntry}
    (split : s.log = late ++ ev :: older) : DropRule (own ev.caller older) ev.cmd := by
  obtain ⟨job, -, rule⟩ := contract_of_logged (fun req => program_keeps (drop_respected cfg req) []
    fun e stored => by
      obtain ⟨_, _, _, same⟩ := stored
      cases same) rfl rfl run split
  exact rule

/- A write to the key stores a record or removes one. -/
theorem write_kinds (run : Reaches (server cfg) allow seed.start s) {late older : Log} {ev : LogEntry}
    (split : s.log = late ++ ev :: older) {email : Str} (wrote : Wrote (otpKey email) ev) :
    Stores email ev ∨ (ev.cmd = withdraw email ∧ JustRefused email (own ev.caller older)) ∨
      (ev.cmd = clear email ∧ (Matched email (own ev.caller older) ∨
        ∃ r rest, own ev.caller older = ⟨block email, r⟩ :: rest)) := by
  obtain ⟨-, drops⟩ := drop_rule run split
  obtain ⟨job, -, rule⟩ := rule_of_run run split
  obtain ⟨writes, took⟩ := wrote
  cases cmd : ev.cmd with
  | redis c =>
    rw [cmd] at rule writes
    cases c with
    | set key value ttl =>
      have same : otpKey email = key := by simpa [WritesKey, writtenKeys] using writes
      subst key
      exact Or.inl ⟨took, value, ttl, cmd⟩
    | del keys => exact Or.inr (by rw [← cmd]; exact drops keys email cmd writes)
    | incr key => exact absurd (by simpa [WritesKey, writtenKeys] using writes) (rule email).symm
    | expire key ttl => exact absurd (by simpa [WritesKey, writtenKeys] using writes) (rule email).symm
    | sadd key members => exact absurd (by simpa [WritesKey, writtenKeys] using writes) (rule email).symm
    | srem key member => exact absurd (by simpa [WritesKey, writtenKeys] using writes) (rule email).symm
    | _ => simp [WritesKey, writtenKeys] at writes
  | _ =>
    rw [cmd] at writes
    exact absurd writes id

theorem stored_entry (run : Reaches (server cfg) allow seed.start s) {late older : Log}
    {store : LogEntry} (split : s.log = late ++ store :: older) {email : Str}
    (stores : Stores email store) : ∃ value,
      store.cmd = .redis (.set (otpKey email) value otpTTL) ∧ store.after.redis (otpKey email) =
        some ⟨.text value, some (store.before.clock + otpTTL)⟩ := by
  obtain ⟨took, value, ttl, cmd⟩ := stores
  obtain ⟨job, -, rule⟩ := rule_of_run run split
  rw [cmd] at rule
  obtain ⟨n, fp, id, rest, -, -, lifetime, -⟩ := rule email rfl
  subst ttl
  have performed := performed_of_run run store (by rw [split]; simp)
  obtain ⟨r, exchange⟩ := exchange_of_cmd cmd
  obtain ⟨-, after⟩ := exchange_redis performed exchange
  refine ⟨value, cmd, ?_⟩
  rw [after]
  simp only [faulty_took took]
  dsimp only [RedisCmd.run]
  rw [set_self, deadlineAfter_pos otpTTL_pos]

theorem stores_wrote {email : Str} {ev : LogEntry} (stores : Stores email ev) :
    Wrote (otpKey email) ev := by
  obtain ⟨took, value, ttl, cmd⟩ := stores
  constructor
  · rw [cmd]
    exact List.mem_singleton_self _
  · exact took

/- A store that has been told of is followed by its mail. -/
theorem mail_follows (run : Reaches (server cfg) allow seed.start s) {late older : Log}
    {store : LogEntry} (split : s.log = late ++ store :: older) {email : Str}
    (told : Told email store) :
    own store.caller late = [] ∨ Queued email store late ∨ Refused email store late := by
  rcases own_next late older store with nothing | ⟨newer, next, mid, rfl, mine, skipped, past⟩
  · exact Or.inl nothing
  · have at_next : s.log = newer ++ next :: (mid ++ store :: older) := by rw [split]; simp
    obtain ⟨value, ttl, exchange⟩ := told
    have just : JustStored email (own next.caller (mid ++ store :: older)) := by
      rw [mine, past, exchange]
      exact ⟨value, ttl, _, rfl⟩
    obtain ⟨subject, body, cmd⟩ := (drop_rule run at_next).1 email just
    obtain ⟨answer, mailed⟩ := exchange_of_cmd cmd
    have followed : own store.caller (newer ++ next :: mid) =
        own store.caller newer ++ [⟨.enqueue email subject body, answer⟩] := by
      rw [own_append]
      simp [own, mine, skipped, mailed]
    right
    cases answer with
    | none => exact Or.inl ⟨subject, body, _, followed⟩
    | some err => exact Or.inr ⟨subject, body, err, _, followed⟩

/- Before a refused mail lies the store that its call was told of. -/
theorem refused_store (run : Reaches (server cfg) allow seed.start s) {late older : Log}
    {drop : LogEntry} (split : s.log = late ++ drop :: older) {email subject body value : Str}
    {err : GoErr} {ttl : Nat} {rest : History}
    (past : own drop.caller older = ⟨.enqueue email subject body, some err⟩ ::
      ⟨.redis (.set (otpKey email) value ttl), .ok ()⟩ :: rest) :
    ∃ mid store oldest, older = mid ++ store :: oldest ∧ store.caller = drop.caller ∧
      Stores email store ∧ Refused email store (late ++ drop :: mid) ∧
        own drop.caller mid = [⟨.enqueue email subject body, some err⟩] ∧
          own drop.caller oldest = rest := by
  have parts : own drop.caller older = [⟨.enqueue email subject body, some err⟩] ++
      ⟨.redis (.set (otpKey email) value ttl), .ok ()⟩ :: rest := past
  obtain ⟨mid, store, oldest, rfl, mine, exchange, mailed, before⟩ := own_member_split parts
  refine ⟨mid, store, oldest, rfl, mine, ⟨?_, value, ttl, congrArg Exchange.cmd exchange⟩,
    ⟨subject, body, err, own store.caller late ++ [drop.exchange], ?_⟩, mailed, before⟩
  · have performed := performed_of_run run store (by rw [split]; simp)
    obtain ⟨answer, -⟩ := exchange_redis performed exchange
    obtain ⟨no_fault, -⟩ := faulty_answered answer.symm
    intro f fault
    rw [no_fault] at fault
    cases fault
  · rw [own_append]
    simp [own, mine, mailed]

/- Until somebody writes the key, the record is held or has expired. -/
theorem lapsed (run : Reaches (server cfg) allow seed.start s) {late mid older : Log}
    {ev store : LogEntry} (split : s.log = late ++ ev :: (mid ++ store :: older)) {email : Str}
    (stores : Stores email store) (idle : ∀ x ∈ mid, ¬ Wrote (otpKey email) x)
    (gone : ¬ Held email ev.before) : store.before.clock + otpTTL ≤ s.world.clock := by
  have at_store : s.log = (late ++ ev :: mid) ++ store :: older := by rw [split]; simp
  obtain ⟨value, -, left⟩ := stored_entry run at_store stores
  obtain ⟨same, -⟩ := key_unwritten run split idle
  obtain ⟨moment⟩ := moment_of_logged rfl run split
  have ticking := clock_since moment.later
  rw [moment.post_world, perform_clock moment.performed] at ticking
  by_contra early
  apply gone
  intro absent
  rw [present_zero, lookup_live (same.trans left) (by omega)] at absent
  cases absent

/- The removal by a Verify succeeds with the record that it has read. -/
theorem matched_read {older : Log} {drop : LogEntry} {email : Str}
    (matched : Matched email (own drop.caller older)) :
    ∃ mid read oldest, older = mid ++ read :: oldest ∧ read.caller = drop.caller ∧
      own drop.caller mid = [] ∧ ∃ stored, read.exchange = ⟨.redis (.get (otpKey email)), .ok stored⟩ := by
  obtain ⟨stored, rest, past⟩ := matched
  have parts : own drop.caller older = [] ++ ⟨.redis (.get (otpKey email)), .ok stored⟩ ::
      ⟨.redis (.exists (otpBlockedKey email)), .ok 0⟩ :: rest := past
  obtain ⟨mid, read, oldest, rfl, mine, exchange, nothing, -⟩ := own_member_split parts
  exact ⟨mid, read, oldest, rfl, mine, nothing, stored, exchange⟩

/- A record whose mail is not refused stays until its time is over, a Verify succeeds with it,
   the email is blocked, or another mailed record replaces it. -/
theorem record_fate (run : Reaches (server cfg) allow seed.start s) {email : Str}
    (orderly : Orderly email s.log) {late older : Log} {store : LogEntry}
    (split : s.log = late ++ store :: older) (stores : Stores email store)
    (accepted : ¬ Refused email store late) : Fate s email late store older := by
  obtain ⟨value, cmd, left⟩ := stored_entry run split stores
  rcases oldest_split (Wrote (otpKey email)) late with never | ⟨newer, ev, mid, rfl, wrote, idle⟩
  · apply Fate.kept value cmd
    obtain ⟨moment⟩ := moment_of_logged rfl run split
    have grown : s.log = late ++ moment.post.log := by rw [moment.post_log, split]
    have same := frame_since (fun w => w.redis (otpKey email))
      (fun w e w' moved => by rw [(env_scope moved).2.1]) moment.later grown fun x member =>
        key_kept (performed_of_run run x (by rw [split]; simp [member])) (never x member)
    rw [moment.post_world] at same
    exact same.trans left
  · have at_ev : s.log = newer ++ ev :: (mid ++ store :: older) := by rw [split]; simp
    by_cases held : Held email ev.before
    · rcases write_kinds run at_ev wrote with again | ⟨cmd, refused⟩ | ⟨cmd, matched | blocking⟩
      · have told := orderly.told ev (by rw [at_ev]; simp) again
        apply Fate.replaced newer ev mid rfl again
        rcases mail_follows run at_ev told with nothing | queued | refused
        · exact Or.inr nothing
        · exact Or.inl queued
        · exact absurd held (orderly.over_nothing newer ev _ at_ev again refused)
      · have just := refused
        obtain ⟨subject, body, err, rest, past, value', ttl, rest', rfl⟩ := refused
        obtain ⟨mid', other, oldest, shape, mine, stored, refused', -, -⟩ := refused_store run at_ev past
        rcases split_cases shape with ⟨rfl, rfl, rfl⟩ | ⟨between, rfl, rfl⟩ | ⟨between, rfl, rfl⟩
        · exact absurd refused' accepted
        · rw [shape] at just at_ev
          obtain ⟨-, clean⟩ := orderly.withdrawn newer ev (mid ++ store :: between) other oldest
            at_ev stored mine just cmd held
          exact absurd stores (clean store (by simp))
        · exact absurd (stores_wrote stored) (idle other (by simp))
      · obtain ⟨mid', read, oldest, shape, mine, nothing, stored, exchange⟩ := matched_read matched
        rcases split_cases shape with ⟨rfl, rfl, rfl⟩ | ⟨between, rfl, rfl⟩ | ⟨between, rfl, rfl⟩
        · obtain ⟨-, value', ttl, stores_cmd⟩ := stores
          rw [show store.cmd = _ from congrArg Exchange.cmd exchange] at stores_cmd
          cases stores_cmd
        · rw [shape] at at_ev
          have clean := orderly.uncrossed newer ev (mid ++ store :: between) read oldest at_ev cmd mine
            nothing ⟨stored, exchange⟩ held
          exact absurd stores (clean store (by simp))
        · obtain ⟨r, cleared⟩ := exchange_of_cmd cmd
          apply Fate.verified ev.caller
          refine ⟨newer ++ ev :: mid', read, between, own ev.caller newer, r, ⟨?_, ⟨value, ‹_›⟩,
            stores.1, ⟨stored, exchange⟩, ?_⟩, mine, ?_⟩
          · rw [at_ev]
            simp
          · intro x member
            exact idle x (by simp [member])
          · rw [own_append]
            simp [own, nothing, cleared]
      · exact Fate.blocked ev (by simp) (orderly.in_force newer ev _ at_ev cmd blocking held)
    · exact Fate.expired (lapsed run at_ev stores idle held)

end Runs

/-- The call has been told that its record is stored and its mail is queued. -/
def Acked (email : Str) (past : History) : Prop := ∃ subject body rest,
  past = ⟨.enqueue email subject body, none⟩ :: rest ∧ JustStored email rest

/-- No command of the call that wrote the record was answered well. -/
def Untouched (email : Str) (past : History) : Prop := ∀ x ∈ past,
  WritesKey (otpKey email) x.cmd → ∃ value ttl err,
    x = ⟨.redis (.set (otpKey email) value ttl), .error err⟩

/-- The call has stored a record, its mail was refused, and it has removed what is there. -/
def Withdrawn (email : Str) (past : History) : Prop := ∃ r subject body err value ttl rest,
  past = ⟨withdraw email, r⟩ :: ⟨.enqueue email subject body, some err⟩ ::
    ⟨.redis (.set (otpKey email) value ttl), .ok ()⟩ :: rest ∧ Untouched email rest

theorem untouched_cons {email : Str} {c : Cmd} (idle : ¬ WritesKey (otpKey email) c) (r : Reply c)
    {past : History} (untouched : Untouched email past) : Untouched email (⟨c, r⟩ :: past) := by
  intro x member writes
  rcases List.mem_cons.mp member with same | member
  · subst x
    exact absurd writes idle
  · exact untouched x member writes

/- What GenerateAndStore has done when it returns. -/
theorem generate_outcome (email fp : Str) (id : Int) (name : Str) :
    (OtpService.generateAndStore email fp id name).Meets (fun _ _ => True) (fun past result =>
      (result = none → Acked email past) ∧
        (∀ err, result = some err → Untouched email past ∨ Withdrawn email past)) [] := by
  have failed : ∀ {past : History} {err : GoErr}, Untouched email past →
      ((some err = none → Acked email past) ∧
        ∀ err', some err = some err' → Untouched email past ∨ Withdrawn email past) := by
    intro past err untouched
    constructor
    · intro same
      cases same
    · intro err' _
      exact Or.inl untouched
  have nothing : Untouched email [] := fun x member => absurd member List.not_mem_nil
  apply meets_issue trivial
  intro n
  have drew : Untouched email [⟨.randInt, n⟩] := untouched_cons (c := .randInt) (fun writes => writes) n nothing
  cases n with
  | error err => exact failed drew
  | ok n =>
    apply meets_bind (isEmailBlocked_meets trivial)
    intro now blocked checked
    obtain ⟨r, rfl, -⟩ := checked
    have checked : Untouched email
        [⟨.redis (.exists (otpBlockedKey email)), r⟩, ⟨.randInt, .ok n⟩] :=
      untouched_cons (by simp [WritesKey, writtenKeys]) r drew
    rcases blocked with err | blocked
    · exact failed checked
    · cases blocked with
      | true => exact failed checked
      | false =>
        apply meets_redis trivial
        intro r'
        cases r' with
        | error err =>
          apply failed
          intro x member writes
          rcases List.mem_cons.mp member with same | member
          · exact ⟨_, _, err, same⟩
          · exact checked x member writes
        | ok _ =>
          apply meets_issue trivial
          intro mailed
          cases mailed with
          | none =>
            constructor
            · intro _
              exact ⟨_, _, _, rfl, _, _, _, rfl⟩
            · intro err same
              cases same
          | some err =>
            apply meets_redis trivial
            intro r''
            constructor
            · intro same
              cases same
            · intro err' _
              exact Or.inr ⟨r'', _, _, err, _, _, _, rfl, checked⟩

/-- The call has left the record of the email alone, or has stored one where nothing was held
and nothing is held after it has removed it. -/
def LeftAlone (s : State) (email : Str) (i : Nat) : Prop :=
  (∀ ev ∈ s.log, ev.caller = i → ev.after.redis (otpKey email) = ev.before.redis (otpKey email)) ∨
    ∃ late drop mid store older, s.log = late ++ drop :: (mid ++ store :: older) ∧
      ¬ Held email store.before ∧ ¬ Held email drop.after ∧ ∀ ev ∈ s.log, ev.caller = i →
        ev = store ∨ ev = drop ∨ ev.after.redis (otpKey email) = ev.before.redis (otpKey email)

section Answers
variable {cfg : Config} {allow : State → Move → Bool} {seed : Seed} {s : State}

theorem outcome_of_job (run : Reaches (server cfg) allow seed.start s) {i : Nat}
    {job : Job Cmd Reply Call Answer} (at_i : s.jobs[i]? = some job) {email fp name : Str} {id : Int}
    (is : job.req = .generateAndStore email fp id name) {result : Option GoErr}
    (answered : job.rest = .done (.error result)) : (result = none → Acked email (own i s.log)) ∧
      (∀ err, result = some err → Untouched email (own i s.log) ∨ Withdrawn email (own i s.log)) := by
  have meets : ∀ req, (program cfg req).Meets (fun _ _ => True) (fun past a =>
      ∀ email fp id name, req = .generateAndStore email fp id name → ∀ result, a = .error result →
        (result = none → Acked email past) ∧
          (∀ err, result = some err → Untouched email past ∨ Withdrawn email past)) [] := by
    intro req
    by_cases generates : ∃ email fp id name, req = .generateAndStore email fp id name
    · obtain ⟨email, fp, id, name, rfl⟩ := generates
      apply meets_bind (generate_outcome email fp id name)
      intro past result outcome email' fp' id' name' same result' answer
      cases same
      cases answer
      exact outcome
    · apply meets_mono (meets_trivial (fun _ _ => trivial) _) fun _ _ h => h
      intro past a _ email fp id name same
      exact absurd ⟨email, fp, id, name, same⟩ generates
  have held := contract_of_job meets rfl run job (List.mem_of_getElem? at_i)
  rw [answered, past_of_job rfl rfl run at_i] at held
  exact held email fp id name is result rfl

/- A call that has returned nil has stored a record and queued its mail. -/
theorem acked_store (run : Reaches (server cfg) allow seed.start s) {email : Str} {i : Nat}
    (acked : Acked email (own i s.log)) : ∃ late store older, s.log = late ++ store :: older ∧
      store.caller = i ∧ Stores email store ∧ Queued email store late := by
  obtain ⟨subject, body, rest, past, value, ttl, rest', rfl⟩ := acked
  have parts : own i s.log = [⟨.enqueue email subject body, none⟩] ++
      ⟨.redis (.set (otpKey email) value ttl), .ok ()⟩ :: rest' := past
  obtain ⟨late, store, older, split, rfl, exchange, mailed, -⟩ := own_member_split parts
  refine ⟨late, store, older, split, rfl, ⟨?_, value, ttl, congrArg Exchange.cmd exchange⟩,
    subject, body, [], mailed⟩
  have performed := performed_of_run run store (by rw [split]; simp)
  obtain ⟨answer, -⟩ := exchange_redis performed exchange
  obtain ⟨no_fault, -⟩ := faulty_answered answer.symm
  intro f fault
  rw [no_fault] at fault
  cases fault

theorem untouched_kept (run : Reaches (server cfg) allow seed.start s) {email : Str}
    (told : ∀ ev ∈ s.log, Stores email ev → Told email ev) {past : History}
    (untouched : Untouched email past) {ev : LogEntry} (logged : ev ∈ s.log)
    (mine : ev.exchange ∈ past) : ev.after.redis (otpKey email) = ev.before.redis (otpKey email) := by
  apply key_kept (performed_of_run run ev logged)
  intro wrote
  obtain ⟨value, ttl, err, exchange⟩ := untouched ev.exchange mine wrote.1
  have stores : Stores email ev := ⟨wrote.2, value, ttl, congrArg Exchange.cmd exchange⟩
  obtain ⟨value', ttl', exchange'⟩ := told ev logged stores
  rw [exchange] at exchange'
  cases exchange'

/- A call that has returned an error has left the record alone. -/
theorem failed_left_alone (run : Reaches (server cfg) allow seed.start s) {email : Str}
    (orderly : Orderly email s.log) {i : Nat}
    (failed : Untouched email (own i s.log) ∨ Withdrawn email (own i s.log)) :
    LeftAlone s email i := by
  rcases failed with untouched | withdrawn
  · left
    intro ev logged mine
    exact untouched_kept run orderly.told untouched logged (mem_own.mpr ⟨ev, logged, mine, rfl⟩)
  · right
    obtain ⟨r, subject, body, err, value, ttl, rest, past, untouched⟩ := withdrawn
    have parts : own i s.log = [] ++ ⟨withdraw email, r⟩ ::
        ⟨.enqueue email subject body, some err⟩ ::
          ⟨.redis (.set (otpKey email) value ttl), .ok ()⟩ :: rest := past
    obtain ⟨late, drop, before, split, rfl, dropped, nothing, refused⟩ := own_member_split parts
    have just : JustRefused email (own drop.caller before) :=
      ⟨subject, body, err, _, refused, value, ttl, rest, rfl⟩
    obtain ⟨mid, store, older, rfl, mine, stores, refused', mailed, older_own⟩ :=
      refused_store run split refused
    have drop_cmd : drop.cmd = withdraw email := congrArg Exchange.cmd dropped
    have logged : drop ∈ s.log := by rw [split]; simp
    have performed := performed_of_run run drop logged
    have at_store : s.log = (late ++ drop :: mid) ++ store :: older := by rw [split]; simp
    refine ⟨late, drop, mid, store, older, split,
      orderly.over_nothing _ store older at_store stores refused', ?_, ?_⟩
    · intro held
      by_cases took : TookEffect drop
      · obtain ⟨-, after⟩ := exchange_redis performed dropped
        apply held
        rw [after]
        simp only [faulty_took took]
        dsimp only [RedisCmd.run]
        exact present_absent (del_self _ (List.mem_singleton_self _)) _
      · have same := key_kept performed fun wrote : Wrote (otpKey email) drop => took wrote.2
        have held_before : Held email drop.before := by
          intro absent
          apply held
          rw [present_zero] at absent ⊢
          rw [perform_clock performed, lookup_congr same]
          exact absent
        exact took (orderly.withdrawn late drop mid store older split stores mine just drop_cmd
          held_before).1
    · intro ev member called
      have logged_ev := member
      rw [split] at member
      rcases List.mem_append.mp member with newer | member
      · have own_late : ev.exchange ∈ own drop.caller late := mem_own.mpr ⟨ev, newer, called, rfl⟩
        rw [nothing] at own_late
        cases own_late
      · rcases List.mem_cons.mp member with same | member
        · exact Or.inr (Or.inl same)
        · rcases List.mem_append.mp member with newer | member
          · have mail : ev.exchange ∈ own drop.caller mid := mem_own.mpr ⟨ev, newer, called, rfl⟩
            rw [mailed, List.mem_singleton] at mail
            have ev_cmd : ev.cmd = .enqueue email subject body := congrArg Exchange.cmd mail
            have idle : ¬ WritesKey (otpKey email) ev.cmd := by
              rw [ev_cmd]
              exact fun writes => writes
            exact Or.inr (Or.inr (key_frame idle (performed_of_run run ev logged_ev)))
          · rcases List.mem_cons.mp member with same | member
            · exact Or.inl same
            · have earlier : ev.exchange ∈ own drop.caller older :=
                mem_own.mpr ⟨ev, member, called, rfl⟩
              rw [older_own] at earlier
              exact Or.inr (Or.inr (untouched_kept run orderly.told untouched logged_ev earlier))

theorem not_refused {email : Str} {store : LogEntry} {late : Log} (queued : Queued email store late) :
    ¬ Refused email store late := by
  intro refused
  obtain ⟨subject, body, newer, accepted⟩ := queued
  obtain ⟨subject', body', err, newer', rejected⟩ := refused
  have last := (List.append_inj' (accepted.symm.trans rejected) rfl).2
  cases List.head_eq_of_cons_eq last

end Answers

/-- An acknowledged code is not lost, and a call that fails has left the record alone. -/
structure AckKept (s : State) (email : Str) : Prop where
  acknowledged : ∀ i job fp id name, s.jobs[i]? = some job →
    job.req = .generateAndStore email fp id name → job.rest = .done (.error none) →
      ∃ late store older, s.log = late ++ store :: older ∧ store.caller = i ∧
        Stores email store ∧ Queued email store late ∧ Fate s email late store older
  failed : ∀ i job fp id name err, s.jobs[i]? = some job →
    job.req = .generateAndStore email fp id name → job.rest = .done (.error (some err)) →
      LeftAlone s email i

/- In every orderly run, whatever else fails, every record whose mail is queued keeps its fate,
   and so does what GenerateAndStore has acknowledged. -/
theorem acked_code_kept {cfg : Config} {allow : State → Move → Bool} {seed : Seed} {s : State}
    (run : Reaches (server cfg) allow seed.start s) (email : Str) (orderly : Orderly email s.log) :
    AckKept s email ∧ ∀ late store older, s.log = late ++ store :: older → Stores email store →
      Queued email store late → Fate s email late store older := by
  have fate : ∀ late store older, s.log = late ++ store :: older → Stores email store →
      Queued email store late → Fate s email late store older :=
    fun late store older split stores queued =>
      record_fate run orderly split stores (not_refused queued)
  constructor
  · constructor
    · intro i job fp id name at_i is answered
      obtain ⟨acked, -⟩ := outcome_of_job run at_i is answered
      obtain ⟨late, store, older, split, mine, stores, queued⟩ := acked_store run (acked rfl)
      exact ⟨late, store, older, split, mine, stores, queued, fate late store older split stores queued⟩
    · intro i job fp id name err at_i is answered
      obtain ⟨-, failed⟩ := outcome_of_job run at_i is answered
      exact failed_left_alone run orderly (failed err rfl)
  · exact fate

theorem mail_accepted {ev : LogEntry} (performed : Performed ev) (no_fault : ev.oracle.fault = none)
    {recipient subject body : Str} {r : Option GoErr}
    (exchange : ev.exchange = ⟨.enqueue recipient subject body, r⟩) : r = none := by
  obtain ⟨caller, oracle, cmd, reply, before, after⟩ := ev
  cases exchange
  change oracle.fault = none at no_fault
  simp only [Performed, World.perform, no_fault, Option.some.injEq, Prod.mk.injEq] at performed
  exact performed.1.symm

/- Without faults and without removals a run is orderly. -/
theorem orderly_of_faultless {cfg : Config} {seed : Seed} {s : State}
    (run : Reaches (server cfg) faultless seed.start s) {email : Str}
    (kept : ∀ ev ∈ s.log, ev.cmd ≠ clear email) : Orderly email s.log := by
  have performed := performed_of_run run
  have clean := no_faults run
  have accepted : ∀ {i : Nat} {late older : Log} {subject body : Str} {err : GoErr} {x y : History},
      s.log = late ++ older → own i late = x ++ ⟨.enqueue email subject body, some err⟩ :: y ∨
        own i older = x ++ ⟨.enqueue email subject body, some err⟩ :: y → False := by
    intro i late older subject body err x y split mailed
    have logged : (⟨.enqueue email subject body, some err⟩ : Exchange Cmd Reply) ∈ own i s.log := by
      rw [split, own_append]
      rcases mailed with mailed | mailed <;> simp [mailed]
    obtain ⟨ev, member, -, exchange⟩ := mem_own.mp logged
    cases mail_accepted (performed ev member) (clean ev member) exchange
  constructor
  · intro ev logged stores
    obtain ⟨-, value, ttl, cmd⟩ := stores
    obtain ⟨r, exchange⟩ := exchange_of_cmd cmd
    obtain ⟨answer, -⟩ := exchange_redis (performed ev logged) exchange
    rw [faulty_ok (clean ev logged)] at answer
    subst r
    exact ⟨value, ttl, exchange⟩
  · intro late store older split _ refused
    obtain ⟨subject, body, err, newer, mailed⟩ := refused
    exact absurd (Or.inl mailed) (accepted split)
  · intro late drop mid store older split _ _ just
    obtain ⟨subject, body, err, rest, mailed, -⟩ := just
    have shape : s.log = (late ++ [drop]) ++ (mid ++ store :: older) := by rw [split]; simp
    exact absurd (Or.inr mailed) (accepted (x := []) shape)
  · intro late drop mid read older split cleared
    exact absurd cleared (kept drop (by rw [split]; simp))
  · intro late drop older split cleared
    exact absurd cleared (kept drop (by rw [split]; simp))

/- One code is stored and its mail is queued. -/
def ackedOnce : State := after (server devConfig) faultless twoCandidates.start storeMoves

theorem acked_code_kept_once :
    (ackedOnce.world.redis (otpKey voterEmail)).isSome = true ∧ AckKept ackedOnce voterEmail ∧
      ∀ late store older, ackedOnce.log = late ++ store :: older → Stores voterEmail store →
        Queued voterEmail store late → Fate ackedOnce voterEmail late store older := by
  have reached : Reaches (server devConfig) faultless twoCandidates.start ackedOnce :=
    reaches_after (by decide +kernel)
  have kept : ∀ ev ∈ ackedOnce.log, ev.cmd ≠ clear voterEmail := by decide +kernel
  exact ⟨by decide +kernel, acked_code_kept reached voterEmail (orderly_of_faultless reached kept)⟩

/-- The mail queue is down, and the mail server behind it. -/
def mailDown : Oracle := { fault := some ⟨false, "dial tcp: connection refused".toList⟩ }

/- A code is stored and mailed; a second call for the same email cannot mail its own. -/
def mailRefused : State :=
  after (server devConfig) anySchedule twoCandidates.start
    (storeMoves ++ .start (.generateAndStore voterEmail "laptop".toList 2 "Bob".toList) :: runs 1 3 ++
      [.run 1 mailDown, .run 1 {}])

def generateAnswer (job : Job Cmd Reply Call Answer) : Option Bool :=
  match job.rest with
  | .done (.error err) => some err.isNone
  | _ => none

def acceptsMail (ev : LogEntry) : Bool :=
  match ev.exchange with
  | ⟨.enqueue _ _ _, none⟩ => true
  | _ => false

/- A call whose mail is refused has taken an acknowledged code with it. -/
theorem acked_code_lost : ∃ s, Reaches (server devConfig) anySchedule twoCandidates.start s ∧
    s.jobs.map Job.req = [.generateAndStore voterEmail "phone".toList 1 "Ann".toList,
      .generateAndStore voterEmail "laptop".toList 2 "Bob".toList] ∧
      s.jobs.map generateAnswer = [some true, some false] ∧ ¬ AckKept s voterEmail := by
  refine ⟨mailRefused, reaches_after (by decide +kernel), by decide +kernel, by decide +kernel, ?_⟩
  intro kept
  have first : mailRefused.jobs[0]?.map (fun job => (job.req, generateAnswer job)) =
      some (.generateAndStore voterEmail "phone".toList 1 "Ann".toList, some true) := by
    decide +kernel
  obtain ⟨job, at_0, same⟩ := Option.map_eq_some_iff.mp first
  obtain ⟨is, answer⟩ := Prod.mk.inj same
  have answered : job.rest = .done (.error none) := by
    unfold generateAnswer at answer
    split at answer
    · rename_i err done
      rw [done, Option.isNone_iff_eq_none.mp (Option.some.inj answer)]
    · cases answer
  obtain ⟨late, store, older, split, mine, stored, -, fate⟩ :=
    kept.acknowledged 0 job _ _ _ at_0 is answered
  have in_late : ∀ ev ∈ late, ev ∈ mailRefused.log := by
    intro ev member
    rw [split]
    simp [member]
  have logged : store ∈ mailRefused.log := by rw [split]; simp
  cases fate with
  | kept value _ held =>
    have gone : (mailRefused.world.redis (otpKey voterEmail)).isNone = true := by decide +kernel
    rw [held] at gone
    cases gone
  | expired late =>
    have early : ∀ ev ∈ mailRefused.log, mailRefused.world.clock < ev.before.clock + otpTTL := by
      decide +kernel
    have in_time := early store logged
    omega
  | verified i used =>
    obtain ⟨late', read, mid, newer, r, source, -, -⟩ := used
    obtain ⟨stored, exchange⟩ := source.reads
    have unread : ∀ ev ∈ mailRefused.log, ev.cmd ≠ .redis (.get (otpKey voterEmail)) := by
      decide +kernel
    exact unread read (by rw [source.order]; simp) (congrArg Exchange.cmd exchange)
  | blocked ev since now =>
    have free : ∀ ev ∈ mailRefused.log,
        ev.before.redis.present ev.before.clock (otpBlockedKey voterEmail) = 0 := by
      decide +kernel
    exact now (free ev (in_late ev since))
  | replaced newer ev mid shape stores mailed =>
    -- Only the second call has stored anything since, and its last command was the removal.
    have at_ev : mailRefused.log = newer ++ ev :: (mid ++ store :: older) := by
      rw [split, shape]
      simp
    have sets : ∀ e, Stores voterEmail e → setsKey (otpKey voterEmail) e = true := by
      intro e stores
      obtain ⟨-, value, ttl, cmd⟩ := stores
      simp [setsKey, cmd]
    have second : ev.caller = 1 := by
      have callers : ∀ e ∈ mailRefused.log, e.caller = 0 ∨ e.caller = 1 := by decide +kernel
      rcases callers ev (in_late ev (by rw [shape]; simp)) with first | second
      · have single : mailRefused.log.countP
            (fun e => setsKey (otpKey voterEmail) e && e.caller == 0) = 1 := by
          decide +kernel
        rw [at_ev] at single
        simp only [List.countP_append, List.countP_cons, sets ev stores, sets store stored, first,
          mine, beq_self_eq_true, Bool.and_self, ↓reduceIte] at single
        omega
      · exact second
    rcases mailed with queued | nothing
    · obtain ⟨subject, body, front, accepted⟩ := queued
      have member : (⟨.enqueue voterEmail subject body, none⟩ : Exchange Cmd Reply) ∈
          own ev.caller newer := by
        rw [accepted]
        simp
      obtain ⟨mail, at_mail, mailer, exchange⟩ := mem_own.mp member
      have by_first : ∀ e ∈ mailRefused.log, acceptsMail e = true → e.caller = 0 := by
        decide +kernel
      have caller := by_first mail (in_late mail (by rw [shape]; simp [at_mail])) (by
        simp [acceptsMail, exchange])
      omega
    · have last : mailRefused.log.head?.map (fun e => (e.caller, setsKey (otpKey voterEmail) e)) =
          some (1, false) := by
        decide +kernel
      cases newer with
      | nil =>
        rw [at_ev] at last
        simp [sets ev stores] at last
      | cons e newer =>
        rw [at_ev] at last
        simp only [List.cons_append, List.head?_cons, Option.map_some, Option.some.injEq,
          Prod.mk.injEq] at last
        simp [own, last.1, second] at nothing

end AckedCodes
