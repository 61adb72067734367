import VotingApp.Frames

/-!
What a broadcast carries and when it is owed: its leaderboard and its settings were read
by the sending call, and a call that has recorded a vote or updated the settings sends.
-/
namespace PayloadReads
open GoText GoTime JsonText Tables EffectProgram CallPool PoolHistory VotingWorld
open OtpService VotingSettings VoteService CustomDomains Handlers VotingServer Footprints Frames

/-- What IsVotingOpen makes of the settings at a time. -/
def effectivelyOpen (v : Settings) (clock : Nat) : Bool :=
  v.isOpen && v.endsAt.all fun t => !(t < clock)

/-- An exchange that shows its call the settings v: a hit, or the row. -/
def Shows (v : Settings) (x : Exchange Cmd Reply) : Prop :=
  (∃ raw, x = ⟨.redis (.get votingSettingsRedisKey), .ok raw⟩ ∧ unmarshalSettings raw = .ok v) ∨
    x = ⟨.sql .getSettings, .ok v⟩

/-- The row could not be read. -/
def SelectFailed (later : History) : Prop := ∃ err, ⟨.sql .getSettings, .error err⟩ ∈ later

/-- The exchanges of a GetStatus, and the settings that it has returned. -/
inductive Look : History → Option Settings → Prop where
  | hit (raw : Str) (v : Settings) (decodes : unmarshalSettings raw = .ok v) :
    Look [⟨.redis (.get votingSettingsRedisKey), .ok raw⟩] (some v)
  | row (r : Except GoErr Str) (v : Settings) :
    Look [⟨.sql .getSettings, .ok v⟩, ⟨.redis (.get votingSettingsRedisKey), r⟩] (some v)
  | written (r : Except GoErr Str) (v : Settings) (raw : Str) (done : Except GoErr Unit) :
    Look [⟨.redis (.set votingSettingsRedisKey raw 0), done⟩, ⟨.sql .getSettings, .ok v⟩,
      ⟨.redis (.get votingSettingsRedisKey), r⟩] (some v)
  | failed (r : Except GoErr Str) (err : GoErr) :
    Look [⟨.sql .getSettings, .error err⟩, ⟨.redis (.get votingSettingsRedisKey), r⟩] none

/-- What IsVotingOpen makes of the settings, at the time it has read, or at any time. -/
def Judged (clock : History) (v : Option Settings) (opened : Bool) : Prop :=
  (∃ t, clock = [⟨.now, t⟩] ∧ opened = v.any fun v => effectivelyOpen v t) ∨
    (clock = [] ∧ ∀ t, opened = v.any fun v => effectivelyOpen v t)

def orClosed : Except GoErr Bool → Bool
  | .ok open_ => open_
  | .error _ => false

/- A GetStatus ends with settings that one of its exchanges shows, or has had its SELECT fail. -/
theorem look_shows {h : History} {v : Settings} (look : Look h (some v)) : ∃ x ∈ h, Shows v x := by
  cases look with
  | hit raw v decodes => exact ⟨_, List.mem_cons_self, Or.inl ⟨raw, rfl, decodes⟩⟩
  | row r v => exact ⟨_, List.mem_cons_self, Or.inr rfl⟩
  | written r v raw done => exact ⟨_, List.mem_cons_of_mem _ List.mem_cons_self, Or.inr rfl⟩

theorem look_fails {h : History} (look : Look h none) : SelectFailed h := by
  cases look with
  | failed r err => exact ⟨err, List.mem_cons_self⟩

section Looking
variable {R : History → Cmd → Prop} (free : ∀ c past, PayloadCmd c → R past c)
include free

theorem getStatus_looks (past : History) : VotingSettings.getStatus.Meets R
    (fun now r => ∃ later, now = later ++ past ∧ Look later r.toOption) past := by
  apply meets_bind (Q := fun now cached => ∃ r,
    now = ⟨.redis (.get votingSettingsRedisKey), r⟩ :: past ∧
      ∀ v, cached = .ok v → ∃ raw, r = .ok raw ∧ unmarshalSettings raw = .ok v)
  · apply meets_redis (free _ past .get)
    intro r
    cases r with
    | error err => exact ⟨.error err, rfl, fun v hit => nomatch hit⟩
    | ok raw => exact ⟨.ok raw, rfl, fun v hit => ⟨raw, rfl, hit⟩⟩
  · rintro now cached ⟨r, rfl, hit⟩
    cases cached with
    | ok v =>
      obtain ⟨raw, rfl, decodes⟩ := hit v rfl
      exact ⟨_, rfl, .hit raw v decodes⟩
    | error err =>
      apply meets_sql (free _ _ .select)
      intro row
      cases row with
      | error err => exact ⟨_, rfl, .failed r err⟩
      | ok v =>
        dsimp only
        unfold toRedis
        cases marshalSettings v with
        | error err => exact ⟨_, rfl, .row r v⟩
        | ok raw =>
          apply meets_redis (free _ _ (.set raw))
          intro written
          cases written <;> exact ⟨_, rfl, .written r v raw _⟩

theorem isVotingOpen_looks (past : History) : VotingSettings.isVotingOpen.Meets R
    (fun now r => ∃ first v clock, now = clock ++ (first ++ past) ∧ Look first v ∧
      r.toOption.isSome = v.isSome ∧ Judged clock v (orClosed r)) past := by
  apply meets_bind (getStatus_looks free past)
  rintro now status ⟨first, rfl, look⟩
  cases status with
  | error err => exact ⟨first, none, [], rfl, look, rfl, Or.inr ⟨rfl, fun _ => rfl⟩⟩
  | ok v =>
    dsimp only
    split
    · rename_i opened
      cases ends : v.endsAt with
      | none =>
        refine ⟨first, some v, [], rfl, look, rfl, Or.inr ⟨rfl, ?_⟩⟩
        simp [orClosed, effectivelyOpen, opened, ends]
      | some t =>
        apply meets_issue (free _ _ .now)
        intro clock
        refine ⟨first, some v, [⟨.now, clock⟩], rfl, look, rfl, Or.inl ⟨clock, rfl, ?_⟩⟩
        simp [orClosed, effectivelyOpen, opened, ends]
    · rename_i not_open
      refine ⟨first, some v, [], rfl, look, rfl, Or.inr ⟨rfl, ?_⟩⟩
      simp [orClosed, effectivelyOpen, not_open]

end Looking

/-- A recorded vote, or updated settings. -/
def Changes : Exchange Cmd Reply → Prop
  | ⟨.sql (.insertVote _ _ _ _ _), .ok _⟩ => True
  | ⟨.sql (.updateSettings _ _), .ok _⟩ => True
  | _ => False

/-- Nothing in this exchange keeps a payload from being marshalled. -/
def Sane : Exchange Cmd Reply → Prop
  | ⟨.sql .getAllWithVotes, r⟩ => ∃ rows, r = .ok rows ∧ rows.all printableCandidate = true
  | ⟨.sql .getSettings, r⟩ => ∃ v, r = .ok v ∧ v.endsAt.all printable = true
  | ⟨.redis (.get key), .ok raw⟩ => key = votingSettingsRedisKey →
      ∀ v, unmarshalSettings raw = .ok v → v.endsAt.all printable = true
  | _ => True

def IsSend (x : Exchange Cmd Reply) : Prop := ∃ data, x.cmd = .broadcast data

/-- If all went well a send is among these exchanges. -/
def Announced (later : History) : Prop := (∀ x ∈ later, Sane x) → ∃ x ∈ later, IsSend x

/-- Every change has been announced. -/
def Paid (past : History) : Prop := ∀ newer x older, past = newer ++ x :: older → Changes x →
  Announced newer

section Rules

end Rules
end PayloadReads
