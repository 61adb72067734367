import Mathlib.Logic.Relation
import VotingApp.EmailBlock

/-!
One vote per person across aliases. Both handlers canonicalise the submitted address before
they use it, and no chain of alias steps changes the canonical form.
-/
namespace Aliases
open GoText GoTime Tables EffectProgram CallPool PoolHistory VotingWorld
open OtpService VotingSettings VoteService CustomDomains Handlers VotingServer
open Footprints Frames TableInvariants OtpRecords Provenance SettingsCache EmailBlock

def isGmail (domain : Str) : Prop :=
  domain = "gmail.com".toList ∨ domain = "googlemail.com".toList

/-- One change of an address that leaves its mailbox the same. -/
inductive AliasStep : Str → Str → Prop where
  | letterCase {a b : Str} (same : a.map Char.toLower = b.map Char.toLower) : AliasStep a b
  | plusSuffix (localPart suffix : Str) {domain : Str} (clean : '@' ∉ domain) :
    AliasStep (localPart ++ '@' :: domain) ((localPart ++ '+' :: suffix) ++ '@' :: domain)
  | dot (front back : Str) {domain : Str} (gmail : isGmail domain) :
    AliasStep ((front ++ back) ++ '@' :: domain) ((front ++ '.' :: back) ++ '@' :: domain)
  | exchange (localPart : Str) :
    AliasStep (localPart ++ '@' :: "gmail.com".toList) (localPart ++ '@' :: "googlemail.com".toList)

/-- Addresses related by any chain of such changes, in either direction. -/
def Alias : Str → Str → Prop := Relation.EqvGen AliasStep

/-- What unicode.ToLower is documented to do: lowercase ASCII, and nothing becomes an '@'. -/
structure LowersLikeGo (lowerRune : Char → Char) : Prop where
  ascii : ∀ c : Char, c.toNat < 128 → lowerRune c = c.toLower
  at_sign : ∀ c, lowerRune c = '@' → c = '@'

theorem toLower_cases (c : Char) :
    (65 ≤ c.toNat ∧ c.toNat ≤ 90 ∧ c.toLower.toNat = c.toNat + 32) ∨
      (¬ (65 ≤ c.toNat ∧ c.toNat ≤ 90) ∧ c.toLower = c) := by
  have bounds : (c.val ≥ 'A'.val ∧ c.val ≤ 'Z'.val) ↔ (65 ≤ c.toNat ∧ c.toNat ≤ 90) := Iff.rfl
  by_cases upper : 65 ≤ c.toNat ∧ c.toNat ≤ 90
  · left
    have shifted : c.toLower.val = c.val + ('a'.val - 'A'.val) :=
      congrArg Char.val (dif_pos (bounds.mpr upper))
    refine ⟨upper.1, upper.2, ?_⟩
    change c.toLower.val.toNat = c.val.toNat + 32
    rw [shifted, UInt32.toNat_add]
    have small : c.val.toNat ≤ 90 := upper.2
    have gap : ('a'.val - 'A'.val).toNat = 32 := rfl
    omega
  · right
    constructor
    · exact upper
    · exact dif_neg fun h => upper (bounds.mp h)

theorem toLower_twice (c : Char) : c.toLower.toLower = c.toLower := by
  rcases toLower_cases c with ⟨low, high, shifted⟩ | ⟨-, same⟩
  · rcases toLower_cases c.toLower with ⟨-, too_high, -⟩ | ⟨-, same⟩
    · omega
    · exact same
  · rw [same, same]

theorem lowers_char_toLower : LowersLikeGo Char.toLower where
  ascii c _ := rfl
  at_sign c same := by
    rcases toLower_cases c with ⟨low, high, shifted⟩ | ⟨-, kept⟩
    · have at_code : c.toLower.toNat = 64 := by rw [same]; rfl
      omega
    · rw [← kept]
      exact same

theorem stripPlus_takeWhile (s : Str) : stripPlus s = s.takeWhile (· ≠ '+') := by
  rw [← cut_takeWhile, stripPlus]
  cases cut '+' s with
  | none => rfl
  | some parts => rfl

/- A suffix behind a plus sign is cut off, whatever it holds. -/
theorem stripPlus_suffix (s suffix : Str) : stripPlus (s ++ '+' :: suffix) = stripPlus s := by
  rw [stripPlus_takeWhile, stripPlus_takeWhile]
  induction s with
  | nil => simp
  | cons c s ih =>
    by_cases plus : c = '+'
    · simp [plus]
    · simpa [plus] using ih

theorem stripPlus_dot (front back : Str) :
    (stripPlus (front ++ '.' :: back)).filter (· ≠ '.') =
      (stripPlus (front ++ back)).filter (· ≠ '.') := by
  rw [stripPlus_takeWhile, stripPlus_takeWhile]
  induction front with
  | nil => simp
  | cons c front ih =>
    by_cases plus : c = '+'
    · simp [plus]
    · by_cases dot : c = '.'
      · simpa [dot] using ih
      · simpa [plus, dot] using ih

section Canonical
variable {cfg : Config} (lower : LowersLikeGo cfg.lowerRune)
include lower

theorem lowerRune_toLower (c : Char) : cfg.lowerRune c.toLower = cfg.lowerRune c := by
  rcases toLower_cases c with ⟨low, high, shifted⟩ | ⟨-, same⟩
  · rw [lower.ascii c (by omega), lower.ascii c.toLower (by omega), toLower_twice]
  · rw [same]

/- Case changes of ASCII letters are lost on the way. -/
theorem toLower_case {a b : Str} (same : a.map Char.toLower = b.map Char.toLower) :
    toLower cfg a = toLower cfg b := by
  have through : ∀ s : Str, (s.map Char.toLower).map cfg.lowerRune = toLower cfg s := by
    intro s
    rw [toLower, List.map_map]
    apply List.map_congr_left
    intro c _
    exact lowerRune_toLower lower c
  rw [← through a, ← through b, same]

theorem toLower_at (localPart domain : Str) :
    toLower cfg (localPart ++ '@' :: domain) = toLower cfg localPart ++ '@' :: toLower cfg domain := by
  have at_sign : cfg.lowerRune '@' = '@' := lower.ascii '@' (by decide)
  simp [toLower, at_sign]

theorem clean_lowered {domain : Str} (clean : '@' ∉ domain) : '@' ∉ toLower cfg domain := by
  intro member
  obtain ⟨c, there, same⟩ := List.mem_map.mp member
  rw [lower.at_sign c same] at there
  exact clean there

omit lower in
theorem gmail_clean {domain : Str} (gmail : isGmail domain) : '@' ∉ domain := by
  rcases gmail with rfl | rfl <;> decide

theorem gmail_lowered {domain : Str} (gmail : isGmail domain) : toLower cfg domain = domain := by
  have small : ∀ s : Str, (s.all fun c => decide (c.toNat < 128 ∧ c.toLower = c)) = true →
      toLower cfg s = s := by
    intro s plain
    conv_rhs => rw [← List.map_id s]
    apply List.map_congr_left
    intro c member
    obtain ⟨ascii, same⟩ := of_decide_eq_true (List.all_eq_true.mp plain c member)
    rw [lower.ascii c ascii, same]
    rfl
  rcases gmail with rfl | rfl
  · exact small _ (by decide)
  · exact small _ (by decide)

/- The canonical form, once the address is split at its last '@'. -/
theorem normalizeEmail_at (localPart : Str) {domain : Str} (clean : '@' ∉ domain) :
    normalizeEmail cfg (localPart ++ '@' :: domain) =
      if toLower cfg domain = "gmail.com".toList || toLower cfg domain = "googlemail.com".toList then
        (stripPlus (toLower cfg localPart)).filter (· ≠ '.') ++ '@' :: "gmail.com".toList
      else stripPlus (toLower cfg localPart) ++ '@' :: toLower cfg domain := by
  have parts : cutLast '@' (toLower cfg localPart ++ '@' :: toLower cfg domain) =
      some (toLower cfg localPart, toLower cfg domain) := cutLast_append (clean_lowered lower clean)
  simp only [normalizeEmail, toLower_at lower, parts]

theorem normalizeEmail_gmail (localPart : Str) {domain : Str} (gmail : isGmail domain) :
    normalizeEmail cfg (localPart ++ '@' :: domain) =
      (stripPlus (toLower cfg localPart)).filter (· ≠ '.') ++ '@' :: "gmail.com".toList := by
  rw [normalizeEmail_at lower localPart (gmail_clean gmail), gmail_lowered lower gmail]
  apply if_pos
  rcases gmail with rfl | rfl <;> decide

/- One alias step does not change the canonical form. -/
theorem step_canonical {a b : Str} (step : AliasStep a b) :
    normalizeEmail cfg a = normalizeEmail cfg b := by
  cases step with
  | letterCase same => rw [normalizeEmail, normalizeEmail, toLower_case lower same]
  | plusSuffix localPart suffix clean =>
    have plus : cfg.lowerRune '+' = '+' := lower.ascii '+' (by decide)
    have lowered : toLower cfg (localPart ++ '+' :: suffix) =
        toLower cfg localPart ++ '+' :: toLower cfg suffix := by
      simp [toLower, plus]
    rw [normalizeEmail_at lower _ clean, normalizeEmail_at lower _ clean, lowered, stripPlus_suffix]
  | dot front back gmail =>
    have dot : cfg.lowerRune '.' = '.' := lower.ascii '.' (by decide)
    have lowered : toLower cfg (front ++ '.' :: back) =
        toLower cfg front ++ '.' :: toLower cfg back := by
      simp [toLower, dot]
    have joined : toLower cfg (front ++ back) = toLower cfg front ++ toLower cfg back := by
      simp [toLower]
    rw [normalizeEmail_gmail lower _ gmail, normalizeEmail_gmail lower _ gmail, lowered, joined,
      stripPlus_dot]
  | exchange localPart =>
    rw [normalizeEmail_gmail lower _ (Or.inl rfl), normalizeEmail_gmail lower _ (Or.inr rfl)]

/- Nor does any chain of them. -/
theorem alias_canonical {a b : Str} (chain : Alias a b) :
    normalizeEmail cfg a = normalizeEmail cfg b := by
  induction chain with
  | rel a b step => exact step_canonical lower step
  | refl a => rfl
  | symm a b _ ih => exact ih.symm
  | trans a b c _ _ first second => exact first.trans second

end Canonical

/-- The keys a Redis command names. -/
def keysOf : RedisCmd → List Str
  | .exists key => [key]
  | .get key => [key]
  | .set key _ _ => [key]
  | .del keys => keys
  | .incr key => [key]
  | .expire key _ => [key]
  | .sadd key _ => [key]
  | .srem key _ => [key]
  | .sismember key _ => [key]

def Touches (key : Str) : Cmd → Prop
  | .redis c => key ∈ keysOf c
  | _ => False

/-- The keys of the record, the counter and the block of an email. -/
def codeKeys (email : Str) : List Str := [otpKey email, otpAttemptsKey email, otpBlockedKey email]

/-- The normalized email a call is about. -/
def Concerns (cfg : Config) (req : Call) (email : Str) : Prop :=
  (∃ fp id, asksCode cfg req = some (email, fp, id)) ∨ (∃ otp, req = .verify email otp) ∨
    ∃ otp ip userAgent, presents cfg req = some ⟨email, otp, ip, userAgent⟩

/- A call only names the code keys of the email it is about. -/
def KeyRule (cfg : Config) (req : Call) (_ : History) (c : Cmd) : Prop :=
  ∀ email, ∀ key ∈ codeKeys email, Touches key c → Concerns cfg req email

def Anything (_ : History) : Prop := True

theorem key_neutral {cfg : Config} {req : Call} {c : Cmd}
    (free : ∀ email, ∀ key ∈ codeKeys email, Touches key c → Concerns cfg req email) :
    Neutral (KeyRule cfg req) Anything c := by
  intro past _
  constructor
  · exact free
  · intro r
    trivial

theorem keyless {cfg : Config} {req : Call} {c : Cmd}
    (other : ∀ email, ∀ key ∈ codeKeys email, ¬ Touches key c) :
    Neutral (KeyRule cfg req) Anything c :=
  key_neutral fun email key member touches => absurd touches (other email key member)

/- The keys of one email are no other email's, and none of the server's other keys. -/
theorem code_key_owner {e e' key : Str} (member : key ∈ codeKeys e) (member' : key ∈ codeKeys e') :
    e = e' := by
  simp only [codeKeys, List.mem_cons, List.not_mem_nil, or_false] at member member'
  rcases member with rfl | rfl | rfl
  · simpa using member'
  · simpa using member'
  · simpa using member'

theorem settings_no_code (e : Str) : votingSettingsRedisKey ∉ codeKeys e := by simp [codeKeys]

theorem domains_no_code (e : Str) : customDomainsRedisKey ∉ codeKeys e := by
  simp [codeKeys]

theorem warmed_no_code (e : Str) : customDomainsWarmedRedisKey ∉ codeKeys e := by
  simp [codeKeys]

theorem rate_no_code (e ip : Str) : rateLimitKey ip ∉ codeKeys e := by
  simp [codeKeys]

theorem keyless_single {cfg : Config} {req : Call} {c : Cmd} {named : Str}
    (only : ∀ key, Touches key c → key = named) (other : ∀ e, named ∉ codeKeys e) :
    Neutral (KeyRule cfg req) Anything c := by
  apply keyless
  intro email key member touches
  rw [only key touches] at member
  exact other email member

theorem keyless_broadcast {cfg : Config} {req : Call} :
    ∀ c, BroadcastCmd c → Neutral (KeyRule cfg req) Anything c := by
  intro c sent
  apply keyless_single _ settings_no_code
  intro key touches
  cases sent with
  | get => exact List.mem_singleton.mp touches
  | set raw => exact List.mem_singleton.mp touches
  | _ => exact touches.elim

theorem keyless_update {cfg : Config} {req : Call} :
    ∀ c, UpdateCmd c → Neutral (KeyRule cfg req) Anything c := by
  intro c sent
  apply keyless_single _ settings_no_code
  intro key touches
  cases sent with
  | get => exact List.mem_singleton.mp touches
  | set raw => exact List.mem_singleton.mp touches
  | invalidate => exact List.mem_singleton.mp touches
  | _ => exact touches.elim

theorem keyless_domain {cfg : Config} {req : Call} :
    ∀ c, DomainCmd c → Neutral (KeyRule cfg req) Anything c := by
  intro c sent
  cases sent with
  | mark => exact keyless_single (fun key touches => List.mem_singleton.mp touches) warmed_no_code
  | _ =>
    apply keyless_single _ domains_no_code
    intro key touches
    first
      | exact List.mem_singleton.mp touches
      | exact touches.elim

theorem generate_touches {email key : Str} {c : Cmd} (sent : GenerateCmd email c)
    (touches : Touches key c) : key ∈ codeKeys email := by
  cases sent with
  | blocked =>
    rw [List.mem_singleton.mp touches]
    simp [codeKeys]
  | store value =>
    rw [List.mem_singleton.mp touches]
    simp [codeKeys]
  | withdraw =>
    rw [List.mem_singleton.mp touches]
    simp [codeKeys]
  | _ => exact touches.elim

theorem verify_touches {email key : Str} {c : Cmd} (sent : VerifyCmd email c)
    (touches : Touches key c) : key ∈ codeKeys email := by
  cases sent with
  | clear =>
    have either : key = otpKey email ∨ key = otpAttemptsKey email := by
      simpa [Touches, keysOf] using touches
    rcases either with rfl | rfl <;> simp [codeKeys]
  | _ =>
    rw [List.mem_singleton.mp touches]
    simp [codeKeys]

theorem verify_keys {cfg : Config} {req : Call} {email : Str} (concerns : Concerns cfg req email) :
    ∀ c, VerifyCmd email c → Neutral (KeyRule cfg req) Anything c := by
  intro c sent
  apply key_neutral
  intro e key member touches
  rw [code_key_owner member (verify_touches sent touches)]
  exact concerns

theorem keys_respected (cfg : Config) (req : Call) :
    Respected cfg req (KeyRule cfg req) Anything where
  plain c sent := by
    cases sent with
    | warmed =>
      exact keyless_single (fun key touches => List.mem_singleton.mp touches) warmed_no_code
    | member domain =>
      exact keyless_single (fun key touches => List.mem_singleton.mp touches) domains_no_code
    | rate ip =>
      exact keyless_single (fun key touches => List.mem_singleton.mp touches) fun e => rate_no_code e ip
    | rateWindow ip =>
      exact keyless_single (fun key touches => List.mem_singleton.mp touches) fun e => rate_no_code e ip
    | _ => exact keyless fun email key member touches => touches.elim
  status := keeps_of_issues getStatus_issues fun c sent =>
    keyless_broadcast c (payload_broadcast c (status_payload c sent))
  broadcast := keeps_of_issues broadcastPayload_issues keyless_broadcast
  update isOpen endsAt := keeps_of_issues (updateSettings_issues isOpen endsAt) keyless_update
  mode value := keeps_of_issues (updateCustomDomainsOnly_issues value) keyless_update
  generate email fp candidate name asked := by
    apply keeps_of_issues (generateAndStore_issues email fp candidate name)
    intro c sent
    apply key_neutral
    intro e key member touches
    rw [code_key_owner member (generate_touches sent touches)]
    exact Or.inl ⟨fp, candidate, asked⟩
  verify email otp is :=
    keeps_of_issues (verify_issues email otp) (verify_keys (Or.inr (Or.inl ⟨otp, is⟩)))
  vote email otp ip userAgent presented := by
    have concerns : Concerns cfg req email := Or.inr (Or.inr ⟨otp, ip, userAgent, presented⟩)
    apply keeps_of_issues (verifyAndVote_issues email otp ip userAgent)
    intro c sent
    cases sent with
    | blocked => exact verify_keys concerns _ .blocked
    | read => exact verify_keys concerns _ .read
    | count => exact verify_keys concerns _ .count
    | expire => exact verify_keys concerns _ .expire
    | block => exact verify_keys concerns _ .block
    | clear => exact verify_keys concerns _ .clear
    | get => exact keyless_broadcast _ .get
    | set raw => exact keyless_broadcast _ (.set raw)
    | _ => exact keyless fun email key member touches => touches.elim
  deleteCandidate _ n _ _ := by
    apply keeps_of_issues (deleteCandidate_issues n)
    intro c sent
    cases sent <;> exact keyless fun email key member touches => touches.elim
  insertDomain domain := keeps_of_issues (insert_issues domain) keyless_domain
  deleteDomain id := keeps_of_issues (delete_issues id) keyless_domain
  warmCache := keeps_of_issues warmCache_issues keyless_domain

/-- The address a voter's request carries, as it was submitted. -/
def submitted : Call → Option Str
  | .requestOTP _ (.ok body) => some body.email
  | .verifyVote _ _ (.ok body) => some body.email
  | _ => none

/-- Codes and votes are only asked for through the two handlers. -/
def throughHandlers (_ : State) : Move → Bool
  | .start (.generateAndStore _ _ _ _) => false
  | .start (.verify _ _) => false
  | .start (.verifyAndVote _ _ _ _) => false
  | _ => true

/-- The event is a step of a request that carries this address. -/
def SentFor (s : State) (ev : LogEntry) (address : Str) : Prop :=
  ∃ job, s.jobs[ev.caller]? = some job ∧ submitted job.req = some address

def InsertsRow (ev : LogEntry) (v : Vote) : Prop := ∃ email fp id ip userAgent,
  Inserted ev email fp id ip userAgent ∧
    v = ev.before.db.newVote ev.before.clock email fp id ip userAgent

/-- The row was inserted by a request that carries this address. -/
def SubmittedAs (s : State) (v : Vote) (address : Str) : Prop :=
  ∃ ev ∈ s.log, InsertsRow ev v ∧ SentFor s ev address

/- What a request is about is the canonical form of the address it carries. -/
theorem concerns_canonical {cfg : Config} {req : Call} {address email : Str}
    (carries : submitted req = some address) (concerns : Concerns cfg req email) :
    email = normalizeEmail cfg address := by
  rcases concerns with ⟨fp, id, asked⟩ | ⟨otp, rfl⟩ | ⟨otp, ip, userAgent, presented⟩
  · cases req with
    | requestOTP ip body =>
      simp only [asksCode] at asked
      split at asked
      · rename_i r bound
        rw [bindBody_ok bound] at carries
        cases carries
        cases asked
        rfl
      · cases asked
    | generateAndStore => cases carries
    | _ => cases asked
  · cases carries
  · cases req with
    | verifyVote ip userAgent body =>
      simp only [presents] at presented
      split at presented
      · rename_i r bound
        rw [bindBody_ok bound] at carries
        cases carries
        cases presented
        rfl
      · cases presented
    | verifyAndVote => cases carries
    | _ => cases presented

/- Only a VerifyVote that carries an address presents a code. -/
theorem presented_submitted {cfg : Config} {req : Call} {p : Presented}
    (handled : ∀ s, throughHandlers s (.start req) = true) (presented : presents cfg req = some p) :
    ∃ address, submitted req = some address := by
  cases req with
  | verifyVote ip userAgent body =>
    simp only [presents] at presented
    split at presented
    · rename_i r bound
      rw [bindBody_ok bound]
      exact ⟨_, rfl⟩
    · cases presented
  | verifyAndVote => cases handled { world := { clock := 0 } }
  | _ => cases presented

section Runs
variable {cfg : Config} {allow : State → Move → Bool} {seed : Seed} {s : State}

/- Every row was inserted by an event of the run. -/
theorem rows_inserted (run : Reaches (server cfg) allow seed.start s) :
    ∀ v ∈ s.world.db.votes, ∃ ev ∈ s.log, InsertsRow ev v := by
  apply reaches_inv (I := fun t => ∀ v ∈ t.world.db.votes, ∃ ev ∈ t.log, InsertsRow ev v) _ _ run
  · intro v member
    exact absurd member List.not_mem_nil
  · intro t l t' held allowed step v member
    cases step with
    | start req => exact held v member
    | env moved =>
      rw [show _ = t.world.db from (env_scope moved).1] at member
      exact held v member
    | @run i o job c next r w at_i waiting performed =>
      have older : v ∈ t.world.db.votes → ∃ ev ∈ (⟨i, o, c, r, t.world, w⟩ : LogEntry) :: t.log,
          InsertsRow ev v := by
        intro there
        obtain ⟨ev, logged, inserts⟩ := held v there
        exact ⟨ev, List.mem_cons_of_mem _ logged, inserts⟩
      have logged : Performed ⟨i, o, c, r, t.world, w⟩ := performed
      rcases votes_step logged with same | ⟨email, fp, id, ip, userAgent, inserted⟩ | ⟨id, removed⟩
      · apply older
        rw [← same]
        exact member
      · have grown := inserted.grown
        dsimp only at grown member
        rw [grown] at member
        rcases List.mem_append.mp member with there | new
        · exact older there
        · exact ⟨_, List.mem_cons_self, email, fp, id, ip, userAgent, inserted,
            List.mem_singleton.mp new⟩
      · apply older
        have shrunk := removed.after
        dsimp only at shrunk member
        rw [shrunk] at member
        exact List.mem_of_mem_filter member

/- The email of an inserted row is what its request presents. -/
theorem inserted_presented (run : Reaches (server cfg) allow seed.start s) {ev : LogEntry}
    (logged : ev ∈ s.log) {v : Vote} (inserts : InsertsRow ev v) :
    ∃ job otp, s.jobs[ev.caller]? = some job ∧
      presents cfg job.req = some ⟨v.voterEmail, otp, v.voterIp, v.voterUserAgent⟩ := by
  obtain ⟨email, fp, id, ip, userAgent, inserted, rfl⟩ := inserts
  obtain ⟨late, older, split⟩ := List.append_of_mem logged
  obtain ⟨job, at_job, rule⟩ := rule_of_run run split
  rw [inserted.cmd] at rule
  obtain ⟨otp, stored, r, rest, presented, -, -⟩ := rule
  exact ⟨job, otp, at_job, presented⟩

theorem submitted_email (run : Reaches (server cfg) allow seed.start s) {v : Vote} {address : Str}
    (as : SubmittedAs s v address) : v.voterEmail = normalizeEmail cfg address := by
  obtain ⟨ev, logged, inserts, job, at_job, carries⟩ := as
  obtain ⟨job', otp, at_job', presented⟩ := inserted_presented run logged inserts
  rw [at_job, Option.some.injEq] at at_job'
  subst job'
  exact concerns_canonical carries (Or.inr (Or.inr ⟨_, _, _, presented⟩))

theorem row_submitted (run : Reaches (server cfg) throughHandlers seed.start s) {v : Vote}
    (member : v ∈ s.world.db.votes) : ∃ address, SubmittedAs s v address := by
  obtain ⟨ev, logged, inserts⟩ := rows_inserted run v member
  obtain ⟨job, otp, at_job, presented⟩ := inserted_presented run logged inserts
  have handled : ∀ job ∈ s.jobs, ∀ t, throughHandlers t (.start job.req) = true := by
    apply requests_satisfy (P := fun req => ∀ t, throughHandlers t (.start req) = true) rfl _ _ run
    · intro t req allowed t'
      exact allowed
    · intro c req spawned t
      cases c with
      | goWarmCache =>
        rw [List.mem_singleton.mp spawned]
        rfl
      | _ => cases spawned
  obtain ⟨address, carries⟩ := presented_submitted (handled job (List.mem_of_getElem? at_job)) presented
  exact ⟨address, ev, logged, inserts, job, at_job, carries⟩

/- What a request touches of the codes belongs to the canonical form of its address. -/
theorem touches_canonical (run : Reaches (server cfg) allow seed.start s) {ev : LogEntry}
    (logged : ev ∈ s.log) {address : Str} (sent : SentFor s ev address) {email key : Str}
    (member : key ∈ codeKeys email) (touches : Touches key ev.cmd) :
    email = normalizeEmail cfg address := by
  obtain ⟨job, at_job, carries⟩ := sent
  obtain ⟨late, older, split⟩ := List.append_of_mem logged
  obtain ⟨job', at_job', rule⟩ := contract_of_logged
    (fun req => program_keeps (keys_respected cfg req) [] trivial) rfl rfl run split
  rw [at_job, Option.some.injEq] at at_job'
  subst job'
  exact concerns_canonical carries (rule email key member touches)

end Runs

/-- The address passes the binding of both handlers. -/
def Bindable (cfg : Config) (address : Str) : Prop := address ≠ [] ∧ cfg.validEmail address = true

theorem requiredEmail_bindable {cfg : Config} {address : Str} (bindable : Bindable cfg address)
    (request : String) : requiredEmail cfg request address = [] := by
  rw [requiredEmail, if_neg bindable.1, if_pos bindable.2]

/- Under two names of one mailbox a request runs the same program. -/
theorem alias_programs {cfg : Config} (lower : LowersLikeGo cfg.lowerRune) {a b : Str}
    (chain : Alias a b) (bind_a : Bindable cfg a) (bind_b : Bindable cfg b) :
    (∀ ip fp token id, program cfg (.requestOTP ip (.ok ⟨a, fp, token, id⟩)) =
      program cfg (.requestOTP ip (.ok ⟨b, fp, token, id⟩))) ∧
      ∀ ip userAgent otp, program cfg (.verifyVote ip userAgent (.ok ⟨a, otp⟩)) =
        program cfg (.verifyVote ip userAgent (.ok ⟨b, otp⟩)) := by
  have canonical := alias_canonical lower chain
  constructor
  · intro ip fp token id
    have checks : RequestOTPRequest.check cfg ⟨a, fp, token, id⟩ =
        RequestOTPRequest.check cfg ⟨b, fp, token, id⟩ := by
      simp only [RequestOTPRequest.check, requiredEmail_bindable bind_a, requiredEmail_bindable bind_b]
    have served : requestOTPFor cfg ip ⟨a, fp, token, id⟩ = requestOTPFor cfg ip ⟨b, fp, token, id⟩ := by
      simp only [requestOTPFor, canonical]
    have guarded : requestOTPGuarded cfg ip (.ok ⟨a, fp, token, id⟩) =
        requestOTPGuarded cfg ip (.ok ⟨b, fp, token, id⟩) := by
      by_cases passes : RequestOTPRequest.check cfg ⟨b, fp, token, id⟩ = []
      · simp only [requestOTPGuarded, bindBody, checks, passes, ↓reduceIte, served]
      · simp only [requestOTPGuarded, bindBody, checks, passes, ↓reduceIte]
    simp only [program, Handlers.requestOTP, guarded]
  · intro ip userAgent otp
    have checks : VerifyVoteRequest.check cfg ⟨a, otp⟩ = VerifyVoteRequest.check cfg ⟨b, otp⟩ := by
      simp only [VerifyVoteRequest.check, requiredEmail_bindable bind_a, requiredEmail_bindable bind_b]
    by_cases passes : VerifyVoteRequest.check cfg ⟨b, otp⟩ = []
    · simp only [program, Handlers.verifyVote, bindBody, checks, passes, ↓reduceIte, canonical]
    · simp only [program, Handlers.verifyVote, bindBody, checks, passes, ↓reduceIte]

/- In every run in which codes and votes are asked for through the handlers: every row was
   submitted under some address, no two rows under aliases or with one fingerprint, requests
   under aliases touch the record, the counter and the block of one and the same email, and do
   the same with them. -/
theorem one_vote_per_person {cfg : Config} (lower : LowersLikeGo cfg.lowerRune) {seed : Seed}
    {s : State} (run : Reaches (server cfg) throughHandlers seed.start s) :
    (∀ v ∈ s.world.db.votes, ∃ address, SubmittedAs s v address) ∧
      (s.world.db.votes.Pairwise fun v v' => v.voterFingerprint ≠ v'.voterFingerprint ∧
        ∀ a b, SubmittedAs s v a → SubmittedAs s v' b → ¬ Alias a b) ∧
        ∀ a b, Alias a b →
          (∃ email, ∀ ev ∈ s.log, SentFor s ev a ∨ SentFor s ev b → ∀ e, ∀ key ∈ codeKeys e,
            Touches key ev.cmd → e = email) ∧
            (Bindable cfg a → Bindable cfg b →
              (∀ ip fp token id, program cfg (.requestOTP ip (.ok ⟨a, fp, token, id⟩)) =
                program cfg (.requestOTP ip (.ok ⟨b, fp, token, id⟩))) ∧
                ∀ ip userAgent otp, program cfg (.verifyVote ip userAgent (.ok ⟨a, otp⟩)) =
                  program cfg (.verifyVote ip userAgent (.ok ⟨b, otp⟩))) := by
  have sound := sound_of_run run
  refine ⟨fun v member => row_submitted run member, ?_, ?_⟩
  · have emails := List.pairwise_map.mp sound.emails
    have fingerprints := List.pairwise_map.mp sound.fingerprints
    apply (emails.and fingerprints).imp
    intro v v' apart
    refine ⟨apart.2, ?_⟩
    intro a b as_a as_b chain
    apply apart.1
    rw [submitted_email run as_a, submitted_email run as_b, alias_canonical lower chain]
  · intro a b chain
    constructor
    · refine ⟨normalizeEmail cfg a, ?_⟩
      intro ev logged sent e key member touches
      rcases sent with sent | sent
      · exact touches_canonical run logged sent member touches
      · rw [alias_canonical lower chain]
        exact touches_canonical run logged sent member touches
    · exact alias_programs lower chain

/- Ann votes, and then somebody asks for a code under another spelling of her address. -/
def secondSpelling : State :=
  after (server devConfig) throughHandlers twoCandidates.start
    (.start (requestFrom "1.1.1.1" "ann@gmail.com" "a" 1) :: runs 0 14 ++
      .start (verifyFrom "1.1.1.1" "ann@gmail.com" "100000") :: runs 1 9 ++
      .start (requestFrom "1.1.1.1" "A.nn+x@GoogleMail.com" "b" 2) :: runs 2 4)

theorem secondSpelling_reached :
    Reaches (server devConfig) throughHandlers twoCandidates.start secondSpelling :=
  reaches_after (by decide +kernel)

theorem one_vote_per_person_second_spelling :
    secondSpelling.world.db.votes.length = 1 ∧
      (∀ v ∈ secondSpelling.world.db.votes, ∃ address, SubmittedAs secondSpelling v address) ∧
        (secondSpelling.world.db.votes.Pairwise fun v v' =>
          v.voterFingerprint ≠ v'.voterFingerprint ∧
            ∀ a b, SubmittedAs secondSpelling v a → SubmittedAs secondSpelling v' b → ¬ Alias a b) ∧
          ∀ a b, Alias a b →
            (∃ email, ∀ ev ∈ secondSpelling.log,
              SentFor secondSpelling ev a ∨ SentFor secondSpelling ev b →
                ∀ e, ∀ key ∈ codeKeys e, Touches key ev.cmd → e = email) ∧
              (Bindable devConfig a → Bindable devConfig b →
                (∀ ip fp token id, program devConfig (.requestOTP ip (.ok ⟨a, fp, token, id⟩)) =
                  program devConfig (.requestOTP ip (.ok ⟨b, fp, token, id⟩))) ∧
                  ∀ ip userAgent otp,
                    program devConfig (.verifyVote ip userAgent (.ok ⟨a, otp⟩)) =
                      program devConfig (.verifyVote ip userAgent (.ok ⟨b, otp⟩))) :=
  ⟨by decide +kernel, one_vote_per_person lowers_char_toLower secondSpelling_reached⟩

end Aliases
