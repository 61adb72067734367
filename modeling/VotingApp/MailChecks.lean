import VotingApp.Lib.Credentials
import VotingApp.ClosedVoting
import VotingApp.PublicRoutes
import VotingApp.AddressGrammar
import VotingApp.EarlyAnswers

/-!
What stands before a mail. RequestOTP makes all of its checks, and stores the code, before it hands
a mail to the queue.
-/
namespace MailChecks
open GoText GoTime Tables EffectProgram CallPool PoolHistory VotingWorld
open OtpService VotingSettings VoteService CustomDomains Handlers VotingServer
open Footprints Frames PayloadReads PublicRoutes AddressGrammar EarlyAnswers
open ClosedVoting (opened_in_time)
open Credentials (request_of_step)

/-- A call has seen these settings, in the cache or in the row. -/
def Saw (v : Settings) (past : History) : Prop := ∃ x ∈ past, Shows v x

/-- It has seen settings that were open, and not past their end at a time that it read. -/
def SawOpen (past : History) : Prop := ∃ v, Saw v past ∧ v.isOpen = true ∧
  ∀ t ∈ v.endsAt, ∃ now : Nat, (⟨.now, now⟩ : Exchange Cmd Reply) ∈ past ∧ now ≤ t

/-- The domain was a built-in one while those counted, or it was found among the custom ones. -/
def SawDomain (cfg : Config) (email : Str) (past : History) : Prop :=
  (isEmailDomainAllowed cfg email = true ∧ ∃ v, Saw v past ∧ v.customDomainsOnly = false) ∨
    ∃ front domain, cutLast '@' email = some (front, domain) ∧
      ((⟨.redis (.sismember customDomainsRedisKey ((toLower cfg domain).map cfg.lowerRune)), .ok true⟩ :
        Exchange Cmd Reply) ∈ past ∨
      ∃ n : Int, 0 < n ∧ (⟨.sql (.countDomain ((toLower cfg domain).map cfg.lowerRune)), .ok n⟩ :
        Exchange Cmd Reply) ∈ past)

/-- What RequestOTP has checked when it prepares a code. -/
structure Checked (cfg : Config) (ip : Str) (asked : RequestOTPRequest) (past : History) : Prop where
  rate : ∃ r : Except GoErr Int, (⟨.redis (.incr (rateLimitKey ip)), r⟩ : Exchange Cmd Reply) ∈ past ∧
    ∀ n, r = .ok n → n ≤ cfg.rateLimitMax
  opened : SawOpen past
  domain : SawDomain cfg (normalizeEmail cfg asked.email) past
  human : cfg.turnstileSecret = [] ∨
    (⟨.siteverify asked.captchaToken ip, .answered true⟩ : Exchange Cmd Reply) ∈ past

/-- What PrepareOTPRequest has found when it fetches the candidate. -/
structure Unvoted (email fingerprint ip : Str) (past : History) : Prop where
  byEmail : ∃ n : Int, n ≤ 0 ∧ (⟨.sql (.countVotesByEmail email), .ok n⟩ : Exchange Cmd Reply) ∈ past
  byFingerprint : ∃ n : Int, n ≤ 0 ∧
    (⟨.sql (.countVotesByFingerprint fingerprint), .ok n⟩ : Exchange Cmd Reply) ∈ past
  byIP : ip = [] ∨ ∃ n : Int, n < maxVotesPerIP ∧
    (⟨.sql (.countVotesByIP ip), .ok n⟩ : Exchange Cmd Reply) ∈ past

/-- The mail names the candidate that the record is for, and carries the code of the record, which has
just been stored for an email that is not blocked. -/
def Stored (email fingerprint : Str) (id : Int) (past : History) (subject body : Str) : Prop :=
  ∃ n name rest, past = ⟨.redis (.set (otpKey email) (otpRecord (otpCode n) id fingerprint) otpTTL), .ok ()⟩ ::
      ⟨.redis (.exists (otpBlockedKey email)), .ok 0⟩ :: ⟨.randInt, .ok n⟩ ::
        ⟨.sql (.candidateName id), .ok name⟩ :: rest ∧
    subject = otpSubject ∧ body = otpBody name (otpCode n)

/-- A mail is handed to the queue only by a request for a code, after all of this. -/
def Justified (cfg : Config) (req : Call) (past : History) (recipient subject body : Str) : Prop :=
  ∃ ip sent asked, req = .requestOTP ip sent ∧ bindBody (RequestOTPRequest.check cfg) sent = .ok asked ∧
    recipient = normalizeEmail cfg asked.email ∧ Checked cfg ip asked past ∧
    Unvoted recipient asked.fingerprint ip past ∧
    Stored recipient asked.fingerprint asked.candidateID past subject body

def JustRule (cfg : Config) (req : Call) (past : History) : Cmd → Prop
  | .enqueue recipient subject body => Justified cfg req past recipient subject body
  | _ => True

def Mailless : Cmd → Prop
  | .enqueue _ _ _ => False
  | _ => True

section Growth
variable {past now : History} (grown : past ⊆ now)
include grown

theorem saw_later {v : Settings} (saw : Saw v past) : Saw v now := by
  obtain ⟨x, member, shows⟩ := saw
  exact ⟨x, grown member, shows⟩

theorem sawOpen_later (saw : SawOpen past) : SawOpen now := by
  obtain ⟨v, seen, opened, in_time⟩ := saw
  refine ⟨v, saw_later grown seen, opened, ?_⟩
  intro t ends
  obtain ⟨clock, read, le⟩ := in_time t ends
  exact ⟨clock, grown read, le⟩

theorem sawDomain_later {cfg : Config} {email : Str} (saw : SawDomain cfg email past) :
    SawDomain cfg email now := by
  rcases saw with ⟨builtin, v, seen, mixed⟩ | ⟨front, domain, parts, member | ⟨n, positive, row⟩⟩
  · exact Or.inl ⟨builtin, v, saw_later grown seen, mixed⟩
  · exact Or.inr ⟨front, domain, parts, Or.inl (grown member)⟩
  · exact Or.inr ⟨front, domain, parts, Or.inr ⟨n, positive, grown row⟩⟩

theorem checked_later {cfg : Config} {ip : Str} {asked : RequestOTPRequest}
    (checked : Checked cfg ip asked past) : Checked cfg ip asked now where
  rate := by
    obtain ⟨r, counted, within⟩ := checked.rate
    exact ⟨r, grown counted, within⟩
  opened := sawOpen_later grown checked.opened
  domain := sawDomain_later grown checked.domain
  human := checked.human.imp_right fun member => grown member

theorem unvoted_later {email fingerprint ip : Str} (unvoted : Unvoted email fingerprint ip past) :
    Unvoted email fingerprint ip now where
  byEmail := by
    obtain ⟨n, none_yet, counted⟩ := unvoted.byEmail
    exact ⟨n, none_yet, grown counted⟩
  byFingerprint := by
    obtain ⟨n, none_yet, counted⟩ := unvoted.byFingerprint
    exact ⟨n, none_yet, grown counted⟩
  byIP := by
    rcases unvoted.byIP with none | ⟨n, below, counted⟩
    · exact Or.inl none
    · exact Or.inr ⟨n, below, grown counted⟩

end Growth

section Checks
variable {cfg : Config} {req : Call} {past : History}

/- A part that sends no mail may send all that it sends. -/
theorem silent_part {α : Type} {p : Act α} {post : History → α → Prop} (silent : p.Issues Mailless)
    (ends : p.Meets (fun _ _ => True) post past) :
    p.Meets (JustRule cfg req) (fun now a => post now a ∧ past ⊆ now) past := by
  have sends : p.Meets (JustRule cfg req) (fun now _ => Grown Mailless past now) past := by
    apply meets_of_issues silent
    intro now c _ mailless
    cases c with
    | enqueue recipient subject body => exact mailless.elim
    | _ => trivial
  apply meets_mono (meets_and ends sends) fun _ _ both => both.2
  rintro now a ⟨ended, added, rfl, -⟩
  exact ⟨ended, List.subset_append_right _ _⟩

theorem payload_mailless : ∀ c, PayloadCmd c → Mailless c := by
  intro c sent
  cases sent <;> trivial

theorem allow_mailless (ip : Str) : (allow cfg ip).Issues Mailless := by
  refine issues_redis trivial ?_
  intro count
  cases count with
  | error err => trivial
  | ok count =>
    dsimp only
    split
    · exact issues_redis trivial fun _ => trivial
    · trivial

theorem allow_sees (ip : Str) : (allow cfg ip).Meets (fun _ _ => True)
    (fun now r => r ≠ .ok false → ∃ r, (⟨.redis (.incr (rateLimitKey ip)), r⟩ : Exchange Cmd Reply) ∈ now ∧
      ∀ n, r = .ok n → n ≤ cfg.rateLimitMax) past := by
  refine meets_redis trivial ?_
  intro count
  cases count with
  | error err => exact fun _ => ⟨.error err, List.mem_cons_self, fun n other => by cases other⟩
  | ok count =>
    have within : decide (count ≤ cfg.rateLimitMax) ≠ false → ∀ n, (.ok count : Except GoErr Int) = .ok n →
        n ≤ cfg.rateLimitMax := by
      intro passes n same
      cases same
      simpa using passes
    dsimp only
    split
    · refine meets_redis trivial fun _ passes => ?_
      exact ⟨.ok count, by simp, within fun same => passes (by rw [same])⟩
    · exact fun passes => ⟨.ok count, by simp, within fun same => passes (by rw [same])⟩

theorem isVotingOpen_sees : VotingSettings.isVotingOpen.Meets (fun _ _ => True)
    (fun now r => r = .ok true → SawOpen now) past := by
  apply meets_mono (isVotingOpen_looks (fun _ _ _ => trivial) past) fun _ _ allowed => allowed
  rintro now r ⟨first, v, clock, rfl, look, both, judged⟩ rfl
  cases v with
  | none => cases both
  | some v =>
    have seen : Saw v (clock ++ (first ++ past)) := saw_later (by simp) (look_shows look)
    rcases judged with ⟨t, rfl, opened⟩ | ⟨rfl, always⟩
    · obtain ⟨is_open, in_time⟩ := opened_in_time opened.symm
      exact ⟨v, seen, is_open, fun endsAt ends => ⟨t, List.mem_cons_self, in_time endsAt ends⟩⟩
    · refine ⟨v, seen, (opened_in_time (always 0).symm).1, ?_⟩
      -- Open at any time means that there is no end.
      intro endsAt ends
      have past_end := (opened_in_time (always (endsAt + 1)).symm).2 endsAt ends
      omega

theorem isDomainAllowed_mailless (lowerRune : Char → Char) (domain : Str) :
    (CustomDomains.isDomainAllowed lowerRune domain).Issues Mailless := by
  have fallBack : (fallBackToDB (domain.map lowerRune)).Issues Mailless := by
    refine issues_sql trivial ?_
    intro count
    cases count with
    | error err => trivial
    | ok count => exact issues_issue trivial fun _ => trivial
  refine issues_redis trivial ?_
  intro warmed
  cases warmed with
  | error err => exact fallBack
  | ok warmed =>
    dsimp only
    split
    · exact fallBack
    · exact ⟨trivial, fun _ => trivial⟩

theorem isEmailAllowed_mailless (email : Str) : (isEmailAllowed cfg email).Issues Mailless := by
  have customOnly : getCustomDomainsOnly.Issues Mailless := by
    apply issues_bind (issues_mono getStatus_issues fun c sent => by cases sent <;> trivial)
    intro status
    cases status <;> trivial
  apply issues_bind customOnly
  intro only
  cases only with
  | error err => trivial
  | ok only =>
    dsimp only
    split
    · trivial
    · split
      · trivial
      · exact isDomainAllowed_mailless _ _

theorem isDomainAllowed_sees (lowerRune : Char → Char) (domain : Str) :
    (CustomDomains.isDomainAllowed lowerRune domain).Meets (fun _ _ => True)
      (fun now r => r = .ok true →
        (⟨.redis (.sismember customDomainsRedisKey (domain.map lowerRune)), .ok true⟩ :
          Exchange Cmd Reply) ∈ now ∨ ∃ n : Int, 0 < n ∧
            (⟨.sql (.countDomain (domain.map lowerRune)), .ok n⟩ : Exchange Cmd Reply) ∈ now) past := by
  have fallBack : ∀ past, (fallBackToDB (domain.map lowerRune)).Meets (fun _ _ => True)
      (fun now r => r = .ok true → ∃ n : Int, 0 < n ∧
        (⟨.sql (.countDomain (domain.map lowerRune)), .ok n⟩ : Exchange Cmd Reply) ∈ now) past := by
    intro past
    refine meets_sql trivial ?_
    intro count
    cases count with
    | error err => exact fun other => by cases other
    | ok count =>
      refine meets_issue trivial fun _ allowed => ⟨count, ?_, by simp⟩
      simpa using allowed
  refine meets_redis trivial ?_
  intro warmed
  cases warmed with
  | error err => exact meets_mono (fallBack _) (fun _ _ h => h) fun _ _ found allowed => Or.inr (found allowed)
  | ok warmed =>
    dsimp only
    split
    · exact meets_mono (fallBack _) (fun _ _ h => h) fun _ _ found allowed => Or.inr (found allowed)
    · refine ⟨trivial, ?_⟩
      intro r allowed
      have member : r = .ok true := allowed
      rw [member]
      exact Or.inl List.mem_cons_self

theorem isEmailAllowed_sees (email : Str) : (isEmailAllowed cfg email).Meets (fun _ _ => True)
    (fun now r => r = .ok true → SawDomain cfg email now) past := by
  have customOnly : getCustomDomainsOnly.Meets (fun _ _ => True) (fun now r => ∀ only, r = .ok only →
      ∃ v, Saw v now ∧ v.customDomainsOnly = only) past := by
    apply meets_bind (getStatus_looks (fun _ _ _ => trivial) past)
    rintro now status ⟨first, rfl, look⟩
    cases status with
    | error err => exact fun only other => by cases other
    | ok v =>
      intro only same
      cases same
      exact ⟨v, saw_later (by simp) (look_shows look), rfl⟩
  apply meets_bind customOnly
  intro now only seen
  cases only with
  | error err => exact fun other => by cases other
  | ok only =>
    dsimp only
    split
    · rename_i builtin
      rw [Bool.and_eq_true, Bool.not_eq_true'] at builtin
      obtain ⟨v, saw, is_only⟩ := seen only rfl
      exact fun _ => Or.inl ⟨builtin.2, v, saw, by rw [is_only, builtin.1]⟩
    · split
      · exact fun other => by cases other
      · rename_i front domain parts
        apply meets_mono (isDomainAllowed_sees _ _) fun _ _ h => h
        exact fun now r found allowed => Or.inr ⟨front, domain, parts, found allowed⟩

theorem captcha_mailless (token ip : Str) : (captchaVerify cfg token ip).Issues Mailless := by
  unfold captchaVerify
  split
  · trivial
  · refine issues_issue trivial ?_
    intro verdict
    cases verdict <;> trivial

theorem captcha_sees (token ip : Str) : (captchaVerify cfg token ip).Meets (fun _ _ => True)
    (fun now r => r = .ok true → cfg.turnstileSecret = [] ∨
      (⟨.siteverify token ip, .answered true⟩ : Exchange Cmd Reply) ∈ now) past := by
  unfold captchaVerify
  split
  · rename_i no_secret
    exact fun _ => Or.inl no_secret
  · refine meets_issue trivial ?_
    intro verdict
    cases verdict with
    | failed err => exact fun other => by cases other
    | unreadable err => exact fun other => by cases other
    | answered success =>
      intro human
      cases human
      exact Or.inr List.mem_cons_self

variable {ip : Str} {sent : Except Str RequestOTPRequest} {asked : RequestOTPRequest}

/- The candidate is fetched, and then the code is drawn, stored and mailed. -/
theorem nameAndStore_just (is : req = .requestOTP ip sent)
    (bound : bindBody (RequestOTPRequest.check cfg) sent = .ok asked)
    (checked : Checked cfg ip asked past)
    (unvoted : Unvoted (normalizeEmail cfg asked.email) asked.fingerprint ip past) :
    (nameAndStore (normalizeEmail cfg asked.email) asked.fingerprint asked.candidateID).Meets
      (JustRule cfg req) (fun _ _ => True) past := by
  refine meets_sql trivial ?_
  intro found
  cases found with
  | error err => trivial
  | ok name =>
    refine meets_issue trivial ?_
    intro drawn
    cases drawn with
    | error err => trivial
    | ok n =>
      refine ⟨trivial, ?_⟩
      intro blocked
      cases blocked with
      | error err => trivial
      | ok count =>
        cases count with
        | succ more => trivial
        | zero =>
          refine ⟨trivial, ?_⟩
          intro stored
          cases stored with
          | error err => trivial
          | ok done =>
            refine ⟨?_, ?_⟩
            · exact ⟨ip, sent, asked, is, bound, rfl, checked_later (List.subset_append_right [_, _, _, _] past)
                checked, unvoted_later (List.subset_append_right [_, _, _, _] past) unvoted,
                n, name, past, rfl, rfl, rfl⟩
            · intro answer
              cases answer with
              | none => trivial
              | some err => exact ⟨trivial, fun _ => trivial⟩

theorem prepareOTPRequest_just (is : req = .requestOTP ip sent)
    (bound : bindBody (RequestOTPRequest.check cfg) sent = .ok asked)
    (checked : Checked cfg ip asked past) :
    (prepareOTPRequest (normalizeEmail cfg asked.email) asked.fingerprint ip asked.candidateID).Meets
      (JustRule cfg req) (fun _ _ => True) past := by
  refine meets_sql trivial ?_
  intro byEmail
  cases byEmail with
  | error err => trivial
  | ok byEmail =>
    dsimp only
    split
    · trivial
    · rename_i no_email
      refine meets_sql trivial ?_
      intro byFingerprint
      cases byFingerprint with
      | error err => trivial
      | ok byFingerprint =>
        dsimp only
        split
        · trivial
        · rename_i no_fingerprint
          split
          · rename_i no_ip
            apply nameAndStore_just is bound (checked_later (List.subset_append_right [_, _] past) checked)
            exact ⟨⟨byEmail, Int.not_lt.mp no_email, by simp⟩,
              ⟨byFingerprint, Int.not_lt.mp no_fingerprint, by simp⟩, Or.inl no_ip⟩
          · refine meets_sql trivial ?_
            intro count
            cases count with
            | error err => trivial
            | ok count =>
              dsimp only
              split
              · trivial
              · rename_i below
                apply nameAndStore_just is bound
                  (checked_later (List.subset_append_right [_, _, _] past) checked)
                exact ⟨⟨byEmail, Int.not_lt.mp no_email, by simp⟩,
                  ⟨byFingerprint, Int.not_lt.mp no_fingerprint, by simp⟩,
                  Or.inr ⟨count, Int.not_le.mp below, by simp⟩⟩

theorem requestOTP_just (is : req = .requestOTP ip sent) :
    (Handlers.requestOTP cfg ip sent).Meets (JustRule cfg req) (fun _ _ => True) [] := by
  have guarded : ∀ past, (∃ r : Except GoErr Int, (⟨.redis (.incr (rateLimitKey ip)), r⟩ :
      Exchange Cmd Reply) ∈ past ∧ ∀ n, r = .ok n → n ≤ cfg.rateLimitMax) →
      (requestOTPGuarded cfg ip sent).Meets (JustRule cfg req) (fun _ _ => True) past := by
    rintro past ⟨r, counted, within⟩
    apply meets_bind (silent_part (issues_mono isVotingOpen_issues payload_mailless) isVotingOpen_sees)
    rintro past₁ opened ⟨saw_open, sub₁⟩
    rcases opened with err | _ | _
    · trivial
    · trivial
    · dsimp only
      cases bound : bindBody (RequestOTPRequest.check cfg) sent with
      | error details => trivial
      | ok asked =>
        apply meets_bind (silent_part (isEmailAllowed_mailless _) (isEmailAllowed_sees _))
        rintro past₂ allowed ⟨saw_domain, sub₂⟩
        rcases allowed with err | _ | _
        · trivial
        · trivial
        · apply meets_bind (silent_part (captcha_mailless _ _) (captcha_sees _ _))
          rintro past₃ human ⟨saw_human, sub₃⟩
          rcases human with err | _ | _
          · trivial
          · trivial
          · have checked : Checked cfg ip asked past₃ :=
              ⟨⟨r, sub₃ (sub₂ (sub₁ counted)), within⟩,
                sawOpen_later (List.Subset.trans sub₂ sub₃) (saw_open rfl),
                sawDomain_later sub₃ (saw_domain rfl), saw_human rfl⟩
            apply meets_bind (prepareOTPRequest_just is bound checked)
            exact fun _ _ _ => trivial
  apply meets_bind (silent_part (allow_mailless ip) (allow_sees ip))
  rintro past allowed ⟨counted, -⟩
  rcases allowed with err | _ | _
  · exact guarded past (counted (by simp))
  · trivial
  · exact guarded past (counted (by simp))

/- No other route sends a mail. -/
theorem program_just (is_published : published req = true) :
    (VotingServer.program cfg req).Meets (JustRule cfg req) (fun _ _ => True) [] := by
  cases asks : asksCode cfg req with
  | none =>
    have other := program_keeps (mails_respected cfg req) [] trivial
    apply meets_mono other ?_ fun _ _ _ => trivial
    intro now c rule
    cases c with
    | enqueue recipient subject body =>
      obtain ⟨fp, id, asked⟩ := rule
      rw [asks] at asked
      cases asked
    | _ => trivial
  | some asked =>
    cases is : req with
    | requestOTP ip sent =>
      apply meets_bind (requestOTP_just rfl)
      exact fun _ _ _ => trivial
    | generateAndStore email fp id name =>
      rw [is] at is_published
      cases is_published
    | _ =>
      rw [is] at asks
      cases asks

end Checks

/-- The queue has taken the mail of the record that was just stored. -/
def Mailed (email fp : Str) (id : Int) (now : History) : Prop := ∃ subject body past,
  now = ⟨.enqueue email subject body, none⟩ :: past ∧ Stored email fp id past subject body

section Answers
variable {past : History}

theorem nameAndStore_mails (email fp : Str) (id : Int) :
    (nameAndStore email fp id).Meets (fun _ _ => True)
      (fun now err => err = none → Mailed email fp id now) past := by
  refine meets_sql trivial ?_
  intro found
  cases found with
  | error err => exact fun other => by cases other
  | ok name =>
    refine meets_issue trivial ?_
    intro drawn
    cases drawn with
    | error err => exact fun other => by cases other
    | ok n =>
      refine ⟨trivial, ?_⟩
      intro blocked
      cases blocked with
      | error err => exact fun other => by cases other
      | ok count =>
        cases count with
        | succ more => exact fun other => by cases other
        | zero =>
          refine ⟨trivial, ?_⟩
          intro stored
          cases stored with
          | error err => exact fun other => by cases other
          | ok done =>
            refine ⟨trivial, ?_⟩
            intro answer
            cases answer with
            | none => exact fun _ => ⟨_, _, _, rfl, n, name, past, rfl, rfl, rfl⟩
            | some err => exact ⟨trivial, fun _ other => by cases other⟩

theorem prepareOTPRequest_mails (email fp ip : Str) (id : Int) :
    (prepareOTPRequest email fp ip id).Meets (fun _ _ => True)
      (fun now err => err = none → Mailed email fp id now) past := by
  refine meets_sql trivial ?_
  intro byEmail
  cases byEmail with
  | error err => exact fun other => by cases other
  | ok byEmail =>
    dsimp only
    split
    · exact fun other => by cases other
    · refine meets_sql trivial ?_
      intro byFingerprint
      cases byFingerprint with
      | error err => exact fun other => by cases other
      | ok byFingerprint =>
        dsimp only
        split
        · exact fun other => by cases other
        · split
          · exact nameAndStore_mails email fp id
          · refine meets_sql trivial ?_
            intro count
            cases count with
            | error err => exact fun other => by cases other
            | ok count =>
              dsimp only
              split
              · exact fun other => by cases other
              · exact nameAndStore_mails email fp id

/- RequestOTP answers 200 only after the queue has taken its mail. -/
theorem requestOTP_mails (cfg : Config) (ip : Str) (body : Except Str RequestOTPRequest) :
    (Handlers.requestOTP cfg ip body).Meets (fun _ _ => True)
      (fun now r => r.status = 200 → ∃ asked, bindBody (RequestOTPRequest.check cfg) body = .ok asked ∧
        Mailed (normalizeEmail cfg asked.email) asked.fingerprint asked.candidateID now) [] := by
  apply requestOTP_meets
  · exact fun past r early ok => absurd ok (early_other early (by decide))
  · intro asked bound now
    apply meets_mono (prepareOTPRequest_mails _ _ _ _) fun _ _ allowed => allowed
    exact fun now err mails ok => ⟨asked, bound, mails ((answerPrepared_ok err).mp ok)⟩

end Answers

/-- The routes are called, and the cache is warmed. -/
def routesOnly (_ : State) : Move → Bool
  | .start req => published req
  | _ => true

theorem routes_of_run {cfg : Config} {seed : Seed} {s : State}
    (run : Reaches (server cfg) routesOnly seed.start s) : ∀ job ∈ s.jobs, published job.req = true := by
  refine reaches_inv (I := fun s => ∀ job ∈ s.jobs, published job.req = true) ?_ ?_ run
  · intro job member
    cases member
  · intro s l s' held allowed step job member
    rcases request_of_step step member with ⟨old, in_old, same⟩ | started | ⟨c, begun⟩
    · rw [← same]
      exact held old in_old
    · rw [started] at allowed
      exact allowed
    · cases c with
      | goWarmCache =>
        rw [List.mem_singleton.mp begun]
        rfl
      | _ => cases begun

/- Whatever is called and however the calls are interleaved: a mail is handed to the queue only by a
request for a code that has passed every check, for the candidate and with the code of the record that
the same request has just stored. -/
theorem mail_justified (cfg : Config) (seed : Seed) {s : State}
    (run : Reaches (server cfg) routesOnly seed.start s) {newer older : Log} {ev : LogEntry}
    (split : s.log = newer ++ ev :: older) {recipient subject body : Str}
    (mails : ev.cmd = .enqueue recipient subject body) :
    ∃ job, s.jobs[ev.caller]? = some job ∧
      Justified cfg job.req (own ev.caller older) recipient subject body := by
  have rules : ∀ req, (VotingServer.program cfg req).Meets
      (fun past c => published req = true → JustRule cfg req past c) (fun _ _ => True) [] := by
    intro req
    cases is_published : published req with
    | true => exact meets_mono (program_just is_published) (fun _ _ rule _ => rule) fun _ _ _ => trivial
    | false => exact meets_trivial (fun _ _ other => by cases other) _
  obtain ⟨job, at_job, rule⟩ := contract_of_logged rules rfl rfl run split
  have justified := rule (routes_of_run run job (List.mem_of_getElem? at_job))
  rw [mails] at justified
  exact ⟨job, at_job, justified⟩

/-- A request that has just mailed its code. -/
def mailing : State := after (server devConfig) routesOnly twoCandidates.start
  (.start (requestFrom "10.0.0.1" "Ann.Lee@gmail.com" "device" 1) :: runs 0 14)

def mailOf (ev : LogEntry) : Option Mail :=
  match ev.cmd with
  | .enqueue recipient subject body => some ⟨recipient, subject, body⟩
  | _ => none

theorem mailing_justified : ∃ (job : Job Cmd Reply Call Answer) (ev : LogEntry) (older : Log),
    mailing.log = ev :: older ∧ Justified devConfig job.req (own ev.caller older) "annlee@gmail.com".toList otpSubject
      (otpBody "Ann".toList (otpCode 0)) := by
  have run : Reaches (server devConfig) routesOnly twoCandidates.start mailing :=
    reaches_after (by decide +kernel)
  have mailed : (mailing.log.head?.bind mailOf) =
      some ⟨"annlee@gmail.com".toList, otpSubject, otpBody "Ann".toList (otpCode 0)⟩ := by decide +kernel
  cases logged : mailing.log with
  | nil =>
    rw [logged] at mailed
    cases mailed
  | cons ev older =>
    rw [logged] at mailed
    have split : mailing.log = [] ++ ev :: older := logged
    have mails : ev.cmd =
        .enqueue "annlee@gmail.com".toList otpSubject (otpBody "Ann".toList (otpCode 0)) := by
      have sent : mailOf ev = _ := mailed
      unfold mailOf at sent
      split at sent
      · rename_i is
        cases sent
        exact is
      · cases sent
    obtain ⟨job, -, justified⟩ := mail_justified devConfig twoCandidates run split mails
    exact ⟨job, ev, older, rfl, justified⟩

end MailChecks
