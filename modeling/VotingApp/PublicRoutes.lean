import VotingApp.AdminServer

/-!
What anyone can call. The routes that router.Setup serves without JWTAuth change votes and Redis,
and nothing that is for an admin to change.
-/
namespace PublicRoutes
open GoText Tables EffectProgram VotingWorld
open OtpService VotingSettings VoteService CustomDomains Handlers VotingServer Footprints

/-- The statements that change candidates, settings or domains. -/
def guarded : Cmd → Bool
  | .sql (.insertCandidate _ _ _) => true
  | .sql (.updateCandidate _ _ _ _) => true
  | .sql (.deleteCandidate _) => true
  | .sql (.updateSettings _ _) => true
  | .sql (.updateCustomDomainsOnly _) => true
  | .sql (.insertDomain _) => true
  | .sql (.deleteDomain _) => true
  | _ => false

/-- The routes of router.Setup, and the warming of the cache that they start. -/
def published : Call → Bool
  | .getStatus => false
  | .isVotingOpen => false
  | .updateSettings _ _ => false
  | .updateCustomDomainsOnly _ => false
  | .generateAndStore _ _ _ _ => false
  | .verify _ _ => false
  | .verifyAndVote _ _ _ _ => false
  | .insertDomain _ => false
  | .deleteDomainRow _ => false
  | .isDomainAllowed _ => false
  | _ => true

def Harmless (c : Cmd) : Prop := guarded c = false

theorem status_harmless : ∀ c, StatusCmd c → Harmless c := by
  intro c sent
  cases sent <;> rfl

theorem payload_harmless : ∀ c, PayloadCmd c → Harmless c := by
  intro c sent
  cases sent <;> rfl

theorem vote_harmless (email : Str) : ∀ c, VoteCmd email c → Harmless c := by
  intro c sent
  cases sent <;> rfl

theorem generate_harmless (email : Str) : ∀ c, GenerateCmd email c → Harmless c := by
  intro c sent
  cases sent <;> rfl

theorem isVotingOpen_harmless : VotingSettings.isVotingOpen.Issues Harmless :=
  issues_mono isVotingOpen_issues payload_harmless

theorem getStatus_harmless : VotingSettings.getStatus.Issues Harmless :=
  issues_mono getStatus_issues status_harmless

theorem warmCache_harmless : CustomDomains.warmCache.Issues Harmless := by
  refine issues_sql rfl ?_
  intro domains
  cases domains with
  | error err => trivial
  | ok domains =>
    refine issues_redis rfl ?_
    intro deleted
    split
    · exact issues_redis rfl fun _ => trivial
    · exact issues_redis rfl fun _ => issues_redis rfl fun _ => trivial

theorem allow_harmless (cfg : Config) (ip : Str) : (allow cfg ip).Issues Harmless := by
  refine issues_redis rfl ?_
  intro count
  cases count with
  | error err => trivial
  | ok count =>
    dsimp only
    split
    · exact issues_redis rfl fun _ => trivial
    · trivial

theorem captchaVerify_harmless (cfg : Config) (token ip : Str) :
    (captchaVerify cfg token ip).Issues Harmless := by
  unfold captchaVerify
  split
  · trivial
  · refine issues_issue rfl ?_
    intro verdict
    cases verdict <;> trivial

theorem fallBackToDB_harmless (domain : Str) : (fallBackToDB domain).Issues Harmless := by
  have answered : (isDomainAllowedFromDB domain).Issues Harmless := by
    refine issues_sql rfl ?_
    intro count
    cases count <;> trivial
  apply issues_bind answered
  intro allowed
  cases allowed with
  | error err => trivial
  | ok allowed => exact issues_issue rfl fun _ => trivial

theorem isDomainAllowed_harmless (lowerRune : Char → Char) (domain : Str) :
    (CustomDomains.isDomainAllowed lowerRune domain).Issues Harmless := by
  refine issues_redis rfl ?_
  intro warmed
  cases warmed with
  | error err => exact fallBackToDB_harmless _
  | ok warmed =>
    dsimp only
    split
    · exact fallBackToDB_harmless _
    · exact ⟨rfl, fun _ => trivial⟩

theorem isEmailAllowed_harmless (cfg : Config) (email : Str) :
    (isEmailAllowed cfg email).Issues Harmless := by
  have customOnly : getCustomDomainsOnly.Issues Harmless := by
    apply issues_bind getStatus_harmless
    intro status
    cases status <;> trivial
  apply issues_bind customOnly
  intro only
  cases only with
  | error err => trivial
  | ok only =>
    dsimp only
    split
    · trivial
    · split
      · trivial
      · exact isDomainAllowed_harmless _ _

theorem nameAndStore_harmless (email fp : Str) (id : Int) : (nameAndStore email fp id).Issues Harmless := by
  refine issues_sql rfl ?_
  intro name
  cases name with
  | error err => trivial
  | ok name => exact issues_mono (generateAndStore_issues email fp id name) (generate_harmless email)

theorem prepareOTPRequest_harmless (email fp ip : Str) (id : Int) :
    (prepareOTPRequest email fp ip id).Issues Harmless := by
  refine issues_sql rfl ?_
  intro byEmail
  cases byEmail with
  | error err => trivial
  | ok byEmail =>
    dsimp only
    split
    · trivial
    · refine issues_sql rfl ?_
      intro byFingerprint
      cases byFingerprint with
      | error err => trivial
      | ok byFingerprint =>
        dsimp only
        split
        · trivial
        · split
          · exact nameAndStore_harmless _ _ _
          · refine issues_sql rfl ?_
            intro count
            cases count with
            | error err => trivial
            | ok count =>
              dsimp only
              split
              · trivial
              · exact nameAndStore_harmless _ _ _

/- A program of which every part is harmless keeps nothing but that. -/
theorem keeps_harmless {α : Type} {p : Act α} (uses : p.Issues Harmless) :
    p.Keeps (fun _ c => Harmless c) fun _ => True :=
  keeps_of_issues uses fun _ harmless _ _ => ⟨harmless, fun _ => trivial⟩

theorem issues_of_keeps {α : Type} {p : Act α} {past : History}
    (keeps : p.Meets (fun _ c => Harmless c) (fun _ _ => True) past) : p.Issues Harmless := by
  induction p generalizing past with
  | done a => trivial
  | call c next ih => exact ⟨keeps.1, fun r => ih r (keeps.2 r)⟩

theorem requestOTP_harmless (cfg : Config) (ip : Str) (body : Except Str RequestOTPRequest) :
    (Handlers.requestOTP cfg ip body).Issues Harmless := by
  have keeps : (Handlers.requestOTP cfg ip body).Keeps (fun _ c => Harmless c) fun _ => True :=
    requestOTP_parts (keeps_harmless (allow_harmless cfg ip)) (keeps_harmless isVotingOpen_harmless)
      (fun email => keeps_harmless (isEmailAllowed_harmless cfg email))
      (fun token => keeps_harmless (captchaVerify_harmless cfg token ip))
      fun _ _ => keeps_harmless (prepareOTPRequest_harmless _ _ _ _)
  exact issues_of_keeps (keeps [] trivial)

theorem verifyVote_harmless (cfg : Config) (ip userAgent : Str) (body : Except Str VerifyVoteRequest) :
    (Handlers.verifyVote cfg ip userAgent body).Issues Harmless := by
  apply issues_bind isVotingOpen_harmless
  intro opened
  cases opened with
  | error err => trivial
  | ok opened =>
    cases opened with
    | false => trivial
    | true =>
      dsimp only
      split
      · trivial
      · apply issues_bind (issues_mono (verifyAndVote_issues _ _ _ _) (vote_harmless _))
        exact fun _ => trivial

theorem serveWS_harmless : Handlers.serveWS.Issues Harmless := by
  refine issues_issue rfl ?_
  intro client
  apply issues_bind (issues_mono buildWSPayload_issues payload_harmless)
  intro msg
  cases msg with
  | error err => exact ⟨rfl, fun _ => trivial⟩
  | ok msg =>
    dsimp only
    split
    · exact ⟨rfl, fun _ => trivial⟩
    · exact issues_issue rfl fun _ => ⟨rfl, fun _ => trivial⟩

theorem getVotingStatus_harmless : Handlers.getVotingStatus.Issues Harmless := by
  apply issues_bind getStatus_harmless
  intro status
  cases status with
  | error err => trivial
  | ok s => exact issues_bind isVotingOpen_harmless fun _ => trivial

theorem getCandidates_harmless : Handlers.getCandidates.Issues Harmless := by
  refine issues_sql rfl ?_
  intro board
  cases board <;> trivial

/- No published route that is served without JWTAuth sends a guarded statement. -/
theorem public_harmless (cfg : Config) {req : Call} (is_published : published req = true)
    (is_public : AdminServer.protectedRoute req = false) :
    (VotingServer.program cfg req).Issues Harmless := by
  cases req with
  | requestOTP ip body => exact issues_map _ (requestOTP_harmless cfg ip body)
  | verifyVote ip userAgent body => exact issues_map _ (verifyVote_harmless cfg ip userAgent body)
  | getCandidates => exact issues_map _ getCandidates_harmless
  | getVotingStatus => exact issues_map _ getVotingStatus_harmless
  | serveWS => exact issues_map _ serveWS_harmless
  | warmCache => exact issues_map _ warmCache_harmless
  | getStatus => cases is_published
  | isVotingOpen => cases is_published
  | updateSettings isOpen endsAt => cases is_published
  | updateCustomDomainsOnly value => cases is_published
  | generateAndStore email fingerprint id name => cases is_published
  | verify email otp => cases is_published
  | verifyAndVote email otp ip userAgent => cases is_published
  | insertDomain domain => cases is_published
  | deleteDomainRow id => cases is_published
  | isDomainAllowed domain => cases is_published
  | _ => cases is_public

end PublicRoutes
