import VotingApp.Server

/-!
The commands each function can send, and one rule for the whole server: what the
transactions respect and single commands never disturb, every call respects.
-/
namespace Footprints
open GoText GoTime Tables EffectProgram CallPool VotingWorld
open OtpService VotingSettings VoteService CustomDomains Handlers VotingServer

inductive StatusCmd : Cmd → Prop where
  | get : StatusCmd (.redis (.get votingSettingsRedisKey))
  | select : StatusCmd (.sql .getSettings)
  | set (raw : Str) : StatusCmd (.redis (.set votingSettingsRedisKey raw 0))

inductive PayloadCmd : Cmd → Prop where
  | get : PayloadCmd (.redis (.get votingSettingsRedisKey))
  | select : PayloadCmd (.sql .getSettings)
  | set (raw : Str) : PayloadCmd (.redis (.set votingSettingsRedisKey raw 0))
  | now : PayloadCmd .now
  | board : PayloadCmd (.sql .getAllWithVotes)

inductive BroadcastCmd : Cmd → Prop where
  | get : BroadcastCmd (.redis (.get votingSettingsRedisKey))
  | select : BroadcastCmd (.sql .getSettings)
  | set (raw : Str) : BroadcastCmd (.redis (.set votingSettingsRedisKey raw 0))
  | now : BroadcastCmd .now
  | board : BroadcastCmd (.sql .getAllWithVotes)
  | send (data : Str) : BroadcastCmd (.broadcast data)

inductive UpdateCmd : Cmd → Prop where
  | update (isOpen : Bool) (endsAt : Option Nat) : UpdateCmd (.sql (.updateSettings isOpen endsAt))
  | mode (value : Bool) : UpdateCmd (.sql (.updateCustomDomainsOnly value))
  | invalidate : UpdateCmd (.redis (.del [votingSettingsRedisKey]))
  | get : UpdateCmd (.redis (.get votingSettingsRedisKey))
  | select : UpdateCmd (.sql .getSettings)
  | set (raw : Str) : UpdateCmd (.redis (.set votingSettingsRedisKey raw 0))
  | now : UpdateCmd .now
  | board : UpdateCmd (.sql .getAllWithVotes)
  | send (data : Str) : UpdateCmd (.broadcast data)

inductive GenerateCmd (email : Str) : Cmd → Prop where
  | draw : GenerateCmd email .randInt
  | blocked : GenerateCmd email (.redis (.exists (otpBlockedKey email)))
  | store (value : Str) : GenerateCmd email (.redis (.set (otpKey email) value otpTTL))
  | enqueue (subject body : Str) : GenerateCmd email (.enqueue email subject body)
  | withdraw : GenerateCmd email (.redis (.del [otpKey email]))

inductive VerifyCmd (email : Str) : Cmd → Prop where
  | blocked : VerifyCmd email (.redis (.exists (otpBlockedKey email)))
  | read : VerifyCmd email (.redis (.get (otpKey email)))
  | count : VerifyCmd email (.redis (.incr (otpAttemptsKey email)))
  | expire : VerifyCmd email (.redis (.expire (otpAttemptsKey email) otpTTL))
  | block : VerifyCmd email (.redis (.set (otpBlockedKey email) "1".toList otpBlockDuration))
  | clear : VerifyCmd email (.redis (.del [otpKey email, otpAttemptsKey email]))

inductive VoteCmd (email : Str) : Cmd → Prop where
  | blocked : VoteCmd email (.redis (.exists (otpBlockedKey email)))
  | read : VoteCmd email (.redis (.get (otpKey email)))
  | count : VoteCmd email (.redis (.incr (otpAttemptsKey email)))
  | expire : VoteCmd email (.redis (.expire (otpAttemptsKey email) otpTTL))
  | block : VoteCmd email (.redis (.set (otpBlockedKey email) "1".toList otpBlockDuration))
  | clear : VoteCmd email (.redis (.del [otpKey email, otpAttemptsKey email]))
  | insert (fingerprint : Str) (candidateID : Int) (ip userAgent : Str) :
    VoteCmd email (.sql (.insertVote email fingerprint candidateID ip userAgent))
  | get : VoteCmd email (.redis (.get votingSettingsRedisKey))
  | select : VoteCmd email (.sql .getSettings)
  | set (raw : Str) : VoteCmd email (.redis (.set votingSettingsRedisKey raw 0))
  | now : VoteCmd email .now
  | board : VoteCmd email (.sql .getAllWithVotes)
  | send (data : Str) : VoteCmd email (.broadcast data)

inductive DeleteCmd (id : Int) : Cmd → Prop where
  | count : DeleteCmd id (.sql (.countVotesFor id))
  | delete : DeleteCmd id (.sql (.deleteCandidate id))

inductive DomainCmd : Cmd → Prop where
  | snapshot : DomainCmd (.sql .allDomains)
  | insert (domain : Str) : DomainCmd (.sql (.insertDomain domain))
  | find (id : Int) : DomainCmd (.sql (.domainById id))
  | delete (id : Int) : DomainCmd (.sql (.deleteDomain id))
  | add (domains : List Str) : DomainCmd (.redis (.sadd customDomainsRedisKey domains))
  | remove (domain : Str) : DomainCmd (.redis (.srem customDomainsRedisKey domain))
  | drop : DomainCmd (.redis (.del [customDomainsRedisKey]))
  | mark : DomainCmd (.redis (.set customDomainsWarmedRedisKey "1".toList 0))

/-- Commands that are sent outside the transactions above. -/
inductive PlainCmd (req : Call) : Cmd → Prop where
  | votesByEmail (email : Str) : PlainCmd req (.sql (.countVotesByEmail email))
  | votesByFingerprint (fp : Str) : PlainCmd req (.sql (.countVotesByFingerprint fp))
  | votesByIP (ip : Str) : PlainCmd req (.sql (.countVotesByIP ip))
  | candidateName (id : Int) : PlainCmd req (.sql (.candidateName id))
  | insertCandidate (name description path : Str) :
    PlainCmd req (.sql (.insertCandidate name description path))
  | updateCandidate (id : Int) (name description : Str) (path : Option Str) :
    PlainCmd req (.sql (.updateCandidate id name description path))
  | board : PlainCmd req (.sql .getAllWithVotes)
  | listDomains : PlainCmd req (.sql .allDomains)
  | countDomain (domain : Str) : PlainCmd req (.sql (.countDomain domain))
  | warmed : PlainCmd req (.redis (.exists customDomainsWarmedRedisKey))
  | member (domain : Str) : PlainCmd req (.redis (.sismember customDomainsRedisKey domain))
  | rate (ip : Str) : PlainCmd req (.redis (.incr (rateLimitKey ip)))
  | rateWindow (ip : Str) : PlainCmd req (.redis (.expire (rateLimitKey ip) rateLimitWindow))
  | now : PlainCmd req .now
  | siteverify (token ip : Str) : PlainCmd req (.siteverify token ip)
  | register (serves : req = .serveWS) : PlainCmd req .register
  | sendToOne (serves : req = .serveWS) (client : Nat) (data : Str) : PlainCmd req (.sendToOne client data)
  | startPumps (serves : req = .serveWS) (client : Nat) : PlainCmd req (.startPumps client)
  | goWarmCache : PlainCmd req .goWarmCache

theorem status_payload : ∀ c, StatusCmd c → PayloadCmd c
  | _, .get => .get
  | _, .select => .select
  | _, .set raw => .set raw

theorem payload_broadcast : ∀ c, PayloadCmd c → BroadcastCmd c
  | _, .get => .get
  | _, .select => .select
  | _, .set raw => .set raw
  | _, .now => .now
  | _, .board => .board

theorem broadcast_update : ∀ c, BroadcastCmd c → UpdateCmd c
  | _, .get => .get
  | _, .select => .select
  | _, .set raw => .set raw
  | _, .now => .now
  | _, .board => .board
  | _, .send data => .send data

theorem broadcast_vote (email : Str) : ∀ c, BroadcastCmd c → VoteCmd email c
  | _, .get => .get
  | _, .select => .select
  | _, .set raw => .set raw
  | _, .now => .now
  | _, .board => .board
  | _, .send data => .send data

theorem verify_vote (email : Str) : ∀ c, VerifyCmd email c → VoteCmd email c
  | _, .blocked => .blocked
  | _, .read => .read
  | _, .count => .count
  | _, .expire => .expire
  | _, .block => .block
  | _, .clear => .clear

theorem getStatus_issues : getStatus.Issues StatusCmd := by
  refine issues_bind (issues_redis .get fun r => ?_) fun r => ?_
  · cases r <;> trivial
  · cases r with
    | ok cached => trivial
    | error err =>
      refine issues_sql .select fun r => ?_
      cases r with
      | error err => trivial
      | ok s =>
        refine issues_bind ?_ fun _ => trivial
        unfold toRedis
        split
        · trivial
        · refine issues_redis (.set _) fun r => ?_
          cases r <;> trivial

theorem isVotingOpen_issues : isVotingOpen.Issues PayloadCmd := by
  refine issues_bind (issues_mono getStatus_issues status_payload) fun r => ?_
  cases r with
  | error err => trivial
  | ok s =>
    dsimp only
    split
    · cases s.endsAt with
      | none => trivial
      | some endsAt => exact issues_issue .now fun _ => trivial
    · trivial

theorem buildWSPayload_issues : buildWSPayload.Issues PayloadCmd := by
  refine issues_sql .board fun r => ?_
  cases r with
  | error err => trivial
  | ok candidates =>
    refine issues_bind isVotingOpen_issues fun _ => ?_
    exact issues_bind (issues_mono getStatus_issues status_payload) fun _ => trivial

theorem broadcastPayload_issues : broadcastPayload.Issues BroadcastCmd := by
  refine issues_bind (issues_mono buildWSPayload_issues payload_broadcast) fun r => ?_
  cases r with
  | error err => trivial
  | ok data => exact ⟨.send data, fun _ => trivial⟩

theorem updateSettings_issues (isOpen : Bool) (endsAt : Option Nat) :
    (VotingSettings.updateSettings isOpen endsAt).Issues UpdateCmd := by
  refine issues_sql (.update isOpen endsAt) fun r => ?_
  cases r with
  | error err => trivial
  | ok _ =>
    refine issues_redis .invalidate fun _ => ?_
    exact issues_bind (issues_mono broadcastPayload_issues broadcast_update) fun _ => trivial

theorem updateCustomDomainsOnly_issues (value : Bool) :
    (VotingSettings.updateCustomDomainsOnly value).Issues UpdateCmd := by
  refine issues_sql (.mode value) fun r => ?_
  cases r with
  | error err => trivial
  | ok _ => exact issues_redis .invalidate fun _ => trivial

theorem isEmailBlocked_issues {allowed : Cmd → Prop} {email : Str}
    (ok : allowed (.redis (.exists (otpBlockedKey email)))) :
    (isEmailBlocked email).Issues allowed := by
  refine issues_redis ok fun r => ?_
  cases r <;> trivial

theorem generateAndStore_issues (email fp : Str) (id : Int) (name : Str) :
    (OtpService.generateAndStore email fp id name).Issues (GenerateCmd email) := by
  refine issues_issue .draw fun r => ?_
  cases r with
  | error err => trivial
  | ok n =>
    refine issues_bind (isEmailBlocked_issues .blocked) fun r => ?_
    rcases r with err | blocked
    · trivial
    · cases blocked with
      | true => trivial
      | false =>
        refine issues_redis (.store _) fun r => ?_
        cases r with
        | error err => trivial
        | ok _ =>
          refine issues_issue (.enqueue _ _) fun r => ?_
          cases r with
          | none => trivial
          | some err => exact issues_redis .withdraw fun _ => trivial

theorem recordFailure_issues (email : Str) : (recordFailure email).Issues (VerifyCmd email) := by
  have block : (blockEmail email).Issues (VerifyCmd email) :=
    issues_redis .block fun _ => issues_redis .clear fun _ => trivial
  refine issues_redis .count fun r => ?_
  cases r with
  | error err => trivial
  | ok attempts =>
    dsimp only
    split
    · refine issues_redis .expire fun _ => ?_
      split
      · exact block
      · trivial
    · split
      · exact block
      · trivial

theorem rejectGuess_issues (email : Str) : (rejectGuess email).Issues (VerifyCmd email) := by
  refine issues_bind (recordFailure_issues email) fun r => ?_
  cases r <;> trivial

theorem verify_issues (email otp : Str) : (OtpService.verify email otp).Issues (VerifyCmd email) := by
  refine issues_bind (isEmailBlocked_issues .blocked) fun r => ?_
  rcases r with err | blocked
  · trivial
  · cases blocked with
    | true => trivial
    | false =>
      refine issues_redis .read fun r => ?_
      cases r with
      | error err =>
        dsimp only
        split <;> trivial
      | ok stored =>
        dsimp only
        split
        · exact issues_bind (recordFailure_issues email) fun _ => trivial
        · split
          · exact rejectGuess_issues email
          · exact issues_bind (recordFailure_issues email) fun _ => trivial
        · split
          · exact rejectGuess_issues email
          · exact issues_redis .clear fun _ => trivial

theorem verifyAndVote_issues (email otp ip userAgent : Str) :
    (VoteService.verifyAndVote email otp ip userAgent).Issues (VoteCmd email) := by
  refine issues_bind (issues_mono (verify_issues email otp) (verify_vote email)) fun r => ?_
  cases r with
  | error err => trivial
  | ok found =>
    refine issues_sql (.insert _ _ _ _) fun r => ?_
    cases r with
    | error err =>
      dsimp only
      split <;> trivial
    | ok _ =>
      exact issues_bind (issues_mono broadcastPayload_issues (broadcast_vote email)) fun _ => trivial

theorem deleteCandidate_issues (id : Int) :
    (VoteService.deleteCandidate id).Issues (DeleteCmd id) := by
  refine issues_sql .count fun r => ?_
  cases r with
  | error err => trivial
  | ok count =>
    dsimp only
    split
    · trivial
    · refine issues_sql .delete fun r => ?_
      cases r <;> trivial

theorem insert_issues (domain : Str) : (CustomDomains.insert domain).Issues DomainCmd := by
  refine issues_sql (.insert domain) fun r => ?_
  cases r with
  | error err => trivial
  | ok _ => exact issues_redis (.add _) fun _ => trivial

theorem delete_issues (id : Int) : (CustomDomains.delete id).Issues DomainCmd := by
  refine issues_sql (.find id) fun r => ?_
  cases r with
  | error err => trivial
  | ok domain =>
    refine issues_sql (.delete id) fun r => ?_
    cases r with
    | error err => trivial
    | ok rows =>
      dsimp only
      split
      · trivial
      · exact issues_redis (.remove domain) fun _ => trivial

theorem warmCache_issues : CustomDomains.warmCache.Issues DomainCmd := by
  refine issues_sql .snapshot fun r => ?_
  cases r with
  | error err => trivial
  | ok domains =>
    refine issues_redis .drop fun _ => ?_
    split
    · exact issues_redis .mark fun _ => trivial
    · exact issues_redis (.add _) fun _ => issues_redis .mark fun _ => trivial

/-- The normalized email, the fingerprint and the candidate a call asks a code for. -/
def asksCode (cfg : Config) : Call → Option (Str × Str × Int)
  | .requestOTP _ body =>
    match bindBody (RequestOTPRequest.check cfg) body with
    | .ok req => some (normalizeEmail cfg req.email, req.fingerprint, req.candidateID)
    | .error _ => none
  | .generateAndStore email fingerprint id _ => some (email, fingerprint, id)
  | _ => none

structure Presented where
  email : Str
  otp : Str
  ip : Str
  userAgent : Str
  deriving DecidableEq, Repr

/-- The normalized email and the code a call presents in order to vote. -/
def presents (cfg : Config) : Call → Option Presented
  | .verifyVote ip userAgent body =>
    match bindBody (VerifyVoteRequest.check cfg) body with
    | .ok req => some ⟨normalizeEmail cfg req.email, req.otp, ip, userAgent⟩
    | .error _ => none
  | .verifyAndVote email otp ip userAgent => some ⟨email, otp, ip, userAgent⟩
  | _ => none

section Verifying
variable {pre : History → Cmd → Prop} {inv : History → Prop} {email : Str}

theorem rejectGuess_keeps (failure : (recordFailure email).Keeps pre inv) :
    (rejectGuess email).Keeps pre inv := by
  apply keeps_bind failure
  intro r
  cases r with
  | none => exact keeps_done _
  | some blockErr => exact keeps_done _

/- Verify disturbs no more than a recorded failure and its own three commands. -/
theorem verify_keeps (otp : Str) (failure : (recordFailure email).Keeps pre inv)
    (blocked : Neutral pre inv (.redis (.exists (otpBlockedKey email))))
    (read : Neutral pre inv (.redis (.get (otpKey email))))
    (clear : Neutral pre inv (.redis (.del [otpKey email, otpAttemptsKey email]))) :
    (OtpService.verify email otp).Keeps pre inv := by
  have reject := rejectGuess_keeps failure
  have failed : ∀ err, ((recordFailure email >>= fun _ => .done (.error err)) :
      Act (Except GoErr (Str × Int))).Keeps pre inv := by
    intro err
    apply keeps_bind failure
    intro _
    exact keeps_done _
  have checked : (isEmailBlocked email).Keeps pre inv := by
    apply keeps_redis blocked
    intro r
    cases r with
    | error err => exact keeps_done _
    | ok n => exact keeps_done _
  apply keeps_bind checked
  intro isBlocked
  rcases isBlocked with err | isBlocked
  · exact keeps_done _
  · cases isBlocked with
    | true => exact keeps_done _
    | false =>
      apply keeps_redis read
      intro r
      cases r with
      | error err =>
        dsimp only
        split
        · exact keeps_done _
        · exact keeps_done _
      | ok stored =>
        dsimp only
        split
        · exact failed _
        · split
          · exact reject
          · exact failed _
        · split
          · exact reject
          · apply keeps_redis clear
            intro _
            exact keeps_done _

end Verifying

/-- What the transactions of one call respect. Calls are built from these and plain commands. -/
structure Respected (cfg : Config) (req : Call) (pre : History → Cmd → Prop)
    (inv : History → Prop) : Prop where
  plain : ∀ c, PlainCmd req c → Neutral pre inv c
  status : VotingSettings.getStatus.Keeps pre inv
  broadcast : broadcastPayload.Keeps pre inv
  update : ∀ isOpen endsAt, (VotingSettings.updateSettings isOpen endsAt).Keeps pre inv
  mode : ∀ value, (VotingSettings.updateCustomDomainsOnly value).Keeps pre inv
  generate : ∀ email fp id name, asksCode cfg req = some (email, fp, id) →
    (OtpService.generateAndStore email fp id name).Keeps pre inv
  verify : ∀ email otp, req = .verify email otp → (OtpService.verify email otp).Keeps pre inv
  vote : ∀ email otp ip userAgent, presents cfg req = some ⟨email, otp, ip, userAgent⟩ →
    (VoteService.verifyAndVote email otp ip userAgent).Keeps pre inv
  deleteCandidate : ∀ id n, req = .deleteCandidate id → idParam id = some n →
    (VoteService.deleteCandidate n).Keeps pre inv
  insertDomain : ∀ domain, (CustomDomains.insert domain).Keeps pre inv
  deleteDomain : ∀ id, (CustomDomains.delete id).Keeps pre inv
  warmCache : CustomDomains.warmCache.Keeps pre inv

/- RequestOTP keeps what its parts keep. -/
theorem requestOTP_parts {cfg : Config} {pre : History → Cmd → Prop} {inv : History → Prop} {ip : Str}
    {body : Except Str RequestOTPRequest} (limit : (allow cfg ip).Keeps pre inv)
    (guard : VotingSettings.isVotingOpen.Keeps pre inv)
    (domain : ∀ email, (isEmailAllowed cfg email).Keeps pre inv)
    (captcha : ∀ token, (captchaVerify cfg token ip).Keeps pre inv)
    (prepares : ∀ asked, bindBody (RequestOTPRequest.check cfg) body = .ok asked →
      (prepareOTPRequest (normalizeEmail cfg asked.email) asked.fingerprint ip asked.candidateID).Keeps
        pre inv) : (Handlers.requestOTP cfg ip body).Keeps pre inv := by
  have guarded : (requestOTPGuarded cfg ip body).Keeps pre inv := by
    apply keeps_bind guard
    intro opened
    rcases opened with err | opened
    · exact keeps_done _
    · cases opened with
      | false => exact keeps_done _
      | true =>
        dsimp only
        cases bound : bindBody (RequestOTPRequest.check cfg) body with
        | error details => exact keeps_done _
        | ok asked =>
          apply keeps_bind (domain _)
          intro allowed
          rcases allowed with err | allowed
          · exact keeps_done _
          · cases allowed with
            | false => exact keeps_done _
            | true =>
              apply keeps_bind (captcha _)
              intro human
              rcases human with err | human
              · exact keeps_done _
              · cases human with
                | false => exact keeps_done _
                | true =>
                  apply keeps_bind (prepares asked bound)
                  exact fun _ => keeps_done _
  apply keeps_bind limit
  intro allowed
  rcases allowed with err | allowed
  · exact guarded
  · cases allowed with
    | false => exact keeps_done _
    | true => exact guarded

section Calls
variable {cfg : Config} {req : Call} {pre : History → Cmd → Prop} {inv : History → Prop}
  (r : Respected cfg req pre inv)
include r

theorem keeps_plain_sql {c : SqlCmd} (plain : PlainCmd req (.sql c)) {α : Type}
    {next : Except GoErr c.Result → Act α} (rest : ∀ a, (next a).Keeps pre inv) :
    (sql c >>= next).Keeps pre inv :=
  keeps_call (r.plain _ plain) rest

theorem keeps_plain_redis {c : RedisCmd} (plain : PlainCmd req (.redis c)) {α : Type}
    {next : Except GoErr c.Result → Act α} (rest : ∀ a, (next a).Keeps pre inv) :
    (redis c >>= next).Keeps pre inv :=
  keeps_call (r.plain _ plain) rest

theorem keeps_plain {c : Cmd} (plain : PlainCmd req c) {α : Type} {next : Reply c → Act α}
    (rest : ∀ a, (next a).Keeps pre inv) : (issue c >>= next).Keeps pre inv :=
  keeps_call (r.plain _ plain) rest

theorem isVotingOpen_keeps : VotingSettings.isVotingOpen.Keeps pre inv := by
  refine keeps_bind r.status fun status => ?_
  cases status with
  | error err => exact keeps_done _
  | ok s =>
    dsimp only
    split
    · cases s.endsAt with
      | none => exact keeps_done _
      | some endsAt => exact keeps_plain r .now fun _ => keeps_done _
    · exact keeps_done _

theorem isDomainAllowed_keeps (lowerRune : Char → Char) (domain : Str) :
    (CustomDomains.isDomainAllowed lowerRune domain).Keeps pre inv := by
  have fallBack : ∀ d, (fallBackToDB d).Keeps pre inv := by
    intro d
    refine keeps_bind (keeps_plain_sql r (.countDomain d) fun count => ?_) fun allowed => ?_
    · cases count <;> exact keeps_done _
    · cases allowed with
      | error err => exact keeps_done _
      | ok allowed => exact keeps_plain r .goWarmCache fun _ => keeps_done _
  refine keeps_plain_redis r .warmed fun warmed => ?_
  cases warmed with
  | error err => exact fallBack _
  | ok warmed =>
    dsimp only
    split
    · exact fallBack _
    · exact keeps_call (r.plain _ (.member _)) fun _ => keeps_done _

theorem isEmailAllowed_keeps (email : Str) :
    (isEmailAllowed cfg email).Keeps pre inv := by
  refine keeps_bind (keeps_bind r.status fun status => ?_) fun customOnly => ?_
  · cases status <;> exact keeps_done _
  · cases customOnly with
    | error err => exact keeps_done _
    | ok customOnly =>
      dsimp only
      split
      · exact keeps_done _
      · split
        · exact keeps_done _
        · exact isDomainAllowed_keeps r _ _

theorem allow_keeps (ip : Str) : (allow cfg ip).Keeps pre inv := by
  refine keeps_plain_redis r (.rate ip) fun count => ?_
  cases count with
  | error err => exact keeps_done _
  | ok count =>
    dsimp only
    split
    · exact keeps_plain_redis r (.rateWindow ip) fun _ => keeps_done _
    · exact keeps_done _

theorem captchaVerify_keeps (token ip : Str) :
    (captchaVerify cfg token ip).Keeps pre inv := by
  unfold captchaVerify
  split
  · exact keeps_done _
  · refine keeps_plain r (.siteverify token ip) fun verdict => ?_
    cases verdict <;> exact keeps_done _

theorem prepareOTPRequest_keeps {email fp : Str} {id : Int}
    (asked : asksCode cfg req = some (email, fp, id)) (ip : Str) :
    (prepareOTPRequest email fp ip id).Keeps pre inv := by
  have store : (nameAndStore email fp id).Keeps pre inv := by
    refine keeps_plain_sql r (.candidateName id) fun name => ?_
    cases name with
    | error err => exact keeps_done _
    | ok name => exact r.generate email fp id name asked
  refine keeps_plain_sql r (.votesByEmail email) fun byEmail => ?_
  cases byEmail with
  | error err => exact keeps_done _
  | ok byEmail =>
    dsimp only
    split
    · exact keeps_done _
    · refine keeps_plain_sql r (.votesByFingerprint fp) fun byFingerprint => ?_
      cases byFingerprint with
      | error err => exact keeps_done _
      | ok byFingerprint =>
        dsimp only
        split
        · exact keeps_done _
        · split
          · exact store
          · refine keeps_plain_sql r (.votesByIP ip) fun count => ?_
            cases count with
            | error err => exact keeps_done _
            | ok count =>
              dsimp only
              split
              · exact keeps_done _
              · exact store

theorem requestOTP_keeps {ip : Str} {body : Except Str RequestOTPRequest}
    (is_request : req = .requestOTP ip body) : (Handlers.requestOTP cfg ip body).Keeps pre inv := by
  apply requestOTP_parts (allow_keeps r ip) (isVotingOpen_keeps r) (isEmailAllowed_keeps r)
    (fun token => captchaVerify_keeps r token ip)
  intro asked bound
  apply prepareOTPRequest_keeps r
  rw [is_request, asksCode, bound]

theorem verifyVote_keeps {ip userAgent : Str} {body : Except Str VerifyVoteRequest}
    (is_vote : req = .verifyVote ip userAgent body) :
    (Handlers.verifyVote cfg ip userAgent body).Keeps pre inv := by
  refine keeps_bind (isVotingOpen_keeps r) fun opened => ?_
  rcases opened with err | opened
  · exact keeps_done _
  · cases opened with
    | false => exact keeps_done _
    | true =>
      dsimp only
      cases bound : bindBody (VerifyVoteRequest.check cfg) body with
      | error details => exact keeps_done _
      | ok asked =>
        refine keeps_bind (r.vote _ asked.otp ip userAgent ?_) fun _ => keeps_done _
        rw [is_vote, presents, bound]

theorem buildWSPayload_keeps : buildWSPayload.Keeps pre inv := by
  refine keeps_plain_sql r .board fun board => ?_
  cases board with
  | error err => exact keeps_done _
  | ok candidates =>
    refine keeps_bind (isVotingOpen_keeps r) fun _ => ?_
    exact keeps_bind r.status fun _ => keeps_done _

theorem serveWS_keeps (serves : req = .serveWS) : Handlers.serveWS.Keeps pre inv := by
  refine keeps_plain r (.register serves) fun client => ?_
  refine keeps_bind (buildWSPayload_keeps r) fun msg => ?_
  have start : (issue (Cmd.startPumps client) : Act Unit).Keeps pre inv :=
    keeps_call (r.plain _ (.startPumps serves client)) fun _ => keeps_done _
  cases msg with
  | error err => exact start
  | ok msg =>
    dsimp only
    split
    · exact start
    · exact keeps_plain r (.sendToOne serves client msg) fun _ => start

/- Every call of the server keeps what its transactions keep. -/
theorem program_keeps : (program cfg req).Keeps pre inv := by
  cases is : req with
  | requestOTP ip body => exact keeps_map _ (requestOTP_keeps r is)
  | verifyVote ip userAgent body => exact keeps_map _ (verifyVote_keeps r is)
  | getCandidates =>
    refine keeps_map _ (keeps_plain_sql r .board fun board => ?_)
    cases board <;> exact keeps_done _
  | getVotingStatus =>
    refine keeps_map _ (keeps_bind r.status fun status => ?_)
    cases status with
    | error err => exact keeps_done _
    | ok s => exact keeps_bind (isVotingOpen_keeps r) fun _ => keeps_done _
  | updateVotingSettings body =>
    refine keeps_map _ ?_
    cases body with
    | error details => exact keeps_done _
    | ok req =>
      dsimp only [Handlers.updateVotingSettings]
      split
      · exact keeps_done _
      · refine keeps_bind (r.update _ _) fun err => ?_
        cases err <;> exact keeps_done _
  | updateDomainMode body =>
    refine keeps_map _ ?_
    cases body with
    | error details => exact keeps_done _
    | ok value =>
      refine keeps_bind (r.mode value) fun err => ?_
      cases err <;> exact keeps_done _
  | addCandidate name description image =>
    have insert : ∀ path, (insertWithImage name description path).Keeps pre inv := by
      intro path
      refine keeps_bind (keeps_call (r.plain _ (.insertCandidate name description path))
        fun _ => keeps_done _) fun id => ?_
      cases id <;> exact keeps_done _
    refine keeps_map _ ?_
    unfold Handlers.addCandidate
    split
    · exact keeps_done _
    · split
      · exact keeps_done _
      · exact insert _
      · exact insert []
  | updateCandidate id name description image =>
    have update : ∀ n path, (updateWithImage n name description path).Keeps pre inv := by
      intro n path
      refine keeps_bind (keeps_plain_sql r (.updateCandidate n name description _) fun rows => ?_)
        fun err => ?_
      · cases rows <;> exact keeps_done _
      · cases err <;> exact keeps_done _
    refine keeps_map _ ?_
    unfold updateCandidateAt
    split
    · exact keeps_done _
    · split
      · exact keeps_done _
      · split
        · exact keeps_done _
        · exact update _ _
        · exact update _ []
  | deleteCandidate id =>
    refine keeps_map _ ?_
    unfold deleteCandidateAt
    split
    · exact keeps_done _
    · rename_i n valid
      refine keeps_bind (r.deleteCandidate id n is valid) fun err => ?_
      cases err <;> exact keeps_done _
  | listDomains =>
    refine keeps_map _ (keeps_plain_sql r .listDomains fun domains => ?_)
    cases domains <;> exact keeps_done _
  | addDomain body =>
    refine keeps_map _ ?_
    unfold Handlers.addDomain
    cases bindBody (required "AddDomainRequest" "Domain") body with
    | error details => exact keeps_done _
    | ok text =>
      dsimp only
      split
      · exact keeps_done _
      · split
        · exact keeps_done _
        · refine keeps_bind (r.insertDomain _) fun err => ?_
          cases err <;> exact keeps_done _
  | deleteDomain id =>
    refine keeps_map _ ?_
    unfold Handlers.deleteDomain
    split
    · exact keeps_done _
    · refine keeps_bind (r.deleteDomain _) fun err => ?_
      cases err <;> exact keeps_done _
  | serveWS => exact keeps_map _ (serveWS_keeps r is)
  | warmCache => exact keeps_map _ r.warmCache
  | getStatus => exact keeps_map _ r.status
  | isVotingOpen => exact keeps_map _ (isVotingOpen_keeps r)
  | updateSettings isOpen endsAt => exact keeps_map _ (r.update isOpen endsAt)
  | updateCustomDomainsOnly value => exact keeps_map _ (r.mode value)
  | generateAndStore email fp id name => exact keeps_map _ (r.generate email fp id name (by rw [is, asksCode]))
  | verify email otp => exact keeps_map _ (r.verify email otp is)
  | verifyAndVote email otp ip userAgent =>
    exact keeps_map _ (r.vote email otp ip userAgent (by rw [is, presents]))
  | insertDomain domain => exact keeps_map _ (r.insertDomain domain)
  | deleteDomainRow id => exact keeps_map _ (r.deleteDomain id)
  | isDomainAllowed domain => exact keeps_map _ (isDomainAllowed_keeps r _ domain)

end Calls
end Footprints
