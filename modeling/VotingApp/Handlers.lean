import VotingApp.VoteService
import VotingApp.CustomDomains

/-!
The HTTP handlers, the rate limit in front of RequestOTP, and email_domains.go. A
request body is what the JSON decoder made of it, or the text of its error.
-/
namespace Handlers
open GoText GoTime JsonText Tables EffectProgram VotingWorld
open OtpService VotingSettings VoteService CustomDomains

/-- What the environment and third-party packages settle: the configured values, the
email grammar of the validator, and the rune tables of the Go runtime. -/
structure Config where
  rateLimitMax : Int
  turnstileSecret : Str
  validEmail : Str → Bool
  lowerRune : Char → Char
  isSpace : Char → Bool
  quote : Str → Str

structure Response where
  status : Nat
  body : Option Json

def errorJSON (status : Nat) (message : String) : Response :=
  ⟨status, some (.obj [jsonName "error" (.str message.toList)])⟩

def successJSON (status : Nat) (data : Json) : Response :=
  ⟨status, some (.obj [jsonName "data" data, jsonName "message" (.str "success".toList)])⟩

def detailJSON (status : Nat) (detail : String) : Response :=
  successJSON status (.obj [jsonName "detail" (.str detail.toList)])

def badBody (details : Str) : Response :=
  ⟨400, some (.obj [jsonName "details" (.str details),
    jsonName "error" (.str "Invalid request body".toList)])⟩

def noContent : Response := ⟨204, none⟩

def toLower (cfg : Config) (s : Str) : Str := s.map cfg.lowerRune

/-- allowedEmailDomains. -/
def allowedEmailDomains : List String :=
  ["gmail.com", "outlook.com", "hotmail.com", "yahoo.com", "icloud.com", "me.com", "msn.com",
   "aol.com", "proton.me", "zoho.com", "ymail.com", "rocketmail.com", "protonmail.com",
   "mail.ru", "yandex.com", "yandex.ru", "list.ru", "bk.ru", "inbox.ru", "gmx.com", "gmx.net",
   "web.de", "freenet.de", "t-online.de", "orange.fr", "wanadoo.fr", "free.fr", "sfr.fr",
   "laposte.net", "libero.it", "virgilio.it", "tiscali.it", "alice.it", "uol.com.br",
   "bol.com.br", "terra.com.br", "ig.com.br", "globo.com", "rediffmail.com", "indiatimes.com",
   "qq.com", "163.com", "126.com", "sina.com", "sohu.com", "naver.com", "daum.net",
   "hanmail.net", "comcast.net", "verizon.net", "att.net", "sbcglobal.net", "bellsouth.net",
   "charter.net", "cox.net", "earthlink.net", "optonline.net", "shaw.ca", "rogers.com",
   "bell.net", "sympatico.ca", "sky.com", "virginmedia.com", "telstra.com", "bigpond.com",
   "tuta.io", "tuta.com", "mailfence.com", "hushmail.com", "runbox.com", "yahoo.co.uk",
   "outlook.sa", "outlook.fr", "hotmail.co.uk", "yahoo.ca", "live.com", "live.co.uk", "live.fr",
   "outlook.de", "outlook.com.br", "yahoo.de", "yahoo.in", "yahoo.com.br", "yahoo.com.ar",
   "pm.me", "googlemail.com"]

def isBuiltin (domain : Str) : Bool := allowedEmailDomains.any fun d => d.toList = domain

def isEmailDomainAllowed (cfg : Config) (email : Str) : Bool :=
  match cutLast '@' email with
  | none => false
  | some (_, domain) => isBuiltin (toLower cfg domain)

def stripPlus (localPart : Str) : Str :=
  match cut '+' localPart with
  | some (front, _) => front
  | none => localPart

def normalizeEmail (cfg : Config) (email : Str) : Str :=
  let email := toLower cfg email
  match cutLast '@' email with
  | none => email
  | some (localPart, domain) =>
    let localPart := stripPlus localPart
    if domain = "gmail.com".toList || domain = "googlemail.com".toList then
      localPart.filter (· ≠ '.') ++ '@' :: "gmail.com".toList
    else localPart ++ '@' :: domain

def isEmailAllowed (cfg : Config) (email : Str) : Act (Except GoErr Bool) := do
  match ← getCustomDomainsOnly with
  | .error err => return .error err
  | .ok customOnly =>
    if !customOnly && isEmailDomainAllowed cfg email then return .ok true
    else
      match cutLast '@' email with
      | none => return .ok false
      | some (_, domain) => isDomainAllowed cfg.lowerRune (toLower cfg domain)

def rateLimitKey (ip : Str) : Str := "ratelimit:".toList ++ ip

def rateLimitWindow : Nat := hour

/- RateLimitService.Allow. The window starts with its first request. -/
def allow (cfg : Config) (ip : Str) : Act (Except GoErr Bool) := do
  match ← redis (.incr (rateLimitKey ip)) with
  | .error err => return .error err
  | .ok count =>
    if count = 1 then
      let _ ← redis (.expire (rateLimitKey ip) rateLimitWindow)
      return .ok (count ≤ cfg.rateLimitMax)
    else return .ok (count ≤ cfg.rateLimitMax)

/- CaptchaService.Verify; without a secret it accepts everything. -/
def captchaVerify (cfg : Config) (token ip : Str) : Act (Except GoErr Bool) := do
  if cfg.turnstileSecret = [] then return .ok true
  else
    match ← issue (Cmd.siteverify token ip) with
    | .failed err => return .error (wrapError "turnstile verify request" err)
    | .unreadable err => return .error (wrapError "parsing turnstile response" err)
    | .answered success => return .ok success

structure RequestOTPRequest where
  email : Str
  fingerprint : Str
  captchaToken : Str
  candidateID : Int
  deriving DecidableEq, Repr

structure VerifyVoteRequest where
  email : Str
  otp : Str
  deriving DecidableEq, Repr

/- The validator's text for one field that fails one tag. -/
def fieldError (request field tag : String) : Str :=
  "Key: '".toList ++ request.toList ++ ".".toList ++ field.toList ++
    "' Error:Field validation for '".toList ++ field.toList ++ "' failed on the '".toList ++
    tag.toList ++ "' tag".toList

def joinLines : List Str → Str
  | [] => []
  | [s] => s
  | s :: t :: rest => s ++ '\n' :: joinLines (t :: rest)

def required (request field : String) (s : Str) : List Str :=
  if s = [] then [fieldError request field "required"] else []

def requiredEmail (cfg : Config) (request : String) (email : Str) : List Str :=
  if email = [] then [fieldError request "Email" "required"]
  else if cfg.validEmail email then [] else [fieldError request "Email" "email"]

/-- The binding tags of RequestOTPRequest. -/
def RequestOTPRequest.check (cfg : Config) (r : RequestOTPRequest) : List Str :=
  requiredEmail cfg "RequestOTPRequest" r.email ++
    required "RequestOTPRequest" "Fingerprint" r.fingerprint ++
    required "RequestOTPRequest" "CaptchaToken" r.captchaToken ++
    (if r.candidateID = 0 then [fieldError "RequestOTPRequest" "CandidateID" "required"]
      else if r.candidateID < 1 then [fieldError "RequestOTPRequest" "CandidateID" "min"] else [])

/-- The binding tags of VerifyVoteRequest. -/
def VerifyVoteRequest.check (cfg : Config) (r : VerifyVoteRequest) : List Str :=
  requiredEmail cfg "VerifyVoteRequest" r.email ++
    (if r.otp = [] then [fieldError "VerifyVoteRequest" "OTP" "required"]
      else if r.otp.length ≠ 6 then [fieldError "VerifyVoteRequest" "OTP" "len"] else [])

/- ShouldBindJSON: decode, then check the tags. -/
def bindBody {α : Type} (check : α → List Str) : Except Str α → Except Str α
  | .error text => .error text
  | .ok r => if check r = [] then .ok r else .error (joinLines (check r))

def answerPrepared : Option GoErr → Response
  | none => detailJSON 200 "OTP sent to your email. It expires in 5 minutes."
  | some err =>
    if err.is .alreadyVoted then errorJSON 409 "You have already cast your vote in this election."
    else if err.is .ipVoteLimitExceeded then
      errorJSON 429 "Vote limit reached from your network. Please contact the administrator."
    else if err.text = blockedOnRequest.text then
      errorJSON 429 "This email is temporarily blocked due to too many failed OTP attempts. Please try again later."
    else errorJSON 500 "Failed to send OTP — please try again"

theorem answerPrepared_ok (err : Option GoErr) :
    (answerPrepared err).status = 200 ↔ err = none := by
  cases err with
  | none => simp [answerPrepared, detailJSON, successJSON]
  | some err =>
    unfold answerPrepared
    dsimp only
    split
    · simp [errorJSON]
    · split
      · simp [errorJSON]
      · split <;> simp [errorJSON]

/- RequestOTP after the voting guard and the binding. -/
def requestOTPFor (cfg : Config) (ip : Str) (req : RequestOTPRequest) : Act Response := do
  let email := normalizeEmail cfg req.email
  match ← isEmailAllowed cfg email with
  | .error _ => return errorJSON 500 "Failed to verify email domain"
  | .ok false =>
    return errorJSON 400 "Email domain is not supported. Please use a common email provider (e.g. gmail.com, outlook.com)."
  | .ok true =>
    match ← captchaVerify cfg req.captchaToken ip with
    | .error _ => return errorJSON 500 "Captcha verification error"
    | .ok false => return errorJSON 403 "Captcha verification failed"
    | .ok true =>
      let prepared ← prepareOTPRequest email req.fingerprint ip req.candidateID
      return answerPrepared prepared

def requestOTPGuarded (cfg : Config) (ip : Str) (body : Except Str RequestOTPRequest) :
    Act Response := do
  match ← isVotingOpen with
  | .error _ => return errorJSON 500 "Could not verify voting status"
  | .ok false => return errorJSON 403 "Voting is currently closed"
  | .ok true =>
    match bindBody (RequestOTPRequest.check cfg) body with
    | .error details => return badBody details
    | .ok req => requestOTPFor cfg ip req

/- The rate limit fails open. -/
def requestOTP (cfg : Config) (ip : Str) (body : Except Str RequestOTPRequest) : Act Response := do
  match ← allow cfg ip with
  | .ok false =>
    return errorJSON 429 "Too many OTP requests. Please wait an hour before trying again."
  | _ => requestOTPGuarded cfg ip body

def answerVerified : Option GoErr → Response
  | none => detailJSON 200 "Vote recorded successfully!"
  | some err =>
    if err.text = "already voted".toList then errorJSON 409 "You have already voted"
    else if contains "email blocked".toList err.text then
      errorJSON 429 "This email is temporarily blocked due to too many failed OTP attempts. Please request a new OTP after 30 minutes."
    else if "otp:".toList.isPrefixOf err.text then errorJSON 422 "Invalid or expired OTP"
    else errorJSON 500 "Failed to record vote"

theorem answerVerified_ok (err : Option GoErr) : (answerVerified err).status = 200 ↔ err = none := by
  cases err with
  | none => simp [answerVerified, detailJSON, successJSON]
  | some err =>
    unfold answerVerified
    dsimp only
    split
    · simp [errorJSON]
    · split
      · simp [errorJSON]
      · split <;> simp [errorJSON]

def verifyVote (cfg : Config) (ip userAgent : Str) (body : Except Str VerifyVoteRequest) :
    Act Response := do
  match ← isVotingOpen with
  | .error _ => return errorJSON 500 "Could not verify voting status"
  | .ok false => return errorJSON 403 "Voting is currently closed"
  | .ok true =>
    match bindBody (VerifyVoteRequest.check cfg) body with
    | .error details => return badBody details
    | .ok req =>
      let voted ← verifyAndVote (normalizeEmail cfg req.email) req.otp ip userAgent
      return answerVerified voted

/- No rows leave the slice nil, which is marshalled to null. -/
def jsonCandidates (candidates : List CandidateWithVotes) : Json :=
  if candidates.isEmpty then .null else .arr (candidates.map jsonCandidate)

def getCandidates : Act Response := do
  match ← sql .getAllWithVotes with
  | .error _ => return errorJSON 500 "Failed to fetch candidates"
  | .ok candidates => return successJSON 200 (.obj [jsonName "candidates" (jsonCandidates candidates)])

def getVotingStatus : Act Response := do
  match ← getStatus with
  | .error _ => return errorJSON 500 "Failed to fetch voting status"
  | .ok s =>
    let effectivelyOpen ← isVotingOpen
    return successJSON 200 (.obj [jsonName "custom_domains_only" (jsonBool s.customDomainsOnly),
      jsonName "effectively_open" (jsonBool (match effectivelyOpen with
        | .ok open_ => open_
        | .error _ => false)),
      jsonName "ends_at" (jsonTime s.endsAt), jsonName "is_open" (jsonBool s.isOpen)])

structure UpdateVotingSettingsRequest where
  isOpen : Bool
  endsAt : Option Str
  deriving DecidableEq, Repr

/- An omitted or empty ends_at clears the auto-stop time. -/
def readEndsAt : Option Str → Option (Option Nat)
  | none => some none
  | some s => if s = [] then some none else (GoTime.parse true s).map some

def updateVotingSettings (body : Except Str UpdateVotingSettingsRequest) : Act Response := do
  match body with
  | .error details => return badBody details
  | .ok req =>
    match readEndsAt req.endsAt with
    | none =>
      return errorJSON 400 "ends_at must be a valid RFC 3339 UTC timestamp (e.g. 2025-12-31T18:00:00Z)"
    | some endsAt =>
      match ← updateSettings req.isOpen endsAt with
      | some _ => return errorJSON 500 "Failed to update voting settings"
      | none => return detailJSON 200 "Voting settings updated successfully"

def updateDomainMode (body : Except Str Bool) : Act Response := do
  match body with
  | .error details => return badBody details
  | .ok value =>
    match ← updateCustomDomainsOnly value with
    | some _ => return errorJSON 500 "Failed to update domain mode"
    | none =>
      return successJSON 200 (.obj [jsonName "custom_domains_only" (jsonBool value),
        jsonName "detail" (.str "Domain mode updated successfully".toList)])

/- What saveImage made of the uploaded file, if there was one. -/
abbrev Upload := Option (Except Str Str)

def badImage (reason : Str) : Response :=
  ⟨400, some (.obj [jsonName "error" (.str ("Invalid image: ".toList ++ reason))])⟩

def insertWithImage (name description path : Str) : Act Response := do
  match ← insertCandidate name description path with
  | .error _ => return errorJSON 500 "Failed to add candidate"
  | .ok id =>
    return successJSON 201 (.obj [jsonName "candidate_id" (.num id),
      jsonName "detail" (.str "Candidate added successfully".toList)])

def addCandidate (name description : Str) (image : Upload) : Act Response := do
  if name = [] then return errorJSON 400 "name is required"
  else
    match image with
    | some (.error reason) => return badImage reason
    | some (.ok path) => insertWithImage name description path
    | none => insertWithImage name description []

/- strconv.Atoi of a path parameter that must be positive. -/
def idParam (s : Str) : Option Int := (atoi s).filter (1 ≤ ·)

def updateWithImage (candidateID : Int) (name description path : Str) : Act Response := do
  match ← updateCandidate candidateID name description path with
  | none => return detailJSON 200 "Candidate updated successfully"
  | some err =>
    return if err.is .candidateNotFound then errorJSON 404 "Candidate not found"
      else errorJSON 500 "Failed to update candidate"

def updateCandidateAt (id name description : Str) (image : Upload) : Act Response := do
  match idParam id with
  | none => return errorJSON 400 "Invalid candidate ID"
  | some candidateID =>
    if name = [] then return errorJSON 400 "name is required"
    else
      match image with
      | some (.error reason) => return badImage reason
      | some (.ok path) => updateWithImage candidateID name description path
      | none => updateWithImage candidateID name description []

def deleteCandidateAt (id : Str) : Act Response := do
  match idParam id with
  | none => return errorJSON 400 "Invalid candidate ID"
  | some candidateID =>
    match ← deleteCandidate candidateID with
    | none => return noContent
    | some err =>
      return if err.is .candidateHasVotes then
          errorJSON 409 "Cannot delete candidate: they already have votes"
        else if err.is .candidateNotFound then errorJSON 404 "Candidate not found"
        else errorJSON 500 "Failed to delete candidate"

def jsonDomain (d : CustomDomain) : Json :=
  .obj [jsonName "id" (.num d.id), jsonName "domain" (.str d.domain),
    jsonName "created_at" (jsonTime (some d.createdAt))]

def listDomains : Act Response := do
  match ← getAll with
  | .error _ => return errorJSON 500 "Failed to fetch custom domains"
  | .ok domains => return successJSON 200 (.arr (domains.map jsonDomain))

def isLabelChar (c : Char) : Bool := ('a' ≤ c && c ≤ 'z') || ('0' ≤ c && c ≤ '9')

/- domainLabelRe. -/
def isLabel (s : Str) : Bool :=
  s ≠ [] && s.all (fun c => isLabelChar c || c = '-') && s.head?.all isLabelChar &&
    s.getLast?.all isLabelChar

def labelError (cfg : Config) (label : Str) : Str :=
  "domain label ".toList ++ cfg.quote label ++
    " contains invalid characters (only a-z, 0-9, and hyphens allowed)".toList

def checkLabels (cfg : Config) : List Str → Str
  | [] => []
  | label :: rest =>
    if label = [] then "domain contains consecutive dots".toList
    else if !isLabel label then labelError cfg label
    else checkLabels cfg rest

/- strings.Split. -/
def splitAll (sep : Char) (s : Str) : List Str := splitN sep (s.length + 1) s

def validateDomain (cfg : Config) (domain : Str) : Str :=
  if domain = [] || 253 < (String.ofList domain).utf8ByteSize then
    "domain must be between 1 and 253 characters".toList
  else if domain.contains '@' then
    "domain must not contain '@'; provide only the domain part (e.g. myuniversity.edu.eg)".toList
  else if domain.head? = some '.' || domain.getLast? = some '.' then
    "domain must not start or end with a dot".toList
  else if !domain.contains '.' then
    "domain must contain at least one dot (e.g. example.com)".toList
  else checkLabels cfg (splitAll '.' domain)

def trimSpace (cfg : Config) (s : Str) : Str :=
  ((s.dropWhile cfg.isSpace).reverse.dropWhile cfg.isSpace).reverse

/- AddDomain lowercases, trims and drops one leading @. -/
def canonicalDomain (cfg : Config) (s : Str) : Str :=
  match toLower cfg (trimSpace cfg s) with
  | '@' :: rest => rest
  | domain => domain

def addDomain (cfg : Config) (body : Except Str Str) : Act Response := do
  match bindBody (required "AddDomainRequest" "Domain") body with
  | .error details => return badBody details
  | .ok text =>
    let domain := canonicalDomain cfg text
    let message := validateDomain cfg domain
    if message ≠ [] then return ⟨400, some (.obj [jsonName "error" (.str message)])⟩
    else if isBuiltin domain then
      return errorJSON 409 "Domain is already in the built-in allowed list"
    else
      match ← insert domain with
      | some err =>
        return if err.is .domainAlreadyExists then
            errorJSON 409 "Domain is already in the custom allowed list"
          else errorJSON 500 "Failed to add domain"
      | none =>
        return successJSON 201 (.obj [jsonName "detail" (.str "Domain added successfully".toList),
          jsonName "domain" (.str domain)])

def deleteDomain (id : Str) : Act Response := do
  match idParam id with
  | none => return errorJSON 400 "Invalid domain ID"
  | some id =>
    match ← delete id with
    | none => return noContent
    | some err =>
      return if err.is .domainNotFound then errorJSON 404 "Domain not found"
        else errorJSON 500 "Failed to delete domain"

/- ServeWS with the snapshotFn of main.go: register, snapshot, then the pumps. -/
def serveWS : Act Unit := do
  let client ← issue Cmd.register
  match ← buildWSPayload with
  | .error _ => issue (Cmd.startPumps client)
  | .ok msg =>
    if msg = [] then issue (Cmd.startPumps client)
    else
      issue (Cmd.sendToOne client msg)
      issue (Cmd.startPumps client)

end Handlers
