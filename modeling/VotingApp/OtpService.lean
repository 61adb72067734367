import VotingApp.World

/-!
otp_service.go. A program answers none where the Go function returns a nil error.
-/
namespace OtpService
open GoText GoTime Tables EffectProgram VotingWorld

def maxOTPAttempts : Int := 6
def otpBlockDuration : Nat := 30 * minute
def otpTTL : Nat := 5 * minute

def otpKey (email : Str) : Str := "otp:".toList ++ email
def otpAttemptsKey (email : Str) : Str := "otp_attempts:".toList ++ email
def otpBlockedKey (email : Str) : Str := "otp_blocked:".toList ++ email

def isEmailBlocked (email : Str) : Act (Except GoErr Bool) := do
  match ← redis (.exists (otpBlockedKey email)) with
  | .error err => return .error (wrapError "checking OTP block status" err)
  | .ok count => return .ok (0 < count)

def otpCode (draw : Nat) : Str := sprintf06d (draw + 100000)

/-- The Redis value "{otp}:{candidateID}:{fingerprint}". -/
def otpRecord (otp : Str) (candidateID : Int) (fingerprint : Str) : Str :=
  otp ++ ':' :: (itoa candidateID ++ ':' :: fingerprint)

def otpSubject : Str := "Your Voting Verification Code".toList

def otpBody (candidateName otp : Str) : Str :=
  "You are voting for: ".toList ++ candidateName ++
    "\n\nYour one-time verification code is: ".toList ++ otp ++
    "\n\nThis code expires in 5 minutes.\nIf you did not request this, please ignore this email.".toList

def blockedOnRequest : GoErr := newError "email blocked due to too many failed OTP attempts"

def generateAndStore (voterEmail fingerprint : Str) (candidateID : Int) (candidateName : Str) :
    Act (Option GoErr) := do
  match ← issue Cmd.randInt with
  | .error err => return some (wrapError "generating OTP" err)
  | .ok n =>
    let otp := otpCode n
    match ← isEmailBlocked voterEmail with
    | .error err => return some (wrapError "checking block status" err)
    | .ok true => return some blockedOnRequest
    | .ok false =>
      let value := otpRecord otp candidateID fingerprint
      match ← redis (.set (otpKey voterEmail) value otpTTL) with
      | .error err => return some (wrapError "storing OTP" err)
      | .ok () =>
        match ← issue (Cmd.enqueue voterEmail otpSubject (otpBody candidateName otp)) with
        | some err =>
          let _ ← redis (.del [otpKey voterEmail])
          return some (wrapError "sending OTP email" err)
        | none => return none

def blockedOnVerify : GoErr := newError "email blocked: too many failed OTP attempts"

/- The block and the removal of the record are two commands whose errors are ignored. -/
def blockEmail (email : Str) : Act (Option GoErr) := do
  let _ ← redis (.set (otpBlockedKey email) "1".toList otpBlockDuration)
  let _ ← redis (.del [otpKey email, otpAttemptsKey email])
  return some blockedOnVerify

def recordFailure (email : Str) : Act (Option GoErr) := do
  match ← redis (.incr (otpAttemptsKey email)) with
  | .error _ => return none
  | .ok attempts =>
    if attempts = 1 then
      let _ ← redis (.expire (otpAttemptsKey email) otpTTL)
      if maxOTPAttempts ≤ attempts then blockEmail email else return none
    else if maxOTPAttempts ≤ attempts then blockEmail email
    else return none

/- What strings.SplitN and fmt.Sscanf make of a stored record. -/
inductive Decoded where
  | malformed
  | badCandidate (otp : Str)
  | record (otp : Str) (candidateID : Int) (fingerprint : Str)
  deriving DecidableEq, Repr

def decodeRecord (stored : Str) : Decoded :=
  match splitN ':' 3 stored with
  | [otp, candidateID, fingerprint] =>
    match scanInt candidateID with
    | some id => .record otp id fingerprint
    | none => .badCandidate otp
  | _ => .malformed

def invalidOTP : GoErr := newError "invalid OTP"

/- A wrong code reports the block it has just caused. -/
def rejectGuess (email : Str) : Act (Except GoErr (Str × Int)) := do
  match ← recordFailure email with
  | some blockErr => return .error blockErr
  | none => return .error invalidOTP

def verify (email otp : Str) : Act (Except GoErr (Str × Int)) := do
  match ← isEmailBlocked email with
  | .error err => return .error (wrapError "checking block status" err)
  | .ok true => return .error blockedOnVerify
  | .ok false =>
    match ← redis (.get (otpKey email)) with
    | .error err =>
      if err.is .redisNil then return .error (newError "OTP expired or not found")
      else return .error (wrapError "fetching OTP from Redis" err)
    | .ok stored =>
      match decodeRecord stored with
      | .malformed =>
        let _ ← recordFailure email
        return .error (newError "malformed OTP record")
      | .badCandidate storedOTP =>
        if storedOTP ≠ otp then rejectGuess email
        else
          let _ ← recordFailure email
          return .error (newError "malformed candidate ID in OTP record")
      | .record storedOTP candidateID fingerprint =>
        if storedOTP ≠ otp then rejectGuess email
        else
          let _ ← redis (.del [otpKey email, otpAttemptsKey email])
          return .ok (fingerprint, candidateID)

end OtpService
