import VotingApp.OtpService
import VotingApp.VotingSettings

/-!
vote_service.go over the vote and candidate repositories.
-/
namespace VoteService
open GoText GoTime Tables EffectProgram VotingWorld OtpService VotingSettings

def errAlreadyVoted : GoErr := ⟨"already voted".toList, [.alreadyVoted]⟩
def errIPVoteLimitExceeded : GoErr := ⟨"ip vote limit exceeded".toList, [.ipVoteLimitExceeded]⟩
def errCandidateNotFound : GoErr := ⟨"candidate not found".toList, [.candidateNotFound]⟩
def errCandidateHasVotes : GoErr :=
  ⟨"candidate has votes and cannot be deleted".toList, [.candidateHasVotes]⟩

def maxVotesPerIP : Int := 5

/- The last part of PrepareOTPRequest. -/
def nameAndStore (email fingerprint : Str) (candidateID : Int) : Act (Option GoErr) := do
  match ← sql (.candidateName candidateID) with
  | .error err => return some (wrapError "fetching candidate" err)
  | .ok candidateName => generateAndStore email fingerprint candidateID candidateName

def prepareOTPRequest (email fingerprint ip : Str) (candidateID : Int) : Act (Option GoErr) := do
  match ← sql (.countVotesByEmail email) with
  | .error err => return some (wrapError "checking email vote status" err)
  | .ok byEmail =>
    if 0 < byEmail then return some errAlreadyVoted
    else
      match ← sql (.countVotesByFingerprint fingerprint) with
      | .error err => return some (wrapError "checking fingerprint vote status" err)
      | .ok byFingerprint =>
        if 0 < byFingerprint then return some errAlreadyVoted
        else if ip = [] then nameAndStore email fingerprint candidateID
        else
          match ← sql (.countVotesByIP ip) with
          | .error err => return some (wrapError "checking ip vote count" err)
          | .ok count =>
            if maxVotesPerIP ≤ count then return some errIPVoteLimitExceeded
            else nameAndStore email fingerprint candidateID

def isDuplicate (err : GoErr) : Bool :=
  contains "1062".toList err.text || contains "Duplicate".toList err.text

def verifyAndVote (email otp ip userAgent : Str) : Act (Option GoErr) := do
  match ← verify email otp with
  | .error err => return some (wrapError "otp" err)
  | .ok (fingerprint, candidateID) =>
    match ← sql (.insertVote email fingerprint candidateID ip userAgent) with
    | .error err =>
      if isDuplicate err then return some (newError "already voted")
      else return some (wrapError "recording vote" err)
    | .ok () =>
      broadcastPayload
      return none

def insertCandidate (name description imagePath : Str) : Act (Except GoErr Int) :=
  sql (.insertCandidate name description imagePath)

def updateCandidate (id : Int) (name description imagePath : Str) : Act (Option GoErr) := do
  match ← sql (.updateCandidate id name description (if imagePath = [] then none else some imagePath)) with
  | .error err => return some err
  | .ok rows => return if rows = 0 then some errCandidateNotFound else none

/- The count and the removal are two statements. -/
def deleteCandidate (id : Int) : Act (Option GoErr) := do
  match ← sql (.countVotesFor id) with
  | .error err => return some err
  | .ok count =>
    if 0 < count then return some errCandidateHasVotes
    else
      match ← sql (.deleteCandidate id) with
      | .error err => return some err
      | .ok rows => return if rows = 0 then some errCandidateNotFound else none

end VoteService
