import VotingApp.Lib.PoolHistory
import VotingApp.Handlers

/-!
The whole server: every call that can run, the program it runs, and the machine
that interleaves any number of them with time, the hub loop and the pumps.
-/
namespace VotingServer
open GoText GoTime JsonText Tables WsHub EffectProgram CallPool VotingWorld
open OtpService VotingSettings VoteService CustomDomains Handlers

/-- The routes, the start-up warming of the cache, and the service methods on their own. -/
inductive Call where
  | requestOTP (ip : Str) (body : Except Str RequestOTPRequest)
  | verifyVote (ip userAgent : Str) (body : Except Str VerifyVoteRequest)
  | getCandidates
  | getVotingStatus
  | updateVotingSettings (body : Except Str UpdateVotingSettingsRequest)
  | updateDomainMode (body : Except Str Bool)
  | addCandidate (name description : Str) (image : Upload)
  | updateCandidate (id name description : Str) (image : Upload)
  | deleteCandidate (id : Str)
  | listDomains
  | addDomain (body : Except Str Str)
  | deleteDomain (id : Str)
  | serveWS
  | warmCache
  | getStatus
  | isVotingOpen
  | updateSettings (isOpen : Bool) (endsAt : Option Nat)
  | updateCustomDomainsOnly (value : Bool)
  | generateAndStore (voterEmail fingerprint : Str) (candidateID : Int) (candidateName : Str)
  | verify (email otp : Str)
  | verifyAndVote (email otp ip userAgent : Str)
  | insertDomain (domain : Str)
  | deleteDomainRow (id : Int)
  | isDomainAllowed (domain : Str)
  deriving DecidableEq

inductive Answer where
  | http (r : Response)
  | error (e : Option GoErr)
  | status (r : Except GoErr Settings)
  | flag (r : Except GoErr Bool)
  | verified (r : Except GoErr (Str × Int))
  | closed

def program (cfg : Config) : Call → Act Answer
  | .requestOTP ip body => Answer.http <$> Handlers.requestOTP cfg ip body
  | .verifyVote ip userAgent body => Answer.http <$> Handlers.verifyVote cfg ip userAgent body
  | .getCandidates => Answer.http <$> Handlers.getCandidates
  | .getVotingStatus => Answer.http <$> Handlers.getVotingStatus
  | .updateVotingSettings body => Answer.http <$> Handlers.updateVotingSettings body
  | .updateDomainMode body => Answer.http <$> Handlers.updateDomainMode body
  | .addCandidate name description image => Answer.http <$> Handlers.addCandidate name description image
  | .updateCandidate id name description image =>
    Answer.http <$> updateCandidateAt id name description image
  | .deleteCandidate id => Answer.http <$> deleteCandidateAt id
  | .listDomains => Answer.http <$> Handlers.listDomains
  | .addDomain body => Answer.http <$> Handlers.addDomain cfg body
  | .deleteDomain id => Answer.http <$> Handlers.deleteDomain id
  | .serveWS => (fun _ => Answer.closed) <$> Handlers.serveWS
  | .warmCache => Answer.error <$> CustomDomains.warmCache
  | .getStatus => Answer.status <$> VotingSettings.getStatus
  | .isVotingOpen => Answer.flag <$> VotingSettings.isVotingOpen
  | .updateSettings isOpen endsAt => Answer.error <$> VotingSettings.updateSettings isOpen endsAt
  | .updateCustomDomainsOnly value => Answer.error <$> VotingSettings.updateCustomDomainsOnly value
  | .generateAndStore email fingerprint id name =>
    Answer.error <$> OtpService.generateAndStore email fingerprint id name
  | .verify email otp => Answer.verified <$> OtpService.verify email otp
  | .verifyAndVote email otp ip userAgent =>
    Answer.error <$> VoteService.verifyAndVote email otp ip userAgent
  | .insertDomain domain => Answer.error <$> CustomDomains.insert domain
  | .deleteDomainRow id => Answer.error <$> CustomDomains.delete id
  | .isDomainAllowed domain => Answer.flag <$> CustomDomains.isDomainAllowed cfg.lowerRune domain

/- The only goroutine a call leaves behind is a warming of the domain cache. -/
def spawns : Cmd → List Call
  | .goWarmCache => [.warmCache]
  | _ => []

abbrev Server := Machine Cmd Reply World Oracle Env Call Answer
abbrev State := Pool Cmd Reply World Oracle Call Answer
abbrev Move := Label Oracle Env Call
abbrev LogEntry := Event Cmd Reply World Oracle
abbrev Log := List LogEntry
abbrev History := List (Exchange Cmd Reply)

def server (cfg : Config) : Server where
  perform := World.perform
  env := World.env
  program := program cfg
  spawns := spawns

/-- The status a finished HTTP call was answered with. -/
def statusOf (job : Job Cmd Reply Call Answer) : Option Nat :=
  match job.rest with
  | .done (.http r) => some r.status
  | _ => none

end VotingServer
