import VotingApp.LiveRuns

/-!
Whether the live results converge. They do as long as no call sends what it read before
a change after another call has sent what it read behind that change.
-/
namespace LiveResults
open GoText GoTime JsonText Tables WsHub EffectProgram CallPool PoolHistory ExpiringStore
open VotingWorld OtpService VotingSettings VoteService CustomDomains Handlers VotingServer
open Footprints Frames OtpRecords TableInvariants Provenance SettingsCache
open HubDelivery PayloadReads UseWebSocket LiveRuns

def ReadsSettings (c : Cmd) : Prop :=
  c = .redis (.get votingSettingsRedisKey) ∨ c = .sql .getSettings

instance : DecidablePred ReadsSettings := fun _ => inferInstanceAs (Decidable (_ ∨ _))

theorem looked {v : Settings} {x : Exchange Cmd Reply} (shows : Shows v x) : ReadsSettings x.cmd := by
  rcases shows with ⟨raw, rfl, -⟩ | rfl
  · exact Or.inl rfl
  · exact Or.inr rfl

section Runs
variable {cfg : Config} {seed : Seed} {s : State}

end Runs

def codeFor (email fp : String) (candidateID : Int) : Call :=
  .generateAndStore email.toList fp.toList candidateID "Ann".toList

def voteOf (email : String) : Call :=
  .verifyAndVote email.toList "100000".toList "10.0.0.1".toList []

/-- Two votes: the first call reads the leaderboard with one vote, the second call runs
from start to end, and then the first one sends what it read. -/
def overtakenMoves : List Move :=
  .start .serveWS :: runs 0 8 ++ .start (codeFor "a@gmail.com" "phone a" 1) :: runs 1 4 ++
    .start (codeFor "b@gmail.com" "phone b" 2) :: runs 2 4 ++
      .start (voteOf "a@gmail.com") :: runs 3 5 ++ .start (voteOf "b@gmail.com") :: runs 4 8 ++
        runs 3 3 ++ [.env (.hubBroadcast [0]), .env (.hubBroadcast [0])]

def overtaken : State := after (server devConfig) live twoCandidates.start overtakenMoves

end LiveResults
