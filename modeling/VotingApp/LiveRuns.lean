import VotingApp.HubDelivery
import VotingApp.PayloadReads
import VotingApp.Provenance
import VotingApp.SettingsCache
import VotingApp.UseWebSocket

/-!
Elections as they run on the day: nothing fails and no candidate is edited. What the
leaderboard of one broadcast has to do with that of another.
-/
namespace LiveRuns
open GoText GoTime JsonText Tables WsHub EffectProgram CallPool PoolHistory ExpiringStore
open VotingWorld OtpService VotingSettings VoteService CustomDomains Handlers VotingServer
open Footprints Frames OtpRecords TableInvariants Provenance SettingsCache
open HubDelivery PayloadReads UseWebSocket

/-- The statements that edit a candidate or the domain mode. -/
def unsettling : Cmd → Bool
  | .sql (.insertCandidate _ _ _) => true
  | .sql (.updateCandidate _ _ _ _) => true
  | .sql (.deleteCandidate _) => true
  | .sql (.updateCustomDomainsOnly _) => true
  | _ => false

/-- Any calls in any order, but no command fails, and votes and the voting settings are
all that changes. -/
def live (s : State) : Move → Bool
  | .run i o => o.fault.isNone && !(nextCmd s i).any unsettling
  | _ => true

section Runs
variable {cfg : Config} {seed : Seed} {s : State}

theorem board_read {ev : LogEntry} (performed : Performed ev) {rows : List CandidateWithVotes}
    (reads : ev.exchange = ⟨.sql .getAllWithVotes, .ok rows⟩) :
    ev.before.db.getAllWithVotes = rows ∧ ev.after.db = ev.before.db := by
  obtain ⟨answer, after⟩ := answered_sql performed reads
  rw [SqlCmd.run, Except.ok.injEq] at answer
  exact ⟨answer, by rw [after]; rfl⟩

end Runs

section Sends
variable {cfg : Config} {allow : State → Move → Bool} {seed : Seed} {s : State}

end Sends
end LiveRuns
