import VotingApp.ClosedChannels
import VotingApp.PayloadReads
import VotingApp.Provenance

/-!
The hub of the running server is a run of the loop, in which every client is served in order.
-/
namespace HubTraces
open GoText GoTime JsonText Tables WsHub EffectProgram CallPool PoolHistory VotingWorld
open OtpService VotingSettings VoteService CustomDomains Handlers VotingServer Footprints Frames
open Provenance HubDelivery PayloadReads HubLoop ClosedChannels

section Traces
variable {cfg : Config} {allow : State → Move → Bool} {seed : Seed} {s : State} {ms : List Turn}

end Traces

section Served
variable {cfg : Config} {allow : State → Move → Bool} {seed : Seed} {s : State} {ms : List Turn}

end Served

end HubTraces
