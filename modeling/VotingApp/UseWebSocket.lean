import VotingApp.VotingSettings

/-!
useWebSocket.ts: what the browser makes of the text frames it receives. A frame is one
JSON text, and whatever JSON.parse or a member access throws is swallowed.
-/
namespace UseWebSocket
open GoText GoTime JsonText Tables EffectProgram VotingWorld VotingSettings

/-- The two pieces of state that onmessage sets. -/
structure View where
  candidates : List Json := []
  votingStatus : Json := .null

def setCandidates (v : View) : Option Json → View
  | some (.arr candidates) => { v with candidates := candidates }
  | _ => v

def setVotingStatus (v : View) : Option Json → View
  | some status => { v with votingStatus := status }
  | none => v

def onmessage (v : View) (data : Str) : View :=
  match parse data with
  | some msg =>
    setVotingStatus (setCandidates v (msg.field "candidates".toList)) (msg.field "voting_status".toList)
  | none => v

def receive (frames : List Str) : View := frames.foldl onmessage {}

/-- What one payload shows. -/
def shown (p : WsPayload) : View where
  candidates := p.candidates.map jsonCandidate
  votingStatus := .obj [jsonName "effectively_open" (jsonBool p.effectivelyOpen),
    jsonName "ends_at" (jsonTime p.endsAt)]

theorem payload_fields (p : WsPayload) :
    (jsonPayload p).field "candidates".toList = some (.arr (p.candidates.map jsonCandidate)) ∧
      (jsonPayload p).field "voting_status".toList = some (shown p).votingStatus :=
  ⟨rfl, rfl⟩

theorem marshal_text {p : WsPayload} {m : Str} (marshalled : marshalPayload p = .ok m) :
    m = print (jsonPayload p) := by
  unfold marshalPayload at marshalled
  split at marshalled
  · cases marshalled
    rfl
  · cases marshalled

/- A payload in a frame of its own replaces both pieces of state. -/
theorem onmessage_payload {p : WsPayload} {m : Str} (marshalled : marshalPayload p = .ok m)
    (v : View) : onmessage v m = shown p := by
  rw [marshal_text marshalled, onmessage, parse_print]
  dsimp only
  rw [(payload_fields p).1, (payload_fields p).2]
  rfl

/- Two payloads that show the same are the same text. -/
theorem shown_text {p q : WsPayload} {m n : Str} (marshalled : marshalPayload p = .ok m)
    (marshalled' : marshalPayload q = .ok n) (same : shown p = shown q) : m = n := by
  have candidates := congrArg View.candidates same
  have status := congrArg View.votingStatus same
  dsimp only [shown] at candidates status
  rw [marshal_text marshalled, marshal_text marshalled', jsonPayload, jsonPayload, candidates, status]

theorem shown_not_initial (p : WsPayload) : shown p ≠ {} := by
  intro same
  have status := congrArg View.votingStatus same
  dsimp only [shown] at status
  cases status

end UseWebSocket
