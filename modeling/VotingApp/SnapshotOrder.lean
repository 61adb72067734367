import VotingApp.LiveResults
import VotingApp.Versions

/-!
What a new client finds on its channel. ServeWS registers the client first and sends its snapshot
past the loop, so a broadcast can come in between.
-/
namespace SnapshotOrder
open GoText GoTime JsonText Tables WsHub EffectProgram CallPool PoolHistory ExpiringStore
open VotingWorld OtpService VotingSettings VoteService CustomDomains Handlers VotingServer
open Frames OtpRecords Provenance SettingsCache HubDelivery HubLoop ClosedChannels HubTraces Versions
open LiveRuns LiveResults

/-- What the calls have put on Hub.Broadcast. -/
def queued (ms : List Turn) : List Str := ms.filterMap fun
  | .send msg => some msg
  | _ => none

section Traces
variable {cfg : Config} {allow : State → Move → Bool} {seed : Seed} {s : State} {ms : List Turn}

end Traces

/-- A SendToOne to the client after Hub.Run has come to it with broadcasts, but with no more than
leave room on its channel. -/
def Overtaken (id : Nat) (during : List Turn) : Prop := ∃ front data back,
  during = front ++ .sendToOne id data :: back ∧ .visit id ∈ front ∧
    front.count (.visit id) < channelSize

/-- Nothing was put on the channel but broadcasts, or the snapshot came first. -/
inductive Shape (id : Nat) (during : List Turn) (c : Client) : Prop where
  | without (all : ∀ p ∈ c.sent, p.origin = .broadcast)
  | first (data : Str) (made : .sendToOne id data ∈ during)
      (sent : c.sent = ⟨.snapshot, data⟩ :: (broadcasts c).map (Put.mk .broadcast))

/-- The broadcasts that Hub.Run had not yet taken when the client was registered. -/
def since (log : Log) (before : List Turn) : List Message := (messages log).drop (takes before).length

/-- Two messages for the client in the order of its channel, each with the log that it found: a
broadcast that Hub.Run takes after the client was registered, behind another one or the snapshot. -/
inductive Follows (log : Log) (before : List Turn) (first : LogEntry) (found : Log) (second : LogEntry)
    (found' : Log) : Prop where
  | broadcast {late mid : Log} (order : log = late ++ second :: found')
    (earlier : found' = mid ++ first :: found) (sent : (sentBy first).isSome) (sent' : (sentBy second).isSome)
    (untaken : (takes before).length ≤ (sends found).length)
  | snapshot {late late' : Log} {data : Str} (order : log = late ++ second :: found')
    (order' : log = late' ++ first :: found) (served : first.cmd = .sendToOne (before.count .register) data)
    (sent' : (sentBy second).isSome) (untaken : (takes before).length ≤ (sends found').length)

/-- A change that found the older log lies in the newer one. -/
def ChangedIn (P : LogEntry → Prop) (newer older : Log) : Prop :=
  ∃ front change, newer = front ++ change :: older ∧ P change

/- Where fewer changes are seen, a change lies in between. -/
theorem changed_since {P : LogEntry → Prop} [DecidablePred P] {log older newer : Log} (in_log : older <:+ log)
    (in_log' : newer <:+ log) (fewer : older.countP P < newer.countP P) :
    ∃ change, ChangedIn P newer change ∧ older <:+ change := by
  rcases List.suffix_or_suffix_of_suffix in_log in_log' with inside | inside
  · obtain ⟨more, rfl⟩ := inside
    rw [List.countP_append] at fewer
    obtain ⟨change, member, changes⟩ := List.countP_pos_iff.mp (show 0 < more.countP P by omega)
    obtain ⟨front, back, rfl⟩ := List.append_of_mem member
    exact ⟨back ++ older, ⟨front, change, by simp, by simpa using changes⟩, List.suffix_append back older⟩
  · have all := inside.sublist.countP_le (p := fun ev => decide (P ev))
    omega

def servesClient (ev : LogEntry) : Bool :=
  match ev.cmd with
  | .sendToOne _ _ => true
  | _ => false

/-- One broadcast is sent at most, and nothing has changed before a snapshot is sent. -/
def calm (log : Log) : Bool :=
  decide ((sends log).length ≤ 1) && (log.dropWhile fun ev => !servesClient ev).all fun ev =>
    decide (¬ ChangesBoard ev) && decide (¬ ChangesSettings ev)

/-- The client is registered and its snapshot is read; a vote comes in and is broadcast; then the
snapshot is sent. -/
def lateMoves : List Move :=
  .start .serveWS :: runs 0 6 ++ .start (codeFor "a@gmail.com" "phone a" 1) :: runs 1 4 ++
    .start (voteOf "a@gmail.com") :: runs 2 8 ++ [.env (.hubBroadcast [0])] ++ runs 0 2

end SnapshotOrder
