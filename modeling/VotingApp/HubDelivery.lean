import VotingApp.Frames

/-!
What the hub hands out. The broadcasts a client in the hub was sent are the last ones the
loop has taken from its channel, in the order in which the calls put them there.
-/
namespace HubDelivery
open GoText GoTime Tables WsHub EffectProgram CallPool PoolHistory VotingWorld
open OtpService VotingSettings VoteService CustomDomains Handlers VotingServer Footprints Frames

/-- The broadcasts that were put on the channel of a client. -/
def broadcasts (c : Client) : List Str :=
  (c.sent.filter fun p => p.origin = .broadcast).map Put.data

/-- The payload of a send on Hub.Broadcast. -/
def sentBy (ev : LogEntry) : Option Str :=
  match ev.cmd with
  | .broadcast data => some data
  | _ => none

/-- Everything the calls have sent, the oldest first. -/
def sends (log : Log) : List Str := (log.filterMap sentBy).reverse

/-- What each client in the hub was sent is the end of what was handed out. -/
structure Delivered (h : Hub) (delivered : List Str) : Prop where
  suffix : ∀ c ∈ h.clients, c.inHub = true → broadcasts c <:+ delivered
  live : ∀ c ∈ h.clients, c.inHub = true → c.closed = false

theorem offer_queue (msg : Str) (h : Hub) (id : Nat) : (h.offer msg id).queue = h.queue := by
  unfold Hub.offer
  cases h.clients[id]? with
  | none => rfl
  | some c =>
    dsimp only
    split <;> rfl

theorem offer_client (msg : Str) (h : Hub) (id i : Nat) :
    (h.offer msg id).clients[i]? =
      if i = id then h.clients[i]?.map fun c => if c.closed then c else c.offer msg
      else h.clients[i]? := by
  unfold Hub.offer
  cases at_id : h.clients[id]? with
  | none =>
    by_cases same : i = id
    · simp [same, at_id]
    · simp [same]
  | some c =>
    have inside : id < h.clients.length := (List.getElem?_eq_some_iff.mp at_id).1
    by_cases gone : c.closed = true
    · by_cases same : i = id
      · simp [gone, same, at_id]
      · simp [gone, same]
    · by_cases same : i = id
      · simp [gone, same, at_id, Hub.change, List.getElem?_set_self inside]
      · simp [gone, same, Hub.change, List.getElem?_set_ne (Ne.symm same)]

theorem registered_nodup (h : Hub) : h.registered.Nodup := List.nodup_range.filter _

theorem mem_registered {h : Hub} {i : Nat} {c : Client} (at_i : h.clients[i]? = some c) :
    i ∈ h.registered ↔ c.inHub = true := by
  obtain ⟨inside, is⟩ := List.getElem?_eq_some_iff.mp at_i
  simp [Hub.registered, inside, is]

theorem put_broadcasts (msg : Str) (c : Client) :
    broadcasts (c.put .broadcast msg) = broadcasts c ++ [msg] := by
  simp [broadcasts, Client.put]

theorem pumpStep_sent {c c' : Client} (moved : c.pumpStep = some c') :
    c'.inHub = c.inHub ∧ c'.closed = c.closed ∧ c'.sent = c.sent := by
  unfold Client.pumpStep at moved
  split at moved
  · cases moved
  · cases moved
  · split at moved
    · cases moved
      exact ⟨rfl, rfl, rfl⟩
    · cases moved
  · cases moved
    exact ⟨rfl, rfl, rfl⟩
  · cases moved
    exact ⟨rfl, rfl, rfl⟩
  · cases moved
    exact ⟨rfl, rfl, rfl⟩
  · cases moved
    exact ⟨rfl, rfl, rfl⟩
  · cases moved

theorem pumpFail_sent {c c' : Client} (moved : c.pumpFail = some c') :
    c'.inHub = c.inHub ∧ c'.closed = c.closed ∧ c'.sent = c.sent := by
  unfold Client.pumpFail at moved
  split at moved
  · cases moved
  · cases moved
    exact ⟨rfl, rfl, rfl⟩

section Runs
variable {cfg : Config} {allow : State → Move → Bool} {seed : Seed} {s : State}

/-- The channel of the hub holds what was sent and is not handed out yet. -/
def HandedOut (log : Log) (h : Hub) : Prop :=
  ∃ delivered, sends log = delivered ++ h.queue ∧ Delivered h delivered

end Runs
end HubDelivery
