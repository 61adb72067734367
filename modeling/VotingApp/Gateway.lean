import VotingApp.Lib.Renaming
import VotingApp.Frames

/-!
What stands in front of the vote routes: the engine of router.Setup, and the address
that it takes from the network peer and the forwarding headers of a request.
-/
namespace Gateway
open GoText EffectProgram CallPool Renaming VotingWorld Handlers VotingServer Frames

/-- The headers X-Forwarded-For and X-Real-IP, empty when a request has none. -/
structure Headers where
  forwardedFor : Str
  realIP : Str
  deriving DecidableEq, Repr

/-- c.ClientIP of gin for a peer and its headers, by the proxies that the engine trusts. -/
abbrev ClientIP := (Str → Bool) → Str → Headers → Str

/- gin.New trusts every proxy, and Setup does not call SetTrustedProxies. -/
def setup (gin : ClientIP) : Str → Headers → Str := gin fun _ => true

/-- The two vote routes. -/
inductive VoteRequest where
  | requestOTP (body : Except Str RequestOTPRequest)
  | verifyVote (userAgent : Str) (body : Except Str VerifyVoteRequest)
  deriving DecidableEq

/-- A request to a vote route as it comes in from the network. -/
structure Incoming where
  peer : Str
  headers : Headers
  request : VoteRequest
  deriving DecidableEq

inductive Arrival where
  | vote (r : Incoming)
  | other (req : Call)
  deriving DecidableEq

/-- What the handlers are given of a request. -/
def callOf (gin : ClientIP) : Arrival → Call
  | .vote ⟨peer, headers, .requestOTP body⟩ => .requestOTP (setup gin peer headers) body
  | .vote ⟨peer, headers, .verifyVote userAgent body⟩ =>
    .verifyVote (setup gin peer headers) userAgent body
  | .other req => req

abbrev Front := Pool Cmd Reply World Oracle Arrival Answer
abbrev Traffic := List (Label Oracle Env Arrival)

/- The server behind its engine. -/
def gateway (cfg : Config) (gin : ClientIP) : Machine Cmd Reply World Oracle Env Arrival Answer where
  perform := World.perform
  env := World.env
  program arrival := program cfg (callOf gin arrival)
  spawns c := (spawns c).map .other

def anyTraffic (_ : Front) (_ : Label Oracle Env Arrival) : Bool := true

/-- What traffic leads to from the start. -/
def traced (cfg : Config) (gin : ClientIP) (seed : Seed) (t : Traffic) : Option Front :=
  exec (gateway cfg gin) anyTraffic { world := seed.world } t

/-- The state of the server behind the engine. -/
def behind (gin : ClientIP) : Front → State := Pool.rename (callOf gin)

theorem gateway_renames (cfg : Config) (gin : ClientIP) :
    Renames (gateway cfg gin) (server cfg) (callOf gin) where
  perform := rfl
  env := rfl
  program _ := rfl
  spawns c := by
    rw [gateway, List.map_map]
    exact List.map_id _

/- The server sees of the traffic only the calls. -/
theorem exec_behind (cfg : Config) (gin : ClientIP) (seed : Seed) (t : Traffic) :
    exec (server cfg) anySchedule seed.start (t.map (Label.rename (callOf gin))) =
      (traced cfg gin seed t).map (behind gin) :=
  exec_rename (gateway_renames cfg gin) { world := seed.world } t

theorem reached_behind {cfg : Config} {gin : ClientIP} {seed : Seed} {t : Traffic} {s : Front}
    (runs : traced cfg gin seed t = some s) :
    Reaches (server cfg) anySchedule seed.start (behind gin s) := by
  have same := exec_behind cfg gin seed t
  rw [runs] at same
  exact reaches_of_exec same

/-- The leftmost entry of a header that is a list of addresses. -/
def leftmost (cfg : Config) (parseIP : Str → Option Str) (header : Str) : Option Str :=
  if header ≠ [] ∧ ∀ item ∈ splitAll ',' header, (parseIP (trimSpace cfg item)).isSome
  then (splitAll ',' header).head?.map (trimSpace cfg) else none

/-- What a request resolves to when every proxy is trusted. -/
def resolved (cfg : Config) (parseIP : Str → Option Str) (peer : Str) (h : Headers) : Str :=
  match parseIP peer with
  | none => []
  | some remoteIP =>
    ((leftmost cfg parseIP h.forwardedFor).orElse fun _ => leftmost cfg parseIP h.realIP).getD remoteIP

/-- What is relied on of gin, and of net.ParseIP with the text of what it accepts: an engine that trusts
every proxy reads the lists from right to left, up to the leftmost entry. -/
structure TrustsAll (cfg : Config) (parseIP : Str → Option Str) (gin : ClientIP) : Prop where
  reads : ∀ peer h, gin (fun _ => true) peer h = resolved cfg parseIP peer h

/- gin's validateHeader over the items from right to left, as of its documentation. -/
def readItems (cfg : Config) (parseIP : Str → Option Str) (isTrustedProxy : Str → Bool) : List Str → Option Str
  | [] => none
  | item :: further =>
    match parseIP (trimSpace cfg item) with
    | none => none
    | some ip =>
      if further.isEmpty || !isTrustedProxy ip then some (trimSpace cfg item)
      else readItems cfg parseIP isTrustedProxy further

def validateHeader (cfg : Config) (parseIP : Str → Option Str) (isTrustedProxy : Str → Bool) (header : Str) :
    Option Str :=
  if header = [] then none else readItems cfg parseIP isTrustedProxy (splitAll ',' header).reverse

/-- A gin that does what is relied on. -/
def clientIP (cfg : Config) (parseIP : Str → Option Str) : ClientIP := fun isTrustedProxy peer h =>
  match parseIP peer with
  | none => []
  | some remoteIP =>
    if isTrustedProxy remoteIP then
      match validateHeader cfg parseIP isTrustedProxy h.forwardedFor with
      | some ip => ip
      | none => (validateHeader cfg parseIP isTrustedProxy h.realIP).getD remoteIP
    else remoteIP

/- Over trusted proxies the loop goes on to the leftmost item. -/
theorem readItems_trusting (cfg : Config) (parseIP : Str → Option Str) :
    ∀ items, readItems cfg parseIP (fun _ => true) items =
      if ∀ item ∈ items, (parseIP (trimSpace cfg item)).isSome
      then items.getLast?.map (trimSpace cfg) else none := by
  intro items
  induction items with
  | nil => simp [readItems]
  | cons item further ih =>
    rw [readItems]
    cases parsed : parseIP (trimSpace cfg item) with
    | none => simp [parsed]
    | some ip =>
      cases further with
      | nil => simp [parsed]
      | cons next rest => simp [parsed, ih]

theorem validateHeader_leftmost (cfg : Config) (parseIP : Str → Option Str) (header : Str) :
    validateHeader cfg parseIP (fun _ => true) header = leftmost cfg parseIP header := by
  unfold validateHeader leftmost
  by_cases empty : header = []
  · simp [empty]
  · rw [if_neg empty, readItems_trusting]
    simp [empty]

theorem clientIP_trusts (cfg : Config) (parseIP : Str → Option Str) :
    TrustsAll cfg parseIP (clientIP cfg parseIP) where
  reads peer h := by
    unfold clientIP resolved
    cases parseIP peer with
    | none => rfl
    | some remoteIP =>
      dsimp only
      rw [if_pos rfl, validateHeader_leftmost, validateHeader_leftmost]
      cases leftmost cfg parseIP h.forwardedFor with
      | none => rfl
      | some ip => rfl

end Gateway
