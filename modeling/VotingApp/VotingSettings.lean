import VotingApp.Lib.JsonText
import VotingApp.World

/-!
voting_settings_service.go and BuildWSPayload of vote_service.go. Redis holds one
JSON text of the settings in front of the row of the voting_settings table.
-/
namespace VotingSettings
open GoText GoTime JsonText Tables EffectProgram VotingWorld

def votingSettingsRedisKey : Str := "voting:settings".toList

def yearOutOfRange : GoErr :=
  newError "json: error calling MarshalJSON for type time.Time: year outside of range [0,9999]"

def unmarshalError : GoErr := newError "json: cannot unmarshal value into Go struct"

def jsonBool (b : Bool) : Json := .bool b

/- A pointer to a time; the nil pointer is null. -/
def jsonTime : Option Nat → Json
  | none => .null
  | some t => .str (format t)

def jsonName (name : String) (value : Json) : Str × Json := (name.toList, value)

/-- The cachedSettings struct with its JSON names. -/
def cachedSettings (s : Settings) : Json :=
  .obj [jsonName "is_open" (jsonBool s.isOpen), jsonName "ends_at" (jsonTime s.endsAt),
    jsonName "custom_domains_only" (jsonBool s.customDomainsOnly)]

def marshalSettings (s : Settings) : Except GoErr Str :=
  if s.endsAt.all printable then .ok (print (cachedSettings s)) else .error yearOutOfRange

def readBool (old : Bool) : Json → Option Bool
  | .null => some old
  | .bool b => some b
  | _ => none

def readTime : Json → Option (Option Nat)
  | .null => some none
  | .str s => (GoTime.parse false s).map some
  | _ => none

/- One member of the object. Names are compared without case, unknown ones skipped. -/
def readMember (s : Settings) (field : Str × Json) : Option Settings :=
  let name := field.1.map Char.toLower
  if name = "is_open".toList then
    (readBool s.isOpen field.2).map fun b => { s with isOpen := b }
  else if name = "ends_at".toList then
    (readTime field.2).map fun t => { s with endsAt := t }
  else if name = "custom_domains_only".toList then
    (readBool s.customDomainsOnly field.2).map fun b => { s with customDomainsOnly := b }
  else some s

def zeroSettings : Settings := ⟨false, none, false⟩

def unmarshalSettings (raw : Str) : Except GoErr Settings :=
  match JsonText.parse raw with
  | some .null => .ok zeroSettings
  | some (.obj fields) =>
    match fields.foldlM readMember zeroSettings with
    | some s => .ok s
    | none => .error unmarshalError
  | _ => .error unmarshalError

def fromRedis : Act (Except GoErr Settings) := do
  match ← redis (.get votingSettingsRedisKey) with
  | .error err => return .error err
  | .ok raw => return unmarshalSettings raw

def toRedis (s : Settings) : Act (Option GoErr) :=
  match marshalSettings s with
  | .error err => return some err
  | .ok raw => do
    match ← redis (.set votingSettingsRedisKey raw 0) with
    | .error err => return some err
    | .ok () => return none

def getStatus : Act (Except GoErr Settings) := do
  match ← fromRedis with
  | .ok cached => return .ok cached
  | .error _ =>
    match ← sql .getSettings with
    | .error err => return .error err
    | .ok s =>
      let _ ← toRedis s
      return .ok s

/- is_open, and ends_at not passed; the clock is only read when there is an ends_at. -/
def isVotingOpen : Act (Except GoErr Bool) := do
  match ← getStatus with
  | .error err => return .error err
  | .ok s =>
    if s.isOpen then
      match s.endsAt with
      | none => return .ok true
      | some endsAt =>
        let now ← issue Cmd.now
        return .ok (!(endsAt < now))
    else return .ok false

def getCustomDomainsOnly : Act (Except GoErr Bool) := do
  match ← getStatus with
  | .error err => return .error err
  | .ok s => return .ok s.customDomainsOnly

def jsonCandidate (c : CandidateWithVotes) : Json :=
  .obj [jsonName "id" (.num c.candidate.id), jsonName "name" (.str c.candidate.name),
    jsonName "description" (.str c.candidate.description),
    jsonName "image_path" (.str c.candidate.imagePath),
    jsonName "total_votes" (.num c.totalVotes),
    jsonName "created_at" (jsonTime (some c.candidate.createdAt)),
    jsonName "updated_at" (jsonTime c.candidate.updatedAt)]

/-- The wsPayload struct: what every browser is sent. -/
structure WsPayload where
  candidates : List CandidateWithVotes
  effectivelyOpen : Bool
  endsAt : Option Nat
  deriving DecidableEq, Repr

def jsonPayload (p : WsPayload) : Json :=
  .obj [jsonName "candidates" (.arr (p.candidates.map jsonCandidate)),
    jsonName "voting_status" (.obj [jsonName "effectively_open" (jsonBool p.effectivelyOpen),
      jsonName "ends_at" (jsonTime p.endsAt)])]

def printableCandidate (c : CandidateWithVotes) : Bool :=
  printable c.candidate.createdAt && c.candidate.updatedAt.all printable

def marshalPayload (p : WsPayload) : Except GoErr Str :=
  if p.candidates.all printableCandidate && p.endsAt.all printable then .ok (print (jsonPayload p))
  else .error yearOutOfRange

/- The settings are read twice, and a failed read counts as closed without an end. -/
def buildWSPayload : Act (Except GoErr Str) := do
  match ← sql .getAllWithVotes with
  | .error err => return .error (wrapError "fetching candidates for payload" err)
  | .ok candidates =>
    let effectivelyOpen ← isVotingOpen
    let status ← getStatus
    return marshalPayload
      { candidates := candidates
        effectivelyOpen := match effectivelyOpen with
          | .ok open_ => open_
          | .error _ => false
        endsAt := match status with
          | .ok s => s.endsAt
          | .error _ => none }

/- Non-fatal: without a payload nothing is sent. -/
def broadcastPayload : Act Unit := do
  match ← buildWSPayload with
  | .error _ => return ()
  | .ok data => issue (Cmd.broadcast data)

def updateSettings (isOpen : Bool) (endsAt : Option Nat) : Act (Option GoErr) := do
  match ← sql (.updateSettings isOpen endsAt) with
  | .error err => return some err
  | .ok () =>
    let _ ← redis (.del [votingSettingsRedisKey])
    broadcastPayload
    return none

def updateCustomDomainsOnly (value : Bool) : Act (Option GoErr) := do
  match ← sql (.updateCustomDomainsOnly value) with
  | .error err => return some err
  | .ok () =>
    let _ ← redis (.del [votingSettingsRedisKey])
    return none

end VotingSettings
