import VotingApp.VoteAcceptance
import VotingApp.EmailAdmission
import VotingApp.PeerLimits

/-!
The way of a voter: a code is asked for, mailed, and presented. Each of the two requests is
executed alone, and what the first one comes to is settled by the world it starts in, the
number that is drawn and the verdict on the captcha.
-/
namespace VoterJourney
open GoText GoTime JsonText Tables WsHub EffectProgram CallPool SoloRun ExpiringStore VotingWorld
open OtpService VotingSettings VoteService CustomDomains Handlers VotingServer
open Footprints Frames TableInvariants OtpRecords SettingsCache PayloadReads SoloServer
open EmailBlock DomainCache VoteAcceptance
open EmailAdmission (isEmailAllowed_determined)
open PeerLimits (letsPass)

/-- What a healthy command answers, given the draw and the verdict. -/
def answers (draw : Nat) (verdict : Siteverify) (w : World) : (c : Cmd) → Option (Reply c × World)
  | .randInt => some (.ok draw, w)
  | .enqueue recipient subject body =>
    some (none, { w with outbox := w.outbox ++ [⟨recipient, subject, body⟩] })
  | .siteverify _ _ => some (verdict, w)
  | c => answer w c

def settled (draw : Nat) (verdict : Siteverify) (o : Oracle) : Bool :=
  o.fault.isNone && o.draw % 900000 = draw && o.verdict = verdict

/-- The world without the hub. -/
def offline (w : World) : World := { w with hub := {} }

/-- The call is executed alone, with this draw and this verdict. -/
abbrev Asks (cfg : Config) (draw : Nat) (verdict : Siteverify) {α : Type} (w : World) (p : Act α)
    (a : α) (w' : World) (later : List Call) : Prop :=
  Solo (server cfg) (settled draw verdict) hubOnly w p a w' later

theorem settled_parts {draw : Nat} {verdict : Siteverify} {o : Oracle}
    (fair : settled draw verdict o = true) :
    o.fault = none ∧ o.draw % 900000 = draw ∧ o.verdict = verdict := by
  simpa [settled, and_assoc] using fair

theorem answers_settle (cfg : Config) (draw : Nat) (verdict : Siteverify) :
    Settles (server cfg) (settled draw verdict) hubOnly offline (answers draw verdict) where
  performs {w o c r w' x} fair performed answered := by
    obtain ⟨healthy, drawn, decided⟩ := settled_parts fair
    cases c with
    | redis c =>
      obtain ⟨rfl, rfl⟩ := perform_redis performed
      cases answered
      rw [faulty_ok healthy]
      rfl
    | sql c =>
      obtain ⟨rfl, rfl⟩ := perform_sql performed
      cases answered
      rw [faulty_ok healthy]
      rfl
    | broadcast data =>
      cases answered
      obtain ⟨hub, -, same⟩ := Option.map_eq_some_iff.mp performed
      cases same
      rfl
    | randInt =>
      cases answered
      cases performed
      rw [faulty_ok healthy, drawn]
    | enqueue recipient subject body =>
      cases answered
      simp only [server, World.perform, healthy, Option.some.injEq] at performed
      cases performed
      rfl
    | siteverify token ip =>
      cases answered
      cases performed
      rw [decided]
    | now =>
      cases answered
      cases performed
      rfl
    | goWarmCache =>
      cases answered
      cases performed
      rfl
    | _ => cases answered
  env {w e w'} calm moved := by
    cases e with
    | tick d => cases calm
    | _ =>
      obtain ⟨hub, -, rfl⟩ := Option.map_eq_some_iff.mp moved
      rfl

theorem answers_go (cfg : Config) {draw : Nat} (small : draw < 900000) (verdict : Siteverify)
    (w : World) (c : Cmd) (x : Reply c × World) (answered : answers draw verdict (offline w) c = some x) :
    ∃ w₁ o r w₂, Calm (server cfg) hubOnly w w₁ ∧ settled draw verdict o = true ∧
      (server cfg).perform w₁ o c = some (r, w₂) := by
  have fair : settled draw verdict { draw := draw, verdict := verdict } = true := by
    simp [settled, Nat.mod_eq_of_lt small]
  cases c with
  | broadcast data =>
    obtain ⟨w', path, room⟩ := room_for_broadcast cfg w
    refine ⟨w', { draw := draw, verdict := verdict }, (),
      { w' with hub := { w'.hub with queue := w'.hub.queue ++ [data] } }, path, fair, ?_⟩
    change (w'.hub.send data).map _ = _
    rw [Hub.send, if_pos room]
    rfl
  | register => cases answered
  | sendToOne client data => cases answered
  | startPumps client => cases answered
  | _ => exact ⟨w, { draw := draw, verdict := verdict }, _, _, .refl w, fair, rfl⟩

/-- What RateLimit counts for the address with this request. -/
def counted (w : World) (ip : Str) : Except GoErr Int :=
  fromStore (w.redis.incr atoi w.clock (rateLimitKey ip)).1

/-- The answer of IsDomainAllowed, by the set if it is marked as warmed, else by the table. -/
def domainAnswer (w : World) (domain : Str) : Except GoErr Bool :=
  if w.redis.present w.clock customDomainsWarmedRedisKey = 0 then .ok (0 < w.db.countDomain domain)
  else fromStore (w.redis.sismember w.clock customDomainsRedisKey domain)

/-- The answer of isEmailAllowed, by the settings and the domains that it finds. -/
def emailAnswer (cfg : Config) (w : World) (email : Str) : Except GoErr Bool :=
  if !(settingsSeen w).customDomainsOnly && isEmailDomainAllowed cfg email then .ok true
  else
    match cutLast '@' email with
    | none => .ok false
    | some (_, domain) => domainAnswer w ((toLower cfg domain).map cfg.lowerRune)

/-- Nothing stands against sending a code for the vote. -/
structure Unopposed (w : World) (email fp ip : Str) (id : Int) : Prop where
  new_email : ∀ v ∈ w.db.votes, v.voterEmail ≠ email
  new_fingerprint : ∀ v ∈ w.db.votes, v.voterFingerprint ≠ fp
  below_cap : ip ≠ [] → w.db.countVotes (fun v => v.voterIp = ip) < maxVotesPerIP
  candidate : ∃ c ∈ w.db.candidates, c.id = id
  unblocked : w.redis.lookup w.clock (otpBlockedKey email) = none

/-- The request is welcome, as far as the rate limit is not concerned. -/
structure Welcome (cfg : Config) (w : World) (verdict : Siteverify) (ip : Str)
    (req : RequestOTPRequest) : Prop where
  is_open : effectivelyOpen (settingsSeen w) w.clock = true
  admitted : emailAnswer cfg w (normalizeEmail cfg req.email) = .ok true
  human : cfg.turnstileSecret = [] ∨ verdict = .answered true
  unopposed : Unopposed w (normalizeEmail cfg req.email) req.fingerprint ip req.candidateID

/-- The request is one that is to be answered with a code. -/
structure Eligible (cfg : Config) (w : World) (verdict : Siteverify) (ip : Str)
    (req : RequestOTPRequest) : Prop where
  within_limit : letsPass cfg (counted w ip) = true
  welcome : Welcome cfg w verdict ip req

/-- The code has been stored and mailed, and nothing else is different but counters and caches. -/
structure Sent (w w' : World) (email fp : Str) (id : Int) (draw : Nat) : Prop where
  clock : w'.clock = w.clock
  db : w'.db = w.db
  record : w'.redis (otpKey email) =
    some ⟨.text (otpRecord (otpCode draw) id fp), some (w.clock + otpTTL)⟩
  keys : ∀ k, k ≠ votingSettingsRedisKey → (∀ ip, k ≠ rateLimitKey ip) → k ≠ otpKey email →
    w'.redis k = w.redis k
  settings : settingsSeen w' = settingsSeen w
  cached : Cached w'
  mail : ∃ c ∈ w.db.candidates, c.id = id ∧
    w'.outbox = w.outbox ++ [⟨email, otpSubject, otpBody c.name (otpCode draw)⟩]

/-- Nothing is different but the rate limit and what Redis has of the settings. -/
structure Aside (w w' : World) : Prop where
  clock : w'.clock = w.clock
  db : w'.db = w.db
  outbox : w'.outbox = w.outbox
  keys : ∀ k, k ≠ votingSettingsRedisKey → (∀ ip, k ≠ rateLimitKey ip) → w'.redis k = w.redis k
  settings : settingsSeen w' = settingsSeen w
  cached : Cached w'

theorem aside_trans {w w' w'' : World} (first : Aside w w') (second : Aside w' w'') : Aside w w'' where
  clock := second.clock.trans first.clock
  db := second.db.trans first.db
  outbox := second.outbox.trans first.outbox
  keys k other unlimited := (second.keys k other unlimited).trans (first.keys k other unlimited)
  settings := second.settings.trans first.settings
  cached := second.cached

theorem aside_refl {w : World} (cached : Cached w) : Aside w w :=
  ⟨rfl, rfl, rfl, fun _ _ _ => rfl, rfl, cached⟩

section Evaluating
variable {draw : Nat} {verdict : Siteverify} {α : Type} {w w' : World} {cfg : Config}

/- Most programs use neither chance nor a third party. -/
theorem evaluate_determined {p : Act α} (uses : p.Issues Determined) (w : World) :
    evaluate (answers draw verdict) p w = evaluate answer p w := by
  induction p generalizing w with
  | done a => rfl
  | call c next ih =>
    have same : answers draw verdict w c = answer w c := by
      have determined := uses.1
      cases c <;> first | rfl | cases determined
    rw [evaluate, evaluate, same]
    cases answer w c with
    | none => rfl
    | some x => exact ih x.1 (uses.2 x.1) x.2

theorem settingsSeen_congr (key : w'.redis votingSettingsRedisKey = w.redis votingSettingsRedisKey)
    (row : w'.db.settings = w.db.settings) : settingsSeen w' = settingsSeen w := by
  rw [settingsSeen, settingsSeen, key, row]

/- A change of the rate limit. -/
theorem aside_limited {st : Store Str Str} (ip : Str) (cached : Cached w)
    (others : ∀ k, k ≠ rateLimitKey ip → st k = w.redis k) : Aside w { w with redis := st } := by
  have key : st votingSettingsRedisKey = w.redis votingSettingsRedisKey :=
    others _ (by simp)
  refine ⟨rfl, rfl, rfl, ?_, settingsSeen_congr key rfl, ?_⟩
  · intro k _ unlimited
    exact others k (unlimited ip)
  · unfold Cached
    dsimp only
    rw [key]
    exact cached

theorem allow_settles (cfg : Config) (cached : Cached w) (ip : Str) : ∃ r w',
    evaluate answer (allow cfg ip) w = some (r, w') ∧
    (r = .ok false ↔ letsPass cfg (counted w ip) = false) ∧ Aside w w' := by
  have counts : ∀ k, k ≠ rateLimitKey ip →
      ((RedisCmd.incr (rateLimitKey ip)).run w.redis w.clock).2 k = w.redis k := by
    intro k other
    exact run_frame (by simpa [writtenKeys] using other) _ _
  unfold allow
  rw [evaluate_redis]
  have reply : ((RedisCmd.incr (rateLimitKey ip)).run w.redis w.clock).1 = counted w ip := rfl
  rw [reply]
  cases counted w ip with
  | error err => exact ⟨_, _, rfl, by simp [letsPass], aside_limited ip cached counts⟩
  | ok count =>
    dsimp only
    split
    · rw [evaluate_redis]
      refine ⟨_, _, rfl, by simp [letsPass], aside_limited ip cached ?_⟩
      intro k other
      rw [run_frame (by simpa [writtenKeys] using other)]
      exact counts k other
    · exact ⟨_, _, rfl, by simp [letsPass], aside_limited ip cached counts⟩

theorem allow_determined (ip : Str) : (allow cfg ip).Issues Determined := by
  apply issues_redis trivial
  intro r
  cases r with
  | error err => trivial
  | ok count =>
    dsimp only
    split
    · exact ⟨trivial, fun _ => trivial⟩
    · trivial

/- GetStatus finds the settings and leaves them to be found again. -/
theorem getStatus_settles (cached : Cached w) (storable : Storable w.db.settings) :
    ∃ w', evaluate answer VotingSettings.getStatus w = some (.ok (settingsSeen w), w') ∧ Aside w w' := by
  rcases cached with absent | ⟨raw, v, held, decodes⟩
  · have seen : settingsSeen w = w.db.settings := by rw [settingsSeen, absent]
    have miss : evaluate answer fromRedis w = some (.error (storeError .missing), w) := by
      unfold fromRedis
      rw [evaluate_redis]
      dsimp only [RedisCmd.run]
      rw [get_absent itoa absent]
      rfl
    have stored := marshal_storable storable
    let raw := JsonText.print (cachedSettings w.db.settings)
    refine ⟨{ w with redis := w.redis.set w.clock votingSettingsRedisKey raw 0 }, ?_, ?_⟩
    · unfold VotingSettings.getStatus
      rw [evaluate_then miss, seen]
      dsimp only
      rw [evaluate_sql]
      dsimp only [SqlCmd.run]
      rw [toRedis, stored]
      rfl
    · have now_held : (w.redis.set w.clock votingSettingsRedisKey raw 0) votingSettingsRedisKey =
          some ⟨.text raw, none⟩ := set_self ..
      have decodes : unmarshalSettings raw = .ok w.db.settings := unmarshal_marshal storable stored
      refine ⟨rfl, rfl, rfl, ?_, ?_, Or.inr ⟨_, _, now_held, decodes⟩⟩
      · intro k other _
        exact set_other _ _ _ _ other
      · rw [seen, settingsSeen]
        dsimp only
        rw [now_held]
        dsimp only
        rw [decodes]
  · have hit : evaluate answer fromRedis w = some (.ok v, w) := by
      unfold fromRedis
      rw [evaluate_redis]
      dsimp only [RedisCmd.run]
      rw [get_forever itoa held]
      dsimp only [fromStore]
      rw [decodes]
      rfl
    have seen : settingsSeen w = v := by simp [settingsSeen, held, decodes]
    refine ⟨w, ?_, aside_refl (Or.inr ⟨raw, v, held, decodes⟩)⟩
    unfold VotingSettings.getStatus
    rw [evaluate_then hit, seen]
    rfl

theorem isVotingOpen_settles (cached : Cached w) (storable : Storable w.db.settings) :
    ∃ w', evaluate answer isVotingOpen w =
      some (.ok (effectivelyOpen (settingsSeen w) w.clock), w') ∧ Aside w w' := by
  obtain ⟨w', status, aside⟩ := getStatus_settles cached storable
  refine ⟨w', ?_, aside⟩
  unfold isVotingOpen
  rw [evaluate_then status]
  dsimp only
  cases opened : (settingsSeen w).isOpen with
  | false => simp [effectivelyOpen, opened]
  | true =>
    cases ends : (settingsSeen w).endsAt with
    | none => simp [effectivelyOpen, opened, ends]
    | some t =>
      simp only [↓reduceIte]
      rw [evaluate_now, aside.clock]
      simp [effectivelyOpen, opened, ends]

/- A lookup changes nothing. -/
theorem isDomainAllowed_settles (lowerRune : Char → Char) (domain : Str) :
    evaluate answer (CustomDomains.isDomainAllowed lowerRune domain) w =
      some (domainAnswer w (domain.map lowerRune), w) := by
  unfold CustomDomains.isDomainAllowed
  rw [evaluate_redis]
  dsimp only [RedisCmd.run]
  unfold domainAnswer
  by_cases cold : w.redis.present w.clock customDomainsWarmedRedisKey = 0
  · simp only [cold, ↓reduceIte]
    rfl
  · simp only [cold, ↓reduceIte]
    rfl

theorem emailAnswer_aside (aside : Aside w w') (email : Str) :
    emailAnswer cfg w' email = emailAnswer cfg w email := by
  have warmed : w'.redis.present w'.clock customDomainsWarmedRedisKey =
      w.redis.present w.clock customDomainsWarmedRedisKey := by
    rw [aside.clock, Store.present, Store.present, lookup_congr (aside.keys _ ?_ ?_)]
    · exact (by simp)
    · exact fun ip => (by simp)
  have held : ∀ d, w'.redis.sismember w'.clock customDomainsRedisKey d =
      w.redis.sismember w.clock customDomainsRedisKey d := by
    intro d
    rw [aside.clock, Store.sismember, Store.sismember, setAt_congr (aside.keys _ ?_ ?_)]
    · exact (by simp)
    · exact fun ip => (by simp)
  have domains : ∀ d, domainAnswer w' d = domainAnswer w d := by
    intro d
    unfold domainAnswer
    rw [warmed, held, aside.db]
  unfold emailAnswer
  rw [aside.settings]
  simp only [domains]

theorem isEmailAllowed_settles (cached : Cached w) (storable : Storable w.db.settings) (email : Str) :
    ∃ w', evaluate answer (isEmailAllowed cfg email) w = some (emailAnswer cfg w email, w') ∧
      Aside w w' := by
  obtain ⟨w', status, aside⟩ := getStatus_settles cached storable
  have mode : evaluate answer getCustomDomainsOnly w =
      some (.ok (settingsSeen w).customDomainsOnly, w') := by
    unfold getCustomDomainsOnly
    rw [evaluate_then status]
    rfl
  refine ⟨w', ?_, aside⟩
  rw [← emailAnswer_aside aside]
  unfold isEmailAllowed emailAnswer
  rw [evaluate_then mode, aside.settings]
  dsimp only
  split
  · rfl
  · cases cutLast '@' email with
    | none => rfl
    | some parts => exact isDomainAllowed_settles cfg.lowerRune (toLower cfg parts.2)

end Evaluating

section Asking
variable (cfg : Config) (draw : Nat) (verdict : Siteverify) {w w' : World}

theorem captcha_settles (token ip : Str) : ∃ r,
    evaluate (answers draw verdict) (captchaVerify cfg token ip) w = some (r, w) ∧
      (r = .ok true ↔ cfg.turnstileSecret = [] ∨ verdict = .answered true) := by
  unfold captchaVerify
  by_cases open_ : cfg.turnstileSecret = []
  · rw [if_pos open_]
    exact ⟨.ok true, rfl, by simp [open_]⟩
  · rw [if_neg open_]
    cases verdict with
    | failed err => exact ⟨_, rfl, by simp [open_]⟩
    | unreadable err => exact ⟨_, rfl, by simp [open_]⟩
    | answered success => exact ⟨_, rfl, by simp [open_]⟩

/-- The world once the code is stored and mailed. -/
def mailed (w : World) (email fp : Str) (id : Int) (name otp : Str) : World :=
  { w with
    redis := w.redis.set w.clock (otpKey email) (otpRecord otp id fp) otpTTL
    outbox := w.outbox ++ [⟨email, otpSubject, otpBody name otp⟩] }

@[simp] theorem mailed_self (w : World) (email fp : Str) (id : Int) (name otp : Str) :
    (mailed w email fp id name otp).redis (otpKey email) =
      some ⟨.text (otpRecord otp id fp), some (w.clock + otpTTL)⟩ := by
  simp [mailed, deadlineAfter_pos otpTTL_pos]

theorem mailed_other (w : World) {email k : Str} (apart : k ≠ otpKey email) (fp : Str) (id : Int)
    (name otp : Str) : (mailed w email fp id name otp).redis k = w.redis k :=
  set_other _ _ _ _ apart

theorem blocked_determined (email : Str) : (isEmailBlocked email).Issues Determined := by
  refine ⟨trivial, ?_⟩
  intro r
  cases r <;> trivial

theorem generate_settles (email fp : Str) (id : Int) (name : Str) : ∃ r w',
    evaluate (answers draw verdict) (generateAndStore email fp id name) w = some (r, w') ∧
      ((r = none ∧ w.redis.lookup w.clock (otpBlockedKey email) = none ∧
          w' = mailed w email fp id name (otpCode draw)) ∨
        (r ≠ none ∧ w.redis.lookup w.clock (otpBlockedKey email) ≠ none ∧ w' = w)) := by
  have asked : evaluate (answers draw verdict) (isEmailBlocked email) w =
      some (.ok (w.redis.lookup w.clock (otpBlockedKey email)).isSome, w) := by
    rw [evaluate_determined (blocked_determined email), blocked_evaluates]
  have drawn : evaluate (answers draw verdict) (issue Cmd.randInt : Act (Except GoErr Nat)) w =
      some (.ok draw, w) := rfl
  unfold generateAndStore
  rw [evaluate_then drawn]
  dsimp only
  rw [evaluate_then asked]
  cases w.redis.lookup w.clock (otpBlockedKey email) with
  | some e => exact ⟨_, _, rfl, Or.inr ⟨by simp, by simp, rfl⟩⟩
  | none => exact ⟨_, _, rfl, Or.inl ⟨rfl, rfl, rfl⟩⟩

theorem counted_none {db : Db} {p : Vote → Bool} :
    ¬ 0 < db.countVotes p ↔ ∀ v ∈ db.votes, p v = false := by
  simp [Db.countVotes]

theorem candidateName_cases (db : Db) (id : Int) :
    (∃ c ∈ db.candidates, c.id = id ∧ db.candidateName id = .ok c.name) ∨
      ((∀ c ∈ db.candidates, c.id ≠ id) ∧ db.candidateName id = .error noRows) := by
  unfold Db.candidateName
  cases found : db.candidates.find? fun c => c.id = id with
  | some c =>
    have member := List.mem_of_find?_eq_some found
    have same := List.find?_some found
    exact Or.inl ⟨c, member, by simpa using same, rfl⟩
  | none => exact Or.inr ⟨by simpa using found, rfl⟩

/- The last two questions, about the candidate and the block. -/
theorem nameAndStore_settles (email fp : Str) (id : Int) : ∃ r w',
    evaluate (answers draw verdict) (nameAndStore email fp id) w = some (r, w') ∧
      ((r = none ∧ w.redis.lookup w.clock (otpBlockedKey email) = none ∧
          ∃ c ∈ w.db.candidates, c.id = id ∧ w' = mailed w email fp id c.name (otpCode draw)) ∨
        (r ≠ none ∧ w' = w ∧ ((∀ c ∈ w.db.candidates, c.id ≠ id) ∨
          w.redis.lookup w.clock (otpBlockedKey email) ≠ none))) := by
  have named : evaluate (answers draw verdict) (sql (.candidateName id)) w =
      some (w.db.candidateName id, w) := rfl
  unfold nameAndStore
  rw [evaluate_then named]
  rcases candidateName_cases w.db id with ⟨c, member, same, name⟩ | ⟨nobody, missing⟩
  · rw [name]
    obtain ⟨r, w', evaluated, outcome⟩ := generate_settles draw verdict (w := w) email fp id c.name
    refine ⟨r, w', evaluated, ?_⟩
    rcases outcome with ⟨ok, unblocked, sent⟩ | ⟨failed, blocked, same⟩
    · exact Or.inl ⟨ok, unblocked, c, member, same, sent⟩
    · exact Or.inr ⟨failed, same, Or.inr blocked⟩
  · rw [missing]
    exact ⟨_, _, rfl, Or.inr ⟨by simp, rfl, Or.inl nobody⟩⟩

/- A code is sent if and only if nothing stands against it; else nothing changes. -/
theorem prepare_settles (email fp ip : Str) (id : Int) : ∃ r w',
    evaluate (answers draw verdict) (prepareOTPRequest email fp ip id) w = some (r, w') ∧
      ((r = none ∧ Unopposed w email fp ip id ∧
          ∃ c ∈ w.db.candidates, c.id = id ∧ w' = mailed w email fp id c.name (otpCode draw)) ∨
        (r ≠ none ∧ ¬ Unopposed w email fp ip id ∧ w' = w)) := by
  have stored : (∀ v ∈ w.db.votes, v.voterEmail ≠ email) → (∀ v ∈ w.db.votes, v.voterFingerprint ≠ fp) →
      (ip ≠ [] → w.db.countVotes (fun v => v.voterIp = ip) < maxVotesPerIP) → ∃ r w',
      evaluate (answers draw verdict) (nameAndStore email fp id) w = some (r, w') ∧
        ((r = none ∧ Unopposed w email fp ip id ∧
            ∃ c ∈ w.db.candidates, c.id = id ∧ w' = mailed w email fp id c.name (otpCode draw)) ∨
          (r ≠ none ∧ ¬ Unopposed w email fp ip id ∧ w' = w)) := by
    intro new_email new_fingerprint below_cap
    obtain ⟨r, w', evaluated, outcome⟩ := nameAndStore_settles draw verdict (w := w) email fp id
    refine ⟨r, w', evaluated, ?_⟩
    rcases outcome with ⟨ok, unblocked, c, member, same, sent⟩ | ⟨failed, kept, opposed⟩
    · exact Or.inl ⟨ok, ⟨new_email, new_fingerprint, below_cap, ⟨c, member, same⟩, unblocked⟩,
        c, member, same, sent⟩
    · refine Or.inr ⟨failed, ?_, kept⟩
      rintro ⟨-, -, -, ⟨c, member, same⟩, unblocked⟩
      rcases opposed with nobody | blocked
      · exact nobody c member same
      · exact blocked unblocked
  have by_email : evaluate (answers draw verdict) (sql (.countVotesByEmail email)) w =
      some (.ok (w.db.countVotes fun v => v.voterEmail = email), w) := rfl
  have by_fingerprint : evaluate (answers draw verdict) (sql (.countVotesByFingerprint fp)) w =
      some (.ok (w.db.countVotes fun v => v.voterFingerprint = fp), w) := rfl
  have by_ip : evaluate (answers draw verdict) (sql (.countVotesByIP ip)) w =
      some (.ok (w.db.countVotes fun v => v.voterIp = ip), w) := rfl
  unfold prepareOTPRequest
  rw [evaluate_then by_email]
  dsimp only
  split
  · rename_i voted
    refine ⟨_, _, rfl, Or.inr ⟨by simp, ?_, rfl⟩⟩
    intro unopposed
    exact counted_none.mpr (by simpa using unopposed.new_email) voted
  · rename_i new_email
    rw [evaluate_then by_fingerprint]
    dsimp only
    split
    · rename_i voted
      refine ⟨_, _, rfl, Or.inr ⟨by simp, ?_, rfl⟩⟩
      intro unopposed
      exact counted_none.mpr (by simpa using unopposed.new_fingerprint) voted
    · rename_i new_fingerprint
      have fresh_email := counted_none.mp new_email
      have fresh_fingerprint := counted_none.mp new_fingerprint
      simp only [decide_eq_false_iff_not] at fresh_email fresh_fingerprint
      split
      · rename_i nowhere
        exact stored fresh_email fresh_fingerprint fun somewhere => absurd nowhere somewhere
      · rename_i somewhere
        rw [evaluate_then by_ip]
        dsimp only
        split
        · rename_i reached
          refine ⟨_, _, rfl, Or.inr ⟨by simp, ?_, rfl⟩⟩
          intro unopposed
          exact absurd reached (Int.not_le.mpr (unopposed.below_cap somewhere))
        · rename_i below
          exact stored fresh_email fresh_fingerprint fun _ => Int.not_le.mp below

theorem unopposed_aside (aside : Aside w w') {email fp ip : Str} {id : Int} :
    Unopposed w' email fp ip id ↔ Unopposed w email fp ip id := by
  have blocked : w'.redis.lookup w'.clock (otpBlockedKey email) =
      w.redis.lookup w.clock (otpBlockedKey email) := by
    rw [aside.clock]
    exact lookup_congr (aside.keys _ (by simp) (by simp)) _
  constructor
  · rintro ⟨new_email, new_fingerprint, below_cap, candidate, unblocked⟩
    rw [aside.db] at new_email new_fingerprint below_cap candidate
    rw [blocked] at unblocked
    exact ⟨new_email, new_fingerprint, below_cap, candidate, unblocked⟩
  · rintro ⟨new_email, new_fingerprint, below_cap, candidate, unblocked⟩
    rw [← aside.db] at new_email new_fingerprint below_cap candidate
    rw [← blocked] at unblocked
    exact ⟨new_email, new_fingerprint, below_cap, candidate, unblocked⟩

theorem sent_mailed (aside : Aside w w') {email fp : Str} {id : Int} {c : Candidate}
    (member : c ∈ w'.db.candidates) (same : c.id = id) :
    Sent w (mailed w' email fp id c.name (otpCode draw)) email fp id draw := by
  have key : (mailed w' email fp id c.name (otpCode draw)).redis votingSettingsRedisKey =
      w'.redis votingSettingsRedisKey := mailed_other w' (by simp) ..
  rw [aside.db] at member
  refine ⟨aside.clock, aside.db, ?_, ?_, ?_, ?_, c, member, same, ?_⟩
  · rw [← aside.clock]
    exact mailed_self ..
  · intro k other unlimited apart
    exact (mailed_other w' apart ..).trans (aside.keys k other unlimited)
  · exact (settingsSeen_congr key rfl).trans aside.settings
  · unfold Cached
    rw [key]
    exact aside.cached
  · rw [← aside.outbox]
    rfl

theorem sent_aside {w'' : World} (aside : Aside w w') {email fp : Str} {id : Int}
    (sent : Sent w' w'' email fp id draw) : Sent w w'' email fp id draw := by
  refine ⟨sent.clock.trans aside.clock, sent.db.trans aside.db, ?_, ?_,
    sent.settings.trans aside.settings, sent.cached, ?_⟩
  · rw [← aside.clock]
    exact sent.record
  · intro k other unlimited apart
    exact (sent.keys k other unlimited apart).trans (aside.keys k other unlimited)
  · rw [← aside.db, ← aside.outbox]
    exact sent.mail

theorem welcome_aside (aside : Aside w w') {ip : Str} {req : RequestOTPRequest} :
    Welcome cfg w' verdict ip req ↔ Welcome cfg w verdict ip req := by
  constructor
  · rintro ⟨is_open, admitted, human, unopposed⟩
    rw [aside.settings, aside.clock] at is_open
    rw [emailAnswer_aside aside] at admitted
    exact ⟨is_open, admitted, human, (unopposed_aside aside).mp unopposed⟩
  · rintro ⟨is_open, admitted, human, unopposed⟩
    rw [← aside.settings, ← aside.clock] at is_open
    rw [← emailAnswer_aside aside] at admitted
    exact ⟨is_open, admitted, human, (unopposed_aside aside).mpr unopposed⟩

/- Behind the guard and the binding. -/
theorem requestOTPFor_settles (cached : Cached w) (storable : Storable w.db.settings)
    (is_open : effectivelyOpen (settingsSeen w) w.clock = true) (ip : Str) (req : RequestOTPRequest) :
    ∃ r w', evaluate (answers draw verdict) (requestOTPFor cfg ip req) w = some (r, w') ∧
      ((r.status = 200 ∧ Welcome cfg w verdict ip req ∧
          Sent w w' (normalizeEmail cfg req.email) req.fingerprint req.candidateID draw) ∨
        (r.status ≠ 200 ∧ ¬ Welcome cfg w verdict ip req ∧ Aside w w')) := by
  obtain ⟨w₁, allowed, aside⟩ := isEmailAllowed_settles cached storable (normalizeEmail cfg req.email)
  have asked : evaluate (answers draw verdict) (isEmailAllowed cfg (normalizeEmail cfg req.email)) w =
      some (emailAnswer cfg w (normalizeEmail cfg req.email), w₁) := by
    rw [evaluate_determined (isEmailAllowed_determined _), allowed]
  unfold requestOTPFor
  dsimp only
  rw [evaluate_then asked]
  rcases answer_is : emailAnswer cfg w (normalizeEmail cfg req.email) with err | admitted
  · refine ⟨_, w₁, rfl, Or.inr ⟨by simp [errorJSON], ?_, aside⟩⟩
    rintro ⟨-, admitted, -, -⟩
    rw [answer_is] at admitted
    cases admitted
  · cases admitted with
    | false =>
      refine ⟨_, w₁, rfl, Or.inr ⟨by simp [errorJSON], ?_, aside⟩⟩
      rintro ⟨-, admitted, -, -⟩
      rw [answer_is] at admitted
      cases admitted
    | true =>
      dsimp only
      obtain ⟨human, verified, is_human⟩ := captcha_settles cfg draw verdict (w := w₁)
        req.captchaToken ip
      rw [evaluate_then verified]
      rcases human with err | passed
      · refine ⟨_, w₁, rfl, Or.inr ⟨by simp [errorJSON], ?_, aside⟩⟩
        rintro ⟨-, -, human, -⟩
        cases is_human.mpr human
      · cases passed with
        | false =>
          refine ⟨_, w₁, rfl, Or.inr ⟨by simp [errorJSON], ?_, aside⟩⟩
          rintro ⟨-, -, human, -⟩
          cases is_human.mpr human
        | true =>
          dsimp only
          obtain ⟨prepared, w₂, evaluated, outcome⟩ := prepare_settles draw verdict (w := w₁)
            (normalizeEmail cfg req.email) req.fingerprint ip req.candidateID
          rw [evaluate_then evaluated]
          refine ⟨answerPrepared prepared, w₂, rfl, ?_⟩
          rw [unopposed_aside aside] at outcome
          rcases outcome with ⟨ok, unopposed, c, member, same, rfl⟩ | ⟨failed, opposed, rfl⟩
          · exact Or.inl ⟨(answerPrepared_ok _).mpr ok, ⟨is_open, answer_is, is_human.mp rfl, unopposed⟩,
              sent_mailed draw aside member same⟩
          · refine Or.inr ⟨fun ok => failed ((answerPrepared_ok _).mp ok), ?_, aside⟩
            rintro ⟨-, -, -, unopposed⟩
            exact opposed unopposed

/-- The answer is a 200 for a welcome request whose code has been sent, or nothing has. -/
def Outcome (cfg : Config) (draw : Nat) (w w' : World) (body : Except Str RequestOTPRequest)
    (r : Response) (fits : RequestOTPRequest → Prop) : Prop :=
  (r.status = 200 ∧ ∃ req, bindBody (RequestOTPRequest.check cfg) body = .ok req ∧ fits req ∧
      Sent w w' (normalizeEmail cfg req.email) req.fingerprint req.candidateID draw) ∨
    (r.status ≠ 200 ∧ Aside w w' ∧
      ∀ req, bindBody (RequestOTPRequest.check cfg) body = .ok req → ¬ fits req)

theorem requestOTPGuarded_settles (cached : Cached w) (storable : Storable w.db.settings) (ip : Str)
    (body : Except Str RequestOTPRequest) : ∃ r w',
    evaluate (answers draw verdict) (requestOTPGuarded cfg ip body) w = some (r, w') ∧
      Outcome cfg draw w w' body r (Welcome cfg w verdict ip) := by
  obtain ⟨w₁, guarded, aside⟩ := isVotingOpen_settles cached storable
  have asked : evaluate (answers draw verdict) isVotingOpen w =
      some (.ok (effectivelyOpen (settingsSeen w) w.clock), w₁) := by
    rw [evaluate_determined (issues_mono isVotingOpen_issues payload_determined), guarded]
  unfold requestOTPGuarded
  rw [evaluate_then asked]
  cases is_open : effectivelyOpen (settingsSeen w) w.clock with
  | false =>
    refine ⟨_, w₁, rfl, Or.inr ⟨by simp [errorJSON], aside, ?_⟩⟩
    rintro req - ⟨opened, -, -, -⟩
    rw [is_open] at opened
    cases opened
  | true =>
    dsimp only
    cases bound : bindBody (RequestOTPRequest.check cfg) body with
    | error details =>
      refine ⟨_, w₁, rfl, Or.inr ⟨by simp [badBody], aside, ?_⟩⟩
      intro req read
      rw [bound] at read
      cases read
    | ok req =>
      have still_open : effectivelyOpen (settingsSeen w₁) w₁.clock = true := by
        rw [aside.settings, aside.clock]
        exact is_open
      have still_storable : Storable w₁.db.settings := by
        rw [aside.db]
        exact storable
      obtain ⟨r, w₂, evaluated, outcome⟩ := requestOTPFor_settles cfg draw verdict aside.cached
        still_storable still_open ip req
      refine ⟨r, w₂, evaluated, ?_⟩
      rcases outcome with ⟨ok, welcome, sent⟩ | ⟨refused, unwelcome, further⟩
      · exact Or.inl ⟨ok, req, bound, (welcome_aside cfg verdict aside).mp welcome, sent_aside draw aside sent⟩
      · refine Or.inr ⟨refused, aside_trans aside further, ?_⟩
        intro req' read welcome
        rw [bound] at read
        cases read
        exact unwelcome ((welcome_aside cfg verdict aside).mpr welcome)

/- Alone, the request comes to an answer. It is a 200 exactly if the request is eligible, and then
   the code has been stored and mailed; else nothing has. -/
theorem requestOTP_settles (cached : Cached w) (storable : Storable w.db.settings) (ip : Str)
    (body : Except Str RequestOTPRequest) : ∃ r w',
    evaluate (answers draw verdict) (Handlers.requestOTP cfg ip body) w = some (r, w') ∧
      Outcome cfg draw w w' body r (Eligible cfg w verdict ip) := by
  obtain ⟨passed, w₁, limited, denied, aside⟩ := allow_settles cfg cached ip
  have asked : evaluate (answers draw verdict) (allow cfg ip) w = some (passed, w₁) := by
    rw [evaluate_determined (allow_determined ip), limited]
  have still_storable : Storable w₁.db.settings := by
    rw [aside.db]
    exact storable
  obtain ⟨r, w₂, evaluated, outcome⟩ := requestOTPGuarded_settles cfg draw verdict aside.cached
    still_storable ip body
  have goes_on : letsPass cfg (counted w ip) = true →
      Outcome cfg draw w w₂ body r (Eligible cfg w verdict ip) := by
    intro within_limit
    rcases outcome with ⟨ok, req, read, welcome, sent⟩ | ⟨refused, further, unwelcome⟩
    · exact Or.inl ⟨ok, req, read, ⟨within_limit, (welcome_aside cfg verdict aside).mp welcome⟩,
        sent_aside draw aside sent⟩
    · refine Or.inr ⟨refused, aside_trans aside further, ?_⟩
      intro req read eligible
      exact unwelcome req read ((welcome_aside cfg verdict aside).mpr eligible.welcome)
  unfold Handlers.requestOTP
  rw [evaluate_then asked]
  rcases passed with err | b
  · exact ⟨r, w₂, evaluated, goes_on (by simpa using denied)⟩
  · cases b with
    | true => exact ⟨r, w₂, evaluated, goes_on (by simpa using denied)⟩
    | false =>
      refine ⟨_, w₁, rfl, Or.inr ⟨by simp [errorJSON], aside, ?_⟩⟩
      intro req _ eligible
      have passes := eligible.within_limit
      rw [denied.mp rfl] at passes
      cases passes

end Asking

/-- The command gets in the way of a voter who has been sent a code. -/
def disturbs (email fp : Str) (id : Int) : Cmd → Bool
  | .redis c => otpKey email ∈ writtenKeys c || otpBlockedKey email ∈ writtenKeys c
  | .sql (.insertVote email' fp' _ _ _) => email' = email || fp' = fp
  | .sql (.deleteCandidate id') => id' = id
  | _ => false

/-- The schedule in which nothing gets in the voter's way. -/
def spares (email fp : Str) (id : Int) (s : State) : Move → Bool
  | .run i _ => (nextCmd s i).all fun c => !disturbs email fp id c
  | _ => true

/-- Nobody has voted with the email or the fingerprint, and the candidate is there. -/
def Awaits (email fp : Str) (id : Int) (db : Db) : Prop :=
  (∀ v ∈ db.votes, v.voterEmail ≠ email) ∧ (∀ v ∈ db.votes, v.voterFingerprint ≠ fp) ∧
    ∃ c ∈ db.candidates, c.id = id

/-- The code can be redeemed until the deadline. -/
structure Ready (w : World) (email fp : Str) (id : Int) (code : Str) (deadline : Nat) : Prop where
  record : w.redis (otpKey email) = some ⟨.text (otpRecord code id fp), some deadline⟩
  unblocked : w.redis.lookup w.clock (otpBlockedKey email) = none
  awaited : Awaits email fp id w.db

section Waiting
variable {w w' : World} {email fp code : Str} {id : Int} {deadline : Nat}

theorem awaits_congr {db db' : Db} (votes : db'.votes = db.votes)
    (candidates : db'.candidates = db.candidates) (awaits : Awaits email fp id db) :
    Awaits email fp id db' := by
  unfold Awaits
  rw [votes, candidates]
  exact awaits

theorem updateCandidate_awaits {db : Db} (awaits : Awaits email fp id db) (now : Nat) (id' : Int)
    (name description : Str) (path : Option Str) :
    Awaits email fp id (db.updateCandidate now id' name description path).2 := by
  obtain ⟨new_email, new_fingerprint, c, member, same⟩ := awaits
  unfold Db.updateCandidate
  split
  · exact ⟨new_email, new_fingerprint, c, member, same⟩
  · refine ⟨new_email, new_fingerprint, ?_⟩
    simp only [List.mem_map]
    refine ⟨_, ⟨c, member, rfl⟩, ?_⟩
    split
    · exact same
    · exact same

theorem deleteCandidate_awaits {db : Db} (awaits : Awaits email fp id db) {id' : Int} (other : id' ≠ id) :
    Awaits email fp id (db.deleteCandidate id').2 := by
  obtain ⟨new_email, new_fingerprint, c, member, same⟩ := awaits
  refine ⟨?_, ?_, c, ?_, same⟩
  · intro v kept
    exact new_email v (List.mem_of_mem_filter kept)
  · intro v kept
    exact new_fingerprint v (List.mem_of_mem_filter kept)
  · apply List.mem_filter.mpr
    exact ⟨member, by simp [same, Ne.symm other]⟩

/- A statement that does not get in the way. -/
theorem statement_awaits {db : Db} (awaits : Awaits email fp id db) {c : SqlCmd}
    (spared : disturbs email fp id (.sql c) = false) (now : Nat) : Awaits email fp id (c.run db now).2 := by
  cases c with
  | insertVote email' fp' id' ip userAgent =>
    simp only [disturbs, Bool.or_eq_false_iff, decide_eq_false_iff_not] at spared
    obtain ⟨new_email, new_fingerprint, candidate⟩ := awaits
    dsimp only [SqlCmd.run]
    rcases insertVote_cases db now email' fp' id' ip userAgent with ⟨err, refused⟩ | ⟨-, -, -, done⟩
    · rw [refused]
      exact ⟨new_email, new_fingerprint, candidate⟩
    · rw [done]
      refine ⟨?_, ?_, candidate⟩
      · intro v member
        rcases List.mem_append.mp member with old | new
        · exact new_email v old
        · cases List.mem_singleton.mp new
          exact spared.1
      · intro v member
        rcases List.mem_append.mp member with old | new
        · exact new_fingerprint v old
        · cases List.mem_singleton.mp new
          exact spared.2
  | insertCandidate name description path =>
    obtain ⟨new_email, new_fingerprint, c, member, same⟩ := awaits
    dsimp only [SqlCmd.run]
    unfold Db.insertCandidate
    split
    · exact ⟨new_email, new_fingerprint, c, member, same⟩
    · exact ⟨new_email, new_fingerprint, c, List.mem_append_left _ member, same⟩
  | updateCandidate id' name description path => exact updateCandidate_awaits awaits ..
  | deleteCandidate id' => exact deleteCandidate_awaits awaits (by simpa [disturbs] using spared)
  | _ =>
    obtain ⟨votes, candidates, -⟩ := statement_frame db now _
    exact awaits_congr (votes.resolve_left not_false) (candidates.resolve_left not_false) awaits

theorem ready_env {e : Env} (ready : Ready w email fp id code deadline) (moved : w.env e = some w') :
    Ready w' email fp id code deadline := by
  obtain ⟨db, redis, -, ticking⟩ := env_scope moved
  refine ⟨?_, gone_stays (congrFun redis _) ticking ready.unblocked, ?_⟩
  · rw [redis]
    exact ready.record
  · rw [db]
    exact ready.awaited

theorem spared_keys {c : Cmd} (spared : disturbs email fp id c = false) :
    ¬ WritesKey (otpKey email) c ∧ ¬ WritesKey (otpBlockedKey email) c := by
  cases c with
  | redis c =>
    simp only [disturbs, Bool.or_eq_false_iff, decide_eq_false_iff_not] at spared
    exact spared
  | _ => exact ⟨not_false, not_false⟩

/- A command that does not get in the way, whether it fails or not. -/
theorem ready_performed (ready : Ready w email fp id code deadline) {o : Oracle} {c : Cmd} {r : Reply c}
    (spared : disturbs email fp id c = false) (performed : w.perform o c = some (r, w')) :
    Ready w' email fp id code deadline := by
  obtain ⟨no_record, no_block⟩ := spared_keys spared
  have record := key_frame no_record performed
  have blocked := key_frame no_block performed
  have awaited : Awaits email fp id w'.db := by
    rcases (perform_scope performed).2.2 with ⟨sc, rfl⟩ | same
    · obtain ⟨-, rfl⟩ := perform_sql performed
      dsimp only
      rcases faulty_state (o := o) w.db (sc.run w.db w.clock) with ran | idle
      · rw [ran]
        exact statement_awaits ready.awaited spared w.clock
      · rw [idle]
        exact ready.awaited
    · rw [same]
      exact ready.awaited
  refine ⟨?_, gone_stays blocked (Nat.le_of_eq (perform_clock performed).symm) ready.unblocked, awaited⟩
  rw [record]
  exact ready.record

/- Whatever else goes on, with any faults, the voter can wait. -/
theorem ready_spared {cfg : Config} {s s' : State}
    (run : Reaches (server cfg) (spares email fp id) s s')
    (ready : Ready s.world email fp id code deadline) : Ready s'.world email fp id code deadline := by
  refine reaches_inv (I := fun s => Ready s.world email fp id code deadline) ready ?_ run
  intro s l s' ready allowed step
  cases step with
  | start req => exact ready
  | env moved => exact ready_env ready moved
  | @run i o job c next r w at_i waiting performed =>
    have spared : disturbs email fp id c = false := by
      simpa [spares, nextCmd, at_i, waiting] using allowed
    exact ready_performed ready spared performed

end Waiting

section Voting
variable {cfg : Config} {w : World} {email fp ip userAgent : Str} {id : Int} {draw deadline : Nat}

theorem votable_ready (ready : Ready w email fp id (otpCode draw) deadline) (in_time : w.clock < deadline)
    (scanned : inInt64 id = true) : Votable w email (otpCode draw) fp id := by
  obtain ⟨record, unblocked, new_email, new_fingerprint, candidate⟩ := ready
  have decodes := decodeRecord_otpRecord draw id fp
  rw [if_pos scanned] at decodes
  refine ⟨⟨unblocked, _, ?_, decodes⟩, new_email, new_fingerprint, candidate⟩
  rw [get_text itoa record, if_pos in_time]

/- A vote that can go in goes in as it was asked for. -/
theorem verifyAndVote_counts {code : Str} (votable : Votable w email code fp id)
    (fits : Fits email fp ip userAgent) : ∃ w',
    evaluate answer (VoteService.verifyAndVote email code ip userAgent) w = some (none, w') ∧
      w'.db.votes = w.db.votes ++ [w.db.newVote w.clock email fp id ip userAgent] := by
  obtain ⟨w₁, redeemed⟩ := VoteAcceptance.verify_redeems votable.redeemable
  obtain ⟨db, clock⟩ := Prod.mk.inj (evaluate_keeps (fun w => (w.db, w.clock)) (verify_db email)
    (verify_issues email code) redeemed)
  dsimp only at db clock
  have inserted := insertVote_done fits votable.new_email votable.new_fingerprint votable.candidate w.clock
  have recorded : evaluate answer (sql (.insertVote email fp id ip userAgent)) w₁ = some (.ok (),
      { w₁ with db := { w.db with
          votes := w.db.votes ++ [w.db.newVote w.clock email fp id ip userAgent]
          nextVote := w.db.nextVote + 1 } }) := by
    have run : evaluate answer (sql (.insertVote email fp id ip userAgent)) w₁ = some
        ((w₁.db.insertVote w₁.clock email fp id ip userAgent).1,
          { w₁ with db := (w₁.db.insertVote w₁.clock email fp id ip userAgent).2 }) := rfl
    rw [run, db, clock, inserted]
  have determined : ∀ c, BroadcastCmd c → Determined c := by
    intro c sent
    cases sent <;> trivial
  obtain ⟨⟨u, w₂⟩, sent⟩ := evaluates_of_issues determined_answer
    (issues_mono broadcastPayload_issues determined) { w₁ with db := { w.db with
      votes := w.db.votes ++ [w.db.newVote w.clock email fp id ip userAgent]
      nextVote := w.db.nextVote + 1 } }
  have kept := evaluate_keeps World.db redis_db broadcastPayload_issues sent
  refine ⟨w₂, ?_, congrArg Db.votes kept⟩
  unfold VoteService.verifyAndVote
  rw [evaluate_then redeemed]
  dsimp only
  rw [evaluate_then recorded]
  dsimp only
  rw [evaluate_then sent]
  rfl

theorem verifyVote_counts (cached : Cached w)
    (is_open : effectivelyOpen (settingsSeen w) w.clock = true) {body : Except Str VerifyVoteRequest}
    {req : VerifyVoteRequest} (well_formed : bindBody (VerifyVoteRequest.check cfg) body = .ok req)
    (votable : Votable w (normalizeEmail cfg req.email) req.otp fp id)
    (fits : Fits (normalizeEmail cfg req.email) fp ip userAgent) : ∃ r w',
    evaluate answer (Handlers.verifyVote cfg ip userAgent body) w = some (r, w') ∧ r.status = 200 ∧
      w'.db.votes = w.db.votes ++
        [w.db.newVote w.clock (normalizeEmail cfg req.email) fp id ip userAgent] := by
  obtain ⟨w₁, opened, looked⟩ := isVotingOpen_sees cached
  obtain ⟨w₂, voted, counted⟩ := verifyAndVote_counts ((votable_looked looked).mpr votable) fits
  refine ⟨answerVerified none, w₂, ?_, rfl, ?_⟩
  · unfold Handlers.verifyVote
    rw [evaluate_then opened, is_open]
    dsimp only
    rw [well_formed]
    dsimp only
    rw [evaluate_then voted]
    rfl
  · rw [counted, looked.db, looked.clock]

end Voting

/-- The call is made now, and answered before anything else goes on. -/
def AnsweredAlone (cfg : Config) (fair : Oracle → Bool) (s : State) (req : Call) (s' : State)
    (r : Response) : Prop :=
  Reaches (server cfg) (undisturbed s.jobs.length fair hubOnly) (started cfg s req) s' ∧
    ∃ job, s'.jobs[s.jobs.length]? = some job ∧ job.rest = .done (.http r)

/- What the handler comes to by a view that settles it, the call is answered. -/
theorem alone_answers {cfg : Config} {fair : Oracle → Bool} {V : Type} {view : World → V}
    {how : V → (c : Cmd) → Option (Reply c × V)} (settles : Settles (server cfg) fair hubOnly view how)
    (goes : ∀ w c x, how (view w) c = some x → ∃ w₁ o r w₂, Calm (server cfg) hubOnly w w₁ ∧
      fair o = true ∧ (server cfg).perform w₁ o c = some (r, w₂)) {s : State} (req : Call)
    {p : Act Response} (handler : program cfg req = Answer.http <$> p) {r : Response} {v : V}
    (evaluated : evaluate how p (view s.world) = some (r, v)) :
    (∃ s', AnsweredAlone cfg fair s req s' r) ∧
      ∀ s' r', AnsweredAlone cfg fair s req s' r' → r' = r ∧ view s'.world = v := by
  have whole : evaluate how ((server cfg).begin req).rest (view s.world) = some (.http r, v) := by
    change evaluate how (program cfg req) _ = _
    rw [handler, map_bind, evaluate_then evaluated]
    rfl
  have at_n : (started cfg s req).jobs[s.jobs.length]? = some ((server cfg).begin req) := by
    simp [started]
  constructor
  · obtain ⟨w', later, run⟩ := solo_exists settles goes whole
    obtain ⟨s', job, reached, -, ends, answered⟩ := reaches_of_solo at_n run
    exact ⟨s', reached, job, ends, answered⟩
  · rintro s' r' ⟨reached, job, ends, answered⟩
    obtain ⟨later, run⟩ := solo_of_reaches at_n reached ends answered
    cases solo_evaluates settles run whole
    exact ⟨rfl, rfl⟩

theorem started_reached {cfg : Config} {allow : State → Move → Bool} {fair : Oracle → Bool} {seed : Seed}
    {s s' : State} (run : Reaches (server cfg) allow seed.start s) {req : Call}
    (later : Reaches (server cfg) (undisturbed s.jobs.length fair hubOnly) (started cfg s req) s') :
    Reaches (server cfg) anySchedule seed.start s' := by
  have before : Reaches (server cfg) anySchedule seed.start (started cfg s req) :=
    .tail (reaches_mono (fun _ _ _ => rfl) run) (l := .start req) rfl rfl
  exact reaches_trans before (reaches_mono (fun _ _ _ => rfl) later)

theorem outcome_offline {cfg : Config} {draw : Nat} {verdict : Siteverify} {w w' : World} {ip : Str}
    {body : Except Str RequestOTPRequest} {r : Response}
    (outcome : Outcome cfg draw (offline w) (offline w') body r (Eligible cfg (offline w) verdict ip)) :
    Outcome cfg draw w w' body r (Eligible cfg w verdict ip) := by
  rcases outcome with ⟨ok, req, read, ⟨within_limit, ⟨is_open, admitted, human, unopposed⟩⟩, sent⟩ |
    ⟨refused, aside, ineligible⟩
  · obtain ⟨new_email, new_fingerprint, below_cap, candidate, unblocked⟩ := unopposed
    obtain ⟨clock, db, record, keys, settings, cached, mail⟩ := sent
    exact Or.inl ⟨ok, req, read, ⟨within_limit, ⟨is_open, admitted, human,
      ⟨new_email, new_fingerprint, below_cap, candidate, unblocked⟩⟩⟩,
      ⟨clock, db, record, keys, settings, cached, mail⟩⟩
  · obtain ⟨clock, db, outbox, keys, settings, cached⟩ := aside
    refine Or.inr ⟨refused, ⟨clock, db, outbox, keys, settings, cached⟩, ?_⟩
    rintro req read ⟨within_limit, ⟨is_open, admitted, human, unopposed⟩⟩
    obtain ⟨new_email, new_fingerprint, below_cap, candidate, unblocked⟩ := unopposed
    exact ineligible req read ⟨within_limit, ⟨is_open, admitted, human,
      ⟨new_email, new_fingerprint, below_cap, candidate, unblocked⟩⟩⟩

section Asking
variable {cfg : Config} {allow : State → Move → Bool} {seed : Seed} {s : State}

theorem asked_answers (run : Reaches (server cfg) allow seed.start s) {draw : Nat}
    (small : draw < 900000) (verdict : Siteverify) (ip : Str) (body : Except Str RequestOTPRequest) :
    (∃ s' r, AnsweredAlone cfg (settled draw verdict) s (.requestOTP ip body) s' r) ∧
      ∀ s' r, AnsweredAlone cfg (settled draw verdict) s (.requestOTP ip body) s' r →
        Outcome cfg draw s.world s'.world body r (Eligible cfg s.world verdict ip) := by
  obtain ⟨r, v, evaluated, outcome⟩ := requestOTP_settles cfg draw verdict (w := offline s.world)
    (cached_of_run run) (sound_of_run run).endsAt ip body
  obtain ⟨⟨s', answered⟩, only⟩ := alone_answers (answers_settle cfg draw verdict)
    (answers_go cfg small verdict) (s := s) (.requestOTP ip body) rfl evaluated
  refine ⟨⟨s', r, answered⟩, ?_⟩
  intro t r' answered
  obtain ⟨rfl, left⟩ := only t r' answered
  rw [← left] at outcome
  exact outcome_offline outcome

/- In every reachable state, for every draw and every verdict: a request that is made now, with no
   fault and nobody in between, is answered. It is a 200 if and only if it is well formed and
   eligible. Then the code has been stored and mailed; otherwise nothing has. -/
theorem code_sent_exactly (run : Reaches (server cfg) allow seed.start s) {draw : Nat}
    (small : draw < 900000) (verdict : Siteverify) (ip : Str) (body : Except Str RequestOTPRequest) :
    (∃ s' r, AnsweredAlone cfg (settled draw verdict) s (.requestOTP ip body) s' r) ∧
      ∀ s' r, AnsweredAlone cfg (settled draw verdict) s (.requestOTP ip body) s' r →
        (r.status = 200 ↔ ∃ req, bindBody (RequestOTPRequest.check cfg) body = .ok req ∧
            Eligible cfg s.world verdict ip req) ∧
          (r.status = 200 → ∃ req, bindBody (RequestOTPRequest.check cfg) body = .ok req ∧
            Sent s.world s'.world (normalizeEmail cfg req.email) req.fingerprint req.candidateID draw) ∧
          (r.status ≠ 200 → Aside s.world s'.world) := by
  obtain ⟨answered, outcomes⟩ := asked_answers run small verdict ip body
  refine ⟨answered, ?_⟩
  intro s' r alone
  rcases outcomes s' r alone with ⟨ok, req, read, eligible, sent⟩ | ⟨refused, aside, ineligible⟩
  · exact ⟨⟨fun _ => ⟨req, read, eligible⟩, fun _ => ok⟩, fun _ => ⟨req, read, sent⟩,
      fun refused => absurd ok refused⟩
  · refine ⟨⟨fun ok => absurd ok refused, ?_⟩, fun ok => absurd ok refused, fun _ => aside⟩
    rintro ⟨req, read, eligible⟩
    exact absurd eligible (ineligible req read)

/-- However the code is presented now, the vote is counted as it was asked for. -/
def Counts (cfg : Config) (s : State) (email fp : Str) (id : Int) (code : Str) : Prop :=
  ∀ ip userAgent body req, bindBody (VerifyVoteRequest.check cfg) body = .ok req →
    normalizeEmail cfg req.email = email → req.otp = code → Fits email fp ip userAgent →
      (∃ s' r, AnsweredAlone cfg noFault s (.verifyVote ip userAgent body) s' r) ∧
        ∀ s' r, AnsweredAlone cfg noFault s (.verifyVote ip userAgent body) s' r →
          r.status = 200 ∧ s'.world.db.votes = s.world.db.votes ++
            [s.world.db.newVote s.world.clock email fp id ip userAgent]

theorem counts_ready (run : Reaches (server cfg) allow seed.start s) {email fp : Str} {id : Int}
    {draw deadline : Nat} (ready : Ready s.world email fp id (otpCode draw) deadline)
    (in_time : s.world.clock < deadline) (scanned : inInt64 id = true)
    (is_open : effectivelyOpen (settingsSeen s.world) s.world.clock = true) :
    Counts cfg s email fp id (otpCode draw) := by
  intro ip userAgent body req well_formed same_email same_code fits
  have votable := votable_ready ready in_time scanned
  have looked : Looked s.world (bare s.world) := ⟨rfl, rfl, fun _ _ => rfl⟩
  rw [← votable_looked looked, ← same_email, ← same_code] at votable
  rw [← same_email] at fits ⊢
  obtain ⟨r, v, evaluated, ok, counted⟩ := verifyVote_counts (w := bare s.world) (cached_of_run run)
    is_open well_formed votable fits
  obtain ⟨⟨s', answered⟩, only⟩ := alone_answers (server_settles cfg) (server_goes cfg) (s := s)
    (.verifyVote ip userAgent body) rfl evaluated
  refine ⟨⟨s', r, answered⟩, ?_⟩
  intro t r' answered
  obtain ⟨rfl, left⟩ := only t r' answered
  rw [← left] at counted
  exact ⟨ok, counted⟩

theorem ready_sent {w w' : World} {email fp : Str} {id : Int} {draw : Nat} {ip : Str}
    (unopposed : Unopposed w email fp ip id) (sent : Sent w w' email fp id draw) :
    Ready w' email fp id (otpCode draw) (w.clock + otpTTL) := by
  have blocked := sent.keys (otpBlockedKey email) (by simp) (by simp)
    (by simp)
  refine ⟨sent.record, ?_, ?_⟩
  · rw [sent.clock]
    exact (lookup_congr blocked _).trans unopposed.unblocked
  · rw [sent.db]
    exact ⟨unopposed.new_email, unopposed.new_fingerprint, unopposed.candidate⟩

/- From every reachable state: whoever is eligible and asks for a code is sent one. Let then anything
   happen that does not get in the way, with any faults. As long as the code has not run out and
   voting is open, whoever presents it for that mailbox, from any address, has the vote counted for
   the candidate and the fingerprint that it was asked for with. -/
theorem eligible_voter_counted (run : Reaches (server cfg) allow seed.start s) {draw : Nat}
    (small : draw < 900000) {verdict : Siteverify} {ip : Str} {body : Except Str RequestOTPRequest}
    {req : RequestOTPRequest} (well_formed : bindBody (RequestOTPRequest.check cfg) body = .ok req)
    (scanned : inInt64 req.candidateID = true) (eligible : Eligible cfg s.world verdict ip req) :
    (∃ s₁ r, AnsweredAlone cfg (settled draw verdict) s (.requestOTP ip body) s₁ r) ∧
      ∀ s₁ r, AnsweredAlone cfg (settled draw verdict) s (.requestOTP ip body) s₁ r → r.status = 200 ∧
        Sent s.world s₁.world (normalizeEmail cfg req.email) req.fingerprint req.candidateID draw ∧
          ∀ s₂, Reaches (server cfg)
              (spares (normalizeEmail cfg req.email) req.fingerprint req.candidateID) s₁ s₂ →
            s₂.world.clock < s.world.clock + otpTTL →
            effectivelyOpen (settingsSeen s₂.world) s₂.world.clock = true →
              Counts cfg s₂ (normalizeEmail cfg req.email) req.fingerprint req.candidateID
                (otpCode draw) := by
  obtain ⟨answered, outcomes⟩ := asked_answers run small verdict ip body
  refine ⟨answered, ?_⟩
  intro s₁ r alone
  rcases outcomes s₁ r alone with ⟨ok, req', read, eligible', sent⟩ | ⟨refused, aside, ineligible⟩
  · rw [well_formed] at read
    cases read
    refine ⟨ok, sent, ?_⟩
    intro s₂ spared in_time is_open
    have ready := ready_spared spared (ready_sent eligible.welcome.unopposed sent)
    have reached := reaches_trans (started_reached run alone.1) (reaches_mono (fun _ _ _ => rfl) spared)
    exact counts_ready reached ready in_time scanned is_open
  · exact absurd eligible (ineligible req well_formed)

end Asking

def annsRequest : RequestOTPRequest :=
  ⟨"Ann@gmail.com".toList, "fp-ann".toList, "token".toList, 1⟩

theorem annsRequest_read : bindBody (RequestOTPRequest.check devConfig) (.ok annsRequest) =
    .ok annsRequest := by
  have valid : RequestOTPRequest.check devConfig annsRequest = [] := by decide +kernel
  rw [bindBody, if_pos valid]

theorem annsRequest_eligible : Eligible devConfig twoCandidates.start.world (.answered true)
    "10.0.0.1".toList annsRequest where
  within_limit := by decide +kernel
  welcome :=
    { is_open := by decide +kernel
      admitted := by
        have yes : (emailAnswer devConfig twoCandidates.start.world
            (normalizeEmail devConfig annsRequest.email)).toOption = some true := by decide +kernel
        cases asked : emailAnswer devConfig twoCandidates.start.world
            (normalizeEmail devConfig annsRequest.email) with
        | error err =>
          rw [asked] at yes
          cases yes
        | ok b =>
          rw [asked] at yes
          cases yes
          rfl
      human := Or.inl rfl
      unopposed :=
        { new_email := by simp [twoCandidates, Seed.start, Seed.world]
          new_fingerprint := by simp [twoCandidates, Seed.start, Seed.world]
          below_cap := by
            intro _
            decide +kernel
          candidate := by
            refine ⟨⟨1, "Ann".toList, [], [], newYear, none⟩, ?_, rfl⟩
            simp [twoCandidates, Seed.start, Seed.world]
          unblocked := rfl } }

theorem code_sent_exactly_ann : ∃ s r,
    AnsweredAlone devConfig (settled 0 (.answered true)) twoCandidates.start
      (.requestOTP "10.0.0.1".toList (.ok annsRequest)) s r ∧ r.status = 200 := by
  have fresh : Reaches (server devConfig) anySchedule twoCandidates.start twoCandidates.start := .refl
  have small : 0 < 900000 := by decide
  obtain ⟨⟨s, r, answered⟩, outcomes⟩ := code_sent_exactly fresh small (.answered true)
    "10.0.0.1".toList (.ok annsRequest)
  exact ⟨s, r, answered, (outcomes s r answered).1.mpr ⟨_, annsRequest_read, annsRequest_eligible⟩⟩

/- She presents the code under another spelling of her address. -/
theorem eligible_voter_counted_ann : ∃ s₁ s₂ r r',
    AnsweredAlone devConfig (settled 0 (.answered true)) twoCandidates.start
      (.requestOTP "10.0.0.1".toList (.ok annsRequest)) s₁ r ∧
    AnsweredAlone devConfig noFault s₁ (.verifyVote [] []
      (.ok ⟨"A.n.n+vote@gmail.com".toList, "100000".toList⟩)) s₂ r' ∧
    r'.status = 200 ∧ s₂.world.db.votes.map (fun v => (v.voterEmail, v.candidateId)) =
      [("ann@gmail.com".toList, 1)] := by
  have fresh : Reaches (server devConfig) anySchedule twoCandidates.start twoCandidates.start := .refl
  have small : 0 < 900000 := by decide
  obtain ⟨⟨s₁, r, answered⟩, goes_on⟩ := eligible_voter_counted fresh small annsRequest_read (by decide)
    annsRequest_eligible
  obtain ⟨-, sent, counts⟩ := goes_on s₁ r answered
  have is_open : effectivelyOpen (settingsSeen s₁.world) s₁.world.clock = true := by
    rw [sent.settings, sent.clock]
    decide +kernel
  have in_time : s₁.world.clock < twoCandidates.start.world.clock + otpTTL := by
    rw [sent.clock]
    exact Nat.lt_add_of_pos_right otpTTL_pos
  have read : bindBody (VerifyVoteRequest.check devConfig)
      (.ok ⟨"A.n.n+vote@gmail.com".toList, "100000".toList⟩) =
        .ok ⟨"A.n.n+vote@gmail.com".toList, "100000".toList⟩ := by
    have valid : VerifyVoteRequest.check devConfig
        ⟨"A.n.n+vote@gmail.com".toList, "100000".toList⟩ = [] := by decide +kernel
    rw [bindBody, if_pos valid]
  have fits : Fits (normalizeEmail devConfig annsRequest.email) annsRequest.fingerprint [] [] :=
    ⟨by decide +kernel, by decide +kernel, by decide, by decide⟩
  obtain ⟨⟨s₂, r', voted⟩, accepted⟩ := counts s₁ .refl in_time is_open [] [] _ _ read
    (by decide +kernel) (by decide +kernel) fits
  obtain ⟨ok, votes⟩ := accepted s₂ r' voted
  have none_yet : twoCandidates.start.world.db.votes = [] := rfl
  have same : normalizeEmail devConfig annsRequest.email = "ann@gmail.com".toList := by decide +kernel
  refine ⟨s₁, s₂, r, r', answered, voted, ok, ?_⟩
  rw [votes, sent.db, none_yet, same]
  rfl

end VoterJourney
