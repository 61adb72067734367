import VotingApp.AdminServer
import VotingApp.EarlyAnswers

/-!
What an answer of 401 says. JWTAuth gives it for a cookie, Login for credentials, and
ChangePassword for the password that it was sent.
-/
namespace Unauthorized
open GoText GoTime JsonText Tables EffectProgram CallPool Embedding VotingWorld
open OtpService VotingSettings VoteService CustomDomains Handlers VotingServer
open Api Frames EarlyAnswers AdminServer

section Routes
variable {past : History}

theorem answerPrepared_authorized (err : Option GoErr) : (answerPrepared err).status ≠ 401 := by
  intro refused
  cases err with
  | none => cases refused
  | some err =>
    unfold answerPrepared at refused
    dsimp only at refused
    split at refused
    · cases refused
    · split at refused
      · cases refused
      · split at refused <;> cases refused

theorem requestOTP_authorized (cfg : Config) (ip : Str) (body : Except Str RequestOTPRequest) :
    (Handlers.requestOTP cfg ip body).Meets (fun _ _ => True) (fun _ r => r.status ≠ 401) past := by
  apply requestOTP_meets
  · exact fun past r early => early_other early (by decide)
  · intro req _ now
    apply meets_mono (anyway _) fun _ _ allowed => allowed
    exact fun now err _ => answerPrepared_authorized err

theorem answerVerified_authorized (err : Option GoErr) : (answerVerified err).status ≠ 401 := by
  intro refused
  cases err with
  | none => cases refused
  | some err =>
    unfold answerVerified at refused
    dsimp only at refused
    split at refused
    · cases refused
    · split at refused
      · cases refused
      · split at refused <;> cases refused

theorem verifyVote_authorized (cfg : Config) (ip userAgent : Str) (body : Except Str VerifyVoteRequest) :
    (Handlers.verifyVote cfg ip userAgent body).Meets (fun _ _ => True) (fun _ r => r.status ≠ 401)
      past := by
  apply verifyVote_meets
  · exact fun past r early => early_other early (by decide)
  · intro req _ now
    apply meets_mono (anyway _) fun _ _ allowed => allowed
    exact fun now err _ => answerVerified_authorized err

theorem getCandidates_authorized :
    Handlers.getCandidates.Meets (fun _ _ => True) (fun _ r => r.status ≠ 401) past := by
  apply meets_sql trivial
  rintro (err | candidates) refused <;> cases refused

theorem getVotingStatus_authorized :
    Handlers.getVotingStatus.Meets (fun _ _ => True) (fun _ r => r.status ≠ 401) past := by
  apply meets_bind (anyway _)
  rintro now (err | status) -
  · exact fun refused => by cases refused
  · apply meets_bind (anyway _)
    exact fun now opened _ refused => by cases refused

theorem updateVotingSettings_authorized (body : Except Str UpdateVotingSettingsRequest) :
    (Handlers.updateVotingSettings body).Meets (fun _ _ => True) (fun _ r => r.status ≠ 401) past := by
  unfold Handlers.updateVotingSettings
  split
  · exact fun refused => by cases refused
  · split
    · exact fun refused => by cases refused
    · apply meets_bind (anyway _)
      rintro now (_ | err) - refused <;> cases refused

theorem updateDomainMode_authorized (body : Except Str Bool) :
    (Handlers.updateDomainMode body).Meets (fun _ _ => True) (fun _ r => r.status ≠ 401) past := by
  unfold Handlers.updateDomainMode
  split
  · exact fun refused => by cases refused
  · apply meets_bind (anyway _)
    rintro now (_ | err) - refused <;> cases refused

theorem insertWithImage_authorized (name description path : Str) :
    (insertWithImage name description path).Meets (fun _ _ => True) (fun _ r => r.status ≠ 401) past := by
  apply meets_bind (anyway _)
  rintro now (err | id) - refused <;> cases refused

theorem addCandidate_authorized (name description : Str) (image : Upload) :
    (Handlers.addCandidate name description image).Meets (fun _ _ => True) (fun _ r => r.status ≠ 401)
      past := by
  unfold Handlers.addCandidate
  split
  · exact fun refused => by cases refused
  · split
    · exact fun refused => by cases refused
    · exact insertWithImage_authorized _ _ _
    · exact insertWithImage_authorized _ _ _

theorem updateWithImage_authorized (id : Int) (name description path : Str) :
    (updateWithImage id name description path).Meets (fun _ _ => True) (fun _ r => r.status ≠ 401)
      past := by
  apply meets_bind (anyway _)
  rintro now (_ | err) - refused
  · cases refused
  · split at refused <;> cases refused

theorem updateCandidateAt_authorized (id name description : Str) (image : Upload) :
    (updateCandidateAt id name description image).Meets (fun _ _ => True) (fun _ r => r.status ≠ 401)
      past := by
  unfold updateCandidateAt
  split
  · exact fun refused => by cases refused
  · split
    · exact fun refused => by cases refused
    · split
      · exact fun refused => by cases refused
      · exact updateWithImage_authorized _ _ _ _
      · exact updateWithImage_authorized _ _ _ _

theorem deleteCandidateAt_authorized (id : Str) :
    (deleteCandidateAt id).Meets (fun _ _ => True) (fun _ r => r.status ≠ 401) past := by
  unfold deleteCandidateAt
  split
  · exact fun refused => by cases refused
  · apply meets_bind (anyway _)
    rintro now (_ | err) - refused
    · cases refused
    · split at refused
      · cases refused
      · split at refused <;> cases refused

theorem listDomains_authorized :
    Handlers.listDomains.Meets (fun _ _ => True) (fun _ r => r.status ≠ 401) past := by
  apply meets_bind (anyway _)
  rintro now (err | domains) - refused <;> cases refused

theorem addDomain_authorized (cfg : Config) (body : Except Str Str) :
    (Handlers.addDomain cfg body).Meets (fun _ _ => True) (fun _ r => r.status ≠ 401) past := by
  unfold Handlers.addDomain
  split
  · exact fun refused => by cases refused
  · dsimp only
    split
    · exact fun refused => by cases refused
    · split
      · exact fun refused => by cases refused
      · apply meets_bind (anyway _)
        rintro now (_ | err) - refused
        · cases refused
        · split at refused <;> cases refused

theorem deleteDomain_authorized (id : Str) :
    (Handlers.deleteDomain id).Meets (fun _ _ => True) (fun _ r => r.status ≠ 401) past := by
  unfold Handlers.deleteDomain
  split
  · exact fun refused => by cases refused
  · apply meets_bind (anyway _)
    rintro now (_ | err) - refused
    · cases refused
    · split at refused <;> cases refused

theorem http_authorized {p : Act Response}
    (authorized : p.Meets (fun _ _ => True) (fun _ r => r.status ≠ 401) past) :
    (Answer.http <$> p).Meets (fun _ _ => True) (fun _ a => status (some a) ≠ some 401) past :=
  meets_bind authorized fun _ _ fine refused => fine (Option.some.inj refused)

/- No route of the voting server answers 401. -/
theorem program_authorized (cfg : Config) (req : Call) : (VotingServer.program cfg req).Meets
    (fun _ _ => True) (fun _ a => status (some a) ≠ some 401) past := by
  cases req with
  | requestOTP ip body => exact http_authorized (requestOTP_authorized cfg ip body)
  | verifyVote ip userAgent body => exact http_authorized (verifyVote_authorized cfg ip userAgent body)
  | getCandidates => exact http_authorized getCandidates_authorized
  | getVotingStatus => exact http_authorized getVotingStatus_authorized
  | updateVotingSettings body => exact http_authorized (updateVotingSettings_authorized body)
  | updateDomainMode body => exact http_authorized (updateDomainMode_authorized body)
  | addCandidate name description image =>
    exact http_authorized (addCandidate_authorized name description image)
  | updateCandidate id name description image =>
    exact http_authorized (updateCandidateAt_authorized id name description image)
  | deleteCandidate id => exact http_authorized (deleteCandidateAt_authorized id)
  | listDomains => exact http_authorized listDomains_authorized
  | addDomain body => exact http_authorized (addDomain_authorized cfg body)
  | deleteDomain id => exact http_authorized (deleteDomain_authorized id)
  | _ =>
    -- The calls of the services are answered without a status.
    apply meets_bind (anyway _)
    exact fun _ _ _ refused => by cases refused

end Routes

/-- The cookie is missing, or its token was not valid when it was looked at. -/
def Denied (cfg : AdminConfig) : Option Str → AdminHistory → Prop
  | none, _ => True
  | some token, past => ∃ now : Nat, (⟨.timeNow, now⟩ : Exchange AdminCmd AdminReply) ∈ past ∧
      (cfg.parse now token).isNone = true

def unparsed (cfg : AdminConfig) (token : Str) : Exchange AdminCmd AdminReply → Bool
  | ⟨.timeNow, now⟩ => (cfg.parse now token).isNone
  | _ => false

theorem denied_iff {cfg : AdminConfig} {token : Str} {past : AdminHistory} :
    past.any (unparsed cfg token) = true ↔ Denied cfg (some token) past := by
  rw [List.any_eq_true]
  constructor
  · rintro ⟨⟨cmd, reply⟩, member, denies⟩
    cases cmd with
    | timeNow => exact ⟨reply, member, denies⟩
    | _ => cases denies
  · rintro ⟨now, member, denies⟩
    exact ⟨_, member, denies⟩

instance (cfg : AdminConfig) (past : AdminHistory) : (cookie : Option Str) → Decidable (Denied cfg cookie past)
  | none => .isTrue trivial
  | some _ => decidable_of_iff _ denied_iff

/-- No admin is read for the email, or the password is not that admin's, or the claims are not signed. -/
def Unknown (cfg : AdminConfig) (req : LoginRequest) (past : AdminHistory) : Prop :=
  (∃ err, (⟨.getByEmail req.email, .error err⟩ : Exchange AdminCmd AdminReply) ∈ past) ∨
    (∃ admin, (⟨.getByEmail req.email, .ok admin⟩ : Exchange AdminCmd AdminReply) ∈ past ∧
      cfg.comparePasswordAndHash req.password admin.passwordHash = false) ∨
      ∃ admin expiry issued rest, past = ⟨.timeNow, issued⟩ :: ⟨.timeNow, expiry⟩ :: rest ∧
        (⟨.getByEmail req.email, .ok admin⟩ : Exchange AdminCmd AdminReply) ∈ rest ∧
          (cfg.sign (sessionClaims admin expiry issued)).isNone = true

/-- The password that was sent as the old one is not the admin's. -/
def Mistyped (cfg : AdminConfig) (oldPassword : Str) (past : AdminHistory) : Prop :=
  ∃ id admin, (⟨.getByID id, .ok admin⟩ : Exchange AdminCmd AdminReply) ∈ past ∧
    cfg.comparePasswordAndHash oldPassword admin.passwordHash = false

/-- What a call has seen that is answered 401. -/
def Refused (cfg : AdminConfig) : AdminCall → AdminHistory → Prop
  | .login (.ok req), past => Unknown cfg req past
  | .me cookie, past => Denied cfg cookie past
  | .changePassword cookie (.ok req), past => Denied cfg cookie past ∨ Mistyped cfg req.oldPassword past
  | .changePassword cookie (.error _), past => Denied cfg cookie past
  | .route cookie call, past => protectedRoute call = true ∧ Denied cfg cookie past
  | _, _ => False

section Contracts
variable {cfg : AdminConfig} {past : AdminHistory}

theorem meets_next {α : Type} {c : AdminCmd} {f : AdminReply c → AdminAct α}
    {post : AdminHistory → α → Prop} (rest : ∀ r, (f r).Meets (fun _ _ => True) post (⟨c, r⟩ :: past)) :
    (issue c >>= f).Meets (fun _ _ => True) post past := ⟨trivial, rest⟩

theorem serviceLogin_meets (req : LoginRequest) :
    (serviceLogin cfg req.email req.password).Meets (fun _ _ => True)
      (fun now token => token = none ↔ Unknown cfg req now) [] := by
  apply meets_next
  rintro (err | admin)
  · exact ⟨fun _ => Or.inl ⟨err, List.mem_cons_self⟩, fun _ => rfl⟩
  · dsimp only
    split
    · rename_i correct
      apply meets_next
      intro expiry
      apply meets_next
      intro issued
      constructor
      · intro unsigned
        refine Or.inr (Or.inr ⟨admin, expiry, issued, _, rfl, List.mem_singleton_self _, ?_⟩)
        rw [unsigned]
        rfl
      · rintro (⟨err, member⟩ | ⟨other, member, incorrect⟩ | ⟨other, _, _, _, same, member, unsigned⟩)
        · simp at member
        · simp at member
          rw [member, correct] at incorrect
          cases incorrect
        · cases same
          cases List.mem_singleton.mp member
          exact Option.isNone_iff_eq_none.mp unsigned
    · rename_i incorrect
      rw [Bool.not_eq_true] at incorrect
      exact ⟨fun _ => Or.inr (Or.inl ⟨admin, List.mem_cons_self, incorrect⟩), fun _ => rfl⟩

theorem login_meets (body : Except Str LoginRequest) : (login cfg body).Meets (fun _ _ => True)
    (fun now a => status (some a.answer) = some 401 ↔ Refused cfg (.login body) now) [] := by
  unfold login
  split
  · rename_i details unbound
    constructor
    · intro refused
      cases refused
    · intro refused
      cases body with
      | error text => cases refused
      | ok req =>
        rcases refused with ⟨err, member⟩ | ⟨admin, member, -⟩ | ⟨admin, _, _, _, same, -⟩
        · cases member
        · cases member
        · cases same
  · rename_i req bound
    cases bindBody_ok bound
    apply meets_bind (serviceLogin_meets req)
    rintro now (_ | token) unknown
    · exact ⟨fun _ => unknown.mp rfl, fun _ => rfl⟩
    · constructor
      · intro refused
        cases refused
      · intro refused
        cases unknown.mpr refused

/- Nothing has looked at the time since JWTAuth has. -/
def Looked (now : Nat) (past : AdminHistory) : Prop := Grown (· ≠ .timeNow) [⟨.timeNow, now⟩] past

theorem not_denied {now : Nat} {token : Str} {claims : TokenClaims} (looked : Looked now past)
    (parsed : cfg.parse now token = some claims) : ¬ Denied cfg (some token) past := by
  rintro ⟨other, member, unparsed⟩
  obtain ⟨added, rfl, since⟩ := looked
  rcases List.mem_append.mp member with newer | first
  · exact since _ newer rfl
  · cases List.mem_singleton.mp first
    rw [parsed] at unparsed
    cases unparsed

/- JWTAuth answers 401, or the handler runs with a cookie that is not denied. -/
theorem jwtAuth_meets {cookie : Option Str} {next : TokenClaims → AdminAct AdminAnswer}
    {post : AdminHistory → AdminAnswer → Prop}
    (denied : ∀ past message, Denied cfg cookie past → (∀ x ∈ past, x.cmd = .timeNow) →
      post past (respond (errorJSON 401 message)))
    (handles : ∀ now claims, (next claims).Meets (fun _ _ => True)
      (fun past a => Looked now past ∧ (¬ Denied cfg cookie past → post past a)) [⟨.timeNow, now⟩]) :
    (jwtAuth cfg cookie next).Meets (fun _ _ => True) post [] := by
  unfold jwtAuth
  split
  · exact denied _ _ trivial fun _ member => by cases member
  · apply meets_next
    intro now
    split
    · rename_i unparsed
      apply denied
      · exact ⟨now, List.mem_cons_self, by rw [unparsed]; rfl⟩
      · intro x member
        cases List.mem_singleton.mp member
        rfl
    · rename_i claims parsed
      apply meets_mono (handles now claims) fun _ _ allowed => allowed
      exact fun past a handled => handled.2 (not_denied handled.1 parsed)

theorem serviceChangePassword_meets (id : Int) (oldPassword newPassword : Str) (now : Nat) :
    (serviceChangePassword cfg id oldPassword newPassword).Meets (fun _ _ => True)
      (fun past changed => Looked now past ∧
        (changed = some .incorrectPassword ↔ Mistyped cfg oldPassword past)) [⟨.timeNow, now⟩] := by
  have looked : Looked now [⟨.timeNow, now⟩] := grown_refl _ _
  unfold serviceChangePassword
  split
  · refine ⟨looked, ?_⟩
    simp [Mistyped]
  · apply meets_next
    rintro (err | admin)
    · refine ⟨grown_cons looked _ (by simp), ?_⟩
      simp [Mistyped]
    · dsimp only
      split
      · rename_i correct
        apply meets_next
        rintro (_ | hash)
        · refine ⟨grown_cons (grown_cons looked _ (by simp)) _ (by simp), ?_⟩
          simp [Mistyped, correct]
        · apply meets_next
          rintro (err | done)
          · refine ⟨grown_cons (grown_cons (grown_cons looked _ (by simp)) _ (by simp)) _ (by simp), ?_⟩
            simp [Mistyped, correct]
          · refine ⟨grown_cons (grown_cons (grown_cons looked _ (by simp)) _ (by simp)) _ (by simp), ?_⟩
            simp [Mistyped, correct]
      · rename_i incorrect
        rw [Bool.not_eq_true] at incorrect
        refine ⟨grown_cons looked _ (by simp), ?_⟩
        exact ⟨fun _ => ⟨id, admin, List.mem_cons_self, incorrect⟩, fun _ => rfl⟩

theorem answerChanged_401 {changed : Option ChangeError} :
    (answerChanged changed).status = 401 ↔ changed = some .incorrectPassword := by
  rcases changed with _ | _ | _ | _ | _ <;> simp [answerChanged, detailJSON, successJSON, errorJSON]

theorem changePassword_meets (body : Except Str ChangePasswordRequest) (claims : TokenClaims) (now : Nat) :
    (changePassword cfg body claims).Meets (fun _ _ => True) (fun past a => Looked now past ∧
      (status (some a.answer) = some 401 ↔ ∃ req, body = .ok req ∧ Mistyped cfg req.oldPassword past))
      [⟨.timeNow, now⟩] := by
  have looked : Looked now [⟨.timeNow, now⟩] := grown_refl _ _
  unfold changePassword
  split
  · refine ⟨looked, ?_⟩
    simp [respond, status, badBody, Mistyped]
  · rename_i req bound
    split
    · refine ⟨looked, ?_⟩
      simp [respond, status, errorJSON, Mistyped]
    · apply meets_bind (serviceChangePassword_meets _ _ _ now)
      rintro past changed ⟨looked, mistyped⟩
      refine ⟨looked, ?_⟩
      rw [bindBody_ok bound]
      simp [respond, status, answerChanged_401, mistyped]

/-- What the answer of every call says, and that me is answered by success or by 401. -/
def Explained (cfg : AdminConfig) (req : AdminCall) (past : AdminHistory) (a : AdminAnswer) : Prop :=
  (status (some a.answer) = some 401 ↔ Refused cfg req past) ∧
    match req with
    | .me cookie => (resolved (some a.answer)).isSome = true ∨ Denied cfg cookie past
    | .changePassword cookie (.ok req) => Mistyped cfg req.oldPassword past → ¬ Denied cfg cookie past
    | _ => True

theorem me_explained (cookie : Option Str) :
    (AdminServer.program cfg (.me cookie)).Meets (fun _ _ => True)
      (fun past a => Explained cfg (.me cookie) past a) [] := by
  apply jwtAuth_meets
  · intro past message denied _
    exact ⟨⟨fun _ => denied, fun _ => rfl⟩, Or.inr denied⟩
  · intro now claims
    refine ⟨grown_refl _ _, fun allowed => ⟨⟨?_, fun denied => absurd denied allowed⟩, Or.inl rfl⟩⟩
    intro refused
    cases refused

theorem changePassword_explained (cookie : Option Str) (body : Except Str ChangePasswordRequest) :
    (AdminServer.program cfg (.changePassword cookie body)).Meets (fun _ _ => True)
      (fun past a => Explained cfg (.changePassword cookie body) past a) [] := by
  apply jwtAuth_meets
  · intro past message denied only
    cases body with
    | error text => exact ⟨⟨fun _ => denied, fun _ => rfl⟩, trivial⟩
    | ok req =>
      refine ⟨⟨fun _ => Or.inl denied, fun _ => rfl⟩, ?_⟩
      rintro ⟨id, admin, member, -⟩
      cases only _ member
  · intro now claims
    apply meets_mono (changePassword_meets body claims now) fun _ _ allowed => allowed
    rintro past a ⟨looked, mistyped⟩
    refine ⟨looked, fun allowed => ?_⟩
    cases body with
    | error text =>
      refine ⟨mistyped.trans ⟨?_, fun denied => absurd denied allowed⟩, trivial⟩
      rintro ⟨req, same, -⟩
      cases same
    | ok req =>
      refine ⟨mistyped.trans ⟨?_, ?_⟩, fun _ => allowed⟩
      · rintro ⟨req', same, wrong⟩
        cases same
        exact Or.inr wrong
      · rintro (denied | wrong)
        · exact absurd denied allowed
        · exact ⟨req, rfl, wrong⟩

theorem route_meets (call : Call) (past : AdminHistory) : (route cfg call).Meets (fun _ _ => True)
    (fun now a => Grown (· ≠ .timeNow) past now ∧ status (some a.answer) ≠ some 401) past := by
  apply meets_bind (embed_meets (program_authorized cfg.voting call) past)
  rintro now a ⟨⟨added, rfl, sent⟩, authorized⟩
  refine ⟨⟨added, rfl, ?_⟩, authorized⟩
  intro x member
  obtain ⟨c, same⟩ := sent x member
  rw [same]
  intro other
  cases other

theorem route_explained (cookie : Option Str) (call : Call) :
    (AdminServer.program cfg (.route cookie call)).Meets (fun _ _ => True)
      (fun past a => Explained cfg (.route cookie call) past a) [] := by
  unfold AdminServer.program
  dsimp only
  split
  · rename_i guarded
    apply jwtAuth_meets
    · intro past message denied _
      exact ⟨⟨fun _ => ⟨guarded, denied⟩, fun _ => rfl⟩, trivial⟩
    · intro now claims
      apply meets_mono (route_meets call _) fun _ _ allowed => allowed
      rintro past a ⟨looked, authorized⟩
      refine ⟨looked, fun allowed => ⟨?_, trivial⟩⟩
      exact ⟨fun refused => absurd refused authorized, fun refused => absurd refused.2 allowed⟩
  · rename_i unguarded
    apply meets_mono (route_meets call _) fun _ _ allowed => allowed
    rintro past a ⟨-, authorized⟩
    exact ⟨⟨fun refused => absurd refused authorized, fun refused => absurd refused.1 unguarded⟩, trivial⟩

theorem program_explained (cfg : AdminConfig) (req : AdminCall) :
    (AdminServer.program cfg req).Meets (fun _ _ => True) (fun past a => Explained cfg req past a) [] := by
  cases req with
  | login body =>
    apply meets_mono (login_meets body) fun _ _ allowed => allowed
    exact fun past a explained => ⟨explained, trivial⟩
  | logout =>
    refine ⟨⟨?_, fun refused => refused.elim⟩, trivial⟩
    intro refused
    cases refused
  | me cookie => exact me_explained cookie
  | changePassword cookie body => exact changePassword_explained cookie body
  | route cookie call => exact route_explained cookie call

end Contracts
end Unauthorized
