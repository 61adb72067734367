import VotingApp.Frames

/-!
RequestOTP and VerifyVote up to the vote itself. Whatever they check first is answered at once,
with a status that says nothing of a vote.
-/
namespace EarlyAnswers
open GoText Tables EffectProgram VotingWorld
open VotingSettings VoteService Handlers VotingServer Frames

/-- The rate limit, the voting guard, the body, the domain and the captcha. -/
def Early (r : Response) : Prop := r.status ∈ [400, 403, 429, 500]

instance (r : Response) : Decidable (Early r) := inferInstanceAs (Decidable (_ ∈ _))

theorem early_other {r : Response} (early : Early r) {n : Nat} (other : n ∉ [400, 403, 429, 500]) :
    r.status ≠ n := by
  rintro rfl
  exact other early

theorem anyway {α : Type} {past : History} (p : Act α) :
    p.Meets (fun _ _ => True) (fun _ _ => True) past :=
  meets_trivial (fun _ _ => trivial) p

section Handlers
variable {past : History} {post : History → Response → Prop}

theorem requestOTPFor_meets {cfg : Config} {ip : Str} {req : RequestOTPRequest}
    (early : ∀ past r, Early r → post past r)
    (prepared : ∀ past, (prepareOTPRequest (normalizeEmail cfg req.email) req.fingerprint ip
      req.candidateID).Meets (fun _ _ => True) (fun now err => post now (answerPrepared err)) past) :
    (requestOTPFor cfg ip req).Meets (fun _ _ => True) post past := by
  apply meets_bind (anyway _)
  rintro now (err | _ | _) -
  · exact early _ _ (by decide)
  · exact early _ _ (by decide)
  · apply meets_bind (anyway _)
    rintro now (err | _ | _) -
    · exact early _ _ (by decide)
    · exact early _ _ (by decide)
    · apply meets_bind (prepared now)
      exact fun _ _ met => met

theorem requestOTP_meets {cfg : Config} {ip : Str} {body : Except Str RequestOTPRequest}
    (early : ∀ past r, Early r → post past r)
    (prepared : ∀ req, bindBody (RequestOTPRequest.check cfg) body = .ok req → ∀ past,
      (prepareOTPRequest (normalizeEmail cfg req.email) req.fingerprint ip req.candidateID).Meets
        (fun _ _ => True) (fun now err => post now (answerPrepared err)) past) :
    (Handlers.requestOTP cfg ip body).Meets (fun _ _ => True) post past := by
  have guarded : ∀ now, (requestOTPGuarded cfg ip body).Meets (fun _ _ => True) post now := by
    intro now
    apply meets_bind (anyway _)
    rintro now (err | _ | _) -
    · exact early _ _ (by decide)
    · exact early _ _ (by decide)
    · dsimp only
      split
      · exact early _ _ List.mem_cons_self
      · rename_i req bound
        exact requestOTPFor_meets early (prepared req bound)
  apply meets_bind (anyway _)
  rintro now (err | _ | _) -
  · exact guarded now
  · exact early _ _ (by decide)
  · exact guarded now

theorem verifyVote_meets {cfg : Config} {ip userAgent : Str} {body : Except Str VerifyVoteRequest}
    (early : ∀ past r, Early r → post past r)
    (verified : ∀ req, bindBody (VerifyVoteRequest.check cfg) body = .ok req → ∀ past,
      (VoteService.verifyAndVote (normalizeEmail cfg req.email) req.otp ip userAgent).Meets
        (fun _ _ => True) (fun now err => post now (answerVerified err)) past) :
    (Handlers.verifyVote cfg ip userAgent body).Meets (fun _ _ => True) post past := by
  apply meets_bind (anyway _)
  rintro now (err | _ | _) -
  · exact early _ _ (by decide)
  · exact early _ _ (by decide)
  · dsimp only
    split
    · exact early _ _ List.mem_cons_self
    · rename_i req bound
      apply meets_bind (verified req bound now)
      exact fun _ _ met => met

end Handlers
end EarlyAnswers
