import VotingApp.Lib.Clients
import VotingApp.Api
import VotingApp.Refusals
import VotingApp.VoteRetention

/-!
VoteModal.tsx in front of the server, in any number of tabs. Whenever it takes a vote for cast
it remembers the candidate that it shows.
-/
namespace VoteModal
open GoText GoTime JsonText Tables EffectProgram CallPool PoolHistory Clients VotingWorld Api
open OtpService VotingSettings VoteService CustomDomains Handlers VotingServer
open Footprints Frames VoteRetention Refusals

inductive ModalStep where
  | email
  | otp
  | done
  deriving DecidableEq, Repr

/-- The state of one modal. The address and the browser are those it is used from; verifyFor is the
id that the memoized handleVerifyOtp has closed over, and submitted is submittedRef. -/
structure Modal where
  candidate : Int
  ip : Str
  userAgent : Str
  fingerprint : Option Str := none
  step : ModalStep := .email
  email : Str := []
  captchaToken : Option Str := none
  otp : List (Option Char) := List.replicate 6 none
  loading : Bool := false
  error : Option Str := none
  doneMessage : Str := []
  isAlreadyVoted : Bool := false
  submitted : Bool := false
  verifyFor : Int := candidate
  deriving DecidableEq, Repr

/-- What a modal does outside of the page: localStorage.setItem for voted_candidate_id, and toasts. -/
inductive Effect where
  | setItem (votedCandidateId : Int)
  | toast (text : String)
  deriving DecidableEq, Repr

inductive Request where
  | requestOTP (candidate : Int) (email : Str)
  | verify (candidate : Int) (email : Str)
  deriving DecidableEq, Repr

def Request.candidate : Request → Int
  | .requestOTP candidate _ => candidate
  | .verify candidate _ => candidate

def Request.email : Request → Str
  | .requestOTP _ email => email
  | .verify _ email => email

abbrev ModalTurn := Turn Modal Request Call Effect

def alreadyVotedMessage : Str := "You have already cast your vote in this election.".toList

def noCode : List (Option Char) := List.replicate 6 none

/- Every setOtp renders again, and handleVerifyOtp then closes over the candidate of that time. -/
def setOtp (otp : List (Option Char)) (x : Modal) : Modal :=
  { x with otp := otp, verifyFor := x.candidate }

def setEmail (email : Str) (x : Modal) : Modal :=
  { x with email := email, verifyFor := x.candidate }

def handleRequestOtp (x : Modal) : ModalTurn :=
  match x.captchaToken.filter (· ≠ []), x.fingerprint.filter (· ≠ []) with
  | none, _ => { next := { x with error := some "Please complete the captcha.".toList } }
  | some _, none =>
    { next := { x with error := some "Fingerprint not ready. Please wait a moment.".toList } }
  | some captchaToken, some fingerprint =>
    { next := { x with loading := true, error := none }
      sent := some (.requestOTP x.candidate x.email,
        .requestOTP x.ip (.ok ⟨x.email, fingerprint, captchaToken, x.candidate⟩)) }

def joined (otp : List (Option Char)) : Str := otp.filterMap id

def handleVerifyOtp (x : Modal) : ModalTurn :=
  if (joined x.otp).length ≠ 6 then { next := x }
  else
    { next := { x with loading := true, error := none }
      sent := some (.verify x.verifyFor x.email,
        .verifyVote x.ip x.userAgent (.ok ⟨x.email, joined x.otp⟩)) }

/- The effect that submits the code once all six digits are there. -/
def autoSubmit (x : Modal) : ModalTurn :=
  if x.otp.all Option.isSome then
    if x.step = .otp ∧ x.loading = false ∧ x.submitted = false then
      handleVerifyOtp { x with submitted := true }
    else { next := x }
  else { next := { x with submitted := false } }

/- The effect runs after every render. -/
def rendered (t : ModalTurn) : ModalTurn :=
  { next := (autoSubmit t.next).next
    sent := t.sent.or (autoSubmit t.next).sent
    out := t.out ++ (autoSubmit t.next).out }

inductive Input where
  | fingerprint (fingerprint : Str)
  | captcha (token : Option Str)
  | type (email : Str)
  | submit
  | digit (index : Nat) (value : Option Char)
  | paste (text : Str)
  | goBackToEmail
  | select (candidate : Int)
  | roam (ip userAgent : Str)
  deriving DecidableEq, Repr

/- What is not rendered or is disabled takes no input. Home may put another candidate in. -/
def press (x : Modal) : Input → Option ModalTurn
  | .fingerprint fingerprint => some { next := { x with fingerprint := some fingerprint } }
  | .captcha token =>
    if x.step = .email then some { next := { x with captchaToken := token } } else none
  | .type email =>
    if x.step = .email ∧ x.loading = false then some { next := setEmail email x } else none
  | .submit =>
    if x.step = .email ∧ x.loading = false ∧ x.captchaToken.isSome ∧ x.email ≠ [] ∧
      x.fingerprint.isSome then some (handleRequestOtp x) else none
  | .digit index value =>
    if x.step = .otp ∧ x.loading = false ∧ index < 6 then
      some { next := if value.all Char.isDigit then setOtp (x.otp.set index value) x else x }
    else none
  | .paste text =>
    if x.step = .otp ∧ x.loading = false then
      let digits := (text.filter Char.isDigit).take 6
      some { next := if digits.length = 6 then setOtp (digits.map some) x else x }
    else none
  | .goBackToEmail =>
    if x.step = .otp then
      some { next := { setOtp noCode x with step := .email, error := none, captchaToken := none } }
    else none
  | .select candidate => some { next := { x with candidate := candidate } }
  | .roam ip userAgent => some { next := { x with ip := ip, userAgent := userAgent } }

def alreadyVoted (x : Modal) (candidate : Int) : ModalTurn :=
  { next := { x with
      isAlreadyVoted := true
      doneMessage := alreadyVotedMessage
      step := .done
      loading := false }
    out := [.setItem candidate] }

def settleRequest (x : Modal) (candidate : Int) (a : Option Answer) : ModalTurn :=
  if (resolved a).isSome then { next := { x with step := .otp, loading := false } }
  else if status a = some 409 then alreadyVoted x candidate
  else
    { next := { x with
        error := some (errorText a "Failed to send OTP. Please try again.")
        captchaToken := none
        loading := false } }

def settleVerify (x : Modal) (candidate : Int) (a : Option Answer) : ModalTurn :=
  if (resolved a).isSome then
    { next := { x with
        doneMessage := "Your vote has been recorded! Thank you for participating.".toList
        step := .done
        loading := false }
      out := [.setItem candidate, .toast "Vote recorded successfully!"] }
  else if status a = some 409 then alreadyVoted x candidate
  else if status a = some 422 then
    { next := { setOtp noCode x with
        error := some "Invalid or expired OTP. Please request a new code.".toList
        loading := false } }
  else
    { next := { setOtp noCode x with
        error := some (errorText a "Verification failed.")
        loading := false } }

def settle (x : Modal) (tag : Request) (a : Option Answer) : ModalTurn :=
  match tag with
  | .requestOTP candidate _ => settleRequest x candidate a
  | .verify candidate _ => settleVerify x candidate a

/-- What a modal is opened with: a candidate, at an address and in a browser. -/
structure Props where
  candidate : Int
  ip : Str
  userAgent : Str
  deriving DecidableEq, Repr

def voting : App Modal Props Input Request Call Answer Effect where
  mount v := { next := { candidate := v.candidate, ip := v.ip, userAgent := v.userAgent } }
  input x i := (press x i).map rendered
  settle x tag a := rendered (settle x tag a)

abbrev Voters := Site Cmd Reply World Oracle Modal Request Call Answer
abbrev VoterMove := Clients.Move Oracle Env Props Input Call

/-- What a request of a modal asks for. -/
def Asked : Request → Call → Prop
  | .requestOTP candidate email, req => ∃ ip fingerprint captchaToken,
    req = .requestOTP ip (.ok ⟨email, fingerprint, captchaToken, candidate⟩)
  | .verify _ email, req => ∃ ip userAgent otp, req = .verifyVote ip userAgent (.ok ⟨email, otp⟩)

/-- What the call of a request has found is consistent with the candidate of its modal, and since then
no vote of its email for that candidate was deleted. -/
def Matching (cfg : Config) (log : Log) (f : Flight Request Call) : Prop :=
  ∀ late ev older, log = late ++ ev :: older → ev.caller = f.job → Consistent f.tag.candidate ev ∧
    ∀ removal ∈ late, deleted removal = some f.tag.candidate → ∀ v ∈ removal.before.db.votes,
      v.voterEmail = normalizeEmail cfg f.tag.email → v.candidateId ≠ f.tag.candidate

theorem handleRequestOtp_asked {x : Modal} :
    (∀ tag req, (handleRequestOtp x).sent = some (tag, req) → Asked tag req) ∧
      (handleRequestOtp x).out = [] := by
  unfold handleRequestOtp
  split
  · exact ⟨fun _ _ sends => (by cases sends), rfl⟩
  · exact ⟨fun _ _ sends => (by cases sends), rfl⟩
  · constructor
    · intro tag req sends
      cases sends
      exact ⟨_, _, _, rfl⟩
    · rfl

theorem handleVerifyOtp_asked {x : Modal} :
    (∀ tag req, (handleVerifyOtp x).sent = some (tag, req) → Asked tag req) ∧
      (handleVerifyOtp x).out = [] := by
  unfold handleVerifyOtp
  split
  · exact ⟨fun _ _ sends => (by cases sends), rfl⟩
  · constructor
    · intro tag req sends
      cases sends
      exact ⟨_, _, _, rfl⟩
    · rfl

theorem autoSubmit_asked {x : Modal} :
    (∀ tag req, (autoSubmit x).sent = some (tag, req) → Asked tag req) ∧ (autoSubmit x).out = [] := by
  unfold autoSubmit
  split
  · split
    · exact handleVerifyOtp_asked
    · exact ⟨fun _ _ sends => (by cases sends), rfl⟩
  · exact ⟨fun _ _ sends => (by cases sends), rfl⟩

/- The effect asks for nothing else, and does nothing outside of the page. -/
theorem rendered_asked {t : ModalTurn} (asked : ∀ tag req, t.sent = some (tag, req) → Asked tag req) :
    (∀ tag req, (rendered t).sent = some (tag, req) → Asked tag req) ∧ (rendered t).out = t.out := by
  constructor
  · intro tag req sends
    rw [rendered] at sends
    cases own : t.sent with
    | none =>
      rw [own, Option.none_or] at sends
      exact autoSubmit_asked.1 tag req sends
    | some sent =>
      rw [own, Option.some_or, Option.some.injEq] at sends
      subst sent
      exact asked tag req own
  · rw [rendered, autoSubmit_asked.2, List.append_nil]

/- Only the form of the email sends, when it is submitted. -/
theorem press_asked {x : Modal} {i : Input} {t : ModalTurn} (takes : press x i = some t) :
    (∀ tag req, t.sent = some (tag, req) → Asked tag req) ∧ t.out = [] := by
  have silent : ∀ y : Modal, (∀ tag req, ({ next := y } : ModalTurn).sent = some (tag, req) → Asked tag req) ∧
      ({ next := y } : ModalTurn).out = [] :=
    fun y => ⟨fun _ _ sends => (by cases sends), rfl⟩
  cases i with
  | submit =>
    obtain ⟨-, same⟩ := Option.ite_none_right_eq_some.mp takes
    cases same
    exact handleRequestOtp_asked
  | fingerprint _ | select _ | roam _ _ =>
    cases takes
    exact silent _
  | captcha _ | type _ | digit _ _ | paste _ | goBackToEmail =>
    obtain ⟨-, same⟩ := Option.ite_none_right_eq_some.mp takes
    cases same
    exact silent _

theorem settleRequest_silent (x : Modal) (candidate : Int) (a : Option Answer) :
    (settleRequest x candidate a).sent = none := by
  unfold settleRequest
  split
  · rfl
  · split <;> rfl

theorem settleVerify_silent (x : Modal) (candidate : Int) (a : Option Answer) :
    (settleVerify x candidate a).sent = none := by
  unfold settleVerify
  split
  · rfl
  · split
    · rfl
    · split <;> rfl

/- Nothing is sent when an answer has come, but what the effect sends. -/
theorem settle_asked {x : Modal} {tag : Request} {a : Option Answer} :
    ∀ tag' req, (settle x tag a).sent = some (tag', req) → Asked tag' req := by
  have silent : (settle x tag a).sent = none := by
    cases tag with
    | requestOTP candidate email => exact settleRequest_silent x candidate a
    | verify candidate email => exact settleVerify_silent x candidate a
  intro tag' req sends
  rw [silent] at sends
  cases sends

/- A modal remembers its own candidate: after a 409, and after a verification that succeeds. -/
theorem settle_remembers {x : Modal} {tag : Request} {a : Option Answer} {c : Int}
    (remembers : .setItem c ∈ (settle x tag a).out) :
    c = tag.candidate ∧ (status a = some 409 ∨ (resolved a).isSome = true ∧
      ∃ candidate email, tag = .verify candidate email) := by
  cases tag with
  | requestOTP candidate email =>
    simp only [settle, settleRequest] at remembers
    split at remembers
    · cases remembers
    · split at remembers
      · rename_i conflict
        cases List.mem_singleton.mp remembers
        exact ⟨rfl, Or.inl conflict⟩
      · cases remembers
  | verify candidate email =>
    simp only [settle, settleVerify] at remembers
    split at remembers
    · rename_i fine
      rcases List.mem_cons.mp remembers with same | toast
      · cases same
        exact ⟨rfl, Or.inr ⟨fine, _, _, rfl⟩⟩
      · cases List.mem_singleton.mp toast
    · split at remembers
      · rename_i conflict
        cases List.mem_singleton.mp remembers
        exact ⟨rfl, Or.inl conflict⟩
      · split at remembers <;> cases remembers

section Runs
variable {cfg : Config} {seed : Seed} {s : Voters} {c : Int}

theorem voting_keeps (cfg : Config) (seed : Seed) :
    Keeps voting (server cfg) seed.start (fun _ => false) (fun _ => True) (fun _ _ => True)
      (fun _ => Asked) where
  grows _ := ⟨fun _ _ => trivial, fun _ _ asked => asked⟩
  mount _ _ := ⟨trivial, fun _ _ sends => by cases sends⟩
  input p x i t _ takes := by
    obtain ⟨t', pressed, rfl⟩ := Option.map_eq_some_iff.mp takes
    exact ⟨trivial, (rendered_asked (press_asked pressed).1).1⟩
  settle p x tag req a _ _ _ _ _ := ⟨trivial, (rendered_asked settle_asked).1⟩

/- Only an answer that has come makes a modal remember, and only its own candidate. -/
theorem remembering {move : VoterMove} (remembers : .setItem c ∈ s.outs voting move) :
    ∃ k f a, move = .land k ∧ s.flights[k]? = some f ∧ answerAt s.pool f.job = some a ∧
      c = f.tag.candidate ∧ (status (some a) = some 409 ∨ (resolved (some a)).isSome = true ∧
        ∃ candidate email, f.tag = .verify candidate email) := by
  cases move with
  | serve l => cases remembers
  | mount v => cases remembers
  | input i x =>
    obtain ⟨x', t, takes, inside⟩ := input_outs remembers
    obtain ⟨t', pressed, rfl⟩ := Option.map_eq_some_iff.mp takes
    rw [(rendered_asked (press_asked pressed).1).2, (press_asked pressed).2] at inside
    cases inside
  | land k =>
    obtain ⟨f, x, a, at_k, -, is_answer, inside⟩ := land_outs remembers
    rw [voting, (rendered_asked settle_asked).2] at inside
    exact ⟨k, f, a, rfl, at_k, is_answer, settle_remembers inside⟩
  | lose k =>
    obtain ⟨f, x, -, -, inside⟩ := lose_outs remembers
    rw [voting, (rendered_asked settle_asked).2] at inside
    obtain ⟨-, conflict | ⟨fine, -⟩⟩ := settle_remembers inside
    · cases conflict
    · cases fine

/- A vote that was there after some step is there now, if none such was deleted since. -/
theorem vote_now (reached : Reaches (server cfg) anyLabel seed.start s.pool) {late older : Log}
    {ev : LogEntry} (split : s.pool.log = late ++ ev :: older) {email : Str}
    (unremoved : ∀ removal ∈ late, deleted removal = some c → ∀ v ∈ removal.before.db.votes,
      v.voterEmail = email → v.candidateId ≠ c)
    (vote : HasVote ev.after.db email c) : HasVote s.pool.world.db email c := by
  obtain ⟨moment⟩ := moment_of_logged rfl reached split
  refine kept_since (I := fun w => HasVote w.db email c) ?_ moment.later
    (by rw [split, moment.post_log]) ?_ (by rw [moment.post_world]; exact vote)
  · intro w e w' moved held
    rw [(env_scope moved).1]
    exact held
  · rintro removal newer ⟨v, there, is_email, is_candidate⟩
    have logged : removal ∈ s.pool.log := by
      rw [split]
      exact List.mem_append_left _ newer
    refine ⟨v, ?_, is_email, is_candidate⟩
    rcases votes_step (performed_of_run reached removal logged) with
      same | ⟨email', fp, id, ip, userAgent, inserted⟩ | ⟨id, gone⟩
    · rw [same]
      exact there
    · rw [inserted.grown]
      exact List.mem_append_left _ there
    · rw [removed_votes gone, List.mem_filter]
      have other : v.candidateId ≠ id := by
        rintro rfl
        rw [← is_candidate] at unremoved
        exact unremoved removal newer (deleted_of_removed gone) v there is_email rfl
      exact ⟨there, by simpa using other⟩

/- What the call has seen that answers so, if the votes were consistent with the candidate. -/
theorem explained_vote {i : Nat} {email : Str} (logged : ∀ ev ∈ s.pool.log, Performed ev)
    (consistent : ∀ ev ∈ s.pool.log, ev.caller = i → Consistent c ev)
    (seen : FoundVote email (own i s.pool.log) ∨ Voted email (own i s.pool.log) ∨
      Collided email (own i s.pool.log)) :
    ∃ ev ∈ s.pool.log, ev.caller = i ∧ HasVote ev.after.db email c := by
  rcases seen with found | voted | collided
  · rcases found with ⟨n, some_votes, member⟩ | ⟨fp, n, some_votes, member⟩ | ⟨x, member, denied⟩
    · obtain ⟨ev, inside, mine, exchange⟩ := mem_own.mp member
      exact ⟨ev, inside, mine, found_vote (logged ev inside) (consistent ev inside mine)
        (Or.inl ⟨n, some_votes, exchange⟩)⟩
    · obtain ⟨ev, inside, mine, exchange⟩ := mem_own.mp member
      exact ⟨ev, inside, mine, found_vote (logged ev inside) (consistent ev inside mine)
        (Or.inr ⟨fp, n, some_votes, exchange⟩)⟩
    · obtain ⟨ev, inside, -, rfl⟩ := mem_own.mp member
      exact absurd denied (performed_not_denied (logged ev inside))
  · obtain ⟨fp, id, ip, userAgent, member⟩ := voted
    obtain ⟨ev, inside, mine, exchange⟩ := mem_own.mp member
    exact ⟨ev, inside, mine, voted_vote (logged ev inside) (consistent ev inside mine) exchange⟩
  · obtain ⟨fp, id, ip, userAgent, err, member, duplicate⟩ := collided
    obtain ⟨ev, inside, mine, exchange⟩ := mem_own.mp member
    have consistent := consistent ev inside mine
    exact ⟨ev, inside, mine, collided_vote (logged ev inside) consistent duplicate exchange⟩

/- What such an answer to a request of a modal is explained by. -/
theorem answer_explained {tag : Request} {req : Call} {past : History} {a : Answer}
    (asked : Asked tag req) (explained : Explained cfg req past a)
    (answer : status (some a) = some 409 ∨ (resolved (some a)).isSome = true ∧
      ∃ candidate email, tag = .verify candidate email) :
    FoundVote (normalizeEmail cfg tag.email) past ∨ Voted (normalizeEmail cfg tag.email) past ∨
      Collided (normalizeEmail cfg tag.email) past := by
  rcases answer with conflict | ⟨fine, candidate, email, rfl⟩
  · obtain ⟨r, same, is_409⟩ := status_some conflict
    cases same
    cases tag with
    | requestOTP candidate email =>
      obtain ⟨ip, fingerprint, captchaToken, rfl⟩ := asked
      exact Or.inl (explained is_409)
    | verify candidate email =>
      obtain ⟨ip, userAgent, otp, rfl⟩ := asked
      exact Or.inr (Or.inr (explained.2 is_409))
  · obtain ⟨r, same, success⟩ := resolved_some fine
    cases same
    obtain ⟨ip, userAgent, otp, rfl⟩ := asked
    exact Or.inr (Or.inl (explained.1 success))

/- Any number of modals in any number of tabs. Only an answer to a request makes a modal remember, and
   it remembers the candidate that it shows. If the call has found the votes consistent with that
   candidate and none of them was deleted since, then there is a vote of its email for it. -/
theorem remembers_cast_vote (run : Visited voting (server cfg) anyMove ⟨seed.start, [], []⟩ s)
    {move : VoterMove} (remembers : .setItem c ∈ s.outs voting move) :
    ∃ k f, move = .land k ∧ s.flights[k]? = some f ∧ c = f.tag.candidate ∧
      (Matching cfg s.pool.log f → HasVote s.pool.world.db (normalizeEmail cfg f.tag.email) c) := by
  obtain ⟨k, f, a, rfl, at_k, is_answer, rfl, answer⟩ := remembering remembers
  refine ⟨k, f, rfl, at_k, rfl, fun matching => ?_⟩
  obtain ⟨asked, job, at_job, same⟩ :=
    (holds_of_run (opening_none voting) (voting_keeps cfg seed) run).flights f (List.mem_of_getElem? at_k)
  obtain ⟨job', at_job', finished⟩ := answered_job.mp is_answer
  obtain rfl : job = job' := Option.some.inj (at_job.symm.trans at_job')
  have reached := pool_reaches run
  have explained := contract_of_job (program_explained cfg) rfl reached job
    (List.mem_of_getElem? at_job)
  rw [finished, meets_done, past_of_job rfl rfl reached at_job, same] at explained
  have consistent : ∀ ev ∈ s.pool.log, ev.caller = f.job → Consistent f.tag.candidate ev := by
    intro ev inside mine
    obtain ⟨late, older, split⟩ := List.append_of_mem inside
    exact (matching late ev older split mine).1
  obtain ⟨ev, inside, mine, vote⟩ := explained_vote (performed_of_run reached) consistent
    (answer_explained asked explained answer)
  obtain ⟨late, older, split⟩ := List.append_of_mem inside
  exact vote_now reached split (matching late ev older split mine).2 vote

end Runs

theorem matching_of_kept {cfg : Config} {log : Log} {f : Flight Request Call}
    (consistent : ∀ ev ∈ log, ev.caller = f.job → Consistent f.tag.candidate ev)
    (kept : ∀ ev ∈ log, deleted ev = none) : Matching cfg log f := by
  rintro late ev older rfl mine
  refine ⟨consistent ev (by simp) mine, fun removal newer gone => ?_⟩
  rw [kept removal (List.mem_append_left _ newer)] at gone
  cases gone

def serves (caller n : Nat) : List VoterMove := List.replicate n (.serve (.run caller {}))

/-- The modal i is opened for a candidate, filled in and sent. -/
def asks (i : Nat) (candidate : Int) : List VoterMove :=
  [.mount ⟨candidate, "10.0.0.1".toList, []⟩, .input i (.fingerprint "phone".toList),
    .input i (.captcha (some "token".toList)), .input i (.type "a@gmail.com".toList), .input i .submit]

/-- No modal is open yet. -/
def noVoters : Voters := ⟨twoCandidates.start, [], []⟩

/- A voter asks for a code for the first candidate and pastes it. -/
def castMoves : List VoterMove :=
  asks 0 1 ++ serves 0 14 ++ [.land 0, .input 0 (.paste "100000".toList)] ++ serves 1 9

def castOnce : Voters := after voting (server devConfig) noVoters castMoves

/- The first candidate is remembered, and it has the vote. -/
theorem remembers_cast_vote_once : ∃ f, castOnce.flights[1]? = some f ∧ f.tag.candidate = 1 ∧
    Matching devConfig castOnce.pool.log f ∧
      HasVote castOnce.pool.world.db (normalizeEmail devConfig f.tag.email) 1 := by
  have run : Visited voting (server devConfig) anyMove noVoters castOnce :=
    visited_after (by decide +kernel)
  have remembers : .setItem 1 ∈ castOnce.outs voting (.land 1 : VoterMove) := by decide +kernel
  have consistent : ∀ ev ∈ castOnce.pool.log, ev.caller = 1 → Consistent 1 ev := by decide +kernel
  have kept : ∀ ev ∈ castOnce.pool.log, deleted ev = none := by decide +kernel
  have job : castOnce.flights[1]?.map Flight.job = some 1 := by decide +kernel
  obtain ⟨k, f, same, at_k, candidate, vote⟩ := remembers_cast_vote run remembers
  cases same
  rw [at_k, Option.map_some, Option.some.injEq] at job
  have matching : Matching devConfig castOnce.pool.log f :=
    matching_of_kept (by rw [job, ← candidate]; exact consistent) kept
  exact ⟨f, at_k, candidate.symm, matching, vote matching⟩

/- The vote is in, and a modal for the second candidate is opened in another tab of the browser. -/
def otherModal : Voters :=
  after voting (server devConfig) noVoters (castMoves ++ .land 1 :: asks 1 2 ++ serves 2 4)

/- It is answered 409 and remembers the second candidate, who has no vote. -/
theorem remembers_other_candidate : ∃ f, Visited voting (server devConfig) anyMove noVoters otherModal ∧
    otherModal.flights[2]? = some f ∧ .setItem 2 ∈ otherModal.outs voting (.land 2 : VoterMove) ∧
      ¬ HasVote otherModal.pool.world.db (normalizeEmail devConfig f.tag.email) 2 := by
  have run : Visited voting (server devConfig) anyMove noVoters otherModal :=
    visited_after (by decide +kernel)
  have remembers : .setItem 2 ∈ otherModal.outs voting (.land 2 : VoterMove) := by decide +kernel
  have for_first : ∀ v ∈ otherModal.pool.world.db.votes, v.candidateId = 1 := by decide +kernel
  have sent : (otherModal.flights[2]?).isSome = true := by decide +kernel
  obtain ⟨f, at_k⟩ := Option.isSome_iff_exists.mp sent
  refine ⟨f, run, at_k, remembers, ?_⟩
  rintro ⟨v, there, -, is_second⟩
  rw [for_first v there] at is_second
  cases is_second

end VoteModal
