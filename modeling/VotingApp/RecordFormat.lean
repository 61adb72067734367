import VotingApp.VoterJourney

/-!
The text format of a stored code. Its three fields are joined by colons without
any escaping, and the last one comes from the client.
-/
namespace RecordFormat
open GoText Tables EffectProgram CallPool SoloRun ExpiringStore VotingWorld OtpService Handlers VotingServer
open Footprints Frames OtpRecords SoloServer VoteAcceptance VoterJourney

/-- What %06d makes of a draw: six decimal digits that spell the draw plus 100000. -/
structure SixDigits (code : Str) (value : Nat) : Prop where
  length : code.length = 6
  digits : ∀ c ∈ code, c.isDigit = true
  spells : Nat.ofDigitChars 10 code 0 = value

theorem six_toDigits {m : Nat} (low : 100000 ≤ m) (high : m < 1000000) :
    (Nat.toDigits 10 m).length = 6 := by
  have most : (Nat.toDigits 10 m).length ≤ 6 :=
    (Nat.length_toDigits_le_iff (by omega) (by omega)).mpr high
  have more : ¬ (Nat.toDigits 10 m).length ≤ 5 := by
    intro short
    have below := (Nat.length_toDigits_le_iff (by omega) (by omega)).mp short
    omega
  omega

theorem unpadded {m : Nat} (length : (Nat.toDigits 10 m).length = 6) :
    sprintf06d m = Nat.toDigits 10 m := by
  simp [sprintf06d, length]

/- A draw below 900000 needs no padding. -/
theorem otpCode_digits {n : Nat} (small : n < 900000) : SixDigits (otpCode n) (n + 100000) := by
  have length := six_toDigits (m := n + 100000) (by omega) (by omega)
  have plain : otpCode n = Nat.toDigits 10 (n + 100000) := unpadded length
  rw [plain]
  constructor
  · exact length
  · intro c member
    exact Nat.isDigit_of_mem_toDigits (by omega) (by omega) member
  · exact Nat.ofDigitChars_ten_toDigits

/-- Every record a request writes is the one of the code it drew. -/
def WritesRecord (email fingerprint : Str) (id : Int) (past : History) (c : Cmd) : Prop :=
  ∀ key value ttl, c = .redis (.set key value ttl) → key = otpKey email ∧
    ∃ n, ⟨.randInt, .ok n⟩ ∈ past ∧ ∀ m, ⟨.randInt, .ok m⟩ ∈ past →
      value = otpRecord (otpCode m) id fingerprint

theorem generate_writes (email fp : Str) (id : Int) (name : Str) :
    (generateAndStore email fp id name).Meets (WritesRecord email fp id) (fun _ _ => True) [] := by
  have other : ∀ (past : History) c, (∀ key value ttl, c ≠ .redis (.set key value ttl)) →
      WritesRecord email fp id past c := by
    intro past c no_set key value ttl same
    exact absurd same (no_set key value ttl)
  apply meets_issue (other _ _ (by simp))
  intro r
  cases r with
  | error err => trivial
  | ok n =>
    apply meets_bind (isEmailBlocked_meets (other _ _ (by simp)))
    intro now blocked checked
    obtain ⟨r, history, -⟩ := checked
    rcases blocked with err | blocked
    · trivial
    · cases blocked with
      | true => trivial
      | false =>
        apply meets_redis
        · intro key value ttl same
          injection same with same
          injection same with key_is value_is
          constructor
          · exact key_is.symm
          · refine ⟨n, by simp [history], fun m drawn => ?_⟩
            have drew : m = n := by simpa [history] using drawn
            rw [← value_is, drew]
        · intro r
          cases r with
          | error err => trivial
          | ok _ =>
            apply meets_issue (other _ _ (by simp))
            intro r
            cases r with
            | none => trivial
            | some err => exact meets_redis (other _ _ (by simp)) fun _ => trivial

/-- What Verify answers once it has read a stored record. -/
def Judges (email otp stored : Str) (code fingerprint : Str) (id : Int) (past : History)
    (answer : Except GoErr (Str × Int)) : Prop :=
  ⟨.redis (.get (otpKey email)), .ok stored⟩ ∈ past →
    (answer = .ok (fingerprint, id) ↔ otp = code) ∧
      (otp ≠ code → answer = .error invalidOTP ∨ answer = .error blockedOnVerify)

/- Recording a failure reads no record, and answers nothing or the block. -/
theorem recordFailure_blocks (email : Str) (past : History) :
    (recordFailure email).Meets (fun _ _ => True) (fun now blocked =>
      (∀ key seen, ⟨.redis (.get key), seen⟩ ∈ now → ⟨.redis (.get key), seen⟩ ∈ past) ∧
        (blocked = none ∨ blocked = some blockedOnVerify)) past := by
  have block : ∀ now : History,
      (∀ key seen, ⟨.redis (.get key), seen⟩ ∈ now → ⟨.redis (.get key), seen⟩ ∈ past) →
      (blockEmail email).Meets (fun _ _ => True) (fun now blocked =>
        (∀ key seen, ⟨.redis (.get key), seen⟩ ∈ now → ⟨.redis (.get key), seen⟩ ∈ past) ∧
          (blocked = none ∨ blocked = some blockedOnVerify)) now := by
    intro now unread
    apply meets_redis trivial
    intro r
    apply meets_redis trivial
    intro r'
    constructor
    · intro key answer member
      exact unread key answer (by simpa using member)
    · exact Or.inr rfl
  apply meets_redis trivial
  intro r
  cases r with
  | error err => exact ⟨fun key answer member => by simpa using member, Or.inl rfl⟩
  | ok attempts =>
    dsimp only
    split
    · apply meets_redis trivial
      intro r
      split
      · exact block _ fun key answer member => by simpa using member
      · exact ⟨fun key answer member => by simpa using member, Or.inl rfl⟩
    · split
      · exact block _ fun key answer member => by simpa using member
      · exact ⟨fun key answer member => by simpa using member, Or.inl rfl⟩

section Unread
variable {email otp stored code fp : Str} {id : Int} {past : History}

theorem judges_unread (unread : ⟨.redis (.get (otpKey email)), .ok stored⟩ ∉ past)
    (answer : Except GoErr (Str × Int)) : Judges email otp stored code fp id past answer :=
  fun member => absurd member unread

theorem failure_unread (unread : ⟨.redis (.get (otpKey email)), .ok stored⟩ ∉ past) :
    (recordFailure email).Meets (fun _ _ => True)
      (fun now _ => ⟨.redis (.get (otpKey email)), .ok stored⟩ ∉ now) past := by
  apply meets_mono (recordFailure_blocks email past) fun _ _ allowed => allowed
  intro now blocked judged member
  exact unread (judged.1 _ _ member)

theorem reject_judges (unread : ⟨.redis (.get (otpKey email)), .ok stored⟩ ∉ past) :
    (rejectGuess email).Meets (fun _ _ => True) (Judges email otp stored code fp id) past := by
  apply meets_bind (failure_unread unread)
  intro now blocked still
  cases blocked with
  | none => exact judges_unread still _
  | some err => exact judges_unread still _

end Unread

/- A call that has read the record accepts its code and no other. -/
theorem verify_judges {stored code fp : Str} {id : Int}
    (decodes : decodeRecord stored = .record code id fp) (email otp : Str) :
    (verify email otp).Meets (fun _ _ => True) (Judges email otp stored code fp id) [] := by
  apply meets_bind (isEmailBlocked_meets trivial)
  intro now blocked checked
  obtain ⟨r, history, -⟩ := checked
  have unread : ∀ answer, Judges email otp stored code fp id now answer := by
    intro answer member
    simp [history] at member
  rcases blocked with err | blocked
  · exact unread _
  · cases blocked with
    | true => exact unread _
    | false =>
      apply meets_redis trivial
      intro r
      rw [history]
      cases r with
      | error err =>
        dsimp only
        split
        · intro member
          simp at member
        · intro member
          simp at member
      | ok found =>
        -- the only record this call reads
        by_cases same : found = stored
        · subst found
          dsimp only
          rw [decodes]
          dsimp only
          split
          · rename_i wrong
            apply meets_bind (recordFailure_blocks email _)
            intro later r judged
            obtain ⟨-, answers⟩ := judged
            have other : otp ≠ code := fun same => wrong same.symm
            rcases answers with none | block
            · subst r
              intro _
              exact ⟨by simp [other], fun _ => Or.inl rfl⟩
            · subst r
              intro _
              exact ⟨by simp [other], fun _ => Or.inr rfl⟩
          · rename_i right
            have equal : otp = code := (not_not.mp right).symm
            apply meets_redis trivial
            intro r _
            exact ⟨by simp [equal], fun other => absurd equal other⟩
        · have unread : ⟨.redis (.get (otpKey email)), .ok stored⟩ ∉
              (⟨.redis (.get (otpKey email)), .ok found⟩ ::
                ⟨.redis (.exists (otpBlockedKey email)), r⟩ :: [] : History) := by
            simp [Ne.symm same]
          dsimp only
          split
          · exact meets_bind (failure_unread unread) fun later r still => judges_unread still _
          · split
            · exact reject_judges unread
            · exact meets_bind (failure_unread unread) fun later r still => judges_unread still _
          · split
            · exact reject_judges unread
            · apply meets_redis trivial
              intro r
              exact judges_unread (by simpa using unread) _

/-- No block is set. -/
def Unblocked (w : World) (email : Str) : Prop := w.redis.lookup w.clock (otpBlockedKey email) = none

/-- The record is what Redis gives for the email. -/
def Holds (w : World) (email stored : Str) : Prop := w.redis.get itoa w.clock (otpKey email) = .ok stored

/-- Executed alone with this draw, for an email that is not blocked, GenerateAndStore succeeds and leaves
the record of its code. -/
def Stores (cfg : Config) (draw : Nat) (email fp : Str) (id : Int) (name : Str) : Prop :=
  ∀ verdict w, Unblocked w email →
    (∃ r w' later, Asks cfg draw verdict w (generateAndStore email fp id name) r w' later) ∧
      ∀ r w' later, Asks cfg draw verdict w (generateAndStore email fp id name) r w' later →
        r = none ∧ Holds w' email (otpRecord (otpCode draw) id fp)

/-- Executed alone where there is this record and no block, Verify reads it, and accepts its code only. -/
def Redeems (cfg : Config) (email otp stored code fp : Str) (id : Int) : Prop :=
  ∀ w, Unblocked w email → Holds w email stored →
    (∃ r w' later, Executes cfg w (verify email otp) r w' later) ∧
      ∀ r w' later, Executes cfg w (verify email otp) r w' later → (r = .ok (fp, id) ↔ otp = code) ∧
        (otp ≠ code → r = .error invalidOTP ∨ r = .error blockedOnVerify)

section Alone
variable {cfg : Config} {n : Nat} {email otp stored code fp : Str} {id : Int}

theorem generate_stores (small : n < 900000) (name : Str) : Stores cfg n email fp id name := by
  intro verdict w unblocked
  obtain ⟨r, v, evaluated, stored | ⟨-, blocked, -⟩⟩ :=
    @generate_settles n verdict (offline w) email fp id name
  · obtain ⟨rfl, -, rfl⟩ := stored
    constructor
    · obtain ⟨w', later, asked⟩ := solo_exists (answers_settle cfg n verdict)
        (answers_go cfg small verdict) evaluated
      exact ⟨none, w', later, asked⟩
    · intro r w' later asked
      obtain ⟨rfl, left⟩ := Prod.mk.inj (solo_evaluates (answers_settle cfg n verdict) asked evaluated)
      refine ⟨rfl, ?_⟩
      change (offline w').redis.get itoa (offline w').clock (otpKey email) = _
      rw [← left]
      rw [get_text itoa (mailed_self _ email fp id name (otpCode n))]
      exact if_pos (Nat.lt_add_of_pos_right otpTTL_pos)
  · exact absurd unblocked blocked

/- Whatever the answers are, a wrong guess ends with one of two errors. -/
theorem rejectGuess_answers (past : History) : (rejectGuess email).Meets (fun _ _ => True)
    (fun _ r => r = .error invalidOTP ∨ r = .error blockedOnVerify) past := by
  apply meets_bind (recordFailure_blocks email past)
  rintro now blocked ⟨-, rfl | rfl⟩
  · exact Or.inl rfl
  · exact Or.inr rfl

theorem verify_redeems_only (decodes : decodeRecord stored = .record code id fp) :
    Redeems cfg email otp stored code fp id := by
  intro w unblocked held
  have uses : (verify email otp).Issues Determined := by
    apply issues_mono (verify_issues email otp)
    intro c sent
    cases sent <;> trivial
  refine ⟨executes_of_issues cfg uses w, ?_⟩
  intro r w' later executed
  obtain ⟨x, evaluated⟩ := evaluates_of_issues determined_answer uses (bare w)
  obtain rfl := solo_evaluates (server_settles cfg) executed evaluated
  unfold verify at evaluated
  rw [evaluate_then (blocked_evaluates email)] at evaluated
  have no_block : (bare w).redis.lookup (bare w).clock (otpBlockedKey email) = none := unblocked
  have found : (bare w).redis.get itoa (bare w).clock (otpKey email) = .ok stored := held
  rw [no_block] at evaluated
  dsimp only [Option.isSome_none] at evaluated
  rw [evaluate_redis] at evaluated
  dsimp only [RedisCmd.run] at evaluated
  rw [found] at evaluated
  dsimp only [fromStore] at evaluated
  rw [decodes] at evaluated
  dsimp only at evaluated
  split at evaluated
  · rename_i wrong
    obtain ⟨now, fails⟩ := evaluate_meets (rejectGuess_answers []) evaluated
    have other : otp ≠ code := fun same => wrong same.symm
    refine ⟨⟨fun same => ?_, fun same => absurd same other⟩, fun _ => fails⟩
    rcases fails with invalid | block
    · rw [same] at invalid
      cases invalid
    · rw [same] at block
      cases block
  · rename_i right
    rw [evaluate_redis] at evaluated
    have accepted : .ok (fp, id) = r := congrArg Prod.fst (Option.some.inj evaluated)
    have equal : otp = code := (not_not.mp right).symm
    exact ⟨⟨fun _ => equal, fun _ => accepted.symm⟩, fun other => absurd equal other⟩

end Alone

/- The code, the candidate and the fingerprint all come back as they went in. Verify takes
   the record for the presented code exactly when it is that code, whatever it has seen
   before; and where nothing fails, the record is stored and read. -/
theorem record_round_trip (cfg : Config) (n : Nat) (small : n < 900000) (id : Int)
    (fits : inInt64 id = true) (email fp name otp : Str) :
    SixDigits (otpCode n) (n + 100000) ∧
      decodeRecord (otpRecord (otpCode n) id fp) = .record (otpCode n) id fp ∧
      (generateAndStore email fp id name).Meets (WritesRecord email fp id) (fun _ _ => True) [] ∧
      (verify email otp).Meets (fun _ _ => True)
        (Judges email otp (otpRecord (otpCode n) id fp) (otpCode n) fp id) [] ∧
      Stores cfg n email fp id name ∧
      Redeems cfg email otp (otpRecord (otpCode n) id fp) (otpCode n) fp id := by
  have decodes : decodeRecord (otpRecord (otpCode n) id fp) = .record (otpCode n) id fp := by
    rw [decodeRecord_otpRecord, if_pos fits]
  exact ⟨otpCode_digits small, decodes, generate_writes email fp id name,
    verify_judges decodes email otp, generate_stores small name, verify_redeems_only decodes⟩

/- A fingerprint with colons, blanks and digits of its own. -/
theorem colons_round_trip :
    SixDigits "100023".toList 100023 ∧
      decodeRecord "100023:7:a:b 8:9".toList = .record "100023".toList 7 "a:b 8:9".toList := by
  have code : otpCode 23 = "100023".toList := by decide +kernel
  have text : otpRecord "100023".toList 7 "a:b 8:9".toList = "100023:7:a:b 8:9".toList := by decide
  have trip := record_round_trip devConfig 23 (by decide) 7 (by decide) "a@gmail.com".toList
    "a:b 8:9".toList "Ann".toList "100023".toList
  rw [code, text] at trip
  exact ⟨trip.1, trip.2.1⟩

end RecordFormat
