import VotingApp.Handlers

/-!
The key builders of the services, side by side. What a key stands for is read back from its text.
-/
namespace RedisKeys
open GoText OtpService VotingSettings CustomDomains Handlers

/-- What a Redis key of the server stands for. -/
inductive Key where
  | otp (email : Str)
  | attempts (email : Str)
  | blocked (email : Str)
  | settings
  | rate (ip : Str)
  | domains
  | warmed

def Key.text : Key → Str
  | .otp email => otpKey email
  | .attempts email => otpAttemptsKey email
  | .blocked email => otpBlockedKey email
  | .settings => votingSettingsRedisKey
  | .rate ip => rateLimitKey ip
  | .domains => customDomainsRedisKey
  | .warmed => customDomainsWarmedRedisKey

def Key.kind : Key → Nat
  | .otp _ => 0
  | .attempts _ => 1
  | .blocked _ => 2
  | .settings => 3
  | .rate _ => 4
  | .domains => 5
  | .warmed => 6

/- The prefixes tell the kinds apart, whatever the emails and addresses behind them. -/
def kindOf (text : Str) : Nat :=
  if "otp:".toList.isPrefixOf text then 0
  else if "otp_attempts:".toList.isPrefixOf text then 1
  else if "otp_blocked:".toList.isPrefixOf text then 2
  else if "voting:".toList.isPrefixOf text then 3
  else if "ratelimit:".toList.isPrefixOf text then 4
  else if text = customDomainsRedisKey then 5
  else 6

theorem kindOf_text (k : Key) : kindOf k.text = k.kind := by
  cases k <;> rfl

theorem apart (a b : Key) (differ : (a.kind == b.kind) = false) : a.text ≠ b.text := by
  intro same
  rw [← kindOf_text a, same, kindOf_text b, beq_self_eq_true] at differ
  cases differ

theorem text_injective : Function.Injective Key.text := by
  intro a b same
  have kinds : a.kind = b.kind := by
    rw [← kindOf_text a, same, kindOf_text b]
  cases a with
  | otp email =>
    cases b with
    | otp email' => exact congrArg Key.otp (List.append_cancel_left same)
    | _ => cases kinds
  | attempts email =>
    cases b with
    | attempts email' => exact congrArg Key.attempts (List.append_cancel_left same)
    | _ => cases kinds
  | blocked email =>
    cases b with
    | blocked email' => exact congrArg Key.blocked (List.append_cancel_left same)
    | _ => cases kinds
  | rate ip =>
    cases b with
    | rate ip' => exact congrArg Key.rate (List.append_cancel_left same)
    | _ => cases kinds
  | _ =>
    cases b with
    | otp email => cases kinds
    | attempts email => cases kinds
    | blocked email => cases kinds
    | rate ip => cases kinds
    | _ => first | rfl | cases kinds

/- For simp: what two keys being the same comes to, kind by kind. -/
@[simp] theorem otpKey_eq (e : Str) : (∀ f, otpKey e = otpKey f ↔ e = f) ∧
    (∀ f, otpKey e ≠ otpAttemptsKey f) ∧ (∀ f, otpKey e ≠ otpBlockedKey f) ∧
    (∀ ip, otpKey e ≠ rateLimitKey ip) ∧ otpKey e ≠ votingSettingsRedisKey ∧
    otpKey e ≠ customDomainsRedisKey ∧ otpKey e ≠ customDomainsWarmedRedisKey :=
  ⟨fun _ => List.append_right_inj _, fun f => apart (.otp e) (.attempts f) rfl,
    fun f => apart (.otp e) (.blocked f) rfl, fun ip => apart (.otp e) (.rate ip) rfl,
    apart (.otp e) .settings rfl, apart (.otp e) .domains rfl, apart (.otp e) .warmed rfl⟩

@[simp] theorem attemptsKey_eq (e : Str) : (∀ f, otpAttemptsKey e = otpAttemptsKey f ↔ e = f) ∧
    (∀ f, otpAttemptsKey e ≠ otpKey f) ∧ (∀ f, otpAttemptsKey e ≠ otpBlockedKey f) ∧
    (∀ ip, otpAttemptsKey e ≠ rateLimitKey ip) ∧ otpAttemptsKey e ≠ votingSettingsRedisKey ∧
    otpAttemptsKey e ≠ customDomainsRedisKey ∧ otpAttemptsKey e ≠ customDomainsWarmedRedisKey :=
  ⟨fun _ => List.append_right_inj _, fun f => apart (.attempts e) (.otp f) rfl,
    fun f => apart (.attempts e) (.blocked f) rfl, fun ip => apart (.attempts e) (.rate ip) rfl,
    apart (.attempts e) .settings rfl, apart (.attempts e) .domains rfl,
    apart (.attempts e) .warmed rfl⟩

@[simp] theorem blockedKey_eq (e : Str) : (∀ f, otpBlockedKey e = otpBlockedKey f ↔ e = f) ∧
    (∀ f, otpBlockedKey e ≠ otpKey f) ∧ (∀ f, otpBlockedKey e ≠ otpAttemptsKey f) ∧
    (∀ ip, otpBlockedKey e ≠ rateLimitKey ip) ∧ otpBlockedKey e ≠ votingSettingsRedisKey ∧
    otpBlockedKey e ≠ customDomainsRedisKey ∧ otpBlockedKey e ≠ customDomainsWarmedRedisKey :=
  ⟨fun _ => List.append_right_inj _, fun f => apart (.blocked e) (.otp f) rfl,
    fun f => apart (.blocked e) (.attempts f) rfl, fun ip => apart (.blocked e) (.rate ip) rfl,
    apart (.blocked e) .settings rfl, apart (.blocked e) .domains rfl,
    apart (.blocked e) .warmed rfl⟩

@[simp] theorem rateKey_eq (ip : Str) : (∀ ip', rateLimitKey ip = rateLimitKey ip' ↔ ip = ip') ∧
    (∀ f, rateLimitKey ip ≠ otpKey f) ∧ (∀ f, rateLimitKey ip ≠ otpAttemptsKey f) ∧
    (∀ f, rateLimitKey ip ≠ otpBlockedKey f) ∧ rateLimitKey ip ≠ votingSettingsRedisKey ∧
    rateLimitKey ip ≠ customDomainsRedisKey ∧ rateLimitKey ip ≠ customDomainsWarmedRedisKey :=
  ⟨fun _ => List.append_right_inj _, fun f => apart (.rate ip) (.otp f) rfl,
    fun f => apart (.rate ip) (.attempts f) rfl, fun f => apart (.rate ip) (.blocked f) rfl,
    apart (.rate ip) .settings rfl, apart (.rate ip) .domains rfl, apart (.rate ip) .warmed rfl⟩

@[simp] theorem settingsKey_eq : (∀ f, votingSettingsRedisKey ≠ otpKey f) ∧
    (∀ f, votingSettingsRedisKey ≠ otpAttemptsKey f) ∧
    (∀ f, votingSettingsRedisKey ≠ otpBlockedKey f) ∧
    (∀ ip, votingSettingsRedisKey ≠ rateLimitKey ip) ∧
    votingSettingsRedisKey ≠ customDomainsRedisKey ∧
    votingSettingsRedisKey ≠ customDomainsWarmedRedisKey :=
  ⟨fun f => apart .settings (.otp f) rfl, fun f => apart .settings (.attempts f) rfl,
    fun f => apart .settings (.blocked f) rfl, fun ip => apart .settings (.rate ip) rfl,
    apart .settings .domains rfl, apart .settings .warmed rfl⟩

@[simp] theorem domainsKey_eq : (∀ f, customDomainsRedisKey ≠ otpKey f) ∧
    (∀ f, customDomainsRedisKey ≠ otpAttemptsKey f) ∧
    (∀ f, customDomainsRedisKey ≠ otpBlockedKey f) ∧
    (∀ ip, customDomainsRedisKey ≠ rateLimitKey ip) ∧
    customDomainsRedisKey ≠ votingSettingsRedisKey ∧
    customDomainsRedisKey ≠ customDomainsWarmedRedisKey :=
  ⟨fun f => apart .domains (.otp f) rfl, fun f => apart .domains (.attempts f) rfl,
    fun f => apart .domains (.blocked f) rfl, fun ip => apart .domains (.rate ip) rfl,
    apart .domains .settings rfl, apart .domains .warmed rfl⟩

@[simp] theorem warmedKey_eq : (∀ f, customDomainsWarmedRedisKey ≠ otpKey f) ∧
    (∀ f, customDomainsWarmedRedisKey ≠ otpAttemptsKey f) ∧
    (∀ f, customDomainsWarmedRedisKey ≠ otpBlockedKey f) ∧
    (∀ ip, customDomainsWarmedRedisKey ≠ rateLimitKey ip) ∧
    customDomainsWarmedRedisKey ≠ votingSettingsRedisKey ∧
    customDomainsWarmedRedisKey ≠ customDomainsRedisKey :=
  ⟨fun f => apart .warmed (.otp f) rfl, fun f => apart .warmed (.attempts f) rfl,
    fun f => apart .warmed (.blocked f) rfl, fun ip => apart .warmed (.rate ip) rfl,
    apart .warmed .settings rfl, apart .warmed .domains rfl⟩

end RedisKeys
