import VotingApp.EmailService
import VotingApp.MailChecks

/-!
What calls, workers and abandoned handlers have seen before each command of theirs, and what the queue
holds after any run of them.
-/
namespace MailWorker
open GoText JsonText MailText RetryQueue Tables EffectProgram CallPool PoolHistory Expansion VotingWorld
open VotingServer PublicRoutes MailChecks EmailService

/-- The history of a call has everything that its program has seen, but for the mail itself. -/
def Carries (past : History) (now : MailHistory) : Prop := ∀ (c : Cmd) (r : Reply c),
  (⟨c, r⟩ : Exchange Cmd Reply) ∈ past → Mailless c → (⟨.voting c, r⟩ : Exchange MailCmd MailReply) ∈ now

/-- The transmission of sendSMTP. -/
def transmission (cfg : EmailConfig) (p : EmailPayload) : Transmission :=
  ⟨cfg.smtpHost ++ ':' :: itoa cfg.smtpPort, ⟨[], cfg.smtpUser, cfg.smtpPass, cfg.smtpHost⟩, cfg.smtpFrom,
    [p.recipient], dotWrite .start (EmailService.message cfg p.recipient p.subject p.body)⟩

/-- A worker has been handed this message of its task. -/
def Handed (id : Nat) (m : Message Task) (now : MailHistory) : Prop :=
  (⟨.brokerDequeue id, some m⟩ : Exchange MailCmd MailReply) ∈ now

/-- The SMTP server has taken the mail. -/
def Accepted (cfg : EmailConfig) (p : EmailPayload) (now : MailHistory) : Prop :=
  ∃ addr auth sender recipients msg,
    (⟨.sendMail addr auth sender recipients msg, none⟩ : Exchange MailCmd MailReply) ∈ now ∧
    (⟨addr, auth, sender, recipients, dotWrite .start msg⟩ : Transmission) = transmission cfg p

/-- The failure of the mail has been given to the log. -/
def Reported (p : EmailPayload) (retried : Nat) (now : MailHistory) : Prop :=
  ∃ errMsg r, (⟨.insertSendLog ⟨p.recipient, errMsg, retried⟩, r⟩ : Exchange MailCmd MailReply) ∈ now

/-- What a call has seen before it sends a command. -/
def MailRule (cfg : EmailConfig) : MailCall → MailHistory → MailCmd → Prop
  | .call req, now, .clientEnqueue task => published req = true → ∃ past, ∃ p : EmailPayload,
      Carries past now ∧ Justified cfg.voting req past p.recipient p.subject p.body ∧
      task = emailTask p.marshal
  | .call req, now, .sendMail addr auth sender recipients msg => published req = true → ∃ past,
      ∃ p : EmailPayload, Carries past now ∧ Justified cfg.voting req past p.recipient p.subject p.body ∧
      (⟨addr, auth, sender, recipients, dotWrite .start msg⟩ : Transmission) = transmission cfg p
  | .call _, _, .voting c => Mailless c
  | .processTask id, _, .brokerDequeue id' => id' = id
  | .processTask id, now, .sendMail addr auth sender recipients msg => ∃ m, ∃ p : EmailPayload,
      Handed id m now ∧ unmarshal m.task.payload = some p ∧
      (⟨addr, auth, sender, recipients, dotWrite .start msg⟩ : Transmission) = transmission cfg p
  | .processTask id, now, .insertSendLog row => ∃ m, ∃ p : EmailPayload, Handed id m now ∧
      unmarshal m.task.payload = some p ∧ row.toAddress = p.recipient ∧ row.retryCount = m.retried ∧
      m.task.limit ≤ m.retried
  | .processTask id, now, .brokerDone id' => id' = id ∧ ∃ m, ∃ p : EmailPayload, Handed id m now ∧
      unmarshal m.task.payload = some p ∧ Accepted cfg p now
  | .processTask id, now, .brokerRetry id' retried => id' = id ∧ ∃ m, Handed id m now ∧
      retried = m.retried + 1
  | .processTask id, now, .brokerArchive id' => id' = id ∧ ∃ m, Handed id m now ∧
      m.task.limit ≤ m.retried ∧ ∀ p, unmarshal m.task.payload = some p → Reported p m.retried now
  | .handleEmailTask payload, _, .sendMail addr auth sender recipients msg => ∃ p : EmailPayload,
      unmarshal payload = some p ∧
      (⟨addr, auth, sender, recipients, dotWrite .start msg⟩ : Transmission) = transmission cfg p
  | _, _, _ => False

section Calls
variable {cfg : EmailConfig} {req : Call}

theorem carries_cons {past : History} {now : MailHistory} (carries : Carries past now) (c : Cmd)
    (r : Reply c) : Carries (⟨c, r⟩ :: past) (⟨.voting c, r⟩ :: now) := by
  intro c' r' member mailless
  cases List.mem_cons.mp member with
  | inl same =>
    cases same
    exact List.mem_cons_self
  | inr before => exact List.mem_cons_of_mem _ (carries c' r' before mailless)

theorem carries_later {past : History} {now : MailHistory} (carries : Carries past now)
    (added : MailHistory) : Carries past (added ++ now) :=
  fun c r member mailless => List.mem_append_right _ (carries c r member mailless)

theorem carries_mail {past : History} {now : MailHistory} (carries : Carries past now)
    (recipient subject body : Str) (r : Option GoErr) :
    Carries (⟨.enqueue recipient subject body, r⟩ :: past) now := by
  intro c r' member mailless
  cases List.mem_cons.mp member with
  | inl same =>
    cases same
    exact mailless.elim
  | inr before => exact carries c r' before mailless

/- The queueing of a mail that the server wants, or its sending when there is no queue. -/
theorem enqueue_rules {past : History} {now : MailHistory} (carries : Carries past now)
    {recipient subject body : Str}
    (wanted : published req = true → Justified cfg.voting req past recipient subject body) :
    (EmailService.enqueue cfg recipient subject body).Meets (MailRule cfg (.call req))
      (fun now' r => Carries (⟨.enqueue recipient subject body, r⟩ :: past) now') now := by
  have still : ∀ (added : MailHistory) r,
      Carries (⟨.enqueue recipient subject body, r⟩ :: past) (added ++ now) :=
    fun added r => carries_mail (carries_later carries added) recipient subject body r
  refine issue_meets (fun is => ⟨past, ⟨recipient, subject, body⟩, carries, wanted is, rfl⟩) ?_
  intro queued
  cases queued with
  | none => exact still [_] none
  | some err =>
    refine ⟨fun is => ⟨past, ⟨recipient, subject, body⟩, carries_later carries [_], wanted is, rfl⟩, ?_⟩
    exact fun r => still [_, _] r

theorem own_rules {past : History} {now : MailHistory} (carries : Carries past now) (c : Cmd)
    (mailless : Mailless c) : (issue (MailCmd.voting c) : MailAct (Reply c)).Meets
      (MailRule cfg (.call req)) (fun now' r => Carries (⟨c, r⟩ :: past) now') now :=
  ⟨mailless, fun r => carries_cons carries c r⟩

theorem call_rules (req : Call) : (EmailService.program cfg (.call req)).Meets
    (MailRule cfg (.call req)) (fun _ _ => True) [] := by
  have server : (VotingServer.program cfg.voting req).Meets
      (fun past c => published req = true → JustRule cfg.voting req past c) (fun _ _ => True) [] := by
    cases is_published : published req with
    | true => exact meets_mono (program_just is_published) (fun _ _ rule _ => rule) fun _ _ _ => trivial
    | false => exact meets_trivial (fun _ _ other => by cases other) _
  have expanded : (expand (carry cfg) (VotingServer.program cfg.voting req)).Meets
      (MailRule cfg (.call req)) (fun _ _ => True) [] := by
    apply @expand_contract _ _ _ _ _ (carry cfg) Carries _ _ _ _ ?_ (fun _ _ _ _ _ => trivial) _ _ _ server
    · exact fun c r member => by cases member
    · intro past now c carries rule
      cases c with
      | enqueue recipient subject body => exact enqueue_rules carries rule
      | _ => exact own_rules carries _ trivial
  apply meets_bind expanded
  exact fun _ _ _ => trivial

end Calls

section Workers
variable {cfg : EmailConfig} {id : Nat} {m : Message Task} {now : MailHistory}

/- A handler sends the mail that it reads in its payload, and succeeds only when that is accepted. -/
theorem handler_rules {rule : MailHistory → MailCmd → Prop} (payload : Str)
    (allowed : ∀ p, unmarshal payload = some p → ∀ addr auth sender recipients msg,
      (⟨addr, auth, sender, recipients, dotWrite .start msg⟩ : Transmission) = transmission cfg p →
        rule now (.sendMail addr auth sender recipients msg)) :
    (EmailService.handleEmailTask cfg payload).Meets rule
      (fun now' err => (∃ added, now' = added ++ now) ∧
        (err = none → ∃ p, unmarshal payload = some p ∧ Accepted cfg p now')) now := by
  unfold EmailService.handleEmailTask
  cases read : unmarshal payload with
  | none =>
    constructor
    · exact ⟨[], rfl⟩
    · rintro ⟨⟩
  | some p =>
    refine ⟨allowed p read _ _ _ _ _ rfl, ?_⟩
    intro r
    constructor
    · exact ⟨[_], rfl⟩
    · rintro rfl
      exact ⟨p, rfl, _, _, _, _, _, List.mem_cons_self, rfl⟩

theorem handed_later (handed : Handed id m now) (added : MailHistory) : Handed id m (added ++ now) :=
  List.mem_append_right added handed

/- The error handler reports a mail that has no retries left. -/
theorem handleError_rules (handed : Handed id m now) (errMsg : Str) :
    (EmailService.handleError m.task.payload errMsg m.retried m.task.limit).Meets
      (MailRule cfg (.processTask id)) (fun now' _ => Handed id m now' ∧ (m.task.limit ≤ m.retried →
        ∀ p, unmarshal m.task.payload = some p → Reported p m.retried now')) now := by
  unfold EmailService.handleError
  split
  · rename_i exhausted
    have used_up : m.task.limit ≤ m.retried := by omega
    cases read : unmarshal m.task.payload with
    | none =>
      constructor
      · exact handed
      · intro _ p other
        cases other
    | some p =>
      refine ⟨⟨m, p, handed, read, rfl, rfl, used_up⟩, ?_⟩
      intro r
      constructor
      · exact handed_later handed [_]
      · intro _ p' same
        cases same
        exact ⟨errMsg, r, List.mem_cons_self⟩
  · rename_i left
    constructor
    · exact handed
    · intro used_up
      omega

theorem processTask_rules (cfg : EmailConfig) (id : Nat) : (EmailService.processTask cfg id).Meets
    (MailRule cfg (.processTask id)) (fun _ _ => True) [] := by
  unfold EmailService.processTask
  refine issue_meets rfl ?_
  intro taken
  cases taken with
  | none => trivial
  | some m =>
    have handed : Handed id m [⟨.brokerDequeue id, some m⟩] := List.mem_cons_self
    apply meets_bind (handler_rules m.task.payload fun p read _ _ _ _ _ same => ⟨m, p, handed, read, same⟩)
    rintro now err ⟨⟨added, rfl⟩, succeeds⟩
    have still := handed_later handed added
    cases err with
    | none =>
      obtain ⟨p, read, accepted⟩ := succeeds rfl
      exact ⟨⟨rfl, m, p, still, read, accepted⟩, fun _ => trivial⟩
    | some err =>
      apply meets_bind (handleError_rules still err.text)
      rintro now' _ ⟨still', reports⟩
      split
      · rename_i exhausted
        exact ⟨⟨rfl, m, still', exhausted, reports exhausted⟩, fun _ => trivial⟩
      · exact ⟨⟨rfl, m, still', rfl⟩, fun _ => trivial⟩

theorem mail_rules (cfg : EmailConfig) (req : MailCall) :
    (EmailService.program cfg req).Meets (MailRule cfg req) (fun _ _ => True) [] := by
  cases req with
  | call req => exact call_rules req
  | processTask id =>
    apply meets_bind (processTask_rules cfg id)
    exact fun _ _ _ => trivial
  | handleEmailTask payload =>
    apply meets_bind (handler_rules payload fun p read _ _ _ _ _ same => ⟨p, read, same⟩)
    exact fun _ _ _ => trivial

end Workers

/-- How the broker changes the task that it is asked about. -/
inductive Moves : MailCmd → Nat → (Entry Task → Option (Entry Task)) → Prop where
  | handOut (id : Nat) : Moves (.brokerDequeue id) id Entry.handOut
  | complete (id : Nat) : Moves (.brokerDone id) id Entry.complete
  | retry (id retried : Nat) : Moves (.brokerRetry id retried) id (Entry.retry retried)
  | archive (id : Nat) : Moves (.brokerArchive id) id (Entry.archive true)

/-- How it changes one on its own. -/
inductive Recovers : (Entry Task → Option (Entry Task)) → Prop where
  | expire : Recovers (Entry.expire Task.limit)
  | requeue : Recovers Entry.requeue

/-- What a command does to the mails. -/
inductive Effect (w : MailWorld) : MailCmd → MailWorld → Prop where
  | apart {c : MailCmd} {w' : MailWorld} (tasks : w'.tasks = w.tasks) (sent : w'.sent = w.sent)
      (sendLog : w'.sendLog = w.sendLog) : Effect w c w'
  | queued (t : Task) : Effect w (.clientEnqueue t) { w with tasks := push w.tasks t }
  | moved {c : MailCmd} {id : Nat} {f : Entry Task → Option (Entry Task)} {q : Queue Task}
      (moves : Moves c id f) (changed : change w.tasks id f = some q) : Effect w c { w with tasks := q }
  | sent {addr : Str} {auth : PlainAuth} {sender : Str} {recipients : List Str} {msg : Str}
      (valid : (validLine sender && recipients.all validLine) = true) :
      Effect w (.sendMail addr auth sender recipients msg)
        { w with sent := w.sent ++ [⟨addr, auth, sender, recipients, dotWrite .start msg⟩] }
  | logged (row : SendLogRow) : Effect w (.insertSendLog row) { w with sendLog := w.sendLog ++ [row] }

/-- What one world has of the mails is still there in the other. -/
structure Later (w w' : MailWorld) : Prop where
  tasks : Grows w.tasks w'.tasks
  sent : w.sent ⊆ w'.sent

section Worlds
variable {w w' : MailWorld} {o : Oracle} {c : MailCmd}

theorem effect_refl (w : MailWorld) (c : MailCmd) : Effect w c w := .apart rfl rfl rfl

/- What failed may have taken effect or not. -/
theorem attempted {after : MailWorld} {r : Option GoErr} (effect : Effect w c after)
    (ran : attempt o w after = (r, w')) : Effect w c w' := by
  unfold attempt at ran
  split at ran
  · cases ran
    exact effect
  · cases ran
    split
    · exact effect
    · exact effect_refl w c

theorem settled {id : Nat} {f : Entry Task → Option (Entry Task)} {r : Option GoErr} (moves : Moves c id f)
    (ran : w.settle o id f = (r, w')) : Effect w c w' := by
  unfold MailWorld.settle at ran
  split at ran
  · rename_i q changed
    exact attempted (.moved moves changed) ran
  · cases ran
    exact effect_refl w c

theorem perform_effect {r : MailReply c} (performed : w.perform o c = some (r, w')) : Effect w c w' := by
  cases c with
  | voting c =>
    obtain ⟨ran, -, same⟩ := Option.map_eq_some_iff.mp performed
    cases same
    exact .apart rfl rfl rfl
  | clientEnqueue t => exact attempted (.queued t) (Option.some.inj performed)
  | brokerDequeue id =>
    unfold MailWorld.perform at performed
    dsimp only at performed
    split at performed
    · cases performed
      exact effect_refl w _
    · rename_i m q taken
      have effect : Effect w (.brokerDequeue id) { w with tasks := q } :=
        .moved (.handOut id) (dequeue_spec taken).2
      split at performed
      · cases performed
        exact effect
      · cases performed
        split
        · exact effect
        · exact effect_refl w _
  | brokerDone id => exact settled (.complete id) (Option.some.inj performed)
  | brokerRetry id retried => exact settled (.retry id retried) (Option.some.inj performed)
  | brokerArchive id => exact settled (.archive id) (Option.some.inj performed)
  | sendMail addr auth sender recipients msg =>
    unfold MailWorld.perform at performed
    dsimp only at performed
    split at performed
    · rename_i valid
      exact attempted (.sent valid) (Option.some.inj performed)
    · cases performed
      exact effect_refl w _
  | insertSendLog row =>
    unfold MailWorld.perform at performed
    dsimp only at performed
    split at performed
    · cases performed
      exact effect_refl w _
    · split at performed
      · cases performed
        exact effect_refl w _
      · exact attempted (.logged row) (Option.some.inj performed)

theorem env_effect {e : MailEnv} (moved : w.env e = some w') :
    (w'.tasks = w.tasks ∧ w'.sent = w.sent ∧ w'.sendLog = w.sendLog) ∨
      ∃ id f q, Recovers f ∧ change w.tasks id f = some q ∧ w' = { w with tasks := q } := by
  cases e with
  | voting e =>
    obtain ⟨voting', -, same⟩ := Option.map_eq_some_iff.mp moved
    cases same
    exact Or.inl ⟨rfl, rfl, rfl⟩
  | leaseExpired id =>
    obtain ⟨q, changed, same⟩ := Option.map_eq_some_iff.mp moved
    exact Or.inr ⟨id, _, q, .expire, changed, same.symm⟩
  | requeued id =>
    obtain ⟨q, changed, same⟩ := Option.map_eq_some_iff.mp moved
    exact Or.inr ⟨id, _, q, .requeue, changed, same.symm⟩

theorem moves_becomes {id : Nat} {f : Entry Task → Option (Entry Task)} (moves : Moves c id f) :
    ∀ e e', f e = some e' → e.Becomes e' := by
  intro e e' becomes
  cases moves with
  | handOut =>
    obtain ⟨-, rfl⟩ := move_spec becomes
    exact ⟨rfl, Nat.le_succ _⟩
  | _ =>
    obtain ⟨-, rfl⟩ := move_spec becomes
    exact ⟨rfl, Nat.le_refl _⟩

theorem recovers_becomes {f : Entry Task → Option (Entry Task)} (recovers : Recovers f) :
    ∀ e e', f e = some e' → e.Becomes e' := by
  intro e e' becomes
  cases recovers with
  | expire =>
    obtain ⟨-, ⟨-, rfl⟩ | rfl⟩ := expire_spec becomes
    · exact ⟨rfl, Nat.le_refl _⟩
    · exact ⟨rfl, Nat.le_refl _⟩
  | requeue =>
    obtain ⟨-, rfl⟩ := move_spec becomes
    exact ⟨rfl, Nat.le_refl _⟩

theorem effect_later (effect : Effect w c w') : Later w w' := by
  cases effect with
  | apart tasks sent =>
    exact ⟨by rw [tasks]; exact grows_refl _, by rw [sent]; exact List.Subset.refl _⟩
  | queued t => exact ⟨push_grows _ t, List.Subset.refl _⟩
  | moved moves changed => exact ⟨change_grows (moves_becomes moves) changed, List.Subset.refl _⟩
  | sent valid => exact ⟨grows_refl _, List.subset_append_left _ _⟩
  | logged row => exact ⟨grows_refl _, List.Subset.refl _⟩

theorem env_later {e : MailEnv} (moved : w.env e = some w') : Later w w' := by
  rcases env_effect moved with ⟨tasks, sent, -⟩ | ⟨id, f, q, recovers, changed, rfl⟩
  · exact ⟨by rw [tasks]; exact grows_refl _, by rw [sent]; exact List.Subset.refl _⟩
  · exact ⟨change_grows (recovers_becomes recovers) changed, List.Subset.refl _⟩

end Worlds

/-- What has become of a task that no worker will have again. -/
def Finished (cfg : EmailConfig) (s : Mailing) (id : Nat) (e : Entry Task) : Prop :=
  match e.state with
  | .completed => ∃ p, unmarshal e.task.payload = some p ∧ transmission cfg p ∈ s.world.sent
  | .archived true => ∀ p, unmarshal e.task.payload = some p → ∃ job ∈ s.jobs, job.req = .processTask id ∧
    ∃ retried, e.task.limit ≤ retried ∧ Reported p retried job.past
  | _ => True

/-- The queue counts its attempts, workers have what it handed out, and what it has finished with has been
sent or reported. -/
structure InOrder (cfg : EmailConfig) (s : Mailing) : Prop where
  counted : Counted Task.limit s.world.tasks
  known : ∀ ev ∈ s.log, ∀ id m, ev.exchange = ⟨.brokerDequeue id, some m⟩ → Known s.world.tasks id m
  finished : ∀ (id : Nat) (e : Entry Task), s.world.tasks[id]? = some e → Finished cfg s id e

section Rules
variable {cfg : EmailConfig} {req : MailCall} {now : MailHistory} {id retried : Nat}

/- Only a worker gives a task back, and only its own. -/
theorem done_rule (rule : MailRule cfg req now (.brokerDone id)) : req = .processTask id ∧
    ∃ m, ∃ p : EmailPayload, Handed id m now ∧ unmarshal m.task.payload = some p ∧ Accepted cfg p now := by
  cases req with
  | processTask id' =>
    obtain ⟨rfl, handed⟩ := rule
    exact ⟨rfl, handed⟩
  | _ => exact rule.elim

theorem retry_rule (rule : MailRule cfg req now (.brokerRetry id retried)) :
    ∃ m, Handed id m now ∧ retried = m.retried + 1 := by
  cases req with
  | processTask id' =>
    obtain ⟨rfl, handed⟩ := rule
    exact handed
  | _ => exact rule.elim

theorem archive_rule (rule : MailRule cfg req now (.brokerArchive id)) : req = .processTask id ∧ ∃ m,
    Handed id m now ∧ m.task.limit ≤ m.retried ∧
      ∀ p, unmarshal m.task.payload = some p → Reported p m.retried now := by
  cases req with
  | processTask id' =>
    obtain ⟨rfl, handed⟩ := rule
    exact ⟨rfl, handed⟩
  | _ => exact rule.elim

end Rules

section Runs
variable {cfg : EmailConfig} {allow : Mailing → MailMove → Bool} {s s' : Mailing} {l : MailMove} {w : World}

theorem later_step (step : Step (mailServer cfg) s l s') : Later s.world s'.world := by
  cases step with
  | start req => exact ⟨grows_refl _, List.Subset.refl _⟩
  | env moved => exact env_later moved
  | run at_i waiting performed => exact effect_later (perform_effect performed)

theorem later_since (run : Reaches (mailServer cfg) allow s s') : Later s.world s'.world := by
  refine reaches_inv (I := fun t => Later s.world t.world) ⟨grows_refl _, List.Subset.refl _⟩ ?_ run
  intro t l t' before allowed step
  have now := later_step step
  exact ⟨grows_trans before.tasks now.tasks, List.Subset.trans before.sent now.sent⟩

/- What a job has in its history, the queue and the mail server have. -/
theorem handed_known (run : Reaches (mailServer cfg) allow (idle w) s) (order : InOrder cfg s) {i : Nat}
    {job : MailJob} (at_i : s.jobs[i]? = some job) {id : Nat} {m : Message Task}
    (handed : Handed id m job.past) : Known s.world.tasks id m := by
  rw [Handed, past_of_job rfl rfl run at_i] at handed
  obtain ⟨ev, logged, -, is⟩ := mem_own.mp handed
  exact order.known ev logged id m is

theorem accepted_sent (run : Reaches (mailServer cfg) allow (idle w) s) {job : MailJob} (member : job ∈ s.jobs)
    {p : EmailPayload} (accepted : Accepted cfg p job.past) : transmission cfg p ∈ s.world.sent := by
  obtain ⟨addr, auth, sender, recipients, msg, inside, same⟩ := accepted
  obtain ⟨w₀, o, t, performed, later⟩ := exchange_left rfl rfl run member inside
  rw [← same]
  apply (later_since later).sent
  change w₀.perform o (.sendMail addr auth sender recipients msg) = some (none, t.world) at performed
  unfold MailWorld.perform at performed
  dsimp only at performed
  split at performed
  · have ran := Option.some.inj performed
    unfold attempt at ran
    split at ran
    · rw [← (Prod.mk.inj ran).2]
      exact List.mem_append_right _ (List.mem_singleton_self _)
    · cases ran
  · cases performed

theorem counted_step (run : Reaches (mailServer cfg) allow (idle w) s) (order : InOrder cfg s)
    (step : Step (mailServer cfg) s l s') : Counted Task.limit s'.world.tasks := by
  cases step with
  | start req => exact order.counted
  | env moved =>
    rcases env_effect moved with ⟨same, -⟩ | ⟨id, f, q, recovers, changed, same⟩
    · rw [same]
      exact order.counted
    · rw [same]
      cases recovers with
      | expire => exact expire_counted order.counted changed
      | requeue => exact requeue_counted order.counted changed
  | @run i o job c next r w' at_i waiting performed =>
    have rule := contract_of_job (mail_rules cfg) rfl run job (List.mem_of_getElem? at_i)
    rw [waiting, meets_call] at rule
    change Counted Task.limit w'.tasks
    cases perform_effect performed with
    | apart tasks =>
      rw [tasks]
      exact order.counted
    | queued t => exact push_counted order.counted t
    | moved moves changed =>
      cases moves with
      | handOut => exact handOut_counted order.counted changed
      | complete => exact complete_counted order.counted changed
      | retry id retried =>
        obtain ⟨m, handed, rfl⟩ := retry_rule rule.1
        exact retry_counted order.counted (handed_known run order at_i handed) changed
      | archive =>
        obtain ⟨-, m, handed, exhausted, -⟩ := archive_rule rule.1
        exact archive_counted order.counted (handed_known run order at_i handed) exhausted changed
    | sent valid => exact order.counted
    | logged row => exact order.counted

theorem known_step (order : InOrder cfg s) (step : Step (mailServer cfg) s l s') :
    ∀ ev ∈ s'.log, ∀ id m, ev.exchange = ⟨.brokerDequeue id, some m⟩ → Known s'.world.tasks id m := by
  have before : ∀ ev ∈ s.log, ∀ id m, ev.exchange = ⟨.brokerDequeue id, some m⟩ →
      Known s'.world.tasks id m :=
    fun ev logged id m is => known_grows (later_step step).tasks (order.known ev logged id m is)
  cases step with
  | start req => exact before
  | env moved => exact before
  | @run i o job c next r w' at_i waiting performed =>
    intro ev logged id m is
    rcases List.mem_cons.mp logged with rfl | old
    · cases is
      change Known w'.tasks id m
      change s.world.perform o (.brokerDequeue id) = some (some m, w') at performed
      unfold MailWorld.perform at performed
      dsimp only at performed
      split at performed
      · cases performed
      · rename_i m' q taken
        split at performed
        · cases performed
          exact dequeue_known order.counted taken
        · cases performed
    · exact before ev old id m is

/- A report stays in the history of its worker. -/
theorem reported_later (step : Step (mailServer cfg) s l s') {job : MailJob} (member : job ∈ s.jobs)
    {p : EmailPayload} {retried : Nat} (reported : Reported p retried job.past) :
    ∃ job' ∈ s'.jobs, job'.req = job.req ∧ Reported p retried job'.past := by
  obtain ⟨job', member', same, added, grown⟩ := member_kept step member
  obtain ⟨errMsg, r, inside⟩ := reported
  refine ⟨job', member', same, errMsg, r, ?_⟩
  rw [grown]
  exact List.mem_append_right added inside

theorem finished_later (step : Step (mailServer cfg) s l s') {id : Nat} {e : Entry Task}
    (finished : Finished cfg s id e) : Finished cfg s' id e := by
  unfold Finished at *
  split
  · rename_i completed
    rw [completed] at finished
    obtain ⟨p, read, sent⟩ := finished
    exact ⟨p, read, (later_step step).sent sent⟩
  · rename_i archived
    rw [archived] at finished
    intro p read
    obtain ⟨job, member, is, retried, exhausted, reported⟩ := finished p read
    obtain ⟨job', member', same, still⟩ := reported_later step member reported
    exact ⟨job', member', same.trans is, retried, exhausted, still⟩
  · trivial

/- A task that changes is given back, or its worker has sent or reported it. -/
theorem finished_step (run : Reaches (mailServer cfg) allow (idle w) s) (order : InOrder cfg s)
    (step : Step (mailServer cfg) s l s') :
    ∀ (id : Nat) (e : Entry Task), s'.world.tasks[id]? = some e → Finished cfg s' id e := by
  have before : ∀ (id : Nat) (e : Entry Task), s.world.tasks[id]? = some e → Finished cfg s' id e :=
    fun id e at_id => finished_later step (order.finished id e at_id)
  have kept : ∀ job ∈ s.jobs, ∀ p retried, Reported p retried job.past →
      ∃ job' ∈ s'.jobs, job'.req = job.req ∧ Reported p retried job'.past :=
    fun job member p retried reported => reported_later step member reported
  cases step with
  | start req => exact before
  | env moved =>
    intro id e at_id
    rcases env_effect moved with ⟨same, -⟩ | ⟨id', f, q, recovers, changed, same⟩
    · apply before id e
      rw [← same]
      exact at_id
    · rw [same] at at_id
      rcases changed_at changed at_id with ⟨rfl, x, at_x, becomes⟩ | old
      · cases recovers with
        | expire =>
          obtain ⟨-, ⟨-, rfl⟩ | rfl⟩ := expire_spec becomes
          · trivial
          · trivial
        | requeue =>
          obtain ⟨-, rfl⟩ := move_spec becomes
          trivial
      · exact before id e old
  | @run i o job c next r w' at_i waiting performed =>
    intro id e at_id
    change w'.tasks[id]? = some e at at_id
    have rule := contract_of_job (mail_rules cfg) rfl run job (List.mem_of_getElem? at_i)
    rw [waiting, meets_call] at rule
    cases perform_effect performed with
    | apart tasks =>
      apply before id e
      rw [← tasks]
      exact at_id
    | queued t =>
      rcases pushed_at at_id with old | rfl
      · exact before id e old
      · trivial
    | sent valid => exact before id e at_id
    | logged row => exact before id e at_id
    | moved moves changed =>
      rcases changed_at changed at_id with ⟨rfl, x, at_x, becomes⟩ | old
      · have handed_at : ∀ m, Handed id m job.past → x.task = m.task := by
          intro m handed
          obtain ⟨y, at_y, task, -⟩ := handed_known run order at_i handed
          rw [at_x, Option.some.injEq] at at_y
          rw [at_y]
          exact task
        cases moves with
        | handOut =>
          obtain ⟨-, rfl⟩ := move_spec becomes
          trivial
        | complete =>
          obtain ⟨-, rfl⟩ := move_spec becomes
          obtain ⟨-, m, p, handed, read, accepted⟩ := done_rule rule.1
          rw [← handed_at m handed] at read
          exact ⟨p, read, accepted_sent run (List.mem_of_getElem? at_i) accepted⟩
        | retry id retried =>
          obtain ⟨-, rfl⟩ := move_spec becomes
          trivial
        | archive =>
          obtain ⟨-, rfl⟩ := move_spec becomes
          obtain ⟨is, m, handed, exhausted, reports⟩ := archive_rule rule.1
          rw [← handed_at m handed] at exhausted reports
          intro p read
          obtain ⟨job', member', same, still⟩ :=
            kept job (List.mem_of_getElem? at_i) p m.retried (reports p read)
          exact ⟨job', member', same.trans is, m.retried, exhausted, still⟩
      · exact before id e old

/- By induction on the run, each part by what one step does. -/
theorem order_of_run (run : Reaches (mailServer cfg) allow (idle w) s) : InOrder cfg s := by
  induction run with
  | refl =>
    constructor
    · intro e member
      cases member
    · intro ev logged
      cases logged
    · intro id e at_id
      cases at_id
  | tail run allowed step ih =>
    exact ⟨counted_step run ih (step_sound step), known_step ih (step_sound step),
      finished_step run ih (step_sound step)⟩

end Runs
end MailWorker
