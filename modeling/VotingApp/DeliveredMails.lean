import VotingApp.MailWorker

/-!
From a checked request to what a mail server receives: the queue's JSON, the worker, the retries, the
error log and the text on the wire.
-/
namespace DeliveredMails
open GoText JsonText MailText RetryQueue Tables EffectProgram CallPool PoolHistory Expansion Credentials
open VotingWorld OtpService VotingSettings Handlers VotingServer Frames PublicRoutes MailChecks
open EmailService MailWorker

/-- A request for a code that has passed every check wants this mailed. -/
def Wanted (cfg : EmailConfig) (s : Mailing) (p : EmailPayload) : Prop :=
  ∃ job ∈ s.jobs, ∃ req past, job.req = .call req ∧ Carries past job.past ∧
    Justified cfg.voting req past p.recipient p.subject p.body

theorem unmarshal_marshal (p : EmailPayload) : unmarshal p.marshal = some p := by
  rw [unmarshal, EmailPayload.marshal, parse_print]
  rfl

/-- The fields that a mail is sent with. -/
def mailFields (cfg : EmailConfig) (p : EmailPayload) : List (Str × Str) :=
  [("From".toList, cfg.smtpFrom), ("To".toList, p.recipient), ("Subject".toList, p.subject),
    ("MIME-Version".toList, "1.0".toList), ("Content-Type".toList, "text/plain; charset=UTF-8".toList)]

theorem message_fields (cfg : EmailConfig) (p : EmailPayload) :
    EmailService.message cfg p.recipient p.subject p.body = MailText.message (mailFields cfg p) p.body := by
  have ends : "\r\n".toList = ['\r', '\n'] := rfl
  have sender : "From: ".toList = "From".toList ++ [':', ' '] := rfl
  have recipient : "To: ".toList = "To".toList ++ [':', ' '] := rfl
  have subject : "Subject: ".toList = "Subject".toList ++ [':', ' '] := rfl
  have version : "MIME-Version: 1.0\r\n".toList =
      "MIME-Version".toList ++ ':' :: ' ' :: ("1.0".toList ++ ['\r', '\n']) := rfl
  have content : "Content-Type: text/plain; charset=UTF-8\r\n".toList =
      "Content-Type".toList ++ ':' :: ' ' :: ("text/plain; charset=UTF-8".toList ++ ['\r', '\n']) := rfl
  unfold EmailService.message MailText.message mailFields
  rw [ends, sender, recipient, subject, version, content]
  simp only [fieldLine, List.flatMap_cons, List.flatMap_nil, List.append_assoc, List.cons_append,
    List.nil_append]

theorem oneLine_of_valid {line : Str} (valid : validLine line = true) : OneLine line := by
  simp only [validLine, Bool.not_eq_true', List.any_eq_false, Bool.or_eq_true, decide_eq_true_eq,
    not_or] at valid
  constructor
  · intro member
    exact (valid _ member).2 rfl
  · intro member
    exact (valid _ member).1 rfl

/-- A name that may stand before the colon of a header. -/
def plainName : Str → Bool
  | [] => false
  | c :: rest => !isFold c && !(c :: rest).contains ':' && validLine (c :: rest)

theorem plain_field {name value : Str} (named : plainName name = true) (valued : validLine value = true) :
    Plain (name, value) := by
  cases name with
  | nil => cases named
  | cons c rest =>
    simp only [plainName, Bool.and_eq_true, Bool.not_eq_true', List.contains_eq_mem,
      decide_eq_false_iff_not] at named
    obtain ⟨⟨solid, clean⟩, one_line⟩ := named
    exact ⟨⟨c, rest, rfl, solid⟩, clean, oneLine_of_valid one_line, oneLine_of_valid valued⟩

theorem fields_plain {cfg : EmailConfig} {p : EmailPayload} (sender : validLine cfg.smtpFrom = true)
    (recipient : validLine p.recipient = true) (subject : p.subject = otpSubject) :
    ∀ f ∈ mailFields cfg p, Plain f := by
  intro f member
  simp only [mailFields, List.mem_cons, List.not_mem_nil, or_false] at member
  rcases member with rfl | rfl | rfl | rfl | rfl
  · exact plain_field (by decide +kernel) sender
  · exact plain_field (by decide +kernel) recipient
  · rw [subject]
    exact plain_field (by decide +kernel) (by decide +kernel)
  · exact plain_field (by decide +kernel) (by decide +kernel)
  · exact plain_field (by decide +kernel) (by decide +kernel)

/-- The text on the wire, whatever is sent after it, is received as one message, with these fields and
nothing else before the body. -/
structure ReadsBack (cfg : EmailConfig) (t : Transmission) (p : EmailPayload) : Prop where
  sender : t.sender = cfg.smtpFrom
  recipients : t.recipients = [p.recipient]
  message : ∃ text, (∀ rest, receive .lineStart (t.data ++ rest) = some (text, rest)) ∧
    readMessage text = some (mailFields cfg p, crlf .lineStart p.body)

theorem transmission_reads {cfg : EmailConfig} {p : EmailPayload} (sender : validLine cfg.smtpFrom = true)
    (recipient : validLine p.recipient = true) (subject : p.subject = otpSubject) :
    ReadsBack cfg (transmission cfg p) p where
  sender := rfl
  recipients := rfl
  message := by
    refine ⟨_, fun rest => receive_dotWrite .start _ rest, ?_⟩
    rw [message_fields]
    exact readMessage_message (fields_plain sender recipient subject) p.body

/-- What the world of the service holds of mails. -/
inductive Held where
  | task (t : Task)
  | sent (t : Transmission)
  | row (r : SendLogRow)

def holds (w : MailWorld) : Held → Prop
  | .task t => t ∈ w.tasks.map Entry.task
  | .sent t => t ∈ w.sent
  | .row r => r ∈ w.sendLog

theorem holds_congr {w w' : MailWorld}
    (same_tasks : w'.tasks.map Entry.task = w.tasks.map Entry.task) (same_sent : w'.sent = w.sent)
    (same_log : w'.sendLog = w.sendLog) (x : Held) :
    holds w' x ↔ holds w x := by
  cases x with
  | task t => rw [holds, holds, same_tasks]
  | sent t => rw [holds, holds, same_sent]
  | row r => rw [holds, holds, same_log]

theorem holds_changed {w : MailWorld} {id : Nat} {f : Entry Task → Option (Entry Task)} {q : Queue Task}
    (keeps : ∀ e e', f e = some e' → e.Becomes e') (changed : change w.tasks id f = some q) (x : Held) :
    holds { w with tasks := q } x ↔ holds w x := by
  apply holds_congr
  · exact change_tasks keeps changed
  · rfl
  · rfl

/-- All of it comes from a mail that was wanted. A row says that its retries are used up. -/
def Explained (cfg : EmailConfig) (s : Mailing) : Held → Prop
  | .task t => ∃ p, Wanted cfg s p ∧ t = emailTask p.marshal
  | .sent t => ∃ p, Wanted cfg s p ∧ t = transmission cfg p ∧ validLine cfg.smtpFrom = true ∧
    validLine p.recipient = true
  | .row r => ∃ p, Wanted cfg s p ∧ r.toAddress = p.recipient ∧ 3 ≤ r.retryCount

section Runs
variable {cfg : EmailConfig} {s s' : Mailing} {l : MailMove}

theorem wanted_step (step : Step (mailServer cfg) s l s') {p : EmailPayload} (wanted : Wanted cfg s p) :
    Wanted cfg s' p := by
  obtain ⟨job, member, req, past, started, carries, justified⟩ := wanted
  obtain ⟨job', member', same_req, added, grown⟩ := member_kept step member
  exact ⟨job', member', req, past, same_req.trans started, by rw [grown]; exact carries_later carries added,
    justified⟩

theorem explained_step (step : Step (mailServer cfg) s l s') {x : Held} (explained : Explained cfg s x) :
    Explained cfg s' x := by
  cases x with
  | task t =>
    obtain ⟨p, wanted, rest⟩ := explained
    exact ⟨p, wanted_step step wanted, rest⟩
  | sent t =>
    obtain ⟨p, wanted, rest⟩ := explained
    exact ⟨p, wanted_step step wanted, rest⟩
  | row r =>
    obtain ⟨p, wanted, rest⟩ := explained
    exact ⟨p, wanted_step step wanted, rest⟩

theorem tasks_later {w w' : MailWorld} (later : Later w w') :
    w.tasks.map Entry.task ⊆ w'.tasks.map Entry.task := by
  intro t member
  obtain ⟨e, inside, rfl⟩ := List.mem_map.mp member
  obtain ⟨id, at_id⟩ := List.mem_iff_getElem?.mp inside
  obtain ⟨e', at_id', task, -⟩ := later.tasks id e at_id
  exact List.mem_map.mpr ⟨e', List.mem_of_getElem? at_id', task⟩

/-- What a job may be: a published call, a worker, or a handler of a task that was queued. -/
def Delivered (s : Mailing) : MailCall → Prop
  | .call req => published req = true
  | .processTask _ => True
  | .handleEmailTask payload => ∃ t ∈ s.world.tasks.map Entry.task, t.payload = payload

theorem delivered_step (step : Step (mailServer cfg) s l s') {req : MailCall} (delivered : Delivered s req) :
    Delivered s' req := by
  cases req with
  | call req => exact delivered
  | processTask id => trivial
  | handleEmailTask payload =>
    obtain ⟨t, member, same⟩ := delivered
    exact ⟨t, tasks_later (later_step step) member, same⟩

theorem delivered_of_run (w : World) (run : Reaches (mailServer cfg) delivers (idle w) s) :
    ∀ job ∈ s.jobs, Delivered s job.req := by
  refine reaches_inv (I := fun s => ∀ job ∈ s.jobs, Delivered s job.req) ?_ ?_ run
  · intro job member
    cases member
  · intro s l s' held allowed step job member
    rcases request_of_step step member with ⟨old, in_old, same⟩ | started | ⟨c, begun⟩
    · rw [← same]
      exact delivered_step step (held old in_old)
    · rw [started] at allowed
      apply delivered_step step
      cases is : job.req with
      | call req =>
        rw [is] at allowed
        exact allowed
      | processTask id => trivial
      | handleEmailTask payload =>
        rw [is] at allowed
        obtain ⟨e, inside, same⟩ := List.any_eq_true.mp allowed
        exact ⟨e.task, List.mem_map_of_mem inside, of_decide_eq_true same⟩
    · cases c with
      | voting c =>
        obtain ⟨req, started, same⟩ := List.mem_map.mp begun
        rw [← same]
        cases c with
        | goWarmCache =>
          rw [List.mem_singleton.mp started]
          rfl
        | _ => cases started
      | _ => cases begun

theorem task_reads {p p' : EmailPayload} (read : unmarshal (emailTask p.marshal).payload = some p') :
    p' = p := by
  rw [emailTask, unmarshal_marshal] at read
  exact (Option.some.inj read).symm

/- A worker's task is one of the queue. -/
theorem handed_wanted (w : World) (run : Reaches (mailServer cfg) delivers (idle w) s)
    (tasks : ∀ t ∈ s.world.tasks.map Entry.task, Explained cfg s (.task t)) {job : MailJob}
    (member : job ∈ s.jobs) {id : Nat} {m : Message Task} (handed : Handed id m job.past) :
    Explained cfg s (.task m.task) := by
  obtain ⟨i, at_i⟩ := List.mem_iff_getElem?.mp member
  obtain ⟨e, at_id, same, -⟩ := handed_known run (order_of_run run) at_i handed
  exact tasks m.task (List.mem_map.mpr ⟨e, List.mem_of_getElem? at_id, same⟩)

/- A mail that the job sends is wanted: by the job itself, or since its task was queued. -/
theorem sent_wanted (w : World) (run : Reaches (mailServer cfg) delivers (idle w) s)
    (tasks : ∀ t ∈ s.world.tasks.map Entry.task, Explained cfg s (.task t)) {job : MailJob}
    (member : job ∈ s.jobs) {addr : Str} {auth : PlainAuth} {sender : Str} {recipients : List Str} {msg : Str}
    (rule : MailRule cfg job.req job.past (.sendMail addr auth sender recipients msg)) :
    ∃ p, Wanted cfg s p ∧
      (⟨addr, auth, sender, recipients, dotWrite .start msg⟩ : Transmission) = transmission cfg p := by
  have delivered := delivered_of_run w run job member
  cases started : job.req with
  | call req =>
    rw [started] at rule delivered
    obtain ⟨past, p, carries, justified, same⟩ := rule delivered
    exact ⟨p, ⟨job, member, req, past, started, carries, justified⟩, same⟩
  | processTask id =>
    rw [started] at rule
    obtain ⟨m, p, handed, read, same⟩ := rule
    obtain ⟨p', wanted, is⟩ := handed_wanted w run tasks member handed
    rw [is] at read
    obtain rfl := task_reads read
    exact ⟨p, wanted, same⟩
  | handleEmailTask payload =>
    rw [started] at rule delivered
    obtain ⟨p, read, same⟩ := rule
    obtain ⟨t, queued, rfl⟩ := delivered
    obtain ⟨p', wanted, rfl⟩ := tasks t queued
    obtain rfl := task_reads read
    exact ⟨p, wanted, same⟩

theorem row_wanted (w : World) (run : Reaches (mailServer cfg) delivers (idle w) s)
    (tasks : ∀ t ∈ s.world.tasks.map Entry.task, Explained cfg s (.task t)) {job : MailJob}
    (member : job ∈ s.jobs) {row : SendLogRow} (rule : MailRule cfg job.req job.past (.insertSendLog row)) :
    Explained cfg s (.row row) := by
  cases started : job.req with
  | processTask id =>
    rw [started] at rule
    obtain ⟨m, p, handed, read, address, count, exhausted⟩ := rule
    obtain ⟨p', wanted, is⟩ := handed_wanted w run tasks member handed
    have three : m.task.limit = 3 := by rw [is]; rfl
    rw [is] at read
    obtain rfl := task_reads read
    refine ⟨p, wanted, address, ?_⟩
    rw [count]
    omega
  | _ =>
    rw [started] at rule
    exact rule.elim

theorem task_wanted (w : World) (run : Reaches (mailServer cfg) delivers (idle w) s) {job : MailJob}
    (member : job ∈ s.jobs) {t : Task} (rule : MailRule cfg job.req job.past (.clientEnqueue t)) :
    Explained cfg s (.task t) := by
  have delivered := delivered_of_run w run job member
  cases started : job.req with
  | call req =>
    rw [started] at rule delivered
    obtain ⟨past, p, carries, justified, same⟩ := rule delivered
    exact ⟨p, ⟨job, member, req, past, started, carries, justified⟩, same⟩
  | _ =>
    rw [started] at rule
    exact rule.elim

/- By induction on the run: a step adds what its job wants, or what comes from a task. -/
theorem explained_of_run (w : World) (run : Reaches (mailServer cfg) delivers (idle w) s) :
    ∀ x, holds s.world x → Explained cfg s x := by
  induction run with
  | refl =>
    intro x held
    cases x <;> cases held
  | @tail t t' l run allowed step ih =>
    intro x held
    have taken := step_sound step
    have before : holds t.world x → Explained cfg t' x := fun held => explained_step taken (ih x held)
    have tasks : ∀ q ∈ t.world.tasks.map Entry.task, Explained cfg t (.task q) :=
      fun q queued => ih (.task q) queued
    cases taken with
    | start req => exact before held
    | env moved =>
      rcases env_effect moved with ⟨same, sent, sendLog⟩ | ⟨id, f, q, recovers, changed, rfl⟩
      · exact before ((holds_congr (by rw [same]) sent sendLog x).mp held)
      · exact before ((holds_changed (recovers_becomes recovers) changed x).mp held)
    | @run i o job c next r w' at_i waiting performed =>
      have member := List.mem_of_getElem? at_i
      have rule := contract_of_job (mail_rules cfg) rfl run job member
      rw [waiting, meets_call] at rule
      cases perform_effect performed with
      | apart same sent sendLog => exact before ((holds_congr (by rw [same]) sent sendLog x).mp held)
      | moved moves changed =>
        exact before ((holds_changed (moves_becomes moves) changed x).mp held)
      | queued q =>
        cases x with
        | task q' =>
          change q' ∈ (push t.world.tasks q).map Entry.task at held
          rw [push, List.map_append] at held
          cases List.mem_append.mp held with
          | inl old => exact before old
          | inr new =>
            rw [List.mem_singleton.mp new]
            exact explained_step (step_sound step) (task_wanted w run member rule.1)
        | _ => exact before held
      | sent valid =>
        cases x with
        | sent q =>
          cases List.mem_append.mp held with
          | inl old => exact before old
          | inr new =>
            obtain ⟨p, wanted, same⟩ := sent_wanted w run tasks member rule.1
            have parts := same
            simp only [transmission, Transmission.mk.injEq] at parts
            obtain ⟨-, -, rfl, rfl, -⟩ := parts
            simp only [List.all_cons, List.all_nil, Bool.and_true, Bool.and_eq_true] at valid
            rw [List.mem_singleton.mp new, same]
            exact ⟨p, wanted_step (step_sound step) wanted, rfl, valid⟩
        | _ => exact before held
      | logged row =>
        cases x with
        | row q =>
          cases List.mem_append.mp held with
          | inl old => exact before old
          | inr new =>
            rw [List.mem_singleton.mp new]
            exact explained_step (step_sound step) (row_wanted w run tasks member rule.1)
        | _ => exact before held

/- However calls, workers, retries and faults are interleaved: what leaves for an SMTP server is a mail
that a checked request wanted, and it is received as that one message, with its five fields and its
body; and the log names only addresses of such mails, whose retries are used up. -/
theorem mails_delivered (cfg : EmailConfig) (w : World)
    (run : Reaches (mailServer cfg) delivers (idle w) s) :
    (∀ t ∈ s.world.sent, ∃ p, Wanted cfg s p ∧ ReadsBack cfg t p) ∧
      ∀ row ∈ s.world.sendLog, ∃ p, Wanted cfg s p ∧ row.toAddress = p.recipient ∧ 3 ≤ row.retryCount := by
  constructor
  · intro t sent
    obtain ⟨p, wanted, rfl, sender, recipient⟩ := explained_of_run w run (.sent t) sent
    refine ⟨p, wanted, ?_⟩
    obtain ⟨job, member, req, past, started, carries, ip, body, asked, -, -, -, -, -, n, name, rest, -,
      subject, -⟩ := wanted
    exact transmission_reads sender recipient subject
  · intro row logged
    exact explained_of_run w run (.row row) logged

end Runs

/-- The queue has taken the mail, or the SMTP server has. -/
def Taken (cfg : EmailConfig) (p : EmailPayload) (now : MailHistory) : Prop :=
  (⟨.clientEnqueue (emailTask p.marshal), none⟩ : Exchange MailCmd MailReply) ∈ now ∨ Accepted cfg p now

/-- The histories agree, and every mail that was taken has been taken by one of the two. -/
structure Passes (cfg : EmailConfig) (past : History) (now : MailHistory) : Prop where
  carries : Carries past now
  taken : ∀ recipient subject body,
    (⟨.enqueue recipient subject body, none⟩ : Exchange Cmd Reply) ∈ past →
      Taken cfg ⟨recipient, subject, body⟩ now

section Answers
variable {cfg : EmailConfig}

theorem taken_later {p : EmailPayload} {now : MailHistory} (taken : Taken cfg p now) (added : MailHistory) :
    Taken cfg p (added ++ now) := by
  rcases taken with queued | ⟨addr, auth, sender, recipients, msg, sent, same⟩
  · exact Or.inl (List.mem_append_right _ queued)
  · exact Or.inr ⟨addr, auth, sender, recipients, msg, List.mem_append_right _ sent, same⟩

theorem enqueue_passes {past : History} {now : MailHistory} (passes : Passes cfg past now)
    (recipient subject body : Str) : (EmailService.enqueue cfg recipient subject body).Meets (fun _ _ => True)
      (fun now' r => Passes cfg (⟨.enqueue recipient subject body, r⟩ :: past) now') now := by
  have still : ∀ (added : MailHistory) r, (r = none → Taken cfg ⟨recipient, subject, body⟩ (added ++ now)) →
      Passes cfg (⟨.enqueue recipient subject body, r⟩ :: past) (added ++ now) := by
    intro added r mine
    constructor
    · exact carries_mail (carries_later passes.carries added) recipient subject body r
    · intro recipient' subject' body' member
      cases List.mem_cons.mp member with
      | inl same =>
        cases same
        exact mine rfl
      | inr before => exact taken_later (passes.taken _ _ _ before) added
  refine issue_meets trivial ?_
  intro queued
  cases queued with
  | none => exact still [_] none fun _ => Or.inl List.mem_cons_self
  | some err =>
    refine ⟨trivial, ?_⟩
    intro r
    apply still [_, _] r
    rintro rfl
    exact Or.inr ⟨_, _, _, _, _, List.mem_cons_self, rfl⟩

theorem own_passes {past : History} {now : MailHistory} (passes : Passes cfg past now) (c : Cmd)
    (mailless : Mailless c) : (issue (MailCmd.voting c) : MailAct (Reply c)).Meets (fun _ _ => True)
      (fun now' r => Passes cfg (⟨c, r⟩ :: past) now') now := by
  refine ⟨trivial, ?_⟩
  intro r
  constructor
  · exact carries_cons passes.carries c r
  · intro recipient subject body member
    cases List.mem_cons.mp member with
    | inl same =>
      cases same
      exact mailless.elim
    | inr before => exact taken_later (passes.taken _ _ _ before) [_]

/-- A request that was answered 200 has stored its record, and its mail has been taken. -/
def Kept (cfg : EmailConfig) (req : MailCall) (now : MailHistory) (a : MailAnswer) : Prop :=
  ∀ ip body r, req = .call (.requestOTP ip body) → a = .answered (.http r) → r.status = 200 →
    ∃ asked p past, bindBody (RequestOTPRequest.check cfg.voting) body = .ok asked ∧
      p.recipient = normalizeEmail cfg.voting asked.email ∧ Carries past now ∧
      Stored p.recipient asked.fingerprint asked.candidateID past p.subject p.body ∧ Taken cfg p now

theorem requestOTP_kept (ip : Str) (body : Except Str RequestOTPRequest) :
    (EmailService.program cfg (.call (.requestOTP ip body))).Meets (fun _ _ => True)
      (Kept cfg (.call (.requestOTP ip body))) [] := by
  have server : (VotingServer.program cfg.voting (.requestOTP ip body)).Meets (fun _ _ => True)
      (fun now a => ∀ r, a = .http r → r.status = 200 → ∃ asked,
        bindBody (RequestOTPRequest.check cfg.voting) body = .ok asked ∧
        Mailed (normalizeEmail cfg.voting asked.email) asked.fingerprint asked.candidateID now) [] := by
    apply meets_bind (requestOTP_mails cfg.voting ip body)
    rintro now r mails r' same ok
    cases same
    exact mails ok
  have start : Passes cfg [] [] := by
    constructor
    · intro c r member
      cases member
    · intro recipient subject text member
      cases member
  have carried : ∀ past now c, Passes cfg past now → True → (carry cfg c).Meets (fun _ _ => True)
      (fun now' r => Passes cfg (⟨c, r⟩ :: past) now') now := by
    intro past now c passes _
    cases c with
    | enqueue recipient subject text => exact enqueue_passes passes recipient subject text
    | _ => exact own_passes passes _ trivial
  have expanded : (expand (carry cfg) (VotingServer.program cfg.voting (.requestOTP ip body))).Meets
      (fun _ _ => True) (fun now a => ∃ past, Passes cfg past now ∧ ∀ r, a = .http r → r.status = 200 →
        ∃ asked, bindBody (RequestOTPRequest.check cfg.voting) body = .ok asked ∧
          Mailed (normalizeEmail cfg.voting asked.email) asked.fingerprint asked.candidateID past) [] :=
    expand_contract carried (fun past now a passes ends => ⟨past, passes, ends⟩) server start
  apply meets_bind expanded
  rintro now a ⟨past, passes, mails⟩ ip' body' r same answered ok
  cases same
  cases answered
  obtain ⟨asked, bound, subject, text, before, rfl, stored⟩ := mails r rfl ok
  refine ⟨asked, ⟨_, subject, text⟩, before, bound, rfl, ?_, stored, ?_⟩
  · exact fun c r' member mailless => passes.carries c r' (List.mem_cons_of_mem _ member) mailless
  · exact passes.taken _ subject text List.mem_cons_self

theorem program_kept (cfg : EmailConfig) (req : MailCall) :
    (EmailService.program cfg req).Meets (fun _ _ => True) (Kept cfg req) [] := by
  by_cases asks : ∃ ip body, req = .call (.requestOTP ip body)
  · obtain ⟨ip, body, rfl⟩ := asks
    exact requestOTP_kept ip body
  · apply meets_mono (meets_trivial (fun _ _ => trivial) _) fun _ _ h => h
    intro now a _ ip body r same
    exact absurd ⟨ip, body, same⟩ asks

end Answers

/-- The mail waits in the queue, or a worker has it. What is read back from its task is this mail. -/
def InQueue (s : Mailing) (p : EmailPayload) : Prop := ∃ e ∈ s.world.tasks,
  unmarshal e.task.payload = some p ∧ (e.state = .pending ∨ e.state = .active)

/-- The mail has been given up, after it was handed out for a first attempt and three retries. A worker that
gave it up has reported this to the log, for the recipient; when its worker was lost, nobody has. -/
def GivenUp (s : Mailing) (p : EmailPayload) : Prop := ∃ (id : Nat) (e : Entry Task) (reported : Bool),
  s.world.tasks[id]? = some e ∧ unmarshal e.task.payload = some p ∧ e.state = .archived reported ∧
  4 ≤ e.handed ∧ (reported = true → ∃ job ∈ s.jobs, job.req = .processTask id ∧ ∃ retried, 3 ≤ retried ∧
    Reported p retried job.past)

section Taking
variable {cfg : EmailConfig} {allow : Mailing → MailMove → Bool} {s s' : Mailing}

theorem queued_task {w w' : MailWorld} {o : Oracle} {t : Task}
    (performed : w.perform o (.clientEnqueue t) = some (none, w')) :
    w'.tasks[w.tasks.length]? = some { task := t } := by
  have ran := Option.some.inj performed
  unfold attempt at ran
  split at ran
  · cases ran
    exact List.getElem?_concat_length
  · cases ran

/- A task that was queued is still in the queue, or its mail has been sent or given up. -/
theorem queued_fate {w : World} (run : Reaches (mailServer cfg) allow (idle w) s) {id : Nat} {e : Entry Task}
    {p : EmailPayload} (at_id : s.world.tasks[id]? = some e) (is : e.task = emailTask p.marshal) :
    InQueue s p ∨ transmission cfg p ∈ s.world.sent ∨ GivenUp s p := by
  have order := order_of_run run
  have member := List.mem_of_getElem? at_id
  have read : unmarshal e.task.payload = some p := by
    rw [is]
    exact unmarshal_marshal p
  have three : e.task.limit = 3 := by
    rw [is]
    rfl
  have finished := order.finished id e at_id
  have counted := order.counted e member
  unfold Finished at finished
  unfold Entry.Counted at counted
  cases state : e.state with
  | pending => exact Or.inl ⟨e, member, read, Or.inl state⟩
  | active => exact Or.inl ⟨e, member, read, Or.inr state⟩
  | completed =>
    rw [state] at finished
    obtain ⟨p', read', sent⟩ := finished
    rw [read, Option.some.injEq] at read'
    rw [← read'] at sent
    exact Or.inr (Or.inl sent)
  | archived reported =>
    rw [state, three] at counted
    refine Or.inr (Or.inr ⟨id, e, reported, at_id, read, state, counted, ?_⟩)
    rintro rfl
    rw [state, three] at finished
    exact finished p read

/- A request for a code that is answered 200 has stored its code, and the mail with that code is in the
queue, has been accepted by the SMTP server, or has been given up after four attempts. -/
theorem answered_mailed (cfg : EmailConfig) (allow : Mailing → MailMove → Bool) (w : World)
    (run : Reaches (mailServer cfg) allow (idle w) s) {job : MailJob} (member : job ∈ s.jobs) {ip : Str}
    {body : Except Str RequestOTPRequest} (asks : job.req = .call (.requestOTP ip body)) {r : Response}
    (answered : job.rest = .done (.answered (.http r))) (ok : r.status = 200) :
    ∃ asked p past, bindBody (RequestOTPRequest.check cfg.voting) body = .ok asked ∧
      p.recipient = normalizeEmail cfg.voting asked.email ∧ Carries past job.past ∧
      Stored p.recipient asked.fingerprint asked.candidateID past p.subject p.body ∧
      (InQueue s p ∨ transmission cfg p ∈ s.world.sent ∨ GivenUp s p) := by
  have ends := contract_of_job (program_kept cfg) rfl run job member
  rw [answered, meets_done] at ends
  obtain ⟨asked, p, past, bound, is_email, carries, stored, taken⟩ := ends ip body r asks rfl ok
  refine ⟨asked, p, past, bound, is_email, carries, stored, ?_⟩
  cases taken with
  | inl queued =>
    obtain ⟨w₀, o, t, performed, since⟩ := exchange_left rfl rfl run member queued
    obtain ⟨e, at_id, same, -⟩ := (later_since since).tasks _ _ (queued_task performed)
    exact queued_fate run at_id same
  | inr accepted => exact Or.inr (Or.inl (accepted_sent run member accepted))

end Taking

def mailConfig : EmailConfig where
  voting := devConfig
  smtpHost := "smtp.example.com".toList
  smtpPort := 587
  smtpUser := "mailer".toList
  smtpPass := "secret".toList
  smtpFrom := "vote@example.com".toList

def annMail : EmailPayload := ⟨"annlee@gmail.com".toList, otpSubject, otpBody "Ann".toList (otpCode 0)⟩

def refused : Oracle := { fault := some ⟨false, "450 mailbox busy".toList⟩ }

def cutOff : Oracle := { fault := some ⟨true, "EOF".toList⟩ }

/- A worker is handed the task, fails to send its mail, and puts it back. -/
def failedAttempt (job : Nat) : List MailMove :=
  [.start (.processTask 0), .run job {}, .run job refused, .run job {}]

/- A code is asked for. The first four attempts at its mail fail, the last after the server has taken it. -/
def mailMoves : List MailMove :=
  .start (.call (requestFrom "10.0.0.1" "Ann.Lee@gmail.com" "device" 1)) :: List.replicate 14 (.run 0 {}) ++
    failedAttempt 1 ++ failedAttempt 2 ++ failedAttempt 3 ++
    [.start (.processTask 0), .run 4 {}, .run 4 cutOff, .run 4 {}, .run 4 {}]

def mailed : Mailing := after (mailServer mailConfig) delivers (idle twoCandidates.world) mailMoves

example : mailed.world.tasks.map (fun e => (e.retried, e.handed, e.state)) = [(3, 4, .archived true)] := by
  decide +kernel

theorem mailed_delivered :
    (∃ t ∈ mailed.world.sent, ∃ p, Wanted mailConfig mailed p ∧ ReadsBack mailConfig t p) ∧
    ∃ row ∈ mailed.world.sendLog, ∃ p, Wanted mailConfig mailed p ∧ row.toAddress = p.recipient := by
  have run : Reaches (mailServer mailConfig) delivers (idle twoCandidates.world) mailed :=
    reaches_after (by decide +kernel)
  obtain ⟨sent, logged⟩ := mails_delivered mailConfig twoCandidates.world run
  have one_sent : transmission mailConfig annMail ∈ mailed.world.sent := by decide +kernel
  have one_logged : ⟨annMail.recipient, "EOF".toList, 3⟩ ∈ mailed.world.sendLog := by
    decide +kernel
  obtain ⟨p, wanted, same, -⟩ := logged _ one_logged
  exact ⟨⟨_, one_sent, sent _ one_sent⟩, _, one_logged, p, wanted, same⟩

def httpOf : Prog MailCmd MailReply MailAnswer → Option Response
  | .done (.answered (.http r)) => some r
  | _ => none

theorem httpOf_done {rest : Prog MailCmd MailReply MailAnswer} {r : Response}
    (answers : httpOf rest = some r) :
    rest = .done (.answered (.http r)) := by
  unfold httpOf at answers
  split at answers
  · cases answers
    rfl
  · cases answers

theorem mailed_answered : ∃ p : EmailPayload, p.recipient = annMail.recipient ∧
    (InQueue mailed p ∨ transmission mailConfig p ∈ mailed.world.sent ∨ GivenUp mailed p) := by
  have run : Reaches (mailServer mailConfig) delivers (idle twoCandidates.world) mailed :=
    reaches_after (by decide +kernel)
  have first : (mailed.jobs[0]?.map fun job => (job.req, (httpOf job.rest).map Response.status)) =
      some (.call (requestFrom "10.0.0.1" "Ann.Lee@gmail.com" "device" 1), some 200) := by decide +kernel
  obtain ⟨job, at_job, is⟩ := Option.map_eq_some_iff.mp first
  obtain ⟨asks, answers⟩ := Prod.mk.inj is
  obtain ⟨r, answered, ok⟩ := Option.map_eq_some_iff.mp answers
  obtain ⟨asked, p, past, bound, is_email, -, -, held⟩ := answered_mailed mailConfig delivers
    twoCandidates.world run (List.mem_of_getElem? at_job) asks (httpOf_done answered) ok
  have same : bindBody (RequestOTPRequest.check devConfig) (.ok ⟨"Ann.Lee@gmail.com".toList,
      "device".toList, "token".toList, 1⟩) = .ok ⟨"Ann.Lee@gmail.com".toList, "device".toList,
      "token".toList, 1⟩ := by decide +kernel
  cases same.symm.trans bound
  exact ⟨p, is_email.trans (by decide +kernel), held⟩

end DeliveredMails
