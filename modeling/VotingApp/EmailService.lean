import VotingApp.Lib.Expansion
import VotingApp.Lib.MailText
import VotingApp.Lib.RetryQueue
import VotingApp.PublicRoutes

/-!
The email package: the queueing of email.go, and the worker and its error handler of worker.go, beside
the calls of the server. The queue is asynq's, which hands a task to a worker until an attempt succeeds or
its retries are used up.
-/
namespace EmailService
open GoText GoTime JsonText MailText RetryQueue Tables EffectProgram CallPool Expansion VotingWorld
open VotingSettings Handlers VotingServer PublicRoutes

structure EmailConfig where
  voting : Config
  smtpHost : Str
  smtpPort : Int
  smtpUser : Str
  smtpPass : Str
  smtpFrom : Str

structure EmailPayload where
  recipient : Str := []
  subject : Str := []
  body : Str := []
  deriving DecidableEq, Repr

def EmailPayload.json (p : EmailPayload) : Json :=
  .obj [jsonName "to" (.str p.recipient), jsonName "subject" (.str p.subject), jsonName "body" (.str p.body)]

def EmailPayload.marshal (p : EmailPayload) : Str := print p.json

/- The decoder looks for a name without regard to its case; the long s folds to s. -/
def foldName (name : Str) : Str := name.map fun c => if c = 'ſ' then 's' else c.toLower

def EmailPayload.assign (p : EmailPayload) (name : Str) (value : Json) : Option EmailPayload :=
  let set : Option (Str → EmailPayload) :=
    if foldName name = "to".toList then some fun s => { p with recipient := s }
    else if foldName name = "subject".toList then some fun s => { p with subject := s }
    else if foldName name = "body".toList then some fun s => { p with body := s }
    else none
  match set, value with
  | none, _ => some p
  | some f, .str s => some (f s)
  | some _, .null => some p
  | some _, _ => none

def unmarshal (payload : Str) : Option EmailPayload :=
  match parse payload with
  | some .null => some {}
  | some (.obj fields) => fields.foldlM (fun p member => p.assign member.1 member.2) {}
  | _ => none

/-- asynq.Task with the options that it is enqueued with. -/
structure Task where
  typename : Str
  payload : Str
  queue : Str
  maxRetry : Int
  timeout : Nat
  deriving DecidableEq, Repr

def taskTypeEmail : Str := "email:send".toList

def emailTask (payload : Str) : Task := ⟨taskTypeEmail, payload, "email".toList, 3, 30 * second⟩

/- MaxRetry makes nothing of a negative number. -/
def Task.limit (t : Task) : Nat := t.maxRetry.toNat

/-- smtp.PlainAuth. -/
structure PlainAuth where
  identity : Str
  username : Str
  password : Str
  host : Str
  deriving DecidableEq, Repr

/-- A message that an SMTP server was sent: its envelope, and the text of its DATA command. -/
structure Transmission where
  addr : Str
  auth : PlainAuth
  sender : Str
  recipients : List Str
  data : Str
  deriving DecidableEq, Repr

/-- A row of email_send_log. -/
structure SendLogRow where
  toAddress : Str
  errorMessage : Str
  retryCount : Int
  deriving DecidableEq, Repr

inductive MailCmd where
  | voting (c : Cmd)
  | clientEnqueue (task : Task)
  | brokerDequeue (id : Nat)
  | brokerDone (id : Nat)
  | brokerRetry (id retried : Nat)
  | brokerArchive (id : Nat)
  | sendMail (addr : Str) (auth : PlainAuth) (sender : Str) (recipients : List Str) (msg : Str)
  | insertSendLog (row : SendLogRow)
  deriving DecidableEq

abbrev MailReply : MailCmd → Type
  | .voting c => Reply c
  | .clientEnqueue _ => Option GoErr
  | .brokerDequeue _ => Option (Message Task)
  | .brokerDone _ => Option GoErr
  | .brokerRetry _ _ => Option GoErr
  | .brokerArchive _ => Option GoErr
  | .sendMail _ _ _ _ _ => Option GoErr
  | .insertSendLog _ => Option GoErr

/- A task that is completed or archived is no longer given to a worker. -/
structure MailWorld where
  voting : World
  tasks : Queue Task := []
  sent : List Transmission := []
  sendLog : List SendLogRow := []

/- One that fails may have taken effect. -/
def attempt {σ : Type} (o : Oracle) (before after : σ) : Option GoErr × σ :=
  match o.fault with
  | none => (none, after)
  | some f => (some ⟨f.text, []⟩, if f.applied then after else before)

/- validateLine of net/smtp. -/
def validLine (line : Str) : Bool := !line.any fun c => c = '\n' || c = '\r'

def lineBroken : GoErr := newError "smtp: A line must not contain CR or LF"

/- The broker changes a task that a worker has. -/
def MailWorld.settle (w : MailWorld) (o : Oracle) (id : Nat) (f : Entry Task → Option (Entry Task)) :
    Option GoErr × MailWorld :=
  match change w.tasks id f with
  | some q => attempt o w { w with tasks := q }
  | none => (some (newError "NOT FOUND"), w)

def MailWorld.perform (w : MailWorld) (o : Oracle) :
    (c : MailCmd) → Option (MailReply c × MailWorld)
  | .voting c => (w.voting.perform o c).map fun ran => (ran.1, { w with voting := ran.2 })
  | .clientEnqueue task => some (attempt o w { w with tasks := push w.tasks task })
  | .brokerDequeue id =>
    match dequeue w.tasks id with
    | none => some (none, w)
    | some (m, q) =>
      match o.fault with
      | none => some (some m, { w with tasks := q })
      | some f => some (none, if f.applied then { w with tasks := q } else w)
  | .brokerDone id => some (w.settle o id Entry.complete)
  | .brokerRetry id retried => some (w.settle o id (Entry.retry retried))
  | .brokerArchive id => some (w.settle o id (Entry.archive true))
  | .sendMail addr auth sender recipients msg =>
    if validLine sender && recipients.all validLine then
      some (attempt o w
        { w with sent := w.sent ++ [⟨addr, auth, sender, recipients, dotWrite .start msg⟩] })
    else some (some lineBroken, w)
  | .insertSendLog row =>
    if 255 < row.toAddress.length then some (some (dataTooLong "to_address"), w)
    else if 65535 < (String.ofList row.errorMessage).utf8ByteSize then
      some (some (dataTooLong "error_message"), w)
    else some (attempt o w { w with sendLog := w.sendLog ++ [row] })

abbrev MailAct (α : Type) := Prog MailCmd MailReply α
abbrev MailHistory := List (Exchange MailCmd MailReply)

def clientEnqueue (task : Task) : MailAct (Option GoErr) := issue (MailCmd.clientEnqueue task)

/- The message of sendSMTP. -/
def message (cfg : EmailConfig) (recipient subject body : Str) : Str :=
  "From: ".toList ++ cfg.smtpFrom ++ "\r\n".toList ++
    "To: ".toList ++ recipient ++ "\r\n".toList ++
    "Subject: ".toList ++ subject ++ "\r\n".toList ++
    "MIME-Version: 1.0\r\n".toList ++
    "Content-Type: text/plain; charset=UTF-8\r\n".toList ++
    "\r\n".toList ++ body

def sendSMTP (cfg : EmailConfig) (recipient subject body : Str) : MailAct (Option GoErr) :=
  let auth : PlainAuth := ⟨[], cfg.smtpUser, cfg.smtpPass, cfg.smtpHost⟩
  let addr := cfg.smtpHost ++ ':' :: itoa cfg.smtpPort
  issue (MailCmd.sendMail addr auth cfg.smtpFrom [recipient] (message cfg recipient subject body))

/- Service.Enqueue. Strings always marshal. -/
def enqueue (cfg : EmailConfig) (recipient subject body : Str) : MailAct (Option GoErr) := do
  match ← clientEnqueue (emailTask (EmailPayload.marshal ⟨recipient, subject, body⟩)) with
  | some _ => sendSMTP cfg recipient subject body
  | none => return none

def handleEmailTask (cfg : EmailConfig) (payload : Str) : MailAct (Option GoErr) :=
  match unmarshal payload with
  | none => return some (wrapError "email: failed to parse task payload" unmarshalError)
  | some p => sendSMTP cfg p.recipient p.subject p.body

def logFailedEmail (recipient errMsg : Str) (retries : Int) : MailAct Unit := do
  let _ ← issue (MailCmd.insertSendLog ⟨recipient, errMsg, retries⟩)
  return ()

/- The ErrorHandler of NewServer, with the counts that it takes from its context. -/
def handleError (payload errMsg : Str) (retried maxRetry : Int) : MailAct Unit :=
  if maxRetry ≤ retried then
    match unmarshal payload with
    | none => return ()
    | some p => logFailedEmail p.recipient errMsg retried
  else return ()

/- What asynq's processor does with a task of its queue: a handler that fails is handed to the error
handler before the task goes back. The broker is not asked again when it does not answer. -/
def processTask (cfg : EmailConfig) (id : Nat) : MailAct Unit := do
  match ← issue (MailCmd.brokerDequeue id) with
  | none => return ()
  | some m =>
    match ← handleEmailTask cfg m.task.payload with
    | none =>
      let _ ← issue (MailCmd.brokerDone id)
      return ()
    | some err =>
      handleError m.task.payload err.text m.retried m.task.limit
      if m.task.limit ≤ m.retried then
        let _ ← issue (MailCmd.brokerArchive id)
        return ()
      else
        let _ ← issue (MailCmd.brokerRetry id (m.retried + 1))
        return ()

/- The mail of a code is carried out by the service; every other command is its own. -/
def carry (cfg : EmailConfig) : (c : Cmd) → MailAct (Reply c)
  | .enqueue recipient subject body => enqueue cfg recipient subject body
  | c => issue (MailCmd.voting c)

/-- A call of the server, a worker's work at a task, or a handler that its worker has stopped waiting
for, after the timeout. -/
inductive MailCall where
  | call (c : Call)
  | processTask (id : Nat)
  | handleEmailTask (payload : Str)
  deriving DecidableEq

inductive MailAnswer where
  | answered (a : Answer)
  | processed
  | handled (err : Option GoErr)

def program (cfg : EmailConfig) : MailCall → MailAct MailAnswer
  | .call c => MailAnswer.answered <$> expand (carry cfg) (VotingServer.program cfg.voting c)
  | .processTask id => (fun _ => MailAnswer.processed) <$> EmailService.processTask cfg id
  | .handleEmailTask payload => MailAnswer.handled <$> EmailService.handleEmailTask cfg payload

def spawns : MailCmd → List MailCall
  | .voting c => (VotingServer.spawns c).map .call
  | _ => []

/-- Besides what happens to the server: a lease of a task expires, or a worker that stops puts its task
back. -/
inductive MailEnv where
  | voting (e : Env)
  | leaseExpired (id : Nat)
  | requeued (id : Nat)

def MailWorld.env (w : MailWorld) : MailEnv → Option MailWorld
  | .voting e => (w.voting.env e).map fun voting => { w with voting := voting }
  | .leaseExpired id => (change w.tasks id (Entry.expire Task.limit)).map fun q => { w with tasks := q }
  | .requeued id => (change w.tasks id Entry.requeue).map fun q => { w with tasks := q }

abbrev Mailing := Pool MailCmd MailReply MailWorld Oracle MailCall MailAnswer
abbrev MailMove := Label Oracle MailEnv MailCall
abbrev MailJob := Job MailCmd MailReply MailCall MailAnswer

def mailServer (cfg : EmailConfig) :
    Machine MailCmd MailReply MailWorld Oracle MailEnv MailCall MailAnswer where
  perform := MailWorld.perform
  env := MailWorld.env
  program := program cfg
  spawns := spawns

def idle (w : World) : Mailing := { world := { voting := w } }

/-- A handler is at a task of the queue, or was. -/
def delivers (s : Mailing) : MailMove → Bool
  | .start (.call c) => published c
  | .start (.handleEmailTask payload) => s.world.tasks.any fun e => e.task.payload = payload
  | _ => true

end EmailService
