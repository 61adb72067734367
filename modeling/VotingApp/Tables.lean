import Mathlib.Data.List.Sort
import VotingApp.Lib.GoTime

/-!
The MariaDB tables of schema.sql and the statements of the repositories. Every
statement is atomic. Strings compare exactly, lengths count characters, strict
mode is on, and the time columns hold whole seconds.
-/
namespace Tables
open GoText GoTime

/-- The errors that callers compare against. -/
inductive Sentinel where
  | redisNil
  | noRows
  | alreadyVoted
  | ipVoteLimitExceeded
  | candidateNotFound
  | candidateHasVotes
  | domainAlreadyExists
  | domainNotFound
  | mysql (number : Nat)
  deriving DecidableEq, Repr

structure GoErr where
  text : Str
  wraps : List Sentinel := []
  deriving DecidableEq, Repr

def GoErr.is (e : GoErr) (s : Sentinel) : Bool := s ∈ e.wraps

def newError (text : String) : GoErr := ⟨text.toList, []⟩

/- fmt.Errorf with a text, a colon and %w. -/
def wrapError (text : String) (e : GoErr) : GoErr := { e with text := text.toList ++ ": ".toList ++ e.text }

def mysqlError (number : Nat) (text : Str) : GoErr := ⟨text, [.mysql number]⟩

def dataTooLong (column : String) : GoErr :=
  mysqlError 1406 ("Error 1406 (22001): Data too long for column '".toList ++ column.toList ++
    "' at row 1".toList)

def duplicateEntry (value : Str) (key : String) : GoErr :=
  mysqlError 1062 ("Error 1062 (23000): Duplicate entry '".toList ++ value ++ "' for key '".toList ++
    key.toList ++ "'".toList)

def noReferencedRow : GoErr :=
  mysqlError 1452 "Error 1452 (23000): Cannot add or update a child row: a foreign key constraint fails".toList

def noRows : GoErr := ⟨"sql: no rows in result set".toList, [.noRows]⟩

def badYear : GoErr := newError "year is not in the range [0, 9999]"

structure Candidate where
  id : Int
  name : Str
  description : Str
  imagePath : Str
  createdAt : Nat
  updatedAt : Option Nat
  deriving DecidableEq, Repr

structure Vote where
  id : Int
  voterEmail : Str
  voterFingerprint : Str
  candidateId : Int
  voterIp : Str
  voterUserAgent : Str
  createdAt : Nat
  deriving DecidableEq, Repr

structure Settings where
  isOpen : Bool
  endsAt : Option Nat
  customDomainsOnly : Bool
  deriving DecidableEq, Repr

structure CustomDomain where
  id : Int
  domain : Str
  createdAt : Nat
  deriving DecidableEq, Repr

/- The tables with their AUTO_INCREMENT counters. -/
structure Db where
  candidates : List Candidate := []
  votes : List Vote := []
  settings : Settings := ⟨true, none, false⟩
  customDomains : List CustomDomain := []
  nextCandidate : Int := 1
  nextVote : Int := 1
  nextDomain : Int := 1
  deriving DecidableEq, Repr

/- A DATETIME or TIMESTAMP column drops the fraction of a second. -/
def toColumn (t : Nat) : Nat := t / second * second

def Db.countVotes (db : Db) (p : Vote → Bool) : Int := db.votes.countP p

def Db.candidateName (db : Db) (id : Int) : Except GoErr Str :=
  match db.candidates.find? fun c => c.id = id with
  | some c => .ok c.name
  | none => .error noRows

def Db.newVote (db : Db) (now : Nat) (email fingerprint : Str) (candidateID : Int)
    (ip userAgent : Str) : Vote :=
  ⟨db.nextVote, email, fingerprint, candidateID, ip, userAgent, toColumn now⟩

/- The two unique keys are checked before the foreign key. -/
def Db.insertVote (db : Db) (now : Nat) (email fingerprint : Str) (candidateID : Int)
    (ip userAgent : Str) : Except GoErr Unit × Db :=
  if 255 < email.length then (.error (dataTooLong "voter_email"), db)
  else if 255 < fingerprint.length then (.error (dataTooLong "voter_fingerprint"), db)
  else if 45 < ip.length then (.error (dataTooLong "voter_ip"), db)
  else if 512 < userAgent.length then (.error (dataTooLong "voter_user_agent"), db)
  else if db.votes.any fun v => v.voterEmail = email then
    (.error (duplicateEntry email "voter_email"), db)
  else if db.votes.any fun v => v.voterFingerprint = fingerprint then
    (.error (duplicateEntry fingerprint "voter_fingerprint"), db)
  else if db.candidates.any fun c => c.id = candidateID then
    (.ok (), { db with
      votes := db.votes ++ [db.newVote now email fingerprint candidateID ip userAgent]
      nextVote := db.nextVote + 1 })
  else (.error noReferencedRow, db)

def candidateFits (name description imagePath : Str) : Option GoErr :=
  if 255 < name.length then some (dataTooLong "name")
  else if 65535 < (String.ofList description).utf8ByteSize then some (dataTooLong "description")
  else if 255 < imagePath.length then some (dataTooLong "image_path")
  else none

def Db.insertCandidate (db : Db) (now : Nat) (name description imagePath : Str) :
    Except GoErr Int × Db :=
  match candidateFits name description imagePath with
  | some err => (.error err, db)
  | none => (.ok db.nextCandidate, { db with
      candidates := db.candidates ++
        [⟨db.nextCandidate, name, description, imagePath, toColumn now, none⟩]
      nextCandidate := db.nextCandidate + 1 })

def Candidate.edit (now : Nat) (name description : Str) (imagePath : Option Str) (c : Candidate) :
    Candidate :=
  { c with
    name := name
    description := description
    imagePath := imagePath.getD c.imagePath
    updatedAt := some (toColumn now) }

/- Values meet their columns in a row that is written. RowsAffected counts the rows whose stored
   values change. -/
def Db.updateCandidate (db : Db) (now : Nat) (id : Int) (name description : Str)
    (imagePath : Option Str) : Except GoErr Int × Db :=
  match if db.candidates.any fun c => c.id = id then
    candidateFits name description (imagePath.getD []) else none with
  | some err => (.error err, db)
  | none =>
    (.ok (db.candidates.countP fun c => c.id = id && c.edit now name description imagePath ≠ c),
      { db with
        candidates := db.candidates.map fun c =>
          if c.id = id then c.edit now name description imagePath else c })

/- ON DELETE CASCADE takes the votes of the candidate along. -/
def Db.deleteCandidate (db : Db) (id : Int) : Except GoErr Int × Db :=
  (.ok (db.candidates.countP fun c => c.id = id), { db with
    candidates := db.candidates.filter fun c => c.id ≠ id
    votes := db.votes.filter fun v => v.candidateId ≠ id })

/-- A row of getAllWithVotesQuery. -/
structure CandidateWithVotes where
  candidate : Candidate
  totalVotes : Int
  deriving DecidableEq, Repr

def moreVotes (a b : CandidateWithVotes) : Prop := b.totalVotes ≤ a.totalVotes

instance : DecidableRel moreVotes := fun a b => inferInstanceAs (Decidable (b.totalVotes ≤ a.totalVotes))

/- LEFT JOIN, GROUP BY and ORDER BY total_votes DESC. -/
def Db.getAllWithVotes (db : Db) : List CandidateWithVotes :=
  (db.candidates.map fun c => ⟨c, db.countVotes fun v => v.candidateId = c.id⟩).insertionSort moreVotes

/- The driver refuses a time whose year has more than four digits. -/
def Db.updateSettings (db : Db) (isOpen : Bool) (endsAt : Option Nat) : Except GoErr Unit × Db :=
  if endsAt.all printable then
    (.ok (), { db with
      settings := { db.settings with isOpen := isOpen, endsAt := endsAt.map toColumn } })
  else (.error badYear, db)

def Db.updateCustomDomainsOnly (db : Db) (value : Bool) : Except GoErr Unit × Db :=
  (.ok (), { db with settings := { db.settings with customDomainsOnly := value } })

def newer (a b : CustomDomain) : Prop := b.createdAt ≤ a.createdAt

instance : DecidableRel newer := fun a b => inferInstanceAs (Decidable (b.createdAt ≤ a.createdAt))

def Db.allDomains (db : Db) : List CustomDomain := db.customDomains.insertionSort newer

def Db.insertDomain (db : Db) (now : Nat) (domain : Str) : Except GoErr Unit × Db :=
  if 253 < domain.length then (.error (dataTooLong "domain"), db)
  else if db.customDomains.any fun d => d.domain = domain then
    (.error (duplicateEntry domain "domain"), db)
  else (.ok (), { db with
      customDomains := db.customDomains ++ [⟨db.nextDomain, domain, toColumn now⟩]
      nextDomain := db.nextDomain + 1 })

def Db.domainById (db : Db) (id : Int) : Except GoErr Str :=
  match db.customDomains.find? fun d => d.id = id with
  | some d => .ok d.domain
  | none => .error noRows

def Db.deleteDomain (db : Db) (id : Int) : Except GoErr Int × Db :=
  (.ok (db.customDomains.countP fun d => d.id = id),
    { db with customDomains := db.customDomains.filter fun d => d.id ≠ id })

def Db.countDomain (db : Db) (domain : Str) : Int := db.customDomains.countP fun d => d.domain = domain

end Tables
