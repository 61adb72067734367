import VotingApp.Lib.GoText

/- Texts of mail. dotWrite is the writer of a DATA command: it ends every line in CR LF and
   doubles a dot that starts one. receive is the other side, which ends the message at a line
   that is one dot. readMessage takes the received text apart into its fields and its body. -/
namespace MailText
open GoText

/-- Where in a line the writer is. -/
inductive Place where
  | start
  | lineStart
  | inside
  | afterCR
  deriving DecidableEq, Repr

def nextPlace : Place → Char → Place
  | .afterCR, c => if c = '\n' then .lineStart else .inside
  | _, c => if c = '\r' then .afterCR else if c = '\n' then .lineStart else .inside

def written : Place → Char → Str
  | .afterCR, c => [c]
  | _, c => if c = '\n' then ['\r', '\n'] else [c]

def stuffing : Place → Char → Str
  | .start, c => if c = '.' then ['.'] else []
  | .lineStart, c => if c = '.' then ['.'] else []
  | _, _ => []

/- What ends the last line. -/
def closing : Place → Str
  | .afterCR => ['\n']
  | .lineStart => []
  | _ => ['\r', '\n']

def dotWrite : Place → Str → Str
  | place, [] => closing place ++ ".\r\n".toList
  | place, c :: cs => stuffing place c ++ (written place c ++ dotWrite (nextPlace place c) cs)

/- The text with all of its lines ended in CR LF. -/
def crlf : Place → Str → Str
  | place, [] => closing place
  | place, c :: cs => written place c ++ crlf (nextPlace place c) cs

/-- Where in a line the receiver is. A dot at its start may be the end of the message. -/
inductive Reading where
  | lineStart
  | dot
  | dotCR
  | inside
  | afterCR
  deriving DecidableEq, Repr

def passed (afterCR : Bool) (c : Char) : Reading :=
  if c = '\r' then .afterCR else if afterCR && c = '\n' then .lineStart else .inside

def emit (front : Str) (received : Option (Str × Str)) : Option (Str × Str) :=
  received.map fun p => (front ++ p.1, p.2)

/- The message, and what is sent after it. -/
def receive : Reading → Str → Option (Str × Str)
  | _, [] => none
  | .lineStart, c :: cs => if c = '.' then receive .dot cs else emit [c] (receive (passed false c) cs)
  | .dot, c :: cs => if c = '\r' then receive .dotCR cs else emit [c] (receive (passed false c) cs)
  | .dotCR, c :: cs => if c = '\n' then some ([], cs) else emit ['\r', c] (receive (passed true c) cs)
  | .inside, c :: cs => emit [c] (receive (passed false c) cs)
  | .afterCR, c :: cs => emit [c] (receive (passed true c) cs)

/-- Where the receiver can be when it has read all that was written. -/
inductive Follows : Place → Reading → Prop where
  | start : Follows .start .lineStart
  | lineStart : Follows .lineStart .lineStart
  | inside : Follows .inside .inside
  | insideCR : Follows .inside .afterCR
  | afterCR : Follows .afterCR .afterCR

section Transparency
variable {place : Place} {reading : Reading}

/- One character of the message, stuffed or not, is received as it was written. -/
theorem receive_written (follows : Follows place reading) (c : Char) : ∃ reading',
    Follows (nextPlace place c) reading' ∧
    ∀ more, receive reading (stuffing place c ++ (written place c ++ more)) =
      emit (written place c) (receive reading' more) := by
  by_cases cr : c = '\r'
  · subst cr
    cases follows with
    | start => exact ⟨.afterCR, .afterCR, fun more => rfl⟩
    | lineStart => exact ⟨.afterCR, .afterCR, fun more => rfl⟩
    | inside => exact ⟨.afterCR, .afterCR, fun more => rfl⟩
    | insideCR => exact ⟨.afterCR, .afterCR, fun more => rfl⟩
    | afterCR => exact ⟨.afterCR, .insideCR, fun more => rfl⟩
  · by_cases lf : c = '\n'
    · subst lf
      have ends : ∀ more, emit ['\r'] (emit ['\n'] (receive .lineStart more)) =
          emit ['\r', '\n'] (receive .lineStart more) := by
        intro more
        cases receive .lineStart more <;> rfl
      cases follows with
      | afterCR => exact ⟨.lineStart, .lineStart, fun more => rfl⟩
      | _ => exact ⟨.lineStart, .lineStart, fun more => ends more⟩
    · by_cases dot : c = '.'
      · subst dot
        cases follows <;> exact ⟨.inside, .inside, fun more => rfl⟩
      · have goes_on : ∀ after, passed after c = .inside := by simp [passed, cr, lf]
        refine ⟨.inside, ?_, ?_⟩
        · cases follows <;> simp [nextPlace, cr, lf, Follows.inside]
        · cases follows <;> simp [stuffing, written, receive, dot, lf, goes_on]

/- Whatever the text is, it is received whole, and the message ends where it was ended. -/
theorem receive_dotWrite (follows : Follows place reading) (text rest : Str) :
    receive reading (dotWrite place text ++ rest) = some (crlf place text, rest) := by
  induction text generalizing place reading with
  | nil => cases follows <;> rfl
  | cons c text ih =>
    obtain ⟨reading', still, reads⟩ := receive_written follows c
    have front : dotWrite place (c :: text) ++ rest =
        stuffing place c ++ (written place c ++ (dotWrite (nextPlace place c) text ++ rest)) := by
      simp [dotWrite]
    rw [front, reads, ih still]
    rfl

end Transparency

/- Up to the first CR LF. -/
def takeLine : Str → Option (Str × Str)
  | [] => none
  | c :: cs =>
    if c = '\r' ∧ cs.head? = some '\n' then some ([], cs.tail)
    else (takeLine cs).map fun p => (c :: p.1, p.2)

/- The lines before the empty one, and the text behind it. -/
def headerLines : Nat → Str → Option (List Str × Str)
  | 0, _ => none
  | fuel + 1, s =>
    match takeLine s with
    | none => none
    | some ([], body) => some ([], body)
    | some (c :: line, rest) => (headerLines fuel rest).map fun p => ((c :: line) :: p.1, p.2)

def isFold (c : Char) : Bool := c = ' ' || c = '\t'

/- A line that starts with a blank continues the one before it. -/
def unfoldLines : List Str → List Str
  | [] => []
  | line :: lines =>
    match unfoldLines lines with
    | [] => [line]
    | next :: more => if next.head?.any isFold then (line ++ next) :: more else line :: next :: more

def field (line : Str) : Option (Str × Str) :=
  (cut ':' line).map fun p => (p.1, if p.2.head? = some ' ' then p.2.tail else p.2)

def readMessage (s : Str) : Option (List (Str × Str) × Str) :=
  (headerLines (s.length + 1) s).bind fun p => ((unfoldLines p.1).mapM field).map fun fields => (fields, p.2)

/- A message is written as its fields, an empty line and its body. -/
def fieldLine (f : Str × Str) : Str := f.1 ++ ':' :: ' ' :: f.2

def message (fields : List (Str × Str)) (body : Str) : Str :=
  (fields.flatMap fun f => fieldLine f ++ ['\r', '\n']) ++ '\r' :: '\n' :: body

/-- The text is one line. -/
def OneLine (s : Str) : Prop := '\r' ∉ s ∧ '\n' ∉ s

/-- A field that is read as it is written. -/
structure Plain (f : Str × Str) : Prop where
  name : ∃ c name, f.1 = c :: name ∧ isFold c = false
  colon : ':' ∉ f.1
  name_line : OneLine f.1
  value_line : OneLine f.2

section Reading
variable {line : Str}

theorem oneLine_cons {c : Char} (one : OneLine (c :: line)) : c ≠ '\r' ∧ c ≠ '\n' ∧ OneLine line := by
  obtain ⟨no_cr, no_lf⟩ := one
  simp only [List.mem_cons, not_or] at no_cr no_lf
  exact ⟨Ne.symm no_cr.1, Ne.symm no_lf.1, no_cr.2, no_lf.2⟩

theorem plain_line {f : Str × Str} (plain : Plain f) : OneLine (fieldLine f) := by
  obtain ⟨no_cr, no_lf⟩ := plain.name_line
  obtain ⟨no_cr', no_lf'⟩ := plain.value_line
  simp [OneLine, fieldLine, no_cr, no_lf, no_cr', no_lf']

theorem takeLine_append (one : OneLine line) (rest : Str) :
    takeLine (line ++ '\r' :: '\n' :: rest) = some (line, rest) := by
  induction line with
  | nil => rfl
  | cons c line ih =>
    obtain ⟨no_cr, -, more⟩ := oneLine_cons one
    simp [takeLine, no_cr, ih more]

/- A line of the message stays as it is, and the next one starts behind it. -/
theorem crlf_line (one : OneLine line) {place : Place} (fresh : place ≠ .afterCR) (rest : Str) :
    crlf place (line ++ '\r' :: '\n' :: rest) = line ++ '\r' :: '\n' :: crlf .lineStart rest := by
  induction line generalizing place with
  | nil => cases place <;> first | rfl | exact absurd rfl fresh
  | cons c line ih =>
    obtain ⟨no_cr, no_lf, more⟩ := oneLine_cons one
    have plain : written place c = [c] ∧ nextPlace place c = .inside := by
      cases place <;> simp [written, nextPlace, no_cr, no_lf]
    simp only [List.cons_append, crlf, plain.1, plain.2, List.nil_append]
    rw [ih more (by decide)]

theorem crlf_message {fields : List (Str × Str)} (plain : ∀ f ∈ fields, Plain f) {place : Place}
    (fresh : place ≠ .afterCR) (body : Str) :
    crlf place (message fields body) = message fields (crlf .lineStart body) := by
  induction fields generalizing place with
  | nil => exact @crlf_line [] ⟨List.not_mem_nil, List.not_mem_nil⟩ place fresh body
  | cons f fields ih =>
    have split : ∀ text, message (f :: fields) text = fieldLine f ++ '\r' :: '\n' :: message fields text := by
      simp [message]
    rw [split, split, crlf_line (plain_line (plain f List.mem_cons_self)) fresh,
      ih (fun g member => plain g (List.mem_cons_of_mem _ member)) (by decide)]

theorem headerLines_message {fields : List (Str × Str)} (plain : ∀ f ∈ fields, Plain f) {fuel : Nat}
    (enough : fields.length < fuel) (body : Str) :
    headerLines fuel (message fields body) = some (fields.map fieldLine, body) := by
  induction fields generalizing fuel with
  | nil =>
    cases fuel with
    | zero => omega
    | succ fuel => rfl
  | cons f fields ih =>
    cases fuel with
    | zero => omega
    | succ fuel =>
      have split : message (f :: fields) body = fieldLine f ++ '\r' :: '\n' :: message fields body := by
        simp [message]
      have is_plain := plain f List.mem_cons_self
      obtain ⟨c, name, starts, -⟩ := is_plain.name
      have shape : fieldLine f = c :: (name ++ ':' :: ' ' :: f.2) := by rw [fieldLine, starts]; rfl
      have rest := @ih (fun g member => plain g (List.mem_cons_of_mem _ member)) fuel (by simpa using enough)
      have taken := takeLine_append (plain_line is_plain) (message fields body)
      rw [split, headerLines, taken, shape]
      simp only [rest, Option.map_some, List.map_cons, shape]

theorem unfoldLines_plain {fields : List (Str × Str)} (plain : ∀ f ∈ fields, Plain f) :
    unfoldLines (fields.map fieldLine) = fields.map fieldLine := by
  induction fields with
  | nil => rfl
  | cons f fields ih =>
    have rest := ih fun g member => plain g (List.mem_cons_of_mem _ member)
    rw [List.map_cons, unfoldLines, rest]
    cases fields with
    | nil => rfl
    | cons g fields =>
      obtain ⟨c, name, starts, solid⟩ := (plain g (by simp)).name
      have no_fold : (fieldLine g).head?.any isFold = false := by simp [fieldLine, starts, solid]
      simp [no_fold]

theorem field_line {f : Str × Str} (plain : Plain f) : field (fieldLine f) = some f := by
  rw [field, fieldLine, cut_append plain.colon]
  rfl

theorem mapM_fields {fields : List (Str × Str)} (plain : ∀ f ∈ fields, Plain f) :
    (fields.map fieldLine).mapM field = some fields := by
  induction fields with
  | nil => rfl
  | cons f fields ih =>
    have rest := ih fun g member => plain g (List.mem_cons_of_mem _ member)
    simp [field_line (plain f List.mem_cons_self), rest]

theorem message_length (fields : List (Str × Str)) (body : Str) :
    fields.length ≤ (message fields body).length := by
  induction fields with
  | nil => simp
  | cons f fields ih =>
    simp [message] at ih ⊢
    omega

/- Plain fields and any body are read back, the body with its lines ended in CR LF. -/
theorem readMessage_message {fields : List (Str × Str)} (plain : ∀ f ∈ fields, Plain f) (body : Str) :
    readMessage (crlf .start (message fields body)) = some (fields, crlf .lineStart body) := by
  have short := message_length fields (crlf .lineStart body)
  rw [crlf_message plain (by decide), readMessage, headerLines_message plain (by omega)]
  simp [unfoldLines_plain plain, mapM_fields plain]

end Reading
end MailText
