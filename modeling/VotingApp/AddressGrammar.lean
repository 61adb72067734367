import VotingApp.Lib.Separated
import VotingApp.CanonicalForm

/-!
The address grammar behind the email binding, and what canonicalising does to it. The
binding runs before normalizeEmail and is not repeated after it.
-/
namespace AddressGrammar
open GoText Separated EffectProgram CallPool PoolHistory VotingWorld OtpService VotingSettings
open VoteService CustomDomains Handlers VotingServer Footprints Frames OtpRecords Aliases CanonicalForm

/-- The characters of atoms, of quoted text and of domain labels. Lowercasing stays inside. -/
structure Alphabet (lowerRune : Char → Char) where
  atom : Char → Bool
  quoted : Char → Bool
  label : Char → Bool
  atom_dot : atom '.' = false
  atom_quote : atom '"' = false
  quoted_quote : quoted '"' = false
  label_dot : label '.' = false
  label_at : label '@' = false
  label_letters : ∀ c, c.isLower = true → label c = true
  lower_atom : ∀ c, atom c = true → atom (lowerRune c) = true
  lower_quoted : ∀ c, quoted c = true → quoted (lowerRune c) = true
  lower_label : ∀ c, label c = true → label (lowerRune c) = true

section Grammar
variable {lowerRune : Char → Char} (A : Alphabet lowerRune)

def quotedPart : Str → Bool
  | '"' :: rest => rest.getLast? = some '"' && rest.dropLast.all A.quoted
  | _ => false

/-- Atoms with single dots between them, or text between two quotes. -/
def localPart (s : Str) : Bool := separated '.' A.atom s || quotedPart A s

def dottedDomain (s : Str) : Bool := s.contains '.' && separated '.' A.label s

def address (s : Str) : Bool :=
  match cutLast '@' s with
  | none => false
  | some (front, domain) => localPart A front && dottedDomain A domain

end Grammar

/-- If the local part has a plus sign, what stands before the first one is not empty, opens
no quote and, unless Gmail ignores dots, does not end in one. -/
def CutSafely (domain front : Str) : Prop :=
  '+' ∈ front → front.takeWhile (· ≠ '+') ≠ [] ∧
    (front.takeWhile (· ≠ '+')).head? ≠ some '"' ∧
      (isGmail domain ∨ (front.takeWhile (· ≠ '+')).getLast? ≠ some '.')

def PlusSafe (cfg : Config) (email : Str) : Prop :=
  ∀ front domain, cutLast '@' email = some (front, domain) → CutSafely (toLower cfg domain) front

section Shapes
variable {lowerRune : Char → Char} {A : Alphabet lowerRune}

theorem quotedPart_iff (s : Str) : quotedPart A s = true ↔
    ∃ text, s = '"' :: (text ++ ['"']) ∧ ∀ c ∈ text, A.quoted c = true := by
  constructor
  · intro h
    unfold quotedPart at h
    split at h
    · rename_i rest
      simp only [Bool.and_eq_true, decide_eq_true_eq, List.all_eq_true] at h
      obtain ⟨text, shape⟩ := List.getLast?_eq_some_iff.mp h.1
      refine ⟨text, by rw [shape], ?_⟩
      have inner := h.2
      rw [shape, List.dropLast_concat] at inner
      exact inner
    · cases h
  · intro ⟨text, shape, inner⟩
    subst shape
    simpa [quotedPart] using inner

theorem atoms_no_quote {s : Str}
    (chars : ∀ c ∈ s, c = '.' ∨ A.atom c = true) : '"' ∉ s := by
  intro member
  rcases chars '"' member with same | fine
  · exact absurd same (by decide)
  · rw [A.atom_quote] at fine
    cases fine

/- A quote that is opened and never closed. -/
theorem lonely_quote {text : Str} (open_ : '"' ∉ text) : localPart A ('"' :: text) = false := by
  rw [localPart, Bool.or_eq_false_iff]
  constructor
  · apply Bool.eq_false_iff.mpr
    intro atoms
    exact atoms_no_quote (separated_chars atoms) List.mem_cons_self
  · apply Bool.eq_false_iff.mpr
    intro quoted
    obtain ⟨inner, shape, -⟩ := (quotedPart_iff _).mp quoted
    have same : text = inner ++ ['"'] := (List.cons.inj shape).2
    exact open_ (by rw [same]; simp)

theorem localPart_plain {s : Str} (clean : '"' ∉ s) :
    localPart A s = separated '.' A.atom s := by
  have no_quotes : quotedPart A s = false := by
    apply Bool.eq_false_iff.mpr
    intro quoted
    obtain ⟨text, shape, -⟩ := (quotedPart_iff s).mp quoted
    exact clean (by rw [shape]; simp)
  rw [localPart, no_quotes, Bool.or_false]

theorem head_quote {s : Str} (chars : ∀ c ∈ s, c = '.' ∨ A.atom c = true) :
    s.head? ≠ some '"' := by
  intro first
  exact atoms_no_quote chars (List.mem_of_mem_head? first)

/- What is in front of the first plus sign of a text that has one. -/
theorem before_plus {s : Str} (plus : '+' ∈ s) : ∃ back,
    s = s.takeWhile (· ≠ '+') ++ '+' :: back := by
  rcases stripPlus_cases s with same | ⟨back, shape⟩
  · rw [stripPlus_takeWhile] at same
    rw [← same] at plus
    have clean := List.mem_takeWhile_imp plus
    simp at clean
  · rw [stripPlus_takeWhile] at shape
    exact ⟨back, shape⟩

theorem domain_no_at {domain : Str} (dotted : dottedDomain A domain = true) : '@' ∉ domain := by
  intro member
  have parts := (Bool.and_eq_true_iff.mp dotted).2
  rcases separated_chars parts '@' member with same | fine
  · exact absurd same (by decide)
  · rw [A.label_at] at fine
    cases fine

theorem gmail_dotted : dottedDomain A "gmail.com".toList = true := by
  have word : ∀ p : Str, p ≠ [] → p.all Char.isLower = true → '.' ∉ p →
      separated '.' A.label p = true := by
    intro p full letters clean
    rw [separated_word clean, isWord_iff]
    exact ⟨full, fun c member => A.label_letters c (List.all_eq_true.mp letters c member)⟩
  have shape : "gmail.com".toList = "gmail".toList ++ '.' :: "com".toList := rfl
  rw [dottedDomain, shape, separated_append,
    word _ (by decide) (by decide) (by decide),
    word _ (by decide) (by decide) (by decide)]
  decide

theorem address_at {front domain : Str} (clean : '@' ∉ domain) :
    address A (front ++ '@' :: domain) = (localPart A front && dottedDomain A domain) := by
  rw [address, cutLast_append clean]

theorem address_parts {s : Str} (h : address A s = true) : ∃ front domain,
    s = front ++ '@' :: domain ∧ '@' ∉ domain ∧ cutLast '@' s = some (front, domain) ∧
      localPart A front = true ∧ dottedDomain A domain = true := by
  rcases cutLast_cases '@' s with ⟨none, -⟩ | ⟨front, domain, parts, shape, clean⟩
  · rw [address, none] at h
    cases h
  · rw [address, parts, Bool.and_eq_true] at h
    exact ⟨front, domain, shape, clean, parts, h.1, h.2⟩

end Shapes

section Lowered
variable {cfg : Config} (lower : LowersLikeGo cfg.lowerRune) {A : Alphabet cfg.lowerRune}
include lower

theorem atoms_lowered {s : Str} (h : separated '.' A.atom s = true) :
    separated '.' A.atom (toLower cfg s) = true :=
  separated_map (lower.ascii '.' (by decide)) A.atom_dot A.lower_atom h

theorem domain_lowered {domain : Str} (dotted : dottedDomain A domain = true) :
    dottedDomain A (toLower cfg domain) = true := by
  have dot : cfg.lowerRune '.' = '.' := lower.ascii '.' (by decide)
  obtain ⟨some_dot, parts⟩ := Bool.and_eq_true_iff.mp dotted
  rw [dottedDomain, Bool.and_eq_true]
  constructor
  · rw [List.contains_iff_mem] at some_dot ⊢
    rw [← dot]
    exact List.mem_map_of_mem some_dot
  · exact separated_map dot A.label_dot A.lower_label parts

theorem quoted_lowered {text : Str} :
    toLower cfg ('"' :: (text ++ ['"'])) = '"' :: (toLower cfg text ++ ['"']) := by
  have quote : cfg.lowerRune '"' = '"' := lower.ascii '"' (by decide)
  simp [toLower, quote]

omit lower in
theorem text_lowered {text : Str} (inner : ∀ c ∈ text, A.quoted c = true) :
    ∀ c ∈ toLower cfg text, A.quoted c = true := by
  intro c member
  obtain ⟨x, there, made⟩ := List.mem_map.mp member
  rw [← made]
  exact A.lower_quoted x (inner x there)

omit lower in
theorem cut_lowered (plus : ∀ c, cfg.lowerRune c = '+' ↔ c = '+') (s : Str) :
    stripPlus (toLower cfg s) = toLower cfg (s.takeWhile (· ≠ '+')) := by
  rw [stripPlus_takeWhile, toLower, toLower, List.takeWhile_map]
  congr 2
  funext c
  simp [plus c]

theorem lowered_no_quote {s : Str} (chars : ∀ c ∈ s, c = '.' ∨ A.atom c = true) :
    '"' ∉ toLower cfg s := by
  intro member
  obtain ⟨c, there, made⟩ := List.mem_map.mp member
  rcases chars c there with same | fine
  · rw [same, lower.ascii '.' (by decide)] at made
    exact absurd made (by decide)
  · have still := A.lower_atom c fine
    rw [made, A.atom_quote] at still
    cases still

theorem last_lowered {s : Str} (chars : ∀ c ∈ s, c = '.' ∨ A.atom c = true) :
    (toLower cfg s).getLast? = some '.' ↔ s.getLast? = some '.' := by
  have dot : cfg.lowerRune '.' = '.' := lower.ascii '.' (by decide)
  rw [toLower, List.getLast?_map]
  constructor
  · intro last
    obtain ⟨c, found, made⟩ := Option.map_eq_some_iff.mp last
    rcases chars c (List.mem_of_getLast? found) with same | fine
    · rw [found, same]
    · have still := A.lower_atom c fine
      rw [made, A.atom_dot] at still
      cases still
  · intro last
    rw [last, Option.map_some, dot]

/- Atoms cut at a plus sign. -/
theorem atoms_cut {front back : Str} (atoms : separated '.' A.atom (front ++ '+' :: back) = true) :
    localPart A (toLower cfg front) = true ↔ front ≠ [] ∧ front.getLast? ≠ some '.' := by
  have plus : cfg.lowerRune '+' = '+' := lower.ascii '+' (by decide)
  have chars : ∀ c ∈ front, c = '.' ∨ A.atom c = true := fun c member =>
    separated_chars atoms c (by simp [member])
  have lowered := atoms_lowered lower atoms
  have shape : toLower cfg (front ++ '+' :: back) = toLower cfg front ++ '+' :: toLower cfg back := by
    simp [toLower, plus]
  rw [shape] at lowered
  rw [localPart_plain (lowered_no_quote lower chars), separated_prefix lowered]
  have empty : toLower cfg front = [] ↔ front = [] := by simp [toLower]
  rw [ne_eq, empty, ne_eq, last_lowered lower chars]

/- Atoms cut at a plus sign, without their dots. -/
theorem atoms_cut_undotted {front back : Str}
    (atoms : separated '.' A.atom (front ++ '+' :: back) = true) :
    localPart A ((toLower cfg front).filter (· ≠ '.')) = true ↔ front ≠ [] := by
  have dot : cfg.lowerRune '.' = '.' := lower.ascii '.' (by decide)
  have chars : ∀ c ∈ front, c = '.' ∨ A.atom c = true := fun c member =>
    separated_chars atoms c (by simp [member])
  have lowered : ∀ c ∈ toLower cfg front, c = '.' ∨ A.atom c = true := by
    intro c member
    obtain ⟨x, there, made⟩ := List.mem_map.mp member
    rw [← made]
    rcases chars x there with same | fine
    · rw [same, dot]
      exact Or.inl rfl
    · exact Or.inr (A.lower_atom x fine)
  have no_quote : '"' ∉ (toLower cfg front).filter (· ≠ '.') := fun member =>
    lowered_no_quote lower chars (List.mem_filter.mp member).1
  rw [localPart_plain no_quote, separated_filter lowered]
  constructor
  · intro ⟨c, member, _⟩ empty
    rw [empty] at member
    cases member
  · intro full
    obtain ⟨c, rest, shape⟩ := List.exists_cons_of_ne_nil full
    have other : c ≠ '.' := by
      intro same
      have head := separated_head atoms
      rw [shape, same] at head
      simp at head
    have fine : A.atom c = true := by
      rcases chars c (by rw [shape]; simp) with same | fine
      · exact absurd same other
      · exact fine
    refine ⟨cfg.lowerRune c, by rw [shape]; simp [toLower], fun turned => ?_⟩
    have still := A.lower_atom c fine
    rw [turned, A.atom_dot] at still
    cases still

/- Without a plus sign nothing is cut. -/
theorem whole_kept {front : Str} (part : localPart A front = true) :
    localPart A (toLower cfg front) = true ∧
      localPart A ((toLower cfg front).filter (· ≠ '.')) = true := by
  rcases Bool.or_eq_true_iff.mp part with atoms | quoted
  · have lowered := atoms_lowered lower atoms
    have chars := separated_chars lowered
    have no_quote : '"' ∉ (toLower cfg front).filter (· ≠ '.') := fun member =>
      atoms_no_quote chars (List.mem_filter.mp member).1
    constructor
    · rw [localPart, lowered, Bool.true_or]
    · rw [localPart_plain no_quote, separated_filter chars]
      obtain ⟨c, rest, shape⟩ := List.exists_cons_of_ne_nil (separated_ne_nil lowered)
      refine ⟨c, by rw [shape]; simp, fun same => ?_⟩
      have head := separated_head lowered
      rw [shape, same] at head
      simp at head
  · obtain ⟨text, shape, inner⟩ := (quotedPart_iff front).mp quoted
    have closed : ∀ t : Str, (∀ c ∈ t, A.quoted c = true) →
        localPart A ('"' :: (t ++ ['"'])) = true := by
      intro t all
      rw [localPart, (quotedPart_iff _).mpr ⟨t, rfl, all⟩, Bool.or_true]
    have lowered := text_lowered inner
    rw [shape, quoted_lowered lower]
    constructor
    · exact closed _ lowered
    · have undotted : ('"' :: (toLower cfg text ++ ['"'])).filter (· ≠ '.') =
          '"' :: ((toLower cfg text).filter (· ≠ '.') ++ ['"']) := by simp
      rw [undotted]
      exact closed _ fun c member => lowered c (List.mem_filter.mp member).1

/- A plus sign between quotes: the closing quote is cut off. -/
theorem quoted_cut {front : Str} (quoted : quotedPart A front = true) (plus : '+' ∈ front) :
    (front.takeWhile (· ≠ '+')).head? = some '"' ∧
      localPart A (toLower cfg (front.takeWhile (· ≠ '+'))) = false ∧
      localPart A ((toLower cfg (front.takeWhile (· ≠ '+'))).filter (· ≠ '.')) = false := by
  have quote : cfg.lowerRune '"' = '"' := lower.ascii '"' (by decide)
  obtain ⟨text, shape, inner⟩ := (quotedPart_iff front).mp quoted
  have inside : '+' ∈ text := by
    rw [shape] at plus
    simpa using plus
  obtain ⟨back, parts⟩ := before_plus inside
  have before : front.takeWhile (· ≠ '+') = '"' :: text.takeWhile (· ≠ '+') := by
    have shorter : (text.takeWhile (· ≠ '+')).length ≠ text.length := by
      have count := congrArg List.length parts
      rw [List.length_append, List.length_cons] at count
      omega
    rw [shape, List.takeWhile_cons, if_pos (by simp), List.takeWhile_append, if_neg shorter]
  have clean : '"' ∉ toLower cfg (text.takeWhile (· ≠ '+')) := by
    intro member
    have all : ∀ c ∈ toLower cfg (text.takeWhile (· ≠ '+')), A.quoted c = true :=
      text_lowered fun c there => inner c ((List.takeWhile_sublist _).subset there)
    have quoted := all '"' member
    rw [A.quoted_quote] at quoted
    cases quoted
  have lowered : toLower cfg ('"' :: text.takeWhile (· ≠ '+')) =
      '"' :: toLower cfg (text.takeWhile (· ≠ '+')) := by
    simp [toLower, quote]
  rw [before, lowered]
  constructor
  · simp
  · constructor
    · exact lonely_quote clean
    · have undotted : ('"' :: toLower cfg (text.takeWhile (· ≠ '+'))).filter (· ≠ '.') =
          '"' :: (toLower cfg (text.takeWhile (· ≠ '+'))).filter (· ≠ '.') := by simp
      rw [undotted]
      exact lonely_quote fun member => clean (List.mem_filter.mp member).1

theorem local_exact {front : Str} (part : localPart A front = true)
    (plus : ∀ c, cfg.lowerRune c = '+' ↔ c = '+') (domain : Str) :
    (isGmail domain →
      (localPart A ((stripPlus (toLower cfg front)).filter (· ≠ '.')) = true ↔
        CutSafely domain front)) ∧
      (¬ isGmail domain →
        (localPart A (stripPlus (toLower cfg front)) = true ↔ CutSafely domain front)) := by
  rw [cut_lowered plus]
  by_cases signed : '+' ∈ front
  · rcases Bool.or_eq_true_iff.mp part with atoms | quoted
    · obtain ⟨back, shape⟩ := before_plus signed
      rw [shape] at atoms
      have chars : ∀ c ∈ front.takeWhile (· ≠ '+'), c = '.' ∨ A.atom c = true := fun c member =>
        separated_chars atoms c (List.mem_append_left _ member)
      have head := head_quote chars
      constructor
      · intro gmail
        rw [atoms_cut_undotted lower atoms]
        constructor
        · intro full _
          exact ⟨full, head, Or.inl gmail⟩
        · intro safe
          exact (safe signed).1
      · intro other
        rw [atoms_cut lower atoms]
        constructor
        · intro ⟨full, last⟩ _
          exact ⟨full, head, Or.inr last⟩
        · intro safe
          obtain ⟨full, -, gmail | last⟩ := safe signed
          · exact absurd gmail other
          · exact ⟨full, last⟩
    · obtain ⟨opens, plain, undotted⟩ := quoted_cut lower quoted signed
      have unsafe_ : ¬ CutSafely domain front := fun safe => (safe signed).2.1 opens
      constructor
      · intro _
        rw [undotted]
        exact ⟨fun h => absurd h (by simp), fun safe => absurd safe unsafe_⟩
      · intro _
        rw [plain]
        exact ⟨fun h => absurd h (by simp), fun safe => absurd safe unsafe_⟩
  · have whole : front.takeWhile (· ≠ '+') = front := by
      rw [List.takeWhile_eq_self_iff]
      intro c member
      have other : c ≠ '+' := fun same => signed (same ▸ member)
      simpa using other
    have safe : CutSafely domain front := fun there => absurd there signed
    obtain ⟨plain, undotted⟩ := whole_kept lower part
    rw [whole]
    exact ⟨fun _ => ⟨fun _ => safe, fun _ => undotted⟩, fun _ => ⟨fun _ => safe, fun _ => plain⟩⟩

/- Canonicalising keeps an address in the grammar exactly when its cut is safe. -/
theorem normalized_exact (plus : ∀ c, cfg.lowerRune c = '+' ↔ c = '+') {email : Str}
    (accepted : address A email = true) :
    address A (normalizeEmail cfg email) = true ↔ PlusSafe cfg email := by
  obtain ⟨front, domain, shape, clean, parts, part, dotted⟩ := address_parts accepted
  obtain ⟨gmail_case, other_case⟩ := local_exact lower part plus (toLower cfg domain)
  have safe : PlusSafe cfg email ↔ CutSafely (toLower cfg domain) front := by
    constructor
    · intro all
      exact all front domain parts
    · intro safe front' domain' parts'
      rw [parts] at parts'
      cases parts'
      exact safe
  have lowered := domain_lowered lower dotted
  rw [safe, shape, normalizeEmail_at lower front clean]
  split
  · rename_i provider
    have gmail : isGmail (toLower cfg domain) := by
      simpa only [isGmail, Bool.or_eq_true, decide_eq_true_eq] using provider
    rw [address_at (gmail_clean (Or.inl rfl)), gmail_dotted, Bool.and_true]
    exact gmail_case gmail
  · rename_i provider
    have other : ¬ isGmail (toLower cfg domain) := by
      simpa only [isGmail, Bool.or_eq_true, decide_eq_true_eq] using provider
    rw [address_at (domain_no_at lowered), lowered, Bool.and_true]
    exact other_case other

end Lowered

/- A code is mailed only to the normalized address of the call that asked for it. -/
def MailRule (cfg : Config) (req : Call) (_ : History) : Cmd → Prop
  | .enqueue recipient _ _ => ∃ fp id, asksCode cfg req = some (recipient, fp, id)
  | _ => True

theorem mailless {cfg : Config} {req : Call} {c : Cmd}
    (other : ∀ recipient subject body, c ≠ .enqueue recipient subject body) :
    Neutral (MailRule cfg req) Anything c := by
  intro past _
  constructor
  · cases c with
    | enqueue recipient subject body => exact absurd rfl (other recipient subject body)
    | _ => trivial
  · intro r
    trivial

theorem mails_respected (cfg : Config) (req : Call) :
    Respected cfg req (MailRule cfg req) Anything where
  plain c sent := by cases sent <;> exact mailless (by simp)
  status := keeps_of_issues getStatus_issues fun c sent => by
    cases sent <;> exact mailless (by simp)
  broadcast := keeps_of_issues broadcastPayload_issues fun c sent => by
    cases sent <;> exact mailless (by simp)
  update isOpen endsAt := keeps_of_issues (updateSettings_issues isOpen endsAt) fun c sent => by
    cases sent <;> exact mailless (by simp)
  mode value := keeps_of_issues (updateCustomDomainsOnly_issues value) fun c sent => by
    cases sent <;> exact mailless (by simp)
  generate email fp id name asked := by
    apply keeps_of_issues (generateAndStore_issues email fp id name)
    intro c sent
    cases sent with
    | enqueue subject body => exact fun past _ => ⟨⟨fp, id, asked⟩, fun r => trivial⟩
    | _ => exact mailless (by simp)
  verify email otp _ := keeps_of_issues (verify_issues email otp) fun c sent => by
    cases sent <;> exact mailless (by simp)
  vote email otp ip userAgent _ :=
    keeps_of_issues (verifyAndVote_issues email otp ip userAgent) fun c sent => by
      cases sent <;> exact mailless (by simp)
  deleteCandidate _ n _ _ := keeps_of_issues (deleteCandidate_issues n) fun c sent => by
    cases sent <;> exact mailless (by simp)
  insertDomain domain := keeps_of_issues (insert_issues domain) fun c sent => by
    cases sent <;> exact mailless (by simp)
  deleteDomain id := keeps_of_issues (delete_issues id) fun c sent => by
    cases sent <;> exact mailless (by simp)
  warmCache := keeps_of_issues warmCache_issues fun c sent => by
    cases sent <;> exact mailless (by simp)

/-- A code goes out to an address: it is stored under its key, or mailed to it. -/
inductive GoesTo (email : Str) : Cmd → Prop where
  | stored (value : Str) (ttl : Nat) : GoesTo email (.redis (.set (otpKey email) value ttl))
  | mailed (subject body : Str) : GoesTo email (.enqueue email subject body)

theorem asked_address {cfg : Config} {ip : Str} {body : RequestOTPRequest} {email fp : Str} {id : Int}
    (asked : asksCode cfg (.requestOTP ip (.ok body)) = some (email, fp, id)) :
    cfg.validEmail body.email = true ∧ email = normalizeEmail cfg body.email := by
  unfold asksCode at asked
  dsimp only at asked
  split at asked
  · rename_i req bound
    have same : body = req := Except.ok.inj (bindBody_ok bound)
    subst same
    cases asked
    constructor
    · by_contra invalid
      have complains : requiredEmail cfg "RequestOTPRequest" body.email ≠ [] := by
        unfold requiredEmail
        split <;> simp
      have refused : RequestOTPRequest.check cfg body ≠ [] := by
        simp [RequestOTPRequest.check, complains]
      rw [bindBody, if_neg refused] at bound
      cases bound
    · rfl
  · cases asked

/- Whatever a request stores or mails goes to its canonicalised address. -/
theorem requested_address {cfg : Config} {allow : State → Move → Bool} {seed : Seed} {s : State}
    (run : Reaches (server cfg) allow seed.start s) {ev : LogEntry} (logged : ev ∈ s.log)
    {job : Job Cmd Reply Call Answer} {ip : Str} {body : RequestOTPRequest}
    (at_i : s.jobs[ev.caller]? = some job) (is : job.req = .requestOTP ip (.ok body)) {email : Str}
    (goes : GoesTo email ev.cmd) :
    cfg.validEmail body.email = true ∧ email = normalizeEmail cfg body.email := by
  obtain ⟨late, older, split⟩ := List.append_of_mem logged
  have asked : ∃ fp id, asksCode cfg job.req = some (email, fp, id) := by
    cases cmd : ev.cmd with
    | redis c =>
      obtain ⟨job', at_i', rule⟩ := rule_of_run run split
      rw [at_i'] at at_i
      cases at_i
      rw [cmd] at rule goes
      cases goes with
      | stored value ttl =>
        obtain ⟨n, fp, id, rest, asked, -⟩ := rule email rfl
        exact ⟨fp, id, asked⟩
    | enqueue recipient subject text =>
      obtain ⟨job', at_i', rule⟩ := contract_of_logged
        (fun req => program_keeps (mails_respected cfg req) [] trivial) rfl rfl run split
      rw [at_i'] at at_i
      cases at_i
      rw [cmd] at rule goes
      cases goes
      exact rule
    | _ =>
      rw [cmd] at goes
      cases goes
  obtain ⟨fp, id, asked⟩ := asked
  rw [is] at asked
  exact asked_address asked

/- An accepted address is canonicalised to an accepted one, and codes are stored for and
   mailed to accepted ones, exactly when the cut at its first plus sign is safe. -/
theorem deliverable_exact {cfg : Config} (lower : LowersLikeGo cfg.lowerRune)
    (plus : ∀ c, cfg.lowerRune c = '+' ↔ c = '+') (A : Alphabet cfg.lowerRune)
    (binding : ∀ email, cfg.validEmail email = address A email) :
    (∀ email, cfg.validEmail email = true →
      (cfg.validEmail (normalizeEmail cfg email) = true ↔ PlusSafe cfg email)) ∧
    ∀ (allow : State → Move → Bool) (seed : Seed) (s : State),
      Reaches (server cfg) allow seed.start s → ∀ ev ∈ s.log, ∀ job ip body,
        s.jobs[ev.caller]? = some job → job.req = .requestOTP ip (.ok body) →
        ∀ email, GoesTo email ev.cmd → (cfg.validEmail email = true ↔ PlusSafe cfg body.email) := by
  have exact_ : ∀ email, cfg.validEmail email = true →
      (cfg.validEmail (normalizeEmail cfg email) = true ↔ PlusSafe cfg email) := by
    intro email accepted
    rw [binding] at accepted ⊢
    exact normalized_exact lower plus accepted
  constructor
  · exact exact_
  · intro allow seed s run ev logged job ip body at_i is email goes
    obtain ⟨accepted, same⟩ := requested_address run logged at_i is goes
    rw [same]
    exact exact_ body.email accepted

/-- The printable ASCII characters that may stand in an atom, between quotes and in a label. -/
def specials : Str := "()<>[]:;@,.\"\\".toList

def letterCode (n : Nat) : Bool := (65 ≤ n && n ≤ 90) || (97 ≤ n && n ≤ 122)

/- A class that has all letters is closed under lowercasing. -/
theorem class_lowered {class_ : Char → Bool} (letters : ∀ c, letterCode c.toNat = true → class_ c = true)
    (c : Char) (member : class_ c = true) : class_ c.toLower = true := by
  rcases toLower_cases c with ⟨low, high, shifted⟩ | ⟨-, same⟩
  · apply letters
    simp [letterCode, shifted]
    omega
  · rw [same]
    exact member

def asciiAtom (c : Char) : Bool := 33 ≤ c.toNat && c.toNat ≤ 126 && !specials.contains c

def asciiQuoted (c : Char) : Bool := 32 ≤ c.toNat && c.toNat ≤ 126 && c ≠ '"' && c ≠ '\\'

def asciiLabel (c : Char) : Bool :=
  letterCode c.toNat || (48 ≤ c.toNat && c.toNat ≤ 57) || c = '-'

theorem letter_atom (c : Char) (letter : letterCode c.toNat = true) : asciiAtom c = true := by
  have marks : (specials.all fun x => !letterCode x.toNat) = true := by decide
  have other : c ∉ specials := by
    intro member
    have mark := List.all_eq_true.mp marks c member
    rw [letter] at mark
    cases mark
  simp only [letterCode, Bool.or_eq_true, Bool.and_eq_true, decide_eq_true_eq] at letter
  simp only [asciiAtom, Bool.and_eq_true, decide_eq_true_eq, Bool.not_eq_true']
  have out : specials.contains c = false := by simpa using other
  exact ⟨⟨by omega, by omega⟩, out⟩

theorem letter_quoted (c : Char) (letter : letterCode c.toNat = true) : asciiQuoted c = true := by
  have no_quote : c ≠ '"' := by
    intro same
    rw [same] at letter
    exact absurd letter (by decide)
  have no_slash : c ≠ '\\' := by
    intro same
    rw [same] at letter
    exact absurd letter (by decide)
  simp only [letterCode, Bool.or_eq_true, Bool.and_eq_true, decide_eq_true_eq] at letter
  simp only [asciiQuoted, Bool.and_eq_true, decide_eq_true_eq]
  exact ⟨⟨⟨by omega, by omega⟩, no_quote⟩, no_slash⟩

def asciiAlphabet : Alphabet Char.toLower where
  atom := asciiAtom
  quoted := asciiQuoted
  label := asciiLabel
  atom_dot := by decide
  atom_quote := by decide
  quoted_quote := by decide
  label_dot := by decide
  label_at := by decide
  label_letters c small := by
    have between : (decide (c.val ≥ 'a'.val) && decide (c.val ≤ 'z'.val)) = true := small
    have code : 97 ≤ c.toNat ∧ c.toNat ≤ 122 := by
      simpa [UInt32.le_iff_toNat_le, ← Char.toNat_val] using between
    simp [asciiLabel, letterCode, code]
  lower_atom := class_lowered letter_atom
  lower_quoted := class_lowered letter_quoted
  lower_label := class_lowered fun c letter => by simp [asciiLabel, letter]

/-- The development setup with the grammar as its email binding. -/
def grammarConfig : Config := { devConfig with validEmail := address asciiAlphabet }

theorem lower_plus_ascii (c : Char) : c.toLower = '+' ↔ c = '+' := by
  constructor
  · intro made
    rcases toLower_cases c with ⟨low, high, shifted⟩ | ⟨-, same⟩
    · have code : c.toLower.toNat = 43 := by rw [made]; rfl
      omega
    · rw [← same]
      exact made
  · intro same
    rw [same]
    rfl

/- A suffix that may go, and one behind a quote, a dot or nothing. -/
theorem deliverable_suffix :
    grammarConfig.validEmail (normalizeEmail grammarConfig "a.b+c@outlook.com".toList) = true := by
  have all := @deliverable_exact grammarConfig lowers_char_toLower lower_plus_ascii
    asciiAlphabet (fun _ => rfl)
  have parts : cutLast '@' "a.b+c@outlook.com".toList =
      some ("a.b+c".toList, "outlook.com".toList) := by decide
  apply (all.1 _ (by decide +kernel)).mpr
  intro front domain found
  rw [parts] at found
  cases found
  intro _
  exact ⟨by decide, by decide, Or.inr (by decide)⟩

/- Someone whose whole local part is a suffix asks for a code. -/
def nobody : State := after (server grammarConfig) faultless twoCandidates.start
  (.start (requestFrom "9.9.9.9" "+x@gmail.com" "fp" 1) :: runs 0 14)

/- Three accepted addresses whose canonical form is none, and a code stored for and mailed
   to one of these. -/
theorem undeliverable :
    (Reaches (server grammarConfig) faultless twoCandidates.start nobody ∧
      nobody.jobs.map statusOf = [some 200] ∧
      nobody.world.outbox.map Mail.recipient = ["@gmail.com".toList] ∧
      (nobody.world.redis (otpKey "@gmail.com".toList)).isSome = true) ∧
    ∀ email ∈ ["+x@gmail.com", "a.+b@outlook.com", "\"a+b\"@outlook.com"],
      grammarConfig.validEmail email.toList = true ∧
        grammarConfig.validEmail (normalizeEmail grammarConfig email.toList) = false := by
  constructor
  · exact ⟨reaches_after (by decide +kernel), by decide +kernel, by decide +kernel,
      by decide +kernel⟩
  · decide +kernel

end AddressGrammar
