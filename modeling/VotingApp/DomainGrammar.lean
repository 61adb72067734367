import VotingApp.Lib.Separated
import VotingApp.CanonicalForm

/-!
The names AddDomain stores. The cascade of checks in validateDomain accepts one grammar,
and every accepted name is the one a voter's address is looked up under.
-/
namespace DomainGrammar
open GoText Separated Tables EffectProgram VotingWorld VotingSettings CustomDomains Handlers Frames
open Aliases CanonicalForm

/-- A label: letters, digits and hyphens, with no hyphen at either end. -/
structure Label (s : Str) : Prop where
  full : s ≠ []
  chars : ∀ c ∈ s, ('a' ≤ c ∧ c ≤ 'z') ∨ ('0' ≤ c ∧ c ≤ '9') ∨ c = '-'
  first : s.head? ≠ some '-'
  last : s.getLast? ≠ some '-'

/-- At least two labels joined by single dots, of at most 253 bytes. -/
structure DomainName (d : Str) : Prop where
  some_bytes : 1 ≤ (String.ofList d).utf8ByteSize
  bytes : (String.ofList d).utf8ByteSize ≤ 253
  labels : ∃ labels : List Str, 2 ≤ labels.length ∧ (∀ l ∈ labels, Label l) ∧
    d = ['.'].intercalate labels

def hostChar (c : Char) : Bool := isLabelChar c || c = '-'

theorem hostChar_iff (c : Char) :
    hostChar c = true ↔ ('a' ≤ c ∧ c ≤ 'z') ∨ ('0' ≤ c ∧ c ≤ '9') ∨ c = '-' := by
  simp [hostChar, isLabelChar, or_assoc]

/- The pattern of domainLabelRe. -/
theorem isLabel_iff (s : Str) : isLabel s = true ↔ Label s := by
  have ends : ∀ o : Option Char, (∀ c ∈ o, hostChar c = true) →
      (o.all isLabelChar = true ↔ o ≠ some '-') := by
    intro o inside
    cases o with
    | none => simp
    | some c =>
      have host := inside c rfl
      simp only [hostChar, Bool.or_eq_true, decide_eq_true_eq] at host
      constructor
      · intro alnum same
        cases same
        exact absurd alnum (by decide)
      · intro other
        rcases host with alnum | hyphen
        · simpa using alnum
        · exact absurd (congrArg some hyphen) other
  constructor
  · intro h
    simp only [isLabel, Bool.and_eq_true, decide_eq_true_eq, List.all_eq_true] at h
    obtain ⟨⟨⟨full, chars⟩, first⟩, last⟩ := h
    have host : ∀ c ∈ s, hostChar c = true := chars
    constructor
    · exact full
    · exact fun c member => (hostChar_iff c).mp (host c member)
    · exact (ends _ fun c found => host c (List.mem_of_mem_head? found)).mp first
    · exact (ends _ fun c found => host c (List.mem_of_getLast? found)).mp last
  · intro label
    have host : ∀ c ∈ s, hostChar c = true := fun c member =>
      (hostChar_iff c).mpr (label.chars c member)
    simp only [isLabel, Bool.and_eq_true, decide_eq_true_eq, List.all_eq_true]
    exact ⟨⟨⟨label.full, host⟩,
      (ends _ fun c found => host c (List.mem_of_mem_head? found)).mpr label.first⟩,
      (ends _ fun c found => host c (List.mem_of_getLast? found)).mpr label.last⟩

theorem label_word {l : Str} (label : Label l) : isWord hostChar l = true := by
  rw [isWord_iff]
  exact ⟨label.full, fun c member => (hostChar_iff c).mpr (label.chars c member)⟩

theorem label_no_dot {l : Str} (label : Label l) : '.' ∉ l := by
  intro member
  rcases label.chars '.' member with ⟨low, -⟩ | ⟨low, -⟩ | same
  · exact absurd low (by decide)
  · exact absurd low (by decide)
  · exact absurd same (by decide)

theorem labelError_ne (cfg : Config) (l : Str) : labelError cfg l ≠ [] := by
  intro empty
  have start := (List.append_eq_nil_iff.mp (List.append_eq_nil_iff.mp empty).1).1
  exact absurd start (by decide)

theorem checkLabels_iff (cfg : Config) (labels : List Str) :
    checkLabels cfg labels = [] ↔ ∀ l ∈ labels, Label l := by
  induction labels with
  | nil => simp [checkLabels]
  | cons l labels ih =>
    rw [checkLabels]
    by_cases empty : l = []
    · rw [if_pos empty]
      constructor
      · intro h
        exact absurd h (by decide)
      · intro all
        exact absurd empty (all l (by simp)).full
    · rw [if_neg empty]
      by_cases label : isLabel l = true
      · have is := (isLabel_iff l).mp label
        rw [if_neg (by simp [label]), ih]
        simp [is]
      · have wrong : ¬ Label l := fun is => label ((isLabel_iff l).mpr is)
        rw [if_pos (by simp [label])]
        constructor
        · intro h
          exact absurd h (labelError_ne cfg l)
        · intro all
          exact absurd (all l (by simp)) wrong

theorem two_parts {d : Str} : 2 ≤ (d.splitOn '.').length ↔ '.' ∈ d := by
  constructor
  · intro two
    by_contra clean
    rw [List.splitOn_eq_singleton clean] at two
    simp at two
  · intro member
    obtain ⟨a, b, shape⟩ := List.append_of_mem member
    have left := List.length_pos_iff.mpr (List.splitOn_ne_nil '.' a)
    have right := List.length_pos_iff.mpr (List.splitOn_ne_nil '.' b)
    rw [shape, List.splitOn_append_cons_self, List.length_append]
    omega

/- The grammar in terms of the parts between the dots. -/
theorem labels_iff (d : Str) :
    (∃ labels : List Str, 2 ≤ labels.length ∧ (∀ l ∈ labels, Label l) ∧
      d = ['.'].intercalate labels) ↔ '.' ∈ d ∧ ∀ l ∈ d.splitOn '.', Label l := by
  constructor
  · intro ⟨labels, two, all, joined⟩
    have some_label : labels ≠ [] := by
      intro empty
      rw [empty] at two
      simp at two
    have parts : d.splitOn '.' = labels := by
      rw [joined]
      exact List.splitOn_intercalate '.' (fun l member => label_no_dot (all l member)) some_label
    rw [← two_parts, parts]
    exact ⟨two, all⟩
  · intro ⟨dot, all⟩
    exact ⟨d.splitOn '.', two_parts.mpr dot, all, (List.intercalate_splitOn '.').symm⟩

theorem labels_separated {d : Str} (all : ∀ l ∈ d.splitOn '.', Label l) :
    separated '.' hostChar d = true := by
  rw [separated, List.all_eq_true]
  exact fun l member => label_word (all l member)

theorem bytes_pos (d : Str) : 1 ≤ (String.ofList d).utf8ByteSize ↔ d ≠ [] := by
  have empty : (String.ofList d).utf8ByteSize = 0 ↔ d = [] := by
    rw [String.utf8ByteSize_eq_zero_iff, ← String.toList_eq_nil_iff, String.toList_ofList]
  rw [ne_eq, ← empty]
  omega

/- The whole cascade. -/
theorem validateDomain_iff (cfg : Config) (d : Str) : validateDomain cfg d = [] ↔ DomainName d := by
  have parts : splitAll '.' d = d.splitOn '.' := splitN_splitOn d.length d (le_refl _)
  constructor
  · intro h
    unfold validateDomain at h
    rw [parts] at h
    split at h
    · exact absurd h (by decide)
    · rename_i sized
      simp only [Bool.or_eq_true, decide_eq_true_eq, not_or, not_lt] at sized
      split at h
      · exact absurd h (by decide)
      · split at h
        · exact absurd h (by decide)
        · split at h
          · exact absurd h (by decide)
          · rename_i dotted
            have dot : '.' ∈ d := by simpa using dotted
            have labels := (checkLabels_iff cfg _).mp h
            exact ⟨(bytes_pos d).mpr sized.1, sized.2, (labels_iff d).mpr ⟨dot, labels⟩⟩
  · intro name
    obtain ⟨dot, labels⟩ := (labels_iff d).mp name.labels
    have words := labels_separated labels
    have sized : ¬ (d = [] || 253 < (String.ofList d).utf8ByteSize) = true := by
      have full := (bytes_pos d).mp name.some_bytes
      have short := name.bytes
      simp only [Bool.or_eq_true, decide_eq_true_eq, not_or, not_lt]
      exact ⟨full, short⟩
    have no_at : ¬ d.contains '@' = true := by
      intro found
      rcases separated_chars words '@' (List.contains_iff_mem.mp found) with same | host
      · exact absurd same (by decide)
      · exact absurd host (by decide)
    have ends : ¬ (d.head? = some '.' || d.getLast? = some '.') = true := by
      simp only [Bool.or_eq_true, decide_eq_true_eq, not_or]
      exact ⟨separated_head words, separated_last words⟩
    have dotted : ¬ (!d.contains '.') = true := by simpa using dot
    unfold validateDomain
    rw [if_neg sized, if_neg no_at, if_neg ends, if_neg dotted, parts]
    exact (checkLabels_iff cfg _).mpr labels

/-- The next command inserts the row of a domain. -/
def Inserts (p : Act Response) (domain : Str) : Prop :=
  ∃ next, p = .call (.sql (.insertDomain domain)) next

/-- A command that puts a domain in the table or in its cache. -/
inductive Stores (domain : Str) : Cmd → Prop where
  | row : Stores domain (.sql (.insertDomain domain))
  | member (key : Str) : Stores domain (.redis (.sadd key [domain]))

section AddDomain
variable (cfg : Config)

theorem canonicalDomain_nil : canonicalDomain cfg [] = [] := rfl

/- AddDomain inserts the canonical form of a name in the grammar that is not built in, or
   sends nothing at all. -/
theorem addDomain_cases (s : Str) :
    (DomainName (canonicalDomain cfg s) ∧ isBuiltin (canonicalDomain cfg s) = false ∧
      ∃ f : Option GoErr → Act Response, (∀ r, ∃ a, f r = .done a) ∧
        addDomain cfg (.ok s) = insert (canonicalDomain cfg s) >>= f) ∨
    (¬ (DomainName (canonicalDomain cfg s) ∧ isBuiltin (canonicalDomain cfg s) = false) ∧
      ∃ a, addDomain cfg (.ok s) = .done a) := by
  by_cases empty : s = []
  · right
    constructor
    · intro ⟨name, _⟩
      have full := (bytes_pos _).mp name.some_bytes
      rw [empty] at full
      exact full (canonicalDomain_nil cfg)
    · have refused : required "AddDomainRequest" "Domain" s ≠ [] := by simp [required, empty]
      rw [addDomain, bindBody, if_neg refused]
      exact ⟨_, rfl⟩
  · have bound : bindBody (required "AddDomainRequest" "Domain") (.ok s) = .ok s := by
      simp [bindBody, required, empty]
    rw [addDomain, bound]
    dsimp only
    by_cases valid : validateDomain cfg (canonicalDomain cfg s) = []
    · have name := (validateDomain_iff cfg _).mp valid
      rw [if_neg (by simpa using valid)]
      by_cases builtin : isBuiltin (canonicalDomain cfg s) = true
      · right
        rw [if_pos builtin]
        constructor
        · intro ⟨_, custom⟩
          rw [custom] at builtin
          cases builtin
        · exact ⟨_, rfl⟩
      · left
        rw [if_neg builtin]
        refine ⟨name, Bool.eq_false_iff.mpr builtin, _, fun r => ?_, rfl⟩
        cases r with
        | none => exact ⟨_, rfl⟩
        | some err => exact ⟨_, rfl⟩
    · right
      rw [if_pos valid]
      constructor
      · intro ⟨name, _⟩
        exact valid ((validateDomain_iff cfg _).mpr name)
      · exact ⟨_, rfl⟩

theorem addDomain_inserts (s e : Str) : Inserts (addDomain cfg (.ok s)) e ↔
    e = canonicalDomain cfg s ∧ DomainName e ∧ isBuiltin e = false := by
  rcases addDomain_cases cfg s with ⟨name, custom, f, -, runs⟩ | ⟨refused, a, done⟩
  · rw [runs]
    constructor
    · intro ⟨next, first⟩
      have same : canonicalDomain cfg s = e := by
        injection first with cmd
        injection cmd with cmd
        injection cmd
      rw [← same]
      exact ⟨rfl, name, custom⟩
    · intro ⟨same, _⟩
      rw [same]
      exact ⟨_, rfl⟩
  · rw [done]
    constructor
    · intro ⟨next, first⟩
      cases first
    · intro ⟨same, name, custom⟩
      rw [same] at name custom
      exact absurd ⟨name, custom⟩ refused

theorem addDomain_stores (s : Str) : (addDomain cfg (.ok s)).Issues fun c =>
    ∀ e, Stores e c → e = canonicalDomain cfg s ∧ DomainName e ∧ isBuiltin e = false := by
  rcases addDomain_cases cfg s with ⟨name, custom, f, done, runs⟩ | ⟨refused, a, done⟩
  · have finished : ∀ r, (f r).Issues fun c =>
        ∀ e, Stores e c → e = canonicalDomain cfg s ∧ DomainName e ∧ isBuiltin e = false := by
      intro r
      obtain ⟨a, is⟩ := done r
      rw [is]
      trivial
    rw [runs]
    apply issues_bind _ finished
    apply issues_sql
    · intro e stores
      cases stores
      exact ⟨rfl, name, custom⟩
    · intro r
      cases r with
      | error err => trivial
      | ok _ =>
        apply issues_redis
        · intro e stores
          cases stores
          exact ⟨rfl, name, custom⟩
        · intro r
          trivial
  · rw [done]
    trivial

end AddDomain

/-- The commands a lookup of a domain sends. -/
inductive LooksUp (domain : Str) : Cmd → Prop where
  | marker : LooksUp domain (.redis (.exists customDomainsWarmedRedisKey))
  | member : LooksUp domain (.redis (.sismember customDomainsRedisKey domain))
  | count : LooksUp domain (.sql (.countDomain domain))
  | warm : LooksUp domain .goWarmCache

/- The lookup of isEmailAllowed behind the domain mode. -/
def lookUp (cfg : Config) (domain : Str) : Except GoErr Bool → Act (Except GoErr Bool)
  | .error err => .done (.error err)
  | .ok _ => isDomainAllowed cfg.lowerRune domain

section Matching
variable {cfg : Config} (lower : LowersLikeGo cfg.lowerRune)
  (spaces : ∀ c : Char, 33 ≤ c.toNat → c.toNat < 127 → cfg.isSpace c = false)

theorem host_char {c : Char} (host : c = '.' ∨ hostChar c = true) :
    c.toLower = c ∧ 33 ≤ c.toNat ∧ c.toNat < 127 ∧ c ≠ '@' := by
  have range : (97 ≤ c.toNat ∧ c.toNat ≤ 122) ∨ (48 ≤ c.toNat ∧ c.toNat ≤ 57) ∨ c.toNat = 45 ∨
      c.toNat = 46 := by
    rcases host with dot | host
    · right; right; right
      rw [dot]
      rfl
    · rcases (hostChar_iff c).mp host with letter | digit | hyphen
      · exact Or.inl letter
      · exact Or.inr (Or.inl digit)
      · right; right; left
        rw [hyphen]
        rfl
  have other : c ≠ '@' := by
    intro same
    have code : c.toNat = 64 := by rw [same]; rfl
    omega
  have kept : c.toLower = c := by
    rcases toLower_cases c with ⟨low, high, -⟩ | ⟨-, same⟩
    · omega
    · exact same
  exact ⟨kept, by omega, by omega, other⟩

theorem name_chars {d : Str} (name : DomainName d) :
    ∀ c ∈ d, c.toLower = c ∧ 33 ≤ c.toNat ∧ c.toNat < 127 ∧ c ≠ '@' := by
  intro c member
  have parts := ((labels_iff d).mp name.labels).2
  exact host_char (separated_chars (labels_separated parts) c member)

include lower in
/- Text that is a name up to the case of its letters is lowered to that name. -/
theorem text_lowered {text d : Str} (name : DomainName d)
    (same : text.map Char.toLower = d.map Char.toLower) : toLower cfg text = d := by
  have fixed : d.map Char.toLower = d := by
    conv_rhs => rw [← List.map_id d]
    apply List.map_congr_left
    intro c member
    exact (name_chars name c member).1
  rw [fixed] at same
  rw [← same, toLower]
  apply List.map_congr_left
  intro c member
  have low : c.toLower ∈ d := by
    rw [← same]
    exact List.mem_map_of_mem member
  have code := (name_chars name c.toLower low).2.2.1
  apply lower.ascii
  rcases toLower_cases c with ⟨-, high, -⟩ | ⟨-, kept⟩
  · omega
  · rw [kept] at code
    omega

theorem text_no_at {text d : Str} (name : DomainName d)
    (same : text.map Char.toLower = d.map Char.toLower) : '@' ∉ text := by
  intro member
  have there : '@' ∈ d.map Char.toLower := by
    rw [← same]
    exact List.mem_map.mpr ⟨'@', member, rfl⟩
  obtain ⟨c, inside, made⟩ := List.mem_map.mp there
  obtain ⟨kept, -, -, other⟩ := name_chars name c inside
  rw [kept] at made
  exact other made

include spaces in
theorem trimSpace_fixed {d : Str} (name : DomainName d) : trimSpace cfg d = d := by
  have solid : ∀ s : Str, (∀ c ∈ s, c ∈ d) → s.dropWhile cfg.isSpace = s := by
    intro s inside
    rw [List.dropWhile_eq_self_iff]
    intro full blank
    obtain ⟨-, low, high, -⟩ := name_chars name _ (inside _ (List.getElem_mem full))
    rw [spaces _ low high] at blank
    cases blank
  rw [trimSpace, solid d fun c member => member, solid d.reverse (by simp), List.reverse_reverse]

include lower spaces in
theorem canonicalDomain_fixed {d : Str} (name : DomainName d) : canonicalDomain cfg d = d := by
  have lowered := text_lowered lower name rfl
  rw [canonicalDomain, trimSpace_fixed spaces name, lowered]
  split
  · rename_i rest
    exact absurd rfl (name_chars name '@' (by simp)).2.2.2
  · rfl

include lower in
/- The voter's side, for an address with this domain in letters of either case. -/
theorem isEmailAllowed_at {text d : Str} (name : DomainName d) (custom : isBuiltin d = false)
    (same : text.map Char.toLower = d.map Char.toLower) (front : Str) :
    isEmailAllowed cfg (front ++ '@' :: text) = getCustomDomainsOnly >>= lookUp cfg d := by
  have parts : cutLast '@' (front ++ '@' :: text) = some (front, text) :=
    cutLast_append (text_no_at name same)
  have lowered := text_lowered lower name same
  have refused : isEmailDomainAllowed cfg (front ++ '@' :: text) = false := by
    rw [isEmailDomainAllowed, parts]
    dsimp only
    rw [lowered, custom]
  rw [isEmailAllowed]
  congr 1
  funext mode
  cases mode with
  | error err => rfl
  | ok customOnly =>
    dsimp only
    rw [refused, Bool.and_false, if_neg (by simp), parts]
    dsimp only
    rw [lowered, lookUp]

include lower in
theorem lookUp_names {d : Str} (name : DomainName d) (mode : Except GoErr Bool) :
    (lookUp cfg d mode).Issues (LooksUp d) := by
  have fixed : d.map cfg.lowerRune = d := text_lowered lower name rfl
  have fallBack : (fallBackToDB d).Issues (LooksUp d) := by
    apply issues_sql .count
    intro r
    cases r with
    | error err => trivial
    | ok count => exact issues_issue .warm fun _ => trivial
  cases mode with
  | error err => trivial
  | ok customOnly =>
    rw [lookUp, isDomainAllowed, fixed]
    apply issues_redis .marker
    intro r
    cases r with
    | error err => exact fallBack
    | ok warmed =>
      dsimp only
      split
      · exact fallBack
      · exact ⟨.member, fun _ => trivial⟩

include lower spaces in
/- What AddDomain accepts, that it is stored in canonical form, and that this is the form
   a voter's address is looked up under. -/
theorem addDomain_exact (s : Str) :
    (∀ e, Inserts (addDomain cfg (.ok s)) e ↔
      e = canonicalDomain cfg s ∧ DomainName e ∧ isBuiltin e = false) ∧
    (addDomain cfg (.ok s)).Issues fun c => ∀ d, Stores d c →
      canonicalDomain cfg d = d ∧
      ∀ front text, text.map Char.toLower = d.map Char.toLower →
        isEmailAllowed cfg (front ++ '@' :: text) = getCustomDomainsOnly >>= lookUp cfg d ∧
          ∀ mode, (lookUp cfg d mode).Issues (LooksUp d) := by
  constructor
  · exact addDomain_inserts cfg s
  · apply issues_mono (addDomain_stores cfg s)
    intro c all d stores
    obtain ⟨-, name, custom⟩ := all d stores
    constructor
    · exact canonicalDomain_fixed lower spaces name
    · intro front text same
      exact ⟨isEmailAllowed_at lower name custom same front, lookUp_names lower name⟩

end Matching

theorem devConfig_spaces (c : Char) (low : 33 ≤ c.toNat) (_ : c.toNat < 127) :
    devConfig.isSpace c = false := by
  have solid : ∀ x : Char, x.toNat < 33 → c ≠ x := by
    intro x small same
    rw [same] at low
    omega
  simp only [devConfig, Char.isWhitespace, Bool.or_eq_false_iff, decide_eq_false_iff_not]
  exact ⟨⟨⟨solid _ (by decide), solid _ (by decide)⟩, solid _ (by decide)⟩, solid _ (by decide)⟩

/- A name with blanks around it, an at sign and capitals. -/
theorem addDomain_university :
    Inserts (addDomain devConfig (.ok " @My-Uni.edu.EG\n".toList)) "my-uni.edu.eg".toList := by
  have exact_ := @addDomain_exact devConfig lowers_char_toLower devConfig_spaces
    " @My-Uni.edu.EG\n".toList
  apply (exact_.1 _).mpr
  constructor
  · decide
  · constructor
    · exact (validateDomain_iff devConfig _).mp (by decide +kernel)
    · decide +kernel

end DomainGrammar
