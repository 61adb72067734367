import VotingApp.Lib.GoText

/- JSON texts. print writes the compact form of json.Marshal, parse reads one text
   as JSON.parse does: one value, blanks around tokens, and nothing after it.
   Numbers are integers. -/
namespace JsonText
open GoText

inductive Json where
  | null
  | bool (b : Bool)
  | num (n : Int)
  | str (s : Str)
  | arr (xs : List Json)
  | obj (fields : List (Str × Json))

def hexDigit (n : Nat) : Char := Nat.digitChar (n % 16)

def hex4 (n : Nat) : Str := [hexDigit (n / 4096), hexDigit (n / 256), hexDigit (n / 16), hexDigit n]

def hexValue (c : Char) : Option Nat :=
  if '0' ≤ c ∧ c ≤ '9' then some (c.toNat - 48)
  else if 'a' ≤ c ∧ c ≤ 'f' then some (c.toNat - 87)
  else if 'A' ≤ c ∧ c ≤ 'F' then some (c.toNat - 55)
  else none

def hexChar (a b c d : Char) : Option Char := do
  let n := (← hexValue a) * 4096 + (← hexValue b) * 256 + (← hexValue c) * 16 + (← hexValue d)
  if n.isValidChar then some (Char.ofNat n) else none

def shortEscape : Char → Option Char
  | '"' => some '"'
  | '\\' => some '\\'
  | '\n' => some 'n'
  | '\r' => some 'r'
  | '\t' => some 't'
  | '\x08' => some 'b'
  | '\x0c' => some 'f'
  | _ => none

def shortUnescape : Char → Option Char
  | '"' => some '"'
  | '\\' => some '\\'
  | '/' => some '/'
  | 'n' => some '\n'
  | 'r' => some '\r'
  | 't' => some '\t'
  | 'b' => some '\x08'
  | 'f' => some '\x0c'
  | _ => none

/- json.Marshal also escapes the HTML characters and the two line separators. -/
def needsHex (c : Char) : Bool :=
  c.toNat < 32 || c = '<' || c = '>' || c = '&' || c.toNat = 0x2028 || c.toNat = 0x2029

def escape (c : Char) : Str :=
  match shortEscape c with
  | some e => ['\\', e]
  | none => if needsHex c then '\\' :: 'u' :: hex4 c.toNat else [c]

def printString (s : Str) : Str := '"' :: s.flatMap escape ++ ['"']

mutual
def print : Json → Str
  | .null => "null".toList
  | .bool true => "true".toList
  | .bool false => "false".toList
  | .num n => itoa n
  | .str s => printString s
  | .arr [] => "[]".toList
  | .arr (x :: xs) => '[' :: (print x ++ printElems xs)
  | .obj [] => "{}".toList
  | .obj ((k, v) :: fields) => '{' :: (printString k ++ ':' :: (print v ++ printFields fields))
def printElems : List Json → Str
  | [] => [']']
  | x :: xs => ',' :: (print x ++ printElems xs)
def printFields : List (Str × Json) → Str
  | [] => ['}']
  | (k, v) :: fields => ',' :: (printString k ++ ':' :: (print v ++ printFields fields))
end

def isBlank (c : Char) : Bool := c = ' ' || c = '\n' || c = '\t' || c = '\r'

def skipBlanks (s : Str) : Str := s.dropWhile isBlank

def parseString : Str → Option (Str × Str)
  | [] => none
  | c :: rest =>
    if c = '"' then some ([], rest)
    else if c = '\\' then
      match rest with
      | [] => none
      | e :: rest =>
        if e = 'u' then
          match rest with
          | a :: b :: x :: y :: rest =>
            (hexChar a b x y).bind fun u => (parseString rest).map fun p => (u :: p.1, p.2)
          | _ => none
        else (shortUnescape e).bind fun u => (parseString rest).map fun p => (u :: p.1, p.2)
    else if c.toNat < 32 then none
    else (parseString rest).map fun p => (c :: p.1, p.2)

/- A number has no leading zero. -/
def parseNumber (negative : Bool) (s : Str) : Option (Json × Str) :=
  let ds := s.takeWhile Char.isDigit
  if ds.isEmpty || (ds.head? = some '0' && ds.length ≠ 1) then none
  else
    let n : Int := Nat.ofDigitChars 10 ds 0
    some (.num (if negative then -n else n), s.dropWhile Char.isDigit)

def parseWord (s : Str) : Option (Json × Str) :=
  if "null".toList.isPrefixOf s then some (.null, s.drop 4)
  else if "true".toList.isPrefixOf s then some (.bool true, s.drop 4)
  else if "false".toList.isPrefixOf s then some (.bool false, s.drop 5)
  else none

/- A member name and its colon. -/
def parseKey (s : Str) : Option (Str × Str) :=
  match skipBlanks s with
  | [] => none
  | c :: rest =>
    if c = '"' then
      match parseString rest with
      | none => none
      | some (k, rest) =>
        if (skipBlanks rest).head? = some ':' then some (k, (skipBlanks rest).tail) else none
    else none

mutual
/- The fuel bounds the calls; the length of the text is always enough. -/
def parseValue : Nat → Str → Option (Json × Str)
  | 0, _ => none
  | fuel + 1, s =>
    match skipBlanks s with
    | [] => none
    | c :: rest =>
      if c = '"' then (parseString rest).map fun p => (.str p.1, p.2)
      else if c = '[' then
        if (skipBlanks rest).head? = some ']' then some (.arr [], (skipBlanks rest).tail)
        else (parseElems fuel rest).map fun p => (.arr p.1, p.2)
      else if c = '{' then
        if (skipBlanks rest).head? = some '}' then some (.obj [], (skipBlanks rest).tail)
        else (parseFields fuel rest).map fun p => (.obj p.1, p.2)
      else if c = '-' then parseNumber true rest
      else if c.isDigit then parseNumber false (c :: rest)
      else parseWord (c :: rest)
def parseElems : Nat → Str → Option (List Json × Str)
  | 0, _ => none
  | fuel + 1, s =>
    match parseValue fuel s with
    | none => none
    | some (v, rest) =>
      match skipBlanks rest with
      | [] => none
      | c :: rest =>
        if c = ',' then (parseElems fuel rest).map fun p => (v :: p.1, p.2)
        else if c = ']' then some ([v], rest)
        else none
def parseFields : Nat → Str → Option (List (Str × Json) × Str)
  | 0, _ => none
  | fuel + 1, s =>
    match parseKey s with
    | none => none
    | some (k, rest) =>
      match parseValue fuel rest with
      | none => none
      | some (v, rest) =>
        match skipBlanks rest with
        | [] => none
        | c :: rest =>
          if c = ',' then (parseFields fuel rest).map fun p => ((k, v) :: p.1, p.2)
          else if c = '}' then some ([(k, v)], rest)
          else none
end

def parse (s : Str) : Option Json :=
  match parseValue (s.length + 1) s with
  | some (v, rest) => if (skipBlanks rest).isEmpty then some v else none
  | none => none

/- The member of an object that the last field of that name gives. -/
def Json.field (name : Str) : Json → Option Json
  | .obj fields => (fields.reverse.find? fun f => f.1 = name).map Prod.snd
  | _ => none

theorem skipBlanks_cons {c : Char} (solid : isBlank c = false) (s : Str) :
    skipBlanks (c :: s) = c :: s := by
  simp [skipBlanks, solid]

theorem hexValue_digit : ∀ n < 16, hexValue (Nat.digitChar n) = some n := by decide

theorem hexChar_hex4 {c : Char} (small : c.toNat < 65536) :
    hexChar (hexDigit (c.toNat / 4096)) (hexDigit (c.toNat / 256)) (hexDigit (c.toNat / 16))
      (hexDigit c.toNat) = some c := by
  have digit : ∀ n, hexValue (hexDigit n) = some (n % 16) := fun n =>
    hexValue_digit _ (Nat.mod_lt n (by omega))
  have sum : c.toNat / 4096 % 16 * 4096 + c.toNat / 256 % 16 * 256 + c.toNat / 16 % 16 * 16 +
      c.toNat % 16 = c.toNat := by omega
  have valid : c.toNat.isValidChar := c.valid
  simp [hexChar, digit, sum, valid]

theorem shortEscape_inverse {c e : Char} (h : shortEscape c = some e) :
    shortUnescape e = some c ∧ e ≠ 'u' := by
  unfold shortEscape at h
  split at h <;> cases h <;> decide

theorem needsHex_small {c : Char} (h : needsHex c = true) : c.toNat < 65536 := by
  simp only [needsHex, Bool.or_eq_true, decide_eq_true_eq] at h
  rcases h with ((((h | rfl) | rfl) | rfl) | h) | h
  · omega
  · decide
  · decide
  · decide
  · omega
  · omega

theorem parseString_quote (rest : Str) : parseString ('"' :: rest) = some ([], rest) := by
  rw [parseString.eq_def]
  rfl

theorem parseString_plain {c : Char} (no_quote : c ≠ '"') (no_slash : c ≠ '\\')
    (printable : ¬ c.toNat < 32) (rest : Str) :
    parseString (c :: rest) = (parseString rest).map fun p => (c :: p.1, p.2) := by
  rw [parseString.eq_def]
  simp [no_quote, no_slash, printable]

theorem parseString_short {c e : Char} (back : shortUnescape e = some c) (no_u : e ≠ 'u')
    (rest : Str) :
    parseString ('\\' :: e :: rest) = (parseString rest).map fun p => (c :: p.1, p.2) := by
  rw [parseString.eq_def]
  simp [back, no_u]

theorem parseString_hex {a b x y c : Char} (back : hexChar a b x y = some c) (rest : Str) :
    parseString ('\\' :: 'u' :: a :: b :: x :: y :: rest) =
      (parseString rest).map fun p => (c :: p.1, p.2) := by
  rw [parseString.eq_def]
  simp [back]

theorem parseString_escape (c : Char) (rest : Str) :
    parseString (escape c ++ rest) = (parseString rest).map fun p => (c :: p.1, p.2) := by
  unfold escape
  cases short : shortEscape c with
  | some e =>
    obtain ⟨back, no_u⟩ := shortEscape_inverse short
    simpa using parseString_short back no_u rest
  | none =>
    have no_quote : c ≠ '"' := by rintro rfl; exact absurd short (by decide)
    have no_slash : c ≠ '\\' := by rintro rfl; exact absurd short (by decide)
    by_cases hex : needsHex c = true
    · have back := hexChar_hex4 (needsHex_small hex)
      simpa [hex, hex4] using parseString_hex back rest
    · have printable : ¬ c.toNat < 32 := by
        simp only [needsHex, Bool.or_eq_true, decide_eq_true_eq, not_or] at hex
        exact hex.1.1.1.1.1
      simpa [hex] using parseString_plain no_quote no_slash printable rest

theorem parseString_print (s rest : Str) :
    parseString (s.flatMap escape ++ '"' :: rest) = some (s, rest) := by
  induction s with
  | nil => simpa using parseString_quote rest
  | cons c s ih => simp [List.append_assoc, parseString_escape, ih]

/- The text after a number does not continue it. -/
def Ends (rest : Str) : Prop := ∀ c ∈ rest.head?, c.isDigit = false

theorem digits_then {n : Nat} {rest : Str} (ends : Ends rest) :
    (Nat.toDigits 10 n ++ rest).takeWhile Char.isDigit = Nat.toDigits 10 n ∧
      (Nat.toDigits 10 n ++ rest).dropWhile Char.isDigit = rest := by
  have digits : ∀ c ∈ Nat.toDigits 10 n, c.isDigit = true := fun c member =>
    Nat.isDigit_of_mem_toDigits (by omega) (by omega) member
  rw [List.takeWhile_append_of_pos digits, List.dropWhile_append_of_pos digits]
  cases rest with
  | nil => simp
  | cons c rest => simp [ends c (by simp)]

theorem no_leading_zero (n : Nat) :
    (Nat.toDigits 10 n).head? = some '0' → (Nat.toDigits 10 n).length = 1 := by
  induction n using Nat.strongRecOn with
  | ind n ih =>
    intro zero
    by_cases small : n < 10
    · rw [Nat.toDigits_of_lt_base small]
      rfl
    · rw [Nat.toDigits_of_base_le (by omega) (by omega)] at zero
      have full : Nat.toDigits 10 (n / 10) ≠ [] := Nat.toDigits_ne_nil
      rw [List.head?_append, List.head?_eq_some_head full, Option.some_or,
        ← List.head?_eq_some_head full] at zero
      have one := ih (n / 10) (by omega) zero
      have lead : n / 10 < 10 ^ 1 := (Nat.length_toDigits_le_iff (by omega) (by omega)).mp (by omega)
      rw [Nat.toDigits_of_lt_base (by omega)] at zero
      have digit : Nat.digitChar (n / 10) = '0' := by simpa using zero
      have nonzero : ∀ d < 10, Nat.digitChar d = '0' → d = 0 := by decide
      have := nonzero (n / 10) (by omega) digit
      omega

theorem parseNumber_digits (negative : Bool) (n : Nat) {rest : Str} (ends : Ends rest) :
    parseNumber negative (Nat.toDigits 10 n ++ rest) =
      some (.num (if negative then -(n : Int) else n), rest) := by
  obtain ⟨taken, dropped⟩ := digits_then (n := n) ends
  have full : (Nat.toDigits 10 n).isEmpty = false := by simp
  have lead : ¬ ((Nat.toDigits 10 n).head? = some '0' ∧ (Nat.toDigits 10 n).length ≠ 1) :=
    fun h => h.2 (no_leading_zero n h.1)
  simp only [parseNumber, taken, dropped, full, Nat.ofDigitChars_ten_toDigits]
  simp [lead]

theorem parseValue_int (n : Int) {rest : Str} (ends : Ends rest) (fuel : Nat) :
    parseValue (fuel + 1) (itoa n ++ rest) = some (.num n, rest) := by
  unfold itoa
  split
  · have value : -(n.natAbs : Int) = n := by omega
    generalize n.natAbs = m at value ⊢
    simp [parseValue, skipBlanks_cons (c := '-') rfl, parseNumber_digits true m ends, value]
  · have value : (n.natAbs : Int) = n := by omega
    have number := parseNumber_digits false n.natAbs ends
    cases digits : Nat.toDigits 10 n.natAbs with
    | nil => exact absurd digits Nat.toDigits_ne_nil
    | cons c cs =>
      have digit : c.isDigit = true :=
        Nat.isDigit_of_mem_toDigits (b := 10) (n := n.natAbs) (by omega) (by omega) (by simp [digits])
      have solid : isBlank c = false := by
        by_contra blank
        simp only [isBlank, Bool.not_eq_false, Bool.or_eq_true, decide_eq_true_eq] at blank
        rcases blank with ((rfl | rfl) | rfl) | rfl <;> exact absurd digit (by decide)
      have not_quote : c ≠ '"' := by rintro rfl; exact absurd digit (by decide)
      have not_bracket : c ≠ '[' := by rintro rfl; exact absurd digit (by decide)
      have not_brace : c ≠ '{' := by rintro rfl; exact absurd digit (by decide)
      have not_minus : c ≠ '-' := by rintro rfl; exact absurd digit (by decide)
      rw [digits, List.cons_append] at number
      simp [parseValue, skipBlanks_cons solid, not_quote, not_bracket, not_brace, not_minus, digit,
        number, value]

theorem itoa_length (n : Int) : 0 < (itoa n).length := by
  unfold itoa
  split
  · simp
  · exact Nat.length_toDigits_pos

/- A printed value starts with a character that no list or object ends with. -/
theorem print_starts (j : Json) : ∃ c s, print j = c :: s ∧ isBlank c = false ∧ c ≠ ']' := by
  cases j with
  | null => exact ⟨'n', "ull".toList, by decide, by decide, by decide⟩
  | bool b =>
    cases b
    · exact ⟨'f', "alse".toList, by decide, by decide, by decide⟩
    · exact ⟨'t', "rue".toList, by decide, by decide, by decide⟩
  | num n =>
    simp only [print, itoa]
    split
    · exact ⟨'-', _, rfl, by decide, by decide⟩
    · cases digits : Nat.toDigits 10 n.natAbs with
      | nil => exact absurd digits Nat.toDigits_ne_nil
      | cons c cs =>
        have digit : c.isDigit = true :=
          Nat.isDigit_of_mem_toDigits (b := 10) (n := n.natAbs) (by omega) (by omega)
            (by simp [digits])
        refine ⟨c, cs, rfl, ?_, ?_⟩
        · by_contra blank
          simp only [isBlank, Bool.not_eq_false, Bool.or_eq_true, decide_eq_true_eq] at blank
          rcases blank with ((rfl | rfl) | rfl) | rfl <;> exact absurd digit (by decide)
        · rintro rfl
          exact absurd digit (by decide)
  | str s => exact ⟨'"', _, by rw [print, printString, List.cons_append], by decide, by decide⟩
  | arr xs =>
    cases xs with
    | nil => exact ⟨'[', [']'], by decide, by decide, by decide⟩
    | cons x xs => exact ⟨'[', _, by rw [print], by decide, by decide⟩
  | obj fields =>
    cases fields with
    | nil => exact ⟨'{', ['}'], by decide, by decide, by decide⟩
    | cons f fields => exact ⟨'{', _, by rw [print], by decide, by decide⟩

theorem parseKey_print (k s : Str) : parseKey (printString k ++ ':' :: s) = some (k, s) := by
  have colon := skipBlanks_cons (c := ':') rfl s
  simp [parseKey, printString, skipBlanks_cons (c := '"') rfl, parseString_print, colon]

mutual
/- Reading back what was printed, whatever text follows. -/
theorem parseValue_print : ∀ (j : Json) (fuel : Nat) (rest : Str),
    (print j).length ≤ fuel → Ends rest → parseValue fuel (print j ++ rest) = some (j, rest)
  | .null, fuel, rest, enough, ends => by
    obtain ⟨fuel, rfl⟩ : ∃ f, fuel = f + 1 := ⟨fuel - 1, by simp [print] at enough; omega⟩
    simp [print, parseValue, skipBlanks_cons (c := 'n') rfl, parseWord]
  | .bool true, fuel, rest, enough, ends => by
    obtain ⟨fuel, rfl⟩ : ∃ f, fuel = f + 1 := ⟨fuel - 1, by simp [print] at enough; omega⟩
    simp [print, parseValue, skipBlanks_cons (c := 't') rfl, parseWord]
  | .bool false, fuel, rest, enough, ends => by
    obtain ⟨fuel, rfl⟩ : ∃ f, fuel = f + 1 := ⟨fuel - 1, by simp [print] at enough; omega⟩
    simp [print, parseValue, skipBlanks_cons (c := 'f') rfl, parseWord]
  | .num n, fuel, rest, enough, ends => by
    have full := itoa_length n
    obtain ⟨fuel, rfl⟩ : ∃ f, fuel = f + 1 := ⟨fuel - 1, by simp only [print] at enough; omega⟩
    exact parseValue_int n ends fuel
  | .str s, fuel, rest, enough, ends => by
    obtain ⟨fuel, rfl⟩ : ∃ f, fuel = f + 1 :=
      ⟨fuel - 1, by simp [print, printString] at enough; omega⟩
    simp [print, printString, parseValue, skipBlanks_cons (c := '"') rfl, parseString_print]
  | .arr [], fuel, rest, enough, ends => by
    obtain ⟨fuel, rfl⟩ : ∃ f, fuel = f + 1 := ⟨fuel - 1, by simp [print] at enough; omega⟩
    simp [print, parseValue, skipBlanks_cons (c := '[') rfl, skipBlanks_cons (c := ']') rfl]
  | .arr (x :: xs), fuel, rest, enough, ends => by
    obtain ⟨fuel, rfl⟩ : ∃ f, fuel = f + 1 := ⟨fuel - 1, by simp [print] at enough; omega⟩
    have inner := parseElems_print x xs fuel rest
      (by simp [print] at enough ⊢; omega)
    obtain ⟨c, s, starts, solid, open_⟩ := print_starts x
    simp only [starts, List.cons_append] at inner
    simp [print, parseValue, skipBlanks_cons (c := '[') rfl, starts, skipBlanks_cons solid, open_,
      inner]
  | .obj [], fuel, rest, enough, ends => by
    obtain ⟨fuel, rfl⟩ : ∃ f, fuel = f + 1 := ⟨fuel - 1, by simp [print] at enough; omega⟩
    simp [print, parseValue, skipBlanks_cons (c := '{') rfl, skipBlanks_cons (c := '}') rfl]
  | .obj ((k, v) :: fields), fuel, rest, enough, ends => by
    obtain ⟨fuel, rfl⟩ : ∃ f, fuel = f + 1 := ⟨fuel - 1, by simp [print] at enough; omega⟩
    have inner := parseFields_print k v fields fuel rest
      (by simp [print] at enough ⊢; omega)
    simp only [printString, List.cons_append, List.append_assoc, List.nil_append] at inner
    simp [print, printString, parseValue, skipBlanks_cons (c := '{') rfl,
      skipBlanks_cons (c := '"') rfl, inner]
termination_by j => sizeOf j

theorem parseElems_print : ∀ (x : Json) (xs : List Json) (fuel : Nat) (rest : Str),
    (print x ++ printElems xs).length ≤ fuel →
      parseElems fuel (print x ++ (printElems xs ++ rest)) = some (x :: xs, rest)
  | x, [], fuel, rest, enough => by
    obtain ⟨fuel, rfl⟩ : ∃ f, fuel = f + 1 := ⟨fuel - 1, by simp [printElems] at enough; omega⟩
    have head := parseValue_print x fuel (']' :: rest)
      (by simp [printElems] at enough; omega) (by intro c; simp; rintro rfl; decide)
    simp [printElems, parseElems, head, skipBlanks_cons (c := ']') rfl]
  | x, y :: ys, fuel, rest, enough => by
    obtain ⟨fuel, rfl⟩ : ∃ f, fuel = f + 1 := ⟨fuel - 1, by simp [printElems] at enough; omega⟩
    have head := parseValue_print x fuel (',' :: (print y ++ (printElems ys ++ rest)))
      (by simp [printElems] at enough; omega) (by intro c; simp; rintro rfl; decide)
    have tail := parseElems_print y ys fuel rest
      (by simp [printElems] at enough ⊢; omega)
    simp [printElems, parseElems, head, tail, skipBlanks_cons (c := ',') rfl]
termination_by x xs => sizeOf x + sizeOf xs

theorem parseFields_print : ∀ (k : Str) (v : Json) (fields : List (Str × Json)) (fuel : Nat)
    (rest : Str), (printString k ++ ':' :: (print v ++ printFields fields)).length ≤ fuel →
      parseFields fuel (printString k ++ ':' :: (print v ++ (printFields fields ++ rest))) =
        some ((k, v) :: fields, rest)
  | k, v, [], fuel, rest, enough => by
    obtain ⟨fuel, rfl⟩ : ∃ f, fuel = f + 1 := ⟨fuel - 1, by simp [printFields] at enough; omega⟩
    have head := parseValue_print v fuel ('}' :: rest)
      (by simp [printFields] at enough; omega) (by intro c; simp; rintro rfl; decide)
    simp [printFields, parseFields, parseKey_print, head, skipBlanks_cons (c := '}') rfl]
  | k, v, (l, w) :: fields, fuel, rest, enough => by
    obtain ⟨fuel, rfl⟩ : ∃ f, fuel = f + 1 := ⟨fuel - 1, by simp [printFields] at enough; omega⟩
    have head := parseValue_print v fuel
      (',' :: (printString l ++ ':' :: (print w ++ (printFields fields ++ rest))))
      (by simp [printFields] at enough; omega) (by intro c; simp; rintro rfl; decide)
    have tail := parseFields_print l w fields fuel rest
      (by simp [printFields] at enough ⊢; omega)
    simp [printFields, parseFields, parseKey_print, head, tail, skipBlanks_cons (c := ',') rfl]
termination_by _ v fields => sizeOf v + sizeOf fields
end

theorem parse_print (j : Json) : parse (print j) = some j := by
  have read := parseValue_print j ((print j).length + 1) [] (by omega)
    (by simp [Ends])
  rw [List.append_nil] at read
  simp [parse, read, skipBlanks]

/- A text that goes on after one value is no JSON text. -/
theorem parse_print_more (j : Json) {rest : Str} (ends : Ends rest)
    (more : skipBlanks rest ≠ []) : parse (print j ++ rest) = none := by
  have read := parseValue_print j ((print j ++ rest).length + 1) rest
    (by simp; omega) ends
  simp only [parse, read]
  cases left : skipBlanks rest with
  | nil => exact absurd left more
  | cons c s => rfl

end JsonText
