import Mathlib.Algebra.Group.Int.Defs
import Mathlib.Algebra.Group.Nat.Defs
import Mathlib.Data.List.TakeWhile

/- The string operations of the Go standard library that the source uses. A string
   is its list of code points; Go's int has 64 bits. -/
namespace GoText

abbrev Str := List Char

/- Found once, for every text looked for in a list. -/
instance : LawfulBEq Str := inferInstance

def inInt64 (n : Int) : Bool := -2 ^ 63 ≤ n ∧ n < 2 ^ 63

/- strconv.Itoa, and the verb %d. -/
def itoa (n : Int) : Str :=
  if n < 0 then '-' :: Nat.toDigits 10 n.natAbs else Nat.toDigits 10 n.natAbs

/- The verb %06d for a value that is not negative. -/
def sprintf06d (n : Nat) : Str :=
  List.replicate (6 - (Nat.toDigits 10 n).length) '0' ++ Nat.toDigits 10 n

def parseDigits (negative : Bool) (ds : Str) : Option Int :=
  if ds.isEmpty then none
  else
    let n : Int := Nat.ofDigitChars 10 ds 0
    let v := if negative then -n else n
    if inInt64 v then some v else none

/- The code points that fmt takes for blanks, but for the newline. -/
def isScanSpace (c : Char) : Bool :=
  let n := c.toNat
  n = 0x9 || (0xb ≤ n && n ≤ 0xd) || n = 0x20 || n = 0x85 || n = 0xa0 || n = 0x1680 ||
    (0x2000 ≤ n && n ≤ 0x200a) || n = 0x2028 || n = 0x2029 || n = 0x202f || n = 0x205f || n = 0x3000

/- fmt.Sscanf with "%d": leading blanks, one sign, digits, and any rest ignored. It does not skip a
   newline. -/
def scanInt (s : Str) : Option Int :=
  match s.dropWhile isScanSpace with
  | '-' :: rest => parseDigits true (rest.takeWhile Char.isDigit)
  | '+' :: rest => parseDigits false (rest.takeWhile Char.isDigit)
  | rest => parseDigits false (rest.takeWhile Char.isDigit)

/- strconv.Atoi: the whole string is one number. -/
def atoi (s : Str) : Option Int :=
  let unsigned (negative : Bool) (ds : Str) :=
    if ds.all Char.isDigit then parseDigits negative ds else none
  match s with
  | '-' :: rest => unsigned true rest
  | '+' :: rest => unsigned false rest
  | rest => unsigned false rest

/- strings.Cut at the first occurrence of a byte. -/
def cut (sep : Char) : Str → Option (Str × Str)
  | [] => none
  | c :: cs => if c = sep then some ([], cs) else (cut sep cs).map fun p => (c :: p.1, p.2)

/- s[:at] and s[at+1:] for at = strings.LastIndex(s, sep). -/
def cutLast (sep : Char) (s : Str) : Option (Str × Str) :=
  (cut sep s.reverse).map fun p => (p.2.reverse, p.1.reverse)

/- strings.SplitN. -/
def splitN (sep : Char) : Nat → Str → List Str
  | 0, _ => []
  | 1, s => [s]
  | n + 2, s =>
    match cut sep s with
    | none => [s]
    | some (first, rest) => first :: splitN sep (n + 1) rest

/- strings.Contains. -/
def contains (pattern : Str) : Str → Bool
  | [] => pattern.isEmpty
  | c :: cs => pattern.isPrefixOf (c :: cs) || contains pattern cs

theorem cut_append {sep : Char} {first rest : Str} (clean : sep ∉ first) :
    cut sep (first ++ sep :: rest) = some (first, rest) := by
  induction first with
  | nil => simp [cut]
  | cons c first ih =>
    simp only [List.mem_cons, not_or] at clean
    simp [cut, Ne.symm clean.1, ih clean.2]

/- The part behind the last separator is free of it. -/
theorem cutLast_append {sep : Char} {front back : Str} (clean : sep ∉ back) :
    cutLast sep (front ++ sep :: back) = some (front, back) := by
  have clean_reverse : sep ∉ back.reverse := by
    intro member
    exact clean (List.mem_reverse.mp member)
  have turned : (front ++ sep :: back).reverse = back.reverse ++ sep :: front.reverse := by simp
  rw [cutLast, turned, cut_append clean_reverse]
  simp

theorem cut_some {sep : Char} {s first rest : Str} (found : cut sep s = some (first, rest)) :
    s = first ++ sep :: rest ∧ sep ∉ first := by
  induction s generalizing first with
  | nil => cases found
  | cons c s ih =>
    unfold cut at found
    split at found
    · rename_i here
      cases found
      rw [here]
      exact ⟨rfl, List.not_mem_nil⟩
    · rename_i other
      obtain ⟨parts, inside, same⟩ := Option.map_eq_some_iff.mp found
      cases same
      obtain ⟨shape, clean⟩ := ih inside
      constructor
      · rw [List.cons_append, ← shape]
      · intro member
        rcases List.mem_cons.mp member with same | member
        · exact other same.symm
        · exact clean member

theorem cut_none {sep : Char} {s : Str} (absent : cut sep s = none) : sep ∉ s := by
  induction s with
  | nil => exact List.not_mem_nil
  | cons c s ih =>
    unfold cut at absent
    split at absent
    · cases absent
    · rename_i other
      intro member
      rcases List.mem_cons.mp member with same | member
      · exact other same.symm
      · exact ih (Option.map_eq_none_iff.mp absent) member

/- The last separator, found or not. -/
theorem cutLast_cases (sep : Char) (s : Str) :
    (cutLast sep s = none ∧ sep ∉ s) ∨ ∃ front back, cutLast sep s = some (front, back) ∧
      s = front ++ sep :: back ∧ sep ∉ back := by
  cases found : cut sep s.reverse with
  | none =>
    left
    constructor
    · rw [cutLast, found, Option.map_none]
    · intro member
      exact cut_none found (List.mem_reverse.mpr member)
  | some parts =>
    obtain ⟨first, rest⟩ := parts
    obtain ⟨shape, clean⟩ := cut_some found
    refine Or.inr ⟨rest.reverse, first.reverse, by rw [cutLast, found]; rfl, ?_, ?_⟩
    · have turned := congrArg List.reverse shape
      simpa using turned
    · intro member
      exact clean (List.mem_reverse.mp member)

theorem cut_takeWhile (sep : Char) (s : Str) :
    ((cut sep s).map Prod.fst).getD s = s.takeWhile (· ≠ sep) := by
  induction s with
  | nil => rfl
  | cons c s ih =>
    by_cases here : c = sep
    · simp [cut, here]
    · cases rest : cut sep s with
      | none =>
        rw [rest] at ih
        simpa [cut, here, rest] using ih
      | some parts =>
        rw [rest] at ih
        simpa [cut, here, rest] using ih

theorem colon_not_digit {n : Nat} : ':' ∉ Nat.toDigits 10 n := by
  intro member
  have := Nat.isDigit_of_mem_toDigits (b := 10) (by omega) (by omega) member
  exact absurd this (by decide)

theorem colon_not_in_itoa (n : Int) : ':' ∉ itoa n := by
  unfold itoa
  split
  · simpa using colon_not_digit
  · exact colon_not_digit

theorem digits_scanned (n : Nat) :
    (Nat.toDigits 10 n).takeWhile Char.isDigit = Nat.toDigits 10 n := by
  rw [List.takeWhile_eq_self_iff]
  intro c member
  exact Nat.isDigit_of_mem_toDigits (by omega) (by omega) member

theorem parseDigits_toDigits (negative : Bool) (n : Nat) :
    parseDigits negative (Nat.toDigits 10 n) =
      if inInt64 (if negative then -(n : Int) else n) then
        some (if negative then -(n : Int) else n) else none := by
  have full : (Nat.toDigits 10 n).isEmpty = false := by
    simp
  simp [parseDigits, full, Nat.ofDigitChars_ten_toDigits]

theorem digit_solid {c : Char} (digit : c.isDigit = true) : isScanSpace c = false := by
  simp only [Char.isDigit, Bool.and_eq_true, decide_eq_true_eq] at digit
  have low : 48 ≤ c.toNat := UInt32.le_iff_toNat_le.mp digit.1
  have high : c.toNat ≤ 57 := UInt32.le_iff_toNat_le.mp digit.2
  simp only [isScanSpace, Bool.or_eq_false_iff, Bool.and_eq_false_iff, decide_eq_false_iff_not]
  omega

/- A digit is no blank and no sign, so the scan starts at the digits. -/
theorem scan_starts_at_digits (n : Nat) :
    scanInt (Nat.toDigits 10 n) = parseDigits false (Nat.toDigits 10 n) := by
  have digits := digits_scanned n
  cases eq : Nat.toDigits 10 n with
  | nil => exact absurd eq Nat.toDigits_ne_nil
  | cons c cs =>
    have digit : c.isDigit = true :=
      Nat.isDigit_of_mem_toDigits (b := 10) (n := n) (by omega) (by omega) (by simp [eq])
    have no_blank : isScanSpace c = false := digit_solid digit
    have no_minus : c ≠ '-' := by rintro rfl; exact absurd digit (by decide)
    have no_plus : c ≠ '+' := by rintro rfl; exact absurd digit (by decide)
    rw [eq] at digits
    simp only [scanInt, List.dropWhile_cons, no_blank, Bool.false_eq_true, ↓reduceIte]
    split
    · rename_i rest same
      exact absurd (List.cons.inj same).1 no_minus
    · rename_i rest same
      exact absurd (List.cons.inj same).1 no_plus
    · rw [digits]

/- Printing an int and scanning it back. -/
theorem scanInt_itoa (n : Int) : scanInt (itoa n) = if inInt64 n then some n else none := by
  unfold itoa
  split
  · rename_i negative
    have value : -(n.natAbs : Int) = n := by omega
    generalize n.natAbs = m at value ⊢
    have minus : isScanSpace '-' = false := by decide
    simp [scanInt, minus, digits_scanned, parseDigits_toDigits, value]
  · rename_i nonneg
    have value : (n.natAbs : Int) = n := by omega
    rw [scan_starts_at_digits, parseDigits_toDigits]
    simp only [Bool.false_eq_true, ↓reduceIte, value]

end GoText
