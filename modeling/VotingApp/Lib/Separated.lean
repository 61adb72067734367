import VotingApp.Lib.GoText

/-!
Texts made of non-empty words with a single separator between two of them. What is
cut off such a text is one again exactly when the cut leaves a whole last word.
-/
namespace Separated
open GoText
variable {sep : Char} {good : Char → Bool}

def isWord (good : Char → Bool) (p : Str) : Bool := !p.isEmpty && p.all good

/-- Every part between two separators, or before the first and behind the last, is a word. -/
def separated (sep : Char) (good : Char → Bool) (s : Str) : Bool :=
  (s.splitOn sep).all (isWord good)

theorem isWord_iff (p : Str) : isWord good p = true ↔ p ≠ [] ∧ ∀ c ∈ p, good c = true := by
  simp [isWord]

theorem separated_append (a b : Str) :
    separated sep good (a ++ sep :: b) = (separated sep good a && separated sep good b) := by
  rw [separated, List.splitOn_append_cons_self, List.all_append, separated, separated]

theorem separated_word {p : Str} (clean : sep ∉ p) :
    separated sep good p = isWord good p := by
  rw [separated, List.splitOn_eq_singleton clean]
  simp

theorem separated_nil : separated sep good [] = false := by
  rw [separated_word List.not_mem_nil]
  rfl

theorem separated_ne_nil {s : Str} (h : separated sep good s = true) : s ≠ [] := by
  intro empty
  rw [empty, separated_nil] at h
  cases h

theorem separated_head {s : Str} (h : separated sep good s = true) : s.head? ≠ some sep := by
  cases s with
  | nil => simp
  | cons c s =>
    intro first
    have same : c = sep := by simpa using first
    have split := @separated_append sep good [] s
    rw [List.nil_append, separated_nil, Bool.false_and] at split
    rw [same, split] at h
    cases h

theorem separated_last {s : Str} (h : separated sep good s = true) : s.getLast? ≠ some sep := by
  intro last
  obtain ⟨front, shape⟩ := List.getLast?_eq_some_iff.mp last
  rw [shape, separated_append, separated_nil, Bool.and_false] at h
  cases h

theorem chars_of_parts (parts : List Str) (words : ∀ p ∈ parts, isWord good p = true) :
    ∀ c ∈ [sep].intercalate parts, c = sep ∨ good c = true := by
  induction parts with
  | nil => simp
  | cons p parts ih =>
    have word := (isWord_iff p).mp (words p (by simp))
    have rest := ih fun q member => words q (by simp [member])
    cases parts with
    | nil =>
      intro c member
      rw [List.intercalate_singleton] at member
      exact Or.inr (word.2 c member)
    | cons q parts =>
      intro c member
      rw [List.intercalate_cons_cons] at member
      simp only [List.append_assoc, List.mem_append, List.mem_singleton] at member
      rcases member with inside | same | later
      · exact Or.inr (word.2 c inside)
      · exact Or.inl same
      · exact rest c later

/- Between the separators there is nothing but good characters. -/
theorem separated_chars {s : Str} (h : separated sep good s = true) :
    ∀ c ∈ s, c = sep ∨ good c = true := by
  have words : ∀ p ∈ s.splitOn sep, isWord good p = true := by
    simpa [separated] using h
  have chars := @chars_of_parts sep good (s.splitOn sep) words
  rw [List.intercalate_splitOn] at chars
  exact chars

/- What stands before any character of such a text. -/
theorem separated_prefix {front back : Str} {c : Char}
    (h : separated sep good (front ++ c :: back) = true) :
    separated sep good front = true ↔ front ≠ [] ∧ front.getLast? ≠ some sep := by
  constructor
  · intro whole
    exact ⟨separated_ne_nil whole, separated_last whole⟩
  · intro ⟨full, last⟩
    rcases cutLast_cases sep front with ⟨-, clean⟩ | ⟨a, b, -, shape, clean⟩
    · rw [separated_word clean, isWord_iff]
      constructor
      · exact full
      · intro x member
        rcases separated_chars h x (by simp [member]) with same | fine
        · rw [same] at member
          exact absurd member clean
        · exact fine
    · rw [shape, List.append_assoc, List.cons_append, separated_append, Bool.and_eq_true] at h
      have some_b : b ≠ [] := by
        intro empty
        rw [shape, empty] at last
        simp at last
      rw [shape, separated_append, h.1, Bool.true_and, separated_word clean, isWord_iff]
      constructor
      · exact some_b
      · intro x member
        rcases separated_chars h.2 x (by simp [member]) with same | fine
        · rw [same] at member
          exact absurd member clean
        · exact fine

/- Such a text without its separators is one word. -/
theorem separated_filter {s : Str} (chars : ∀ c ∈ s, c = sep ∨ good c = true) :
    separated sep good (s.filter (· ≠ sep)) = true ↔ ∃ c ∈ s, c ≠ sep := by
  have clean : sep ∉ s.filter (· ≠ sep) := by simp
  rw [separated_word clean, isWord_iff]
  constructor
  · intro ⟨full, _⟩
    obtain ⟨c, member⟩ := List.exists_mem_of_ne_nil _ full
    have kept := List.mem_filter.mp member
    exact ⟨c, kept.1, by simpa using kept.2⟩
  · intro ⟨c, member, other⟩
    constructor
    · exact List.ne_nil_of_mem (List.mem_filter.mpr ⟨member, by simpa using other⟩)
    · intro x inside
      have kept := List.mem_filter.mp inside
      rcases chars x kept.1 with same | fine
      · exact absurd same (by simpa using kept.2)
      · exact fine

theorem splitOn_map {f : Char → Char} {s : Str} (same : ∀ c ∈ s, f c = sep ↔ c = sep) :
    (s.map f).splitOn sep = (s.splitOn sep).map (List.map f) := by
  induction s with
  | nil => simp
  | cons c s ih =>
    have rest := ih fun x member => same x (by simp [member])
    have head := same c (by simp)
    rw [List.map_cons, List.splitOn_cons_eq_if_modifyHead, List.splitOn_cons_eq_if_modifyHead, rest]
    by_cases here : c = sep
    · have turned : f sep = sep := by
        rw [here] at head
        exact head.mpr rfl
      simp [here, turned]
    · have kept : f c ≠ sep := fun turned => here (head.mp turned)
      obtain ⟨p, parts, shape⟩ := List.exists_cons_of_ne_nil (List.splitOn_ne_nil sep s)
      simp [here, kept, shape]

/- Rewriting the characters keeps the words, if the separator stays one and nothing joins it. -/
theorem separated_map {f : Char → Char} {s : Str} (fixed : f sep = sep) (bad : good sep = false)
    (stays : ∀ c, good c = true → good (f c) = true) (h : separated sep good s = true) :
    separated sep good (s.map f) = true := by
  have same : ∀ c ∈ s, f c = sep ↔ c = sep := by
    intro c member
    constructor
    · intro turned
      rcases separated_chars h c member with here | fine
      · exact here
      · have still := stays c fine
        rw [turned, bad] at still
        cases still
    · intro here
      rw [here, fixed]
  simp only [separated, List.all_eq_true] at h
  rw [separated, splitOn_map same, List.all_eq_true]
  intro q member
  obtain ⟨p, there, turned⟩ := List.mem_map.mp member
  have word := (isWord_iff p).mp (h p there)
  rw [← turned, isWord_iff]
  constructor
  · simpa using word.1
  · intro c inside
    obtain ⟨x, of_p, made⟩ := List.mem_map.mp inside
    rw [← made]
    exact stays x (word.2 x of_p)

/- strings.Split returns the parts. -/
theorem splitN_splitOn (n : Nat) (s : Str) (long : s.length ≤ n) :
    splitN sep (n + 1) s = s.splitOn sep := by
  induction n generalizing s with
  | zero =>
    have empty : s = [] := List.eq_nil_of_length_eq_zero (by omega)
    simp [empty, splitN]
  | succ n ih =>
    unfold splitN
    cases found : cut sep s with
    | none => rw [List.splitOn_eq_singleton (cut_none found)]
    | some parts =>
      obtain ⟨first, rest⟩ := parts
      obtain ⟨shape, clean⟩ := cut_some found
      have shorter : rest.length ≤ n := by
        rw [shape] at long
        simp at long
        omega
      rw [shape, List.splitOn_append_cons_self_of_not_mem clean]
      dsimp only
      rw [ih rest shorter]

end Separated
