import VotingApp.Aliases

/-!
The canonical form decides the alias relation. Every step normalizeEmail takes on an
address is a chain of alias steps, so its result is the chosen alias of its argument.
-/
namespace CanonicalForm
open GoText Handlers Frames Aliases

def Ascii (s : Str) : Prop := ∀ c ∈ s, c.toNat < 128

instance (s : Str) : Decidable (Ascii s) :=
  decidable_of_iff ((s.all fun c => decide (c.toNat < 128)) = true) (by simp [Ascii])

theorem alias_refl (a : Str) : Alias a a := Relation.EqvGen.refl a

theorem alias_step {a b : Str} (step : AliasStep a b) : Alias a b := Relation.EqvGen.rel a b step

theorem alias_symm {a b : Str} (chain : Alias a b) : Alias b a := Relation.EqvGen.symm a b chain

theorem alias_trans {a b c : Str} (first : Alias a b) (second : Alias b c) : Alias a c :=
  Relation.EqvGen.trans a b c first second

/- A local part is its stripped form, or that form with a suffix. -/
theorem stripPlus_cases (s : Str) :
    stripPlus s = s ∨ ∃ suffix, s = stripPlus s ++ '+' :: suffix := by
  unfold stripPlus
  cases found : cut '+' s with
  | none => exact Or.inl rfl
  | some parts =>
    obtain ⟨first, rest⟩ := parts
    obtain ⟨shape, -⟩ := cut_some found
    exact Or.inr ⟨rest, shape⟩

theorem stripped_alias (localPart : Str) {domain : Str} (clean : '@' ∉ domain) :
    Alias (localPart ++ '@' :: domain) (stripPlus localPart ++ '@' :: domain) := by
  rcases stripPlus_cases localPart with same | ⟨suffix, shape⟩
  · rw [same]
    exact alias_refl _
  · have added := AliasStep.plusSuffix (stripPlus localPart) suffix clean
    rw [← shape] at added
    exact alias_symm (alias_step added)

/- Dots leave one by one; those in front have left already. -/
theorem dots_alias (kept localPart : Str) {domain : Str} (gmail : isGmail domain) :
    Alias ((kept ++ localPart) ++ '@' :: domain)
      ((kept ++ localPart.filter (· ≠ '.')) ++ '@' :: domain) := by
  induction localPart generalizing kept with
  | nil => exact alias_refl _
  | cons c rest ih =>
    by_cases dot : c = '.'
    · subst c
      have without : ('.' :: rest).filter (· ≠ '.') = rest.filter (· ≠ '.') := by simp
      rw [without]
      exact alias_trans (alias_symm (alias_step (.dot kept rest gmail))) (ih kept)
    · have with_head : (c :: rest).filter (· ≠ '.') = c :: rest.filter (· ≠ '.') := by simp [dot]
      have moved := ih (kept ++ [c])
      simp only [List.append_assoc, List.singleton_append] at moved
      rw [with_head]
      simpa only [List.append_assoc, List.cons_append] using moved

theorem gmail_alias (localPart : Str) {domain : Str} (gmail : isGmail domain) :
    Alias (localPart ++ '@' :: domain) (localPart ++ '@' :: "gmail.com".toList) := by
  rcases gmail with rfl | rfl
  · exact alias_refl _
  · exact alias_symm (alias_step (.exchange localPart))

section Canonical
variable {cfg : Config} (lower : LowersLikeGo cfg.lowerRune)
include lower

theorem toLower_ascii {a : Str} (ascii : Ascii a) : toLower cfg a = a.map Char.toLower := by
  apply List.map_congr_left
  intro c member
  exact lower.ascii c (ascii c member)

theorem lowered_alias {a : Str} (ascii : Ascii a) : Alias a (toLower cfg a) := by
  apply alias_step
  apply AliasStep.letterCase
  rw [toLower_ascii lower ascii, List.map_map]
  apply List.map_congr_left
  intro c _
  exact (toLower_twice c).symm

/- The canonical form is an alias of the address it is made from. -/
theorem normalizeEmail_alias {a : Str} (ascii : Ascii a) (at_sign : '@' ∈ a) :
    Alias a (normalizeEmail cfg a) := by
  have kept : '@' ∈ toLower cfg a := by
    have same : cfg.lowerRune '@' = '@' := lower.ascii '@' (by decide)
    rw [← same]
    exact List.mem_map_of_mem at_sign
  apply alias_trans (lowered_alias lower ascii)
  rcases cutLast_cases '@' (toLower cfg a) with ⟨-, absent⟩ | ⟨front, back, parts, shape, clean⟩
  · exact absurd kept absent
  · have stripped := stripped_alias front clean
    rw [shape]
    simp only [normalizeEmail, parts]
    split
    · rename_i provider
      have gmail : isGmail back := by
        simpa only [isGmail, Bool.or_eq_true, decide_eq_true_eq] using provider
      have undotted := dots_alias [] (stripPlus front) gmail
      exact alias_trans stripped (alias_trans undotted (gmail_alias _ gmail))
    · exact stripped

/- Two addresses share their canonical form exactly when they are aliases, and the
   canonical form is one of them and its own canonical form. -/
theorem canonical_form_exact {a b : Str} (ascii : Ascii a) (at_sign : '@' ∈ a)
    (ascii' : Ascii b) (at_sign' : '@' ∈ b) :
    (normalizeEmail cfg a = normalizeEmail cfg b ↔ Alias a b) ∧
      Alias a (normalizeEmail cfg a) ∧
      normalizeEmail cfg (normalizeEmail cfg a) = normalizeEmail cfg a := by
  have canonical := normalizeEmail_alias lower ascii at_sign
  have canonical' := normalizeEmail_alias lower ascii' at_sign'
  constructor
  · constructor
    · intro same
      rw [same] at canonical
      exact alias_trans canonical (alias_symm canonical')
    · exact alias_canonical lower
  · constructor
    · exact canonical
    · exact (alias_canonical lower canonical).symm

end Canonical

/- Suffixes with dots, signs and letters of either case on both sides. -/
theorem canonical_form_gmail :
    Alias "A.b+x.+y@z@GMail.com".toList "ab@googlemail.com".toList := by
  have lower : LowersLikeGo devConfig.lowerRune := lowers_char_toLower
  have both := canonical_form_exact lower (a := "A.b+x.+y@z@GMail.com".toList)
    (b := "ab@googlemail.com".toList) (by decide) (by decide)
    (by decide) (by decide)
  exact both.1.mp (by decide)

end CanonicalForm
