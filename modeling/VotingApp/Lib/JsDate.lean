import VotingApp.Lib.GoTime

/- The Date of a browser: the milliseconds since the origin of GoTime's instants, before it
   too. Its ISO text is read by Go whenever its year has four digits. -/
namespace JsDate
open GoText GoTime

def millisecond : Nat := 1000000

def civilDate (days : Int) : Civil :=
  let c := civil (days % 146097).toNat
  { c with year := c.year + 400 * (days / 146097) }

/- Any other year has a sign and six digits. -/
def isoYear (year : Int) : Str :=
  if 0 ≤ year ∧ year ≤ 9999 then padded 4 year.toNat
  else (if year < 0 then '-' else '+') :: padded 6 year.natAbs

def yearAt (ms : Int) : Int := (civilDate (ms / 86400000)).year

def toISOString (ms : Int) : Str :=
  let c := civilDate (ms / 86400000)
  let s := (ms / 1000 % 86400).toNat
  isoYear c.year ++ '-' :: (padded 2 c.month ++ '-' :: (padded 2 c.day ++ 'T' ::
    (padded 2 (s / 3600) ++ ':' :: (padded 2 (s / 60 % 60) ++ ':' :: (padded 2 (s % 60) ++
      ('.' :: padded 3 (ms % 1000).toNat ++ ['Z']))))))

/- The Date constructor on a text that MarshalJSON has written; none is an invalid date. -/
def newDate (s : Str) : Option Int := (GoTime.parse false s).map fun t => (t / millisecond : Nat)

theorem civilDate_nat (days : Nat) : civilDate days = civil days := by
  have era : days % 146097 / 146097 = 0 := by omega
  have within : days % 146097 % 146097 = days % 146097 := by omega
  have to_nat : ((days : Int) % 146097).toNat = days % 146097 := by omega
  simp only [civilDate, to_nat, civil, era, within, Civil.mk.injEq, and_true]
  omega

/- Before the origin every year is negative. -/
theorem year_before {days : Int} (before : days < 0) : (civilDate days).year < 0 := by
  have inside : (days % 146097).toNat < 146097 := by omega
  have within : (days % 146097).toNat % 146097 = (days % 146097).toNat := Nat.mod_eq_of_lt inside
  have years := (yearOfEra_bounds inside).1
  have carried : ∀ month, carry month ≤ 1 := by
    intro month
    unfold carry
    split <;> omega
  have one := carried (monthAt
    ((5 * ((days % 146097).toNat - daysBefore (yearOfEra (days % 146097).toNat)) + 2) / 153))
  simp only [civilDate, civil, within]
  omega

theorem nat_of_four {ms : Int} (four : 0 ≤ yearAt ms ∧ yearAt ms ≤ 9999) : ∃ n : Nat, ms = n := by
  apply Int.eq_ofNat_of_zero_le
  by_contra negative
  have before := @year_before (ms / 86400000) (by omega)
  rw [yearAt] at four
  omega

theorem readFraction_millis (lenient : Bool) {n : Nat} (fits : n < 10 ^ 3) :
    readFraction lenient ('.' :: padded 3 n ++ ['Z']) = (n * millisecond, ['Z']) := by
  have digits := padded_digits 3 n
  have length := padded_length 3 n
  have taken : (padded 3 n ++ ['Z']).takeWhile Char.isDigit = padded 3 n := by
    rw [List.takeWhile_append_of_pos digits]
    simp
  have front : (padded 3 n).take 9 = padded 3 n := List.take_of_length_le (by omega)
  have ne_nil : padded 3 n ≠ [] := by
    intro empty
    rw [empty] at length
    cases length
  simp only [readFraction, List.cons_append, List.drop_succ_cons, List.drop_zero, taken, front, length,
    List.head?_cons, true_or, true_and, ne_nil, ne_eq, not_false_eq_true, ↓reduceIte,
    Nat.ofDigitChars_append, padded_value fits]
  have rest : (padded 3 n ++ ['Z']).drop (1 + 2) = ['Z'] := by
    rw [List.drop_append_of_le_length (by omega), List.drop_of_length_le (by omega), List.nil_append]
  rw [Nat.ofDigitChars_replicate_zero, rest]
  simp [millisecond, Nat.mul_comm]

theorem readField_signed {c : Char} (sign : c.isDigit = false) (width : Nat) (rest : Str) :
    readField (width + 1) (c :: rest) = none := by
  simp [readField, sign]

/- Go reads exactly the dates whose years have four digits, to the millisecond. -/
theorem parse_toISOString (ms : Int) : GoTime.parse true (toISOString ms) =
    if 0 ≤ yearAt ms ∧ yearAt ms ≤ 9999 then some (ms.toNat * millisecond) else none := by
  split
  · rename_i four
    obtain ⟨n, rfl⟩ := nat_of_four four
    have days : (n : Int) / 86400000 = (n / 86400000 : Nat) := by omega
    have millis : ((n : Int) % 1000).toNat = n % 1000 := by omega
    have seconds : ((n : Int) / 1000 % 86400).toNat = n / 1000 % 86400 := by omega
    rw [yearAt, days, civilDate_nat] at four
    have text := @parse_text true (n / 86400000) (n / 1000 % 86400) _ _ (by omega) (by omega) (by omega)
      (readFraction_millis true (by omega : n % 1000 < 10 ^ 3))
    rw [toISOString, days, civilDate_nat, isoYear, if_pos four, millis, seconds, text, Int.toNat_natCast,
      Option.some.injEq, millisecond, second]
    omega
  · rename_i other
    rw [yearAt] at other
    rw [toISOString, isoYear, if_neg other, GoTime.parse, List.cons_append, readField_signed]
    · rfl
    · split <;> rfl

/- The year of a date that is not before the origin is that of its instant. -/
theorem yearOf_millis (n : Nat) : yearOf (n * millisecond) = yearAt n := by
  have days : (n : Int) / 86400000 = (n / 86400000 : Nat) := by omega
  have same : n * millisecond / second / secondsADay = n / 86400000 := by
    rw [millisecond, second, secondsADay]
    omega
  rw [yearOf, same, yearAt, days, civilDate_nat]

theorem printable_millis {ms : Int} (four : 0 ≤ yearAt ms ∧ yearAt ms ≤ 9999) :
    printable (ms.toNat * millisecond) = true := by
  obtain ⟨n, rfl⟩ := nat_of_four four
  rw [printable, Int.toNat_natCast, yearOf_millis]
  simpa using four

/- A whole second is a date, and the same one again. -/
theorem newDate_format {t : Nat} (whole : t % second = 0) (fits : printable t = true) :
    newDate (format t) = some ((t / millisecond : Nat) : Int) := by
  rw [newDate, parse_format whole fits, Option.map_some]

theorem millis_of_second {t : Nat} (whole : t % second = 0) :
    t / millisecond * millisecond = t := by
  rw [millisecond]
  rw [second] at whole
  omega

end JsDate
