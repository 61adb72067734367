import VotingApp.Lib.GoText

/- Instants and their RFC 3339 texts in UTC. An instant counts nanoseconds from the
   first of March of the year -400, so that every date of the years 0 to 9999 is
   a natural number. -/
namespace GoTime
open GoText

def second : Nat := 1000000000
def minute : Nat := 60 * second
def hour : Nat := 60 * minute
def secondsADay : Nat := 86400

structure Civil where
  year : Int
  month : Nat
  day : Nat

/- A year begins in March, so its leap day comes last, in the last year of four, of
   the era's last century also in that century's last year. -/
def yearOfEra (dayOfEra : Nat) : Nat :=
  let century := min (dayOfEra / 36524) 3
  let dayOfCentury := dayOfEra - 36524 * century
  100 * century + 4 * (dayOfCentury / 1461) + min (dayOfCentury % 1461 / 365) 3

def daysBefore (yearOfEra : Nat) : Nat := 365 * yearOfEra + yearOfEra / 4 - yearOfEra / 100

/- The months of that year, from zero. -/
def monthAt (march : Nat) : Nat := if march < 10 then march + 3 else march - 9

def marchOf (month : Nat) : Nat := if month < 3 then month + 9 else month - 3

def carry (month : Nat) : Nat := if month < 3 then 1 else 0

def civil (days : Nat) : Civil :=
  let dayOfEra := days % 146097
  let years := yearOfEra dayOfEra
  let dayOfYear := dayOfEra - daysBefore years
  let march := (5 * dayOfYear + 2) / 153
  { year := (400 * (days / 146097) + years + carry (monthAt march) : Nat) - 400
    month := monthAt march
    day := dayOfYear - (153 * march + 2) / 5 + 1 }

def daysOf (c : Civil) : Nat :=
  let years := (c.year + 400).toNat - carry c.month
  146097 * (years / 400) + daysBefore (years % 400) + (153 * marchOf c.month + 2) / 5 + c.day - 1

def isLeap (year : Int) : Bool := year % 4 = 0 && (year % 100 ≠ 0 || year % 400 = 0)

def daysIn (c : Civil) : Nat :=
  if c.month = 2 then (if isLeap c.year then 29 else 28)
  else if c.month = 4 || c.month = 6 || c.month = 9 || c.month = 11 then 30 else 31

def yearOf (t : Nat) : Int := (civil (t / second / secondsADay)).year

def padded : Nat → Nat → Str
  | 0, _ => []
  | width + 1, n => padded width (n / 10) ++ [Nat.digitChar (n % 10)]

def formatFraction (nanos : Nat) : Str :=
  if nanos = 0 then [] else '.' :: ((padded 9 nanos).reverse.dropWhile (· = '0')).reverse

/- The layout RFC3339Nano of an instant in UTC. -/
def format (t : Nat) : Str :=
  let c := civil (t / second / secondsADay)
  let s := t / second % secondsADay
  padded 4 c.year.toNat ++ '-' :: (padded 2 c.month ++ '-' :: (padded 2 c.day ++ 'T' ::
    (padded 2 (s / 3600) ++ ':' :: (padded 2 (s / 60 % 60) ++ ':' :: (padded 2 (s % 60) ++
      (formatFraction (t % second) ++ ['Z']))))))

/- time.Time.MarshalJSON refuses years that need more than four digits. -/
def printable (t : Nat) : Bool := decide (0 ≤ yearOf t) && decide (yearOf t ≤ 9999)

def readField (width : Nat) (s : Str) : Option (Nat × Str) :=
  let ds := s.take width
  if ds.length = width ∧ ds.all Char.isDigit then some (Nat.ofDigitChars 10 ds 0, s.drop width)
  else none

def readChar (c : Char) : Str → Option Str
  | d :: s => if d = c then some s else none
  | [] => none

/- time.Parse takes one digit for an hour, UnmarshalJSON does not. -/
def readHour (lenient : Bool) (s : Str) : Option (Nat × Str) :=
  if lenient ∧ (s.drop 1).head? = some ':' then readField 1 s else readField 2 s

/- Digits after the ninth are dropped. -/
def readFraction (lenient : Bool) (s : Str) : Nat × Str :=
  let ds := (s.drop 1).takeWhile Char.isDigit
  if (s.head? = some '.' ∨ lenient ∧ s.head? = some ',') ∧ ds ≠ [] then
    (Nat.ofDigitChars 10 (ds.take 9 ++ List.replicate (9 - ds.length) '0') 0,
      s.drop (1 + ds.length))
  else (0, s)

def readZone (lenient : Bool) (s : Str) : Option Int :=
  if s = ['Z'] then some 0
  else do
    let sign : Int ← if s.head? = some '+' then some 1 else if s.head? = some '-' then some (-1) else none
    let (h, s) ← readField 2 (s.drop 1)
    let s ← readChar ':' s
    let (m, s) ← readField 2 s
    if s = [] ∧ h ≤ (if lenient then 24 else 23) ∧ m ≤ (if lenient then 60 else 59) then
      some (sign * (h * 3600 + m * 60))
    else none

/- time.Parse with RFC3339, or the strict form that UnmarshalJSON uses. -/
def parse (lenient : Bool) (s : Str) : Option Nat := do
  let (year, s) ← readField 4 s
  let s ← readChar '-' s
  let (month, s) ← readField 2 s
  let s ← readChar '-' s
  let (day, s) ← readField 2 s
  let s ← readChar 'T' s
  let (h, s) ← readHour lenient s
  let s ← readChar ':' s
  let (m, s) ← readField 2 s
  let s ← readChar ':' s
  let (sec, s) ← readField 2 s
  let (nanos, s) := readFraction lenient s
  let offset ← readZone lenient s
  let c : Civil := ⟨year, month, day⟩
  if 1 ≤ month ∧ month ≤ 12 ∧ 1 ≤ day ∧ day ≤ daysIn c ∧ h ≤ 23 ∧ m ≤ 59 ∧ sec ≤ 59 then
    some (((daysOf c * secondsADay + h * 3600 + m * 60 + sec : Int) - offset).toNat * second + nanos)
  else none

theorem daysBefore_parts (c : Nat) {q y : Nat} (hq : q ≤ 24) (hy : y ≤ 3) :
    daysBefore (100 * c + 4 * q + y) = 36524 * c + 1461 * q + 365 * y := by
  unfold daysBefore
  omega

theorem yearOfEra_bounds {d : Nat} (inside : d < 146097) :
    yearOfEra d < 400 ∧ daysBefore (yearOfEra d) ≤ d ∧ d - daysBefore (yearOfEra d) ≤ 365 := by
  have quarter : (d - 36524 * min (d / 36524) 3) / 1461 ≤ 24 := by omega
  have year : min ((d - 36524 * min (d / 36524) 3) % 1461 / 365) 3 ≤ 3 := by omega
  have before := daysBefore_parts (min (d / 36524) 3) quarter year
  simp only [yearOfEra]
  rw [before]
  omega

theorem march_bounds {d : Nat} (inside : d ≤ 365) :
    (5 * d + 2) / 153 ≤ 11 ∧ (153 * ((5 * d + 2) / 153) + 2) / 5 ≤ d := by
  omega

theorem marchOf_monthAt {march : Nat} (last : march ≤ 11) : marchOf (monthAt march) = march := by
  unfold marchOf monthAt
  split <;> split <;> omega

theorem daysOf_civil (days : Nat) : daysOf (civil days) = days := by
  obtain ⟨years, before, rest⟩ := yearOfEra_bounds (Nat.mod_lt days (by omega : 0 < 146097))
  obtain ⟨last, month⟩ := march_bounds rest
  simp only [daysOf, civil, marchOf_monthAt last, Int.sub_add_cancel, Int.toNat_natCast,
    Nat.add_sub_cancel]
  have era : (400 * (days / 146097) + yearOfEra (days % 146097)) / 400 = days / 146097 := by omega
  have year : (400 * (days / 146097) + yearOfEra (days % 146097)) % 400 =
      yearOfEra (days % 146097) := by omega
  rw [era, year]
  omega

/- The last day of a leap year is the only 366th day. -/
theorem leap_day {d : Nat} (inside : d < 146097) (last : d - daysBefore (yearOfEra d) = 365) :
    (yearOfEra d + 1) % 4 = 0 ∧ ((yearOfEra d + 1) % 100 ≠ 0 ∨ (yearOfEra d + 1) % 400 = 0) := by
  have quarter : (d - 36524 * min (d / 36524) 3) / 1461 ≤ 24 := by omega
  have year : min ((d - 36524 * min (d / 36524) 3) % 1461 / 365) 3 ≤ 3 := by omega
  have before := daysBefore_parts (min (d / 36524) 3) quarter year
  simp only [yearOfEra] at last ⊢
  rw [before] at last
  omega

theorem month_lengths {march doy : Nat} (at_march : march = (5 * doy + 2) / 153)
    (inside : doy ≤ 365) {y : Int} (leap : doy = 365 → isLeap y = true) {d : Nat} :
    doy - (153 * march + 2) / 5 + 1 ≤ daysIn ⟨y, monthAt march, d⟩ := by
  have months : march = 0 ∨ march = 1 ∨ march = 2 ∨ march = 3 ∨ march = 4 ∨ march = 5 ∨
      march = 6 ∨ march = 7 ∨ march = 8 ∨ march = 9 ∨ march = 10 ∨ march = 11 := by omega
  rcases months with h | h | h | h | h | h | h | h | h | h | h | h
  case inr.inr.inr.inr.inr.inr.inr.inr.inr.inr.inr =>
    subst h
    by_cases last : doy = 365
    · simp [daysIn, monthAt, leap last]
      omega
    · have short : 28 ≤ (if isLeap y = true then 29 else 28) := by split <;> omega
      simp [daysIn, monthAt]
      omega
  all_goals
    subst h
    simp [daysIn, monthAt]
    omega

theorem isLeap_year {years days : Nat} (four : (years + 1) % 4 = 0)
    (hundred : (years + 1) % 100 ≠ 0 ∨ (years + 1) % 400 = 0) :
    isLeap ((400 * (days / 146097) + years + 1 : Nat) - 400) = true := by
  simp only [isLeap, Bool.and_eq_true, Bool.or_eq_true, decide_eq_true_eq]
  omega

theorem civil_valid (days : Nat) :
    1 ≤ (civil days).month ∧ (civil days).month ≤ 12 ∧ 1 ≤ (civil days).day ∧
      (civil days).day ≤ daysIn (civil days) := by
  obtain ⟨years, before, rest⟩ := yearOfEra_bounds (Nat.mod_lt days (by omega : 0 < 146097))
  obtain ⟨last, month⟩ := march_bounds rest
  refine ⟨?_, ?_, ?_, ?_⟩
  · simp only [civil, monthAt]
    split <;> omega
  · simp only [civil, monthAt]
    split <;> omega
  · simp only [civil]
    omega
  · refine month_lengths rfl rest fun full => ?_
    obtain ⟨four, hundred⟩ := leap_day (Nat.mod_lt days (by omega : 0 < 146097)) full
    rw [full]
    exact isLeap_year four hundred

theorem padded_length (width n : Nat) : (padded width n).length = width := by
  induction width generalizing n with
  | zero => rfl
  | succ width ih => simp [padded, ih]

theorem padded_digits (width n : Nat) : ∀ c ∈ padded width n, c.isDigit = true := by
  have digit : ∀ d < 10, (Nat.digitChar d).isDigit = true := by decide
  induction width generalizing n with
  | zero => simp [padded]
  | succ width ih =>
    intro c member
    rcases List.mem_append.mp member with front | last
    · exact ih _ c front
    · rw [List.mem_singleton.mp last]
      exact digit _ (Nat.mod_lt n (by omega))

theorem padded_value {width n : Nat} (fits : n < 10 ^ width) :
    Nat.ofDigitChars 10 (padded width n) 0 = n := by
  have value : ∀ d < 10, (Nat.digitChar d).toNat - '0'.toNat = d := by decide
  induction width generalizing n with
  | zero =>
    have : n = 0 := by simpa using fits
    subst n
    rfl
  | succ width ih =>
    have front := ih (n := n / 10) (by rw [Nat.pow_succ] at fits; omega)
    rw [padded, Nat.ofDigitChars_append, front, Nat.ofDigitChars_cons,
      value _ (Nat.mod_lt n (by omega))]
    simp only [Nat.ofDigitChars_nil]
    omega

theorem readField_padded {width n : Nat} (fits : n < 10 ^ width) (rest : Str) :
    readField width (padded width n ++ rest) = some (n, rest) := by
  have len := padded_length width n
  have taken : (padded width n ++ rest).take width = padded width n := by
    rw [List.take_append_of_le_length (by omega), List.take_of_length_le (by omega)]
  have dropped : (padded width n ++ rest).drop width = rest := by
    rw [List.drop_append_of_le_length (by omega), List.drop_of_length_le (by omega),
      List.nil_append]
  have digits : (padded width n).all Char.isDigit = true := by
    simpa using padded_digits width n
  simp [readField, taken, dropped, len, digits, padded_value fits]

theorem printable_days {t : Nat} (fits : printable t = true) :
    (civil (t / second / secondsADay)).year.toNat < 10 ^ 4 ∧
      ((civil (t / second / secondsADay)).year.toNat : Int) =
        (civil (t / second / secondsADay)).year := by
  simp only [printable, Bool.and_eq_true, decide_eq_true_eq] at fits
  unfold yearOf at fits
  omega

theorem daysIn_le (c : Civil) : daysIn c ≤ 31 := by
  unfold daysIn
  split
  · split <;> omega
  · split <;> omega

theorem readHour_padded (lenient : Bool) {n : Nat} (fits : n < 10 ^ 2) (rest : Str) :
    readHour lenient (padded 2 n ++ rest) = some (n, rest) := by
  have two : ((padded 2 n ++ rest).drop 1).head? ≠ some ':' := by
    have digit := padded_digits 2 n
    simp only [padded, List.nil_append, List.cons_append] at digit ⊢
    intro colon
    have same : Nat.digitChar (n % 10) = ':' := by
      rwa [List.drop_succ_cons, List.drop_zero, List.head?_cons, Option.some.injEq] at colon
    rw [same] at digit
    exact absurd (digit ':' (by simp)) (by decide)
  rw [readHour, if_neg (fun h => two h.2), readField_padded fits]

theorem readFraction_z (lenient : Bool) : readFraction lenient ['Z'] = (0, ['Z']) := by
  cases lenient <;> decide

theorem readZone_z (lenient : Bool) : readZone lenient ['Z'] = some 0 := by
  cases lenient <;> decide

/- A second of a day of a four digit year is read back from its text, with any fraction. -/
theorem parse_text (lenient : Bool) {days s nanos : Nat} {fraction : Str}
    (year : (civil days).year.toNat < 10 ^ 4)
    (same_year : ((civil days).year.toNat : Int) = (civil days).year) (clock : s < 86400)
    (read : readFraction lenient (fraction ++ ['Z']) = (nanos, ['Z'])) :
    parse lenient (padded 4 (civil days).year.toNat ++ '-' :: (padded 2 (civil days).month ++ '-' ::
      (padded 2 (civil days).day ++ 'T' :: (padded 2 (s / 3600) ++ ':' :: (padded 2 (s / 60 % 60) ++
        ':' :: (padded 2 (s % 60) ++ (fraction ++ ['Z']))))))) =
      some ((days * 86400 + s) * second + nanos) := by
  obtain ⟨month₁, month₂, day₁, day₂⟩ := civil_valid days
  have day₃ : (civil days).day < 10 ^ 2 := by
    have := daysIn_le (civil days)
    omega
  have hours : s / 3600 < 10 ^ 2 := by omega
  simp only [parse, Option.bind_eq_bind, Option.bind_some, readChar, readField_padded year,
    readField_padded (by omega : (civil days).month < 10 ^ 2), readField_padded day₃,
    readHour_padded lenient hours, readField_padded (by omega : s / 60 % 60 < 10 ^ 2),
    readField_padded (by omega : s % 60 < 10 ^ 2), read, readZone_z, ↓reduceIte]
  have same : (⟨((civil days).year.toNat : Int), (civil days).month, (civil days).day⟩ : Civil) =
      civil days := by rw [same_year]
  rw [same, daysOf_civil, if_pos ⟨month₁, month₂, day₁, day₂, by omega⟩]
  have sum : ((days : Nat) * (secondsADay : Nat) + (s / 3600 : Nat) * 3600 + (s / 60 % 60 : Nat) * 60 +
      (s % 60 : Nat) - 0 : Int).toNat = days * 86400 + s := by
    rw [show secondsADay = 86400 from rfl]
    omega
  rw [sum]

/- A whole second of a four digit year is read back from its text, by both readers. -/
theorem parse_format {t : Nat} (whole : t % second = 0) (fits : printable t = true)
    (lenient : Bool) : parse lenient (format t) = some t := by
  obtain ⟨year, same_year⟩ := printable_days fits
  have clock : t / second % secondsADay < 86400 := Nat.mod_lt _ (by decide)
  have none_read : readFraction lenient ([] ++ ['Z']) = (0, ['Z']) := readFraction_z lenient
  have text := parse_text lenient year same_year clock none_read
  have of_second : t / second / secondsADay * 86400 + t / second % secondsADay = t / second :=
    Nat.div_add_mod' _ _
  rw [of_second, Nat.add_zero, Nat.div_mul_cancel (Nat.dvd_of_mod_eq_zero whole)] at text
  simpa only [format, whole, formatFraction, ↓reduceIte, List.nil_append] using text

end GoTime
