import Mathlib.Data.List.DropRight
import Mathlib.Data.Int.Basic
import Mathlib.Order.Monotone.Basic
import Mathlib.Algebra.Order.Ring.Nat

/-!
# Timestamps as text

A timestamp counts microseconds. Its text has the date of the proleptic Gregorian
calendar, the time of day, a fraction of a second without trailing zeros, and a zone. A
reader takes any such text with a valid date, whatever its zone.
-/

namespace AuraWellness.Lib.Timestamps

/-- A day of the calendar. Years are counted from the year −400 on. -/
structure Date where
  year : ℕ
  month : ℕ
  day : ℕ
  deriving DecidableEq, Repr

/-- The days before a year, when years begin in March. -/
def daysBefore (year : ℕ) : ℕ := 365 * year + year / 4 - year / 100 + year / 400

/-- The days of a year before a month, when March is the month 0. -/
def daysBeforeMonth (month : ℕ) : ℕ := (153 * month + 2) / 5

/-- The number of a day, counted from 1 March of the year −400. -/
def Date.number (d : Date) : ℕ :=
  if d.month ≤ 2 then daysBefore (d.year - 1) + daysBeforeMonth (d.month + 9) + (d.day - 1)
  else daysBefore d.year + daysBeforeMonth (d.month - 3) + (d.day - 1)

/-- The year of a day and the days of it before, when years begin in March. A century has a
day less than 25 times four years, unless it is the last of four, and a year of four is
one day short of the last one. -/
def yearAndDay (n : ℕ) : ℕ × ℕ :=
  let ofEra := n % 146097
  let century := ofEra / 36524 - ofEra / 36524 / 4
  let ofCentury := ofEra - 36524 * century
  let ofFour := ofCentury % 1461
  let year := ofFour / 365 - ofFour / 365 / 4
  (400 * (n / 146097) + 100 * century + 4 * (ofCentury / 1461) + year, ofFour - 365 * year)

/-- The month of a day of the year, when March is the month 0. -/
def monthOf (day : ℕ) : ℕ := (5 * day + 2) / 153

/-- The day with this number. -/
def dateOf (n : ℕ) : Date :=
  let year := (yearAndDay n).1
  let day := (yearAndDay n).2
  let month := monthOf day
  if month < 10 then ⟨year, month + 3, day - daysBeforeMonth month + 1⟩
  else ⟨year + 1, month - 9, day - daysBeforeMonth month + 1⟩

/-- The days before a year in the parts that it has. -/
theorem daysBefore_parts (era : ℕ) {century four year : ℕ} (hcentury : century ≤ 3)
    (hfour : four ≤ 24) (hyear : year ≤ 3) :
    daysBefore (400 * era + 100 * century + 4 * four + year) =
      146097 * era + 36524 * century + 1461 * four + 365 * year := by
  have hby4 : (400 * era + 100 * century + 4 * four + year) / 4 =
      100 * era + 25 * century + four := by omega
  have hby100 : (400 * era + 100 * century + 4 * four + year) / 100 = 4 * era + century := by omega
  have hby400 : (400 * era + 100 * century + 4 * four + year) / 400 = era := by omega
  unfold daysBefore
  rw [hby4, hby100, hby400]
  omega

/-- Where a day is in its year of March. -/
theorem yearAndDay_eq (n : ℕ) :
    daysBefore (yearAndDay n).1 + (yearAndDay n).2 = n ∧ (yearAndDay n).2 < 366 := by
  unfold yearAndDay
  dsimp only
  obtain ⟨century, hcentury⟩ : ∃ c, c = n % 146097 / 36524 - n % 146097 / 36524 / 4 := ⟨_, rfl⟩
  obtain ⟨r, hr⟩ : ∃ r, r = n % 146097 - 36524 * century := ⟨_, rfl⟩
  obtain ⟨year, hyear⟩ : ∃ y, y = r % 1461 / 365 - r % 1461 / 365 / 4 := ⟨_, rfl⟩
  rw [← hcentury, ← hr, ← hyear]
  have hc : century ≤ 3 := by omega
  have hrest : r ≤ 36524 ∧ n % 146097 = 36524 * century + r := by omega
  have hy : year ≤ 3 := by omega
  have hday : r % 1461 - 365 * year < 366 ∧ 365 * year ≤ r % 1461 := by omega
  have hfour : r / 1461 ≤ 24 := by omega
  refine ⟨?_, hday.1⟩
  rw [daysBefore_parts (n / 146097) hc hfour hy]
  omega

theorem monthOf_bounds {day : ℕ} (h : day < 366) :
    monthOf day ≤ 11 ∧ daysBeforeMonth (monthOf day) ≤ day ∧
      day - daysBeforeMonth (monthOf day) < 31 := by
  unfold monthOf daysBeforeMonth
  omega

/-- The date of a number has that number. -/
theorem number_dateOf (n : ℕ) : (dateOf n).number = n := by
  obtain ⟨hnumber, hlt⟩ := yearAndDay_eq n
  obtain ⟨hmonth, hle, -⟩ := monthOf_bounds hlt
  unfold dateOf
  dsimp only
  split
  · have hlarge : ¬monthOf (yearAndDay n).2 + 3 ≤ 2 := by omega
    simp only [Date.number, if_neg hlarge, Nat.add_sub_cancel]
    omega
  · have hsmall : monthOf (yearAndDay n).2 - 9 ≤ 2 := by omega
    have hback : monthOf (yearAndDay n).2 - 9 + 9 = monthOf (yearAndDay n).2 := by omega
    simp only [Date.number, if_pos hsmall, hback, Nat.add_sub_cancel]
    omega

/-- A date has two digits for its month and day. -/
theorem dateOf_bounds (n : ℕ) : (dateOf n).month < 10 ^ 2 ∧ (dateOf n).day < 10 ^ 2 := by
  obtain ⟨hmonth, hle, hday⟩ := monthOf_bounds (yearAndDay_eq n).2
  unfold dateOf
  dsimp only
  split <;> exact ⟨by dsimp only; omega, by dsimp only; omega⟩

/-- The years are in order. -/
theorem daysBefore_mono : Monotone daysBefore := by
  refine monotone_nat_of_le_succ fun y => ?_
  unfold daysBefore
  omega

/-- The years 0 to 9999, with the first one from its January on. -/
theorem year_dateOf {n : ℕ} (h : 146037 ≤ n) (h' : n < 3798462) :
    400 ≤ (dateOf n).year ∧ (dateOf n).year < 10400 := by
  obtain ⟨hnumber, hlt⟩ := yearAndDay_eq n
  have hmonth : monthOf (yearAndDay n).2 < 10 ↔ (yearAndDay n).2 < 306 := by
    unfold monthOf
    omega
  have hyear : (dateOf n).year =
      if monthOf (yearAndDay n).2 < 10 then (yearAndDay n).1 else (yearAndDay n).1 + 1 := by
    unfold dateOf
    dsimp only
    split <;> rfl
  have hlow : 398 < (yearAndDay n).1 := by
    by_contra hnot
    have hle : daysBefore (yearAndDay n).1 ≤ 145366 := daysBefore_mono (Nat.le_of_not_lt hnot)
    omega
  have hhigh : (yearAndDay n).1 < 10400 := by
    by_contra hnot
    have hle : 3798522 ≤ daysBefore (yearAndDay n).1 := daysBefore_mono (Nat.le_of_not_lt hnot)
    omega
  -- the year 0 of the calendar begins two months before that of March, and ends so
  have hfirst : (yearAndDay n).1 = 399 → daysBefore (yearAndDay n).1 = 145731 := fun he => by
    rw [he]
    rfl
  have hlast : (yearAndDay n).1 = 10399 → daysBefore (yearAndDay n).1 = 3798156 := fun he => by
    rw [he]
    rfl
  rw [hyear]
  split <;> omega

/-- A decimal digit. -/
def digit (n : ℕ) : Char := Char.ofNat (48 + n % 10)

/-- What a digit stands for. -/
def digitValue (c : Char) : Option ℕ := if c.isDigit then some (c.toNat - 48) else none

theorem digitValue_digit (n : ℕ) : digitValue (digit n) = some (n % 10) := by
  have hall : ∀ m < 10, digitValue (Char.ofNat (48 + m)) = some m := by decide
  exact hall _ (Nat.mod_lt n (by decide))

theorem isDigit_digit (n : ℕ) : (digit n).isDigit = true := by
  have hall : ∀ m < 10, (Char.ofNat (48 + m)).isDigit = true := by decide
  exact hall _ (Nat.mod_lt n (by decide))

/-- So many digits of a number, the last ones. -/
def padded : ℕ → ℕ → List Char
  | 0, _ => []
  | width + 1, n => padded width (n / 10) ++ [digit n]

/-- The number with these digits. -/
def numberOf (cs : List Char) : Option ℕ :=
  cs.foldlM (fun n c => (digitValue c).map fun d => 10 * n + d) 0

theorem length_padded (width n : ℕ) : (padded width n).length = width := by
  induction width generalizing n with
  | zero => rfl
  | succ width ih => rw [padded, List.length_append, ih, List.length_singleton]

theorem isDigit_padded {width n : ℕ} {c : Char} (h : c ∈ padded width n) : c.isDigit = true := by
  induction width generalizing n with
  | zero => cases h
  | succ width ih =>
    obtain hinit | hlast := List.mem_append.mp h
    · exact ih hinit
    · rw [List.mem_singleton.mp hlast]
      exact isDigit_digit n

/-- A number that has so many digits is read from them. -/
theorem numberOf_padded {width n : ℕ} (h : n < 10 ^ width) :
    numberOf (padded width n) = some n := by
  induction width generalizing n with
  | zero =>
    have hzero : n = 0 := Nat.lt_one_iff.mp h
    rw [hzero]
    rfl
  | succ width ih =>
    have hdiv : n / 10 < 10 ^ width := Nat.div_lt_of_lt_mul (by rwa [pow_succ'] at h)
    have hinit := ih hdiv
    unfold numberOf at hinit ⊢
    rw [padded, List.foldlM_append, hinit]
    simp only [Option.bind_eq_bind, Option.bind_some, List.foldlM_cons, digitValue_digit,
      Option.map_some, List.foldlM_nil, Option.pure_def]
    exact congrArg some (Nat.div_add_mod n 10)

/-- A number of so many digits is taken off. -/
def readNumber (width : ℕ) (cs : List Char) : Option (ℕ × List Char) :=
  if cs.length < width then none else (numberOf (cs.take width)).map fun n => (n, cs.drop width)

theorem readNumber_padded {width n : ℕ} (h : n < 10 ^ width) (rest : List Char) :
    readNumber width (padded width n ++ rest) = some (n, rest) := by
  have hlength := length_padded width n
  have hlong : ¬(padded width n ++ rest).length < width := by
    rw [List.length_append, hlength]
    omega
  unfold readNumber
  rw [if_neg hlong, List.take_left' hlength, List.drop_left' hlength, numberOf_padded h]
  rfl

/-- A character is taken off. -/
def readChar (c : Char) : List Char → Option (List Char)
  | [] => none
  | d :: cs => if d = c then some cs else none

theorem readChar_cons (c : Char) (cs : List Char) : readChar c (c :: cs) = some cs := if_pos rfl

/-- The fraction of a second, in microseconds. -/
def fraction (micros : ℕ) : List Char :=
  if micros = 0 then [] else '.' :: (padded 6 micros).rdropWhile (· = '0')

/-- A fraction is taken off, if there is one, to its first six digits. -/
def readFraction : List Char → Option (ℕ × List Char)
  | '.' :: cs =>
    if cs.takeWhile Char.isDigit = [] then none
    else (numberOf ((cs.takeWhile Char.isDigit ++ List.replicate 6 '0').take 6)).map fun n =>
      (n, cs.dropWhile Char.isDigit)
  | cs => some (0, cs)

/-- Zeros that are cut off can be added again. -/
theorem take_rdropWhile {cs : List Char} {k : ℕ} (h : cs.length ≤ k) :
    (cs.rdropWhile (· = '0') ++ List.replicate k '0').take cs.length = cs := by
  have hsplit : cs = cs.rdropWhile (· = '0') ++ cs.rtakeWhile (· = '0') :=
    List.rdropWhile_append_rtakeWhile.symm
  have hzeros : cs.rtakeWhile (· = '0') =
      List.replicate (cs.rtakeWhile (· = '0')).length '0' :=
    List.eq_replicate_of_mem fun c hc => by simpa using List.mem_rtakeWhile_imp hc
  have hlength := congrArg List.length hsplit
  rw [List.length_append] at hlength
  obtain ⟨more, hmore⟩ : ∃ more, k = (cs.rtakeWhile (· = '0')).length + more :=
    Nat.exists_eq_add_of_le (by omega)
  have hjoin : cs.rdropWhile (· = '0') ++ List.replicate k '0' = cs ++ List.replicate more '0' := by
    rw [hmore, List.replicate_add, ← hzeros, ← List.append_assoc, ← hsplit]
  rw [hjoin, List.take_left]

/-- A fraction that is written is read, in front of the zone. -/
theorem readFraction_fraction {micros : ℕ} (h : micros < 1000000) (rest : List Char) :
    readFraction (fraction micros ++ 'Z' :: rest) = some (micros, 'Z' :: rest) := by
  unfold fraction
  by_cases hzero : micros = 0
  · rw [if_pos hzero, hzero]
    rfl
  rw [if_neg hzero]
  obtain ⟨digits, hdigits⟩ : ∃ ds, ds = (padded 6 micros).rdropWhile (· = '0') := ⟨_, rfl⟩
  have hall : ∀ c ∈ digits, c.isDigit = true := fun c hc => by
    rw [hdigits] at hc
    exact isDigit_padded ((List.rdropWhile_prefix _ _).subset hc)
  have htake : (digits ++ 'Z' :: rest).takeWhile Char.isDigit = digits := by
    rw [List.takeWhile_append_of_pos hall]
    exact List.append_nil digits
  have hdrop : (digits ++ 'Z' :: rest).dropWhile Char.isDigit = 'Z' :: rest := by
    rw [List.dropWhile_append_of_pos hall]
    rfl
  have hread : (digits ++ List.replicate 6 '0').take 6 = padded 6 micros := by
    have hcut := take_rdropWhile (Nat.le_of_eq (length_padded 6 micros))
    rwa [length_padded, ← hdigits] at hcut
  have hsome : digits ≠ [] := by
    intro hnil
    have hnumber : numberOf (padded 6 micros) = some micros := numberOf_padded h
    rw [← hread, hnil] at hnumber
    exact hzero (Option.some.inj hnumber).symm
  rw [← hdigits, List.cons_append, readFraction, htake, hdrop, if_neg hsome, hread,
    numberOf_padded h]
  rfl

/-- The offset of a zone, in minutes. -/
def readZone : List Char → Option ℤ
  | ['Z'] => some 0
  | sign :: cs => do
    let (hour, cs) ← readNumber 2 cs
    let cs ← readChar ':' cs
    let (minute, cs) ← readNumber 2 cs
    if cs = [] ∧ hour < 24 ∧ minute < 60 then
      if sign = '+' then some (hour * 60 + minute : ℕ)
      else if sign = '-' then some (-(hour * 60 + minute : ℕ))
      else none
    else none
  | [] => none

/-- The text of a day, in the years 0 to 9999. -/
def dateText (d : Date) : List Char :=
  padded 4 (d.year - 400) ++ '-' :: (padded 2 d.month ++ '-' :: padded 2 d.day)

/-- A day is taken off. It is valid if it is the day of its number. -/
def readDate (cs : List Char) : Option (Date × List Char) := do
  let (year, cs) ← readNumber 4 cs
  let cs ← readChar '-' cs
  let (month, cs) ← readNumber 2 cs
  let cs ← readChar '-' cs
  let (day, cs) ← readNumber 2 cs
  let date : Date := ⟨year + 400, month, day⟩
  if dateOf date.number = date then some (date, cs) else none

theorem readDate_dateText {n : ℕ} (h : 146037 ≤ n) (h' : n < 3798462) (rest : List Char) :
    readDate (dateText (dateOf n) ++ rest) = some (dateOf n, rest) := by
  obtain ⟨hyear, hyear'⟩ := year_dateOf h h'
  obtain ⟨hmonth, hday⟩ := dateOf_bounds n
  have hyears : (dateOf n).year - 400 < 10 ^ 4 := by omega
  have hback : (⟨(dateOf n).year - 400 + 400, (dateOf n).month, (dateOf n).day⟩ : Date) =
      dateOf n := by
    rw [Nat.sub_add_cancel hyear]
  unfold readDate dateText
  simp only [List.append_assoc, List.cons_append, readNumber_padded hyears,
    readNumber_padded hmonth, readNumber_padded hday, readChar_cons, Option.bind_eq_bind,
    Option.bind_some, hback, number_dateOf, if_true]

/-- The time of day, in seconds, as text. -/
def clockText (second : ℕ) : List Char :=
  padded 2 (second / 3600) ++ ':' :: (padded 2 (second / 60 % 60) ++ ':' :: padded 2 (second % 60))

/-- A time of day is taken off. -/
def readClock (cs : List Char) : Option (ℕ × List Char) := do
  let (hour, cs) ← readNumber 2 cs
  let cs ← readChar ':' cs
  let (minute, cs) ← readNumber 2 cs
  let cs ← readChar ':' cs
  let (second, cs) ← readNumber 2 cs
  if hour < 24 ∧ minute < 60 ∧ second < 60 then some (hour * 3600 + minute * 60 + second, cs)
  else none

theorem readClock_clockText {second : ℕ} (h : second < 86400) (rest : List Char) :
    readClock (clockText second ++ rest) = some (second, rest) := by
  have hhour : second / 3600 < 10 ^ 2 := by omega
  have hminute : second / 60 % 60 < 10 ^ 2 := by omega
  have hsecond : second % 60 < 10 ^ 2 := by omega
  have hvalid : second / 3600 < 24 ∧ second / 60 % 60 < 60 ∧ second % 60 < 60 := by omega
  have hback : second / 3600 * 3600 + second / 60 % 60 * 60 + second % 60 = second := by omega
  unfold readClock clockText
  simp only [List.append_assoc, List.cons_append, readNumber_padded hhour,
    readNumber_padded hminute, readNumber_padded hsecond, readChar_cons, Option.bind_eq_bind,
    Option.bind_some, if_pos hvalid, hback]

/-- The microseconds of a day. -/
def perDay : ℕ := 86400000000

/-- The microseconds from 1 March of the year −400 to the epoch, 1 January of 1970. -/
def epoch : ℕ := 865565 * perDay

/-- The text of a timestamp, with the date and the time of day in UTC, for the years 0 to
9999. -/
def text (t : ℤ) : String :=
  let micros := (t + epoch).toNat
  String.ofList (dateText (dateOf (micros / perDay)) ++ 'T' ::
    (clockText (micros % perDay / 1000000) ++ (fraction (micros % 1000000) ++ ['Z'])))

/-- The timestamp of a text. -/
def parse (text : String) : Option ℤ := do
  let (date, cs) ← readDate text.toList
  let cs ← readChar 'T' cs
  let (second, cs) ← readClock cs
  let (micros, cs) ← readFraction cs
  let offset ← readZone cs
  some ((date.number * perDay + second * 1000000 + micros : ℕ) - epoch - offset * 60000000)

/-- The text of a timestamp in the years 0 to 9999 is read back. -/
theorem parse_text {t : ℤ} (h : -62167219200000000 ≤ t) (h' : t < 253402300800000000) :
    parse (text t) = some t := by
  obtain ⟨n, hn⟩ : ∃ n, n = (t + epoch).toNat := ⟨_, rfl⟩
  have hbounds : 146037 ≤ n / perDay ∧ n / perDay < 3798462 ∧ (n : ℤ) = t + epoch := by
    rw [hn]
    unfold epoch perDay
    omega
  obtain ⟨hlow, hhigh, ht⟩ := hbounds
  have hsecond : n % perDay / 1000000 < 86400 := by
    unfold perDay
    omega
  have hmicros : n % 1000000 < 1000000 := Nat.mod_lt n (by decide)
  have hzone : readZone ['Z'] = some 0 := rfl
  unfold parse text
  dsimp only
  rw [String.toList_ofList, ← hn]
  simp only [readDate_dateText hlow hhigh, readChar_cons, readClock_clockText hsecond,
    readFraction_fraction hmicros, hzone, Option.bind_eq_bind, Option.bind_some, number_dateOf]
  refine congrArg some ?_
  unfold epoch perDay at *
  omega

-- the zero time, a leap day and another zone
example : text (-62135596800000000) = "0001-01-01T00:00:00Z" := by decide
example : text 1709208000120000 = "2024-02-29T12:00:00.12Z" := by decide
example : parse "2024-02-29T14:00:00.12+02:00" = some 1709208000120000 := by decide
example : parse "2023-02-29T12:00:00Z" = none := by decide

end AuraWellness.Lib.Timestamps
