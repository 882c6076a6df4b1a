import RevenueRecovery.Lib.DecimalText

/-!
# The proleptic Gregorian calendar

Days are counted from the first of January of year 1, which is day 1. A day has one date, and
the date has one text of ten characters, so the text of a day determines it.

## Main definitions
* `toOrdinal`, `ofOrdinal` : the day of a date, and the date of a day.
* `dateText`, `timeText` : the ISO texts of a date and of a time of day.
-/
namespace Calendar

open DecimalText

/-! ## Days and dates -/

structure Date where
  year : ℕ
  month : ℕ
  day : ℕ
deriving DecidableEq, Repr

/-- Every fourth year, but of the centuries only every fourth. -/
def isLeap (year : ℕ) : Bool := year % 4 == 0 && (year % 100 != 0 || year % 400 == 0)

/-- The days of the years before. -/
def daysBeforeYear (year : ℕ) : ℕ :=
  (year - 1) * 365 + (year - 1) / 4 - (year - 1) / 100 + (year - 1) / 400

/-- The days of the months before, in a year that is leap or not. -/
def daysBeforeMonth (leap : Bool) (month : ℕ) : ℕ :=
  [0, 31, 59, 90, 120, 151, 181, 212, 243, 273, 304, 334].getD (month - 1) 0 +
    if leap && 2 < month then 1 else 0

def toOrdinal (d : Date) : ℕ :=
  daysBeforeYear d.year + daysBeforeMonth (isLeap d.year) d.month + d.day

/-- The month and the day of a day of the year, which is counted from zero. The estimate of
the month is never too small, and at most one too large. -/
def monthDay (leap : Bool) (n : ℕ) : ℕ × ℕ :=
  let month := (n + 50) / 32
  let month := if n < daysBeforeMonth leap month then month - 1 else month
  (month, n - daysBeforeMonth leap month + 1)

/-- The date of a day, by cycles of 400, 100, 4 and 1 years. The last days of the cycles of
400 and of 4 years would begin a fifth part. -/
def ofOrdinal (ordinal : ℕ) : Date :=
  let n := ordinal - 1
  let n400 := n / 146097
  let n100 := n % 146097 / 36524
  let n4 := n % 146097 % 36524 / 1461
  let n1 := n % 146097 % 36524 % 1461 / 365
  let year := 400 * n400 + 100 * n100 + 4 * n4 + n1
  if n1 = 4 ∨ n100 = 4 then ⟨year, 12, 31⟩
  else
    let date := monthDay (n1 == 3 && (n4 != 24 || n100 == 3))
      (n % 146097 % 36524 % 1461 % 365)
    ⟨year + 1, date.1, date.2⟩

theorem monthDay_spec : ∀ leap, ∀ n < 366, n < 365 ∨ leap = true →
    daysBeforeMonth leap (monthDay leap n).1 + (monthDay leap n).2 = n + 1 ∧
      (monthDay leap n).1 < 100 ∧ (monthDay leap n).2 < 100 := by
  decide +kernel

/-- The years before a year of a cycle. -/
theorem daysBeforeYear_succ {a b c e : ℕ} (hb : b < 4) (hc : c < 25) (he : e < 4) :
    daysBeforeYear (400 * a + 100 * b + 4 * c + e + 1) =
      146097 * a + 36524 * b + 1461 * c + 365 * e := by
  unfold daysBeforeYear
  omega

/-- The last year of a cycle of four is leap, unless it ends a century that is not. -/
theorem isLeap_succ {a b c e : ℕ} (hb : b < 4) (hc : c < 25) (he : e < 4) :
    isLeap (400 * a + 100 * b + 4 * c + e + 1) = (e == 3 && (c != 24 || b == 3)) := by
  rw [Bool.eq_iff_iff]
  simp only [isLeap, Bool.and_eq_true, Bool.or_eq_true, beq_iff_eq, bne_iff_ne]
  omega

/-- The last day of a leap year that ends a cycle of four years. -/
theorem toOrdinal_lastDay {a b c : ℕ} (hb : b < 4) (hc : c < 25) (h : c ≠ 24 ∨ b = 3) :
    toOrdinal ⟨400 * a + 100 * b + 4 * c + 4, 12, 31⟩ =
      146097 * a + 36524 * b + 1461 * c + 1461 := by
  have hdays := daysBeforeYear_succ (a := a) hb hc (show 3 < 4 by decide)
  have hleap := isLeap_succ (a := a) hb hc (show 3 < 4 by decide)
  have hcentury : (c != 24 || b == 3) = true := by
    rw [Bool.or_eq_true, bne_iff_ne, beq_iff_eq]
    exact h
  rw [hcentury] at hleap
  unfold toOrdinal
  rw [show 400 * a + 100 * b + 4 * c + 4 = 400 * a + 100 * b + 4 * c + 3 + 1 by rfl, hdays, hleap]
  change 146097 * a + 36524 * b + 1461 * c + 365 * 3 + 335 + 31 = _
  omega

/-- Another day of a year. -/
theorem toOrdinal_monthDay {a b c e r : ℕ} (hb : b < 4) (hc : c < 25) (he : e < 4)
    (hr : r < 365) :
    let date := monthDay (e == 3 && (c != 24 || b == 3)) r
    toOrdinal ⟨400 * a + 100 * b + 4 * c + e + 1, date.1, date.2⟩ =
      146097 * a + 36524 * b + 1461 * c + 365 * e + r + 1 := by
  have hspec := (monthDay_spec (e == 3 && (c != 24 || b == 3)) r (by omega) (.inl hr)).1
  dsimp only [toOrdinal]
  rw [daysBeforeYear_succ hb hc he, isLeap_succ hb hc he]
  omega

/-- A day is the last one of a leap year that ends a cycle of four, or another one. -/
theorem ofOrdinal_cases (n : ℕ) :
    (∃ a b c, b < 4 ∧ c < 25 ∧ (c ≠ 24 ∨ b = 3) ∧
      ofOrdinal n = ⟨400 * a + 100 * b + 4 * c + 4, 12, 31⟩ ∧
        n - 1 = 146097 * a + 36524 * b + 1461 * c + 1460) ∨
    ∃ a b c e r, b < 4 ∧ c < 25 ∧ e < 4 ∧ r < 365 ∧
      ofOrdinal n = ⟨400 * a + 100 * b + 4 * c + e + 1,
        (monthDay (e == 3 && (c != 24 || b == 3)) r).1,
        (monthDay (e == 3 && (c != 24 || b == 3)) r).2⟩ ∧
        n - 1 = 146097 * a + 36524 * b + 1461 * c + 365 * e + r := by
  have h400 := Nat.div_add_mod (n - 1) 146097
  have hlt400 := Nat.mod_lt (n - 1) (show 0 < 146097 by decide)
  unfold ofOrdinal
  dsimp only
  generalize (n - 1) / 146097 = a at h400 ⊢
  generalize (n - 1) % 146097 = n400 at h400 hlt400 ⊢
  have h100 := Nat.div_add_mod n400 36524
  have hlt100 := Nat.mod_lt n400 (show 0 < 36524 by decide)
  generalize n400 / 36524 = b at h100 ⊢
  generalize n400 % 36524 = n100 at h100 hlt100 ⊢
  have h4 := Nat.div_add_mod n100 1461
  have hlt4 := Nat.mod_lt n100 (show 0 < 1461 by decide)
  generalize n100 / 1461 = c at h4 ⊢
  generalize n100 % 1461 = n4 at h4 hlt4 ⊢
  have h1 := Nat.div_add_mod n4 365
  have hlt1 := Nat.mod_lt n4 (show 0 < 365 by decide)
  generalize n4 / 365 = e at h1 ⊢
  generalize n4 % 365 = r at h1 hlt1 ⊢
  split_ifs with hlast
  · rcases Nat.lt_or_ge b 4 with hb | hb
    · obtain rfl : e = 4 := by omega
      exact .inl ⟨a, b, c, hb, by omega, by omega, rfl, by omega⟩
    · -- The last day of 400 years: nothing is left after four centuries.
      have hyear : 400 * a + 100 * b + 4 * c + e = 400 * a + 100 * 3 + 4 * 24 + 4 := by omega
      exact .inl ⟨a, 3, 24, by decide, by decide, .inr rfl, by rw [hyear], by omega⟩
  · exact .inr ⟨a, b, c, e, r, by omega, by omega, by omega, hlt1, rfl, by omega⟩

/-- The date of a day is on that day. -/
theorem toOrdinal_ofOrdinal {n : ℕ} (hn : 0 < n) : toOrdinal (ofOrdinal n) = n := by
  rcases ofOrdinal_cases n with ⟨a, b, c, hb, hc, hcentury, hdate, hday⟩ |
    ⟨a, b, c, e, r, hb, hc, he, hr, hdate, hday⟩
  · rw [hdate, toOrdinal_lastDay hb hc hcentury]
    omega
  · rw [hdate, toOrdinal_monthDay hb hc he hr]
    omega

/-- The last day whose year has four digits, the thirty-first of December 9999. -/
def maxOrdinal : ℕ := 3652059

theorem ofOrdinal_lt {n : ℕ} (hn : 0 < n) (hmax : n ≤ maxOrdinal) :
    (ofOrdinal n).year < 10 ^ 4 ∧ (ofOrdinal n).month < 10 ^ 2 ∧ (ofOrdinal n).day < 10 ^ 2 := by
  unfold maxOrdinal at hmax
  rcases ofOrdinal_cases n with ⟨a, b, c, hb, hc, hcentury, hdate, hday⟩ |
    ⟨a, b, c, e, r, hb, hc, he, hr, hdate, hday⟩
  · rw [hdate]
    exact ⟨by dsimp only; omega, show 12 < 10 ^ 2 by decide, show 31 < 10 ^ 2 by decide⟩
  · have hspec := (monthDay_spec (e == 3 && (c != 24 || b == 3)) r (by omega) (.inl hr)).2
    rw [hdate]
    exact ⟨by dsimp only; omega, hspec.1, hspec.2⟩

/-! ## Texts -/

/-- `YYYY-MM-DD`. -/
def dateText (d : Date) : List Char :=
  padded 4 d.year ++ '-' :: (padded 2 d.month ++ '-' :: padded 2 d.day)

/-- `HH:MM:SS` of a second of the day. -/
def timeText (second : ℕ) : List Char :=
  padded 2 (second / 3600) ++ ':' :: (padded 2 (second / 60 % 60) ++ ':' :: padded 2 (second % 60))

theorem padded_injective (length : ℕ) : Function.Injective (padded length) := by
  intro n m h
  rw [← ofDigitChars_padded length n, ← ofDigitChars_padded length m, h]

/-- Two parts of fixed lengths around a separator. -/
theorem append_cons_inj {a a' b b' : List Char} {c : Char} (hlength : a.length = a'.length)
    (h : a ++ c :: b = a' ++ c :: b') : a = a' ∧ b = b' := by
  obtain ⟨ha, hb⟩ := List.append_inj h hlength
  exact ⟨ha, List.tail_eq_of_cons_eq hb⟩

theorem length_dateText {n : ℕ} (hn : 0 < n) (hmax : n ≤ maxOrdinal) :
    (dateText (ofOrdinal n)).length = 10 := by
  obtain ⟨hyear, hmonth, hday⟩ := ofOrdinal_lt hn hmax
  simp [dateText, length_padded (show 0 < 4 by decide) hyear,
    length_padded (show 0 < 2 by decide) hmonth, length_padded (show 0 < 2 by decide) hday]

theorem length_padded_two {n : ℕ} (h : n < 100) : (padded 2 n).length = 2 :=
  length_padded (by decide) h

theorem length_timeText {second : ℕ} (h : second < 86400) : (timeText second).length = 8 := by
  simp [timeText, length_padded_two (show second / 3600 < 100 by omega),
    length_padded_two (show second / 60 % 60 < 100 by omega),
    length_padded_two (show second % 60 < 100 by omega)]

/-- The text of a date determines the day. -/
theorem dateText_injective {n m : ℕ} (hn : 0 < n) (hnmax : n ≤ maxOrdinal) (hm : 0 < m)
    (hmmax : m ≤ maxOrdinal) (h : dateText (ofOrdinal n) = dateText (ofOrdinal m)) : n = m := by
  obtain ⟨hyear, hmonth, -⟩ := ofOrdinal_lt hn hnmax
  obtain ⟨hyear', hmonth', -⟩ := ofOrdinal_lt hm hmmax
  obtain ⟨hyears, hrest⟩ := append_cons_inj (by
    rw [length_padded (by decide) hyear, length_padded (by decide) hyear']) h
  obtain ⟨hmonths, hdays⟩ := append_cons_inj (by
    rw [length_padded (by decide) hmonth, length_padded (by decide) hmonth']) hrest
  have hdate : ofOrdinal n = ofOrdinal m := by
    rw [Date.mk.injEq]
    exact ⟨padded_injective 4 hyears, padded_injective 2 hmonths, padded_injective 2 hdays⟩
  rw [← toOrdinal_ofOrdinal hn, ← toOrdinal_ofOrdinal hm, hdate]

/-- The text of a time of day determines the second. -/
theorem timeText_injective {s t : ℕ} (hs : s < 86400) (ht : t < 86400)
    (h : timeText s = timeText t) : s = t := by
  obtain ⟨hhours, hrest⟩ := append_cons_inj (by
    rw [length_padded_two (by omega), length_padded_two (by omega)]) h
  obtain ⟨hminutes, hseconds⟩ := append_cons_inj (by
    rw [length_padded_two (by omega), length_padded_two (by omega)]) hrest
  have hhour := padded_injective 2 hhours
  have hminute := padded_injective 2 hminutes
  have hsecond := padded_injective 2 hseconds
  omega

end Calendar
