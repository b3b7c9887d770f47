import Mathlib.Tactic.IntervalCases

/-!
# The proleptic Gregorian calendar

Days are counted from the first of January of the year 0. A year that begins in March ends with its leap day, and the
years that begin in March repeat every 400 years, an era of 146097 days: with them a day's number is one formula, and
a number's date is found by division.
-/

namespace AikitRuntime.Library.Calendar

/-! ### Years and months -/

def IsLeap (year : Nat) : Prop := (year % 4 = 0 ∧ year % 100 ≠ 0) ∨ year % 400 = 0

instance (year : Nat) : Decidable (IsLeap year) := inferInstanceAs (Decidable (_ ∨ _))

def yearLength (year : Nat) : Nat := if IsLeap year then 366 else 365

/-- The days of a month, of the months 1 to 12. -/
def monthLength (year month : Nat) : Nat :=
  if month = 2 then (if IsLeap year then 29 else 28)
  else if month = 4 ∨ month = 6 ∨ month = 9 ∨ month = 11 then 30 else 31

/-- The days of the years before a year. -/
def daysBeforeYear : Nat → Nat
  | 0 => 0
  | year + 1 => daysBeforeYear year + yearLength year

/-- The days of a year's months before a month. -/
def daysBeforeMonth (year month : Nat) : Nat := ((List.range (month - 1)).map fun m => monthLength year (m + 1)).sum

/-- A date is a day of a month of a year. -/
structure ValidDate (year month day : Nat) : Prop where
  month_pos : 1 ≤ month
  month_le : month ≤ 12
  day_pos : 1 ≤ day
  day_le : day ≤ monthLength year month

/-- The days before a date. -/
def dayNumber (year month day : Nat) : Nat := daysBeforeYear year + daysBeforeMonth year month + (day - 1)

theorem daysBeforeYear_eq (year : Nat) :
    daysBeforeYear year + (year + 99) / 100 = 365 * year + (year + 3) / 4 + (year + 399) / 400 := by
  induction year with
  | zero => rfl
  | succ year ih =>
    rw [daysBeforeYear, yearLength]
    split
    · next h =>
      unfold IsLeap at h
      omega
    · next h =>
      unfold IsLeap at h
      omega

/-! ### Years that begin in March -/

/-- The days from the first of March of the year 0 to the first of March of a year. -/
def marchYearStart (year : Int) : Int := 365 * year + year / 4 - year / 100 + year / 400

/-- The days of a March year before a month of it, March being the month 0. -/
def marchMonthStart (month : Int) : Int := (153 * month + 2) / 5

/-- The March year that a month of a year is in. -/
def marchYear (year month : Nat) : Int := year - if month ≤ 2 then 1 else 0

/-- Its number in that year. -/
def marchMonth (month : Nat) : Int := if 2 < month then month - 3 else month + 9

/-- The months of a year, one after another. -/
theorem daysBeforeMonth_eq {year month : Nat} (hpos : 1 ≤ month) (hle : month ≤ 12) :
    (daysBeforeMonth year month : Int) =
      if month ≤ 2 then marchMonthStart (marchMonth month) - 306
      else marchMonthStart (marchMonth month) + if IsLeap year then 60 else 59 := by
  by_cases h : IsLeap year
  all_goals
    interval_cases month <;>
      simp [daysBeforeMonth, List.range_succ, monthLength, marchMonthStart, marchMonth, h]

/-- **The number of a day**, by the March year it is in. -/
theorem dayNumber_eq {year month day : Nat} (hpos : 1 ≤ month) (hle : month ≤ 12) (hday : 1 ≤ day) :
    (dayNumber year month day : Int) =
      60 + marchYearStart (marchYear year month) + marchMonthStart (marchMonth month) + (day - 1) := by
  have hyear := daysBeforeYear_eq year
  have hmonth := @daysBeforeMonth_eq year month hpos hle
  rw [dayNumber]
  unfold marchYearStart marchYear
  split at hmonth
  · next h =>
    rw [if_pos h]
    omega
  · next h =>
    rw [if_neg h]
    split at hmonth
    · next h =>
      unfold IsLeap at h
      omega
    · next h =>
      unfold IsLeap at h
      omega

/-! ### The date of a day -/

/-- A day of an era, by its century, its four years and its year. -/
structure Split (day a b c d : Int) : Prop where
  eq : day = 36524 * a + 1461 * b + 365 * c + d
  century : 0 ≤ a ∧ a ≤ 3
  fourYears : 0 ≤ b ∧ b ≤ 24
  year : 0 ≤ c ∧ c ≤ 3
  day : 0 ≤ d ∧ d ≤ 365
  leap : d = 365 → c = 3 ∧ (b = 24 → a = 3)

/-- Every day of an era is split so, by division: the last day of a cycle belongs to its last year. -/
theorem exists_split {day : Int} (hpos : 0 ≤ day) (hlt : day < 146097) :
    ∃ a b c d, Split day a b c d := by
  obtain ⟨a, ha⟩ : ∃ a : Int, a = if day = 146096 then 3 else day / 36524 := ⟨_, rfl⟩
  obtain ⟨r, hr⟩ : ∃ r : Int, r = day - 36524 * a := ⟨_, rfl⟩
  obtain ⟨b, hb⟩ : ∃ b : Int, b = if r = 36524 then 24 else r / 1461 := ⟨_, rfl⟩
  obtain ⟨r', hr'⟩ : ∃ r' : Int, r' = r - 1461 * b := ⟨_, rfl⟩
  obtain ⟨c, hc⟩ : ∃ c : Int, c = if r' = 1460 then 3 else r' / 365 := ⟨_, rfl⟩
  have hcentury : 0 ≤ a ∧ a ≤ 3 ∧ 0 ≤ r ∧ r ≤ 36524 ∧ (r = 36524 → a = 3) := by
    split at ha <;> omega
  have hfour : 0 ≤ b ∧ b ≤ 24 ∧ 0 ≤ r' ∧ r' ≤ 1460 ∧ (r' = 1460 → b = 24 → r = 36524) := by
    split at hb <;> omega
  have hyear : 0 ≤ c ∧ c ≤ 3 ∧ 0 ≤ r' - 365 * c ∧ r' - 365 * c ≤ 365 ∧ (r' - 365 * c = 365 → r' = 1460 ∧ c = 3) := by
    split at hc <;> omega
  refine ⟨a, b, c, r' - 365 * c, by omega, by omega, by omega, by omega, by omega, by omega⟩

/-- The year of an era that a day of it is in. -/
def yearOfEra (day : Int) : Int := (day - day / 1460 + day / 36524 - day / 146096) / 365

/-- **The year, by division**: each quotient counts the leap days that end a cycle. -/
theorem Split.yearOfEra {day a b c d : Int} (h : Split day a b c d) :
    yearOfEra day = 100 * a + 4 * b + c := by
  unfold Calendar.yearOfEra
  obtain ⟨heq, ha, hb, hc, hd, hleap⟩ := h
  have hfour : day / 1460 = 25 * a + b + (24 * a + b + 365 * c + d) / 1460 := by omega
  have hbound : 0 ≤ (24 * a + b + 365 * c + d) / 1460 ∧ (24 * a + b + 365 * c + d) / 1460 ≤ 1 := by omega
  by_cases hlast : d = 365
  · obtain ⟨rfl, hage⟩ := hleap hlast
    have hextra : (24 * a + b + 365 * 3 + d) / 1460 = 1 := by omega
    by_cases hend : b = 24
    · have hday : day = 146096 := by omega
      rw [hday]
      omega
    · have hcentury : day / 36524 = a := by omega
      have hera : day / 146096 = 0 := by omega
      omega
  · have hcentury : day / 36524 = a := by omega
    have hera : day / 146096 = 0 := by omega
    have hextra : (24 * a + b + 365 * c + d) / 1460 = 1 → 0 < d := by omega
    omega

/-! The days are now counted from the first of March of the year 0. -/

def dayOfEra (shifted : Int) : Int := shifted % 146097

/-- The day of a March year. -/
def dayOfYear (shifted : Int) : Int :=
  dayOfEra shifted - marchYearStart (yearOfEra (dayOfEra shifted))

def monthPrime (shifted : Int) : Int := (5 * dayOfYear shifted + 2) / 153

def civilDay (shifted : Int) : Int := dayOfYear shifted - marchMonthStart (monthPrime shifted) + 1

def civilMonth (shifted : Int) : Int := monthPrime shifted + if monthPrime shifted < 10 then 3 else -9

def civilYear (shifted : Int) : Int :=
  yearOfEra (dayOfEra shifted) + shifted / 146097 * 400 + if civilMonth shifted ≤ 2 then 1 else 0

/-- A day of a March year is one of its 365 days, or the leap day that ends it. -/
theorem dayOfYear_spec (shifted : Int) :
    0 ≤ yearOfEra (dayOfEra shifted) ∧ yearOfEra (dayOfEra shifted) < 400 ∧ 0 ≤ dayOfYear shifted ∧
      dayOfYear shifted ≤ 365 ∧ (dayOfYear shifted = 365 →
        ((yearOfEra (dayOfEra shifted) + 1) % 4 = 0 ∧ (yearOfEra (dayOfEra shifted) + 1) % 100 ≠ 0) ∨
          (yearOfEra (dayOfEra shifted) + 1) % 400 = 0) := by
  obtain ⟨a, b, c, d, h⟩ := @exists_split (dayOfEra shifted) (by unfold dayOfEra; omega)
    (by unfold dayOfEra; omega)
  have hyear := h.yearOfEra
  have hday : dayOfYear shifted = d := by
    obtain ⟨heq, ha, hb, hc, -, -⟩ := h
    unfold dayOfYear marchYearStart
    rw [hyear, heq]
    omega
  rw [hday, hyear]
  obtain ⟨-, ha, hb, hc, hd, hleap⟩ := h
  refine ⟨by omega, by omega, hd.1, hd.2, fun hlast => ?_⟩
  obtain ⟨rfl, hage⟩ := hleap hlast
  omega

/-- The days of a month, by its number in the March year that it is in. -/
theorem monthLength_march {year month : Nat} {prime : Int} (hprime : 0 ≤ prime ∧ prime ≤ 11)
    (hmonth : (month : Int) = prime + if prime < 10 then 3 else -9) :
    (monthLength year month : Int) =
      if prime = 11 then (if IsLeap year then 29 else 28) else marchMonthStart (prime + 1) - marchMonthStart prime := by
  obtain ⟨hpos, hle⟩ := hprime
  unfold monthLength marchMonthStart
  interval_cases prime <;> norm_num at hmonth <;> norm_cast at hmonth <;> subst hmonth <;> simp

/-- An era has as many days as four hundred March years. -/
theorem marchYearStart_era (year era : Int) : marchYearStart (year + era * 400) = marchYearStart year + era * 146097 := by
  unfold marchYearStart
  omega

theorem marchYear_civil {shifted : Int} {year month : Nat} (hyear : civilYear shifted = year)
    (hmonth : civilMonth shifted = month) :
    marchYear year month = yearOfEra (dayOfEra shifted) + shifted / 146097 * 400 := by
  unfold marchYear
  rw [← hyear, civilYear, hmonth]
  split
  · next h =>
    rw [if_pos (by omega)]
    omega
  · next h =>
    rw [if_neg (by omega)]
    omega

/-- **The date of a day**: the formulas give the date that has the day's number. -/
theorem civil_spec {shifted : Int} (h : 0 ≤ shifted) :
    ∃ year month day : Nat, civilYear shifted = year ∧ civilMonth shifted = month ∧ civilDay shifted = day ∧
      ValidDate year month day ∧ (dayNumber year month day : Int) = shifted + 60 := by
  obtain ⟨hyear, hyearLt, hday, hdayLe, hleap⟩ := dayOfYear_spec shifted
  have hprime : 0 ≤ monthPrime shifted ∧ monthPrime shifted ≤ 11 := by
    unfold monthPrime
    omega
  have hmonth : civilMonth shifted = monthPrime shifted + if monthPrime shifted < 10 then 3 else -9 := rfl
  have hmonths : 1 ≤ civilMonth shifted ∧ civilMonth shifted ≤ 12 := by
    rw [hmonth]
    split <;> omega
  have hfirst : 1 ≤ civilDay shifted := by
    unfold civilDay marchMonthStart monthPrime
    omega
  have hyearPos : 0 ≤ civilYear shifted := by
    unfold civilYear
    split <;> omega
  obtain ⟨year, hyearEq⟩ := Int.eq_ofNat_of_zero_le hyearPos
  obtain ⟨month, hmonthEq⟩ := Int.eq_ofNat_of_zero_le (by omega : 0 ≤ civilMonth shifted)
  obtain ⟨day, hdayEq⟩ := Int.eq_ofNat_of_zero_le (by omega : 0 ≤ civilDay shifted)
  have hmarch := marchYear_civil hyearEq hmonthEq
  refine ⟨year, month, day, hyearEq, hmonthEq, hdayEq, ⟨by omega, by omega, by omega, ?_⟩, ?_⟩
  · have hlength := @monthLength_march year _ _ hprime (hmonthEq ▸ hmonth)
    have hend : civilDay shifted = dayOfYear shifted - marchMonthStart (monthPrime shifted) + 1 := rfl
    split at hlength
    · next hlast =>
      -- the leap day is the last day of a March year
      have hyearNext : (year : Int) = yearOfEra (dayOfEra shifted) + shifted / 146097 * 400 + 1 := by
        rw [← hyearEq, civilYear, if_pos (by rw [hmonth, hlast]; decide)]
      have hfebruary : marchMonthStart 11 = 337 := by decide
      rw [hlast, hfebruary] at hend
      by_cases hleapDay : dayOfYear shifted = 365
      · have hage := hleap hleapDay
        have hisLeap : IsLeap year := by
          unfold IsLeap
          omega
        rw [if_pos hisLeap] at hlength
        omega
      · split at hlength <;> omega
    · unfold marchMonthStart monthPrime at *
      omega
  · have hmonthPrime : marchMonth month = monthPrime shifted := by
      unfold marchMonth
      split at hmonth <;> split <;> omega
    rw [dayNumber_eq (by omega) (by omega) (by omega), hmarch, marchYearStart_era, hmonthPrime, ← hdayEq]
    unfold civilDay dayOfYear dayOfEra
    omega

end AikitRuntime.Library.Calendar
