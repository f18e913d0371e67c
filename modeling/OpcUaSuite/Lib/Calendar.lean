import Mathlib.Order.Basic

/-!
# The proleptic Gregorian calendar

Days are counted from 1970-01-01. Years are counted from March, so that the
leap day is the last day of its year, in eras of four hundred years.
-/

namespace Calendar

structure Civil where
  year : Int
  month : Int
  day : Int
deriving DecidableEq

/-- The days before a year of an era. -/
def daysBeforeYear (yearOfEra : Int) : Int := 365 * yearOfEra + yearOfEra / 4 - yearOfEra / 100

/-- The days before a month of a year that begins in March. -/
def daysBeforeMonth (month : Int) : Int := (153 * month + 2) / 5

/-- The year of an era that a day of the era falls in: the last year of a century
and of four years may be a day longer. -/
def yearOfEra (dayOfEra : Int) : Int :=
  let century := min (dayOfEra / 36524) 3
  let dayOfCentury := dayOfEra - 36524 * century
  let fourYears := dayOfCentury / 1461
  100 * century + 4 * fourYears + min ((dayOfCentury - 1461 * fourYears) / 365) 3

/-- The date of a day of a year that begins in March. -/
def civilOfYear (year dayOfYear : Int) : Civil :=
  let month := (5 * dayOfYear + 2) / 153
  { year := year + if month < 10 then 0 else 1
    month := if month < 10 then month + 3 else month - 9
    day := dayOfYear - daysBeforeMonth month + 1 }

def civilOfDays (days : Int) : Civil :=
  let dayOfEra := (days + 719468) % 146097
  let year := yearOfEra dayOfEra
  civilOfYear (year + (days + 719468) / 146097 * 400) (dayOfEra - daysBeforeYear year)

def daysOfCivil (c : Civil) : Int :=
  let year := c.year - if 2 < c.month then 0 else 1
  let month := if 2 < c.month then c.month - 3 else c.month + 9
  let era := year / 400
  era * 146097 + daysBeforeYear (year % 400) + daysBeforeMonth month + (c.day - 1) - 719468

theorem daysBeforeYear_split {century fourYears year : Int} (hfour : 0 ≤ fourYears)
    (hfour' : fourYears ≤ 24) (hyear : 0 ≤ year) (hyear' : year ≤ 3) :
    daysBeforeYear (100 * century + 4 * fourYears + year) =
      36524 * century + 1461 * fourYears + 365 * year := by
  have hleap : (100 * century + 4 * fourYears + year) / 4 = 25 * century + fourYears := by omega
  have hcentury : (100 * century + 4 * fourYears + year) / 100 = century := by omega
  rw [daysBeforeYear, hleap, hcentury]
  omega

/-- A day of an era falls in one of its years. -/
theorem dayOfYear_bounds {dayOfEra : Int} (h : 0 ≤ dayOfEra) (h' : dayOfEra < 146097) :
    0 ≤ yearOfEra dayOfEra ∧ yearOfEra dayOfEra < 400 ∧
      0 ≤ dayOfEra - daysBeforeYear (yearOfEra dayOfEra) ∧
      dayOfEra - daysBeforeYear (yearOfEra dayOfEra) ≤ 365 := by
  obtain ⟨century, hcentury⟩ : ∃ c, c = min (dayOfEra / 36524) 3 := ⟨_, rfl⟩
  obtain ⟨fourYears, hfour⟩ : ∃ q, q = (dayOfEra - 36524 * century) / 1461 := ⟨_, rfl⟩
  obtain ⟨year, hyear⟩ :
      ∃ y, y = min ((dayOfEra - 36524 * century - 1461 * fourYears) / 365) 3 := ⟨_, rfl⟩
  have hera : yearOfEra dayOfEra = 100 * century + 4 * fourYears + year := by
    rw [hyear, hfour, hcentury]
    rfl
  rw [hera, daysBeforeYear_split (by omega) (by omega) (by omega) (by omega)]
  omega

theorem civilOfYear_bounds {year dayOfYear : Int} (h : 0 ≤ dayOfYear) (h' : dayOfYear ≤ 365) :
    1 ≤ (civilOfYear year dayOfYear).month ∧ (civilOfYear year dayOfYear).month ≤ 12 ∧
      1 ≤ (civilOfYear year dayOfYear).day ∧ (civilOfYear year dayOfYear).day ≤ 31 := by
  simp only [civilOfYear, daysBeforeMonth]
  omega

theorem daysOfCivil_civilOfYear {year dayOfYear : Int} (h : 0 ≤ dayOfYear)
    (h' : dayOfYear ≤ 365) :
    daysOfCivil (civilOfYear year dayOfYear) =
      year / 400 * 146097 + daysBeforeYear (year % 400) + dayOfYear - 719468 := by
  obtain ⟨month, hmonth⟩ : ∃ m, m = (5 * dayOfYear + 2) / 153 := ⟨_, rfl⟩
  have hyear : (civilOfYear year dayOfYear).year -
      (if 2 < (civilOfYear year dayOfYear).month then 0 else 1) = year := by
    simp only [civilOfYear, ← hmonth]
    split_ifs <;> omega
  have hback : (if 2 < (civilOfYear year dayOfYear).month then
      (civilOfYear year dayOfYear).month - 3 else (civilOfYear year dayOfYear).month + 9) =
        month := by
    simp only [civilOfYear, ← hmonth]
    split_ifs <;> omega
  simp only [daysOfCivil, hyear, hback]
  simp only [civilOfYear, ← hmonth]
  omega

theorem civilOfDays_bounds (days : Int) :
    1 ≤ (civilOfDays days).month ∧ (civilOfDays days).month ≤ 12 ∧
      1 ≤ (civilOfDays days).day ∧ (civilOfDays days).day ≤ 31 := by
  obtain ⟨-, -, hday, hday'⟩ := @dayOfYear_bounds ((days + 719468) % 146097)
    (Int.emod_nonneg _ (by decide)) (Int.emod_lt_of_pos _ (by decide))
  exact civilOfYear_bounds hday hday'

/-- Four hundred years are 146097 days. -/
theorem civilOfDays_year (days : Int) :
    (days + 719468) / 146097 * 400 ≤ (civilOfDays days).year ∧
      (civilOfDays days).year ≤ (days + 719468) / 146097 * 400 + 400 := by
  obtain ⟨hyear, hyear', -, -⟩ := @dayOfYear_bounds ((days + 719468) % 146097)
    (Int.emod_nonneg _ (by decide)) (Int.emod_lt_of_pos _ (by decide))
  simp only [civilOfDays, civilOfYear]
  split_ifs <;> omega

/-- The calendar date of a day is the date of no other day. -/
theorem daysOfCivil_civilOfDays (days : Int) : daysOfCivil (civilOfDays days) = days := by
  obtain ⟨hyear, hyear', hday, hday'⟩ := @dayOfYear_bounds ((days + 719468) % 146097)
    (Int.emod_nonneg _ (by decide)) (Int.emod_lt_of_pos _ (by decide))
  have hera : ∀ year era : Int, 0 ≤ year → year < 400 →
      (year + era * 400) / 400 = era ∧ (year + era * 400) % 400 = year := by
    intro year era h h'
    omega
  obtain ⟨hdiv, hmod⟩ := hera _ ((days + 719468) / 146097) hyear hyear'
  have hsplit := Int.emod_add_mul_ediv (days + 719468) 146097
  rw [civilOfDays, daysOfCivil_civilOfYear hday hday', hdiv, hmod]
  omega

end Calendar
