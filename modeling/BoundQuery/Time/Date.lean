/-
**Days of the Gregorian calendar.**

Days are counted from the first of January 1970.  Years are taken from March to February, so that
the leap day comes last, and are grouped into eras of 400 years, after which the calendar repeats.
A date exists exactly when counting its days and taking the date of that count gives it back:
the thirtieth of February is counted as a day in March and comes back as that.

Main definitions:

* `BoundQuery.Date` — a year, a month and a day of the month;
* `BoundQuery.Date.toDays`, `BoundQuery.Date.ofDays` — the count of a date, and the date of a count;
* `BoundQuery.Date.Exists` — the calendar has the date.

Main results:

* `BoundQuery.Date.toDays_ofDays` — counting the days of the date of a count gives the count;
* `BoundQuery.Date.exists_ofDays` — the date of a count exists.
-/

set_option relaxedAutoImplicit false
set_option autoImplicit false

namespace BoundQuery

/-- A year, a month and a day of the month; no such day need exist. -/
structure Date where
  year : Int
  month : Nat
  day : Nat
deriving DecidableEq

namespace Date

/-- The days of an era before year `y` of it, both counted from zero. -/
def daysBeforeYear (y : Int) : Int := 365 * y + y / 4 - y / 100

/-- The days of a year before its month `m`, when March is month zero. -/
def daysBeforeMonth (m : Int) : Int := (153 * m + 2) / 5

/-- The days from the first of January 1970 to a date. -/
def toDays (d : Date) : Int :=
  let march : Int := if 2 < d.month then d.month - 3 else d.month + 9
  let year := if 2 < d.month then d.year else d.year - 1
  year / 400 * 146097 + daysBeforeYear (year % 400) + daysBeforeMonth march + (d.day - 1) - 719468

/-- The year of an era that day `n` of the era falls into: its century, its group of four years
and its year in that group.  The last century and the last year of a group are longer than the
others by a leap day, which belongs to them and not to a fifth one. -/
def yearOfDay (n : Int) : Int :=
  let century := min 3 (n / 36524)
  let rest := n - century * 36524
  let group := rest / 1461
  100 * century + 4 * group + min 3 ((rest - group * 1461) / 365)

/-- The date that lies `days` days after the first of January 1970. -/
def ofDays (days : Int) : Date :=
  let n := days + 719468
  let yearOfEra := yearOfDay (n % 146097)
  let dayOfYear := n % 146097 - daysBeforeYear yearOfEra
  let march := (5 * dayOfYear + 2) / 153
  let day := dayOfYear - daysBeforeMonth march + 1
  let year := n / 146097 * 400 + yearOfEra
  if march < 10 then ⟨year, (march + 3).toNat, day.toNat⟩
  else ⟨year + 1, (march - 9).toNat, day.toNat⟩

/-- The calendar has the date. -/
def Exists (d : Date) : Prop := ofDays d.toDays = d

instance (d : Date) : Decidable d.Exists := inferInstanceAs (Decidable (ofDays d.toDays = d))

/-- Every day of an era falls into one of its 400 years, and is one of that year's days. -/
theorem yearOfDay_bounds (n : Int) (h₀ : 0 ≤ n) (h₁ : n < 146097) :
    0 ≤ yearOfDay n ∧ yearOfDay n < 400 ∧ 0 ≤ n - daysBeforeYear (yearOfDay n) ∧
      n - daysBeforeYear (yearOfDay n) ≤ 365 := by
  simp only [yearOfDay, daysBeforeYear]
  generalize hc : min 3 (n / 36524) = c
  generalize hg : (n - c * 36524) / 1461 = g
  generalize hy : min 3 ((n - c * 36524 - g * 1461) / 365) = y
  have hc' : 0 ≤ c ∧ c ≤ 3 ∧ 0 ≤ n - c * 36524 ∧ n - c * 36524 ≤ 36524 := by omega
  have hg' : 0 ≤ g ∧ g ≤ 24 ∧ 0 ≤ n - c * 36524 - g * 1461 ∧
      n - c * 36524 - g * 1461 ≤ 1460 := by omega
  have hy' : 0 ≤ y ∧ y ≤ 3 ∧ 365 * y ≤ n - c * 36524 - g * 1461 ∧
      n - c * 36524 - g * 1461 ≤ 365 * y + 365 := by omega
  have h4 : (100 * c + 4 * g + y) / 4 = 25 * c + g := by omega
  have h100 : (100 * c + 4 * g + y) / 100 = c := by omega
  rw [h4, h100]
  omega

/-- Counting the days of the date of a count gives the count. -/
theorem toDays_ofDays (days : Int) : (ofDays days).toDays = days := by
  have hn₀ : 0 ≤ (days + 719468) % 146097 := Int.emod_nonneg _ (by decide)
  have hn₁ : (days + 719468) % 146097 < 146097 := Int.emod_lt_of_pos _ (by decide)
  obtain ⟨hy₀, hy₁, hd₀, hd₁⟩ := yearOfDay_bounds _ hn₀ hn₁
  simp only [ofDays]
  generalize yearOfDay ((days + 719468) % 146097) = y at *
  generalize hd : (days + 719468) % 146097 - daysBeforeYear y = d at *
  generalize hm : (5 * d + 2) / 153 = m
  have hm' : 0 ≤ m ∧ m ≤ 11 := by omega
  have hday : 0 ≤ d - daysBeforeMonth m := by unfold daysBeforeMonth; omega
  have hera : ((days + 719468) / 146097 * 400 + y) / 400 = (days + 719468) / 146097 := by omega
  have hyear : ((days + 719468) / 146097 * 400 + y) % 400 = y := by omega
  by_cases hlt : m < 10
  · have h2 : 2 < (m + 3).toNat := by omega
    have hmarch : (((m + 3).toNat : Int) - 3) = m := by omega
    simp only [hlt, if_true, toDays, h2, hera, hyear, hmarch]
    omega
  · have h2 : ¬2 < (m - 9).toNat := by omega
    have hmarch : (((m - 9).toNat : Int) + 9) = m := by omega
    simp only [hlt, if_false, toDays, h2, Int.add_sub_cancel, hera, hyear, hmarch]
    omega

/-- The date of a count exists. -/
theorem exists_ofDays (days : Int) : (ofDays days).Exists := by
  unfold Exists
  rw [toDays_ofDays]

end Date

end BoundQuery
