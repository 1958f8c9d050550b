/-
**Instants that are scanned.**

A literal spells a date of a year of at most four digits, a time of day and an offset of less than a
day.  The offset can move the instant across the beginning or the end of these years, by one year at
most, and a leap second stays at the end of a minute, since offsets are whole minutes.

Main results:

* `BoundQuery.Date.year_le_of_toDays_le` — neighbouring days lie in neighbouring years;
* `BoundQuery.Instant.year_bounds_of_ofLocal` — an offset moves the year by one at most;
* `BoundQuery.Instant.scanned_of_ofText?` — the leap seconds and the years of instants that are
  scanned.
-/

import BoundQuery.Proofs.Time.Stored

set_option relaxedAutoImplicit false
set_option autoImplicit false

namespace BoundQuery

/-! ### Years of neighbouring days -/

namespace Date

/-- The days of a date grow with its year as the days of eras do, up to those of one year. -/
theorem toDays_bounds {d : Date} (h : d.Exists) :
    146097 * d.year - 400 * 719530 ≤ 400 * d.toDays ∧
      400 * d.toDays ≤ 146097 * d.year - 400 * 719158 := by
  have hbounds := ofDays_bounds d.toDays
  rw [h] at hbounds
  obtain ⟨year, month, day⟩ := d
  dsimp only at hbounds ⊢
  simp only [toDays, daysBeforeYear, daysBeforeMonth]
  by_cases hmarch : 2 < month
  · simp only [hmarch, if_true]
    omega
  · simp only [hmarch, if_false]
    omega

/-- A date that comes at most a day after another one lies in its year, in the next one or before. -/
theorem year_le_of_toDays_le {d e : Date} (hd : d.Exists) (he : e.Exists)
    (h : e.toDays ≤ d.toDays + 1) : e.year ≤ d.year + 1 := by
  have hlow := (toDays_bounds he).1
  have hhigh := (toDays_bounds hd).2
  omega

end Date

namespace Instant

/-- **An offset of less than a day moves the year by one at most.** -/
theorem year_bounds_of_ofLocal {d : Date} {c : Clock} {offset : Int} {t : Instant}
    (hoffset : -86400 < offset ∧ offset < 86400) (h : ofLocal d c offset = some t) :
    d.year - 1 ≤ t.shownDate.year ∧ t.shownDate.year ≤ d.year + 1 := by
  obtain ⟨hd, -, ofDay, hofDay, hseconds, -⟩ := exists_of_ofLocal h
  have hshown : t.shownDate.Exists := Date.exists_ofDays _
  have hdays : t.shownDate.toDays = t.seconds / 86400 := Date.toDays_ofDays _
  have hnext := Date.year_le_of_toDays_le hd hshown (by omega)
  have hprevious := Date.year_le_of_toDays_le hshown hd (by omega)
  omega

/-! ### What is read -/

/-- The years of at most four digits. -/
theorem lt_of_readNumeral {least n : Nat} {s rest : List Char}
    (h : readNumeral least 4 s = some (n, rest)) : n < 10000 := by
  obtain ⟨ds, -, hdigits, -, hfour, rfl⟩ := exists_of_readNumeral h
  calc ofDigits ds < 10 ^ ds.length := ofDigits_lt hdigits
    _ ≤ 10 ^ 4 := Nat.pow_le_pow_right (by decide) hfour

theorem scanned_of_readStrict {s : List Char} {t : Instant} (h : readStrict s = some t) :
    t.LeapAtMinuteEnd ∧ -1 ≤ t.shownDate.year ∧ t.shownDate.year ≤ 10000 := by
  unfold readStrict at h
  obtain ⟨⟨year, r⟩, hyear, h⟩ := Option.bind_eq_some_iff.1 h
  have hfour := lt_of_readNumeral hyear
  -- the rest of the date
  iterate 4 obtain ⟨_, -, h⟩ := Option.bind_eq_some_iff.1 h
  dsimp only at h
  split at h
  · split at h
    · -- the mark before the time of day, and the time of day
      iterate 7 obtain ⟨_, -, h⟩ := Option.bind_eq_some_iff.1 h
      obtain ⟨_, hoffset, h⟩ := Option.bind_eq_some_iff.1 h
      split at h
      · obtain ⟨hminutes, hday⟩ := readOffset_minutes hoffset
        have hbounds := year_bounds_of_ofLocal hday h
        dsimp only at hbounds
        exact ⟨(storable_of_ofLocal hminutes h).leap, by omega, by omega⟩
      · cases h
    · cases h
  · cases h

/-- The beginning of a date shows the date. -/
theorem shownDate_midnight {d : Date} (h : d.Exists) : (midnight d).shownDate = d := by
  have hday : d.toDays * 86400 / 86400 = d.toDays := Int.mul_ediv_cancel _ (by decide)
  rw [shownDate, midnight, hday]
  exact h

theorem scanned_of_readDate {s : List Char} {t : Instant} (h : readDate s = some t) :
    t.LeapAtMinuteEnd ∧ -1 ≤ t.shownDate.year ∧ t.shownDate.year ≤ 10000 := by
  unfold readDate at h
  obtain ⟨⟨year, r⟩, hyear, h⟩ := Option.bind_eq_some_iff.1 h
  have hfour := lt_of_readNumeral hyear
  iterate 4 obtain ⟨_, -, h⟩ := Option.bind_eq_some_iff.1 h
  obtain ⟨hend, ht⟩ := Option.ite_none_right_eq_some.1 h
  cases ht
  rw [Bool.and_eq_true, decide_eq_true_eq] at hend
  rw [shownDate_midnight hend.2]
  refine ⟨fun hleap => ?_, ?_, ?_⟩
  · -- no part of a second stands at the beginning of a date
    cases hleap
  · dsimp only
    omega
  · dsimp only
    omega

/-- **A leap second that is scanned comes at the end of a minute, and the year has four digits or is
the one before or after those.** -/
theorem scanned_of_ofText? {s : List Char} {t : Instant} (h : Instant.ofText? s = some t) :
    t.LeapAtMinuteEnd ∧ -1 ≤ t.shownDate.year ∧ t.shownDate.year ≤ 10000 := by
  unfold Instant.ofText? at h
  split at h
  · cases h
  split at h
  · cases h
  split at h
  · exact scanned_of_readStrict h
  · exact scanned_of_readDate h

end Instant

end BoundQuery
