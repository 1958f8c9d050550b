/-
**Instants read back.**

The text of an instant whose year has four digits has every number in its full width: months and
days have two digits at most, and so have the parts of a time of day.  The instants in range lie in
such years.  A leap second is shown as second sixty, which the reader takes for the second before it and the
nanoseconds of a whole second more; so it reads back where it was counted in second fifty-nine and
nowhere else.

Main definitions:

* `BoundQuery.Instant.FourDigitYear` — the year that is shown needs four digits and no sign.

Main results:

* `BoundQuery.Date.ofDays_bounds` — the month and the day of a count of days;
* `BoundQuery.Instant.readNanos_fractionText` — a part of a second reads back;
* `BoundQuery.Instant.fourDigitYear_of_inRange` — the instants in range lie in such years;
* `BoundQuery.Instant.ofText?_text` — the text of an instant in such a year reads back;
* `BoundQuery.Scanner.instant_text_append` — it does so before anything that is no character of an
  instant.
-/

import BoundQuery.Proofs.Text.Numeral
import BoundQuery.Scan.Number

set_option relaxedAutoImplicit false
set_option autoImplicit false

namespace BoundQuery

/-! ### Dates -/

/-- The month and the day of a count of days have at most two digits. -/
theorem Date.ofDays_bounds (days : Int) :
    1 ≤ (ofDays days).month ∧ (ofDays days).month ≤ 12 ∧
      1 ≤ (ofDays days).day ∧ (ofDays days).day ≤ 31 := by
  have hn₀ : 0 ≤ (days + 719468) % 146097 := Int.emod_nonneg _ (by decide)
  have hn₁ : (days + 719468) % 146097 < 146097 := Int.emod_lt_of_pos _ (by decide)
  obtain ⟨hy₀, hy₁, hd₀, hd₁⟩ := yearOfDay_bounds _ hn₀ hn₁
  simp only [ofDays]
  generalize yearOfDay ((days + 719468) % 146097) = y at *
  generalize (days + 719468) % 146097 - daysBeforeYear y = d at *
  unfold daysBeforeMonth
  split
  · refine ⟨?_, ?_, ?_, ?_⟩ <;> dsimp only <;> omega
  · refine ⟨?_, ?_, ?_, ?_⟩ <;> dsimp only <;> omega

/-- The year of a count of days lies in the era of the count, or is the first one after it. -/
theorem Date.ofDays_year_bounds (days : Int) :
    (days + 719468) / 146097 * 400 ≤ (ofDays days).year ∧
      (ofDays days).year ≤ (days + 719468) / 146097 * 400 + 400 := by
  have hn₀ : 0 ≤ (days + 719468) % 146097 := Int.emod_nonneg _ (by decide)
  have hn₁ : (days + 719468) % 146097 < 146097 := Int.emod_lt_of_pos _ (by decide)
  obtain ⟨hy₀, hy₁, -, -⟩ := yearOfDay_bounds _ hn₀ hn₁
  simp only [ofDays]
  split
  · constructor <;> dsimp only <;> omega
  · constructor <;> dsimp only <;> omega

namespace Instant

/-! ### Numbers in full width -/

/-- Digits are read for the number they stand for, where they are neither too few nor too many. -/
theorem readNumeral_append {least most : Nat} {ds rest : List Char}
    (hds : ∀ c ∈ ds, c.isDigit = true) (hleast : least ≤ ds.length) (hmost : ds.length ≤ most)
    (hrest : ∀ c ∈ rest.head?, c.isDigit = false) :
    readNumeral least most (ds ++ rest) = some (ofDigits ds, rest) := by
  have htake : ds.take most = ds := List.take_of_length_le hmost
  unfold readNumeral
  rw [takeDigits_append _ _ hds hrest]
  simp only [htake, Nat.not_lt.2 hleast, if_false]
  rw [List.drop_left]

/-- What is read for a number are digits at the front, neither too few nor too many. -/
theorem exists_of_readNumeral {least most n : Nat} {s rest : List Char}
    (h : readNumeral least most s = some (n, rest)) : ∃ ds, s = ds ++ rest ∧
      (∀ c ∈ ds, c.isDigit = true) ∧ least ≤ ds.length ∧ ds.length ≤ most ∧ ofDigits ds = n := by
  have hsplit := takeDigits_append_eq s
  have hdigits : ∀ c ∈ (takeDigits s).1, c.isDigit = true :=
    List.all_eq_true.1 List.all_takeWhile
  simp only [readNumeral] at h
  split at h
  · cases h
  · next hleast =>
      cases h
      have hprefix : (takeDigits s).1.take most <+: s :=
        (List.take_prefix most _).trans ⟨_, hsplit⟩
      exact ⟨(takeDigits s).1.take most, (List.prefix_iff_eq_append.1 hprefix).symm,
        fun c hc => hdigits c (List.mem_of_mem_take hc), Nat.not_lt.1 hleast,
        List.length_take_le most _, rfl⟩

/-- A number in its full width reads back. -/
theorem readNumeral_padded {width n : Nat} (h₀ : 0 < width) (h : n < 10 ^ width)
    {rest : List Char} (hrest : ∀ c ∈ rest.head?, c.isDigit = false) :
    readNumeral width width (padded width n ++ rest) = some (n, rest) := by
  have hlen : (padded width n).length = width := length_padded h₀ h
  rw [readNumeral_append (fun _ hc => isDigit_of_mem_padded hc) (Nat.le_of_eq hlen.symm)
    (Nat.le_of_eq hlen) hrest, ofDigits_padded]

/-- Digits behind a point are read as a part of a second. -/
theorem readNanos_padded {width n : Nat} (h₀ : 0 < width) (h₉ : width ≤ 9) (h : n < 10 ^ width)
    {rest : List Char} (hrest : ∀ c ∈ rest.head?, c.isDigit = false) :
    readNanos ('.' :: padded width n ++ rest) = some (n * 10 ^ (9 - width), rest) := by
  have hlen : (padded width n).length = width := length_padded h₀ h
  have htake : (padded width n).take 9 = padded width n := List.take_of_length_le (by omega)
  have hne : (padded width n).isEmpty = false := by
    rw [List.isEmpty_eq_false_iff, ← List.length_pos_iff]
    omega
  have hdigits := takeDigits_append (padded width n) rest
    (fun _ hc => isDigit_of_mem_padded hc) hrest
  simp only [List.cons_append, readNanos, hdigits, hne, htake, hlen, ofDigits_padded,
    Nat.pow_eq]
  rfl

/-- A part of a second reads back. -/
theorem readNanos_fractionText {n : Nat} (h : n < 1000000000) {rest : List Char}
    (hdigit : ∀ c ∈ rest.head?, c.isDigit = false) (hpoint : rest.head? ≠ some '.') :
    readNanos (fractionText n ++ rest) = some (n, rest) := by
  unfold fractionText
  split
  · next hz =>
      subst hz
      cases rest with
      | nil => rfl
      | cons c rest =>
          rw [List.nil_append, readNanos]
          rintro s heq
          exact hpoint (congrArg List.head? heq)
  split
  · next hmilli =>
      rw [readNanos_padded (by decide) (by decide) (by omega) hdigit]
      have hn : n / 1000000 * 10 ^ (9 - 3) = n := by omega
      rw [hn]
  split
  · next hmicro =>
      rw [readNanos_padded (by decide) (by decide) (by omega) hdigit]
      have hn : n / 1000 * 10 ^ (9 - 6) = n := by omega
      rw [hn]
  · rw [readNanos_padded (by decide) (by decide) (by omega) hdigit]
    simp

/-- What stands behind the seconds is no digit. -/
theorem head_fractionText (n : Nat) {rest : List Char}
    (hrest : ∀ c ∈ rest.head?, c.isDigit = false) :
    ∀ c ∈ (fractionText n ++ rest).head?, c.isDigit = false := by
  unfold fractionText
  split
  · exact hrest
  split
  · simp
  split
  · simp
  · simp

/-! ### The strict form -/

/-- A date and a time of day in full width, in universal time. -/
def clockText (d : Date) (c : Clock) : List Char :=
  dateText d ++ 'T' :: padded 2 c.hour ++ ':' :: padded 2 c.minute ++ ':' :: padded 2 c.second ++
    fractionText c.nanos ++ ['Z']

/-- The numbers of a date and a time of day behind the year have the width in which they are
written. -/
structure TwoDigits (d : Date) (c : Clock) : Prop where
  month_lt : d.month < 100
  day_lt : d.day < 100
  hour_lt : c.hour < 100
  minute_lt : c.minute < 100
  second_lt : c.second < 100
  nanos_lt : c.nanos < 1000000000

/-- Every number of a date and a time of day has the width in which it is written. -/
structure FullWidth (d : Date) (c : Clock) : Prop extends TwoDigits d c where
  year_nonneg : 0 ≤ d.year
  year_lt : d.year < 10000

theorem clockText_eq {d : Date} {c : Clock} (h : FullWidth d c) : clockText d c =
    padded 4 d.year.natAbs ++ '-' :: (padded 2 d.month ++ '-' :: (padded 2 d.day ++
      'T' :: (padded 2 c.hour ++ ':' :: (padded 2 c.minute ++ ':' :: (padded 2 c.second ++
        (fractionText c.nanos ++ ['Z'])))))) := by
  have hyear : 0 ≤ d.year ∧ d.year ≤ 9999 := by
    have h₀ := h.year_nonneg
    have h₁ := h.year_lt
    omega
  simp [clockText, dateText, yearText, hyear]

@[simp]
theorem expect_cons (c : Char) (rest : List Char) : expect c (c :: rest) = some rest := by
  simp [expect]

theorem eq_cons_of_expect {c : Char} {s rest : List Char} (h : expect c s = some rest) :
    s = c :: rest := by
  cases s with
  | nil => cases h
  | cons d s =>
      by_cases hd : d = c
      · rw [hd, expect_cons] at h
        cases h
        rw [hd]
      · rw [expect, if_neg hd] at h
        cases h

/-- The strict form is read number by number. -/
theorem readStrict_clockText {d : Date} {c : Clock} (h : FullWidth d c) :
    readStrict (clockText d c) = ofLocal d c 0 := by
  obtain ⟨y, mo, day⟩ := d
  obtain ⟨hour, minute, second, nanos⟩ := c
  have hyear : ((y.natAbs : Nat) : Int) = y := by
    have := h.year_nonneg
    dsimp only at this
    omega
  have hyearlt : y.natAbs < 10 ^ 4 := by
    have := h.year_lt
    dsimp only at this
    omega
  have two : 0 < 2 := by decide
  have four : 0 < 4 := by decide
  have dash : '-'.isDigit = false := rfl
  have mark : 'T'.isDigit = false := rfl
  have colon : ':'.isDigit = false := rfl
  have zone : 'Z'.isDigit = false := rfl
  have zone_ne : ['Z'].head? ≠ some '.' := by decide
  rw [clockText_eq h, readStrict]
  simp only [Option.bind_eq_bind]
  rw [readNumeral_padded four hyearlt (head_not_isDigit dash _)]
  simp only [Option.bind_some, expect_cons]
  rw [readNumeral_padded two h.month_lt (head_not_isDigit dash _)]
  simp only [Option.bind_some, expect_cons]
  rw [readNumeral_padded two h.day_lt (head_not_isDigit mark _)]
  simp only [Option.bind_some, decide_true, Bool.true_or, if_true]
  rw [readNumeral_padded two h.hour_lt (head_not_isDigit colon _)]
  simp only [Option.bind_some, expect_cons]
  rw [readNumeral_padded two h.minute_lt (head_not_isDigit colon _)]
  simp only [Option.bind_some, expect_cons]
  rw [readNumeral_padded two h.second_lt
    (head_fractionText nanos (head_not_isDigit zone []))]
  simp only [Option.bind_some]
  rw [readNanos_fractionText h.nanos_lt (head_not_isDigit zone []) zone_ne]
  simp only [Option.bind_some, readOffset, decide_true, Bool.true_or, if_true, List.isEmpty_nil,
    hyear]

/-! ### Years of four digits -/

/-- The date that an instant shows. -/
def shownDate (t : Instant) : Date := Date.ofDays (t.seconds / 86400)

/-- The time of day that an instant shows. -/
def shownClock (t : Instant) : Clock :=
  let ofDay := (t.seconds % 86400).toNat
  ⟨ofDay / 3600, ofDay / 60 % 60, ofDay % 60 + t.nanos / 1000000000, t.nanos % 1000000000⟩

theorem text_eq_clockText (t : Instant) : t.text = clockText t.shownDate t.shownClock := rfl

/-- An instant in range lies in a year of four digits. -/
theorem year_bounds_of_inRange {t : Instant} (h : t.InRange) :
    1600 ≤ t.shownDate.year ∧ t.shownDate.year ≤ 2400 := by
  obtain ⟨-, hlow, hhigh⟩ := h
  have hnanos := t.nanos_lt
  obtain ⟨hy₀, hy₁⟩ := Date.ofDays_year_bounds (t.seconds / 86400)
  unfold total at hlow hhigh
  unfold shownDate
  constructor <;> omega

theorem twoDigits_shown (t : Instant) : TwoDigits t.shownDate t.shownClock := by
  obtain ⟨-, hmonth, -, hday⟩ := Date.ofDays_bounds (t.seconds / 86400)
  have hnanos := t.nanos_lt
  have hday' : (t.seconds % 86400).toNat < 86400 := by omega
  constructor
  · unfold shownDate
    omega
  · unfold shownDate
    omega
  all_goals
    dsimp only [shownClock]
    omega

/-- The year that is shown needs four digits and no sign. -/
def FourDigitYear (t : Instant) : Prop := 0 ≤ t.shownDate.year ∧ t.shownDate.year ≤ 9999

instance (t : Instant) : Decidable t.FourDigitYear :=
  inferInstanceAs (Decidable (0 ≤ t.shownDate.year ∧ t.shownDate.year ≤ 9999))

theorem fourDigitYear_of_inRange {t : Instant} (h : t.InRange) : t.FourDigitYear := by
  obtain ⟨hy₀, hy₁⟩ := year_bounds_of_inRange h
  constructor
  · omega
  · omega

theorem fullWidth_shown {t : Instant} (h : t.FourDigitYear) :
    FullWidth t.shownDate t.shownClock := by
  obtain ⟨hy₀, hy₁⟩ := h
  refine ⟨twoDigits_shown t, hy₀, ?_⟩
  omega

/-- A year of four digits can be read. -/
theorem yearAllowed_of_fourDigitYear {t : Instant} (h : t.FourDigitYear) :
    yearAllowed t.shownDate = true := by
  obtain ⟨hy₀, hy₁⟩ := h
  rw [yearAllowed, Bool.and_eq_true, decide_eq_true_eq, decide_eq_true_eq]
  dsimp only [yearRange]
  omega

/-- The date and the time of day that an instant shows are those of the instant, where its year can
be read and a leap second comes at the end of a minute. -/
theorem ofLocal_shown {t : Instant} (hyear : yearAllowed t.shownDate = true)
    (hleap : t.LeapAtMinuteEnd) : ofLocal t.shownDate t.shownClock 0 = some t := by
  obtain ⟨s, n, hn⟩ := t
  have hallowed : yearAllowed (Date.ofDays (s / 86400)) = true := hyear
  have hdate : (Date.ofDays (s / 86400)).Exists ∧ yearAllowed (Date.ofDays (s / 86400)) = true :=
    ⟨Date.exists_ofDays _, hallowed⟩
  have hday : (s % 86400).toNat < 86400 := by omega
  have hclock : (s % 86400).toNat / 3600 < 24 ∧ (s % 86400).toNat / 60 % 60 < 60 ∧
      (s % 86400).toNat % 60 + n / 1000000000 ≤ 60 ∧ n % 1000000000 < 1000000000 := by
    unfold LeapAtMinuteEnd at hleap
    dsimp only at hleap
    omega
  -- only a leap second is shown as second sixty
  have hsixty : (s % 86400).toNat % 60 + n / 1000000000 = 60 ↔ 1000000000 ≤ n := by
    unfold LeapAtMinuteEnd at hleap
    dsimp only at hleap
    omega
  have hback : s / 86400 * 86400 + (((s % 86400).toNat / 3600 * 3600 +
      (s % 86400).toNat / 60 % 60 * 60 + (s % 86400).toNat % 60 : Nat) : Int) - 0 = s := by
    omega
  simp only [ofLocal, shownDate, shownClock, hdate, hclock, Date.toDays_ofDays, hsixty,
    not_true_eq_false, if_false, and_self]
  by_cases hl : 1000000000 ≤ n
  · have h59 : (s % 86400).toNat % 60 = 59 := by
      have := hleap hl
      dsimp only at this
      omega
    rw [h59] at hback
    have hnanos : n % 1000000000 + 1000000000 = n := by omega
    simp only [hl, if_true, hback, hnanos, hallowed, hn, dif_pos, not_true_eq_false, if_false]
  · have hzero : n / 1000000000 = 0 := by omega
    have hnanos : n % 1000000000 = n := by omega
    simp only [hl, if_false, hzero, Nat.add_zero, hback, hnanos, hallowed, hn, dif_pos,
      not_true_eq_false]

/-- The text of an instant in a year of four digits begins with a digit. -/
theorem exists_text_eq {t : Instant} (h : t.FourDigitYear) :
    ∃ c r, t.text = c :: r ∧ c.isDigit = true := by
  have hlen : (padded 4 t.shownDate.year.natAbs).length = 4 := by
    obtain ⟨hy₀, hy₁⟩ := h
    refine length_padded (by decide) ?_
    omega
  rw [text_eq_clockText, clockText_eq (fullWidth_shown h)]
  cases hyear : padded 4 t.shownDate.year.natAbs with
  | nil =>
      rw [hyear] at hlen
      cases hlen
  | cons c r => exact ⟨c, _, rfl, isDigit_of_mem_padded (hyear ▸ List.mem_cons_self)⟩

/-- **The text of an instant in a year of four digits reads back**, where a leap second comes at the
end of a minute. -/
theorem ofText?_text {t : Instant} (hyear : t.FourDigitYear) (hleap : t.LeapAtMinuteEnd) :
    Instant.ofText? t.text = some t := by
  have hfull := fullWidth_shown hyear
  have hread : readStrict t.text = some t := by
    rw [text_eq_clockText, readStrict_clockText hfull]
    exact ofLocal_shown (yearAllowed_of_fourDigitYear hyear) hleap
  have hmark : t.text.contains 'T' = true := by simp [text_eq_clockText, clockText]
  obtain ⟨c, r, htext, hdigit⟩ := exists_text_eq hyear
  rw [htext] at hread hmark ⊢
  simp only [ofText?, hdigit, not_true_eq_false, if_false, hmark, if_true]
  exact hread

end Instant

/-! ### The scanner -/

namespace Scanner

theorem isInstantChar_of_isDigit {c : Char} (h : c.isDigit = true) : isInstantChar c = true := by
  simp [isInstantChar, h]

theorem isInstantChar_of_mem_fractionText {n : Nat} {c : Char} (h : c ∈ Instant.fractionText n) :
    isInstantChar c = true := by
  unfold Instant.fractionText at h
  repeat' split at h
  · cases h
  all_goals
    rcases List.mem_cons.1 h with rfl | h
    · rfl
    · exact isInstantChar_of_isDigit (isDigit_of_mem_padded h)

/-- Every character of the text of an instant in a year of four digits is one of those that make up
instants. -/
theorem isInstantChar_of_mem_text {t : Instant} (h : t.FourDigitYear) {c : Char} (hc : c ∈ t.text) :
    isInstantChar c = true := by
  have hdigit : ∀ {w n : Nat}, c ∈ padded w n → isInstantChar c = true := fun hmem =>
    isInstantChar_of_isDigit (isDigit_of_mem_padded hmem)
  rw [Instant.text_eq_clockText, Instant.clockText_eq (Instant.fullWidth_shown h)] at hc
  simp only [List.mem_append, List.mem_cons, List.not_mem_nil, or_false] at hc
  rcases hc with hc | rfl | hc | rfl | hc | rfl | hc | rfl | hc | rfl | hc | hc | rfl
  all_goals first
    | exact hdigit hc
    | exact isInstantChar_of_mem_fractionText hc
    | rfl

theorem takeWhile_isInstantChar {rest : List Char}
    (h : ∀ c ∈ rest.head?, isInstantChar c = false) : rest.takeWhile isInstantChar = [] := by
  cases rest with
  | nil => rfl
  | cons c rest => simp [h c rfl]

theorem dropWhile_isInstantChar {rest : List Char}
    (h : ∀ c ∈ rest.head?, isInstantChar c = false) : rest.dropWhile isInstantChar = rest := by
  cases rest with
  | nil => rfl
  | cons c rest => simp [h c rfl]

/-- **The text of an instant in a year of four digits reads back before anything that is no
character of an instant**, where a leap second comes at the end of a minute. -/
theorem instant_text_append {t : Instant} (hyear : t.FourDigitYear) (hleap : t.LeapAtMinuteEnd)
    {rest : List Char} (hrest : ∀ c ∈ rest.head?, isInstantChar c = false) :
    instant (t.text ++ rest) = .ok (t, rest) := by
  have htext : ∀ c ∈ t.text, isInstantChar c = true :=
    fun _ hc => isInstantChar_of_mem_text hyear hc
  unfold instant
  rw [List.takeWhile_append_of_pos htext, List.dropWhile_append_of_pos htext,
    takeWhile_isInstantChar hrest, dropWhile_isInstantChar hrest, List.append_nil,
    Instant.ofText?_text hyear hleap]

end Scanner

end BoundQuery
