/-
**Stored instants.**

An instant is stored as the text that it is shown as, and that text is read in the lenient form: a
year of more than four digits has a sign there, and blanks may stand around every number.  The text
of an instant has no blanks, so its numbers are read one after the other as in the strict form.

Main definitions:

* `BoundQuery.Instant.Storable` — the year of an instant can be read, and a leap second comes at the
  end of a minute.

Main results:

* `BoundQuery.Instant.readLenient_text` — from the text of any instant the date and the time of day
  that it shows are read;
* `BoundQuery.Instant.readLenient_text_eq_some_iff` — the text of an instant reads back as the
  instant exactly when it can be stored;
* `BoundQuery.Instant.storable_of_readLenient` — only such instants are ever read.
-/

import BoundQuery.Proofs.Time.ReadBack

set_option relaxedAutoImplicit false
set_option autoImplicit false

namespace BoundQuery

/-- No visible character of ASCII is a blank. -/
theorem isBlank_of_bounds {c : Char} (h₀ : 33 ≤ c.toNat) (h₁ : c.toNat < 133) :
    isBlank c = false := by
  have hbelow : CharSet.bordersBelow c.toNat CharSet.whiteSpace.borders = 4 := by
    have h₉ : 9 ≤ c.toNat := by omega
    have h₁₄ : 14 ≤ c.toNat := by omega
    have h₃₂ : 32 ≤ c.toNat := by omega
    simp [CharSet.whiteSpace, CharSet.bordersBelow, h₉, h₁₄, h₃₂, h₀, Nat.not_le.2 h₁]
  rw [isBlank, CharSet.contains, hbelow]
  rfl

theorem isBlank_of_isDigit {c : Char} (h : c.isDigit = true) : isBlank c = false := by
  simp only [Char.isDigit, Bool.and_eq_true, decide_eq_true_eq, ge_iff_le,
    UInt32.le_iff_toNat_le] at h
  obtain ⟨h₀, h₁⟩ := h
  refine isBlank_of_bounds (Nat.le_trans (by decide) h₀) (Nat.lt_of_le_of_lt h₁ (by decide))

/-- A padded number is a numeral. -/
theorem IsNumeral.padded (width n : Nat) : IsNumeral (padded width n) :=
  (IsNumeral.decimal n).zeros_append _

namespace Instant

/-! ### Blanks -/

theorem skipBlank_cons {c : Char} (h : isBlank c = false) (s : List Char) :
    skipBlank (c :: s) = c :: s := by
  simp [skipBlank, h]

theorem skipBlank_numeral {ds : List Char} (h : IsNumeral ds) (rest : List Char) :
    skipBlank (ds ++ rest) = ds ++ rest := by
  obtain ⟨d, es, rfl, hd⟩ := h.exists_cons
  exact skipBlank_cons (isBlank_of_isDigit hd) (es ++ rest)

/-! ### The lenient form -/

/-- A number of two digits reads back. -/
theorem readShort_padded {n : Nat} (h : n < 100) {rest : List Char}
    (hrest : ∀ c ∈ rest.head?, c.isDigit = false) :
    readShort (padded 2 n ++ rest) = some (n, rest) := by
  have hlen : (padded 2 n).length = 2 := length_padded (by decide) h
  have hnum : IsNumeral (padded 2 n) := .padded 2 n
  rw [readShort, skipBlank_numeral hnum, readNumeral_append hnum.2 (by omega) (by omega) hrest,
    ofDigits_padded]

section Years

variable {ds rest : List Char} (h : IsNumeral ds) (hrest : ∀ c ∈ rest.head?, c.isDigit = false)

include h hrest

/-- A year of at most four digits needs no sign. -/
theorem readYear_unsigned (hfour : ds.length ≤ 4) :
    readYear (ds ++ rest) = some ((ofDigits ds : Int), rest) := by
  have hpos : 1 ≤ ds.length := List.length_pos_iff.2 h.1
  have hread := readNumeral_append h.2 hpos hfour hrest
  obtain ⟨d, es, rfl, hd⟩ := h.exists_cons
  rw [readYear, skipBlank_numeral h]
  split
  · next heq => exact absurd (List.cons.inj heq).1 (ne_of_isDigit hd (by decide))
  · next heq => exact absurd (List.cons.inj heq).1 (ne_of_isDigit hd (by decide))
  · simp only [hread, Option.map_some]

theorem readNumeral_year :
    readNumeral 1 (ds ++ rest).length (ds ++ rest) = some (ofDigits ds, rest) := by
  refine readNumeral_append h.2 (List.length_pos_iff.2 h.1) ?_ hrest
  rw [List.length_append]
  exact Nat.le_add_right _ _

/-- Behind a sign a year has any number of digits. -/
theorem readYear_minus : readYear ('-' :: ds ++ rest) = some (-(ofDigits ds : Int), rest) := by
  rw [List.cons_append, readYear, skipBlank_cons (by decide)]
  simp only [readNumeral_year h hrest, Option.map_some]

theorem readYear_plus : readYear ('+' :: ds ++ rest) = some ((ofDigits ds : Int), rest) := by
  rw [List.cons_append, readYear, skipBlank_cons (by decide)]
  simp only [readNumeral_year h hrest, Option.map_some]

end Years

/-- A year of any width reads back. -/
theorem readYear_yearText (y : Int) {rest : List Char}
    (hrest : ∀ c ∈ rest.head?, c.isDigit = false) :
    readYear (yearText y ++ rest) = some (y, rest) := by
  have hnum : IsNumeral (padded 4 y.natAbs) := .padded 4 y.natAbs
  unfold yearText
  split
  · next hfour =>
      have hlen : (padded 4 y.natAbs).length = 4 := length_padded (by decide) (by omega)
      have hy : ((y.natAbs : Nat) : Int) = y := by omega
      rw [readYear_unsigned hnum hrest (by omega), ofDigits_padded, hy]
  · split
    · have hy : -((y.natAbs : Nat) : Int) = y := by omega
      rw [readYear_minus hnum hrest, ofDigits_padded, hy]
    · have hy : ((y.natAbs : Nat) : Int) = y := by omega
      rw [readYear_plus hnum hrest, ofDigits_padded, hy]

/-- The lenient form is read number by number from a text without blanks. -/
theorem readLenient_clockText {d : Date} {c : Clock} (h : TwoDigits d c) :
    readLenient (clockText d c) = ofLocal d c 0 := by
  obtain ⟨y, mo, day⟩ := d
  obtain ⟨hour, minute, second, nanos⟩ := c
  have dash : '-'.isDigit = false := rfl
  have mark : 'T'.isDigit = false := rfl
  have colon : ':'.isDigit = false := rfl
  have zone : 'Z'.isDigit = false := rfl
  have dash_visible : isBlank '-' = false := by decide
  have colon_visible : isBlank ':' = false := by decide
  have zone_visible : isBlank 'Z' = false := by decide
  have zone_ne : ['Z'].head? ≠ some '.' := by decide
  have zone_read : readNamedOffset ['Z'] = some (0, []) := by decide
  simp only [clockText, dateText, List.append_assoc, List.cons_append]
  rw [readLenient]
  simp only [Option.bind_eq_bind]
  rw [readYear_yearText y (head_not_isDigit dash _)]
  simp only [Option.bind_some, skipBlank_cons dash_visible, expect_cons]
  rw [readShort_padded h.month_lt (head_not_isDigit dash _)]
  simp only [Option.bind_some, skipBlank_cons dash_visible, expect_cons]
  rw [readShort_padded h.day_lt (head_not_isDigit mark _)]
  simp only [Option.bind_some, decide_true, Bool.true_or, if_true]
  rw [readShort_padded h.hour_lt (head_not_isDigit colon _)]
  simp only [Option.bind_some, skipBlank_cons colon_visible, expect_cons]
  rw [readShort_padded h.minute_lt (head_not_isDigit colon _)]
  simp only [Option.bind_some, skipBlank_cons colon_visible, expect_cons]
  rw [readShort_padded h.second_lt (head_fractionText nanos (head_not_isDigit zone []))]
  simp only [Option.bind_some]
  rw [readNanos_fractionText h.nanos_lt (head_not_isDigit zone []) zone_ne]
  simp only [Option.bind_some, skipBlank_cons zone_visible, zone_read]
  rfl

/-- **From the text of any instant the date and the time of day that it shows are read.** -/
theorem readLenient_text (t : Instant) :
    readLenient t.text = ofLocal t.shownDate t.shownClock 0 := by
  rw [text_eq_clockText, readLenient_clockText (twoDigits_shown t)]

/-! ### Instants that can be stored -/

/-- An instant that can be stored: its year can be read, and a leap second comes at the end of a
minute. -/
structure Storable (t : Instant) : Prop where
  year : yearAllowed t.shownDate = true
  leap : t.LeapAtMinuteEnd

/-- The instant of a date and a time of day lies on that day, but for the offset, and in a year that
can be read; a leap second comes at the end of a minute of the day. -/
theorem exists_of_ofLocal {d : Date} {c : Clock} {offset : Int} {t : Instant}
    (h : ofLocal d c offset = some t) : d.Exists ∧ yearAllowed t.shownDate = true ∧
      ∃ ofDay : Nat, ofDay < 86400 ∧ t.seconds = d.toDays * 86400 + ofDay - offset ∧
        (1000000000 ≤ t.nanos → ofDay % 60 = 59) := by
  unfold ofLocal at h
  split at h
  · cases h
  next hdate =>
  have hexists : d.Exists := (Classical.not_not.1 hdate).1
  split at h
  · cases h
  next hclock =>
  by_cases hsixty : c.second = 60
  · simp only [hsixty, if_true] at h
    split at h
    · cases h
    next hyear =>
    split at h
    · cases h
      refine ⟨hexists, by simpa [shownDate] using hyear, _, ?_, rfl, fun _ => ?_⟩
      · omega
      · omega
    · cases h
  · simp only [hsixty, if_false] at h
    split at h
    · cases h
    next hyear =>
    split at h
    · cases h
      refine ⟨hexists, by simpa [shownDate] using hyear, _, ?_, rfl, fun hleap => ?_⟩
      · omega
      · dsimp only at hleap
        omega
    · cases h

/-- What a clock shows that runs whole minutes ahead can be stored. -/
theorem storable_of_ofLocal {d : Date} {c : Clock} {offset : Int} {t : Instant}
    (hoffset : offset % 60 = 0) (h : ofLocal d c offset = some t) : t.Storable := by
  obtain ⟨-, hyear, ofDay, -, hseconds, hend⟩ := exists_of_ofLocal h
  refine ⟨hyear, fun hleap => ?_⟩
  have hsixty := hend hleap
  omega

/-- An offset is one of whole minutes, and of less than a day. -/
theorem readOffset_minutes {between : List Char → Option (List Char)} {s rest : List Char}
    {offset : Int} (h : readOffset between s = some (offset, rest)) :
    offset % 60 = 0 ∧ -86400 < offset ∧ offset < 86400 := by
  unfold readOffset at h
  split at h
  · cases h
  split at h
  · cases h
    decide
  split at h
  · simp only [Option.bind_eq_bind, Option.bind_eq_some_iff] at h
    obtain ⟨⟨hours, r₁⟩, -, r₂, -, ⟨minutes, r₃⟩, -, h⟩ := h
    dsimp only at h
    split at h
    · cases h
      split <;> omega
    · cases h
  · cases h

theorem readNamedOffset_minutes {s rest : List Char} {offset : Int}
    (h : readNamedOffset s = some (offset, rest)) : offset % 60 = 0 := by
  unfold readNamedOffset at h
  split at h
  · cases h
    rfl
  · exact (readOffset_minutes h).1

/-- **Only instants that can be stored are read.** -/
theorem storable_of_readLenient {s : List Char} {t : Instant} (h : readLenient s = some t) :
    t.Storable := by
  unfold readLenient at h
  -- the date
  iterate 5 obtain ⟨_, -, h⟩ := Option.bind_eq_some_iff.1 h
  dsimp only at h
  split at h
  · split at h
    · -- the mark before the time of day, and the time of day
      iterate 7 obtain ⟨_, -, h⟩ := Option.bind_eq_some_iff.1 h
      obtain ⟨_, hoffset, h⟩ := Option.bind_eq_some_iff.1 h
      split at h
      · exact storable_of_ofLocal (readNamedOffset_minutes hoffset) h
      · cases h
    · cases h
  · cases h

/-- **The text of an instant reads back as the instant exactly when it can be stored.** -/
theorem readLenient_text_eq_some_iff (t : Instant) :
    readLenient t.text = some t ↔ t.Storable := by
  refine ⟨storable_of_readLenient, fun h => ?_⟩
  rw [readLenient_text]
  exact ofLocal_shown h.year h.leap

end Instant

end BoundQuery
