/-
**What was read can be written.**

Literals are spelled in more ways than they are written: with offsets and without a time of day, with
units in any order, with exponents, with zeros and escapes of any kind.  Still the literal of whatever
was read is read as the same value, and reading, writing and reading again is stable.  Instants are
the one exception.  The scanner takes all years of four digits, of which only some are in range, and
an offset can move an instant out of them; the year is then written with a sign and is not read.

Main results:

* `BoundQuery.Scanner.legible_of_literal` — what is read is legible;
* `BoundQuery.Scanner.literal_text_ne_ok` — a year with a sign is not read;
* `BoundQuery.Value.ofLiteral_rewritten` — which values that were read are read again.
-/

import BoundQuery.Proofs.Pattern.ReadBack
import BoundQuery.Proofs.Scan.Forms
import BoundQuery.Proofs.Time.Scanned
import BoundQuery.Proofs.Value.ReadBack

set_option relaxedAutoImplicit false
set_option autoImplicit false

namespace BoundQuery

namespace Scanner

/-! ### What is read -/

theorem exists_of_prependChars {cs t rest : List Char}
    {r : Except (List Char) (List Char × List Char)} (h : prependChars cs r = .ok (t, rest)) :
    ∃ u, r = .ok (u, rest) ∧ t = cs ++ u := by
  cases r with
  | error e => cases h
  | ok taken =>
      cases h
      exact ⟨taken.1, rfl, rfl⟩

/-- A spelling between slashes does not end in a lone backslash: that takes the slash with it. -/
theorem endsUnpaired_of_spelling {s t rest : List Char} (h : spelling s = .ok (t, rest)) :
    Pattern.endsUnpaired t = false := by
  -- along the pairs and characters that the scanner takes
  fun_induction spelling s generalizing t with
  | case1 => cases h
  | case2 => cases h
  | case3 =>
      cases h
      rfl
  | case4 => cases h
  | case5 s ih =>
      obtain ⟨u, hu, rfl⟩ := exists_of_prependChars h
      exact (Pattern.endsUnpaired_cons (by decide) u).trans (ih hu)
  | case6 c s _ ih =>
      obtain ⟨u, hu, rfl⟩ := exists_of_prependChars h
      have hpaired := ih hu
      exact hpaired
  | case7 c s _ _ hlone _ hpair ih =>
      obtain ⟨u, hu, rfl⟩ := exists_of_prependChars h
      have hb := Pattern.ne_backslash_of_alone hlone hpair
      exact (Pattern.endsUnpaired_cons hb u).trans (ih hu)

theorem endsUnpaired_of_pattern {s rest : List Char} {p : Pattern} (h : pattern s = .ok (p, rest)) :
    Pattern.endsUnpaired p.spelling = false := by
  obtain ⟨t, hslashes, hread⟩ := Pattern.exists_of_pattern h
  obtain ⟨⟨⟩, r, -, hspelling⟩ := exists_of_andThen hslashes
  rw [Pattern.endsUnpaired_spelling hread]
  exact endsUnpaired_of_spelling hspelling

/-- What is known of the instants that are taken. -/
theorem scanned_of_instant {s rest : List Char} {t : Instant} (h : instant s = .ok (t, rest)) :
    t.LeapAtMinuteEnd ∧ -1 ≤ t.shownDate.year ∧ t.shownDate.year ≤ 10000 :=
  Instant.scanned_of_ofText? (exists_of_instant h).2

/-- **What is read is legible**, and the year of an instant has four digits or is the one before or
after those. -/
theorem legible_of_literal {s rest : List Char} {v : Value} (h : literal s = .ok (v, rest)) :
    v.Legible ∧
      ∀ t, v = .instant t → -1 ≤ t.shownDate.year ∧ t.shownDate.year ≤ 10000 := by
  obtain ⟨f, hf⟩ := LiteralForm.exists_of_literal h
  cases f with
  | instant =>
      obtain ⟨t, hread, rfl⟩ := exists_of_map hf
      obtain ⟨hleap, hyear⟩ := scanned_of_instant hread
      refine ⟨hleap, ?_⟩
      rintro u ⟨⟩
      exact hyear
  | pattern =>
      obtain ⟨p, hread, rfl⟩ := exists_of_map hf
      refine ⟨endsUnpaired_of_pattern hread, ?_⟩
      rintro u ⟨⟩
  | _ =>
      obtain ⟨a, -, rfl⟩ := exists_of_map hf
      refine ⟨trivial, ?_⟩
      rintro u ⟨⟩

/-! ### Years with a sign -/

/-- Another year than one of four digits is written with a sign. -/
theorem exists_text_signed {t : Instant} (h : ¬t.FourDigitYear) :
    ∃ r, t.text = (if t.shownDate.year < 0 then '-' else '+') ::
      (padded 4 t.shownDate.year.natAbs ++ '-' :: r) := by
  have hyear : ¬(0 ≤ t.shownDate.year ∧ t.shownDate.year ≤ 9999) := h
  rw [Instant.text_eq_clockText]
  simp only [Instant.clockText, Instant.dateText, Instant.yearText, if_neg hyear, List.cons_append,
    List.append_assoc]
  exact ⟨_, rfl⟩

/-- An instant begins with a digit. -/
theorem instant_minus (s : List Char) : instant ('-' :: s) = .error ('-' :: s) := by
  have hhead : isInstantChar '-' = true := rfl
  simp [instant, hhead, Instant.ofText?]

/-- **A year with a sign is not read**: nothing begins with a plus sign, and with a minus sign only
the form of instants goes on with a dash behind the digits, which has no sign. -/
theorem literal_text_ne_ok {t : Instant} (h : ¬t.FourDigitYear) (v : Value) :
    literal t.text ≠ .ok (v, []) := by
  intro hread
  obtain ⟨r, htext⟩ := exists_text_signed h
  rw [htext] at hread
  by_cases hminus : t.shownDate.year < 0
  · rw [if_pos hminus] at hread
    have hds : IsNumeral (padded 4 t.shownDate.year.natAbs) := .padded 4 _
    have hdash : '-'.isDigit = false := rfl
    have hform := LiteralForm.ofText_signed true hds (head_not_isDigit hdash r)
    have hscan : instant.map Value.instant ('-' :: (padded 4 t.shownDate.year.natAbs ++ '-' :: r)) =
        .ok (v, []) := (LiteralForm.literal_eq_ok_iff hform).1 hread
    rw [map_of_error (instant_minus _)] at hscan
    cases hscan
  · rw [if_neg hminus] at hread
    obtain ⟨f, hf⟩ := LiteralForm.exists_of_literal hread
    cases LiteralForm.ofText_of_whole hf

end Scanner

namespace Value

/-- **What was read is read again from its literal**, except for instants in a year that needs a
sign, from whose literal nothing is read; these years are the one before and the one after those of
four digits.  What was read has a literal in the query language unless it is an instant out of range,
and leap seconds and patterns are no exception. -/
theorem ofLiteral_rewritten {s : String} {v : Value} (h : ofLiteral s = .ok v) :
    (v.checked = .ok v ↔ ∀ t, v = .instant t → t.InRange) ∧
    (v.checked = .ok v → ofLiteral (String.ofList v.literal) = .ok v) ∧
    (∀ w, ofLiteral (String.ofList v.literal) = .ok w ↔
      w = v ∧ ∀ t, v = .instant t → t.FourDigitYear) ∧
    (∀ t, v = .instant t → -1 ≤ t.shownDate.year ∧ t.shownDate.year ≤ 10000) ∧
    v.Legible := by
  have hread := Scanner.whole_eq_ok_iff.1 h
  obtain ⟨hlegible, hyears⟩ := Scanner.legible_of_literal hread
  have hend : Scanner.AtBoundary [] := by decide
  have hagain : (∀ t, v = .instant t → t.FourDigitYear) →
      ofLiteral (String.ofList v.literal) = .ok v := by
    intro hyear
    rw [ofLiteral, String.toList_ofList]
    exact Scanner.whole_of_ok (Scanner.literal_append_of_fourDigitYear hyear hlegible hend)
  have hchecked : v.checked = .ok v ↔ ∀ t, v = .instant t → t.InRange := by
    rw [checked_eq_ok_iff]
    cases v with
    | instant t => simp [HasLiteral]
    | _ => simp [HasLiteral]
  refine ⟨hchecked, fun hok => ?_, fun w => ⟨fun hw => ?_, ?_⟩, hyears, hlegible⟩
  · exact hagain fun t ht => Instant.fourDigitYear_of_inRange (hchecked.1 hok t ht)
  · have hyear : ∀ t, v = .instant t → t.FourDigitYear := by
      rintro t rfl
      by_contra hsigned
      rw [ofLiteral, String.toList_ofList, Scanner.whole_eq_ok_iff] at hw
      exact Scanner.literal_text_ne_ok hsigned w hw
    exact ⟨Except.ok.inj (hw.symm.trans (hagain hyear)), hyear⟩
  · rintro ⟨rfl, hyear⟩
    exact hagain hyear

/-- A leap second with an offset is read again from its literal. -/
theorem ofLiteral_rewritten_leapSecond :
    ofLiteral "2017-01-01T01:29:60.5+01:30" =
        .ok (.instant ⟨1483228799, 1500000000, by decide⟩) ∧
      ofLiteral (String.ofList (literal (.instant ⟨1483228799, 1500000000, by decide⟩))) =
        .ok (.instant ⟨1483228799, 1500000000, by decide⟩) := by
  have hread : ofLiteral "2017-01-01T01:29:60.5+01:30" =
      .ok (.instant ⟨1483228799, 1500000000, by decide⟩) := by decide +kernel
  exact ⟨hread, (ofLiteral_rewritten hread).2.1 (by decide)⟩

/-- A date of the year 1600 is read as an instant out of range, and the last minute of the year 9999
west of Greenwich as one in a year of five digits, whose literal is not read. -/
theorem read_out_of_range :
    (ofLiteral "1600-01-01" = .ok (.instant ⟨-11676096000, 0, by decide⟩) ∧
      checked (.instant ⟨-11676096000, 0, by decide⟩) ≠
        .ok (.instant ⟨-11676096000, 0, by decide⟩)) ∧
    ofLiteral "9999-12-31T23:59:59-00:01" = .ok (.instant ⟨253402300859, 0, by decide⟩) ∧
      String.ofList (literal (.instant ⟨253402300859, 0, by decide⟩)) = "+10000-01-01T00:00:59Z" ∧
      ofLiteral "+10000-01-01T00:00:59Z" ≠ .ok (.instant ⟨253402300859, 0, by decide⟩) := by
  refine ⟨⟨?_, ?_⟩, ?_, ?_, ?_⟩
  all_goals decide +kernel

end Value

end BoundQuery
