/-
**The characters of literals.**

Numbers, durations and instants are written with digits, a few signs and a few letters.  A literal
of any kind stands on one line: quoted texts and patterns spell a line break by an escape.

Main definitions:

* `BoundQuery.isNumeralChar`, `BoundQuery.NumeralText` — the characters of numerals, and texts of
  them.

Main results:

* `BoundQuery.numeralText_signed`, `BoundQuery.Layout.numeralText_literal`,
  `BoundQuery.Duration.numeralText_text`, `BoundQuery.Instant.numeralText_text` — the literals that
  are numerals;
* `BoundQuery.Value.newline_notMem_literal` — a literal has no line break.
-/

import BoundQuery.Proofs.Pattern.Spelling
import BoundQuery.Proofs.Text.Enclosed
import BoundQuery.Proofs.Text.Numeral
import BoundQuery.Value.Literal

set_option relaxedAutoImplicit false
set_option autoImplicit false

namespace BoundQuery

/-! ### Numerals -/

/-- The characters of numerals besides digits: signs, points, and the letters of instants and of
units of time. -/
def numeralMarks : List Char := "-+:.TZnumshdwoy".toList

/-- Whether a character may stand in a numeral. -/
def isNumeralChar (c : Char) : Bool := c.isDigit || numeralMarks.contains c

/-- A text of characters of numerals. -/
def NumeralText (s : List Char) : Prop := ∀ c ∈ s, isNumeralChar c = true

instance (s : List Char) : Decidable (NumeralText s) := List.decidableBAll _ s

section NumeralText

variable {s t : List Char} {c : Char}

@[simp] theorem numeralText_nil : NumeralText [] := fun _ h => by cases h

@[simp] theorem numeralText_append : NumeralText (s ++ t) ↔ NumeralText s ∧ NumeralText t :=
  List.forall_mem_append

@[simp] theorem numeralText_cons :
    NumeralText (c :: s) ↔ isNumeralChar c = true ∧ NumeralText s := List.forall_mem_cons

/-- A character that is in no numeral is not in such a text. -/
theorem NumeralText.notMem (hs : NumeralText s) (hc : isNumeralChar c = false) : c ∉ s := by
  intro hmem
  rw [hs c hmem] at hc
  cases hc

theorem isNumeralChar_of_isDigit (h : c.isDigit = true) : isNumeralChar c = true := by
  simp [isNumeralChar, h]

theorem numeralText_of_isDigit (h : ∀ c ∈ s, c.isDigit = true) : NumeralText s := fun c hc =>
  isNumeralChar_of_isDigit (h c hc)

@[simp] theorem numeralText_decimal (n : Nat) : NumeralText (decimal n) :=
  numeralText_of_isDigit fun _ => isDigit_of_mem_decimal

@[simp] theorem numeralText_padded (width n : Nat) : NumeralText (padded width n) :=
  numeralText_of_isDigit fun _ => isDigit_of_mem_padded

@[simp] theorem numeralText_signed (n : Int) : NumeralText (signed n) := by
  unfold signed
  split
  · exact numeralText_cons.2 ⟨rfl, numeralText_decimal _⟩
  · exact numeralText_decimal _

end NumeralText

theorem Layout.numeralText_positionalText {ds : List Char} (h : NumeralText ds) (p : Int) :
    NumeralText (positionalText ds p) := by
  have hzeros : ∀ k, NumeralText (List.replicate k '0') := fun k =>
    numeralText_of_isDigit fun _ => isDigit_of_mem_replicate
  have hpoint : isNumeralChar '.' = true := rfl
  have hzero : isNumeralChar '0' = true := rfl
  have htake : ∀ n, NumeralText (ds.take n) := fun n c hc => h c (List.mem_of_mem_take hc)
  have hdrop : ∀ n, NumeralText (ds.drop n) := fun n c hc => h c (List.mem_of_mem_drop hc)
  unfold positionalText
  split
  · simp [h, hzeros, hpoint, hzero]
  · dsimp only
    split
    · simp [htake, hdrop, hpoint]
    · simp [h, hzeros, hpoint, hzero]

/-- The literal of a floating-point number that has a numeral. -/
theorem Layout.numeralText_literal (negative : Bool) (m : Magnitude) :
    NumeralText (Layout.literal.text negative m) := by
  have hmagnitude : NumeralText (Layout.literal.magnitudeText m) := by
    unfold magnitudeText
    dsimp only
    rw [if_pos (Or.inr (by rfl))]
    exact numeralText_positionalText (numeralText_decimal _) _
  unfold text
  split
  · exact numeralText_cons.2 ⟨rfl, hmagnitude⟩
  · exact hmagnitude

/-- A numeral of a floating-point number has a point. -/
theorem Layout.point_mem_literal (negative : Bool) (m : Magnitude) :
    '.' ∈ Layout.literal.text negative m := by
  have hpositional : ∀ ds p, '.' ∈ positionalText ds p := by
    intro ds p
    unfold positionalText
    split
    · simp
    · dsimp only
      split <;> simp
  have hmagnitude : '.' ∈ Layout.literal.magnitudeText m := by
    unfold magnitudeText
    dsimp only
    rw [if_pos (Or.inr (by rfl))]
    exact hpositional _ _
  unfold text
  split
  · exact List.mem_cons_of_mem _ hmagnitude
  · exact hmagnitude

/-- The literal of a duration. -/
theorem Duration.numeralText_text (d : Duration) : NumeralText d.text := by
  have hsuffix : ∀ u : TimeUnit, NumeralText u.suffix.toList := by
    intro u
    cases u <;> decide
  have hcomponent : ∀ a, NumeralText (componentText a) := fun a =>
    numeralText_append.2 ⟨numeralText_decimal a.2, hsuffix a.1⟩
  unfold text
  split
  · decide
  · refine numeralText_append.2 ⟨by split <;> decide, fun c hc => ?_⟩
    obtain ⟨a, -, hc⟩ := List.mem_flatMap.1 hc
    exact hcomponent a c hc

/-- The literal of an instant. -/
theorem Instant.numeralText_text (t : Instant) : NumeralText t.text := by
  have hmarks : isNumeralChar '-' = true ∧ isNumeralChar '+' = true ∧ isNumeralChar ':' = true ∧
      isNumeralChar '.' = true ∧ isNumeralChar 'T' = true ∧ isNumeralChar 'Z' = true := by decide
  have hyear : ∀ y, NumeralText (yearText y) := by
    intro y
    unfold yearText
    split
    · exact numeralText_padded _ _
    · refine numeralText_cons.2 ⟨?_, numeralText_padded _ _⟩
      split <;> rfl
  have hfraction : ∀ n, NumeralText (fractionText n) := by
    intro n
    unfold fractionText
    repeat' split
    all_goals simp [hmarks]
  simp [text, dateText, hyear, hfraction, hmarks]

/-! ### Lines -/

theorem newline_notMem_quotedText (s : List Char) : '\n' ∉ quotedText s := by
  intro hmem
  have hcontrol := not_isControl_of_mem_quotedText hmem
  cases hcontrol

theorem newline_notMem_conversionText {name : String} {s : List Char} (hname : '\n' ∉ name.toList)
    (hs : '\n' ∉ s) : '\n' ∉ conversionText name s := by
  simp [conversionText, hname, hs]

/-- **A literal stands on one line.** -/
theorem Value.newline_notMem_literal (v : Value) : '\n' ∉ v.literal := by
  cases v with
  | boolean b => cases b <;> decide
  | integer n =>
      change '\n' ∉ integerLiteral n
      unfold integerLiteral
      split
      · exact newline_notMem_conversionText (by decide) (newline_notMem_quotedText _)
      · exact (numeralText_signed _).notMem rfl
  | unsigned n =>
      exact newline_notMem_conversionText (by decide) ((numeralText_decimal _).notMem rfl)
  | float x =>
      cases x with
      | nan => exact newline_notMem_conversionText (by decide) (newline_notMem_quotedText _)
      | infinite negative =>
          cases negative with
          | false => exact newline_notMem_conversionText (by decide) (newline_notMem_quotedText _)
          | true => exact newline_notMem_conversionText (by decide) (newline_notMem_quotedText _)
      | finite negative m => exact (Layout.numeralText_literal negative m).notMem rfl
  | text s => exact newline_notMem_quotedText _
  | instant t => exact t.numeralText_text.notMem rfl
  | duration d => exact d.numeralText_text.notMem rfl
  | pattern p =>
      have hescaped := Pattern.newline_notMem_escape p.spelling
      simp [literal, Pattern.literal, hescaped]

end BoundQuery
