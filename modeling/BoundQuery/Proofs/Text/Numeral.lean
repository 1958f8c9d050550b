/-
**Numerals at the front of a text.**

A numeral ends where a character follows that is no digit.  A numeral padded to a width has
exactly that width as long as the number has no more digits.

Main definitions:

* `BoundQuery.IsNumeral` — a text of digits alone, at least one of them.

Main results:

* `BoundQuery.Scanner.digits_append` — reading digits takes exactly a numeral;
* `BoundQuery.length_padded` — the width of a padded numeral;
* `BoundQuery.length_decimal_mul_ten_pow` — multiplying by a power of ten adds that many digits;
* `BoundQuery.ofDigits_lt` — the number that digits stand for is below a power of ten;
* `BoundQuery.ofDigits_append_zeros` — zeros behind digits multiply by a power of ten.
-/

import BoundQuery.Scan.Basic
import Mathlib.Algebra.Group.Nat.Defs

set_option relaxedAutoImplicit false
set_option autoImplicit false

namespace BoundQuery

/-! ### Digits -/

theorem isDigit_of_mem_decimal {n : Nat} {c : Char} (h : c ∈ decimal n) : c.isDigit = true :=
  Nat.isDigit_of_mem_toDigits (by decide) (by decide) h

theorem isDigit_of_mem_replicate {k : Nat} {c : Char} (h : c ∈ List.replicate k '0') :
    c.isDigit = true := by
  rw [(List.mem_replicate.1 h).2]
  rfl

theorem isDigit_of_mem_padded {width n : Nat} {c : Char} (h : c ∈ padded width n) :
    c.isDigit = true := by
  rcases List.mem_append.1 h with h | h
  · exact isDigit_of_mem_replicate h
  · exact isDigit_of_mem_decimal h

/-- A text of digits alone, at least one of them. -/
def IsNumeral (ds : List Char) : Prop := ds ≠ [] ∧ ∀ c ∈ ds, c.isDigit = true

namespace IsNumeral

theorem decimal (n : Nat) : IsNumeral (decimal n) :=
  ⟨decimal_ne_nil n, fun _ h => isDigit_of_mem_decimal h⟩

theorem zero : IsNumeral ['0'] := IsNumeral.decimal 0

/-- A numeral begins with a digit. -/
theorem exists_cons {ds : List Char} (h : IsNumeral ds) :
    ∃ d es, ds = d :: es ∧ d.isDigit = true := by
  cases ds with
  | nil => exact absurd rfl h.1
  | cons d es => exact ⟨d, es, rfl, h.2 d (by simp)⟩

theorem append_zeros {ds : List Char} (h : IsNumeral ds) (k : Nat) :
    IsNumeral (ds ++ List.replicate k '0') := by
  refine ⟨by simp [h.1], ?_⟩
  intro c hc
  rcases List.mem_append.1 hc with hc | hc
  · exact h.2 c hc
  · exact isDigit_of_mem_replicate hc

theorem zeros_append {ds : List Char} (h : IsNumeral ds) (k : Nat) :
    IsNumeral (List.replicate k '0' ++ ds) := by
  refine ⟨by simp [h.1], ?_⟩
  intro c hc
  rcases List.mem_append.1 hc with hc | hc
  · exact isDigit_of_mem_replicate hc
  · exact h.2 c hc

/-- The digits before a place that is not the first one are a numeral. -/
theorem take {ds : List Char} (h : IsNumeral ds) {n : Nat} (hn : 0 < n) :
    IsNumeral (ds.take n) := by
  refine ⟨?_, fun c hc => h.2 c (List.mem_of_mem_take hc)⟩
  rw [ne_eq, List.take_eq_nil_iff]
  rintro (hzero | hnil)
  · omega
  · exact h.1 hnil

/-- The digits behind a place that is not the last one are a numeral. -/
theorem drop {ds : List Char} (h : IsNumeral ds) {n : Nat} (hn : n < ds.length) :
    IsNumeral (ds.drop n) := by
  refine ⟨?_, fun c hc => h.2 c (List.mem_of_mem_drop hc)⟩
  rw [ne_eq, List.drop_eq_nil_iff]
  omega

/-- A numeral is taken for digits. -/
theorem isDigits {ds : List Char} (h : IsNumeral ds) :
    (ds.isEmpty || ¬ds.all Char.isDigit) = false := by
  simp [h.1, List.all_eq_true.2 h.2]

end IsNumeral

/-- A digit is none of the characters that are no digit. -/
theorem ne_of_isDigit {c d : Char} (hc : c.isDigit = true) (hd : d.isDigit = false) : c ≠ d := by
  rintro rfl
  rw [hc] at hd
  cases hd

theorem head_not_isDigit {c : Char} (h : c.isDigit = false) (s : List Char) :
    ∀ d ∈ (c :: s).head?, d.isDigit = false := by
  intro d hd
  cases hd
  exact h

/-! ### Scanning -/

namespace Scanner

/-- A run of digits ends where no digit follows. -/
theorem digits_append {ds rest : List Char} (h : IsNumeral ds)
    (hrest : ∀ c ∈ rest.head?, c.isDigit = false) : digits (ds ++ rest) = .ok (ds, rest) := by
  unfold digits
  rw [takeDigits_append ds rest h.2 hrest]
  cases ds with
  | nil => exact absurd rfl h.1
  | cons d ds => rfl

/-- What is taken for digits is a numeral that stands at the front. -/
theorem eq_append_of_digits {s ds rest : List Char} (h : digits s = .ok (ds, rest)) :
    s = ds ++ rest ∧ IsNumeral ds := by
  have hsplit := takeDigits_append_eq s
  have hdigits : ∀ c ∈ (takeDigits s).1, c.isDigit = true :=
    List.all_eq_true.1 List.all_takeWhile
  unfold digits at h
  split at h
  · cases h
  · next hne =>
      have htaken : takeDigits s = (ds, rest) := Except.ok.inj h
      rw [htaken] at hsplit hdigits hne
      exact ⟨hsplit.symm, fun hnil => hne rest (hnil ▸ rfl), hdigits⟩

/-- Digits are taken as far as there are any. -/
theorem head_of_digits {s ds rest : List Char} (h : digits s = .ok (ds, rest)) :
    ∀ c ∈ rest.head?, c.isDigit = false := by
  have hdrop : rest = s.dropWhile Char.isDigit := by
    unfold digits at h
    split at h
    · cases h
    · exact (congrArg Prod.snd (Except.ok.inj h)).symm
  intro c hc
  rw [hdrop] at hc
  have hnot := List.head?_dropWhile_not Char.isDigit s
  rw [Option.mem_def.1 hc] at hnot
  simpa using hnot

/-- No digits are taken where none stands. -/
theorem digits_of_head {s : List Char} (h : ∀ c ∈ s.head?, c.isDigit = false) :
    digits s = .error s := by
  have htake : takeDigits s = ([], s) := takeDigits_append [] s (by simp) h
  unfold digits
  rw [htake]

/-- A text is its sign and what is left of it without the sign. -/
theorem eq_sign_append (s : List Char) :
    s = (if (sign s).1 then ['-'] else []) ++ (sign s).2 := by
  unfold sign
  split <;> rfl

theorem sign_of_ne {c : Char} (h : c ≠ '-') (s : List Char) : sign (c :: s) = (false, c :: s) := by
  rw [sign]
  rintro rest heq
  exact h (List.cons.inj heq).1

/-- No sign stands before a numeral. -/
theorem sign_append {ds : List Char} (h : IsNumeral ds) (rest : List Char) :
    sign (ds ++ rest) = (false, ds ++ rest) := by
  obtain ⟨d, es, rfl, hd⟩ := h.exists_cons
  exact sign_of_ne (ne_of_isDigit hd (by decide)) (es ++ rest)

/-- A numeral with a sign or without one is taken apart into both. -/
theorem sign_signed (negative : Bool) {ds : List Char} (h : IsNumeral ds) (rest : List Char) :
    sign ((if negative then ['-'] else []) ++ (ds ++ rest)) = (negative, ds ++ rest) := by
  cases negative with
  | true => rfl
  | false => exact sign_append h rest

end Scanner

/-! ### Widths -/

/-- A padded numeral has its width when the number has no more digits than that. -/
theorem length_padded {width n : Nat} (h₀ : 0 < width) (h : n < 10 ^ width) :
    (padded width n).length = width := by
  have hle : (decimal n).length ≤ width := (Nat.length_toDigits_le_iff (by decide) h₀).2 h
  unfold padded
  rw [List.length_append, List.length_replicate]
  omega

theorem decimal_mul_ten {n : Nat} (h : 0 < n) : decimal (n * 10) = decimal n ++ ['0'] := by
  have := Nat.toDigits_append_toDigits (b := 10) (d := 0) (by decide) h (by decide)
  rw [Nat.toDigits_zero, Nat.add_zero, Nat.mul_comm] at this
  exact this.symm

/-- Multiplying by a power of ten adds that many digits. -/
theorem length_decimal_mul_ten_pow {n : Nat} (h : 0 < n) (j : Nat) :
    (decimal (n * 10 ^ j)).length = (decimal n).length + j := by
  induction j with
  | zero => simp
  | succ j ih =>
      have hpos : 0 < n * 10 ^ j := Nat.mul_pos h (Nat.pow_pos (by decide))
      rw [Nat.pow_succ, ← Nat.mul_assoc, decimal_mul_ten hpos, List.length_append, ih]
      rfl

/-! ### Digits and their number -/

theorem ofDigits_append (ds es : List Char) :
    ofDigits (ds ++ es) = ofDigits ds * 10 ^ es.length + ofDigits es := by
  unfold ofDigits
  rw [Nat.ofDigitChars_append, Nat.ofDigitChars_eq_ofDigitChars_zero, Nat.mul_comm]

/-- Digits stand for a number below the power of ten of their count. -/
theorem ofDigits_lt {ds : List Char} (h : ∀ c ∈ ds, c.isDigit = true) :
    ofDigits ds < 10 ^ ds.length := by
  induction ds with
  | nil => decide
  | cons d ds ih =>
      have hd : ofDigits [d] < 10 := by
        have hdigit := h d List.mem_cons_self
        simp only [Char.isDigit, Bool.and_eq_true, decide_eq_true_eq, ge_iff_le,
          UInt32.le_iff_toNat_le] at hdigit
        have hnine : d.toNat ≤ 57 := hdigit.2
        have hvalue : ofDigits [d] = 10 * 0 + (d.toNat - 48) := rfl
        omega
      have hds := ih fun c hc => h c (List.mem_cons_of_mem d hc)
      have hsplit : ofDigits (d :: ds) = ofDigits [d] * 10 ^ ds.length + ofDigits ds :=
        ofDigits_append [d] ds
      have hmul : ofDigits [d] * 10 ^ ds.length ≤ 9 * 10 ^ ds.length :=
        Nat.mul_le_mul_right _ (Nat.le_of_lt_succ hd)
      rw [hsplit, List.length_cons, Nat.pow_succ]
      omega

theorem ofDigits_zeros (k : Nat) : ofDigits (List.replicate k '0') = 0 := by
  unfold ofDigits
  rw [Nat.ofDigitChars_replicate_zero, Nat.mul_zero]

/-- Zeros behind digits multiply by a power of ten. -/
theorem ofDigits_append_zeros (ds : List Char) (k : Nat) :
    ofDigits (ds ++ List.replicate k '0') = ofDigits ds * 10 ^ k := by
  rw [ofDigits_append, ofDigits_zeros, List.length_replicate, Nat.add_zero]

/-- Zeros before digits change nothing. -/
theorem ofDigits_zeros_append (k : Nat) (ds : List Char) :
    ofDigits (List.replicate k '0' ++ ds) = ofDigits ds := by
  rw [ofDigits_append, ofDigits_zeros, Nat.zero_mul, Nat.zero_add]

end BoundQuery
