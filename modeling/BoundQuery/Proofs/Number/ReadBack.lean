/-
**Numbers with a point read back.**

The decimal that is written for a magnitude reads as that magnitude, whether a grid of few digits
has it or all its digits are needed, and the layout of literals moves its digits around a point
without changing the number they spell.  So the numeral of a finite number reads back as that very
number, its sign and its last bit included.

Main results:

* `BoundQuery.Magnitude.readsBack_shortest` — the shortest decimal of a magnitude reads back;
* `BoundQuery.Layout.exists_positionalText_eq` — the digits before and behind the point of a
  numeral;
* `BoundQuery.Scanner.float_text_append` — the numeral of a finite number reads back before
  anything but a digit.
-/

import BoundQuery.Number.Layout
import BoundQuery.Proofs.Number.Rounding
import BoundQuery.Scan.Number

set_option relaxedAutoImplicit false
set_option autoImplicit false

namespace BoundQuery

/-! ### Shortest decimals -/

/-- Zeros at the end of its digits do not change what a decimal reads as. -/
theorem Decimal.magnitude?_trim (fuel : Nat) (d : Decimal) :
    (d.trim fuel).magnitude? = d.magnitude? := by
  induction fuel generalizing d with
  | zero => rfl
  | succ fuel ih =>
      rw [Decimal.trim]
      split
      · next h =>
          have hmul : d.digits / 10 * 10 ^ 1 = d.digits := by omega
          have htrade := Magnitude.ofDecimal_mul_ten_pow (d.digits / 10) 1 (d.exponent + 1)
          have hexp : d.exponent + 1 - (1 : Nat) = d.exponent := by omega
          rw [hmul, hexp] at htrade
          rw [ih]
          exact htrade.symm
      · rfl

namespace Magnitude

theorem units_mul_lt {f b : Nat} (hf : 0 < f) (h : 2 ^ 53 * 2 ^ 2045 * f ≤ b) (m : Magnitude) :
    m.units * f < b :=
  Nat.lt_of_lt_of_le (Nat.mul_lt_mul_of_pos_right (units_lt m) hf) h

/-- A unit is `2 ^ -k`, and all digits of a magnitude are neither too many nor too few to be
rounded. -/
theorem exists_unitExponent : ∃ k : Nat, one = Nat.pow 2 k ∧
    (∀ m : Magnitude, m.exact = ⟨m.units * Nat.pow 5 k, -(k : Int)⟩) ∧
    341 < k ∧ Nat.pow 10 (k - 341) ≤ Nat.pow 5 k ∧
    ∀ m : Magnitude, m.units * Nat.pow 5 k < Nat.pow 10 (k + 320) :=
  ⟨1074, by decide +kernel, fun _ => rfl, by decide, by decide +kernel,
    units_mul_lt (by decide +kernel) (by decide +kernel)⟩

theorem readsBack_exact {m : Magnitude} (h : m.code ≠ 0) : m.exact.ReadsBack m := by
  -- the exponent stays a name: nothing below is to compute a power of that size
  obtain ⟨k, hone, hexact, hk, hlow, hhigh⟩ := exists_unitExponent
  have hpos : 0 < m.units := units_pos h
  have hfive : 0 < Nat.pow 5 k := Nat.pow_pos (by decide)
  have hfew : k - 341 < (decimal (m.units * Nat.pow 5 k)).length := by
    refine Nat.lt_of_not_le fun hle => ?_
    have hlt := (Nat.length_toDigits_le_iff (by decide) (by omega)).1 hle
    exact absurd hlt (Nat.not_lt_of_le (Nat.le_trans hlow (Nat.le_mul_of_pos_left _ hpos)))
  have hmany : (decimal (m.units * Nat.pow 5 k)).length ≤ k + 320 := by
    refine (Nat.length_toDigits_le_iff (by decide) (by omega)).2 ?_
    exact hhigh m
  have hd : m.units * Nat.pow 5 k ≠ 0 := Nat.ne_of_gt (Nat.mul_pos hpos hfive)
  have hfraction : fraction (m.units * Nat.pow 5 k) (-(k : Int)) =
      (m.units * Nat.pow 5 k * one, Nat.pow 10 k) := by
    rw [fraction, if_neg (by omega), Int.neg_neg, Int.toNat_natCast]
    rfl
  have hnearest : nearest (m.units * Nat.pow 5 k * one) (Nat.pow 10 k) = some m := by
    rw [← nearest_units m]
    refine nearest_congr (Nat.pow_pos (by decide)) Nat.one_pos ?_
    rw [Nat.mul_one, Nat.mul_assoc, hone]
    exact congrArg _ (Nat.mul_pow 5 2 k).symm
  rw [hexact]
  change ofDecimal (m.units * Nat.pow 5 k) (-(k : Int)) = some m
  rw [ofDecimal_eq hd, if_neg (by omega), if_neg (by omega), hfraction]
  exact hnearest

/-- **The shortest decimal of a magnitude reads back.** -/
theorem readsBack_shortest (tie : Tie) (m : Magnitude) : (m.shortest tie).ReadsBack m := by
  unfold shortest
  split
  · next h =>
      obtain ⟨c, hc⟩ := m
      subst h
      rfl
  · next h =>
      refine (Decimal.magnitude?_trim 17 _).trans ?_
      cases hfound : (List.range 17).findSome? fun n : Nat => m.onGrid tie (m.place - n) with
      | none => exact readsBack_exact h
      | some d =>
          obtain ⟨n, -, hn⟩ := List.exists_of_findSome?_eq_some hfound
          exact Decimal.readsBack_of_firstThat hn

end Magnitude

/-! ### Positional numerals -/

/-- **The layout of literals moves the digits around a point** and leaves the number they spell as
it was. -/
theorem Layout.exists_positionalText_eq {ds : List Char} (h : IsNumeral ds) (p : Int) :
    ∃ whole fraction, positionalText ds p = whole ++ '.' :: fraction ∧
      IsNumeral whole ∧ IsNumeral fraction ∧
      Magnitude.ofDecimal (ofDigits (whole ++ fraction)) (0 - fraction.length) =
        Magnitude.ofDecimal (ofDigits ds) p := by
  unfold positionalText
  split
  · next hp =>
      obtain ⟨k, rfl⟩ : ∃ k : Nat, p = k := ⟨p.toNat, by omega⟩
      refine ⟨ds ++ List.replicate k '0', ['0'], by simp, h.append_zeros k, IsNumeral.zero, ?_⟩
      have hzeros : ds ++ List.replicate k '0' ++ ['0'] = ds ++ List.replicate (k + 1) '0' := by
        rw [List.append_assoc, List.replicate_succ']
      have hexp : (0 : Int) - (['0'] : List Char).length = k - (k + 1 : Nat) := by
        simp only [List.length_cons, List.length_nil]
        omega
      rw [hzeros, ofDigits_append_zeros, hexp, Magnitude.ofDecimal_mul_ten_pow]
  · next hp =>
      dsimp only
      split
      · next hlen =>
          refine ⟨ds.take (ds.length - p.natAbs), ds.drop (ds.length - p.natAbs), rfl,
            h.take (by omega), h.drop (by omega), ?_⟩
          have hexp : (0 : Int) - (ds.drop (ds.length - p.natAbs)).length = p := by
            rw [List.length_drop]
            omega
          rw [List.take_append_drop, hexp]
      · next hlen =>
          refine ⟨['0'], List.replicate (p.natAbs - ds.length) '0' ++ ds, by simp,
            IsNumeral.zero, h.zeros_append _, ?_⟩
          have hzeros : ['0'] ++ (List.replicate (p.natAbs - ds.length) '0' ++ ds) =
              List.replicate (p.natAbs - ds.length + 1) '0' ++ ds := rfl
          have hexp : (0 : Int) - (List.replicate (p.natAbs - ds.length) '0' ++ ds).length = p := by
            rw [List.length_append, List.length_replicate]
            omega
          rw [hzeros, ofDigits_zeros_append, hexp]

/-- The literal of a magnitude is digits around a point that spell that magnitude. -/
theorem Layout.exists_magnitudeText_eq (m : Magnitude) :
    ∃ whole fraction, literal.magnitudeText m = whole ++ '.' :: fraction ∧
      IsNumeral whole ∧ IsNumeral fraction ∧
      Magnitude.ofDecimal (ofDigits (whole ++ fraction)) (0 - fraction.length) = some m := by
  have hread : (m.shortest .up).ReadsBack m := m.readsBack_shortest .up
  obtain ⟨whole, fraction, htext, hwhole, hfraction, hvalue⟩ :=
    exists_positionalText_eq (IsNumeral.decimal (m.shortest .up).digits) (m.shortest .up).exponent
  refine ⟨whole, fraction, ?_, hwhole, hfraction, ?_⟩
  · rw [← htext]
    exact if_pos (Or.inr rfl)
  · rw [hvalue, ofDigits_decimal]
    exact hread

namespace Scanner

/-- Digits around a point are read as the number they spell. -/
theorem float_append {whole fraction : List Char} (hwhole : IsNumeral whole)
    (hfraction : IsNumeral fraction) (negative : Bool) {rest : List Char}
    (hrest : ∀ c ∈ rest.head?, c.isDigit = false) :
    float ((if negative then ['-'] else []) ++ (whole ++ '.' :: fraction) ++ rest) =
      .ok (.ofParts negative whole fraction 0, rest) := by
  have hsign : sign ((if negative then ['-'] else []) ++ (whole ++ '.' :: fraction) ++ rest) =
      (negative, whole ++ '.' :: (fraction ++ rest)) := by
    cases negative with
    | true => simp [sign]
    | false => simpa using sign_append hwhole ('.' :: (fraction ++ rest))
  have hpoint : ∀ c ∈ ('.' :: (fraction ++ rest)).head?, c.isDigit = false := by simp
  simp only [float, hsign, andThen, map, char, digits_append hwhole hpoint,
    digits_append hfraction hrest, if_true]

/-- **The numeral of a finite number reads back before anything but a digit.** -/
theorem float_text_append (negative : Bool) (m : Magnitude) {rest : List Char}
    (hrest : ∀ c ∈ rest.head?, c.isDigit = false) :
    float (Layout.literal.text negative m ++ rest) = .ok (.finite negative m, rest) := by
  obtain ⟨whole, fraction, htext, hwhole, hfraction, hvalue⟩ := Layout.exists_magnitudeText_eq m
  have hsigned : Layout.literal.text negative m =
      (if negative then ['-'] else []) ++ (whole ++ '.' :: fraction) := by
    rw [← htext]
    cases negative <;> rfl
  have hparts : Double.ofParts negative whole fraction 0 = .finite negative m := by
    rw [Double.ofParts, Double.ofDecimal, hvalue]
    rfl
  rw [hsigned, float_append hwhole hfraction negative hrest, hparts]

end Scanner

end BoundQuery
