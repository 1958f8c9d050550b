/-
**Rounding to the nearest magnitude.**

The nearest magnitude depends on the fraction and not on the two numbers it is written with, so a
decimal may trade zeros at the end of its digits for its exponent.  A magnitude is the nearest one
to its own units.

Main definitions:

* `BoundQuery.Magnitude.fraction` — a decimal as a fraction of units.

Main results:

* `BoundQuery.Magnitude.nearest_congr` — equal fractions have the same nearest magnitude;
* `BoundQuery.Magnitude.ofDecimal_mul_ten_pow` — zeros at the end of the digits of a decimal may
  be traded for its exponent;
* `BoundQuery.Magnitude.nearest_units` — a magnitude is the nearest one to its own units.
-/

import BoundQuery.Number.Double
import BoundQuery.Proofs.Text.Numeral
import Mathlib.Tactic.Ring

set_option relaxedAutoImplicit false
set_option autoImplicit false

namespace BoundQuery.Magnitude

/-! ### Powers -/

theorem unitsOf_eq (c : Nat) : unitsOf c =
    if c / 2 ^ 52 = 0 then c % 2 ^ 52
    else (2 ^ 52 + c % 2 ^ 52) * 2 ^ (c / 2 ^ 52 - 1) := rfl

theorem nearestCode_eq (num den : Nat) : nearestCode num den =
    ((num / den).log2 - 52) * 2 ^ 52 +
      roundHalfEven num (den * 2 ^ ((num / den).log2 - 52)) := rfl

/-! ### Fractions -/

theorem roundHalfEven_mul {c : Nat} (hc : 0 < c) (num den : Nat) :
    roundHalfEven (num * c) (den * c) = roundHalfEven num den := by
  have hdown : 2 * (num % den * c) < den * c ↔ 2 * (num % den) < den := by
    rw [← Nat.mul_assoc]
    exact Nat.mul_lt_mul_right hc
  have hup : den * c < 2 * (num % den * c) ↔ den < 2 * (num % den) := by
    rw [← Nat.mul_assoc]
    exact Nat.mul_lt_mul_right hc
  simp only [roundHalfEven, Nat.mul_div_mul_right _ _ hc, Nat.mul_mod_mul_right, hdown, hup]

theorem nearestCode_mul {c : Nat} (hc : 0 < c) (num den : Nat) :
    nearestCode (num * c) (den * c) = nearestCode num den := by
  simp only [nearestCode, Nat.mul_div_mul_right _ _ hc]
  rw [Nat.mul_right_comm den c, roundHalfEven_mul hc]

theorem nearest_eq_of_nearestCode_eq {num den num' den' : Nat}
    (h : nearestCode num den = nearestCode num' den') : nearest num den = nearest num' den' := by
  unfold nearest
  simp only [h]

/-- Equal fractions have the same nearest magnitude. -/
theorem nearest_congr {num den num' den' : Nat} (hd : 0 < den) (hd' : 0 < den')
    (h : num * den' = num' * den) : nearest num den = nearest num' den' := by
  apply nearest_eq_of_nearestCode_eq
  rw [← nearestCode_mul hd' num den, ← nearestCode_mul hd num' den', h, Nat.mul_comm den den']

/-! ### Decimals as fractions -/

/-- The number `d * 10 ^ k` as a fraction of units. -/
def fraction (d : Nat) (k : Int) : Nat × Nat :=
  if 0 ≤ k then (d * 10 ^ k.toNat * one, 1) else (d * one, 10 ^ (-k).toNat)

theorem fraction_pos (d : Nat) (k : Int) : 0 < (fraction d k).2 := by
  unfold fraction
  split
  · exact Nat.one_pos
  · exact Nat.pow_pos (by decide)

theorem fraction_of_nonneg (d k : Nat) : fraction d k = (d * 10 ^ k * one, 1) := by
  rw [fraction, if_pos (Int.natCast_nonneg k), Int.toNat_natCast]

theorem fraction_of_neg (d k : Nat) : fraction d (-(k : Int) - 1) = (d * one, 10 ^ (k + 1)) := by
  have hneg : ¬0 ≤ -(k : Int) - 1 := by omega
  have habs : (-(-(k : Int) - 1)).toNat = k + 1 := by omega
  rw [fraction, if_neg hneg, habs]

/-- Zeros at the end of the digits may be traded for the exponent: the fraction stays equal. -/
theorem fraction_mul_ten_pow (d j : Nat) (k : Int) :
    (fraction (d * 10 ^ j) (k - j)).1 * (fraction d k).2 =
      (fraction d k).1 * (fraction (d * 10 ^ j) (k - j)).2 := by
  -- the exponent may change its sign, so there are three cases
  rcases Int.le_total j k with hjk | hkj
  · obtain ⟨i, rfl⟩ : ∃ i : Nat, k = i + j := ⟨(k - j).toNat, by omega⟩
    have hk : (i + j : Int) = ((i + j : Nat) : Int) := by omega
    rw [Int.add_sub_cancel, fraction_of_nonneg, hk, fraction_of_nonneg]
    simp only [pow_add]
    ring
  · rcases lt_or_ge k 0 with hneg | hpos
    · obtain ⟨i, rfl⟩ : ∃ i : Nat, k = -(i : Int) - 1 := ⟨(-k - 1).toNat, by omega⟩
      have hk : -(i : Int) - 1 - j = -((i + j : Nat) : Int) - 1 := by omega
      rw [hk, fraction_of_neg, fraction_of_neg]
      simp only [pow_add]
      ring
    · obtain ⟨i, rfl⟩ : ∃ i : Nat, k = i := ⟨k.toNat, by omega⟩
      rcases Nat.eq_or_lt_of_le (Int.ofNat_le.1 hkj) with rfl | hlt
      · have hk : (i : Int) - i = ((0 : Nat) : Int) := by omega
        rw [hk, fraction_of_nonneg, fraction_of_nonneg]
        simp
      · obtain ⟨l, rfl⟩ : ∃ l : Nat, j = i + l + 1 := ⟨j - i - 1, by omega⟩
        have hk : (i : Int) - (i + l + 1 : Nat) = -(l : Int) - 1 := by omega
        rw [hk, fraction_of_neg, fraction_of_nonneg]
        simp only [pow_add]
        ring

/-- A decimal that is not zero and whose first digit is not too far away is rounded as a
fraction. -/
theorem ofDecimal_eq {d : Nat} (hd : d ≠ 0) (k : Int) :
    ofDecimal d k =
      if 320 < (decimal d).length + k then none
      else if (decimal d).length + k < -340 then some zero
      else nearest (fraction d k).1 (fraction d k).2 := by
  unfold ofDecimal fraction decimal
  simp only [hd, if_false]
  by_cases hk : 0 ≤ k
  · simp only [hk, if_true, Nat.pow_eq]
  · simp only [hk, if_false, Nat.pow_eq]

/-- Zeros at the end of the digits of a decimal may be traded for its exponent. -/
theorem ofDecimal_mul_ten_pow (d j : Nat) (k : Int) :
    ofDecimal (d * 10 ^ j) (k - j) = ofDecimal d k := by
  rcases Nat.eq_zero_or_pos d with rfl | hd
  · simp [ofDecimal]
  · have hpos : 0 < d * 10 ^ j := Nat.mul_pos hd (Nat.pow_pos (by decide))
    have hlen : ((decimal (d * 10 ^ j)).length : Int) + (k - j) = (decimal d).length + k := by
      rw [length_decimal_mul_ten_pow hd]
      omega
    have hnear : nearest (fraction (d * 10 ^ j) (k - j)).1 (fraction (d * 10 ^ j) (k - j)).2 =
        nearest (fraction d k).1 (fraction d k).2 :=
      nearest_congr (fraction_pos _ _) (fraction_pos _ _) (fraction_mul_ten_pow d j k)
    rw [ofDecimal_eq (by omega), ofDecimal_eq (by omega), hlen, hnear]

/-! ### Magnitudes -/

/-- A fraction with denominator one is rounded to itself where its leading 53 bits are all it
has. -/
theorem roundHalfEven_mul_self {den : Nat} (h : 0 < den) (n : Nat) :
    roundHalfEven (n * den) den = n := by
  have hdiv : n * den / den = n := Nat.mul_div_cancel n h
  have hmod : n * den % den = 0 := Nat.mul_mod_left n den
  simp [roundHalfEven, hdiv, hmod, h]

theorem log2_mul_two_pow {a : Nat} (h₁ : 2 ^ 52 ≤ a) (h₂ : a < 2 ^ 53) (e : Nat) :
    (a * 2 ^ e).log2 = 52 + e := by
  have hpos : 0 < 2 ^ e := Nat.two_pow_pos e
  have hne : a * 2 ^ e ≠ 0 := Nat.mul_ne_zero (by omega) (by omega)
  rw [Nat.log2_eq_iff hne]
  constructor
  · rw [Nat.pow_add]
    exact Nat.mul_le_mul_right _ h₁
  · have hsplit : 2 ^ (52 + e + 1) = 2 ^ 53 * 2 ^ e := by rw [← Nat.pow_add]; congr 1; omega
    rw [hsplit]
    exact Nat.mul_lt_mul_of_pos_right h₂ hpos

/-- The code nearest to the units of a code is that code. -/
theorem nearestCode_unitsOf (c : Nat) : nearestCode (unitsOf c) 1 = c := by
  rw [unitsOf_eq]
  have hmod : c % 2 ^ 52 < 2 ^ 52 := Nat.mod_lt _ (by decide)
  split
  · next he =>
      have hsmall : c < 2 ^ 52 := by omega
      have hlog : (c % 2 ^ 52).log2 - 52 = 0 := by
        by_cases hz : c % 2 ^ 52 = 0
        · rw [hz]
          rfl
        · have := (Nat.log2_lt hz).2 hmod
          omega
      have hround := roundHalfEven_mul_self Nat.one_pos (c % 2 ^ 52)
      rw [Nat.mul_one] at hround
      simp only [nearestCode_eq, Nat.div_one, hlog, Nat.pow_zero, Nat.mul_one, Nat.zero_mul,
        Nat.zero_add, hround]
      exact Nat.mod_eq_of_lt hsmall
  · next he =>
      have hlog := log2_mul_two_pow (a := 2 ^ 52 + c % 2 ^ 52) (by omega) (by omega)
        (c / 2 ^ 52 - 1)
      have hshift : 52 + (c / 2 ^ 52 - 1) - 52 = c / 2 ^ 52 - 1 := by omega
      simp only [nearestCode_eq, Nat.div_one, hlog, hshift, Nat.one_mul,
        roundHalfEven_mul_self (Nat.two_pow_pos _)]
      omega

/-- A magnitude is the nearest one to its own units. -/
theorem nearest_units (m : Magnitude) : nearest m.units 1 = some m := by
  have hcode : nearestCode m.units 1 = m.code := nearestCode_unitsOf m.code
  unfold nearest
  simp only [hcode, m.code_lt, dif_pos]

/-- The exponent of a code bounds its units. -/
theorem unitsOf_lt {c k : Nat} (h : c / 2 ^ 52 ≤ k + 1) : unitsOf c < 2 ^ 53 * 2 ^ k := by
  have hmod : c % 2 ^ 52 < 2 ^ 52 := Nat.mod_lt _ (by decide)
  have hk : 0 < 2 ^ k := Nat.two_pow_pos k
  rw [unitsOf_eq]
  split
  · calc c % 2 ^ 52 < 2 ^ 53 := by omega
      _ ≤ 2 ^ 53 * 2 ^ k := Nat.le_mul_of_pos_right _ hk
  · have hexp : 2 ^ (c / 2 ^ 52 - 1) ≤ 2 ^ k := Nat.pow_le_pow_right (by decide) (by omega)
    calc (2 ^ 52 + c % 2 ^ 52) * 2 ^ (c / 2 ^ 52 - 1)
        ≤ (2 ^ 52 + c % 2 ^ 52) * 2 ^ k := Nat.mul_le_mul_left _ hexp
      _ < 2 ^ 53 * 2 ^ k := Nat.mul_lt_mul_of_pos_right (by omega) hk

/-- The units of every magnitude are below `2 ^ 2098`. -/
theorem units_lt (m : Magnitude) : m.units < 2 ^ 53 * 2 ^ 2045 := by
  have hcode : m.code / 2 ^ 52 ≤ 2045 + 1 := by
    have := m.code_lt
    unfold infinity at this
    omega
  exact unitsOf_lt hcode

/-- A magnitude that is not zero has units. -/
theorem units_pos {m : Magnitude} (h : m.code ≠ 0) : 0 < m.units := by
  rw [units, unitsOf_eq]
  split
  · omega
  · exact Nat.mul_pos (by omega) (Nat.two_pow_pos _)

end BoundQuery.Magnitude
