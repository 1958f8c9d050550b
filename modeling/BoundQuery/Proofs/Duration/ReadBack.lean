/-
**Durations read back.**

The literal of a duration is its sign and its amounts, each with the suffix of its unit, which is
one of the spellings that the grammar has for it; no time is spelled as zero seconds.  What is read
from a spelling are the sums of its amounts, so the literal is read as the duration again.  Other
spellings have their amounts in any order, a unit several times or with nothing of it.

Main results:

* `BoundQuery.Scanner.duration_text_append` — the literal of a duration reads back;
* `BoundQuery.Duration.ofLiteral_eq_ok_iff` — what is read from a spelling;
* `BoundQuery.Duration.ofLiteral_grammar` — a text is read exactly when it is a spelling whose sums
  fit.
-/

import BoundQuery.Proofs.Duration.Grammar

set_option relaxedAutoImplicit false
set_option autoImplicit false

namespace BoundQuery

namespace Duration

/-! ### Literals are spellings -/

theorem spellsAmount_componentText (c : TimeUnit × Nat) :
    SpellsAmount (componentText c) c.swap :=
  ⟨decimal c.2, c.1.suffix, rfl, IsNumeral.decimal c.2, ofDigits_decimal c.2,
    TimeUnit.ofSuffix?_suffix c.1⟩

theorem spellsAmounts_components (cs : List (TimeUnit × Nat)) :
    SpellsAmounts (cs.flatMap componentText) (cs.map Prod.swap) := by
  induction cs with
  | nil => exact .nil
  | cons c cs ih => exact .cons (spellsAmount_componentText c) ih

/-- **The literal of a duration spells amounts whose sum with their sign is the duration.** -/
theorem exists_spellsDuration_text (d : Duration) : ∃ negative ps e,
    SpellsDuration d.text negative ps ∧ ofAmounts ps = .ok e ∧ e.withSign negative = d := by
  unfold text
  split
  · next hz =>
      have hspelled : SpellsAmounts ['0', 's'] [(0, .second)] :=
        spellsAmounts_components [(.second, 0)]
      refine ⟨false, [(0, .second)], zero, ⟨by simp, _, rfl, hspelled⟩, ofAmounts_zeroSeconds, ?_⟩
      exact (eq_zero_of_isZero hz).symm
  · next hz =>
      obtain ⟨e, hsum, hneg, hamount⟩ := ofAmounts_components d
      have hne : d.components.map Prod.swap ≠ [] :=
        mt List.map_eq_nil_iff.1 (components_ne_nil (Bool.eq_false_iff.2 hz))
      exact ⟨d.negative, _, e, ⟨hne, _, rfl, spellsAmounts_components d.components⟩, hsum,
        withSign_eq hneg hamount⟩

end Duration

/-- **The literal of a duration reads back before anything but a digit** and the two letters that
would make another unit of minutes. -/
theorem Scanner.duration_text_append (d : Duration) {rest : List Char}
    (hrest : ∀ c ∈ rest.head?, c.isDigit = false) (h : ClosesUnit rest) :
    duration (d.text ++ rest) = .ok (d, rest) := by
  obtain ⟨negative, ps, e, hspelled, hsum, hd⟩ := d.exists_spellsDuration_text
  rw [duration_append hspelled hsum hrest h, hd]

namespace Duration

/-! ### Whole texts -/

/-- A whole text is read as the sum of the amounts that it spells, with their sign. -/
theorem ofLiteral_iff {s : String} {d : Duration} : ofLiteral s = .ok d ↔
    ∃ negative ps e, SpellsDuration s.toList negative ps ∧ ofAmounts ps = .ok e ∧
      e.withSign negative = d := by
  unfold ofLiteral
  rw [Scanner.whole_eq_ok_iff]
  constructor
  · intro h
    obtain ⟨t, negative, ps, e, ht, hspelled, hsum, hd⟩ := Scanner.exists_of_duration h
    rw [ht, List.append_nil]
    exact ⟨negative, ps, e, hspelled, hsum, hd⟩
  · rintro ⟨negative, ps, e, hspelled, hsum, rfl⟩
    rw [← List.append_nil s.toList]
    exact Scanner.duration_append hspelled hsum (by simp) ⟨by simp, by simp⟩

/-- **What is read from a spelling**: the sums of its amounts, and its sign unless all of them are
zero. -/
theorem ofLiteral_eq_ok_iff {s : String} {negative : Bool} {ps : List (Nat × TimeUnit)}
    (h : SpellsDuration s.toList negative ps) {d : Duration} : ofLiteral s = .ok d ↔
      (∀ u, d.amount u = amountIn ps u) ∧ d.negative = (negative && !d.isZero) := by
  rw [ofLiteral_iff, ← exists_withSign_iff]
  constructor
  · rintro ⟨negative', qs, e, hspelled, hsum⟩
    obtain ⟨rfl, rfl⟩ := h.unique hspelled
    exact ⟨e, hsum⟩
  · rintro ⟨e, hsum⟩
    exact ⟨negative, ps, e, h, hsum⟩

/-- The literal of a duration reads back as a whole. -/
theorem ofLiteral_text (d : Duration) : ofLiteral (String.ofList d.text) = .ok d := by
  rw [ofLiteral_iff, String.toList_ofList]
  exact d.exists_spellsDuration_text

/-- **The texts that are read as durations are the spellings whose sums fit.**  What is read has
those sums that are not zero for its components, and is negative if a sign stands before anything;
and the literal of a duration is read as that duration. -/
theorem ofLiteral_grammar (s : String) :
    ((∃ d, ofLiteral s = .ok d) ↔
      ∃ negative ps, SpellsDuration s.toList negative ps ∧ ∀ u, amountIn ps u ≤ maxAmount) ∧
    (∀ negative ps, SpellsDuration s.toList negative ps → ∀ d, ofLiteral s = .ok d ↔
      (∀ c, c ∈ d.components ↔ amountIn ps c.1 ≠ 0 ∧ c.2 = amountIn ps c.1) ∧
      (d.negative = true ↔ negative = true ∧ ∃ p ∈ ps, p.1 ≠ 0)) ∧
    ∀ d : Duration, ofLiteral (String.ofList d.text) = .ok d := by
  refine ⟨?_, fun negative ps h d => ?_, ofLiteral_text⟩
  · constructor
    · rintro ⟨d, hd⟩
      obtain ⟨negative, ps, e, hspelled, hsum, -⟩ := ofLiteral_iff.1 hd
      exact ⟨negative, ps, hspelled, exists_ofAmounts_iff.1 ⟨e, hsum⟩⟩
    · rintro ⟨negative, ps, hspelled, hfit⟩
      obtain ⟨e, hsum⟩ := exists_ofAmounts_iff.2 hfit
      exact ⟨_, ofLiteral_iff.2 ⟨negative, ps, e, hspelled, hsum, rfl⟩⟩
  · rw [ofLiteral_eq_ok_iff h, ← amount_eq_iff]
    refine and_congr_right fun hamount => ?_
    have hzero : d.isZero = true ↔ ∀ p ∈ ps, p.1 = 0 := by
      rw [isZero_iff, ← amountIn_eq_zero_iff]
      exact forall_congr' fun u => by rw [hamount u]
    have hsome : (!d.isZero) = true ↔ ∃ p ∈ ps, p.1 ≠ 0 := by
      simp [← Bool.not_eq_true, hzero]
    rw [← hsome, ← Bool.and_eq_true, Bool.eq_iff_iff]

/-- Minutes, months and milliseconds are told apart, and none of them need come first. -/
example : (ofLiteral "1m2mo0w3ms").toOption.map components =
    some [(.month, 2), (.minute, 1), (.millisecond, 3)] := by decide +kernel

end Duration

end BoundQuery
