/-
**Numbers that stand by themselves.**

The query language reads a numeral as a signed number of 64 bits wherever it does not stand between
quotes, so a literal must not write a larger number there.  A whole number with a sign has its size
for a numeral, but for the least one, whose size is too large and which is quoted; a duration has
the amounts of its units, which all fit.  A whole number without a sign is written by itself as the
argument of a conversion, whatever its size, and from `2 ^ 63` on it does not fit.

Main definitions:

* `BoundQuery.unquoted` — what of a text does not stand between quotes;
* `BoundQuery.numerals` — the numerals of a text, each as long as it can be;
* `BoundQuery.bareNumbers` — the numbers of the numerals that do not stand between quotes.

Main results:

* `BoundQuery.bareNumbers_integer`, `BoundQuery.bareNumbers_unsigned`,
  `BoundQuery.bareNumbers_duration` — the numbers that literals write by themselves;
* `BoundQuery.Value.bareNumbers_lt_iff` — **they all fit 63 bits, unless the value is a whole number
  without a sign that does not**.
-/

import BoundQuery.Proofs.Duration.Made
import BoundQuery.Proofs.Tree.Evaluation
import BoundQuery.Proofs.Value.Characters

set_option relaxedAutoImplicit false
set_option autoImplicit false

namespace BoundQuery

/-! ### Numerals of a text -/

/-- What of a text does not stand between quotes, from a place on that does or does not.  The
quotes are kept, and a character behind a backslash between quotes closes nothing. -/
def unquoted : Bool → List Char → List Char
  | _, [] => []
  | true, '\\' :: _ :: s => unquoted true s
  | true, '"' :: s => '"' :: unquoted false s
  | true, _ :: s => unquoted true s
  | false, '"' :: s => '"' :: unquoted true s
  | false, c :: s => c :: unquoted false s

/-- The numerals of a text: the rows of digits between characters that are none. -/
def numerals (s : List Char) : List (List Char) :=
  (s.splitOnP fun c => !c.isDigit).filter fun ds => !ds.isEmpty

/-- The numbers of the numerals that do not stand between quotes. -/
def bareNumbers (s : List Char) : List Nat := (numerals (unquoted false s)).map ofDigits

section Numerals

variable {s t ds : List Char}

theorem unquoted_of_notMem (h : '"' ∉ s) : unquoted false s = s := by
  induction s with
  | nil => rfl
  | cons c s ih =>
      rw [List.mem_cons, not_or] at h
      rw [unquoted, ih h.2]
      exact fun hc => h.1 hc.symm

theorem bareNumbers_of_notMem (h : '"' ∉ s) : bareNumbers s = (numerals s).map ofDigits := by
  rw [bareNumbers, unquoted_of_notMem h]

/-- A character that is no digit belongs to no numeral. -/
theorem numerals_cons {c : Char} (hc : c.isDigit = false) (s : List Char) :
    numerals (c :: s) = numerals s := by
  simp [numerals, List.splitOnP_cons_eq_if_modifyHead, hc]

/-- Characters that are no digits belong to no numeral. -/
theorem numerals_append_of_notDigit (ht : t.any Char.isDigit = false) (s : List Char) :
    numerals (t ++ s) = numerals s := by
  induction t with
  | nil => rfl
  | cons c t ih =>
      obtain ⟨hc, ht⟩ := Bool.or_eq_false_iff.1 ht
      rw [List.cons_append, numerals_cons hc]
      exact ih ht

/-- Digits are a numeral where no digit follows. -/
theorem numerals_append (h : IsNumeral ds) (hs : ∀ c ∈ s.head?, c.isDigit = false) :
    numerals (ds ++ s) = ds :: numerals s := by
  have hdigits : ∀ c ∈ ds, (!c.isDigit) = false := fun c hc => by simp [h.2 c hc]
  cases s with
  | nil => simp [numerals, List.splitOnP_eq_singleton hdigits, h.1]
  | cons c s =>
      have hc : c.isDigit = false := hs c rfl
      rw [numerals_cons hc]
      simp [numerals, List.splitOnP_append_cons_of_forall_mem hdigits, hc, h.1]

theorem numerals_of_isNumeral (h : IsNumeral ds) : numerals ds = [ds] := by
  have happend := numerals_append h (s := []) nofun
  rwa [List.append_nil] at happend

end Numerals

/-! ### Literals -/

/-- The literal of a whole number with a sign has its size by itself, unless it is quoted. -/
theorem bareNumbers_integer (n : Int64) : bareNumbers (Value.integer n).literal =
    if n = Int64.minValue then [] else [n.toInt.natAbs] := by
  have hnumerals : numerals (signed n.toInt) = [decimal n.toInt.natAbs] := by
    unfold signed
    split
    · rw [numerals_cons rfl, numerals_of_isNumeral (.decimal _)]
    · exact numerals_of_isNumeral (.decimal _)
  rw [Value.literal, integerLiteral]
  split
  · next h =>
      subst h
      decide +kernel
  · rw [bareNumbers_of_notMem ((numeralText_signed _).notMem rfl), hnumerals, List.map_singleton,
      ofDigits_decimal]

/-- The literal of a whole number without a sign has the number by itself. -/
theorem bareNumbers_unsigned (n : UInt64) :
    bareNumbers (Value.unsigned n).literal = [n.toNat] := by
  have hquote : '"' ∉ conversionText "uint" (decimal n.toNat) := by
    have hdecimal := (numeralText_decimal n.toNat).notMem (c := '"') rfl
    simp [conversionText, hdecimal]
  have hopening : ("uint".toList ++ "(v: ".toList).any Char.isDigit = false := by decide
  have hclosing : ∀ c ∈ [')'].head?, c.isDigit = false := head_not_isDigit rfl []
  rw [Value.literal, bareNumbers_of_notMem hquote, conversionText, List.append_assoc,
    numerals_append_of_notDigit hopening, numerals_append (.decimal _) hclosing,
    numerals_cons rfl, List.map_cons, ofDigits_decimal]
  rfl

/-- The numerals of components are those of their amounts. -/
theorem numerals_components (cs : List (TimeUnit × Nat)) :
    numerals (cs.flatMap Duration.componentText) = cs.map fun c => decimal c.2 := by
  have hsuffix : ∀ u : TimeUnit, u.suffix.toList.any Char.isDigit = false := by
    intro u
    cases u <;> rfl
  have hhead : ∀ (u : TimeUnit) (s : List Char),
      ∀ c ∈ (u.suffix.toList ++ s).head?, c.isDigit = false := by
    intro u s
    cases u <;> exact head_not_isDigit rfl _
  induction cs with
  | nil => rfl
  | cons c cs ih =>
      rw [List.flatMap_cons, Duration.componentText, List.append_assoc,
        numerals_append (.decimal _) (hhead c.1 _), numerals_append_of_notDigit (hsuffix c.1), ih,
        List.map_cons]

/-- The literal of a duration has the amounts of its units by themselves. -/
theorem bareNumbers_duration (d : Duration) :
    bareNumbers d.text = if d.isZero then [0] else d.components.map Prod.snd := by
  have hsign : (if d.negative then ['-'] else []).any Char.isDigit = false := by
    split <;> rfl
  rw [bareNumbers_of_notMem (d.numeralText_text.notMem rfl), Duration.text]
  split
  · decide
  · rw [numerals_append_of_notDigit hsign, numerals_components, List.map_map]
    exact List.map_congr_left fun c _ => ofDigits_decimal c.2

/-! ### What fits -/

theorem lt_of_mem_bareNumbers_integer {n : Int64} {k : Nat}
    (h : k ∈ bareNumbers (Value.integer n).literal) : k < 2 ^ 63 := by
  rw [bareNumbers_integer] at h
  split at h
  · cases h
  · next hmin =>
      rw [List.mem_singleton.1 h]
      exact natAbs_lt_of_ne_minValue hmin

theorem lt_of_mem_bareNumbers_duration {d : Duration} {k : Nat} (h : k ∈ bareNumbers d.text) :
    k < 2 ^ 63 := by
  rw [bareNumbers_duration] at h
  split at h
  · rw [List.mem_singleton.1 h]
    decide
  · obtain ⟨c, hc, rfl⟩ := List.mem_map.1 h
    have hle := Duration.amount_le_of_mem hc
    unfold maxAmount at hle
    omega

/-- **A number that a literal writes by itself fits 63 bits**, be the value a whole number with or
without a sign or a duration, unless it is one without a sign that does not fit them itself: then it
is the one number that the literal has.  The literals of all rows that the operations on durations
make have numbers that fit. -/
theorem Value.bareNumbers_lt_iff {v : Value}
    (hv : v.kind = .integer ∨ v.kind = .unsigned ∨ v.kind = .duration) :
    ((∀ k ∈ bareNumbers v.literal, k < 2 ^ 63) ↔
      ∀ n : UInt64, v = .unsigned n → n.toNat < 2 ^ 63) ∧
    (∀ n : UInt64, v = .unsigned n → bareNumbers v.literal = [n.toNat]) ∧
    ∀ r, Duration.Row.Made r → ∀ k ∈ bareNumbers r.text, k < 2 ^ 63 := by
  refine ⟨?_, ?_, fun r hr k hk => ?_⟩
  · cases v with
    | integer n => exact ⟨fun _ => nofun, fun _ k => lt_of_mem_bareNumbers_integer⟩
    | unsigned n =>
        rw [bareNumbers_unsigned]
        simp
    | duration d => exact ⟨fun _ => nofun, fun _ k => lt_of_mem_bareNumbers_duration⟩
    | _ => simp [kind] at hv
  · rintro n rfl
    exact bareNumbers_unsigned n
  · obtain ⟨d, rfl⟩ := Duration.made_iff.1 hr
    rw [d.text_row] at hk
    exact lt_of_mem_bareNumbers_duration hk

/-- The least whole number with a sign is quoted, and the greatest one that fits is not. -/
theorem Value.bareNumbers_lt_iff_extremes :
    (Value.integer Int64.minValue).literal = "int(v: \"-9223372036854775808\")".toList ∧
    (∀ k ∈ bareNumbers (Value.integer Int64.minValue).literal, k < 2 ^ 63) ∧
    (Value.unsigned 9223372036854775807).literal = "uint(v: 9223372036854775807)".toList ∧
    (∀ k ∈ bareNumbers (Value.unsigned 9223372036854775807).literal, k < 2 ^ 63) := by
  have hinteger := bareNumbers_lt_iff (v := .integer Int64.minValue) (.inl rfl)
  have hunsigned := bareNumbers_lt_iff (v := .unsigned 9223372036854775807) (.inr (.inl rfl))
  refine ⟨by decide +kernel, hinteger.1.2 nofun, by decide +kernel, hunsigned.1.2 ?_⟩
  rintro n ⟨⟩
  decide

/-- From `2 ^ 63` on a whole number without a sign is written by itself and does not fit. -/
theorem Value.unsigned_exceeds : ∃ n : UInt64,
    (Value.unsigned n).literal = "uint(v: 9223372036854775808)".toList ∧
    ∃ k ∈ bareNumbers (Value.unsigned n).literal, 2 ^ 63 ≤ k := by
  refine ⟨9223372036854775808, by decide +kernel, 9223372036854775808, ?_, by decide⟩
  decide +kernel

end BoundQuery
