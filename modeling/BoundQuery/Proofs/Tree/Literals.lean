/-
**What an expression of a value is made of.**

A reader of trees takes a literal for what it is and knows nothing of signs: digits are a number
from zero up, a number with a point is neither negative nor infinite, and so are the amounts of a
duration.  A sign is an expression of its own around a literal, and a number that no literal can
hold is the call of a conversion.  The expressions of values keep to this, at every place of the
tree, and they have the values they were made for: the tree of a value and its literal in a text
lead to the same value.

Main definitions:

* `BoundQuery.Expr.Plain` — every literal of an expression can be taken for what it is.

Main results:

* `BoundQuery.Value.plain_toExpr` — the expression of a value is plain;
* `BoundQuery.Value.toExpr_denotes` — **the expression of a value is plain and has that value**.
-/

import BoundQuery.Proofs.Tree.Evaluation

set_option relaxedAutoImplicit false
set_option autoImplicit false

namespace BoundQuery

namespace Expr

/-! ### Plain expressions -/

mutual

/-- Every literal of an expression can be taken for what it is: digits are a numeral and fit the
kind of the number, a number with a point is finite and has no sign, and a duration has amounts,
none of them negative and each of a known unit.  Nothing but a minus sign stands before an
expression. -/
def Plain : Expr → Prop
  | integer digits => IsNumeral digits.toList ∧ ofDigits digits.toList < 2 ^ 63
  | unsigned digits => IsNumeral digits.toList ∧ ofDigits digits.toList < 2 ^ 64
  | float x => x.isFinite = true ∧ x.isNegative = false
  | duration parts =>
      parts ≠ [] ∧ ∀ part ∈ parts, 0 ≤ part.1 ∧ ∃ u : TimeUnit, part.2 = u.suffix
  | unary operator e => operator = "-" ∧ e.Plain
  | member object property => object.Plain ∧ property.Plain
  | record properties => FieldsPlain properties
  | apply callee arguments => callee.Plain ∧ AllPlain arguments
  | function parameters body => FieldsPlain parameters ∧ body.Plain
  | boolean _ => True
  | text _ => True
  | instant _ => True
  | pattern _ => True
  | identifier _ => True

/-- All expressions of a list are plain. -/
def AllPlain : List Expr → Prop
  | [] => True
  | e :: es => e.Plain ∧ AllPlain es

/-- The names and the values of all fields are plain. -/
def FieldsPlain : List (Expr × Expr) → Prop
  | [] => True
  | (name, e) :: fields => name.Plain ∧ e.Plain ∧ FieldsPlain fields

end

/-- A sign does not change whether an expression is plain. -/
theorem plain_withSign (sign : Bool) {e : Expr} (h : e.Plain) : (withSign sign e).Plain := by
  cases sign with
  | false => exact h
  | true => exact ⟨rfl, h⟩

/-- The call of a conversion has no literal but its text. -/
theorem plain_conversion (name s : String) : (conversion name (text s)).Plain := by
  have hfield : FieldsPlain [(identifier "v", text s)] := ⟨trivial, trivial, trivial⟩
  exact ⟨trivial, hfield, trivial⟩

end Expr

/-! ### Expressions of values -/

/-- A numeral is kept as digits and stands for its number. -/
theorem numeral_ofList_decimal {k bound : Nat} (h : k < bound) :
    IsNumeral (String.ofList (decimal k)).toList ∧
      ofDigits (String.ofList (decimal k)).toList < bound := by
  rw [String.toList_ofList, ofDigits_decimal]
  exact ⟨IsNumeral.decimal k, h⟩

theorem plain_integerExpr (n : Int64) : (integerExpr n).Plain := by
  unfold integerExpr
  split
  · exact Expr.plain_conversion _ _
  · next hmin =>
      exact Expr.plain_withSign _ (numeral_ofList_decimal (natAbs_lt_of_ne_minValue hmin))

theorem plain_floatExpr (x : Double) : (floatExpr x).Plain := by
  cases x with
  | nan => exact Expr.plain_conversion _ _
  | infinite negative => cases negative <;> exact Expr.plain_conversion _ _
  | finite negative m => exact Expr.plain_withSign negative ⟨rfl, rfl⟩

theorem Duration.plain_toExpr (d : Duration) : d.toExpr.Plain := by
  unfold toExpr
  refine Expr.plain_withSign _ ?_
  split
  · next hz =>
      constructor
      · simp
      · intro part hpart
        rw [List.mem_singleton.1 hpart]
        exact ⟨by decide, TimeUnit.second, rfl⟩
  · next hz =>
      constructor
      · simpa using components_ne_nil (Bool.eq_false_iff.2 hz)
      · intro part hpart
        obtain ⟨c, hc, rfl⟩ := List.mem_map.1 hpart
        exact ⟨amount_nonneg hc, c.1, rfl⟩

/-- The expression of a value is plain. -/
theorem Value.plain_toExpr (v : Value) : v.toExpr.Plain := by
  cases v with
  | boolean b => trivial
  | integer n => exact plain_integerExpr n
  | unsigned n => exact numeral_ofList_decimal n.toNat_lt
  | float x => exact plain_floatExpr x
  | text s => trivial
  | instant t => trivial
  | duration d => exact d.plain_toExpr
  | pattern p => trivial

/-! ### Trees and texts -/

/-- **The expression of a value is plain and has that value.**  Where the literal of the value is
legible too, it is read as the value that the expression has. -/
theorem Value.toExpr_denotes {v w : Value} (hv : v.checked = .ok w) (hleap : v.LeapLegible) :
    w.toExpr.value? = some v ∧ w.toExpr.Plain ∧
      (v.Legible → (Value.ofLiteral (String.ofList w.literal)).toOption = w.toExpr.value?) := by
  obtain ⟨hliteral, rfl⟩ := checked_eq_ok_iff.1 hv
  have hvalue := value?_toExpr hliteral hleap
  refine ⟨hvalue, v.plain_toExpr, ?_⟩
  intro hlegible
  rw [hvalue, ofLiteral_literal hliteral hlegible]
  rfl

/-- A leap second at the end of a minute is shown as second sixty and is read back from the tree. -/
theorem Value.toExpr_denotes_leapSecond : ∃ v w : Value,
    v = .instant ⟨1483228799, 1000000000, by decide⟩ ∧ v.checked = .ok w ∧ v.LeapLegible ∧
      w.toExpr.value? = some v ∧ w.toExpr.Plain ∧
        (Value.ofLiteral (String.ofList w.literal)).toOption = w.toExpr.value? := by
  have hchecked : (Value.instant ⟨1483228799, 1000000000, by decide⟩).checked =
      .ok (.instant ⟨1483228799, 1000000000, by decide⟩) := by decide
  have hlegible : (Value.instant ⟨1483228799, 1000000000, by decide⟩).Legible := fun _ => by decide
  obtain ⟨hvalue, hplain, htext⟩ := toExpr_denotes hchecked hlegible.leapLegible
  exact ⟨_, _, rfl, hchecked, hlegible.leapLegible, hvalue, hplain, htext hlegible⟩

end BoundQuery
