/-
**Expressions of values evaluate to them.**

An expression of a syntax tree has a value if it is a literal, a minus sign before something that
can be negated, or the call of a conversion.  A whole number is read off its digits, and amounts of
units are added up, so the tree and the value it stands for are two things.

The sign of a value is found in three places of its expression: a whole number, a number with a
point and a duration have it before a literal without one; the least whole number, whose size is no
number of its kind, has it inside a text; and no time has none.

Main definitions:

* `BoundQuery.Value.negated?` — the value of the other sign;
* `BoundQuery.Expr.value?` — the value of an expression.

Main results:

* `BoundQuery.Value.value?_toExpr` — the expression of a value has that value.
-/

import BoundQuery.Proofs.Value.ReadBack

set_option relaxedAutoImplicit false
set_option autoImplicit false

namespace BoundQuery

/-! ### Values of expressions -/

/-- The number of the other sign; the number that is no number has none. -/
def Double.negated : Double → Double
  | nan => nan
  | infinite negative => infinite (!negative)
  | finite negative m => finite (!negative) m

/-- The value of the other sign, where there is one. -/
def Value.negated? : Value → Option Value
  | integer n => if n = Int64.minValue then none else some (integer (-n))
  | float x => some (float x.negated)
  | duration d => some (duration d.negate)
  | _ => none

/-- The number of 64 bits without a sign that a whole text spells. -/
def unsignedOfText? (s : List Char) : Option UInt64 :=
  if s.isEmpty || ¬s.all Char.isDigit then none else unsignedOfDigits? s

/-- The amount and the unit that a number and a suffix stand for. -/
def amountOf? (part : Int64 × String) : Option (Nat × TimeUnit) :=
  if 0 ≤ part.1 then (TimeUnit.ofSuffix? part.2).map fun u => (part.1.toNatClampNeg, u) else none

/-- The sum of amounts. -/
def Duration.ofTree? (parts : List (Int64 × String)) : Option Duration := do
  (ofAmounts (← parts.mapM amountOf?)).toOption

namespace Expr

/-- The value of the call of a conversion: its one argument is a text and has a fixed name. -/
def converted? : Expr → List Expr → Option Value
  | identifier name, [record [(identifier argument, text s)]] =>
      if argument = "v" then
        if name = "int" then (integerOfText? s.toList).map .integer
        else if name = "float" then (Scanner.floatOfText? s).map .float
        else none
      else none
  | _, _ => none

/-- The value of an expression. -/
def value? : Expr → Option Value
  | boolean b => some (.boolean b)
  | integer digits => (integerOfText? digits.toList).map .integer
  | unsigned digits => (unsignedOfText? digits.toList).map .unsigned
  | float x => some (.float x)
  | text s => some (.text s)
  | instant s => (Scanner.instant.whole s.toList).toOption.map .instant
  | duration parts => (Duration.ofTree? parts).map .duration
  | pattern s => (Pattern.ofText s.toList).toOption.map .pattern
  | apply callee arguments => converted? callee arguments
  | unary operator e => if operator = "-" then e.value?.bind Value.negated? else none
  | identifier _ => none
  | member _ _ => none
  | record _ => none
  | function _ _ => none

theorem value?_negative (e : Expr) : (negative e).value? = e.value?.bind Value.negated? := by
  rw [negative, value?, if_pos rfl]

end Expr

/-! ### Reading all members of a list -/

/-- A list is read if each of its members is. -/
theorem mapM_eq_some_map {α β : Type} {f : α → Option β} {g : α → β} {l : List α}
    (h : ∀ a ∈ l, f a = some (g a)) : l.mapM f = some (l.map g) := by
  induction l with
  | nil => rfl
  | cons a l ih =>
      obtain ⟨ha, hl⟩ := List.forall_mem_cons.1 h
      rw [List.mapM_cons, ha, ih hl]
      rfl

/-! ### Whole numbers -/

/-- A size of 63 bits is read as a number that is not negative. -/
theorem integerOfText?_decimal {k : Nat} (hk : k < 2 ^ 63) :
    integerOfText? (decimal k) = some (Int64.ofNat k) := by
  have hfit : k < 0x8000000000000000 := hk
  have h := Scanner.integerOfText?_numeral false (IsNumeral.decimal k)
  rw [integerOfDigits?, ofDigits_decimal] at h
  simpa [hfit] using h

/-- The size of a number that is not negative is the number. -/
theorem ofNat_natAbs_of_nonneg {n : Int64} (h : 0 ≤ n.toInt) :
    Int64.ofNat n.toInt.natAbs = n := by
  have habs : (n.toInt.natAbs : Int) = n.toInt := by omega
  rw [← Int64.ofInt_eq_ofNat, habs, Int64.ofInt_toInt]

/-- The size of a negative number, negated, is the number. -/
theorem neg_ofNat_natAbs_of_neg {n : Int64} (h : n.toInt < 0) :
    -Int64.ofNat n.toInt.natAbs = n := by
  have habs : -(n.toInt.natAbs : Int) = n.toInt := by omega
  rw [Int64.neg_ofNat, habs, Int64.ofInt_toInt]

/-- The least number is the size of none. -/
theorem ofNat_ne_minValue {k : Nat} (hk : k < 2 ^ 63) : Int64.ofNat k ≠ Int64.minValue := by
  intro h
  have hto := congrArg Int64.toInt h
  rw [Int64.toInt_ofNat_of_lt hk] at hto
  have hmin : Int64.minValue.toInt = -0x8000000000000000 := rfl
  omega

/-- The size of a whole number that is not the least one has 63 bits. -/
theorem natAbs_lt_of_ne_minValue {n : Int64} (h : n ≠ Int64.minValue) :
    n.toInt.natAbs < 2 ^ 63 := by
  have hlow : -0x8000000000000000 ≤ n.toInt := n.le_toInt
  have hhigh : n.toInt < 0x8000000000000000 := n.toInt_lt
  have hne : n.toInt ≠ -0x8000000000000000 := by
    intro heq
    exact h (Int64.toInt_inj.1 heq)
  omega

theorem value?_integerExpr (n : Int64) : (integerExpr n).value? = some (.integer n) := by
  unfold integerExpr
  split
  · next hmin =>
      have hread : (Expr.conversion "int" (.text (String.ofList (signed n.toInt)))).value? =
          (integerOfText? (String.ofList (signed n.toInt)).toList).map .integer := rfl
      rw [hread, String.toList_ofList, Scanner.integerOfText?_signed]
      rfl
  · next hmin =>
      have hsize : n.toInt.natAbs < 2 ^ 63 := natAbs_lt_of_ne_minValue hmin
      have hread : (Expr.integer (String.ofList (decimal n.toInt.natAbs))).value? =
          some (.integer (Int64.ofNat n.toInt.natAbs)) := by
        rw [Expr.value?, String.toList_ofList, integerOfText?_decimal hsize]
        rfl
      by_cases hneg : n < 0
      · have hsign : n.toInt < 0 := Int64.lt_iff_toInt_lt.1 hneg
        rw [decide_eq_true hneg, Expr.withSign, if_pos rfl, Expr.value?_negative, hread,
          Option.bind_some, Value.negated?, if_neg (ofNat_ne_minValue hsize),
          neg_ofNat_natAbs_of_neg hsign]
      · have hsign : 0 ≤ n.toInt := Int.not_lt.1 fun h => hneg (Int64.lt_iff_toInt_lt.2 h)
        rw [decide_eq_false hneg, Expr.withSign, if_neg (by decide), hread,
          ofNat_natAbs_of_nonneg hsign]

theorem value?_unsigned (n : UInt64) : (Value.unsigned n).toExpr.value? = some (.unsigned n) := by
  have hread : unsignedOfText? (decimal n.toNat) = some n := by
    simp only [unsignedOfText?, (IsNumeral.decimal n.toNat).isDigits, Bool.false_eq_true, if_false]
    exact Scanner.unsignedOfDigits?_decimal n
  rw [Value.toExpr, Expr.value?, String.toList_ofList, hread]
  rfl

/-! ### Floating-point numbers -/

theorem value?_floatExpr (x : Double) : (floatExpr x).value? = some (.float x) := by
  cases x with
  | nan => rfl
  | infinite negative => cases negative <;> rfl
  | finite negative m =>
      cases negative with
      | false => rfl
      | true =>
          rw [floatExpr, Expr.withSign, if_pos rfl, Expr.value?_negative]
          rfl

/-! ### Durations -/

/-- A sign before a duration without one gives it the sign. -/
theorem value?_withSign {e : Expr} {d : Duration} (h : e.value? = some (.duration d))
    (negative : Bool) :
    (Expr.withSign negative e).value? = some (.duration (d.withSign negative)) := by
  cases negative with
  | false => exact h
  | true =>
      rw [Expr.withSign, if_pos rfl, Expr.value?_negative, h]
      rfl

/-- The amounts of a duration have 63 bits. -/
theorem Duration.amount_lt {d : Duration} {c : TimeUnit × Nat} (hc : c ∈ d.components) :
    c.2 < 2 ^ 63 := by
  have hle := amount_le_of_mem hc
  unfold maxAmount at hle
  omega

/-- No amount of a duration is negative in the tree. -/
theorem Duration.amount_nonneg {d : Duration} {c : TimeUnit × Nat} (hc : c ∈ d.components) :
    (0 : Int64) ≤ Int64.ofNat c.2 := by
  rw [Int64.le_iff_toInt_le, Int64.toInt_ofNat_of_lt (amount_lt hc)]
  exact Int.natCast_nonneg c.2

/-- The components of a duration and their suffixes are read as the components. -/
theorem amountOf?_component {d : Duration} {c : TimeUnit × Nat} (hc : c ∈ d.components) :
    amountOf? (Int64.ofNat c.2, c.1.suffix) = some c.swap := by
  rw [amountOf?, if_pos (Duration.amount_nonneg hc), TimeUnit.ofSuffix?_suffix,
    Int64.toNatClampNeg_ofNat_of_lt (Duration.amount_lt hc)]
  rfl

/-- A duration is the sum of its amounts. -/
theorem value?_duration {parts : List (Int64 × String)} {amounts : List (Nat × TimeUnit)}
    {d : Duration} (hparts : parts.mapM amountOf? = some amounts)
    (hsum : Duration.ofAmounts amounts = .ok d) :
    (Expr.duration parts).value? = some (.duration d) := by
  rw [Expr.value?, Duration.ofTree?, hparts, Option.bind_eq_bind, Option.bind_some, hsum]
  rfl

theorem value?_durationExpr (d : Duration) : d.toExpr.value? = some (.duration d) := by
  unfold Duration.toExpr
  split
  · next hz =>
      have hparts : [((0 : Int64), "s")].mapM amountOf? = some [(0, TimeUnit.second)] := rfl
      rw [Duration.eq_zero_of_isZero hz]
      exact value?_duration hparts Duration.ofAmounts_zeroSeconds
  · next hz =>
      obtain ⟨e, hsum, hneg, hamount⟩ := Duration.ofAmounts_components d
      have hparts : (d.components.map fun c => (Int64.ofNat c.2, c.1.suffix)).mapM amountOf? =
          some (d.components.map Prod.swap) := by
        rw [List.mapM_map]
        exact mapM_eq_some_map fun c hc => amountOf?_component hc
      -- the components are added up without the sign, which stands before them
      rw [value?_withSign (value?_duration hparts hsum), Duration.withSign_eq hneg hamount]

/-! ### All kinds -/

/-- **The expression of a value evaluates to the value**, unless it is a leap second that does not
end a minute. -/
theorem Value.value?_toExpr {v : Value} (hv : v.HasLiteral) (hleap : v.LeapLegible) :
    v.toExpr.value? = some v := by
  cases v with
  | boolean b => rfl
  | integer n => exact value?_integerExpr n
  | unsigned n => exact value?_unsigned n
  | float x => exact value?_floatExpr x
  | text s => rfl
  | instant t =>
      have hend : ∀ c ∈ ([] : List Char).head?, Scanner.isInstantChar c = false := by simp
      have hyear := Instant.fourDigitYear_of_inRange hv
      have hscan := Scanner.instant_text_append hyear (hleap t rfl) hend
      rw [toExpr, Expr.value?, String.toList_ofList, Scanner.whole_of_ok hscan]
      rfl
  | duration d => exact value?_durationExpr d
  | pattern p =>
      rw [toExpr, Expr.value?, Pattern.toText, String.toList_ofList, Pattern.ofText_normal]
      rfl

end BoundQuery
