/-
**The shortest decimal that reads back.**

A magnitude is written with as few decimal digits as still read back as that magnitude.  For one
digit, two digits and so on, the two neighbours of the magnitude on the grid of decimals with that
many digits are tried; the first grid with a neighbour that reads back gives the answer, and of
two that do the nearer one is taken.  What to do when both are equally near is left to the writer
of the number, since formats differ there.

Main definitions:

* `BoundQuery.Decimal` — a whole number times a power of ten;
* `BoundQuery.Tie` — where an exact half goes;
* `BoundQuery.Magnitude.shortest` — the shortest decimal of a magnitude.

Main results:

* `BoundQuery.Decimal.readsBack_of_firstThat` — whatever a grid yields reads back.
-/

import BoundQuery.Number.Double

set_option relaxedAutoImplicit false
set_option autoImplicit false

namespace BoundQuery

/-- The number `digits * 10 ^ exponent`. -/
structure Decimal where
  digits : Nat
  exponent : Int
deriving DecidableEq

/-- Where a value halfway between two decimals goes: to the greater, or to the even one. -/
inductive Tie where
  | up
  | even
deriving DecidableEq

namespace Decimal

/-- The magnitude a decimal reads as. -/
def magnitude? (d : Decimal) : Option Magnitude := Magnitude.ofDecimal d.digits d.exponent

/-- Whether a decimal reads as the magnitude `m`. -/
def ReadsBack (d : Decimal) (m : Magnitude) : Prop := d.magnitude? = some m

instance (d : Decimal) (m : Magnitude) : Decidable (d.ReadsBack m) :=
  inferInstanceAs (Decidable (d.magnitude? = some m))

/-- The decimal without the zeros at the end of its digits, at most `fuel` of them. -/
def trim : Nat → Decimal → Decimal
  | 0, d => d
  | fuel + 1, d =>
      if d.digits ≠ 0 ∧ d.digits % 10 = 0 then trim fuel ⟨d.digits / 10, d.exponent + 1⟩ else d

end Decimal

namespace Magnitude

/-- The ratio of a magnitude to `10 ^ p`, as a fraction of whole numbers. -/
def ratio (m : Magnitude) (p : Int) : Nat × Nat :=
  if 0 ≤ p then (m.units, one * Nat.pow 10 p.toNat) else (m.units * Nat.pow 10 (-p).toNat, one)

/-- The place of the first digit: the exponent `e` with `10 ^ e ≤ m < 10 ^ (e + 1)`, for a
magnitude that is not zero.  Every such magnitude is far above `10 ^ (-400)`. -/
def place (m : Magnitude) : Int :=
  let scaledUp := m.units * Nat.pow 10 400 / one
  (Nat.toDigits 10 scaledUp).length - 401

/-- The neighbours of a magnitude on the grid of multiples of `10 ^ p`, the nearer one first. -/
def neighbours (tie : Tie) (m : Magnitude) (p : Int) : List Decimal :=
  let (num, den) := m.ratio p
  let low := num / den
  let r := num % den
  let upFirst : Bool :=
    if 2 * r < den then false
    else if den < 2 * r then true
    else tie = .up || low % 2 = 1
  if upFirst then [⟨low + 1, p⟩, ⟨low, p⟩] else [⟨low, p⟩, ⟨low + 1, p⟩]

/-- The first neighbour on the grid of multiples of `10 ^ p` that reads back. -/
def onGrid (tie : Tie) (m : Magnitude) (p : Int) : Option Decimal :=
  (m.neighbours tie p).find? fun d => decide (d.ReadsBack m)

/-- The magnitude with all its digits: `2 ^ -1074` is `5 ^ 1074 * 10 ^ -1074`. -/
def exact (m : Magnitude) : Decimal := ⟨m.units * Nat.pow 5 1074, -1074⟩

/-- The decimal with the fewest digits that reads back, without zeros at its end.  Seventeen
digits always do; the magnitude with all its digits stands for the case that never comes. -/
def shortest (tie : Tie) (m : Magnitude) : Decimal :=
  if m.code = 0 then ⟨0, 0⟩
  else
    let e := m.place
    let found := (List.range 17).findSome? fun n : Nat => m.onGrid tie (e - n)
    (found.getD m.exact).trim 17

end Magnitude

/-- Whatever a grid yields reads back. -/
theorem Decimal.readsBack_of_firstThat {tie : Tie} {m : Magnitude} {p : Int} {d : Decimal}
    (h : m.onGrid tie p = some d) : d.ReadsBack m := by
  simpa using List.find?_some h

end BoundQuery
