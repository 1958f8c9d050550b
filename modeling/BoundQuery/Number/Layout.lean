/-
**Layouts of floating-point numbers.**

A layout turns the shortest decimal of a number into text: it says for which places of the first
digit the number is written positionally, how an exponent is marked otherwise, and where ties go.
The text always has a point or an exponent, so it is never the numeral of a whole number.

Main definitions:

* `BoundQuery.Layout`, `BoundQuery.Layout.text` — a layout, and a finite number in it;
* `BoundQuery.Layout.literal`, `BoundQuery.Layout.stored`, `BoundQuery.Layout.inspected` — the
  layouts of literals, of stored forms and of inspected values.
-/

import BoundQuery.Number.Shortest
import BoundQuery.Text.Numeral

set_option relaxedAutoImplicit false
set_option autoImplicit false

namespace BoundQuery

/-- How a finite number is written. -/
structure Layout where
  /-- Where a value halfway between two shortest decimals goes. -/
  tie : Tie
  /-- Whether a number whose first digit has the value `10 ^ e` is written positionally. -/
  positional : Int → Bool
  /-- Whether an exponent that is not negative has a plus sign. -/
  plus : Bool

namespace Layout

/-- The digits `ds` times `10 ^ p` without an exponent, always with a point. -/
def positionalText (ds : List Char) (p : Int) : List Char :=
  if 0 ≤ p then ds ++ List.replicate p.toNat '0' ++ ['.', '0']
  else
    let point := ds.length - p.natAbs
    if p.natAbs < ds.length then ds.take point ++ '.' :: ds.drop point
    else ['0', '.'] ++ List.replicate (p.natAbs - ds.length) '0' ++ ds

/-- The digits `ds` with a point behind the first one, if there are more, and the exponent `e`. -/
def scientificText (plus : Bool) (ds : List Char) (e : Int) : List Char :=
  let mantissa := match ds with
    | d :: r@(_ :: _) => d :: '.' :: r
    | ds => ds
  let mark := if 0 ≤ e ∧ plus then ['+'] else []
  mantissa ++ 'e' :: mark ++ signed e

/-- A magnitude in a layout. -/
def magnitudeText (l : Layout) (m : Magnitude) : List Char :=
  let d := m.shortest l.tie
  let ds := decimal d.digits
  let e := ds.length - 1 + d.exponent
  if m.code = 0 ∨ l.positional e then positionalText ds d.exponent
  else scientificText l.plus ds e

/-- A finite number in a layout: a minus sign when the sign is set, then its magnitude. -/
def text (l : Layout) (negative : Bool) (m : Magnitude) : List Char :=
  if negative then '-' :: l.magnitudeText m else l.magnitudeText m

/-- Literals have no exponent, and a tie goes up. -/
def literal : Layout := ⟨.up, fun _ => true, false⟩

/-- Stored forms are positional from `10 ^ -5` up to below `10 ^ 16`; an exponent always has its
sign, and a tie goes to the even digit. -/
def stored : Layout := ⟨.even, fun e => -5 ≤ e ∧ e ≤ 15, true⟩

/-- Inspected values are positional from `10 ^ -4` up to below `10 ^ 16`; a tie goes up. -/
def inspected : Layout := ⟨.up, fun e => -4 ≤ e ∧ e ≤ 15, false⟩

end Layout

end BoundQuery
