/-
**Sets of characters as lists of borders.**

A set of characters is given by its borders: the code points at which one enters or leaves the set
on the way up.  A character is in the set exactly when an odd number of borders is at or below it.

Main definitions:

* `BoundQuery.CharSet`, `BoundQuery.CharSet.contains` — a set and its members;
* `BoundQuery.isBlank` — white space.
-/

set_option relaxedAutoImplicit false
set_option autoImplicit false

namespace BoundQuery

/-- A set of characters, by its borders in ascending order. -/
structure CharSet where
  borders : List Nat

namespace CharSet

/-- The number of borders at or below a code point; the borders ascend, so the count ends at the
first greater one. -/
def bordersBelow (n : Nat) : List Nat → Nat
  | [] => 0
  | b :: bs => if b ≤ n then bordersBelow n bs + 1 else 0

/-- Whether a character is in the set. -/
def contains (s : CharSet) (c : Char) : Bool := bordersBelow c.toNat s.borders % 2 = 1

end CharSet

/-- The characters with the property White_Space. -/
def CharSet.whiteSpace : CharSet := ⟨[
  9, 14, 32, 33, 133, 134, 160, 161, 5760, 5761, 8192, 8203, 8232, 8234, 8239, 8240, 8287, 8288,
  12288, 12289]⟩

/-- Whether a character is white space. -/
def isBlank (c : Char) : Bool := CharSet.whiteSpace.contains c

end BoundQuery
