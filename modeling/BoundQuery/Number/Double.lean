/-
**Binary floating-point numbers of 64 bits.**

A finite magnitude is held as the integer that the low 63 bits of its encoding spell.  These
integers are ordered as the magnitudes are, so the successor of a magnitude is the next code, and
every magnitude is a whole number of `2 ^ -1074`, the least positive one: all arithmetic below is
done on whole numbers of that unit and is exact up to the one rounding that it states.

Main definitions:

* `BoundQuery.Magnitude`, `BoundQuery.Magnitude.units` — a finite magnitude, and its size in
  units of `2 ^ -1074`;
* `BoundQuery.Magnitude.nearest` — the magnitude nearest to a fraction of that unit, an exact half
  going to the even code; `none` when the fraction is too large;
* `BoundQuery.Magnitude.ofDecimal` — the magnitude nearest to `d * 10 ^ k`;
* `BoundQuery.Magnitude.scaled` — a whole number of at most 64 bits, rounded, and then multiplied
  or divided by a power of ten, rounded again;
* `BoundQuery.Double` — a signed magnitude, an infinity or the number that is no number;
* `BoundQuery.Double.ofBits`, `BoundQuery.Double.toBits`, `BoundQuery.Double.ofSingleBits` — the
  64-bit encoding, and the numbers encoded in 32 bits.
-/

set_option relaxedAutoImplicit false
set_option autoImplicit false

namespace BoundQuery

/-! ### Magnitudes -/

/-- The code of the infinite magnitude, the least code that no finite magnitude has. -/
def Magnitude.infinity : Nat := 0x7ff0000000000000

/-- A finite magnitude, by the low 63 bits of its encoding. -/
structure Magnitude where
  /-- The low 63 bits of the encoding. -/
  code : Nat
  /-- The code is below that of infinity. -/
  code_lt : code < Magnitude.infinity
deriving DecidableEq

namespace Magnitude

/-- The bit above the fraction of an encoding, `2 ^ 52`. -/
def leadingBit : Nat := 0x10000000000000

/-- The magnitude with code `c` in units of `2 ^ -1074`.  The high bits of the code are the
exponent; below exponent one the fraction stands alone, from there on a leading bit is implied. -/
def unitsOf (c : Nat) : Nat :=
  if c / leadingBit = 0 then c % leadingBit
  else (leadingBit + c % leadingBit) * Nat.pow 2 (c / leadingBit - 1)

/-- A magnitude in units of `2 ^ -1074`. -/
def units (m : Magnitude) : Nat := unitsOf m.code

/-- The magnitude zero. -/
def zero : Magnitude := ⟨0, by decide⟩

/-- The quotient rounded to the nearest whole number, an exact half to the even one. -/
def roundHalfEven (num den : Nat) : Nat :=
  let q := num / den
  let r := num % den
  if 2 * r < den then q else if den < 2 * r then q + 1 else q + q % 2

/-- The code nearest to `num / den` units: the leading 53 bits of the quotient, rounded, with
their place as the exponent. -/
def nearestCode (num den : Nat) : Nat :=
  let shift := (num / den).log2 - 52
  shift * leadingBit + roundHalfEven num (den * Nat.pow 2 shift)

/-- The magnitude nearest to `num / den` units; `none` when it would be infinite. -/
def nearest (num den : Nat) : Option Magnitude :=
  if h : nearestCode num den < infinity then some ⟨nearestCode num den, h⟩ else none

/-- One, in units of `2 ^ -1074`. -/
def one : Nat := Nat.pow 2 1074

/-- The magnitude nearest to `d * 10 ^ k`; `none` when it would be infinite.  A number with its
first digit far above or below every finite magnitude is settled by the place of that digit. -/
def ofDecimal (d : Nat) (k : Int) : Option Magnitude :=
  let top := (Nat.toDigits 10 d).length + k
  if d = 0 then some zero
  else if 320 < top then none
  else if top < -340 then some zero
  else if 0 ≤ k then nearest (d * Nat.pow 10 k.toNat * one) 1
  else nearest (d * one) (Nat.pow 10 (-k).toNat)

/-- The product with another magnitude, rounded. -/
def mul (a b : Magnitude) : Option Magnitude := nearest (a.units * b.units) one

/-- The quotient by another magnitude, rounded. -/
def div (a b : Magnitude) : Option Magnitude := nearest (a.units * one) b.units

/-- The power of ten with exponent `k`, rounded. -/
def powerOfTen (k : Nat) : Magnitude := (ofDecimal 1 k).getD zero

/-- A whole number, rounded, times `10 ^ k`, rounded again.  A division by more than `10 ^ 308` is
done in two steps, the first by `10 ^ 308`, so that the divisor is finite; one by more than
`10 ^ 616` leaves nothing.  `none` when the product is too large. -/
def scaled (n : Nat) (k : Int) : Option Magnitude := do
  let m ← nearest (n * one) 1
  if m.code = 0 then return m
  if 0 ≤ k then
    if k ≤ 308 then m.mul (powerOfTen k.toNat) else none
  else if -308 ≤ k then m.div (powerOfTen (-k).toNat)
  else
    let m ← m.div (powerOfTen 308)
    if -616 ≤ k then m.div (powerOfTen (-k - 308).toNat) else return zero

end Magnitude

/-! ### Signed numbers -/

/-- A binary floating-point number of 64 bits.  The numbers that are no number are not told
apart. -/
inductive Double where
  | nan
  | infinite (negative : Bool)
  | finite (negative : Bool) (magnitude : Magnitude)
deriving DecidableEq

namespace Double

/-- Whether the sign is set; it never is on the number that is no number. -/
def isNegative : Double → Bool
  | nan => false
  | infinite n => n
  | finite n _ => n

/-- Whether the number is neither infinite nor no number. -/
def isFinite : Double → Bool
  | finite _ _ => true
  | _ => false

/-- The number with a sign and, where there is one, a magnitude; else the infinity of that
sign. -/
def ofMagnitude (negative : Bool) : Option Magnitude → Double
  | some m => finite negative m
  | none => infinite negative

/-- The number nearest to `d * 10 ^ k` with the given sign, infinite when it is too large. -/
def ofDecimal (negative : Bool) (d : Nat) (k : Int) : Double :=
  ofMagnitude negative (Magnitude.ofDecimal d k)

/-- The bit of an encoding that holds the sign, `2 ^ 63`. -/
def signBit : Nat := 0x8000000000000000

/-- The sign of a number in its encoding. -/
def signOf (negative : Bool) : Nat := if negative then signBit else 0

/-- The number that 64 bits encode. -/
def ofBits (b : UInt64) : Double :=
  let negative := signBit ≤ b.toNat
  let code := b.toNat % signBit
  if h : code < Magnitude.infinity then finite negative ⟨code, h⟩
  else if code = Magnitude.infinity then infinite negative
  else nan

/-- The 64 bits that encode a number; the quiet encoding stands for no number. -/
def toBits : Double → UInt64
  | nan => 0x7ff8000000000000
  | infinite n => UInt64.ofNat (signOf n + Magnitude.infinity)
  | finite n m => UInt64.ofNat (signOf n + m.code)

/-- The bit above the fraction of an encoding of 32 bits, `2 ^ 23`. -/
def singleBit : Nat := 0x800000

/-- The number that 32 bits encode: one bit of sign, eight of exponent, 23 of fraction. -/
def ofSingleBits (b : UInt32) : Double :=
  let negative : Bool := 0x80000000 ≤ b.toNat
  let exponent := b.toNat / singleBit % 256
  let fraction := b.toNat % singleBit
  if exponent = 255 then if fraction = 0 then infinite negative else nan
  else if exponent = 0 then ofMagnitude negative (Magnitude.nearest (fraction * Nat.pow 2 925) 1)
  else
    ofMagnitude negative
      (Magnitude.nearest ((singleBit + fraction) * Nat.pow 2 (exponent + 924)) 1)

end Double

end BoundQuery
