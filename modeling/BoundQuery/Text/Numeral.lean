/-
**Numerals: whole numbers as lists of characters.**

Everything this library writes is a list of characters, and everything it reads is taken from the
front of one.  This module holds the numerals on both sides: decimal digits, decimal digits
padded to a width, signed numerals and two-digit hexadecimal numerals.

Main definitions:

* `BoundQuery.decimal`, `BoundQuery.signed` — the numeral of a natural number and of an integer;
* `BoundQuery.padded` — the numeral of at least a given width;
* `BoundQuery.takeDigits` — the longest run of digits at the front of a text, and what follows it;
* `BoundQuery.ofDigits` — the number a run of digits stands for;
* `BoundQuery.hexPair`, `BoundQuery.hexValue?` — one byte as two hexadecimal digits.

Main results:

* `BoundQuery.ofDigits_decimal` — a numeral reads back as its number;
* `BoundQuery.takeDigits_append` — reading a run of digits that is followed by something else
  takes exactly the run.
-/

set_option relaxedAutoImplicit false
set_option autoImplicit false

namespace BoundQuery

/-! ### Writing -/

/-- The decimal numeral of `n`, without leading zeros. -/
def decimal (n : Nat) : List Char := Nat.toDigits 10 n

/-- The decimal numeral of an integer: a minus sign when it is negative, then its size. -/
def signed (n : Int) : List Char :=
  if n < 0 then '-' :: decimal n.natAbs else decimal n.natAbs

/-- The decimal numeral of `n`, with zeros in front until it has `width` digits. -/
def padded (width n : Nat) : List Char :=
  List.replicate (width - (decimal n).length) '0' ++ decimal n

/-- A byte as two lower-case hexadecimal digits. -/
def hexPair (b : UInt8) : List Char :=
  [(b.toNat / 16).digitChar, (b.toNat % 16).digitChar]

/-- The hexadecimal numeral of `n`, in lower case and without leading zeros. -/
def hexadecimal (n : Nat) : List Char := Nat.toDigits 16 n

/-! ### Reading -/

/-- The longest run of digits at the front of a text, and what follows it. -/
def takeDigits (s : List Char) : List Char × List Char :=
  (s.takeWhile Char.isDigit, s.dropWhile Char.isDigit)

/-- The number a run of decimal digits stands for. -/
def ofDigits (ds : List Char) : Nat := Nat.ofDigitChars 10 ds 0

/-- The value of a hexadecimal digit of either case. -/
def hexValue? (c : Char) : Option Nat :=
  if '0' ≤ c ∧ c ≤ '9' then some (c.toNat - '0'.toNat)
  else if 'a' ≤ c ∧ c ≤ 'f' then some (c.toNat - 'a'.toNat + 10)
  else if 'A' ≤ c ∧ c ≤ 'F' then some (c.toNat - 'A'.toNat + 10)
  else none

/-- The number a text of hexadecimal digits stands for; `none` when another character is in it. -/
def ofHex? (ds : List Char) : Option Nat :=
  ds.foldlM (fun n c => (hexValue? c).map (16 * n + ·)) 0

/-! ### What is written reads back -/

theorem ofDigits_decimal (n : Nat) : ofDigits (decimal n) = n :=
  Nat.ofDigitChars_ten_toDigits

theorem decimal_ne_nil (n : Nat) : decimal n ≠ [] := Nat.toDigits_ne_nil

/-- Zeros in front do not change the number. -/
theorem ofDigits_padded (width n : Nat) : ofDigits (padded width n) = n := by
  unfold ofDigits padded
  rw [Nat.ofDigitChars_append, Nat.ofDigitChars_replicate_zero, Nat.mul_zero]
  exact ofDigits_decimal n

theorem takeDigits_append_eq (s : List Char) : (takeDigits s).1 ++ (takeDigits s).2 = s :=
  List.takeWhile_append_dropWhile

/-- Reading a run of digits takes exactly the run when no digit follows it. -/
theorem takeDigits_append (ds rest : List Char) (hds : ∀ c ∈ ds, c.isDigit = true)
    (hrest : ∀ c ∈ rest.head?, c.isDigit = false) : takeDigits (ds ++ rest) = (ds, rest) := by
  induction ds with
  | nil =>
      cases rest with
      | nil => rfl
      | cons c rest =>
          have hc : c.isDigit = false := hrest c (by simp)
          simp [takeDigits, hc]
  | cons d ds ih =>
      have hd : d.isDigit = true := hds d (by simp)
      have := ih fun c hc => hds c (by simp [hc])
      simp only [takeDigits, Prod.mk.injEq] at this
      simp [takeDigits, hd, this.1, this.2]

end BoundQuery
