/-
**Scanning numbers, instants and durations.**

Main definitions:

* `BoundQuery.Double.ofText?` — the floating-point number that a whole text spells;
* `BoundQuery.Int64.ofText?` — the whole number that a whole text spells;
* `BoundQuery.Scanner.integer`, `BoundQuery.Scanner.float` — numerals;
* `BoundQuery.Scanner.instant` — an instant, or a date, which stands for its beginning;
* `BoundQuery.Scanner.duration` — amounts with their units.
-/

import BoundQuery.Duration.Basic
import BoundQuery.Number.Double
import BoundQuery.Scan.Basic
import BoundQuery.Time.Reader

set_option relaxedAutoImplicit false
set_option autoImplicit false

namespace BoundQuery

/-! ### Whole texts -/

/-- The exponent that a whole text spells, zero when it is empty. -/
def exponentOfText? : List Char → Option Int
  | [] => some 0
  | e :: s =>
      if e = 'e' || e = 'E' then
        let (negative, ds) := match s with
          | '-' :: r => (true, r)
          | '+' :: r => (false, r)
          | r => (false, r)
        if ds.isEmpty || ¬ds.all Char.isDigit then none
        else some (if negative then -(ofDigits ds : Int) else ofDigits ds)
      else none

/-- The number with the given digits before and behind the point and an exponent. -/
def Double.ofParts (negative : Bool) (whole fraction : List Char) (exponent : Int) : Double :=
  .ofDecimal negative (ofDigits (whole ++ fraction)) (exponent - fraction.length)

/-- The number without a sign that a whole text spells: digits with a point anywhere or nowhere
and perhaps an exponent, or the name of an infinity or of no number in letters of either case. -/
def Double.ofUnsignedText? (negative : Bool) (s : List Char) : Option Double :=
  let name := s.map Char.toLower
  if name = "inf".toList || name = "infinity".toList then some (.infinite negative)
  else if name = "nan".toList then some .nan
  else
    let (whole, s) := takeDigits s
    let (fraction, s) := match s with
      | '.' :: r => takeDigits r
      | r => ([], r)
    if whole.isEmpty && fraction.isEmpty then none
    else (exponentOfText? s).map fun e => .ofParts negative whole fraction e

/-- The number that a whole text spells, with or without a sign of either kind. -/
def Double.ofText? : List Char → Option Double
  | '-' :: s => ofUnsignedText? true s
  | '+' :: s => ofUnsignedText? false s
  | s => ofUnsignedText? false s

/-- The whole number of 64 bits with the given sign and digits. -/
def integerOfDigits? (negative : Bool) (ds : List Char) : Option Int64 :=
  let n := ofDigits ds
  if negative then if n ≤ 0x8000000000000000 then some (Int64.ofInt (-n)) else none
  else if n < 0x8000000000000000 then some (Int64.ofNat n) else none

/-- The whole number of 64 bits that a whole text spells, with or without a sign of either
kind. -/
def integerOfText? (s : List Char) : Option Int64 :=
  let (negative, ds) := match s with
    | '-' :: r => (true, r)
    | '+' :: r => (false, r)
    | r => (false, r)
  if ds.isEmpty || ¬ds.all Char.isDigit then none else integerOfDigits? negative ds

/-- The number of 64 bits without a sign that a run of digits spells. -/
def unsignedOfDigits? (ds : List Char) : Option UInt64 :=
  if ofDigits ds < UInt64.size then some (UInt64.ofNat (ofDigits ds)) else none

/-- The instant that a whole text spells: with a time of day, or a date alone.  It begins with a
digit. -/
def Instant.ofText? (s : List Char) : Option Instant :=
  match s with
  | [] => none
  | c :: _ =>
      if ¬c.isDigit then none
      else if s.contains 'T' then readStrict s
      else readDate s

/-! ### Scanners -/

namespace Scanner

/-- A whole number: digits, perhaps behind a minus sign. -/
def integer : Scanner Int64 := fun s =>
  let (negative, r) := sign s
  match digits r with
  | .error e => .error e
  | .ok (ds, rest) =>
      match integerOfDigits? negative ds with
      | some n => .ok (n, rest)
      | none => .error s

/-- A floating-point number: digits, a point and digits, perhaps behind a minus sign. -/
def float : Scanner Double := fun s =>
  let (negative, r) := sign s
  (digits.andThen fun whole => (char '.').andThen fun _ => digits.map fun fraction =>
    Double.ofParts negative whole fraction 0) r

/-- The characters of which an instant is made. -/
def isInstantChar (c : Char) : Bool :=
  c.isDigit || c = '-' || c = ':' || c = '.' || c = 'T' || c = 'Z' || c = '+'

/-- An instant: the longest run of characters of which instants are made. -/
def instant : Scanner Instant := fun s =>
  match Instant.ofText? (s.takeWhile isInstantChar) with
  | some t => .ok (t, s.dropWhile isInstantChar)
  | none => .error s

/-- The suffixes of units in the order in which they are tried: a suffix comes before those that it
begins with. -/
def suffixes : List (String × TimeUnit) := [
  ("mo", .month), ("ms", .millisecond), ("us", .microsecond), ("µs", .microsecond),
  ("ns", .nanosecond), ("y", .year), ("w", .week), ("d", .day), ("h", .hour), ("m", .minute),
  ("s", .second)]

/-- A unit by its suffix. -/
def unit : Scanner TimeUnit := fun s =>
  match suffixes.find? fun p => p.1.toList.isPrefixOf s with
  | some (w, u) => .ok (u, s.drop w.length)
  | none => .error s

/-- An amount that fits 64 bits and its unit. -/
def component : Scanner (Nat × TimeUnit) :=
  (digits.filterMap unsignedOfDigits?).andThen fun n => unit.map fun u => (n.toNat, u)

/-- Components as long as there are any, and the text that is left.  Every component takes a
character, so a fuel of the length of the text never runs out. -/
def components : Nat → List Char → List (Nat × TimeUnit) × List Char
  | 0, s => ([], s)
  | fuel + 1, s =>
      match component s with
      | .ok (c, rest) =>
          let (cs, rest) := components fuel rest
          (c :: cs, rest)
      | .error _ => ([], s)

/-- A duration: at least one component, perhaps behind a minus sign.  Amounts of one unit are
added; a sum that is too large is reported behind the sign. -/
def duration : Scanner Duration := fun s =>
  let (negative, s) := sign s
  match component s with
  | .error e => .error e
  | .ok (c, rest) =>
      let (cs, rest) := components rest.length rest
      match Duration.ofAmounts (c :: cs) with
      | .ok d => .ok (d.withSign negative, rest)
      | .error _ => .error s

end Scanner

end BoundQuery
