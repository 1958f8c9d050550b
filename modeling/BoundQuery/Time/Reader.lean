/-
**Reading instants.**

Instants are read in two forms.  The strict form is that of a literal: every number has its full
width, and nothing may be left over.  The lenient form is that of stored values: blanks may stand
around the numbers, numbers need not have their full width, a year may have a sign and then any
number of digits, and universal time may be named.

Main definitions:

* `BoundQuery.Instant.readNumeral` — a number of at least and at most so many digits;
* `BoundQuery.Instant.readStrict`, `BoundQuery.Instant.readLenient` — the two forms;
* `BoundQuery.Instant.readDate` — a date alone, which stands for its beginning.
-/

import BoundQuery.Time.Instant
import BoundQuery.Text.CharSet

set_option relaxedAutoImplicit false
set_option autoImplicit false

namespace BoundQuery.Instant

/-! ### Parts of both forms -/

/-- A number of at least `least` and at most `most` digits, and what follows it. -/
def readNumeral (least most : Nat) (s : List Char) : Option (Nat × List Char) :=
  let ds := (takeDigits s).1.take most
  if ds.length < least then none else some (ofDigits ds, s.drop ds.length)

/-- A text without a character at its front. -/
def expect (c : Char) : List Char → Option (List Char)
  | d :: rest => if d = c then some rest else none
  | [] => none

/-- A part of a second behind a point, in nanoseconds; digits after the ninth are dropped, and
without a point it is zero. -/
def readNanos : List Char → Option (Nat × List Char)
  | '.' :: s =>
      let (ds, rest) := takeDigits s
      if ds.isEmpty then none
      else some (ofDigits (ds.take 9) * Nat.pow 10 (9 - (ds.take 9).length), rest)
  | s => some (0, s)

/-- Two digits for the minutes of an offset. -/
def readMinutes (s : List Char) : Option (Nat × List Char) := do
  let (m, rest) ← readNumeral 2 2 s
  if m < 60 then some (m, rest) else none

/-- An offset from universal time in seconds: the letter `Z`, or a sign, hours and minutes, with
what `between` takes away between the two. -/
def readOffset (between : List Char → Option (List Char)) (s : List Char) :
    Option (Int × List Char) :=
  match s with
  | [] => none
  | c :: r =>
      if c = 'Z' || c = 'z' then some (0, r)
      else if c = '+' || c = '-' || c = '−' then do
        let (h, r) ← readNumeral 2 2 r
        let r ← between r
        let (m, r) ← readMinutes r
        let size : Int := (h * 3600 + m * 60 : Nat)
        if size < 86400 then some (if c = '+' then size else -size, r) else none
      else none

/-! ### The strict form -/

/-- An instant with a date, a time and an offset, every number in full width, and nothing left
over. -/
def readStrict (s : List Char) : Option Instant := do
  let (year, s) ← readNumeral 4 4 s
  let s ← expect '-' s
  let (month, s) ← readNumeral 2 2 s
  let s ← expect '-' s
  let (day, s) ← readNumeral 2 2 s
  let s ← match s with
    | c :: r => if c = 'T' || c = 't' || c = ' ' then some r else none
    | [] => none
  let (hour, s) ← readNumeral 2 2 s
  let s ← expect ':' s
  let (minute, s) ← readNumeral 2 2 s
  let s ← expect ':' s
  let (second, s) ← readNumeral 2 2 s
  let (nanos, s) ← readNanos s
  let (offset, s) ← readOffset (expect ':') s
  if s.isEmpty then ofLocal ⟨year, month, day⟩ ⟨hour, minute, second, nanos⟩ offset else none

/-- A date alone: a year of at most four digits, a month and a day of at most two, and nothing
left over.  It stands for its beginning. -/
def readDate (s : List Char) : Option Instant := do
  let (year, s) ← readNumeral 1 4 s
  let s ← expect '-' s
  let (month, s) ← readNumeral 1 2 s
  let s ← expect '-' s
  let (day, s) ← readNumeral 1 2 s
  if s.isEmpty && decide (Date.Exists ⟨year, month, day⟩) then
    some (midnight ⟨year, month, day⟩)
  else none

/-! ### The lenient form -/

/-- A text without the blanks at its front. -/
def skipBlank (s : List Char) : List Char := s.dropWhile isBlank

/-- A number of one or two digits behind blanks. -/
def readShort (s : List Char) : Option (Nat × List Char) := readNumeral 1 2 (skipBlank s)

/-- A year behind blanks: at most four digits, or a sign and any number of them. -/
def readYear (s : List Char) : Option (Int × List Char) :=
  match skipBlank s with
  | '-' :: r => (readNumeral 1 r.length r).map fun (y, rest) => (-(y : Int), rest)
  | '+' :: r => (readNumeral 1 r.length r).map fun (y, rest) => ((y : Int), rest)
  | s => (readNumeral 1 4 s).map fun (y, rest) => ((y : Int), rest)

/-- An offset that may also be the name of universal time, in letters of either case. -/
def readNamedOffset (s : List Char) : Option (Int × List Char) :=
  if (s.take 3).map Char.toUpper = ['U', 'T', 'C'] then some (0, s.drop 3)
  else readOffset (fun r => some (r.dropWhile fun c => c = ':' || isBlank c)) s

/-- An instant with a date, a time and an offset, and at most blanks left over. -/
def readLenient (s : List Char) : Option Instant := do
  let (year, s) ← readYear s
  let s ← expect '-' (skipBlank s)
  let (month, s) ← readShort s
  let s ← expect '-' (skipBlank s)
  let (day, s) ← readShort s
  let s ← match s with
    | c :: r => if c = 'T' || c = 't' || c = ' ' then some r else none
    | [] => none
  let (hour, s) ← readShort s
  let s ← expect ':' (skipBlank s)
  let (minute, s) ← readShort s
  let s ← expect ':' (skipBlank s)
  let (second, s) ← readShort s
  let (nanos, s) ← readNanos s
  let (offset, s) ← readNamedOffset (skipBlank s)
  if (skipBlank s).isEmpty then ofLocal ⟨year, month, day⟩ ⟨hour, minute, second, nanos⟩ offset
  else none

end BoundQuery.Instant
