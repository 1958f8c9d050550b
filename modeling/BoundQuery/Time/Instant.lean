/-
**Instants.**

An instant is a count of seconds since the first of January 1970 and a part of a second in
nanoseconds.  A part of one second or more marks a leap second: it is shown as the second after
the one that was counted, so a leap second at the end of a minute is shown as second sixty.

Main definitions:

* `BoundQuery.Instant` — an instant;
* `BoundQuery.Instant.total`, `BoundQuery.Instant.InRange` — the count of nanoseconds, and whether
  it fits a signed number of 64 bits, which is what the query language can hold;
* `BoundQuery.Instant.LeapAtMinuteEnd` — a leap second comes at the end of a minute;
* `BoundQuery.Instant.text` — the text of an instant, always in universal time;
* `BoundQuery.Instant.ofLocal` — the instant of a date, a time of day and an offset.
-/

import BoundQuery.Time.Date
import BoundQuery.Text.Numeral

set_option relaxedAutoImplicit false
set_option autoImplicit false

namespace BoundQuery

/-- A count of seconds since the first of January 1970, and the nanoseconds after it; from one
second on they mark a leap second. -/
structure Instant where
  seconds : Int
  nanos : Nat
  nanos_lt : nanos < 2000000000 := by omega
deriving DecidableEq

namespace Instant

/-- The nanoseconds since the first of January 1970. -/
def total (t : Instant) : Int := t.seconds * 1000000000 + t.nanos

/-- The count of nanoseconds fits a signed number of 64 bits.  Before 1970 it is counted back from
the end of the second, which has to fit as well: this refuses nothing more but leap seconds that are
counted in second -9223372038, and that is no end of a minute (`inRange_iff_total`). -/
def InRange (t : Instant) : Prop :=
  -0x8000000000000000 ≤ (t.seconds + 1) * 1000000000 ∧
    -0x8000000000000000 ≤ t.total ∧ t.total < 0x8000000000000000

instance (t : Instant) : Decidable t.InRange :=
  inferInstanceAs (Decidable (-0x8000000000000000 ≤ (t.seconds + 1) * 1000000000 ∧
    -0x8000000000000000 ≤ t.total ∧ t.total < 0x8000000000000000))

/-- A leap second comes at the end of a minute. -/
def LeapAtMinuteEnd (t : Instant) : Prop := 1000000000 ≤ t.nanos → t.seconds % 60 = 59

/-- An instant whose leap second comes at the end of a minute, if it has one, is in range exactly if
the count of its nanoseconds fits a signed number of 64 bits. -/
theorem inRange_iff_total {t : Instant} (h : t.LeapAtMinuteEnd) :
    t.InRange ↔ -0x8000000000000000 ≤ t.total ∧ t.total < 0x8000000000000000 := by
  have hnanos := t.nanos_lt
  refine and_iff_right_of_imp fun hrange => ?_
  -- without a leap second the count lies before the end of its second
  rcases Nat.lt_or_ge t.nanos 1000000000 with hsecond | hleap
  · unfold total at hrange
    omega
  · have hend := h hleap
    unfold total at hrange
    omega

/-- A leap second in the middle of a minute may be refused although its count fits. -/
example : ¬InRange ⟨-9223372038, 1999999999, by decide⟩ ∧
    -0x8000000000000000 ≤ total ⟨-9223372038, 1999999999, by decide⟩ := by decide

/-- The beginning of a date. -/
def midnight (d : Date) : Instant := ⟨d.toDays * 86400, 0, by decide⟩

/-! ### Text -/

/-- A year: four digits from year zero to year 9999, else with its sign and at least four. -/
def yearText (y : Int) : List Char :=
  if 0 ≤ y ∧ y ≤ 9999 then padded 4 y.natAbs
  else (if y < 0 then '-' else '+') :: padded 4 y.natAbs

/-- A date: year, month and day with a dash between them. -/
def dateText (d : Date) : List Char :=
  yearText d.year ++ '-' :: padded 2 d.month ++ '-' :: padded 2 d.day

/-- A part of a second: three, six or nine digits behind a point, as few of these as are exact,
and nothing when it is zero. -/
def fractionText (nanos : Nat) : List Char :=
  if nanos = 0 then []
  else if nanos % 1000000 = 0 then '.' :: padded 3 (nanos / 1000000)
  else if nanos % 1000 = 0 then '.' :: padded 6 (nanos / 1000)
  else '.' :: padded 9 nanos

/-- The text of an instant in universal time. -/
def text (t : Instant) : List Char :=
  let ofDay := (t.seconds % 86400).toNat
  dateText (Date.ofDays (t.seconds / 86400)) ++
    'T' :: padded 2 (ofDay / 3600) ++ ':' :: padded 2 (ofDay / 60 % 60) ++
    ':' :: padded 2 (ofDay % 60 + t.nanos / 1000000000) ++
    fractionText (t.nanos % 1000000000) ++ ['Z']

/-! ### From a clock and an offset -/

/-- A time of day as a clock shows it, with the nanoseconds after the second. -/
structure Clock where
  hour : Nat
  minute : Nat
  second : Nat
  nanos : Nat

/-- The first and the last year that an instant can be read in. -/
def yearRange : Int × Int := (-262143, 262142)

/-- The year of a date can be read. -/
def yearAllowed (d : Date) : Bool := yearRange.1 ≤ d.year && d.year ≤ yearRange.2

/-- The instant at which a clock that runs `offset` seconds ahead of universal time shows a date
and a time of day; `none` when there is no such date or time.  Second sixty is a leap second. -/
def ofLocal (d : Date) (c : Clock) (offset : Int) : Option Instant :=
  if ¬(d.Exists ∧ yearAllowed d) then none
  else if ¬(c.hour < 24 ∧ c.minute < 60 ∧ c.second ≤ 60 ∧ c.nanos < 1000000000) then none
  else
    let second := if c.second = 60 then 59 else c.second
    let nanos := if c.second = 60 then c.nanos + 1000000000 else c.nanos
    let seconds : Int :=
      d.toDays * 86400 + (c.hour * 3600 + c.minute * 60 + second : Nat) - offset
    if ¬yearAllowed (Date.ofDays (seconds / 86400)) then none
    else if h : nanos < 2000000000 then some ⟨seconds, nanos, h⟩ else none

end Instant

end BoundQuery
