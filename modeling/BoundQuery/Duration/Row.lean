/-
**Durations as rows of components.**

A duration is kept as a sign and a row of components, the largest unit first.  More of a unit is
added at the place where the unit stands in the row, or where it belongs; the place is searched by
halves, which only finds it in a row that descends.  An amount is a signed number of 64 bits and a
count of nanoseconds one of 128, so every step could cut a number off.

The operations are those of `BoundQuery.Duration`, which has one amount per unit and bounds them by
its type.  Here nothing is bounded by a type: that rows descend and that no number is cut off are
theorems about the rows that the operations make.

Main definitions:

* `BoundQuery.search` — the place of a member in a row, or the place where it belongs;
* `BoundQuery.Duration.Row`, `BoundQuery.Duration.row` — a sign and a row of components, and the row
  of a duration;
* `BoundQuery.Duration.Row.add`, `BoundQuery.Duration.Row.negate` — a row with more of one unit, and
  with the other sign;
* `BoundQuery.Duration.Row.ofParts`, `BoundQuery.Duration.Row.ofNanos`,
  `BoundQuery.Duration.Row.ofClock`, `BoundQuery.Duration.Row.ofSpan` — rows of counts of time;
* `BoundQuery.Duration.Row.ofLiteral`, `BoundQuery.Duration.Row.ofJson` — rows of texts and of
  stored durations;
* `BoundQuery.Duration.Row.total`, `BoundQuery.Duration.Row.text` — the count of nanoseconds and the
  literal of a row.
-/

import BoundQuery.Duration.Span
import BoundQuery.Scan.Literal
import BoundQuery.Value.Stored

set_option relaxedAutoImplicit false
set_option autoImplicit false

namespace BoundQuery

/-! ### Searching by halves -/

/-- The place of what is sought between two places of a row, or else the place where it belongs;
`order` says of a member whether it stands before that place, at it or behind it. -/
def search {α : Type} (order : α → Ordering) (row : List α) (first last : Nat)
    (hlast : last ≤ row.length) : Except Nat (Fin row.length) :=
  if hlt : first < last then
    let middle := first + (last - first) / 2
    have hmiddle : middle < last := by omega
    match order row[middle] with
    | .lt => search order row (middle + 1) last hlast
    | .eq => .ok ⟨middle, by omega⟩
    | .gt => search order row first middle (by omega)
  else .error first
termination_by last - first

/-! ### Numbers of a fixed size -/

/-- The number of 64 bits with a sign that an integer is, where it fits them. -/
def wordOf? (n : Int) : Option Int64 :=
  if (Int64.ofInt n).toInt = n then some (Int64.ofInt n) else none

/-- How many numbers have 128 bits. -/
def longSize : Nat := 340282366920938463463374607431768211456

/-- The number of 128 bits with a sign that is closest to an integer. -/
def saturated (n : Int) : Int := max (-(longSize / 2)) (min n (longSize / 2 - 1))

namespace Duration

/-- A sign and a row of components. -/
structure Row where
  /-- Whether the duration points backwards. -/
  negative : Bool
  components : List (TimeUnit × Int64)
deriving DecidableEq

/-- The row of a duration. -/
def row (d : Duration) : Row :=
  ⟨d.negative, d.components.map fun c => (c.1, Int64.ofNat c.2)⟩

namespace Row

/-- The row of no time. -/
def zero : Row := ⟨false, []⟩

/-- The row of one amount of 32 bits. -/
def single (n : UInt32) (u : TimeUnit) : Row :=
  if 0 < n then ⟨false, [(u, Int64.ofNat n.toNat)]⟩ else zero

/-- Whether no unit occurs. -/
def isZero (r : Row) : Bool := r.components.isEmpty

/-- How much of a unit there is. -/
def amount (r : Row) (u : TimeUnit) : Nat :=
  ((r.components.find? fun c => c.1 = u).map fun c => c.2.toInt.toNat).getD 0

/-- The place of a unit among components, or the place where it belongs: a component stands before
it if its unit is larger. -/
def place (components : List (TimeUnit × Int64)) (u : TimeUnit) :
    Except Nat (Fin components.length) :=
  search (fun c => compare u.rank c.1.rank) components 0 components.length (Nat.le_refl _)

/-- A row with `n` more of the unit `u`, where the sum fits 64 bits with a sign. -/
def addWord? (r : Row) (n : Int64) (u : TimeUnit) : Option Row :=
  match place r.components u with
  | .ok i =>
      (wordOf? (r.components[i].2.toInt + n.toInt)).map fun sum =>
        { r with components := r.components.set i (r.components[i].1, sum) }
  | .error i => some { r with components := r.components.insertIdx i (u, n) }

/-- A row with `n` more of the unit `u`, where that and the sum fit 64 bits with a sign. -/
def add (r : Row) (n : Nat) (u : TimeUnit) : Except Error Row :=
  match (wordOf? n).bind fun n => if n = 0 then some r else r.addWord? n u with
  | some s => .ok s
  | none => .error (.argument "duration" (.tooMuch u))

/-- A row with amounts added one after the other. -/
def addAll (r : Row) (parts : List (Nat × TimeUnit)) : Except Error Row :=
  parts.foldlM (fun r p => r.add p.1 p.2) r

/-- The row of the other sign; no time has no sign. -/
def negate (r : Row) : Row := { r with negative := !r.negative && !r.isZero }

/-- The row with a sign set, or not. -/
def withSign (negative : Bool) (r : Row) : Row := if negative then r.negate else r

/-! ### Counts of time -/

/-- The units into which a count of nanoseconds is split. -/
def clockUnits : List TimeUnit :=
  [.day, .hour, .minute, .second, .millisecond, .microsecond, .nanosecond]

/-- A count of nanoseconds split into units, as often as each goes into what the ones before it
leave; a unit that does not is left out. -/
def splitInto : List TimeUnit → Nat → List (TimeUnit × Int64)
  | [], _ => []
  | u :: us, n =>
      let size := u.nanos?.getD 1
      if 0 < n / size then (u, Int64.ofNat (n / size)) :: splitInto us (n % size)
      else splitInto us (n % size)

/-- The row of whole seconds and the nanoseconds after them. -/
def ofParts (negative : Bool) (seconds : UInt64) (nanos : UInt32) : Row :=
  withSign negative
    ⟨false, splitInto clockUnits ((seconds.toNat * 1000000000 + nanos.toNat) % longSize)⟩

/-- The row of a count of nanoseconds; its whole seconds must fit 64 bits. -/
def ofNanos (nanos : Int) : Except Error Row :=
  if nanos.natAbs / 1000000000 < UInt64.size then
    .ok (ofParts (nanos < 0) (UInt64.ofNat (nanos.natAbs / 1000000000))
      (UInt32.ofNat (nanos.natAbs % 1000000000)))
  else .error (.argument "duration" (.tooLong nanos))

/-- The row of a span that a clock without a sign measures. -/
def ofClock (seconds : UInt64) (nanos : UInt32) : Row := ofParts false seconds nanos

/-- The row of a span: its seconds rounded towards zero and the nanoseconds that are left, both of
which have its sign. -/
def ofSpan (s : Span) : Row :=
  let seconds := s.total.tdiv 1000000000
  let rest := ((wordOf? (s.total - seconds * 1000000000)).getD 0).toInt
  ofParts (seconds < 0 || rest < 0) (UInt64.ofNat seconds.natAbs) (UInt32.ofNat rest.natAbs)

/-- A count of nanoseconds with those of one component added, where its unit has a length. -/
def addNanos (n : Int) (c : TimeUnit × Int64) : Except Error Int :=
  match c.1.nanos? with
  | some size => .ok (saturated (n + saturated (size * c.2.toInt)))
  | none => .error (.argument "duration" (.calendarUnit c.1))

/-- The count of nanoseconds of a row; a unit of the calendar has none. -/
def total (r : Row) : Except Error Int := do
  let n ← r.components.foldlM addNanos 0
  return if r.negative then (-n).bmod longSize else n

/-! ### Texts -/

/-- The literal of a row: its sign and its components, or zero seconds. -/
def text (r : Row) : List Char :=
  if r.isZero then ['0', 's']
  else (if r.negative then ['-'] else []) ++
    r.components.flatMap fun c => signed c.2.toInt ++ c.1.suffix.toList

/-- A row from a text: at least one component, perhaps behind a minus sign. -/
def scan : Scanner Row := fun s =>
  let (negative, s) := Scanner.sign s
  match Scanner.component s with
  | .error e => .error e
  | .ok (c, rest) =>
      let (cs, rest) := Scanner.components rest.length rest
      match zero.addAll (c :: cs) with
      | .ok r => .ok (r.withSign negative, rest)
      | .error _ => .error s

/-- The row of the duration whose literal a whole text is. -/
def ofLiteral (s : String) : Except Error Row := scan.whole s.toList

/-- The row of the duration that a value stores. -/
def ofJson (j : Json) : Option Row :=
  match j.fields? ["negative", "components"] with
  | some [some negative, some components] => do
      let negative ← negative.bool?
      let parts ← (← components.items?).mapM componentOfJson
      let r ← (zero.addAll parts).toOption
      return r.withSign negative
  | _ => none

end Row

end Duration

end BoundQuery
