/-
**Units of time.**

Eight units have a fixed length; a month and a year depend on the calendar.  Every unit has a
suffix that follows its amount in a literal, and a name.

Main definitions:

* `BoundQuery.TimeUnit`, `BoundQuery.TimeUnit.all` — the units, largest first;
* `BoundQuery.TimeUnit.suffix`, `BoundQuery.TimeUnit.name` — how a unit is written;
* `BoundQuery.TimeUnit.ofSuffix?`, `BoundQuery.TimeUnit.ofName?` — the unit written so;
* `BoundQuery.TimeUnit.nanos?` — the length of a unit, where it is fixed.

Main results:

* `BoundQuery.TimeUnit.ofSuffix?_suffix`, `BoundQuery.TimeUnit.ofName?_name` — what is written
  names the unit it was written for.
-/

set_option relaxedAutoImplicit false
set_option autoImplicit false

namespace BoundQuery

/-- A unit of time. -/
inductive TimeUnit where
  | year | month | week | day | hour | minute | second | millisecond | microsecond | nanosecond
deriving DecidableEq

namespace TimeUnit

/-- The units, largest first. -/
def all : List TimeUnit :=
  [year, month, week, day, hour, minute, second, millisecond, microsecond, nanosecond]

theorem mem_all (u : TimeUnit) : u ∈ all := by cases u <;> decide

/-- The place of a unit in the order of size, the smallest first. -/
def rank : TimeUnit → Nat
  | nanosecond => 0
  | microsecond => 1
  | millisecond => 2
  | second => 3
  | minute => 4
  | hour => 5
  | day => 6
  | week => 7
  | month => 8
  | year => 9

/-- What follows an amount of the unit in a literal. -/
def suffix : TimeUnit → String
  | nanosecond => "ns"
  | microsecond => "us"
  | millisecond => "ms"
  | second => "s"
  | minute => "m"
  | hour => "h"
  | day => "d"
  | week => "w"
  | month => "mo"
  | year => "y"

/-- The unit with a suffix; microseconds may also be written with a micro sign. -/
def ofSuffix? (s : String) : Option TimeUnit :=
  if s = "µs" then some microsecond else all.find? fun u => u.suffix = s

/-- The name of a unit in stored forms. -/
def name : TimeUnit → String
  | nanosecond => "Nanosecond"
  | microsecond => "Microsecond"
  | millisecond => "Millisecond"
  | second => "Second"
  | minute => "Minute"
  | hour => "Hour"
  | day => "Day"
  | week => "Week"
  | month => "Month"
  | year => "Year"

/-- The unit with a name. -/
def ofName? (s : String) : Option TimeUnit := all.find? fun u => u.name = s

/-- The length of a unit in nanoseconds; `none` for the units of the calendar. -/
def nanos? : TimeUnit → Option Nat
  | nanosecond => some 1
  | microsecond => some 1000
  | millisecond => some 1000000
  | second => some 1000000000
  | minute => some (60 * 1000000000)
  | hour => some (3600 * 1000000000)
  | day => some (86400 * 1000000000)
  | week => some (7 * 86400 * 1000000000)
  | month => none
  | year => none

/-- Whether the length of the unit depends on the calendar. -/
def isCalendar (u : TimeUnit) : Bool := u.nanos?.isNone

theorem ofSuffix?_suffix (u : TimeUnit) : ofSuffix? u.suffix = some u := by cases u <;> decide

theorem ofName?_name (u : TimeUnit) : ofName? u.name = some u := by cases u <;> decide

end TimeUnit

end BoundQuery
