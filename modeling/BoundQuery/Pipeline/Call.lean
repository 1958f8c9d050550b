/-
**Calls in a pipeline.**

A stage of a pipeline is the call of a function with named arguments.  An argument is a value,
which is bound under the names of the function and the argument, a time zone, or a name that
stands as it is.

Main definitions:

* `BoundQuery.Bound`, `BoundQuery.Bound.block` — the start or the end of a range;
* `BoundQuery.Location`, `BoundQuery.Location.block` — a time zone;
* `BoundQuery.Argument`, `BoundQuery.callBlock` — an argument, and a call.
-/

import BoundQuery.Binding.Plan

set_option relaxedAutoImplicit false
set_option autoImplicit false

namespace BoundQuery

/-! ### Bounds of ranges -/

/-- The start or the end of a range. -/
inductive Bound where
  | absolute (t : Instant)
  /-- Relative to the present; a negative duration points into the past. -/
  | relative (d : Duration)
  | now
deriving DecidableEq

namespace Bound

/-- The time that lies a duration before the present. -/
def ago (d : Duration) : Bound := relative d.negate

/-- How a bound is written. -/
def block (label : String) : Bound → Block
  | absolute t => [.give label (.value (.instant t))]
  | relative d => [.give label (.value (.duration d))]
  | now => [.write "now()".toList]

end Bound

/-! ### Time zones -/

/-- A time zone. -/
inductive Location where
  | utc
  /-- The time zone of a place, by its name. -/
  | named (name : String)
  /-- A fixed distance from universal time. -/
  | fixed (offset : Duration)
deriving DecidableEq

/-- How a time zone is written; it needs the package of time zones. -/
def Location.block : Location → Block
  | utc => [.require .timezone, .write "timezone.utc".toList]
  | named name => [
      .require .timezone, .write "timezone.location(name: ".toList,
      .place "location_name" (.text name), .write [')']]
  | fixed offset => [
      .require .timezone, .write "timezone.fixed(offset: ".toList,
      .place "location_offset" (.duration offset), .write [')']]

/-! ### Calls -/

/-- An argument of a call. -/
inductive Argument where
  | value (v : Value)
  | location (l : Location)
  | name (text : String)

namespace Argument

/-- A value that may be absent, as an argument that may be. -/
def ofValue? (name : String) (v : Option Value) : List (String × Argument) :=
  v.toList.map fun v => (name, value v)

/-- How an argument is written behind its name. -/
def block (function name : String) : Argument → Block
  | value v => [.place (function ++ "_" ++ name) v]
  | location l => l.block
  | Argument.name t => [.write t.toList]

/-- How arguments are written, each behind its name, with commas between them. -/
def blocks (function : String) : List (String × Argument) → Block
  | [] => []
  | [(n, a)] => .write (n.toList ++ ": ".toList) :: a.block function n
  | (n, a) :: as =>
      .write (n.toList ++ ": ".toList) :: a.block function n ++
        .write ", ".toList :: blocks function as

end Argument

/-- How a call is written. -/
def callBlock (function : String) (arguments : List (String × Argument)) : Block :=
  .write (function.toList ++ ['(']) :: Argument.blocks function arguments ++ [.write [')']]

end BoundQuery
