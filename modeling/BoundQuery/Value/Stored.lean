/-
**Stored values.**

A value is stored as JSON: an object whose only field is named for the kind.  What is read is a
value again, whatever the text says: the amounts of a duration are added up, and a pattern is
taken in the spelling in which it is kept.

Main definitions:

* `BoundQuery.Value.toJson`, `BoundQuery.Value.ofJson` — the stored form of a value, and the value
  stored so;
* the same for `BoundQuery.Duration`, and readers for `BoundQuery.TimeUnit`, `BoundQuery.Kind`,
  `BoundQuery.Instant` and `BoundQuery.Pattern`.
-/

import BoundQuery.Json.Record
import BoundQuery.Time.Reader
import BoundQuery.Value.Basic

set_option relaxedAutoImplicit false
set_option autoImplicit false

namespace BoundQuery

/-- The unit that a value names. -/
def TimeUnit.ofJson (j : Json) : Option TimeUnit := do ofName? (← j.unit?)

/-- The kind that a value names. -/
def Kind.ofJson (j : Json) : Option Kind := do ofName? (← j.unit?)

/-- The instant that a value stores. -/
def Instant.ofJson (j : Json) : Option Instant := do readLenient (← j.string?).toList

/-- The pattern that a value stores. -/
def Pattern.ofJson (j : Json) : Option Pattern := do
  (ofText (← j.string?).toList).toOption

namespace Duration

/-- The stored form of a duration. -/
def toJson (d : Duration) : Json :=
  .object [
    ("negative", .bool d.negative),
    ("components", .array (d.components.map fun c => .array [.string c.1.name, .int c.2]))]

/-- The unit and the amount that a value stores. -/
def componentOfJson : Json → Option (Nat × TimeUnit)
  | .array [u, n] => do return ((← n.uint64?).toNat, ← TimeUnit.ofJson u)
  | _ => none

/-- The duration that a value stores: the components may come in any order and more than once. -/
def ofJson (j : Json) : Option Duration :=
  match j.fields? ["negative", "components"] with
  | some [some negative, some components] => do
      let negative ← negative.bool?
      let parts ← (← components.items?).mapM componentOfJson
      let d ← (ofAmounts parts).toOption
      return d.withSign negative
  | _ => none

end Duration

namespace Value

/-- The stored form of a value. -/
def toJson : Value → Json
  | boolean b => .object [("Bool", .bool b)]
  | integer n => .object [("Int", .int n.toInt)]
  | unsigned n => .object [("UInt", .int n.toNat)]
  | float x => .object [("Float", .float x)]
  | text s => .object [("String", .string s)]
  | instant t => .object [("DateTime", .string (String.ofList t.text))]
  | duration d => .object [("Duration", d.toJson)]
  | pattern p => .object [("Regex", .string p.toText)]

/-- The value that a value of JSON stores. -/
def ofJson (j : Json) : Option Value := do
  let (name, content) ← j.wrapped?
  match name with
  | "Bool" => content.bool?.map boolean
  | "Int" => content.int64?.map integer
  | "UInt" => content.uint64?.map unsigned
  | "Float" => content.double?.map float
  | "String" => content.string?.map text
  | "DateTime" => (Instant.ofJson content).map instant
  | "Duration" => (Duration.ofJson content).map duration
  | "Regex" => (Pattern.ofJson content).map pattern
  | _ => none

end Value

end BoundQuery
