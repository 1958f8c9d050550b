/-
**Values.**

A query is made for values of eight kinds.  Callers hold them in more shapes: a value may be
missing, it may come out of a JSON document, or it may be a date, which stands for its beginning.

Main definitions:

* `BoundQuery.Kind`, `BoundQuery.Kind.name` — the kinds;
* `BoundQuery.Value`, `BoundQuery.Value.kind` — a value;
* `BoundQuery.Value.checked` — a value that has a literal;
* `BoundQuery.Given`, `BoundQuery.Given.resolve` — what a caller holds, and the value it stands
  for.
-/

import BoundQuery.Duration.Basic
import BoundQuery.Json.Basic
import BoundQuery.Pattern.Basic

set_option relaxedAutoImplicit false
set_option autoImplicit false

namespace BoundQuery

/-- The kind of a value. -/
inductive Kind where
  | boolean | integer | unsigned | float | instant | duration | text | pattern
deriving DecidableEq

namespace Kind

/-- The kinds. -/
def all : List Kind := [boolean, integer, unsigned, float, instant, duration, text, pattern]

theorem mem_all (k : Kind) : k ∈ all := by cases k <;> decide

/-- The name of a kind. -/
def name : Kind → String
  | boolean => "boolean"
  | integer => "integer"
  | unsigned => "uinteger"
  | float => "float"
  | instant => "date_time"
  | duration => "duration"
  | text => "string"
  | pattern => "regex"

/-- The kind with a name; an instant has a second one. -/
def ofName? (s : String) : Option Kind :=
  if s = "datetime" then some instant else all.find? fun k => k.name = s

theorem ofName?_name (k : Kind) : ofName? k.name = some k := by cases k <;> decide

end Kind

/-- A value. -/
inductive Value where
  | boolean (b : Bool)
  | integer (n : Int64)
  | unsigned (n : UInt64)
  | float (x : Double)
  | text (s : String)
  | instant (t : Instant)
  | duration (d : Duration)
  | pattern (p : Pattern)
deriving DecidableEq

namespace Value

/-- The kind of a value. -/
def kind : Value → Kind
  | boolean _ => .boolean
  | integer _ => .integer
  | unsigned _ => .unsigned
  | float _ => .float
  | text _ => .text
  | instant _ => .instant
  | duration _ => .duration
  | pattern _ => .pattern

/-- A value that has a literal: only an instant may have none. -/
def HasLiteral : Value → Prop
  | instant t => t.InRange
  | _ => True

instance (v : Value) : Decidable v.HasLiteral := by
  cases v <;> unfold HasLiteral <;> infer_instance

/-- The value itself, or the reason why it has no literal. -/
def checked (v : Value) : Except Error Value :=
  match v with
  | instant t => t.checked.map instant
  | v => .ok v

theorem checked_eq_ok_iff {v w : Value} : v.checked = .ok w ↔ v.HasLiteral ∧ v = w := by
  cases v with
  | instant t =>
      by_cases h : t.InRange <;> simp [checked, HasLiteral, Instant.checked, Except.map, h]
  | _ => simp [checked, HasLiteral]

end Value

/-- What a caller holds. -/
inductive Given where
  | value (v : Value)
  | date (d : Date)
  | json (j : Json)
  | absent

namespace Given

/-- The value of a JSON document: a scalar of the matching kind. -/
def ofJson : Json → Except Error Value
  | .null => .error (.argument "value" .absent)
  | .bool b => .ok (.boolean b)
  | .int n =>
      .ok (if n < 0x8000000000000000 then .integer (Int64.ofInt n) else .unsigned (UInt64.ofNat n.toNat))
  | .float x => .ok (.float x)
  | .string s => .ok (.text s)
  | .array _ => .error (.unsupported "array")
  | .object _ => .error (.unsupported "object")

/-- The value that a caller means, which always has a literal. -/
def resolve : Given → Except Error Value
  | value v => v.checked
  | date d => (Value.instant (.midnight d)).checked
  | json j => ofJson j
  | absent => .error (.argument "value" .absent)

end Given

end BoundQuery
