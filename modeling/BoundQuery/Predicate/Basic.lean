/-
**Predicates.**

A filter keeps the rows for which a predicate holds.  A predicate compares columns and values,
joins predicates into groups, or is given as a template or a script.  Groups always stand between
parentheses, so that a group means the same wherever it stands.

Main definitions:

* `BoundQuery.Column` — a column of a row;
* `BoundQuery.Operand`, `BoundQuery.Comparison` — a side of a comparison and how the sides are
  compared;
* `BoundQuery.Predicate` — a predicate;
* `BoundQuery.Column.block`, `BoundQuery.Operand.block`, `BoundQuery.Predicate.plan` — how they
  are written;
* `BoundQuery.Predicate.measurementIs`, `BoundQuery.Predicate.fieldIs`,
  `BoundQuery.Predicate.tagIs` — predicates that are often asked for.
-/

import BoundQuery.Binding.Plan

set_option relaxedAutoImplicit false
set_option autoImplicit false

namespace BoundQuery

/-! ### Columns -/

/-- A column of a row. -/
inductive Column where
  /-- A column whose name the program gives; it is written as it is. -/
  | trusted (name : String)
  /-- A column whose name comes from elsewhere; it is looked up. -/
  | dynamic (name : String)
deriving DecidableEq

namespace Column

/-- The column of measurements. -/
def measurement : Column := trusted "_measurement"

/-- The column of fields. -/
def field : Column := trusted "_field"

/-- The column of values. -/
def value : Column := trusted "_value"

/-- The column of times. -/
def time : Column := trusted "_time"

/-- The column in which a range starts. -/
def start : Column := trusted "_start"

/-- The column in which a range stops. -/
def stop : Column := trusted "_stop"

/-- The label of the names of columns. -/
def label : String := "filter_key"

/-- How a column is written: a name from elsewhere has a place like any value. -/
def block : Column → Block
  | trusted name => [.write ("r.".toList ++ name.toList)]
  | dynamic name => [
      .write "record.get(r: r, key: ".toList, .place label (.text name), .require .record,
      .write ", default: \"\")".toList]

end Column

/-! ### Operands -/

/-- How two sides are compared. -/
inductive Comparison where
  | equal | notEqual | less | lessOrEqual | greater | greaterOrEqual | matching | notMatching
deriving DecidableEq

namespace Comparison

/-- The sign of a comparison. -/
def sign : Comparison → String
  | equal => "=="
  | notEqual => "!="
  | less => "<"
  | lessOrEqual => "<="
  | greater => ">"
  | greaterOrEqual => ">="
  | matching => "=~"
  | notMatching => "!~"

end Comparison

/-- A side of a comparison. -/
inductive Operand where
  | column (c : Column)
  | value (v : Value)
  | absent
deriving DecidableEq

namespace Operand

/-- What a caller holds as a side of a comparison: a date without a literal is no value. -/
def ofGiven : Given → Operand
  | .value v => value v
  | .date d =>
      match (Given.date d).resolve with
      | .ok v => value v
      | .error _ => absent
  | .json _ => absent
  | .absent => absent

/-- How a side of a comparison is written; its value has the label of the comparison. -/
def block (label : String) : Operand → Block
  | column c => c.block
  | value v => [.place label v]
  | absent => [.fail (.argument label .absent)]

end Operand

/-! ### Predicates -/

/-- How the members of a group are joined. -/
inductive Connective where
  | all | any
deriving DecidableEq

/-- The word of a connective. -/
def Connective.word : Connective → String
  | all => "and"
  | any => "or"

/-- A predicate. -/
inductive Predicate where
  | compare (left : Operand) (how : Comparison) (right : Operand) (label : String)
  | group (connective : Connective) (members : List Predicate)
  | template (t : Template) (label : String)
  | script (s : Script)

namespace Predicate

/-- The label of the values of comparisons. -/
def valueLabel : String := "filter_value"

/-- The label of the values of templates. -/
def templateLabel : String := "filter_withCustomFlux"

/-- A word with a blank before and behind it. -/
def spaced (word : String) : List Char := ' ' :: word.toList ++ [' ']

mutual

/-- How a predicate is written. -/
def plan : Predicate → Plan
  | compare left how right label =>
      [left.block label, [.write (spaced how.sign)], right.block label]
  | group _ [] => [[.fail (.argument "conditions" .emptyGroup)]]
  | group c (p :: ps) => [.write ['(']] :: p.plan ++ restPlan c ps ++ [[.write [')']]]
  | template t label => [t.block label]
  | script s => [s.block]

/-- How the members of a group behind the first one are written. -/
def restPlan (c : Connective) : List Predicate → Plan
  | [] => []
  | p :: ps => [.write (spaced c.word)] :: p.plan ++ restPlan c ps

end

/-- A comparison whose values have the common label. -/
def compared (left : Operand) (how : Comparison) (right : Operand) : Predicate :=
  compare left how right valueLabel

/-- All of the members. -/
def all (ps : List Predicate) : Predicate := group .all ps

/-- Any of the members. -/
def any (ps : List Predicate) : Predicate := group .any ps

/-- A template whose values have the common label. -/
def ofTemplate (t : Template) : Predicate := template t templateLabel

/-- The same comparison with another label for its values; other predicates are unchanged. -/
def withLabel (label : String) : Predicate → Predicate
  | compare left how right _ => compare left how right label
  | p => p

/-- The measurement has that name. -/
def measurementIs (name : String) : Predicate :=
  compare (.column .measurement) .equal (.value (.text name)) "filter_measurement"

/-- The measurement has one of these names. -/
def measurementIn (names : List String) : Predicate := any (names.map measurementIs)

/-- The field has that name. -/
def fieldIs (name : String) : Predicate :=
  compare (.column .field) .equal (.value (.text name)) "filter_field"

/-- The field has one of these names. -/
def fieldIn (names : List String) : Predicate := any (names.map fieldIs)

/-- The tag of that key has that value. -/
def tagIs (tag : String × String) : Predicate :=
  compared (.column (.dynamic tag.1)) .equal (.value (.text tag.2))

/-- One of these tags has its value. -/
def anyTag (tags : List (String × String)) : Predicate := any (tags.map tagIs)

/-- Each of these tags has its value. -/
def everyTag (tags : List (String × String)) : Predicate := all (tags.map tagIs)

end Predicate

end BoundQuery
