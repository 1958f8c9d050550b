/-
**Inspected predicates.**

An inspected predicate shows how it is put together, on one line: the form of every part, its
fields by name, and texts between quotes.

Main definitions:

* `BoundQuery.Column.shown` — a column as it is shown to a reader;
* `BoundQuery.Value.inspected`, `BoundQuery.Operand.inspected`, `BoundQuery.Predicate.inspected` —
  a value, a side of a comparison and a predicate.
-/

import BoundQuery.Predicate.Basic
import BoundQuery.Text.Inspected

set_option relaxedAutoImplicit false
set_option autoImplicit false

namespace BoundQuery

/-- A column as it is shown to a reader. -/
def Column.shown : Column → List Char
  | trusted name => "r.".toList ++ name.toList
  | dynamic name => "r[".toList ++ inspect name.toList ++ [']']

/-! ### Forms -/

/-- A form with one content. -/
def inspectWrapped (form : String) (content : List Char) : List Char :=
  form.toList ++ '(' :: content ++ [')']

/-- Items with a comma and a blank between them. -/
def inspectItems : List (List Char) → List Char
  | [] => []
  | [t] => t
  | t :: ts => t ++ ',' :: ' ' :: inspectItems ts

/-- A list. -/
def inspectList (items : List (List Char)) : List Char := '[' :: inspectItems items ++ [']']

/-- A form with fields. -/
def inspectRecord (form : String) (fields : List (String × List Char)) : List Char :=
  form.toList ++ " \x7b ".toList ++
    inspectItems (fields.map fun f => f.1.toList ++ ": ".toList ++ f.2) ++ " \x7d".toList

/-- A truth value. -/
def inspectBool (b : Bool) : List Char := if b then "true".toList else "false".toList

/-! ### Values -/

/-- An inspected floating-point number. -/
def Double.inspected : Double → List Char
  | nan => "NaN".toList
  | infinite false => "inf".toList
  | infinite true => "-inf".toList
  | finite n m => Layout.inspected.text n m

/-- An inspected duration. -/
def Duration.inspected (d : Duration) : List Char :=
  inspectRecord "FluxDuration" [
    ("negative", inspectBool d.negative),
    ("components", inspectList (d.components.map fun c =>
      '(' :: inspectItems [c.1.name.toList, decimal c.2] ++ [')']))]

/-- An inspected value. -/
def Value.inspected : Value → List Char
  | boolean b => inspectWrapped "Bool" (inspectBool b)
  | integer n => inspectWrapped "Int" (signed n.toInt)
  | unsigned n => inspectWrapped "UInt" (decimal n.toNat)
  | float x => inspectWrapped "Float" x.inspected
  | text s => inspectWrapped "String" (inspect s.toList)
  | instant t => inspectWrapped "DateTime" t.text
  | duration d => inspectWrapped "Duration" d.inspected
  | pattern p =>
      inspectWrapped "Regex" (inspectRecord "FluxRegex" [("pattern", inspect p.spelling)])

/-! ### Predicates -/

/-- An inspected column. -/
def Column.inspected : Column → List Char
  | trusted name => inspectWrapped "Trusted" (inspect name.toList)
  | dynamic name => inspectWrapped "Dynamic" (inspect name.toList)

/-- An inspected side of a comparison. -/
def Operand.inspected : Operand → List Char
  | column c => inspectWrapped "Key" c.inspected
  | value v => inspectWrapped "Value" v.inspected
  | absent => "Null".toList

/-- The name of a comparison. -/
def Comparison.name : Comparison → String
  | equal => "Equal"
  | notEqual => "NotEqual"
  | less => "Less"
  | lessOrEqual => "LessOrEqual"
  | greater => "Greater"
  | greaterOrEqual => "GreaterOrEqual"
  | matching => "Matches"
  | notMatching => "NotMatches"

/-- The name of a connective. -/
def Connective.name : Connective → String
  | all => "And"
  | any => "Or"

/-- An inspected part of a template. -/
def Template.Segment.inspected : Template.Segment → List Char
  | raw t => inspectWrapped "Raw" (inspect t)
  | place i => inspectWrapped "Arg" (decimal i)

/-- An inspected template. -/
def Template.inspected (t : Template) : List Char :=
  inspectRecord "FluxTemplate" [
    ("segments", inspectList (t.segments.map Segment.inspected)),
    ("args", inspectList (t.values.map Value.inspected))]

namespace Predicate

mutual

/-- An inspected predicate; nothing is shown of a script. -/
def inspected : Predicate → List Char
  | compare left how right label =>
      inspectRecord "Compare" [
        ("left", left.inspected), ("operator", how.name.toList), ("right", right.inspected),
        ("value_prefix", inspect label.toList)]
  | group c ps =>
      inspectRecord "Group" [
        ("operator", c.name.toList), ("conditions", inspectList (allInspected ps))]
  | template t label =>
      inspectRecord "Template" [("template", t.inspected), ("prefix", inspect label.toList)]
  | script _ => "Unsafe(..)".toList

/-- Inspected predicates. -/
def allInspected : List Predicate → List (List Char)
  | [] => []
  | p :: ps => p.inspected :: allInspected ps

end

end Predicate

end BoundQuery
