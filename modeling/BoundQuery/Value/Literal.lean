/-
**Literals of values.**

Every kind of value has one rule for its literal, and one for the expression that stands for it in
a syntax tree.  A number that has no numeral of its own in the query language, which reads bare
numerals as signed numbers of 64 bits, is written as the call of a conversion.

Main definitions:

* `BoundQuery.Value.literal` — the literal of a value;
* `BoundQuery.Value.toExpr` — the expression of a value.
-/

import BoundQuery.Text.Quoted
import BoundQuery.Tree.Basic
import BoundQuery.Value.Basic

set_option relaxedAutoImplicit false
set_option autoImplicit false

namespace BoundQuery

/-- The call of a conversion with the text of its argument. -/
def conversionText (name : String) (argument : List Char) : List Char :=
  name.toList ++ "(v: ".toList ++ argument ++ [')']

/-- The literal of a whole number with a sign.  The least one has no numeral: its size is no
number of the kind. -/
def integerLiteral (n : Int64) : List Char :=
  if n = Int64.minValue then conversionText "int" (quotedText (signed n.toInt))
  else signed n.toInt

/-- The literal of a floating-point number. -/
def floatLiteral : Double → List Char
  | .nan => conversionText "float" (quotedText "NaN".toList)
  | .infinite false => conversionText "float" (quotedText "+Inf".toList)
  | .infinite true => conversionText "float" (quotedText "-Inf".toList)
  | .finite n m => Layout.literal.text n m

/-- The expression of a whole number with a sign. -/
def integerExpr (n : Int64) : Expr :=
  if n = Int64.minValue then .conversion "int" (.text (String.ofList (signed n.toInt)))
  else .withSign (n < 0) (.integer (String.ofList (decimal n.toInt.natAbs)))

/-- The expression of a floating-point number. -/
def floatExpr : Double → Expr
  | .nan => .conversion "float" (.text "NaN")
  | .infinite false => .conversion "float" (.text "+Inf")
  | .infinite true => .conversion "float" (.text "-Inf")
  | .finite n m => .withSign n (.float (.finite false m))

/-- The expression of a duration; no time is zero seconds. -/
def Duration.toExpr (d : Duration) : Expr :=
  .withSign d.negative <| .duration <|
    if d.isZero then [(0, "s")]
    else d.components.map fun c => (Int64.ofNat c.2, c.1.suffix)

namespace Value

/-- The literal of a value. -/
def literal : Value → List Char
  | boolean b => if b then "true".toList else "false".toList
  | integer n => integerLiteral n
  | unsigned n => conversionText "uint" (decimal n.toNat)
  | float x => floatLiteral x
  | text s => quotedText s.toList
  | instant t => t.text
  | duration d => d.text
  | pattern p => p.literal

/-- The expression of a value. -/
def toExpr : Value → Expr
  | boolean b => .boolean b
  | integer n => integerExpr n
  | unsigned n => .unsigned (String.ofList (decimal n.toNat))
  | float x => floatExpr x
  | text s => .text s
  | instant t => .instant (String.ofList t.text)
  | duration d => d.toExpr
  | pattern p => .pattern p.toText

end Value

end BoundQuery
