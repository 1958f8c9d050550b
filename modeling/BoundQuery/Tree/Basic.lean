/-
**Syntax trees.**

A query engine takes declarations as a syntax tree.  The tree has the expressions that values and
declarations need: literals, names, records, calls, a minus sign and functions.  Whole numbers are
kept as their digits, so that no reader of the tree loses any of them.

Main definitions:

* `BoundQuery.Expr` — an expression;
* `BoundQuery.Expr.call`, `BoundQuery.Expr.negative` — a call with a record of arguments, and an
  expression behind a minus sign;
* `BoundQuery.Statement`, `BoundQuery.Import`, `BoundQuery.File` — a statement, the import of a
  package and a file.
-/

import BoundQuery.Number.Double

set_option relaxedAutoImplicit false
set_option autoImplicit false

namespace BoundQuery

/-- An expression. -/
inductive Expr where
  | boolean (value : Bool)
  | integer (digits : String)
  | unsigned (digits : String)
  | float (value : Double)
  | text (value : String)
  | instant (text : String)
  /-- Amounts with the suffixes of their units. -/
  | duration (parts : List (Int64 × String))
  | pattern (spelling : String)
  | identifier (name : String)
  | member (object property : Expr)
  | record (properties : List (Expr × Expr))
  | apply (callee : Expr) (arguments : List Expr)
  | unary (operator : String) (argument : Expr)
  | function (parameters : List (Expr × Expr)) (body : Expr)
deriving BEq

namespace Expr

/-- A record with fields of the given names. -/
def recordOf (fields : List (String × Expr)) : Expr :=
  record (fields.map fun f => (identifier f.1, f.2))

/-- A call with a record of arguments; without any there is no record. -/
def call (callee : Expr) (arguments : List (Expr × Expr)) : Expr :=
  apply callee (if arguments.isEmpty then [] else [record arguments])

/-- A call of a conversion, whose argument is always named alike. -/
def conversion (name : String) (argument : Expr) : Expr :=
  call (identifier name) [(identifier "v", argument)]

/-- An expression behind a minus sign. -/
def negative (e : Expr) : Expr := unary "-" e

/-- An expression, behind a minus sign where `sign` is set. -/
def withSign (sign : Bool) (e : Expr) : Expr := if sign then negative e else e

/-- The name of the form of an expression. -/
def kind : Expr → String
  | boolean _ => "BooleanLiteral"
  | integer _ => "IntegerLiteral"
  | unsigned _ => "UnsignedIntegerLiteral"
  | float _ => "FloatLiteral"
  | text _ => "StringLiteral"
  | instant _ => "DateTimeLiteral"
  | duration _ => "DurationLiteral"
  | pattern _ => "RegexpLiteral"
  | identifier _ => "Identifier"
  | member _ _ => "MemberExpression"
  | record _ => "ObjectExpression"
  | apply _ _ => "CallExpression"
  | unary _ _ => "UnaryExpression"
  | function _ _ => "FunctionExpression"

end Expr

/-- A statement of a file. -/
inductive Statement where
  /-- Sets an option, named by the first expression, to the second one. -/
  | option (id init : Expr)
  | expression (e : Expr)
deriving BEq

/-- The import of a package, by its path and perhaps under another name. -/
structure Import where
  rename : Option Expr
  path : Expr
deriving BEq

/-- A file: its name, if it has one, the imports and the statements. -/
structure File where
  name : Option String
  imports : List Import
  body : List Statement
deriving BEq

namespace Statement

/-- Sets the option of that name. -/
def setting (name : String) (init : Expr) : Statement := option (.identifier name) init

end Statement

/-- The import of a package under its own name. -/
def Import.ofPath (path : String) : Import := ⟨none, .text path⟩

end BoundQuery
