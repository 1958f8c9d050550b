/-
**Stored syntax trees.**

A tree is stored as JSON: every node is a record with the name of its form in the field `type`.
Reading is lenient where no information is lost: only an expression and a statement need the name
of their form, since the place of every other node says what it is.

Main definitions:

* `BoundQuery.Expr.toJson`, `BoundQuery.Expr.ofJson` — the stored form of an expression, and the
  expression stored so;
* the same for `BoundQuery.Statement`, `BoundQuery.Import` and `BoundQuery.File`.
-/

import BoundQuery.Json.Record
import BoundQuery.Tree.Basic

set_option relaxedAutoImplicit false
set_option autoImplicit false

namespace BoundQuery

/-- A node: a record with the name of its form. -/
def nodeJson (kind : String) (fields : List (String × Json)) : Json :=
  .object (("type", .string kind) :: fields)

/-! ### Expressions -/

namespace Expr

/-- An amount and the suffix of its unit. -/
def partToJson (part : Int64 × String) : Json :=
  nodeJson "Duration" [("magnitude", .int part.1.toInt), ("unit", .string part.2)]

mutual

/-- The stored form of an expression. -/
def toJson : Expr → Json
  | boolean b => nodeJson "BooleanLiteral" [("value", .bool b)]
  | integer s => nodeJson "IntegerLiteral" [("value", .string s)]
  | unsigned s => nodeJson "UnsignedIntegerLiteral" [("value", .string s)]
  | float x => nodeJson "FloatLiteral" [("value", .float x)]
  | text s => nodeJson "StringLiteral" [("value", .string s)]
  | instant s => nodeJson "DateTimeLiteral" [("value", .string s)]
  | duration parts => nodeJson "DurationLiteral" [("values", .array (parts.map partToJson))]
  | pattern s => nodeJson "RegexpLiteral" [("value", .string s)]
  | identifier s => nodeJson "Identifier" [("name", .string s)]
  | member o p => nodeJson "MemberExpression" [("object", o.toJson), ("property", p.toJson)]
  | record ps => nodeJson "ObjectExpression" [("properties", .array (propertiesToJson ps))]
  | apply f es =>
      nodeJson "CallExpression" [("callee", f.toJson), ("arguments", .array (allToJson es))]
  | unary op e => nodeJson "UnaryExpression" [("operator", .string op), ("argument", e.toJson)]
  | function ps e =>
      nodeJson "FunctionExpression" [
        ("params", .array (propertiesToJson ps)), ("body", e.toJson)]

/-- The stored forms of expressions. -/
def allToJson : List Expr → List Json
  | [] => []
  | e :: es => e.toJson :: allToJson es

/-- The stored forms of properties. -/
def propertiesToJson : List (Expr × Expr) → List Json
  | [] => []
  | (k, v) :: ps =>
      nodeJson "Property" [("key", k.toJson), ("value", v.toJson)] :: propertiesToJson ps

end

/-- The stored form of a property. -/
def propertyToJson (p : Expr × Expr) : Json :=
  nodeJson "Property" [("key", p.1.toJson), ("value", p.2.toJson)]

/-- The names of the forms, in their order. -/
def kinds : List String := [
  "BooleanLiteral", "IntegerLiteral", "UnsignedIntegerLiteral", "FloatLiteral", "StringLiteral",
  "DateTimeLiteral", "DurationLiteral", "RegexpLiteral", "Identifier", "MemberExpression",
  "ObjectExpression", "CallExpression", "UnaryExpression", "FunctionExpression"]

/-- The amount and the suffix that a value stores. -/
def partOfJson (j : Json) : Option (Int64 × String) :=
  j.twoFields "magnitude" "unit" Json.int64? Json.string?

/-- The property that a value stores, by a reader of its parts. -/
def propertyWith (read : Json → Option Expr) (j : Json) : Option (Expr × Expr) :=
  j.twoFields "key" "value" read read

/-- The expression of a form with the given content, by a reader of its parts. -/
def ofContent (read : Json → Option Expr) (kind : String) (content : Json) : Option Expr :=
  match kind with
  | "BooleanLiteral" => (content.oneField "value" Json.bool?).map boolean
  | "IntegerLiteral" => (content.oneField "value" Json.string?).map integer
  | "UnsignedIntegerLiteral" => (content.oneField "value" Json.string?).map unsigned
  | "FloatLiteral" => (content.oneField "value" Json.double?).map float
  | "StringLiteral" => (content.oneField "value" Json.string?).map text
  | "DateTimeLiteral" => (content.oneField "value" Json.string?).map instant
  | "DurationLiteral" => (content.oneField "values" (Json.each partOfJson)).map duration
  | "RegexpLiteral" => (content.oneField "value" Json.string?).map pattern
  | "Identifier" => (content.oneField "name" Json.string?).map identifier
  | "MemberExpression" =>
      (content.twoFields "object" "property" read read).map fun p => member p.1 p.2
  | "ObjectExpression" =>
      (content.oneField "properties" (Json.each (propertyWith read))).map record
  | "CallExpression" =>
      (content.twoFields "callee" "arguments" read (Json.each read)).map fun p => apply p.1 p.2
  | "UnaryExpression" =>
      (content.twoFields "operator" "argument" Json.string? read).map fun p => unary p.1 p.2
  | "FunctionExpression" =>
      (content.twoFields "params" "body" (Json.each (propertyWith read)) read).map fun p =>
        function p.1 p.2
  | _ => none

/-- The expression that a value stores, at most `fuel` expressions inside one another.  The form
of an inner expression may also be given by its place among the forms. -/
def readWithin : Nat → Bool → Json → Option Expr
  | 0, _, _ => none
  | fuel + 1, inner, j => do
      let (kind, content) ← j.tagged? inner kinds
      ofContent (readWithin fuel true) kind content

/-- The expression that a value stores, inside another node or by itself. -/
def read (inner : Bool) (j : Json) : Option Expr := readWithin (j.depth + 1) inner j

/-- The expression that a value stores. -/
def ofJson (j : Json) : Option Expr := read false j

/-- The property that a value stores. -/
def propertyOfJson (j : Json) : Option (Expr × Expr) := propertyWith ofJson j

end Expr

/-! ### Statements, imports and files -/

namespace Statement

/-- The stored form of a statement. -/
def toJson : Statement → Json
  | option id init =>
      nodeJson "OptionStatement" [
        ("assignment", nodeJson "VariableAssignment" [("id", id.toJson), ("init", init.toJson)])]
  | expression e => nodeJson "ExpressionStatement" [("expression", e.toJson)]

/-- The statement that a value stores. -/
def ofJson (j : Json) : Option Statement := do
  let (kind, content) ← j.tagged? false ["OptionStatement", "ExpressionStatement"]
  if kind = "OptionStatement" then
    let (id, init) ← content.oneField "assignment" fun j =>
      j.twoFields "id" "init" (Expr.read true) (Expr.read true)
    return option id init
  else return expression (← content.oneField "expression" (Expr.read true))

end Statement

namespace Import

/-- The stored form of an import. -/
def toJson (i : Import) : Json :=
  nodeJson "ImportDeclaration"
    ((i.rename.map fun e => ("as", e.toJson)).toList ++ [("path", i.path.toJson)])

/-- The import that a value stores. -/
def ofJson (j : Json) : Option Import :=
  match j.fields? ["as", "path"] with
  | some [rename, some path] => do
      return ⟨← Json.optional? Expr.ofJson rename, ← Expr.ofJson path⟩
  | _ => none

end Import

namespace File

/-- The stored form of a file. -/
def toJson (f : File) : Json :=
  nodeJson "File"
    ((f.name.map fun s => ("name", Json.string s)).toList ++
      [("imports", .array (f.imports.map Import.toJson)),
        ("body", .array (f.body.map Statement.toJson))])

/-- The file that a value stores. -/
def ofJson (j : Json) : Option File :=
  match j.fields? ["name", "imports", "body"] with
  | some [name, some imports, some body] => do
      return ⟨← Json.optional? Json.string? name, ← imports.each Import.ofJson,
        ← body.each Statement.ofJson⟩
  | _ => none

end File

end BoundQuery
