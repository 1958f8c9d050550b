/-
**The table of bound values.**

A value that is bound stands in a table under a name, and the query only refers to it.  The name is
the label under which the value was bound, followed by the number of values that were bound
before.  A table has one value for every name: a second value of the same name would take the
place of the first.  A value of a kind that the policy does not bind stands in the
query itself, by its literal.

Main definitions:

* `BoundQuery.Piece`, `BoundQuery.Piece.text` — a part of a query: fixed text or the place of a
  value;
* `BoundQuery.Table`, `BoundQuery.Table.insertEntry` — the table, and its entries with one more
  value;
* `BoundQuery.Table.place` — the place of a value, which may need a new entry;
* `BoundQuery.Table.bindValue`, `BoundQuery.Table.bind` — the same for values that may have no
  literal, and for what callers hold;
* `BoundQuery.Table.keep` — the table when its place is not asked for;
* `BoundQuery.Table.text`, `BoundQuery.Table.node` — the declaration of the table.
-/

import BoundQuery.Identifier
import BoundQuery.Settings.Policy
import BoundQuery.Value.Literal

set_option relaxedAutoImplicit false
set_option autoImplicit false

namespace BoundQuery

/-! ### Pieces -/

/-- The record that holds the bound values. -/
def tableName : String := "params"

/-- A part of a query. -/
inductive Piece where
  | fixed (text : List Char)
  /-- The place of a value, by the name of its entry where it is bound. -/
  | place (entryName : Option String) (value : Value)
deriving DecidableEq

/-- The text of a piece: a value that is not bound stands by its literal. -/
def Piece.text : Piece → List Char
  | fixed t => t
  | place (some n) _ => tableName.toList ++ '.' :: n.toList
  | place none v => v.literal

/-- The text of pieces. -/
def piecesText (ps : List Piece) : List Char := ps.flatMap Piece.text

/-! ### The table -/

/-- The values that are bound, by their names and in the order in which they were. -/
structure Table where
  policy : Policy
  entries : List (String × Value)
deriving DecidableEq

namespace Table

/-- The table without entries. -/
def empty (p : Policy) : Table := ⟨p, []⟩

/-- The number of entries. -/
def size (t : Table) : Nat := t.entries.length

/-- The value of a name. -/
def get? (t : Table) (name : String) : Option Value := t.entries.lookup name

/-- The name that a value gets which is bound now. -/
def nextName (t : Table) (label : String) : String :=
  label ++ "_" ++ String.ofList (decimal t.size)

/-- Entries with a value under a name: in the place of the entry that has the name, or else behind
the others. -/
def insertEntry (name : String) (v : Value) : List (String × Value) → List (String × Value)
  | [] => [(name, v)]
  | e :: es => if e.1 = name then (name, v) :: es else e :: insertEntry name v es

/-- The place of a value, and the table with an entry for it where the policy asks for one. -/
def place (t : Table) (label : String) (v : Value) : Piece × Table :=
  if t.policy.binds v.kind then
    (.place (some (t.nextName label)) v,
      { t with entries := insertEntry (t.nextName label) v t.entries })
  else (.place none v, t)

/-- The place of a value that may have no literal, under a label that may be no identifier. -/
def bindValue (t : Table) (label : String) (v : Value) : Except Error (Piece × Table) :=
  if isIdentifier label then
    match v.checked with
    | .ok v => .ok (t.place label v)
    | .error e => .error (e.renamed label)
  else .error (.argument "prefix" (.notIdentifier label))

/-- The place of what a caller holds.  That there is a value is found out before the label is
looked at. -/
def bind (t : Table) (label : String) (g : Given) : Except Error (Piece × Table) :=
  match g.resolve with
  | .ok v => t.bindValue label v
  | .error e => .error (e.renamed label)

/-- The table with what a caller holds bound in it, if it can be bound. -/
def keep (t : Table) (label : String) (g : Given) : Table :=
  match t.bind label g with
  | .ok placed => placed.2
  | .error _ => t

/-! ### Declaration -/

/-- One entry of the declaration: its name and its literal, on a line of its own. -/
def entryText (e : String × Value) : List Char :=
  ' ' :: ' ' :: e.1.toList ++ ": ".toList ++ e.2.literal ++ [',', '\n']

/-- The declaration of the table, and an empty line; `none` without any entries. -/
def text (t : Table) : Option (List Char) :=
  if t.entries.isEmpty then none
  else some ("option ".toList ++ tableName.toList ++ " = \x7b\n".toList ++
    t.entries.flatMap entryText ++ "\x7d\n\n".toList)

/-- The declaration of the table in a syntax tree; `none` without any entries. -/
def node (t : Table) : Option Statement :=
  if t.entries.isEmpty then none
  else some (.setting tableName (.recordOf (t.entries.map fun e => (e.1, e.2.toExpr))))

end Table

end BoundQuery
