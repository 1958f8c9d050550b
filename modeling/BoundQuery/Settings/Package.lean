/-
**Packages.**

A query imports packages by their paths.  A path is made of identifiers with slashes between them.

Main definitions:

* `BoundQuery.segments` — the parts of a text between its slashes;
* `BoundQuery.Package`, `BoundQuery.Package.ofPath` — a package;
* `BoundQuery.Package.importText`, `BoundQuery.Package.importNode` — its import, as text and in a
  syntax tree.
-/

import BoundQuery.Identifier
import BoundQuery.Text.Quoted
import BoundQuery.Tree.Basic

set_option relaxedAutoImplicit false
set_option autoImplicit false

namespace BoundQuery

/-- The parts of a text between its slashes; there is always one more part than slashes. -/
def segments : List Char → List (List Char)
  | [] => [[]]
  | c :: s =>
      if c = '/' then [] :: segments s
      else match segments s with
        | part :: parts => (c :: part) :: parts
        | [] => [[c]]

/-- Whether a text is the path of a package. -/
def isPackagePath (s : String) : Bool := (segments s.toList).all isIdentifierText

/-- A package, by its path. -/
structure Package where
  path : String
  isPackagePath_path : isPackagePath path = true
deriving DecidableEq

namespace Package

/-- The package with a path. -/
def ofPath (s : String) : Except Error Package :=
  if h : isPackagePath s = true then .ok ⟨s, h⟩
  else .error (.argument "package" (.notPackagePath s))

/-- The package that looks up columns of a record by name. -/
def record : Package := ⟨"experimental/record", by decide⟩

/-- The package of time zones. -/
def timezone : Package := ⟨"timezone", by decide⟩

/-- The package of operations on texts. -/
def strings : Package := ⟨"strings", by decide⟩

/-- The package of operations on dates. -/
def date : Package := ⟨"date", by decide⟩

/-- The import of a package. -/
def importText (p : Package) : List Char := "import ".toList ++ quotedText p.path.toList

/-- The import of a package in a syntax tree. -/
def importNode (p : Package) : Import := .ofPath p.path

end Package

end BoundQuery
