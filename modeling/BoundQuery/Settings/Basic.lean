/-
**Settings of a query.**

The settings of a query are the policy, an instant that stands for the present, and the packages
that are imported.  The present can be fixed only once, and a package is imported once however
often it is asked for, in the place where it was first.

Main definitions:

* `BoundQuery.Settings` — the settings;
* `BoundQuery.Settings.fixNow`, `BoundQuery.Settings.addImport`,
  `BoundQuery.Settings.addImports` — settings with one more of their parts;
* `BoundQuery.Settings.importsText`, `BoundQuery.Settings.nowText` — their declarations as text;
* `BoundQuery.Settings.importNodes`, `BoundQuery.Settings.nowNode` — their declarations in a
  syntax tree.
-/

import BoundQuery.Settings.Package
import BoundQuery.Settings.Policy
import BoundQuery.Value.Literal

set_option relaxedAutoImplicit false
set_option autoImplicit false

namespace BoundQuery

/-- The settings of a query. -/
structure Settings where
  /-- Which values are bound. -/
  policy : Policy
  /-- The instant that stands for the present, if one is fixed. -/
  now : Option Instant
  /-- The packages that are imported, the first one first. -/
  imports : List Package
deriving DecidableEq

namespace Settings

/-- The settings with a policy and nothing else. -/
def ofPolicy (p : Policy) : Settings := ⟨p, none, []⟩

/-- The settings of a query for which nothing is said. -/
def standard : Settings := ofPolicy .all

/-- Fixes the present, which can be done once and only to an instant that has a literal. -/
def fixNow (s : Settings) (t : Instant) : Except Error Settings :=
  if s.now.isSome then .error (.argument "now" .alreadyFixed)
  else match t.checked with
    | .ok t => .ok { s with now := some t }
    | .error e => .error (e.renamed "now")

/-- Imports a package, unless it is imported already. -/
def addImport (s : Settings) (p : Package) : Settings :=
  if p ∈ s.imports then s else { s with imports := s.imports ++ [p] }

/-- Imports packages one after the other. -/
def addImports (s : Settings) (ps : List Package) : Settings := ps.foldl addImport s

/-! ### Declarations -/

/-- The imports, a line for each, and an empty line; `none` without any. -/
def importsText (s : Settings) : Option (List Char) :=
  if s.imports.isEmpty then none
  else some ((s.imports.flatMap fun p => p.importText ++ ['\n']) ++ ['\n'])

/-- The imports in a syntax tree. -/
def importNodes (s : Settings) : List Import := s.imports.map Package.importNode

/-- The option that fixes the present, and an empty line. -/
def nowText (s : Settings) : Option (List Char) :=
  s.now.map fun t => "option now = () => ".toList ++ t.text ++ ['\n', '\n']

/-- The option that fixes the present in a syntax tree: a function without parameters. -/
def nowNode (s : Settings) : Option Statement :=
  s.now.map fun t => .setting "now" (.function [] (Value.instant t).toExpr)

end Settings

end BoundQuery
