/-
**Finished queries.**

A finished query is a body together with the declarations that it needs: the imports, the table of
bound values and the fixed present.  It can be written as one text, or as a request that carries
the declarations apart, as a syntax tree; only the imports stay in the text, since they belong to
the file that they stand in.

Main definitions:

* `BoundQuery.Session.queryText` — the whole query as one text;
* `BoundQuery.Session.file` — the declarations as a syntax tree;
* `BoundQuery.Request`, `BoundQuery.Session.request` — a request for a query;
* `BoundQuery.Request.toJson`, `BoundQuery.Request.ofJson` — the stored form of a request.
-/

import BoundQuery.Binding.Plan
import BoundQuery.Tree.Stored

set_option relaxedAutoImplicit false
set_option autoImplicit false

namespace BoundQuery

namespace Session

/-- The imports, the table and the present, each if there is any, and then the body. -/
def queryText (s : Session) : List Char :=
  s.settings.importsText.getD [] ++ s.table.text.getD [] ++ s.settings.nowText.getD [] ++ s.text

/-- The declarations: the imports, the table and the present, each if there is any. -/
def file (s : Session) : File :=
  ⟨none, s.settings.importNodes, s.table.node.toList ++ s.settings.nowNode.toList⟩

end Session

/-- A request for a query. -/
structure Request where
  /-- The name of the query language. -/
  language : String
  query : String
  /-- The declarations that do not stand in the query. -/
  declarations : Option File
deriving BEq

/-- The request for a query. -/
def Session.request (s : Session) : Request where
  language := "flux"
  query := String.ofList (s.settings.importsText.getD [] ++ s.text)
  declarations := if s.file.body.isEmpty then none else some { s.file with imports := [] }

namespace Request

/-- The stored form of a request. -/
def toJson (r : Request) : Json :=
  .object ([("type", .string r.language), ("query", .string r.query)] ++
    (r.declarations.map fun f => ("extern", f.toJson)).toList)

/-- The request that a value stores. -/
def ofJson (j : Json) : Option Request :=
  match j.fields? ["type", "query", "extern"] with
  | some [some language, some query, declarations] => do
      return ⟨← language.string?, ← query.string?, ← Json.optional? File.ofJson declarations⟩
  | _ => none

end Request

end BoundQuery
