/-
**Stored trees are read back.**

A tree is stored with every field under its name and the name of the form beside them; what is not
there is left out.  Reading looks every field up again, so that a tree comes back as it was, however
deep it is.  Only a number that is infinite or no number is lost: it has no text in JSON and is
written `null`.  No request has such a number in its tree, since the expression of a value has none.

Main definitions:

* `BoundQuery.Json.spelled` — a value as its text spells it;
* `BoundQuery.Expr.Finite` — every number with a point in an expression is finite; the same for
  statements, imports, files and requests.

Main results:

* `BoundQuery.Json.text_spelled` — a value has the text of what it spells;
* `BoundQuery.Expr.readWithin_toJson`, `BoundQuery.Expr.read_toJson` — a stored expression is read
  back by a reader that goes deep enough, and by the reader of expressions;
* `BoundQuery.Expr.spelled_toJson` — the text of a stored expression with finite numbers spells all
  of it;
* `BoundQuery.Session.finite_request` — the numbers in a request are finite;
* `BoundQuery.stored_reads_back` — **what is stored is read back**.
-/

import BoundQuery.Pipeline.Query
import BoundQuery.Proofs.Tree.Literals
import Mathlib.Data.List.Nodup

set_option relaxedAutoImplicit false
set_option autoImplicit false

namespace BoundQuery

/-! ### What a text spells -/

namespace Json

mutual

/-- A value as its text spells it: a number that is infinite or no number is spelled `null`. -/
def spelled : Json → Json
  | float x => if x.isFinite then float x else null
  | array js => array (spelledItems js)
  | object fs => object (spelledFields fs)
  | j => j

/-- Items as their texts spell them. -/
def spelledItems : List Json → List Json
  | [] => []
  | j :: js => j.spelled :: spelledItems js

/-- Fields as their texts spell them. -/
def spelledFields : List (String × Json) → List (String × Json)
  | [] => []
  | (name, j) :: fs => (name, j.spelled) :: spelledFields fs

end

mutual

/-- **The text of a value is that of what it spells.** -/
theorem text_spelled : ∀ j : Json, j.spelled.text = j.text
  | null | bool _ | int _ | string _ => rfl
  | float x => by cases x <;> rfl
  | array [] => rfl
  | array (j :: js) => by
      rw [spelled, spelledItems, text, text, text_spelled j, itemsText_spelledItems js]
  | object [] => rfl
  | object ((name, j) :: fs) => by
      rw [spelled, spelledFields, text, text, text_spelled j, fieldsText_spelledFields fs]

theorem itemsText_spelledItems : ∀ js : List Json, itemsText (spelledItems js) = itemsText js
  | [] => rfl
  | j :: js => by
      rw [spelledItems, itemsText, itemsText, text_spelled j, itemsText_spelledItems js]

theorem fieldsText_spelledFields : ∀ fs : List (String × Json),
    fieldsText (spelledFields fs) = fieldsText fs
  | [] => rfl
  | (name, j) :: fs => by
      rw [spelledFields, fieldsText, fieldsText, text_spelled j, fieldsText_spelledFields fs]

end

theorem spelledItems_map {α : Type} {f : α → Json} {as : List α}
    (h : ∀ a ∈ as, (f a).spelled = f a) : spelledItems (as.map f) = as.map f := by
  induction as with
  | nil => rfl
  | cons a as ih =>
      obtain ⟨ha, has⟩ := List.forall_mem_cons.1 h
      rw [List.map_cons, spelledItems, ha, ih has]

/-! ### Reading fields -/

variable {α β : Type} {read : Json → Option α} {readSecond : Json → Option β}
  {fs : List (String × Json)} {j k : Json}

theorem occurrences_le_one (h : (fs.map Prod.fst).Nodup) (name : String) :
    occurrences name fs ≤ 1 := by
  have hcount := List.nodup_iff_count_le_one.1 h name
  rw [List.count, List.countP_map, List.countP_eq_length_filter] at hcount
  exact hcount

/-- The fields of an object whose names are different are looked up. -/
theorem fields?_object (h : (fs.map Prod.fst).Nodup) (names : List String) :
    (object fs).fields? names = some (names.map fun name => fs.lookup name) := by
  rw [fields?, if_pos]
  exact List.all_eq_true.2 fun name _ => decide_eq_true (occurrences_le_one h name)

theorem oneField_object (name : String) (j : Json) :
    (object [(name, j)]).oneField name read = read j := by
  have hnodup : ([(name, j)].map Prod.fst).Nodup := List.nodup_singleton name
  rw [oneField, fields?_object hnodup, List.map_singleton, List.lookup_cons_self]

/-- Two fields of an object are each read. -/
theorem twoFields_object {first second : String} {a : α} {b : β} (h : (fs.map Prod.fst).Nodup)
    (hfirst : fs.lookup first = some j) (hsecond : fs.lookup second = some k)
    (hj : read j = some a) (hk : readSecond k = some b) :
    (object fs).twoFields first second read readSecond = some (a, b) := by
  simp only [twoFields, fields?_object h, List.map_cons, List.map_nil, hfirst, hsecond, hj, hk]
  rfl

theorem each_map {f : α → Json} {as : List α} (h : ∀ a ∈ as, read (f a) = some a) :
    (array (as.map f)).each read = some as := by
  have hread : ∀ a ∈ as, (read ∘ f) a = some (id a) := h
  rw [each, items?]
  exact List.mapM_map.trans ((mapM_eq_some_map hread).trans (congrArg some (List.map_id as)))

theorem int64?_toInt (n : Int64) : int64? (.int n.toInt) = some n := by
  have hle := n.le_toInt
  have hlt := n.toInt_lt
  rw [int64?, if_pos ⟨by omega, by omega⟩, Int64.ofInt_toInt]

theorem uint64?_natCast {n : Nat} (h : n < UInt64.size) :
    uint64? (.int n) = some (UInt64.ofNat n) := by
  unfold UInt64.size at h
  rw [uint64?, if_pos ⟨by omega, by omega⟩, Int.toNat_natCast]

theorem uint64?_toNat (n : UInt64) : uint64? (.int n.toNat) = some n :=
  (uint64?_natCast n.toNat_lt_size).trans (congrArg some UInt64.ofNat_toNat)

end Json

open Json

/-! ### Nodes -/

section Nodes

variable {kind : String} {fields : List (String × Json)}

theorem depth_nodeJson : (nodeJson kind fields).depth = fieldsDepth fields + 1 := by
  simp [nodeJson, depth, fieldsDepth]

theorem spelled_nodeJson :
    (nodeJson kind fields).spelled = nodeJson kind (spelledFields fields) := rfl

/-- A node is one of its kind, with the other fields as its content. -/
theorem tagged?_nodeJson {numbered : Bool} {kinds : List String} (hkind : kind ∈ kinds)
    (hfields : "type" ∉ fields.map Prod.fst) :
    (nodeJson kind fields).tagged? numbered kinds = some (kind, .object fields) := by
  have hne : ∀ f ∈ fields, f.1 ≠ "type" := fun f hf heq =>
    hfields (List.mem_map.2 ⟨f, hf, heq⟩)
  have htags : fields.filter (fun f => f.1 = "type") = [] :=
    List.filter_eq_nil_iff.2 fun f hf => by simpa using hne f hf
  have hcontent : fields.filter (fun f => f.1 ≠ "type") = fields :=
    List.filter_eq_self.2 fun f hf => by simpa using hne f hf
  rw [nodeJson, tagged?, List.filter_cons_of_pos (by simp), List.filter_cons_of_neg (by simp),
    htags, hcontent]
  simp [variant?, hkind]

end Nodes

/-! ### Expressions -/

namespace Expr

variable {fuel : Nat} {inner : Bool}

/-- One more expression is read from a node of its form. -/
theorem readWithin_nodeJson {kind : String} {fields : List (String × Json)} (hkind : kind ∈ kinds)
    (hfields : "type" ∉ fields.map Prod.fst) :
    readWithin (fuel + 1) inner (nodeJson kind fields) =
      ofContent (readWithin fuel true) kind (.object fields) := by
  rw [readWithin, tagged?_nodeJson hkind hfields]
  rfl

theorem partOfJson_partToJson (part : Int64 × String) :
    partOfJson (partToJson part) = some part :=
  twoFields_object (by simp) rfl rfl (int64?_toInt part.1) rfl

/-- A property is read back if its parts are. -/
theorem propertyWith_node {read : Json → Option Expr} {k v : Expr} (hk : read k.toJson = some k)
    (hv : read v.toJson = some v) :
    propertyWith read (nodeJson "Property" [("key", k.toJson), ("value", v.toJson)]) =
      some (k, v) :=
  twoFields_object (by simp) rfl rfl hk hv

mutual

/-- **A stored expression is read back by a reader that goes deep enough**, inside another node or
by itself. -/
theorem readWithin_toJson : ∀ (e : Expr) (fuel : Nat) (inner : Bool), e.toJson.depth < fuel →
    readWithin fuel inner e.toJson = some e
  | _, 0, _, h => absurd h (Nat.not_lt_zero _)
  | boolean _, _ + 1, _, _ | integer _, _ + 1, _, _ | unsigned _, _ + 1, _, _
  | float _, _ + 1, _, _ | text _, _ + 1, _, _ | instant _, _ + 1, _, _
  | pattern _, _ + 1, _, _ | identifier _, _ + 1, _, _ => by
      rw [toJson, readWithin_nodeJson (by decide) (by simp), ofContent, oneField_object]
      rfl
  | duration parts, fuel + 1, inner, _ => by
      rw [toJson, readWithin_nodeJson (by decide) (by simp), ofContent, oneField_object,
        each_map fun part _ => partOfJson_partToJson part]
      rfl
  | member o p, fuel + 1, inner, h => by
      rw [toJson, depth_nodeJson, fieldsDepth, fieldsDepth, fieldsDepth] at h
      have ho := readWithin_toJson o fuel true (by omega)
      have hp := readWithin_toJson p fuel true (by omega)
      rw [toJson, readWithin_nodeJson (by decide) (by simp), ofContent,
        twoFields_object (by simp) rfl rfl ho hp]
      rfl
  | record ps, fuel + 1, inner, h => by
      rw [toJson, depth_nodeJson, fieldsDepth, fieldsDepth, depth] at h
      have hps := mapM_propertiesToJson ps fuel (by omega)
      rw [toJson, readWithin_nodeJson (by decide) (by simp), ofContent, oneField_object, each,
        items?, Option.bind_eq_bind, Option.bind_some, hps]
      rfl
  | apply f es, fuel + 1, inner, h => by
      rw [toJson, depth_nodeJson, fieldsDepth, fieldsDepth, fieldsDepth, depth] at h
      have hf := readWithin_toJson f fuel true (by omega)
      have hes := mapM_allToJson es fuel (by omega)
      rw [toJson, readWithin_nodeJson (by decide) (by simp), ofContent,
        twoFields_object (by simp) rfl rfl hf hes]
      rfl
  | unary op e, fuel + 1, inner, h => by
      rw [toJson, depth_nodeJson, fieldsDepth, fieldsDepth, fieldsDepth] at h
      have hop : Json.string? (.string op) = some op := rfl
      have he := readWithin_toJson e fuel true (by omega)
      rw [toJson, readWithin_nodeJson (by decide) (by simp), ofContent,
        twoFields_object (by simp) rfl rfl hop he]
      rfl
  | function ps e, fuel + 1, inner, h => by
      rw [toJson, depth_nodeJson, fieldsDepth, fieldsDepth, fieldsDepth, depth] at h
      have hps := mapM_propertiesToJson ps fuel (by omega)
      have he := readWithin_toJson e fuel true (by omega)
      rw [toJson, readWithin_nodeJson (by decide) (by simp), ofContent,
        twoFields_object (by simp) rfl rfl hps he]
      rfl

/-- Stored expressions are read back one after the other. -/
theorem mapM_allToJson : ∀ (es : List Expr) (fuel : Nat), itemsDepth (allToJson es) < fuel →
    (allToJson es).mapM (readWithin fuel true) = some es
  | [], _, _ => rfl
  | e :: es, fuel, h => by
      rw [allToJson, itemsDepth] at h
      have he := readWithin_toJson e fuel true (by omega)
      have hes := mapM_allToJson es fuel (by omega)
      rw [allToJson, List.mapM_cons, he, hes]
      rfl

/-- Stored properties are read back one after the other. -/
theorem mapM_propertiesToJson : ∀ (ps : List (Expr × Expr)) (fuel : Nat),
    itemsDepth (propertiesToJson ps) < fuel →
      (propertiesToJson ps).mapM (propertyWith (readWithin fuel true)) = some ps
  | [], _, _ => rfl
  | (k, v) :: ps, fuel, h => by
      rw [propertiesToJson, itemsDepth, depth_nodeJson, fieldsDepth, fieldsDepth, fieldsDepth] at h
      have hk := readWithin_toJson k fuel true (by omega)
      have hv := readWithin_toJson v fuel true (by omega)
      have hps := mapM_propertiesToJson ps fuel (by omega)
      rw [propertiesToJson, List.mapM_cons, propertyWith_node hk hv, hps]
      rfl

end

/-- **A stored expression is read back**, inside another node or by itself. -/
theorem read_toJson (inner : Bool) (e : Expr) : read inner e.toJson = some e :=
  readWithin_toJson e _ inner (Nat.lt_succ_self _)

/-- An expression is stored as an object. -/
theorem exists_object (e : Expr) : ∃ fs, e.toJson = .object fs := by
  cases e <;> exact ⟨_, rfl⟩

end Expr

/-! ### Statements, imports, files and requests -/

theorem Statement.ofJson_toJson (s : Statement) : ofJson s.toJson = some s := by
  cases s with
  | option id init =>
      have hassignment : (nodeJson "VariableAssignment"
          [("id", id.toJson), ("init", init.toJson)]).twoFields "id" "init" (Expr.read true)
            (Expr.read true) = some (id, init) :=
        twoFields_object (by simp) rfl rfl (id.read_toJson true) (init.read_toJson true)
      rw [ofJson, toJson, tagged?_nodeJson (by decide) (by simp), Option.bind_eq_bind,
        Option.bind_some]
      simp only [if_true, oneField_object, hassignment]
      rfl
  | expression e =>
      rw [ofJson, toJson, tagged?_nodeJson (by decide) (by simp), Option.bind_eq_bind,
        Option.bind_some]
      simp only [oneField_object, e.read_toJson true]
      rfl

/-- A value that is there and is not `null` is read. -/
theorem optional?_object {α : Type} {read : Json → Option α} {j : Json} {a : α}
    (hobject : ∃ fs, j = .object fs) (hj : read j = some a) :
    optional? read (some j) = some (some a) := by
  obtain ⟨fs, rfl⟩ := hobject
  rw [optional?, hj]
  · rfl
  · nofun

theorem Import.ofJson_toJson (i : Import) : ofJson i.toJson = some i := by
  obtain ⟨rename, path⟩ := i
  have hpath : Expr.ofJson path.toJson = some path := path.read_toJson false
  cases rename with
  | none =>
      have hfields : (toJson ⟨none, path⟩).fields? ["as", "path"] =
          some [none, some path.toJson] := fields?_object (by simp) _
      simp only [ofJson, hfields, hpath]
      rfl
  | some e =>
      have hfields : (toJson ⟨some e, path⟩).fields? ["as", "path"] =
          some [some e.toJson, some path.toJson] := fields?_object (by simp) _
      have hrename : optional? Expr.ofJson (some e.toJson) = some (some e) :=
        optional?_object e.exists_object (e.read_toJson false)
      simp only [ofJson, hfields, hpath, hrename]
      rfl

theorem File.ofJson_toJson (f : File) : ofJson f.toJson = some f := by
  obtain ⟨name, imports, body⟩ := f
  have himports : (Json.array (imports.map Import.toJson)).each Import.ofJson = some imports :=
    each_map fun i _ => i.ofJson_toJson
  have hbody : (Json.array (body.map Statement.toJson)).each Statement.ofJson = some body :=
    each_map fun s _ => s.ofJson_toJson
  cases name with
  | none =>
      have hfields : (toJson ⟨none, imports, body⟩).fields? ["name", "imports", "body"] =
          some [none, some (.array (imports.map Import.toJson)),
            some (.array (body.map Statement.toJson))] := fields?_object (by simp) _
      simp only [ofJson, hfields, himports, hbody]
      rfl
  | some s =>
      have hfields : (toJson ⟨some s, imports, body⟩).fields? ["name", "imports", "body"] =
          some [some (.string s), some (.array (imports.map Import.toJson)),
            some (.array (body.map Statement.toJson))] := fields?_object (by simp) _
      simp only [ofJson, hfields, himports, hbody]
      rfl

theorem File.exists_object (f : File) : ∃ fs, f.toJson = .object fs := ⟨_, rfl⟩

theorem Request.ofJson_toJson (r : Request) : ofJson r.toJson = some r := by
  obtain ⟨language, query, declarations⟩ := r
  cases declarations with
  | none =>
      have hfields : (toJson ⟨language, query, none⟩).fields? ["type", "query", "extern"] =
          some [some (.string language), some (.string query), none] := fields?_object (by simp) _
      simp only [ofJson, hfields]
      rfl
  | some f =>
      have hfields : (toJson ⟨language, query, some f⟩).fields? ["type", "query", "extern"] =
          some [some (.string language), some (.string query), some f.toJson] :=
        fields?_object (by simp) _
      have hdeclarations := optional?_object f.exists_object f.ofJson_toJson
      simp only [ofJson, hfields, hdeclarations]
      rfl

/-! ### Finite numbers -/

namespace Expr

mutual

/-- Every number with a point in an expression is finite. -/
def Finite : Expr → Prop
  | float x => x.isFinite = true
  | member o p => o.Finite ∧ p.Finite
  | record properties => FieldsFinite properties
  | apply callee arguments => callee.Finite ∧ AllFinite arguments
  | unary _ e => e.Finite
  | function parameters body => FieldsFinite parameters ∧ body.Finite
  | boolean _ => True
  | integer _ => True
  | unsigned _ => True
  | text _ => True
  | instant _ => True
  | duration _ => True
  | pattern _ => True
  | identifier _ => True

/-- Every number in a list of expressions is finite. -/
def AllFinite : List Expr → Prop
  | [] => True
  | e :: es => e.Finite ∧ AllFinite es

/-- Every number in the names and the values of fields is finite. -/
def FieldsFinite : List (Expr × Expr) → Prop
  | [] => True
  | (name, e) :: fields => name.Finite ∧ e.Finite ∧ FieldsFinite fields

end

theorem spelled_partToJson (part : Int64 × String) : (partToJson part).spelled = partToJson part :=
  rfl

mutual

/-- **The text of a stored expression spells all of it**, if its numbers are finite. -/
theorem spelled_toJson : ∀ e : Expr, e.Finite → e.toJson.spelled = e.toJson
  | boolean _, _ | integer _, _ | unsigned _, _ | text _, _ | instant _, _ | pattern _, _
  | identifier _, _ => rfl
  | float x, h => by
      have hx : (Json.float x).spelled = .float x := if_pos h
      rw [toJson, spelled_nodeJson, spelledFields, spelledFields, hx]
  | duration parts, _ => by
      rw [toJson, spelled_nodeJson, spelledFields, spelledFields, spelled,
        spelledItems_map fun part _ => spelled_partToJson part]
  | member o p, h => by
      rw [toJson, spelled_nodeJson, spelledFields, spelledFields, spelledFields,
        spelled_toJson o h.1, spelled_toJson p h.2]
  | record ps, h => by
      rw [toJson, spelled_nodeJson, spelledFields, spelledFields, spelled,
        spelledItems_propertiesToJson ps h]
  | apply f es, h => by
      rw [toJson, spelled_nodeJson, spelledFields, spelledFields, spelledFields, spelled,
        spelled_toJson f h.1, spelledItems_allToJson es h.2]
  | unary op e, h => by
      rw [toJson, spelled_nodeJson, spelledFields, spelledFields, spelledFields,
        spelled_toJson e h]
      rfl
  | function ps e, h => by
      rw [toJson, spelled_nodeJson, spelledFields, spelledFields, spelledFields, spelled,
        spelledItems_propertiesToJson ps h.1, spelled_toJson e h.2]

theorem spelledItems_allToJson : ∀ es : List Expr, AllFinite es →
    spelledItems (allToJson es) = allToJson es
  | [], _ => rfl
  | e :: es, h => by
      rw [allToJson, spelledItems, spelled_toJson e h.1, spelledItems_allToJson es h.2]

theorem spelledItems_propertiesToJson : ∀ ps : List (Expr × Expr), FieldsFinite ps →
    spelledItems (propertiesToJson ps) = propertiesToJson ps
  | [], _ => rfl
  | (k, v) :: ps, h => by
      rw [propertiesToJson, spelledItems, spelled_nodeJson, spelledFields, spelledFields,
        spelledFields, spelled_toJson k h.1, spelled_toJson v h.2.1,
        spelledItems_propertiesToJson ps h.2.2]

end

mutual

/-- A plain expression has finite numbers only. -/
theorem Plain.finite : ∀ {e : Expr}, e.Plain → e.Finite
  | boolean _, _ | integer _, _ | unsigned _, _ | text _, _ | instant _, _ | pattern _, _
  | identifier _, _ | duration _, _ => trivial
  | float _, h => h.1
  | member _ _, h => ⟨Plain.finite h.1, Plain.finite h.2⟩
  | record _, h => FieldsPlain.finite h
  | apply _ _, h => ⟨Plain.finite h.1, AllPlain.finite h.2⟩
  | unary _ e, h => Plain.finite (e := e) h.2
  | function _ _, h => ⟨FieldsPlain.finite h.1, Plain.finite h.2⟩

theorem AllPlain.finite : ∀ {es : List Expr}, AllPlain es → AllFinite es
  | [], _ => trivial
  | _ :: _, h => ⟨Plain.finite h.1, AllPlain.finite h.2⟩

theorem FieldsPlain.finite : ∀ {ps : List (Expr × Expr)}, FieldsPlain ps → FieldsFinite ps
  | [], _ => trivial
  | (_, _) :: _, h => ⟨Plain.finite h.1, Plain.finite h.2.1, FieldsPlain.finite h.2.2⟩

end

end Expr

/-- Every number with a point in a statement is finite. -/
def Statement.Finite : Statement → Prop
  | option id init => id.Finite ∧ init.Finite
  | expression e => e.Finite

/-- Every number with a point in an import is finite. -/
structure Import.Finite (i : Import) : Prop where
  rename : ∀ e ∈ i.rename, e.Finite
  path : i.path.Finite

/-- Every number with a point in a file is finite. -/
structure File.Finite (f : File) : Prop where
  imports : ∀ i ∈ f.imports, i.Finite
  body : ∀ s ∈ f.body, s.Finite

/-- Every number with a point in a request is finite. -/
def Request.Finite (r : Request) : Prop := ∀ f ∈ r.declarations, f.Finite

theorem Statement.spelled_toJson {s : Statement} (h : s.Finite) : s.toJson.spelled = s.toJson := by
  cases s with
  | option id init =>
      rw [toJson, spelled_nodeJson, spelledFields, spelledFields, spelled_nodeJson, spelledFields,
        spelledFields, spelledFields, id.spelled_toJson h.1, init.spelled_toJson h.2]
  | expression e =>
      rw [toJson, spelled_nodeJson, spelledFields, spelledFields, e.spelled_toJson h]

theorem Import.spelled_toJson {i : Import} (h : i.Finite) : i.toJson.spelled = i.toJson := by
  obtain ⟨rename, path⟩ := i
  have hpath := path.spelled_toJson h.path
  cases rename with
  | none =>
      change nodeJson _ [("path", path.toJson.spelled)] = _
      rw [hpath]
      rfl
  | some e =>
      change nodeJson _ [("as", e.toJson.spelled), ("path", path.toJson.spelled)] = _
      rw [hpath, e.spelled_toJson (h.rename e rfl)]
      rfl

theorem File.spelled_toJson {f : File} (h : f.Finite) : f.toJson.spelled = f.toJson := by
  obtain ⟨name, imports, body⟩ := f
  have himports : spelledItems (imports.map Import.toJson) = imports.map Import.toJson :=
    spelledItems_map fun i hi => Import.spelled_toJson (h.imports i hi)
  have hbody : spelledItems (body.map Statement.toJson) = body.map Statement.toJson :=
    spelledItems_map fun s hs => Statement.spelled_toJson (h.body s hs)
  have hlists : spelledFields [("imports", .array (imports.map Import.toJson)),
        ("body", .array (body.map Statement.toJson))] =
      [("imports", .array (imports.map Import.toJson)),
        ("body", .array (body.map Statement.toJson))] := by
    rw [spelledFields, spelledFields, spelledFields, spelled, spelled, himports, hbody]
  cases name with
  | none => exact congrArg (nodeJson "File") hlists
  | some s => exact congrArg (fun fs => nodeJson "File" (("name", .string s) :: fs)) hlists

theorem Request.spelled_toJson {r : Request} (h : r.Finite) : r.toJson.spelled = r.toJson := by
  obtain ⟨language, query, declarations⟩ := r
  cases declarations with
  | none => rfl
  | some f =>
      change Json.object [("type", .string language), ("query", .string query),
        ("extern", f.toJson.spelled)] = _
      rw [File.spelled_toJson (h f rfl)]
      rfl

/-! ### Requests of sessions -/

namespace Session

theorem fieldsFinite_entries (entries : List (String × Value)) :
    Expr.FieldsFinite ((entries.map fun e => (e.1, e.2.toExpr)).map fun f =>
      (.identifier f.1, f.2)) := by
  induction entries with
  | nil => trivial
  | cons e entries ih => exact ⟨trivial, e.2.plain_toExpr.finite, ih⟩

/-- **The numbers in a request are finite**: no value has another one in its expression. -/
theorem finite_request (s : Session) : s.request.Finite := by
  intro f hf
  rw [request] at hf
  split at hf
  · cases hf
  · cases hf
    refine ⟨nofun, fun st hst => ?_⟩
    rcases List.mem_append.1 hst with hst | hst
    · rw [Table.node] at hst
      split at hst
      · cases hst
      · rw [List.mem_singleton.1 hst]
        exact ⟨trivial, fieldsFinite_entries s.table.entries⟩
    · cases hnow : s.settings.now with
      | none =>
          rw [Settings.nowNode, hnow] at hst
          cases hst
      | some t =>
          rw [Settings.nowNode, hnow] at hst
          rw [List.mem_singleton.1 hst]
          exact ⟨trivial, trivial, trivial⟩

end Session

/-! ### What is stored is read back -/

/-- **What is stored is read back.**  An expression, a statement, a file and a request are read
back from what the text of their stored form spells, if the numbers with a point in them are
finite; and so they are in the request of every session, whatever was written and bound. -/
theorem stored_reads_back :
    (∀ e : Expr, e.Finite → Expr.ofJson e.toJson.spelled = some e) ∧
    (∀ s : Statement, s.Finite → Statement.ofJson s.toJson.spelled = some s) ∧
    (∀ f : File, f.Finite → File.ofJson f.toJson.spelled = some f) ∧
    (∀ r : Request, r.Finite → Request.ofJson r.toJson.spelled = some r) ∧
    ∀ s : Session, s.request.Finite ∧
      Request.ofJson s.request.toJson.spelled = some s.request := by
  have hrequest : ∀ r : Request, r.Finite → Request.ofJson r.toJson.spelled = some r := by
    intro r hr
    rw [Request.spelled_toJson hr, r.ofJson_toJson]
  refine ⟨?_, ?_, ?_, hrequest, fun s => ⟨s.finite_request, hrequest _ s.finite_request⟩⟩
  · intro e he
    rw [e.spelled_toJson he]
    exact e.read_toJson false
  · intro s hs
    rw [Statement.spelled_toJson hs, s.ofJson_toJson]
  · intro f hf
    rw [File.spelled_toJson hf, f.ofJson_toJson]

/-- A file under a name, with an import under another one, an amount below zero, a call without
arguments and a function without parameters is read back as part of a request, and so is the
request of a session with a number that is none. -/
theorem stored_reads_back_file : ∃ (f : File) (r : Request) (s : Session),
    f = ⟨some "a", [⟨some (.identifier "rec"), .text "experimental/record"⟩, .ofPath "date"],
      [.setting "now" (.function [] (.apply (.member (.identifier "x") (.text "y")) [])),
        .expression (.record [(.identifier "d", .duration [(-1, "mo"), (2, "h")]),
          (.text "f", .negative (.float (.finite false .zero)))])]⟩ ∧
    r = ⟨"flux", "", some f⟩ ∧ f.Finite ∧ File.ofJson f.toJson.spelled = some f ∧
    Request.ofJson r.toJson.spelled = some r ∧
    s = ⟨[], .standard, ⟨.all, [("x_0", .float .nan)]⟩⟩ ∧ s.request.declarations.isSome ∧
    Request.ofJson s.request.toJson.spelled = some s.request := by
  obtain ⟨-, -, hfile, hrequest, hsession⟩ := stored_reads_back
  have hf : File.Finite ⟨some "a",
      [⟨some (.identifier "rec"), .text "experimental/record"⟩, .ofPath "date"],
      [.setting "now" (.function [] (.apply (.member (.identifier "x") (.text "y")) [])),
        .expression (.record [(.identifier "d", .duration [(-1, "mo"), (2, "h")]),
          (.text "f", .negative (.float (.finite false .zero)))])]⟩ := by
    refine ⟨?_, ?_⟩
    · intro i hi
      rcases List.mem_pair.1 hi with rfl | rfl
      · exact ⟨fun e he => by cases he; trivial, trivial⟩
      · exact ⟨nofun, trivial⟩
    · intro s hs
      rcases List.mem_pair.1 hs with rfl | rfl
      · exact ⟨trivial, trivial, ⟨trivial, trivial⟩, trivial⟩
      · exact ⟨trivial, trivial, trivial, rfl, trivial⟩
  refine ⟨_, _, _, rfl, rfl, hf, hfile _ hf, hrequest _ ?_, rfl, rfl, (hsession _).2⟩
  intro f hmem
  cases hmem
  exact hf

/-- A number that is none has no text, so that its expression is not read back. -/
example : Expr.ofJson (Expr.toJson (.float .nan)).spelled = none := by rfl

end BoundQuery
