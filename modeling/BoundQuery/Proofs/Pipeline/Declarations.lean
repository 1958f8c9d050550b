/-
**Declarations read back alike from text and from trees.**

What a query needs is written three times: as the text before its body, as a file of a syntax tree,
and as the file that goes with a request, whose query only keeps the imports.  The text is made of
lines.  An import, an entry of the table and the present have a line each, since no name and no
literal has a line break, and the name of an entry ends at the first colon of its line, since no
identifier has one.  So the lines can be read without knowing what was written, each by the scanner
of literals, and what they declare is what the expressions of the tree evaluate to.

Main definitions:

* `BoundQuery.blockLines?` — the lines of a text that ends in an empty line;
* `BoundQuery.Declared`, `BoundQuery.Session.declared` — what is declared, and what a session
  declares;
* `BoundQuery.Declared.ofTexts?`, `BoundQuery.Declared.ofFile?` — what texts and what a file of a
  syntax tree declare.

Main results:

* `BoundQuery.blockLines?_flatMap` — lines that are written are read;
* `BoundQuery.Session.ofTexts?_eq`, `BoundQuery.Session.ofFile?_eq` — what a session declares reads
  back from its text and from its tree;
* `BoundQuery.Session.declared_agree` — all ways to hand over a query declare the same.
-/

import BoundQuery.Pipeline.Query
import BoundQuery.Proofs.Pipeline.Invariant
import BoundQuery.Proofs.Tree.Evaluation
import BoundQuery.Proofs.Value.Characters
import Mathlib.Data.List.Basic

set_option relaxedAutoImplicit false
set_option autoImplicit false

namespace BoundQuery

/-! ### Lines -/

/-- The lines of a block: a text that is empty or ends in an empty line. -/
def blockLines? (s : List Char) : Option (List (List Char)) :=
  match (s.splitOn '\n').reverse with
  | [[]] => some []
  | [] :: [] :: ls => some ls.reverse
  | _ => none

theorem splitOn_flatMap_newline {ls : List (List Char)} (h : ∀ l ∈ ls, '\n' ∉ l) (s : List Char) :
    (ls.flatMap (· ++ ['\n']) ++ s).splitOn '\n' = ls ++ s.splitOn '\n' := by
  induction ls with
  | nil => rfl
  | cons l ls ih =>
      obtain ⟨hl, hls⟩ := List.forall_mem_cons.1 h
      have hfirst : (l :: ls).flatMap (· ++ ['\n']) ++ s =
          l ++ '\n' :: (ls.flatMap (· ++ ['\n']) ++ s) := by simp
      rw [hfirst, List.splitOn_append_cons_self_of_not_mem hl, ih hls]
      rfl

/-- **Lines that are written are read.** -/
theorem blockLines?_flatMap {ls : List (List Char)} (h : ∀ l ∈ ls, '\n' ∉ l) :
    blockLines? (ls.flatMap (· ++ ['\n']) ++ ['\n']) = some ls := by
  have hend : ['\n'].splitOn '\n' = [[], []] := rfl
  rw [blockLines?, splitOn_flatMap_newline h, hend, List.reverse_append]
  simp

/-- What stands behind a prefix. -/
theorem isPrefixOf?_append (w s : List Char) : w.isPrefixOf? (w ++ s) = some s := by
  induction w with
  | nil => rfl
  | cons c w ih => simp [List.isPrefixOf?, ih]

/-! ### What is declared -/

/-- What a query declares: the paths of its imports, the entries of its table and its present. -/
structure Declared where
  paths : List String
  entries : List (String × Value)
  now : Option Instant
deriving DecidableEq

/-- What a session declares. -/
def Session.declared (s : Session) : Declared :=
  ⟨s.settings.imports.map Package.path, s.table.entries, s.settings.now⟩

/-! ### Reading texts -/

/-- The path that a line imports. -/
def importedPath? (line : List Char) : Option String := do
  let quoted ← "import ".toList.isPrefixOf? line
  (textOfLiteral (String.ofList quoted)).toOption

/-- A text before its first colon with a blank behind it, and what stands behind these. -/
def splitAtColon? : List Char → Option (List Char × List Char)
  | [] => none
  | ':' :: ' ' :: s => some ([], s)
  | c :: s => (splitAtColon? s).map fun parts => (c :: parts.1, parts.2)

/-- The entry on a line of the table: indented, and with a comma behind the literal. -/
def entryOfLine? (line : List Char) : Option (String × Value) := do
  let (name, rest) ← splitAtColon? (← "  ".toList.isPrefixOf? line)
  if rest.getLast? = some ',' then
    let v ← (Value.ofLiteral (String.ofList rest.dropLast)).toOption
    some (String.ofList name, v)
  else none

/-- The entries on the lines of the table, which stand between its first line and its brace. -/
def entriesOfLines? : List (List Char) → Option (List (String × Value))
  | [] => some []
  | first :: ls =>
      if first = "option params = \x7b".toList ∧ ls.getLast? = some "\x7d".toList then
        ls.dropLast.mapM entryOfLine?
      else none

/-- The instant that a line fixes as the present. -/
def presentOfLine? (line : List Char) : Option Instant := do
  let literal ← "option now = () => ".toList.isPrefixOf? line
  match Value.ofLiteral (String.ofList literal) with
  | .ok (.instant t) => some t
  | _ => none

/-- The present that lines fix, if there is one. -/
def nowOfLines? : List (List Char) → Option (Option Instant)
  | [] => some none
  | [line] => (presentOfLine? line).map some
  | _ => none

/-- What the imports, the table and the present declare, each as a text. -/
def Declared.ofTexts? (imports table now : List Char) : Option Declared := do
  let paths ← (← blockLines? imports).mapM importedPath?
  let entries ← entriesOfLines? (← blockLines? table)
  return ⟨paths, entries, ← nowOfLines? (← blockLines? now)⟩

/-! ### Reading trees -/

/-- The path of an import that does not change the name of the package. -/
def Import.path? (i : Import) : Option String :=
  match i.rename, i.path.value? with
  | none, some (.text path) => some path
  | _, _ => none

/-- The entry that a field of a record is: its name and the value of its expression. -/
def Expr.entry? : Expr × Expr → Option (String × Value)
  | (identifier name, e) => e.value?.map fun v => (name, v)
  | _ => none

/-- The entries that the fields of a record are. -/
def Expr.entries? : Expr → Option (List (String × Value))
  | record fields => fields.mapM entry?
  | _ => none

/-- The value that a function without parameters always has, where it is an instant. -/
def Expr.constantInstant? : Expr → Option Instant
  | function [] body =>
      match body.value? with
      | some (.instant t) => some t
      | _ => none
  | _ => none

/-- What is declared when a statement is carried out: it sets the table or the present. -/
def Declared.carryOut? (d : Declared) : Statement → Option Declared
  | .option (.identifier name) e =>
      if name = tableName then e.entries?.map fun es => { d with entries := es }
      else if name = "now" then e.constantInstant?.map fun t => { d with now := some t }
      else none
  | _ => none

/-- What a file declares when its statements are carried out one after the other. -/
def Declared.ofFile? (f : File) : Option Declared := do
  let paths ← f.imports.mapM Import.path?
  f.body.foldlM carryOut? ⟨paths, [], none⟩

/-! ### Names and literals on their lines -/

theorem splitAtColon?_append {name : List Char} (h : ':' ∉ name) (s : List Char) :
    splitAtColon? (name ++ ':' :: ' ' :: s) = some (name, s) := by
  induction name with
  | nil => rfl
  | cons c name ih =>
      rw [List.mem_cons, not_or] at h
      obtain ⟨hc, hname⟩ := h
      have hskip : splitAtColon? (c :: (name ++ ':' :: ' ' :: s)) =
          (splitAtColon? (name ++ ':' :: ' ' :: s)).map fun parts => (c :: parts.1, parts.2) := by
        rw [splitAtColon?]
        exact fun _ hcolon _ => hc hcolon.symm
      rw [List.cons_append, hskip, ih hname]
      rfl

theorem textOfLiteral_quotedText (s : String) :
    textOfLiteral (String.ofList (quotedText s.toList)) = .ok s := by
  rw [textOfLiteral, String.toList_ofList,
    Scanner.whole_of_ok (Scanner.text_quotedText_append s [])]

/-! ### Imports -/

theorem importedPath?_importText (p : Package) : importedPath? p.importText = some p.path := by
  unfold importedPath? Package.importText
  rw [isPrefixOf?_append, Option.bind_eq_bind, Option.bind_some, textOfLiteral_quotedText]
  rfl

theorem newline_notMem_importText (p : Package) : '\n' ∉ p.importText := by
  unfold Package.importText
  simp [newline_notMem_quotedText]

/-- The imports are a block with a line for each. -/
theorem blockLines?_importsText (s : Settings) :
    blockLines? (s.importsText.getD []) = some (s.imports.map Package.importText) := by
  cases himports : s.imports with
  | nil =>
      rw [Settings.importsText, himports]
      rfl
  | cons p ps =>
      have htext : s.importsText.getD [] =
          ((p :: ps).map Package.importText).flatMap (· ++ ['\n']) ++ ['\n'] := by
        rw [Settings.importsText, himports, List.flatMap_map]
        rfl
      rw [htext]
      refine blockLines?_flatMap fun l hl => ?_
      obtain ⟨q, -, rfl⟩ := List.mem_map.1 hl
      exact newline_notMem_importText q

/-! ### The table -/

namespace Table

/-- The line of an entry. -/
def entryLine (e : String × Value) : List Char :=
  "  ".toList ++ (e.1.toList ++ ':' :: ' ' :: (e.2.literal ++ [',']))

theorem entryText_eq (e : String × Value) : entryText e = entryLine e ++ ['\n'] := by
  simp [entryText, entryLine]

theorem newline_notMem_entryLine {e : String × Value} (h : isIdentifier e.1 = true) :
    '\n' ∉ entryLine e := by
  have hname : '\n' ∉ e.1.toList := notMem_of_isIdentifier h rfl
  simp [entryLine, hname, e.2.newline_notMem_literal]

/-- The line of an entry is read as the entry. -/
theorem entryOfLine?_entryLine {e : String × Value} (hname : isIdentifier e.1 = true)
    (hv : e.2.HasLiteral) (hlegible : e.2.Legible) : entryOfLine? (entryLine e) = some e := by
  have hindent : "  ".toList.isPrefixOf? (entryLine e) =
      some (e.1.toList ++ ':' :: ' ' :: (e.2.literal ++ [','])) := isPrefixOf?_append _ _
  have hsplit := splitAtColon?_append (notMem_of_isIdentifier hname rfl) (e.2.literal ++ [','])
  have hread := Value.ofLiteral_literal hv hlegible
  simp only [entryOfLine?, hindent, Option.bind_eq_bind, Option.bind_some, hsplit,
    List.getLast?_append, List.getLast?_singleton, Option.some_or, if_true, List.dropLast_concat,
    hread, Except.toOption, String.ofList_toList]

/-- The lines between which the entries stand, if there are any, and their own lines. -/
def lines : List (String × Value) → List (List Char)
  | [] => []
  | e :: es => "option params = \x7b".toList :: (e :: es).map entryLine ++ ["\x7d".toList]

theorem lines_cons (e : String × Value) (es : List (String × Value)) : lines (e :: es) =
    "option params = \x7b".toList :: ((e :: es).map entryLine ++ ["\x7d".toList]) := rfl

theorem newline_notMem_lines {es : List (String × Value)}
    (h : ∀ e ∈ es, isIdentifier e.1 = true) : ∀ l ∈ lines es, '\n' ∉ l := by
  intro l hl
  cases es with
  | nil => cases hl
  | cons e es =>
      rw [lines_cons] at hl
      rcases List.mem_cons.1 hl with rfl | hl
      · decide
      rcases List.mem_append.1 hl with hl | hl
      · obtain ⟨f, hf, rfl⟩ := List.mem_map.1 hl
        exact newline_notMem_entryLine (h f hf)
      · rw [List.mem_singleton.1 hl]
        decide

/-- The table is a block of its lines. -/
theorem blockLines?_text {t : Table} (h : t.Sound) :
    blockLines? (t.text.getD []) = some (lines t.entries) := by
  have hbreak : ∀ l ∈ lines t.entries, '\n' ∉ l :=
    newline_notMem_lines fun e he => (h.isIdentifier_of_mem he).1
  rw [← blockLines?_flatMap hbreak]
  cases hentries : t.entries with
  | nil =>
      rw [text, hentries]
      rfl
  | cons e es =>
      have hlines : ((e :: es).map entryLine).flatMap (· ++ ['\n']) =
          (e :: es).flatMap entryText := by
        rw [List.flatMap_map]
        exact List.flatMap_congr fun e _ => (entryText_eq e).symm
      rw [lines_cons, List.flatMap_cons, List.flatMap_append, hlines]
      unfold text tableName
      rw [hentries]
      simp

/-- The lines of a table are read as its entries. -/
theorem entriesOfLines?_lines {es : List (String × Value)}
    (h : ∀ e ∈ es, entryOfLine? (entryLine e) = some e) :
    entriesOfLines? (lines es) = some es := by
  have hread : (es.map entryLine).mapM entryOfLine? = some (es.map id) := by
    rw [List.mapM_map]
    exact mapM_eq_some_map h
  rw [List.map_id] at hread
  cases es with
  | nil => rfl
  | cons e es =>
      rw [lines_cons, entriesOfLines?, List.getLast?_concat, if_pos ⟨rfl, rfl⟩,
        List.dropLast_concat, hread]

end Table

/-! ### The present -/

namespace Settings

/-- The present is a block of one line. -/
theorem blockLines?_nowText (s : Settings) : blockLines? (s.nowText.getD []) =
    some (s.now.toList.map fun t => "option now = () => ".toList ++ t.text) := by
  unfold nowText
  cases s.now with
  | none => rfl
  | some t =>
      have hbreak : ∀ l ∈ ["option now = () => ".toList ++ t.text], '\n' ∉ l := by
        intro l hl
        rw [List.mem_singleton.1 hl, List.mem_append, not_or]
        exact ⟨by decide, t.numeralText_text.notMem rfl⟩
      have h := blockLines?_flatMap hbreak
      rw [List.flatMap_singleton, List.append_assoc] at h
      exact h

theorem presentOfLine?_append {t : Instant} (hrange : t.InRange) (hleap : t.LeapAtMinuteEnd) :
    presentOfLine? ("option now = () => ".toList ++ t.text) = some t := by
  have hread : Value.ofLiteral (String.ofList t.text) = .ok (.instant t) :=
    Value.ofLiteral_literal (v := .instant t) hrange hleap
  unfold presentOfLine?
  rw [isPrefixOf?_append]
  simp only [Option.bind_eq_bind, Option.bind_some, hread]

/-- The line of the present is read as the present. -/
theorem nowOfLines?_line {s : Settings} (hnow : s.NowHasLiteral)
    (hleap : ∀ t ∈ s.now, t.LeapAtMinuteEnd) :
    nowOfLines? (s.now.toList.map fun t => "option now = () => ".toList ++ t.text) =
      some s.now := by
  cases h : s.now with
  | none => rfl
  | some t =>
      rw [Option.toList_some, List.map_singleton, nowOfLines?,
        presentOfLine?_append (hnow t h) (hleap t h)]
      rfl

end Settings

/-! ### Trees -/

theorem path?_importNode (p : Package) : p.importNode.path? = some p.path := rfl

/-- The field of an entry is read as the entry. -/
theorem entry?_field {e : String × Value} (hv : e.2.HasLiteral) (hlegible : e.2.Legible) :
    Expr.entry? (.identifier e.1, e.2.toExpr) = some e := by
  rw [Expr.entry?, Value.value?_toExpr hv hlegible.leapLegible]
  rfl

namespace Declared

/-- The statement of a table sets the entries. -/
theorem foldlM_carryOut?_table {t : Table} (h : t.Sound)
    (hlegible : ∀ e ∈ t.entries, e.2.Legible) (paths : List String) :
    t.node.toList.foldlM carryOut? ⟨paths, [], none⟩ = some ⟨paths, t.entries, none⟩ := by
  cases hentries : t.entries with
  | nil =>
      rw [Table.node, hentries]
      rfl
  | cons e es =>
      have hfields : ((e :: es).map fun e => (Expr.identifier e.1, e.2.toExpr)).mapM Expr.entry? =
          some ((e :: es).map id) := by
        rw [List.mapM_map]
        refine mapM_eq_some_map fun f hf => ?_
        rw [← hentries] at hf
        exact entry?_field (h.hasLiteral f hf) (hlegible f hf)
      rw [List.map_id] at hfields
      have hnode : t.node = some (.setting tableName (.record
          ((e :: es).map fun e => (Expr.identifier e.1, e.2.toExpr)))) := by
        rw [Table.node, hentries, Expr.recordOf, List.map_map]
        rfl
      rw [hnode, Option.toList_some, List.foldlM_cons, Statement.setting, carryOut?, if_pos rfl,
        Expr.entries?, hfields]
      rfl

/-- The statement of a present sets it. -/
theorem foldlM_carryOut?_now {s : Settings} (hnow : s.NowHasLiteral)
    (hleap : ∀ t ∈ s.now, t.LeapAtMinuteEnd) (paths : List String)
    (entries : List (String × Value)) :
    s.nowNode.toList.foldlM carryOut? ⟨paths, entries, none⟩ = some ⟨paths, entries, s.now⟩ := by
  unfold Settings.nowNode
  cases h : s.now with
  | none => rfl
  | some t =>
      have hvalue : (Value.instant t).toExpr.value? = some (.instant t) :=
        Value.value?_toExpr (hnow t h) (Value.Legible.leapLegible (hleap t h))
      have hname : "now" ≠ tableName := by decide
      rw [Option.map_some, Option.toList_some, List.foldlM_cons, Statement.setting, carryOut?,
        if_neg hname, if_pos rfl, Expr.constantInstant?, hvalue]
      rfl

end Declared

/-! ### Sessions -/

namespace Session

variable {s : Session}

/-- What a session declares reads back from the text of its declarations. -/
theorem ofTexts?_eq (hsound : s.Sound) (hnow : s.settings.NowHasLiteral)
    (hvalues : ∀ e ∈ s.table.entries, e.2.Legible)
    (hleap : ∀ t ∈ s.settings.now, t.LeapAtMinuteEnd) :
    Declared.ofTexts? (s.settings.importsText.getD []) (s.table.text.getD [])
      (s.settings.nowText.getD []) = some s.declared := by
  have hpaths : (s.settings.imports.map Package.importText).mapM importedPath? =
      some (s.settings.imports.map Package.path) := by
    rw [List.mapM_map]
    exact mapM_eq_some_map fun p _ => importedPath?_importText p
  have hentries := Table.entriesOfLines?_lines fun e he =>
    Table.entryOfLine?_entryLine (hsound.table.isIdentifier_of_mem he).1
      (hsound.table.hasLiteral e he) (hvalues e he)
  simp only [Declared.ofTexts?, blockLines?_importsText, Table.blockLines?_text hsound.table,
    Settings.blockLines?_nowText, Option.bind_eq_bind, Option.bind_some, hpaths, hentries,
    Settings.nowOfLines?_line hnow hleap]
  rfl

/-- What a session declares reads back from the tree of its declarations. -/
theorem ofFile?_eq (hsound : s.Sound) (hnow : s.settings.NowHasLiteral)
    (hvalues : ∀ e ∈ s.table.entries, e.2.Legible)
    (hleap : ∀ t ∈ s.settings.now, t.LeapAtMinuteEnd) :
    Declared.ofFile? s.file = some s.declared := by
  have hpaths : s.settings.importNodes.mapM Import.path? =
      some (s.settings.imports.map Package.path) := by
    rw [Settings.importNodes, List.mapM_map]
    exact mapM_eq_some_map fun p _ => path?_importNode p
  rw [Declared.ofFile?, file, hpaths, Option.bind_eq_bind, Option.bind_some, List.foldlM_append,
    Declared.foldlM_carryOut?_table hsound.table hvalues, Option.bind_eq_bind, Option.bind_some,
    Declared.foldlM_carryOut?_now hnow hleap]
  rfl

/-- There is nothing to declare apart from imports exactly when nothing is bound and no present is
fixed. -/
theorem body_file_eq_nil_iff : s.file.body = [] ↔ s.table.entries = [] ∧ s.settings.now = none := by
  unfold file Table.node Settings.nowNode
  cases s.table.entries <;> cases s.settings.now <;> simp

/-- **All ways to hand over a query declare the same.**  The text of a query is its imports, its
table, its present and its body, and a request for it keeps the imports and the body.  The lines of
these texts and the tree, read apart from each other, declare the paths of the imports, the entries
of the table in order and the present; a request carries the statements of the tree, and carries
none exactly when nothing is bound and no present is fixed.  The scripts among the stages are all
that functions of callers can do with the table (`BoundQuery.Closure.exists_script`): they bind in
any order, with or without writing what they bind, and end with any text or error. -/
theorem declared_agree {policy : Policy} {changes : List Change} {settings : Settings}
    (hsettings : changes.foldlM Settings.change (.ofPolicy policy) = .ok settings)
    {stages : List Stage} (hs : ((ofSettings settings).attempt stages).1 = s)
    (hvalues : ∀ e ∈ s.table.entries, e.2.Legible)
    (hleap : ∀ t ∈ s.settings.now, t.LeapAtMinuteEnd) :
    s.queryText = s.settings.importsText.getD [] ++ s.table.text.getD [] ++
        s.settings.nowText.getD [] ++ s.text ∧
      s.request.query.toList = s.settings.importsText.getD [] ++ s.text ∧
      Declared.ofTexts? (s.settings.importsText.getD []) (s.table.text.getD [])
        (s.settings.nowText.getD []) = some s.declared ∧
      Declared.ofFile? s.file = some s.declared ∧
      (s.request.declarations = none ↔ s.table.entries = [] ∧ s.settings.now = none) ∧
      ∀ f ∈ s.request.declarations, f = { s.file with imports := [] } := by
  have hfirst : (Settings.ofPolicy policy).NowHasLiteral := fun t ht => by cases ht
  have hinv : s.Sound ∧ s.settings.NowHasLiteral := by
    rw [← hs]
    refine invariant_attempt (I := fun s => s.Sound ∧ s.settings.NowHasLiteral) ?_
      ⟨.ofSettings settings, hfirst.foldlM hsettings⟩
    rintro stage - s s' ⟨hsound, hnow⟩ hadd
    exact ⟨hsound.add hadd, nowHasLiteral_add hsound hnow hadd⟩
  obtain ⟨hsound, hnow⟩ := hinv
  refine ⟨rfl, String.toList_ofList, ofTexts?_eq hsound hnow hvalues hleap,
    ofFile?_eq hsound hnow hvalues hleap, ?_, ?_⟩
  · rw [← body_file_eq_nil_iff, request]
    simp
  · intro f hf
    simp only [request, Option.mem_def, Option.ite_none_left_eq_some, Option.some.injEq] at hf
    exact hf.2.symm

/-- A text with a line break and a colon, and a leap second as the present; the second source fails
and is passed over. -/
theorem declared_agree_leapSecond : ∃ settings,
    [Change.fixNow ⟨1483228799, 1000000000, by decide⟩, .require "timezone"].foldlM
      Settings.change (.ofPolicy .all) = .ok settings ∧
    let s := ((ofSettings settings).attempt
      [.source "a\n: \"b\"", .source "c", .movingAverage 3, .yield (some "out")]).1
    s.declared = ⟨["timezone"], [("from_bucket_0", .text "a\n: \"b\""),
      ("movingAverage_n_1", .integer 3), ("yield_name_2", .text "out")],
      some ⟨1483228799, 1000000000, by decide⟩⟩ ∧
    Declared.ofTexts? (s.settings.importsText.getD []) (s.table.text.getD [])
      (s.settings.nowText.getD []) = some s.declared ∧
    Declared.ofFile? s.file = some s.declared := by
  have hsettings : [Change.fixNow ⟨1483228799, 1000000000, by decide⟩,
      .require "timezone"].foldlM Settings.change (.ofPolicy .all) =
        .ok ⟨.all, some ⟨1483228799, 1000000000, by decide⟩, [.timezone]⟩ := rfl
  refine ⟨_, hsettings, ?_⟩
  intro s
  have hdeclared : s.declared = ⟨["timezone"], [("from_bucket_0", .text "a\n: \"b\""),
      ("movingAverage_n_1", .integer 3), ("yield_name_2", .text "out")],
      some ⟨1483228799, 1000000000, by decide⟩⟩ := by decide +kernel
  have hvalues : ∀ e ∈ s.table.entries, e.2.Legible := by
    rw [show s.table.entries = _ from congrArg Declared.entries hdeclared]
    simp [Value.Legible]
  have hleap : ∀ t ∈ s.settings.now, t.LeapAtMinuteEnd := by
    rw [show s.settings.now = _ from congrArg Declared.now hdeclared]
    rintro t ⟨⟩ -
    rfl
  obtain ⟨-, -, htexts, hfile, -⟩ := declared_agree hsettings rfl hvalues hleap
  exact ⟨hdeclared, htexts, hfile⟩

end Session

end BoundQuery
