/-
**Plans.**

What is written into a query is planned as a list of actions that does not depend on the policy or
on what was written before: fixed text is written, a value is given a place, a package is asked
for, or it fails.  A plan is made of blocks, each of which writes its text as a whole or not at
all; what a block has bound and imported before it fails stays.

Main definitions:

* `BoundQuery.Session` — what was written so far, with the settings and the table that belong to
  it;
* `BoundQuery.Action`, `BoundQuery.Session.act` — one thing to do;
* `BoundQuery.Session.perform`, `BoundQuery.Session.performBlock`, `BoundQuery.Session.run` — the
  actions of a list, a block and a plan;
* `BoundQuery.Action.error?` — the error of an action, which depends on the action alone;
* `BoundQuery.Script`, `BoundQuery.Template.block` — what scripts and templates do.

Main results:

* `BoundQuery.Session.act_eq_error_iff` — an action fails with its own error, whatever was done
  before.
-/

import BoundQuery.Binding.Table
import BoundQuery.Binding.Template
import BoundQuery.Settings.Basic

set_option relaxedAutoImplicit false
set_option autoImplicit false

namespace BoundQuery

/-- A query that is being written. -/
structure Session where
  output : List Piece
  settings : Settings
  table : Table
deriving DecidableEq

/-- One thing that is done to write a query. -/
inductive Action where
  /-- Writes fixed text. -/
  | write (text : List Char)
  /-- Writes the place of a value. -/
  | place (label : String) (value : Value)
  /-- Writes the place of what a caller holds. -/
  | give (label : String) (given : Given)
  /-- Binds what a caller holds and writes nothing; if it cannot be bound, nothing is done. -/
  | keep (label : String) (given : Given)
  /-- Imports a package. -/
  | require (p : Package)
  /-- Gives up. -/
  | fail (e : Error)

/-- Actions whose text is written as a whole or not at all. -/
abbrev Block : Type := List Action

/-- Blocks one after the other. -/
abbrev Plan : Type := List Block

namespace Session

/-- A session in which nothing is written. -/
def ofSettings (s : Settings) : Session := ⟨[], s, .empty s.policy⟩

/-- The text that was written. -/
def text (s : Session) : List Char := piecesText s.output

/-- A piece written behind the others, with a table that may have one more entry. -/
def put (s : Session) (placed : Piece × Table) : Session :=
  { s with output := s.output ++ [placed.1], table := placed.2 }

/-- The session after one action. -/
def act (s : Session) : Action → Except Error Session
  | .write t => .ok { s with output := s.output ++ [.fixed t] }
  | .place label v => (s.table.bindValue label v).map s.put
  | .give label g => (s.table.bind label g).map s.put
  | .keep label g => .ok { s with table := s.table.keep label g }
  | .require p => .ok { s with settings := s.settings.addImport p }
  | .fail e => .error e

/-- The session after actions up to the first one that fails, and its error. -/
def perform (s : Session) : List Action → Session × Option Error
  | [] => (s, none)
  | a :: as =>
      match s.act a with
      | .ok s => s.perform as
      | .error e => (s, some e)

/-- The session after a block: where an action fails, the block writes nothing. -/
def performBlock (s : Session) (b : Block) : Session × Option Error :=
  match s.perform b with
  | (s', none) => (s', none)
  | (s', some e) => ({ s' with output := s.output }, some e)

/-- The session after blocks up to the first one that fails, and its error. -/
def run (s : Session) : Plan → Session × Option Error
  | [] => (s, none)
  | b :: bs =>
      match s.performBlock b with
      | (s, none) => s.run bs
      | (s, some e) => (s, some e)

end Session

/-! ### Errors of actions -/

/-- The error of binding a value. -/
def bindingError? (label : String) (v : Value) : Option Error :=
  if isIdentifier label then
    match v.checked with
    | .ok _ => none
    | .error e => some (e.renamed label)
  else some (.argument "prefix" (.notIdentifier label))

/-- The error of an action, if it fails. -/
def Action.error? : Action → Option Error
  | write _ => none
  | place label v => bindingError? label v
  | give label g =>
      match g.resolve with
      | .ok v => bindingError? label v
      | .error e => some (e.renamed label)
  | keep _ _ => none
  | require _ => none
  | fail e => some e

theorem Table.bindValue_eq_error_iff {t : Table} {label : String} {v : Value} {e : Error} :
    t.bindValue label v = .error e ↔ bindingError? label v = some e := by
  unfold Table.bindValue bindingError?
  split
  · cases v.checked <;> simp
  · simp

/-- An action fails with its own error, whatever was done before. -/
theorem Session.act_eq_error_iff {s : Session} {a : Action} {e : Error} :
    s.act a = .error e ↔ a.error? = some e := by
  cases a with
  | write t => simp [act, Action.error?]
  | keep label g => simp [act, Action.error?]
  | require p => simp [act, Action.error?]
  | fail f => simp [act, Action.error?]
  | place label v =>
      rw [Action.error?, ← Table.bindValue_eq_error_iff (t := s.table)]
      cases h : s.table.bindValue label v <;> simp [act, h, Except.map]
  | give label g =>
      cases hg : g.resolve with
      | error f => simp [act, Action.error?, Table.bind, hg, Except.map]
      | ok v =>
          simp only [Action.error?, hg]
          rw [← Table.bindValue_eq_error_iff (t := s.table)]
          cases h : s.table.bindValue label v <;> simp [act, Table.bind, hg, h, Except.map]

/-! ### Templates and scripts -/

/-- The action for a part of a template. -/
def Template.Part.action (label : String) : Template.Part → Action
  | raw t => .write t
  | value v => .place label v

/-- What a template does: its texts are written as they are, and its values under one label. -/
def Template.block (t : Template) (label : String) : Block := t.parts.map (Part.action label)

/-- A step of a script, which is one run of a caller's function.  The function may bind values and
put their places into its text or not, pass over those that cannot be bound, write any text, and
end with any error. -/
inductive Step where
  | write (text : String)
  | bind (label : String) (given : Given)
  | bindValue (label : String) (value : Value)
  /-- Binds what a caller holds without writing its place; what is refused is passed over. -/
  | keep (label : String) (given : Given)
  | giveUp (e : Error)

/-- A script gives up with an argument to blame and a reason of its own. -/
def Step.fail (name message : String) : Step := giveUp (.argument name (.stated message))

/-- What a caller's function does with the table, step by step, and the text that it puts together;
nothing in that text is escaped but the values that are bound. -/
abbrev Script : Type := List Step

/-- The action for a step of a script. -/
def Step.action : Step → Action
  | write t => .write t.toList
  | bind label g => .give label g
  | bindValue label v => .place label v
  | keep label g => .keep label g
  | giveUp e => .fail e.stated

/-- What a script does. -/
def Script.block (s : Script) : Block := s.map Step.action

end BoundQuery
