/-
**Templates as they are kept.**

A template is kept as segments, which are texts and the numbers of values, and the values beside
them.  Texts and values are put behind what is there, and a format is read from its beginning with
the text since the last place of a value held back.  That no number is without a value, and that no
text is empty or follows another one, is not in the type here: both are theorems about the templates
that these operations make, as is that they are the templates of `BoundQuery.Template`.

Main definitions:

* `BoundQuery.Template.Kept` — segments, and values;
* `BoundQuery.Template.Kept.raw`, `BoundQuery.Template.Kept.value` — one more text or value;
* `BoundQuery.Template.Kept.ofFormat` — the segments and values of a format;
* `BoundQuery.Template.Kept.format` — the format of segments;
* `BoundQuery.Template.Kept.block` — what they do in a query;
* `BoundQuery.Template.kept` — a template as it is kept.
-/

import BoundQuery.Binding.Plan

set_option relaxedAutoImplicit false
set_option autoImplicit false

namespace BoundQuery.Template

/-- Segments that refer to values by their number, and the values. -/
structure Kept where
  segments : List Segment
  values : List Value
deriving DecidableEq

/-- A template as it is kept. -/
def kept (t : Template) : Kept := ⟨t.segments, t.values⟩

namespace Kept

/-- Nothing. -/
def empty : Kept := ⟨[], []⟩

/-- Segments with a text behind them, joined to a text at their end. -/
def joinText (t : List Char) (segments : List Segment) : List Segment :=
  match segments.getLast? with
  | some (.raw u) => segments.dropLast ++ [.raw (u ++ t)]
  | _ => segments ++ [.raw t]

/-- One more text, unless it is empty. -/
def raw (k : Kept) (t : List Char) : Kept :=
  if t = [] then k else { k with segments := joinText t k.segments }

/-- One more value, by the number of values that are there. -/
def value (k : Kept) (v : Value) : Kept :=
  ⟨k.segments ++ [.place k.values.length], k.values ++ [v]⟩

/-- What is kept of a format from here on: `k` is kept of what was before, but for the text `held`
at its end; `position` bytes and `placeholders` places of values were before, and the values are
those still to be placed. -/
def readFormat (position placeholders : Nat) (held : List Char) (k : Kept) (vs : List Value) :
    List Char → Except Error Kept
  | [] =>
      if vs.isEmpty then .ok (k.raw held)
      else .error (.argument "template" (.surplusArguments placeholders (placeholders + vs.length)))
  | '\x7b' :: '\x7b' :: s =>
      readFormat (position + 2) placeholders (held ++ ['\x7b']) k vs s
  | '\x7b' :: '\x7d' :: s =>
      match vs with
      | [] => .error (.argument "template" (.noArgument (placeholders + 1)))
      | v :: vs => readFormat (position + 2) (placeholders + 1) [] ((k.raw held).value v) vs s
  | '\x7d' :: '\x7d' :: s =>
      readFormat (position + 2) placeholders (held ++ ['\x7d']) k vs s
  | c :: s =>
      if c = '\x7b' ∨ c = '\x7d' then .error (.argument "template" (.loneBrace c position))
      else readFormat (position + c.utf8Size) placeholders (held ++ [c]) k vs s

/-- The segments of a format and the values for its places. -/
def ofFormat (format : String) (vs : List Value) : Except Error Kept :=
  readFormat 0 0 [] empty vs format.toList

/-- The format of one segment. -/
def segmentFormat : Segment → List Char
  | .raw t => t.flatMap formatChar
  | .place _ => ['\x7b', '\x7d']

/-- The format of segments: braces of texts doubled, and an empty pair of them for a value. -/
def format (k : Kept) : List Char := k.segments.flatMap segmentFormat

/-- The action for a segment: the text is written, and the value that has the number gets a place. -/
def action (values : List Value) (label : String) : Segment → Action
  | .raw t => .write t
  | .place i =>
      match values[i]? with
      | some v => .place label v
      | none => .fail (.argument "template" (.missingArgument i))

/-- What segments do, their values under one label. -/
def block (k : Kept) (label : String) : Block := k.segments.map (action k.values label)

end Kept

end BoundQuery.Template
