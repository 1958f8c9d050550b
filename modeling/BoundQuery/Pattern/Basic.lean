/-
**Regular expressions as values.**

A pattern is a regular expression that can be matched, in the spelling in which it is kept.

Main definitions:

* `BoundQuery.Pattern` — a pattern;
* `BoundQuery.Pattern.ofText` — the pattern of a text in any spelling;
* `BoundQuery.Pattern.literal` — the literal of a pattern.

Main results:

* `BoundQuery.Pattern.ofText_normal` — a pattern is the pattern of its own spelling.
-/

import BoundQuery.Error
import BoundQuery.Pattern.Limits
import BoundQuery.Pattern.Spelling

set_option relaxedAutoImplicit false
set_option autoImplicit false

namespace BoundQuery

/-- A regular expression in the spelling in which it is kept. -/
structure Pattern where
  spelling : List Char
  normal : Pattern.normalize spelling = spelling
  admissible : Pattern.isAdmissible spelling = true
deriving DecidableEq

namespace Pattern

/-- The pattern of a text. -/
def ofText (s : List Char) : Except Error Pattern :=
  if h : isAdmissible (normalize s) = true then
    .ok ⟨normalize s, normalize_normalize s, h⟩
  else .error (.argument "pattern" .notPattern)

/-- A pattern is the pattern of its own spelling. -/
theorem ofText_normal (p : Pattern) : ofText p.spelling = .ok p := by
  obtain ⟨s, hn, ha⟩ := p
  have h : isAdmissible (normalize s) = true := hn.symm ▸ ha
  unfold ofText
  rw [dif_pos h]
  congr 2

/-- The text of a pattern as it is kept. -/
def toText (p : Pattern) : String := String.ofList p.spelling

/-- The literal of a pattern: its spelling for a literal, between slashes. -/
def literal (p : Pattern) : List Char := '/' :: escape p.spelling ++ ['/']

end Pattern

end BoundQuery
