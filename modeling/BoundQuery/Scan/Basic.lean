/-
**Scanners.**

A scanner takes something from the front of a text.  It answers with what it took and the text
that is left, or with the text at which it gave up; both are ends of the text that it was given.

Main definitions:

* `BoundQuery.Scanner` — a scanner;
* `BoundQuery.Scanner.map`, `BoundQuery.Scanner.filterMap` — the same scanner with another answer;
  an answer that does not exist is reported at the beginning;
* `BoundQuery.Scanner.first` — the first of several scanners that takes anything;
* `BoundQuery.Scanner.char`, `BoundQuery.Scanner.word`, `BoundQuery.Scanner.digits` — a character,
  a word and a run of digits.
-/

import BoundQuery.Text.Numeral

set_option relaxedAutoImplicit false
set_option autoImplicit false

namespace BoundQuery

/-- Takes something from the front of a text: what it took and the text that is left, or the text
at which it gave up. -/
abbrev Scanner (α : Type) : Type := List Char → Except (List Char) (α × List Char)

namespace Scanner

variable {α β : Type}

/-- The same scanner with another answer. -/
def map (f : α → β) (p : Scanner α) : Scanner β := fun s =>
  match p s with
  | .ok (a, rest) => .ok (f a, rest)
  | .error e => .error e

/-- The same scanner with another answer, where there is one; else it gives up at the
beginning. -/
def filterMap (f : α → Option β) (p : Scanner α) : Scanner β := fun s =>
  match p s with
  | .ok (a, rest) =>
      match f a with
      | some b => .ok (b, rest)
      | none => .error s
  | .error e => .error e

/-- One scanner and, on what it leaves, another one. -/
def andThen (p : Scanner α) (q : α → Scanner β) : Scanner β := fun s =>
  match p s with
  | .ok (a, rest) => q a rest
  | .error e => .error e

/-- The answer of the first scanner that takes anything; else that of the last one. -/
def first (p : Scanner α) : List (Scanner α) → Scanner α
  | [], s => p s
  | q :: qs, s =>
      match p s with
      | .ok r => .ok r
      | .error _ => first q qs s

/-- One character. -/
def char (c : Char) : Scanner Unit
  | d :: rest => if d = c then .ok ((), rest) else .error (d :: rest)
  | [] => .error []

/-- The characters of a word. -/
def word (w : List Char) : Scanner Unit := fun s =>
  if w.isPrefixOf s then .ok ((), s.drop w.length) else .error s

/-- A run of at least one digit. -/
def digits : Scanner (List Char) := fun s =>
  match takeDigits s with
  | ([], _) => .error s
  | taken => .ok taken

/-- Whether a minus sign stands at the front of a text, and what is left of the text without it. -/
def sign : List Char → Bool × List Char
  | '-' :: rest => (true, rest)
  | s => (false, s)

end Scanner

end BoundQuery
