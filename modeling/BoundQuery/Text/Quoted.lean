/-
**Quoted texts.**

A text stands in a query between quotes.  Quotes and backslashes are escaped, a dollar sign is
escaped where a brace follows it, since both together open an interpolation, and no control
character stands for itself: three of them have a letter, the others are written byte by byte.

Main definitions:

* `BoundQuery.isControl` — the control characters;
* `BoundQuery.escapeChar` — one character between quotes;
* `BoundQuery.escapeText`, `BoundQuery.quotedText` — a text without and with its quotes.
-/

import BoundQuery.Text.Numeral

set_option relaxedAutoImplicit false
set_option autoImplicit false

namespace BoundQuery

/-- The characters with the general category of controls. -/
def isControl (c : Char) : Bool := c.toNat < 0x20 || (0x7f ≤ c.toNat && c.toNat < 0xa0)

/-- A byte by its two hexadecimal digits. -/
def escapedByte (b : UInt8) : List Char := '\\' :: 'x' :: hexPair b

/-- One character between quotes, wherever it stands. -/
def escapeChar (c : Char) : List Char :=
  if c = '\\' then ['\\', '\\']
  else if c = '"' then ['\\', '"']
  else if c = '\n' then ['\\', 'n']
  else if c = '\r' then ['\\', 'r']
  else if c = '\t' then ['\\', 't']
  else if isControl c then (String.utf8EncodeChar c).flatMap escapedByte
  else [c]

/-- What stands between the quotes of a text: its characters one by one, but for a dollar sign
and a brace, which are escaped together. -/
def escapeText : List Char → List Char
  | [] => []
  | '$' :: '\x7b' :: s => '\\' :: '$' :: '\x7b' :: escapeText s
  | c :: s => escapeChar c ++ escapeText s

/-- A text between quotes. -/
def quotedText (s : List Char) : List Char := '"' :: escapeText s ++ ['"']

end BoundQuery
