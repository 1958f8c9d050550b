/-
**Inspected texts.**

An inspected text stands between quotes and shows what it holds: a character without a visible
shape of its own is written by its code point, so two different texts never look alike.

Main definitions:

* `BoundQuery.inspectChar` — how one character is shown;
* `BoundQuery.inspect` — a text between quotes.
-/

import BoundQuery.Text.Numeral
import BoundQuery.Text.Printable

set_option relaxedAutoImplicit false
set_option autoImplicit false

namespace BoundQuery

/-- One character of an inspected text: quotes and backslashes are escaped, four controls have a
letter or digit of their own, and what is not showable is written by its code point in
hexadecimal. -/
def inspectChar (c : Char) : List Char :=
  if c = '\x00' then ['\\', '0']
  else if c = '\t' then ['\\', 't']
  else if c = '\r' then ['\\', 'r']
  else if c = '\n' then ['\\', 'n']
  else if c = '"' then ['\\', '"']
  else if c = '\\' then ['\\', '\\']
  else if isShowable c then [c]
  else "\\u\x7b".toList ++ hexadecimal c.toNat ++ ['}']

/-- A text between quotes, with every character shown. -/
def inspect (s : List Char) : List Char := '"' :: s.flatMap inspectChar ++ ['"']

end BoundQuery
