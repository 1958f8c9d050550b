/-
**JSON values and their compact text.**

The fields of an object keep their order and may repeat, so that a reader of one form can refuse
a repeated field where another takes the last one.  A number is a whole number of at most 64 bits,
with or without a sign, or a floating-point number.

Main definitions:

* `BoundQuery.Json` — a JSON value;
* `BoundQuery.Json.quoted` — a text between quotes, with the escapes that JSON asks for;
* `BoundQuery.Json.text` — the text of a value without blanks.
-/

import BoundQuery.Number.Layout

set_option relaxedAutoImplicit false
set_option autoImplicit false

namespace BoundQuery

/-- A JSON value. -/
inductive Json where
  | null
  | bool (b : Bool)
  /-- A whole number from `-2 ^ 63` to below `2 ^ 64`. -/
  | int (n : Int)
  | float (x : Double)
  | string (s : String)
  | array (items : List Json)
  | object (fields : List (String × Json))

namespace Json

/-- One character of a quoted text.  Only quotes, backslashes and the controls below the space
are escaped. -/
def quotedChar (c : Char) : List Char :=
  if c = '"' then ['\\', '"']
  else if c = '\\' then ['\\', '\\']
  else if c = '\x08' then ['\\', 'b']
  else if c = '\t' then ['\\', 't']
  else if c = '\n' then ['\\', 'n']
  else if c = '\x0c' then ['\\', 'f']
  else if c = '\r' then ['\\', 'r']
  else if c.toNat < 0x20 then ['\\', 'u', '0', '0'] ++ hexPair c.toNat.toUInt8
  else [c]

/-- A text between quotes. -/
def quoted (s : String) : List Char := '"' :: s.toList.flatMap quotedChar ++ ['"']

/-- The text of a number: an infinity and what is no number have none and are written `null`. -/
def floatText : Double → List Char
  | .finite negative m => Layout.stored.text negative m
  | _ => "null".toList

mutual

/-- The text of a value, without blanks. -/
def text : Json → List Char
  | null => "null".toList
  | bool b => if b then "true".toList else "false".toList
  | int n => signed n
  | float x => floatText x
  | string s => quoted s
  | array [] => ['[', ']']
  | array (j :: js) => '[' :: text j ++ itemsText js
  | object [] => ['\x7b', '\x7d']
  | object ((k, j) :: fs) => '\x7b' :: quoted k ++ ':' :: text j ++ fieldsText fs

/-- The items after the first one, each behind a comma, and the closing bracket. -/
def itemsText : List Json → List Char
  | [] => [']']
  | j :: js => ',' :: text j ++ itemsText js

/-- The fields after the first one, each behind a comma, and the closing brace. -/
def fieldsText : List (String × Json) → List Char
  | [] => ['\x7d']
  | (k, j) :: fs => ',' :: quoted k ++ ':' :: text j ++ fieldsText fs

end

/-- The text of a value as a string. -/
def toText (j : Json) : String := String.ofList j.text

/-- The value of the first field of that name. -/
def field? (name : String) : Json → Option Json
  | object fields => fields.lookup name
  | _ => none

end Json

end BoundQuery
