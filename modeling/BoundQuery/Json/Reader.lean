/-
**Reading JSON texts.**

The reader takes a whole text: blanks, one value, blanks.  It refuses what JSON refuses, a number
too large for floating point, an escape that names half a character, and a nesting of arrays and
objects deeper than a limit.

A number is read in at most two roundings.  The digits before the point are taken as long as the
number they spell fits 64 bits, and each later one only counts as a factor ten; the digits behind
the point are taken on as long as the number fits, and the later ones are dropped.  The number so
spelled is rounded to floating point, and then scaled by the power of ten that is left.

Main definitions:

* `BoundQuery.Json.readNumber` — a number at the front of a text;
* `BoundQuery.Json.readString` — a quoted text whose opening quote is already taken;
* `BoundQuery.Json.readWithin`, `BoundQuery.Json.read` — a whole text, with a limit on nesting.
-/

import BoundQuery.Json.Basic

set_option relaxedAutoImplicit false
set_option autoImplicit false

namespace BoundQuery.Json

/-- The four characters that may stand between the parts of a JSON text. -/
def isSpace (c : Char) : Bool := c = ' ' || c = '\t' || c = '\n' || c = '\r'

/-- A text without the blanks at its front. -/
def skipSpace (s : List Char) : List Char := s.dropWhile isSpace

/-! ### Numbers -/

/-- Takes digits into a number as long as it stays below `2 ^ 64`; also how many were taken. -/
def takeSignificant (n : Nat) : List Char → Nat × Nat
  | [] => (n, 0)
  | d :: ds =>
      let m := 10 * n + (d.toNat - '0'.toNat)
      if m < UInt64.size then
        let (total, count) := takeSignificant m ds
        (total, count + 1)
      else (n, 0)

/-- A whole number with a sign, as an integer where it is one of at most 64 bits; minus zero and
the negative numbers below `-2 ^ 63` are floating-point numbers. -/
def wholeNumber (negative : Bool) (n : Nat) : Option Json :=
  if ¬negative then some (int n)
  else if 0 < n ∧ n ≤ 0x8000000000000000 then some (int (-n))
  else (Magnitude.scaled n 0).map fun m => float (.finite true m)

/-- The exponent of a number, and what follows: zero when there is none; `none` when a letter `e`
has no digits behind it. -/
def readExponent (s : List Char) : Option (Option Int × List Char) :=
  match s with
  | e :: r =>
      if e = 'e' || e = 'E' then
        let (negative, r) := match r with
          | '-' :: r => (true, r)
          | '+' :: r => (false, r)
          | r => (false, r)
        let (ds, rest) := takeDigits r
        if ds.isEmpty then none
        else some (some (if negative then -(ofDigits ds : Int) else ofDigits ds), rest)
      else some (none, s)
  | [] => some (none, s)

/-- The digits behind a point, and what follows; `none` when a point has no digits behind it. -/
def readFraction (s : List Char) : Option (Option (List Char) × List Char) :=
  match s with
  | '.' :: r =>
      let (ds, rest) := takeDigits r
      if ds.isEmpty then none else some (some ds, rest)
  | s => some (none, s)

/-- The number at the front of a text, its sign already taken. -/
def readUnsigned (negative : Bool) (s : List Char) : Option (Json × List Char) := do
  let (ds, s) := takeDigits s
  if ds.isEmpty || (ds.head? = some '0' && 1 < ds.length) then none
  else
    let (fraction, s) ← readFraction s
    let (exponent, s) ← readExponent s
    let (n, count) := takeSignificant 0 ds
    let (n, behind) := takeSignificant n (fraction.getD [])
    if fraction.isNone && exponent.isNone && count = ds.length then
      let j ← wholeNumber negative n
      some (j, s)
    else
      let k : Int := (ds.length - count : Nat) - (behind : Int) + exponent.getD 0
      let m ← Magnitude.scaled n k
      some (float (.finite negative m), s)

/-- The number at the front of a text. -/
def readNumber (s : List Char) : Option (Json × List Char) :=
  match s with
  | '-' :: r => readUnsigned true r
  | s => readUnsigned false s

/-! ### Texts -/

/-- Four hexadecimal digits at the front of a text. -/
def readUnit (s : List Char) : Option (Nat × List Char) :=
  match s with
  | a :: b :: c :: d :: rest => (ofHex? [a, b, c, d]).map (·, rest)
  | _ => none

/-- The character that an escape names by one or two units of sixteen bits: a leading half must
be followed by the escape of a trailing half, and a trailing half cannot come first. -/
def readEscapedUnits (s : List Char) : Option (Char × List Char) := do
  let (u, rest) ← readUnit s
  if u < 0xD800 || 0xE000 ≤ u then some (Char.ofNat u, rest)
  else if 0xDC00 ≤ u then none
  else match rest with
    | '\\' :: 'u' :: rest =>
        let (v, rest) ← readUnit rest
        if 0xDC00 ≤ v && v < 0xE000 then
          some (Char.ofNat (0x10000 + (u - 0xD800) * 0x400 + (v - 0xDC00)), rest)
        else none
    | _ => none

/-- The character that an escape stands for, its backslash already taken. -/
def readEscape (s : List Char) : Option (Char × List Char) :=
  match s with
  | '"' :: r => some ('"', r)
  | '\\' :: r => some ('\\', r)
  | '/' :: r => some ('/', r)
  | 'b' :: r => some ('\x08', r)
  | 'f' :: r => some ('\x0c', r)
  | 'n' :: r => some ('\n', r)
  | 'r' :: r => some ('\r', r)
  | 't' :: r => some ('\t', r)
  | 'u' :: r => readEscapedUnits r
  | _ => none

/-- A quoted text whose opening quote is already taken, and what follows the closing one.  Every
step takes a character, so a fuel of the length of the text never runs out. -/
def readString (fuel : Nat) (taken : List Char) (s : List Char) : Option (String × List Char) :=
  match fuel, s with
  | 0, _ => none
  | _, [] => none
  | _, '"' :: rest => some (String.ofList taken.reverse, rest)
  | fuel + 1, '\\' :: r =>
      match readEscape r with
      | some (c, rest) => readString fuel (c :: taken) rest
      | none => none
  | fuel + 1, c :: rest => if c.toNat < 0x20 then none else readString fuel (c :: taken) rest

/-! ### Values -/

/-- A text without a word at its front. -/
def dropWord (word s : List Char) : Option (List Char) :=
  if word.isPrefixOf s then some (s.drop word.length) else none

mutual

/-- The value at the front of a text that starts with no blank; `depth` arrays and objects may be
opened inside one another. -/
def readValue (fuel depth : Nat) (s : List Char) : Option (Json × List Char) :=
  match fuel with
  | 0 => none
  | fuel + 1 =>
    match s with
    | 'n' :: _ => (dropWord "null".toList s).map (null, ·)
    | 't' :: _ => (dropWord "true".toList s).map (bool true, ·)
    | 'f' :: _ => (dropWord "false".toList s).map (bool false, ·)
    | '"' :: r => (readString (r.length + 1) [] r).map fun (t, rest) => (string t, rest)
    | '[' :: r =>
        match depth with
        | 0 => none
        | depth + 1 =>
          match skipSpace r with
          | ']' :: rest => some (array [], rest)
          | r => (readItems fuel depth [] r).map fun (js, rest) => (array js, rest)
    | '\x7b' :: r =>
        match depth with
        | 0 => none
        | depth + 1 =>
          match skipSpace r with
          | '\x7d' :: rest => some (object [], rest)
          | r => (readFields fuel depth [] r).map fun (fs, rest) => (object fs, rest)
    | s => readNumber s

/-- The items of an array from one item on, up to the closing bracket. -/
def readItems (fuel depth : Nat) (taken : List Json) (s : List Char) :
    Option (List Json × List Char) :=
  match fuel with
  | 0 => none
  | fuel + 1 =>
    match readValue fuel depth s with
    | none => none
    | some (j, r) =>
      match skipSpace r with
      | ',' :: r => readItems fuel depth (j :: taken) (skipSpace r)
      | ']' :: rest => some ((j :: taken).reverse, rest)
      | _ => none

/-- The fields of an object from one field on, up to the closing brace. -/
def readFields (fuel depth : Nat) (taken : List (String × Json)) (s : List Char) :
    Option (List (String × Json) × List Char) :=
  match fuel with
  | 0 => none
  | fuel + 1 =>
    match s with
    | '"' :: r =>
      match readString (r.length + 1) [] r with
      | none => none
      | some (k, r) =>
        match skipSpace r with
        | ':' :: r =>
          match readValue fuel depth (skipSpace r) with
          | none => none
          | some (j, r) =>
            match skipSpace r with
            | ',' :: r => readFields fuel depth ((k, j) :: taken) (skipSpace r)
            | '\x7d' :: rest => some (((k, j) :: taken).reverse, rest)
            | _ => none
        | _ => none
    | _ => none

end

/-- A whole text with at most `depth` arrays and objects inside one another.  A value and an item
together take a character, so twice the length of the text is fuel enough. -/
def readWithin (depth : Nat) (s : String) : Option Json :=
  let cs := s.toList
  match readValue (2 * cs.length + 2) depth (skipSpace cs) with
  | some (j, rest) => if (skipSpace rest).isEmpty then some j else none
  | none => none

/-- A whole text with at most 127 arrays and objects inside one another. -/
def read (s : String) : Option Json := readWithin 127 s

end BoundQuery.Json
