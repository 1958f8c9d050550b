/-
**Scanning literals.**

A literal of any kind is scanned by trying the kinds in a fixed order; where none takes anything,
the last one says where it gave up.  A whole text is a literal only if nothing is left.

Main definitions:

* `BoundQuery.Scanner.text`, `BoundQuery.Scanner.pattern` — literals between quotes and slashes;
* `BoundQuery.Scanner.alternatives`, `BoundQuery.Scanner.literal` — a literal of any kind;
* `BoundQuery.Scanner.whole` — the literal that a whole text is;
* `BoundQuery.Value.ofLiteral`, `BoundQuery.Duration.ofLiteral`, `BoundQuery.textOfLiteral` — the
  value, the duration and the text whose literal a whole text is.
-/

import BoundQuery.Scan.Number
import BoundQuery.Value.Basic

set_option relaxedAutoImplicit false
set_option autoImplicit false

namespace BoundQuery

namespace Scanner

/-! ### Texts -/

/-- The byte that a character stands for behind a backslash. -/
def escaped? : Char → Option UInt8
  | '\\' => some 0x5c
  | '"' => some 0x22
  | '$' => some 0x24
  | 'n' => some 0x0a
  | 'r' => some 0x0d
  | 't' => some 0x09
  | _ => none

/-- The byte that two hexadecimal digits spell. -/
def byteOfHex? (a b : Char) : Option UInt8 := do
  let high ← hexValue? a
  let low ← hexValue? b
  return UInt8.ofNat (16 * high + low)

/-- Bytes in front of what a scanner took. -/
def prepend (bs : List UInt8) (r : Except (List Char) (List UInt8 × List Char)) :
    Except (List Char) (List UInt8 × List Char) :=
  match r with
  | .ok (taken, rest) => .ok (bs ++ taken, rest)
  | .error e => .error e

/-- The bytes of a text up to its closing quote.  An escape that there is none of, and a dollar
sign before a brace, are reported where they begin. -/
def textBytes : Scanner (List UInt8)
  | [] => .error []
  | '"' :: rest => .ok ([], rest)
  | '\\' :: 'x' :: a :: b :: rest =>
      match byteOfHex? a b with
      | some byte => prepend [byte] (textBytes rest)
      | none => .error ('\\' :: 'x' :: a :: b :: rest)
  | '\\' :: c :: rest =>
      match escaped? c with
      | some byte => prepend [byte] (textBytes rest)
      | none => .error ('\\' :: c :: rest)
  | ['\\'] => .error ['\\']
  | '$' :: '\x7b' :: rest => .error ('$' :: '\x7b' :: rest)
  | c :: rest => prepend (String.utf8EncodeChar c) (textBytes rest)

/-- The text that bytes encode. -/
def decoded? (bs : List UInt8) : Option String := String.fromUTF8? ⟨bs.toArray⟩

/-- A text between quotes.  Escaped bytes that do not make up characters are reported at the
beginning. -/
def text : Scanner String := ((char '"').andThen fun _ => textBytes).filterMap decoded?

/-! ### Patterns -/

/-- A character in front of what a scanner took. -/
def prependChars (cs : List Char) (r : Except (List Char) (List Char × List Char)) :
    Except (List Char) (List Char × List Char) :=
  match r with
  | .ok (taken, rest) => .ok (cs ++ taken, rest)
  | .error e => .error e

/-- The spelling of a pattern up to its closing slash: a slash behind a backslash belongs to the
pattern, and a line break ends it too early. -/
def spelling : Scanner (List Char)
  | [] => .error []
  | '\n' :: rest => .error ('\n' :: rest)
  | '/' :: rest => .ok ([], rest)
  | ['\\'] => .error ['\\']
  | '\\' :: '/' :: rest => prependChars ['/'] (spelling rest)
  | '\\' :: c :: rest => prependChars ['\\', c] (spelling rest)
  | c :: rest => prependChars [c] (spelling rest)

/-- A pattern between slashes. -/
def pattern : Scanner Pattern :=
  ((char '/').andThen fun _ => spelling).filterMap fun s => (Pattern.ofText s).toOption

/-! ### Conversions -/

/-- The blanks that may stand inside the call of a conversion. -/
def skipBlanks (s : List Char) : List Char :=
  s.dropWhile fun c => c = ' ' || c = '\t' || c = '\r' || c = '\n'

/-- The call of a conversion with its one argument. -/
def conversion {α : Type} (name : String) (argument : Scanner α) : Scanner α :=
  (word (name ++ "(").toList).andThen fun _ s =>
    (word "v:".toList).andThen (fun _ s =>
      argument.andThen (fun a s =>
        (char ')').map (fun _ => a) (skipBlanks s)) (skipBlanks s)) (skipBlanks s)

/-- A floating-point number by the name of an infinity or of no number, or by its numeral. -/
def floatOfText? (s : String) : Option Double :=
  if s = "NaN" then some .nan
  else if s = "+Inf" then some (.infinite false)
  else if s = "-Inf" then some (.infinite true)
  else Double.ofText? s.toList

/-- A whole number as the conversion of a text. -/
def integerCall : Scanner Int64 := (conversion "int" text).filterMap fun s =>
  integerOfText? s.toList

/-- A number without a sign as the conversion of digits. -/
def unsignedCall : Scanner UInt64 := (conversion "uint" digits).filterMap unsignedOfDigits?

/-- A floating-point number as the conversion of a text. -/
def floatCall : Scanner Double := (conversion "float" text).filterMap floatOfText?

/-! ### Literals of any kind -/

/-- The kinds of literals behind the first one, in the order in which they are tried. -/
def alternatives : List (Scanner Value) := [
  unsignedCall.map .unsigned, floatCall.map .float, instant.map .instant, duration.map .duration,
  float.map .float, integer.map .integer, (word "true".toList).map fun _ => .boolean true,
  (word "false".toList).map fun _ => .boolean false, text.map .text, pattern.map .pattern]

/-- A literal of any kind. -/
def literal : Scanner Value := first (integerCall.map .integer) alternatives

/-! ### Whole texts -/

/-- The number of bytes of a text. -/
def byteLength (s : List Char) : Nat := s.foldr (fun c n => c.utf8Size + n) 0

theorem byteLength_cons (c : Char) (s : List Char) :
    byteLength (c :: s) = c.utf8Size + byteLength s := rfl

/-- What a whole text is; what is left of it is reported. -/
def whole {α : Type} (p : Scanner α) (s : List Char) : Except Error α :=
  match p s with
  | .ok (a, []) => .ok a
  | .ok (_, rest) => .error (.unreadable (byteLength s - byteLength rest) rest)
  | .error rest => .error (.unreadable (byteLength s - byteLength rest) rest)

end Scanner

/-- The value whose literal a whole text is. -/
def Value.ofLiteral (s : String) : Except Error Value := Scanner.literal.whole s.toList

/-- The duration whose literal a whole text is. -/
def Duration.ofLiteral (s : String) : Except Error Duration := Scanner.duration.whole s.toList

/-- The text whose literal a whole text is. -/
def textOfLiteral (s : String) : Except Error String := Scanner.text.whole s.toList

end BoundQuery
