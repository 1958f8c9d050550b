/-
**Identifiers.**

An identifier is a letter or an underscore, followed by letters, underscores and digits, all of
them in ASCII.  A function is named by an identifier that is not a word of the query language.

Main definitions:

* `BoundQuery.isIdentifier` — a text is an identifier;
* `BoundQuery.keywords` — the words of the query language;
* `BoundQuery.Identifier`, `BoundQuery.Identifier.ofText` — the name of a function.

Main results:

* `BoundQuery.isIdentifier_append` — characters of identifiers may follow an identifier.
-/

import BoundQuery.Error

set_option relaxedAutoImplicit false
set_option autoImplicit false

namespace BoundQuery

/-- Whether a character may stand at the beginning of an identifier. -/
def isIdentifierHead (c : Char) : Bool := c.isAlpha || c = '_'

/-- Whether a character may stand in an identifier. -/
def isIdentifierChar (c : Char) : Bool := c.isAlphanum || c = '_'

/-- Whether a text, as a list of characters, is an identifier. -/
def isIdentifierText : List Char → Bool
  | [] => false
  | c :: cs => isIdentifierHead c && cs.all isIdentifierChar

/-- Whether a text is an identifier. -/
def isIdentifier (s : String) : Bool := isIdentifierText s.toList

/-- Characters of identifiers may follow an identifier. -/
theorem isIdentifier_append {s t : String} (hs : isIdentifier s = true)
    (ht : ∀ c ∈ t.toList, isIdentifierChar c = true) : isIdentifier (s ++ t) = true := by
  unfold isIdentifier at hs ⊢
  rw [String.toList_append]
  cases h : s.toList with
  | nil => simp [h, isIdentifierText] at hs
  | cons c cs =>
      simp only [h, isIdentifierText, Bool.and_eq_true, List.all_eq_true] at hs
      simp only [List.cons_append, isIdentifierText, Bool.and_eq_true, List.all_eq_true,
        List.mem_append]
      exact ⟨hs.1, fun d hd => hd.elim (hs.2 d) (ht d)⟩

/-- The words of the query language, none of which names a function. -/
def keywords : List String := [
  "and", "builtin", "else", "empty", "exists", "if", "import", "not", "option", "or", "package",
  "return", "test", "testcase", "then"]

/-- The name of a function. -/
structure Identifier where
  name : String
  isIdentifier_name : isIdentifier name = true
  name_notMem : name ∉ keywords
deriving DecidableEq

namespace Identifier

/-- The name of a function that a text spells. -/
def ofText (s : String) : Except Error Identifier :=
  if h : isIdentifier s = true then
    if hk : s ∈ keywords then .error (.argument "identifier" (.reservedWord s))
    else .ok ⟨s, h, hk⟩
  else .error (.argument "identifier" (.notIdentifier s))

/-- The sum of the values. -/
def sum : Identifier := ⟨"sum", by decide, by decide⟩

/-- The number of values. -/
def count : Identifier := ⟨"count", by decide, by decide⟩

/-- The mean value. -/
def mean : Identifier := ⟨"mean", by decide, by decide⟩

/-- The middle value. -/
def median : Identifier := ⟨"median", by decide, by decide⟩

/-- The most frequent value. -/
def mode : Identifier := ⟨"mode", by decide, by decide⟩

/-- The difference between the greatest and the least value. -/
def spread : Identifier := ⟨"spread", by decide, by decide⟩

/-- The least value. -/
def min : Identifier := ⟨"min", by decide, by decide⟩

/-- The greatest value. -/
def max : Identifier := ⟨"max", by decide, by decide⟩

/-- The first value. -/
def first : Identifier := ⟨"first", by decide, by decide⟩

/-- The last value. -/
def last : Identifier := ⟨"last", by decide, by decide⟩

end Identifier

end BoundQuery
