/-
**Configuration texts.**

A configuration text gives names to texts and to lists of texts, one name a line; the rest of a
line behind a number sign is a comment.  A text stands between single quotes, in which every
character stands for itself, or between double quotes with escapes, and between three quotes of a
kind it may go over several lines.  No other value can be part of a configuration, so a text with
one is none, like a text that breaks the rules.

Main definitions:

* `BoundQuery.Document.Entry` — what a name is given;
* `BoundQuery.Document.readQuoted` — a text between quotes of any kind;
* `BoundQuery.Document.read` — the names of a whole text with their entries, in order.
-/

import BoundQuery.Text.Numeral

set_option relaxedAutoImplicit false
set_option autoImplicit false

namespace BoundQuery.Document

/-- What a name is given. -/
inductive Entry where
  | text (s : String)
  | texts (ss : List String)
deriving DecidableEq

/-! ### Blanks, comments and line breaks -/

/-- Whether a character may stand in a comment or for itself in a text. -/
def isPlain (c : Char) : Bool := c = '\t' || (0x20 ≤ c.toNat && c.toNat ≠ 0x7f)

/-- What is left behind blanks of a line. -/
def skipBlank (s : List Char) : List Char := s.dropWhile fun c => c = ' ' || c = '\t'

/-- What is left behind a line break. -/
def readBreak : List Char → Option (List Char)
  | '\n' :: rest => some rest
  | '\r' :: '\n' :: rest => some rest
  | _ => none

/-- What is left behind a comment, if there is one. -/
def skipComment : List Char → List Char
  | '#' :: rest => rest.dropWhile isPlain
  | s => s

/-- What is left behind the end of a line: blanks, a comment and a line break, or nothing. -/
def readLineEnd (s : List Char) : Option (List Char) :=
  match skipComment (skipBlank s) with
  | [] => some []
  | s => readBreak s

/-- What is left behind blanks, comments and line breaks; `none` if a comment does not end with
its line.  Every line takes a character, so a fuel of the length of the text never runs out. -/
def skipLines : Nat → List Char → Option (List Char)
  | 0, s => some s
  | fuel + 1, s =>
      match skipBlank s with
      | '#' :: rest => do skipLines fuel (← readBreak (rest.dropWhile isPlain))
      | '\n' :: rest => skipLines fuel rest
      | '\r' :: rest => do skipLines fuel (← readBreak ('\r' :: rest))
      | s => some s

/-! ### Texts -/

/-- The character with a code point given by exactly `count` hexadecimal digits. -/
def readCode (count : Nat) (s : List Char) : Option (Char × List Char) := do
  let ds := s.take count
  if ds.length < count then none
  else
    let n ← ofHex? ds
    if n.isValidChar then some (Char.ofNat n, s.drop count) else none

/-- The character that an escape stands for, its backslash already taken. -/
def readEscape : List Char → Option (Char × List Char)
  | 'b' :: r => some ('\x08', r)
  | 't' :: r => some ('\t', r)
  | 'n' :: r => some ('\n', r)
  | 'f' :: r => some ('\x0c', r)
  | 'r' :: r => some ('\r', r)
  | '"' :: r => some ('"', r)
  | '\\' :: r => some ('\\', r)
  | 'u' :: r => readCode 4 r
  | 'U' :: r => readCode 8 r
  | _ => none

/-- What is left behind a line break and all blanks and line breaks that follow it. -/
def skipBreaks (s : List Char) : Option (List Char) := do
  let r ← readBreak (skipBlank s)
  skipEmpty r.length r
where
  /-- What is left behind blanks and line breaks. -/
  skipEmpty : Nat → List Char → Option (List Char)
    | 0, s => some s
    | fuel + 1, s =>
        match readBreak (skipBlank s) with
        | some r => skipEmpty fuel r
        | none => some (skipBlank s)

/-- A text on one line up to its closing quote, with escapes if the quote is a double one. -/
def readLine (quote : Char) (escapes : Bool) : Nat → List Char → List Char →
    Option (List Char × List Char)
  | 0, _, _ => none
  | _, _, [] => none
  | fuel + 1, taken, c :: r =>
      if c = quote then some (taken.reverse, r)
      else if escapes && c = '\\' then do
        let (d, r) ← readEscape r
        readLine quote escapes fuel (d :: taken) r
      else if isPlain c then readLine quote escapes fuel (c :: taken) r
      else none

/-- A text over several lines up to its closing quotes.  One or two quotes belong to the text, also
directly before the closing ones; with escapes, a backslash at the end of a line takes away the
break and the blanks that follow. -/
def readLines (quote : Char) (escapes : Bool) : Nat → List Char → List Char →
    Option (List Char × List Char)
  | 0, _, _ => none
  | _, _, [] => none
  | fuel + 1, taken, c :: r =>
      if c = quote then
        let run := 1 + (r.takeWhile (· = quote)).length
        if run < 3 then readLines quote escapes fuel (c :: taken) r
        else
          let kept := min (run - 3) 2
          some ((List.replicate kept quote ++ taken).reverse, r.drop (kept + 2))
      else if escapes && c = '\\' then
        match skipBreaks r with
        | some r => readLines quote escapes fuel taken r
        | none => do
            let (d, r) ← readEscape r
            readLines quote escapes fuel (d :: taken) r
      else if c = '\n' then readLines quote escapes fuel ('\n' :: taken) r
      else if c = '\r' then do
        readLines quote escapes fuel ('\n' :: taken) (← readBreak (c :: r))
      else if isPlain c then readLines quote escapes fuel (c :: taken) r
      else none

/-- The text behind three quotes; a line break directly behind them does not belong to it. -/
def readBlock (quote : Char) (escapes : Bool) (s : List Char) : Option (String × List Char) :=
  let s := (readBreak s).getD s
  (readLines quote escapes (s.length + 1) [] s).map fun (t, r) => (String.ofList t, r)

/-- The text behind one quote. -/
def readShort (quote : Char) (escapes : Bool) (s : List Char) : Option (String × List Char) :=
  (readLine quote escapes (s.length + 1) [] s).map fun (t, r) => (String.ofList t, r)

/-- A text between quotes of any kind. -/
def readQuoted : List Char → Option (String × List Char)
  | '"' :: '"' :: '"' :: r => readBlock '"' true r
  | '\'' :: '\'' :: '\'' :: r => readBlock '\'' false r
  | '"' :: r => readShort '"' true r
  | '\'' :: r => readShort '\'' false r
  | _ => none

/-! ### Entries -/

/-- The texts of a list from one text on, up to the closing bracket; a comma may stand before
it. -/
def readTexts : Nat → List String → List Char → Option (List String × List Char)
  | 0, _, _ => none
  | fuel + 1, taken, s => do
      let (t, s) ← readQuoted s
      match ← skipLines s.length s with
      | ',' :: s =>
          match ← skipLines s.length s with
          | ']' :: rest => some ((t :: taken).reverse, rest)
          | s => readTexts fuel (t :: taken) s
      | ']' :: rest => some ((t :: taken).reverse, rest)
      | _ => none

/-- A text, or a list of texts between brackets. -/
def readEntry : List Char → Option (Entry × List Char)
  | '[' :: s => do
      match ← skipLines s.length s with
      | ']' :: rest => some (.texts [], rest)
      | s => (readTexts s.length [] s).map fun (ts, rest) => (.texts ts, rest)
  | s => (readQuoted s).map fun (t, rest) => (.text t, rest)

/-- Whether a character may stand in a name without quotes. -/
def isNameChar (c : Char) : Bool := c.isAlphanum || c = '_' || c = '-'

/-- A name: letters, digits, underscores and dashes, or a text between quotes on one line. -/
def readName : List Char → Option (String × List Char)
  | '"' :: r => readShort '"' true r
  | '\'' :: r => readShort '\'' false r
  | s =>
      let name := s.takeWhile isNameChar
      if name.isEmpty then none else some (String.ofList name, s.drop name.length)

/-- The names from here on with their entries; an empty line has none. -/
def readEntries : Nat → List (String × Entry) → List Char → Option (List (String × Entry))
  | 0, _, _ => none
  | fuel + 1, taken, s =>
      match skipBlank s with
      | [] => some taken.reverse
      | '#' :: r => do readEntries fuel taken (← readLineEnd ('#' :: r))
      | '\n' :: r => readEntries fuel taken r
      | '\r' :: r => do readEntries fuel taken (← readBreak ('\r' :: r))
      | s => do
          let (name, s) ← readName s
          match skipBlank s with
          | '=' :: s => do
              let (entry, s) ← readEntry (skipBlank s)
              readEntries fuel ((name, entry) :: taken) (← readLineEnd s)
          | _ => none

/-- The names of a whole text with their entries.  A byte order mark may stand at the front. -/
def read (s : List Char) : Option (List (String × Entry)) :=
  let s := match s with
    | '\ufeff' :: r => r
    | s => s
  readEntries (s.length + 1) [] s

end BoundQuery.Document
