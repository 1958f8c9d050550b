/-
**Reading regular expressions.**

A regular expression is read from the front, with one character of text left over deciding what
comes next.  Where the switch for spacing is on, blanks and comments between the parts do not
count.  The reader keeps the names of the groups it has met, since a name can be given once.

Main definitions:

* `BoundQuery.Pattern.skipIgnored` — what is left behind blanks and comments;
* `BoundQuery.Pattern.readEscape` — the part of an expression behind a backslash;
* `BoundQuery.Pattern.readBracket` — a class between brackets;
* `BoundQuery.Pattern.readBranches` — a whole expression or the inside of a group;
* `BoundQuery.Pattern.readNode` — an expression that is a whole text.
-/

import BoundQuery.Pattern.Syntax
import BoundQuery.Text.CharSet
import BoundQuery.Text.Letter
import BoundQuery.Text.Numeral

set_option relaxedAutoImplicit false
set_option autoImplicit false

namespace BoundQuery.Pattern

/-! ### Blanks and comments -/

/-- What is left of a text behind blanks and comments; a comment ends with its line. -/
def skipComments (inComment : Bool) : List Char → List Char
  | [] => []
  | c :: s =>
      if inComment then skipComments (c ≠ '\n') s
      else if isBlank c then skipComments false s
      else if c = '#' then skipComments true s
      else c :: s

/-- What is left of a text behind what does not count. -/
def skipIgnored (spaced : Bool) (s : List Char) : List Char :=
  if spaced then skipComments false s else s

/-! ### Escapes -/

/-- What a text behind a backslash stands for. -/
inductive Escape where
  | char (c : Char)
  | byte (c : Char)
  | place
  | letter (kind : LetterClass) (negated : Bool)
  | property (p : Property)

/-- The characters that have a meaning of their own. -/
def isMeta (c : Char) : Bool :=
  ['\\', '.', '+', '*', '?', '(', ')', '|', '[', ']', '\x7b', '\x7d', '^', '$', '#', '&', '-',
    '~'].contains c

/-- The characters that stand for themselves behind a backslash: those with a meaning of their own
and every other of ASCII but letters, digits and angle brackets. -/
def isEscapable (c : Char) : Bool :=
  isMeta c || (c.toNat < 0x80 && !c.isAlphanum && c ≠ '<' && c ≠ '>')

/-- The character with a code point, where there is one. -/
def charOfCode? (n : Nat) : Option Char :=
  if n.isValidChar then some (Char.ofNat n) else none

/-- Exactly so many hexadecimal digits, with what does not count between them. -/
def readHexDigits (spaced : Bool) : Nat → List Char → List Char → Option (Nat × List Char)
  | 0, taken, s => (ofHex? taken.reverse).map (·, s)
  | count + 1, taken, s =>
      match skipIgnored spaced s with
      | c :: r => if (hexValue? c).isSome then readHexDigits spaced count (c :: taken) r else none
      | [] => none

/-- A text up to a closing brace, without what does not count.  Every step takes a character, so a
fuel of the length of the text never runs out. -/
def readBraced (spaced : Bool) : Nat → List Char → List Char → Option (List Char × List Char)
  | 0, _, _ => none
  | fuel + 1, taken, s =>
      match skipIgnored spaced s with
      | [] => none
      | '\x7d' :: r => some (taken.reverse, r)
      | c :: r => readBraced spaced fuel (c :: taken) r

/-- A character by its code point: `digits` hexadecimal digits, or any number between braces. -/
def readCode (spaced : Bool) (digits : Nat) (s : List Char) : Option (Escape × List Char) :=
  match skipIgnored spaced s with
  | [] => none
  | '\x7b' :: r => do
      let (ds, r) ← readBraced spaced (r.length + 1) [] r
      if ds.isEmpty then none
      else
        let c ← charOfCode? (← ofHex? ds)
        some (.char c, r)
  | s => do
      let (n, r) ← readHexDigits spaced digits [] s
      let c ← charOfCode? n
      some (if digits = 2 then .byte c else .char c, r)

/-- A property: one letter, or a text between braces. -/
def readProperty (spaced : Bool) (s : List Char) : Option (Escape × List Char) :=
  match skipIgnored spaced s with
  | [] => none
  | '\x7b' :: r =>
      (readBraced spaced (r.length + 1) [] r).map fun (name, r) => (.property (.ofName name), r)
  | c :: r => if c = '\\' then none else some (.property (.named [c]), r)

/-- Letters and dashes, without what does not count between them. -/
def readWord (spaced : Bool) : Nat → List Char → List Char → List Char × List Char
  | 0, taken, s => (taken.reverse, s)
  | fuel + 1, taken, s =>
      match s with
      | c :: r =>
          if c.isAlpha || c = '-' then readWord spaced fuel (c :: taken) (skipIgnored spaced r)
          else (taken.reverse, c :: r)
      | [] => (taken.reverse, [])

/-- The rest of a word boundary: it may say between braces which half of the boundary is meant.
Braces that do not begin like that belong to a repetition. -/
def readBoundary (spaced : Bool) (s : List Char) : Option (List Char) :=
  match s with
  | '\x7b' :: r =>
      match skipIgnored spaced r with
      | [] => none
      | c :: t =>
          if c.isAlpha || c = '-' then
            match readWord spaced (t.length + 1) [] (c :: t) with
            | (word, '\x7d' :: rest) =>
                if ["start", "end", "start-half", "end-half"].contains (String.ofList word) then
                  some rest
                else none
            | _ => none
          else some s
  | s => some s

/-- What a text behind a backslash stands for, and what follows it. -/
def readEscape (spaced : Bool) (s : List Char) : Option (Escape × List Char) :=
  match s with
  | [] => none
  | 'x' :: r => readCode spaced 2 r
  | 'u' :: r => readCode spaced 4 r
  | 'U' :: r => readCode spaced 8 r
  | 'p' :: r => readProperty spaced r
  | 'P' :: r => readProperty spaced r
  | 'd' :: r => some (.letter .digit false, r)
  | 's' :: r => some (.letter .space false, r)
  | 'w' :: r => some (.letter .word false, r)
  | 'D' :: r => some (.letter .digit true, r)
  | 'S' :: r => some (.letter .space true, r)
  | 'W' :: r => some (.letter .word true, r)
  | 'a' :: r => some (.char '\x07', r)
  | 'f' :: r => some (.char '\x0c', r)
  | 't' :: r => some (.char '\t', r)
  | 'n' :: r => some (.char '\n', r)
  | 'r' :: r => some (.char '\r', r)
  | 'v' :: r => some (.char '\x0b', r)
  | 'A' :: r => some (.place, r)
  | 'z' :: r => some (.place, r)
  | 'B' :: r => some (.place, r)
  | '<' :: r => some (.place, r)
  | '>' :: r => some (.place, r)
  | 'b' :: r => (readBoundary spaced r).map (.place, ·)
  | c :: r => if isEscapable c then some (.char c, r) else none

/-! ### Classes between brackets -/

/-- The names of the classes that are written between brackets and colons. -/
def posixNames : List String := [
  "alnum", "alpha", "ascii", "blank", "cntrl", "digit", "graph", "lower", "print", "punct", "space",
  "upper", "word", "xdigit"]

/-- A class by name, its opening bracket already taken: whether it is negated, and what follows. -/
def readPosix : List Char → Option (Bool × List Char)
  | ':' :: r =>
      let (negated, r) := match r with
        | '^' :: r => (true, r)
        | r => (false, r)
      let name := r.takeWhile (· ≠ ':')
      match r.drop name.length with
      | ':' :: ']' :: rest =>
          if posixNames.contains (String.ofList name) then some (negated, rest) else none
      | _ => none
  | _ => none

/-- One item of a class, which is a character unless a backslash says otherwise. -/
def readItem (spaced : Bool) : List Char → Option (Escape × List Char)
  | [] => none
  | '\\' :: r => readEscape spaced r
  | c :: r => some (.char c, r)

/-- The character that an item of a class stands for, where it is one. -/
def Escape.char? : Escape → Option Char
  | char c => some c
  | byte c => some c
  | _ => none

/-- An item of a class as a member; a place in the text is none. -/
def Escape.member? : Escape → Option Members
  | char c => some (.char c)
  | byte c => some (.char c)
  | letter k n => some (.letter k n)
  | property p => some (.property p)
  | place => none

/-- The first character behind a dash that counts.  Of a comment only the mark is skipped. -/
def peekIgnored (spaced : Bool) (s : List Char) : Option Char :=
  if spaced then
    match s.dropWhile isBlank with
    | '#' :: r => (r.dropWhile isBlank).head?
    | r => r.head?
  else s.head?

/-- An item of a class, or a range from one character to another: a dash makes a range unless a
bracket or another dash follows it. -/
def readRange (spaced : Bool) (s : List Char) : Option (Members × List Char) := do
  let (first, r) ← readItem spaced s
  match skipIgnored spaced r with
  | [] => none
  | '-' :: t =>
      if peekIgnored spaced t = some ']' || peekIgnored spaced t = some '-' then
        let m ← first.member?
        some (m, '-' :: t)
      else
        let (last, rest) ← readItem spaced (skipIgnored spaced t)
        let lo ← first.char?
        let hi ← last.char?
        if lo ≤ hi then some (.range lo hi, rest) else none
  | r => do
      let m ← first.member?
      some (m, r)

/-- The dashes at the beginning of a class, which stand for themselves. -/
def readDashes (spaced : Bool) : Nat → List Members → List Char → List Members × List Char
  | 0, items, s => (items, s)
  | fuel + 1, items, s =>
      match s with
      | '-' :: r => readDashes spaced fuel (.char '-' :: items) (skipIgnored spaced r)
      | s => (items, s)

/-- The beginning of a class behind its opening bracket: whether the class is negated, the
dashes and the bracket that stand for themselves in this place, and what follows. -/
def readOpening (spaced : Bool) (s : List Char) : Bool × List Members × List Char :=
  let (negated, s) := match skipIgnored spaced s with
    | '^' :: r => (true, skipIgnored spaced r)
    | s => (false, s)
  let (items, s) := readDashes spaced s.length [] s
  match items, s with
  | [], ']' :: r => (negated, [.char ']'], skipIgnored spaced r)
  | items, s => (negated, items, s)

/-- What a class holds up to here: the items read since the last combination, in reverse, and what
stands left of that combination with it. -/
def membersOf (left : Option (Members × Combination)) (items : List Members) : Members :=
  match left with
  | some (l, how) => .combined how l (.ofItems items.reverse)
  | none => .ofItems items.reverse

/-- What a class holds from here to its closing bracket, and what follows the bracket.  The items
read since the last combination come in reverse, and what stands left of that combination with it.
Every step takes a character, so a fuel of the length of the text never runs out. -/
def readMembers (spaced : Bool) (fuel : Nat) (left : Option (Members × Combination))
    (items : List Members) (s : List Char) : Option (Members × List Char) :=
  match fuel with
  | 0 => none
  | fuel + 1 =>
    match skipIgnored spaced s with
    | [] => none
    | ']' :: r => some (membersOf left items, r)
    | '&' :: '&' :: r =>
        readMembers spaced fuel (some (membersOf left items, .intersection)) [] r
    | '-' :: '-' :: r =>
        readMembers spaced fuel (some (membersOf left items, .difference)) [] r
    | '~' :: '~' :: r =>
        readMembers spaced fuel (some (membersOf left items, .symmetricDifference)) [] r
    | '[' :: r =>
        match readPosix r with
        | some (negated, r) => readMembers spaced fuel left (.posix negated :: items) r
        | none =>
            let (negated, inner, r) := readOpening spaced r
            match readMembers spaced fuel none inner r with
            | some (m, r) => readMembers spaced fuel left (.bracket negated m :: items) r
            | none => none
    | s =>
        match readRange spaced s with
        | some (m, r) => readMembers spaced fuel left (m :: items) r
        | none => none

/-- A class between brackets, its opening bracket already taken. -/
def readBracket (spaced : Bool) (s : List Char) : Option (Node × List Char) :=
  let (negated, items, s) := readOpening spaced s
  (readMembers spaced (s.length + 1) none items s).map fun (m, r) => (.bracket negated m, r)

/-! ### Repetitions -/

/-- The digits of a number and what follows them; what does not count may stand between digits,
and blanks around them never count. -/
def readCountDigits (spaced : Bool) : Nat → List Char → List Char → List Char × List Char
  | 0, taken, s => (taken.reverse, s)
  | fuel + 1, taken, s =>
      match s with
      | c :: r =>
          if c.isDigit then readCountDigits spaced fuel (c :: taken) (skipIgnored spaced r)
          else (taken.reverse, c :: r)
      | [] => (taken.reverse, [])

/-- What is left behind blanks and, behind each of these, what does not count. -/
def skipBlanks (spaced : Bool) : Nat → List Char → List Char
  | 0, s => s
  | fuel + 1, s =>
      match s with
      | c :: r => if isBlank c then skipBlanks spaced fuel (skipIgnored spaced r) else c :: r
      | [] => []

/-- A number of repetitions of at most 32 bits, and what follows it. -/
def readCount (spaced : Bool) (s : List Char) : Option (Nat × List Char) :=
  let s := s.dropWhile isBlank
  let (ds, r) := readCountDigits spaced s.length [] s
  if ds.isEmpty || UInt32.size ≤ ofDigits ds then none
  else some (ofDigits ds, skipBlanks spaced r.length r)

/-- What is left of a text without a question mark at its front. -/
def dropLazy : List Char → List Char
  | '?' :: r => r
  | s => s

/-- The bounds of a repetition, its opening brace already taken, and what follows the closing
one. -/
def readBounds (spaced : Bool) (s : List Char) : Option (Nat × Option Nat × List Char) := do
  let (least, s) ← readCount spaced (skipIgnored spaced s)
  match s with
  | '\x7d' :: r => some (least, some least, dropLazy (skipIgnored spaced r))
  | ',' :: r =>
      match skipIgnored spaced r with
      | '\x7d' :: r => some (least, none, dropLazy (skipIgnored spaced r))
      | r => do
          let (most, s) ← readCount spaced r
          match s with
          | '\x7d' :: r =>
              if least ≤ most then some (least, some most, dropLazy (skipIgnored spaced r))
              else none
          | _ => none
  | _ => none

/-- The last item, repeated. -/
def repeatLast (least : Nat) (most : Option Nat) : List Node → Option (List Node)
  | n :: ns => if n.isRepeatable then some (.repetition least most n :: ns) else none
  | [] => none

/-! ### Groups -/

/-- Switches up to a colon or a closing parenthesis, both left over: whether a dash was met, the
letters so far before and behind it, and whether the last character was that dash. -/
def readFlags (negated dangling : Bool) (change : FlagChange) :
    List Char → Option (FlagChange × List Char)
  | [] => none
  | c :: s =>
      if c = ':' || c = ')' then if dangling then none else some (change, c :: s)
      else if c = '-' then if negated then none else readFlags true true change s
      else do
        let f ← Flag.ofLetter? c
        if change.on.contains f || change.off.contains f then none
        else if negated then readFlags true false { change with off := f :: change.off } s
        else readFlags false false { change with on := f :: change.on } s

/-- Whether a character may stand in the name of a group, at its beginning or behind that. -/
def isNameChar (first : Bool) (c : Char) : Bool :=
  if first then c = '_' || isLetter c
  else c = '_' || c = '.' || c = '[' || c = ']' || isLetter c || isNumeral c

/-- The name of a group up to its closing bracket, and what follows that. -/
def readName (s : List Char) : Option (List Char × List Char) :=
  let name := s.takeWhile (· ≠ '>')
  match name, s.drop name.length with
  | c :: cs, '>' :: rest =>
      if isNameChar true c && cs.all (isNameChar false) then some (name, rest) else none
  | _, _ => none

/-- How a parenthesis opens. -/
inductive Opening where
  /-- It only sets switches and is closed at once. -/
  | flags (change : FlagChange)
  | group (change : FlagChange)
  | capture (name : Option (List Char))

/-- How a parenthesis opens, itself already taken, and what follows. -/
def readParenthesis (spaced : Bool) (s : List Char) : Option (Opening × List Char) :=
  match skipIgnored spaced s with
  | '?' :: 'P' :: '<' :: r => (readName r).map fun (name, r) => (.capture (some name), r)
  | '?' :: '<' :: '=' :: _ => none
  | '?' :: '<' :: '!' :: _ => none
  | '?' :: '<' :: r => (readName r).map fun (name, r) => (.capture (some name), r)
  | '?' :: '=' :: _ => none
  | '?' :: '!' :: _ => none
  | '?' :: r =>
      match readFlags false false ⟨[], []⟩ r with
      | some (change, ':' :: r) => some (.group change, r)
      | some (change, ')' :: r) =>
          if change.on.isEmpty && change.off.isEmpty then none else some (.flags change, r)
      | _ => none
  | r => some (.capture none, r)

/-! ### Whole expressions -/

/-- An escape as a regular expression. -/
def Escape.node : Escape → Node
  | char c => .char c
  | byte c => .byte c
  | place => .place
  | letter k n => .letter k n
  | property p => .property p

/-- The branches up to here and the items of the last one, both in reverse, as an expression. -/
def nodeOf (branches items : List Node) : Node :=
  .ofBranches (Node.ofItems items.reverse :: branches).reverse

/-- The rest of an expression, or of the inside of a group up to its closing parenthesis: the
expression, the names of groups met so far, and what follows.  The branches so far and the items
of the last one come in reverse.  Every step takes a character, so a fuel of the length of the
text never runs out. -/
def readBranches (fuel : Nat) (inGroup spaced : Bool) (names : List (List Char))
    (branches items : List Node) (s : List Char) : Option (Node × List (List Char) × List Char) :=
  match fuel with
  | 0 => none
  | fuel + 1 =>
    match skipIgnored spaced s with
    | [] => if inGroup then none else some (nodeOf branches items, names, [])
    | ')' :: r => if inGroup then some (nodeOf branches items, names, r) else none
    | '|' :: r =>
        readBranches fuel inGroup spaced names (Node.ofItems items.reverse :: branches) [] r
    | '(' :: r => do
        let (opening, r) ← readParenthesis spaced r
        match opening with
        | .flags change =>
            readBranches fuel inGroup (change.apply .spaced spaced) names branches
              (.flags change :: items) r
        | .group change =>
            let (n, names, r) ←
              readBranches fuel true (change.apply .spaced spaced) names [] [] r
            readBranches fuel inGroup spaced names branches (.group change n :: items) r
        | .capture name =>
            if name.any names.contains then none
            else
              let (n, names, r) ← readBranches fuel true spaced (name.toList ++ names) [] [] r
              readBranches fuel inGroup spaced names branches (.capture n :: items) r
    | '[' :: r => do
        let (n, r) ← readBracket spaced r
        readBranches fuel inGroup spaced names branches (n :: items) r
    | '?' :: r => do
        readBranches fuel inGroup spaced names branches (← repeatLast 0 (some 1) items) (dropLazy r)
    | '*' :: r => do
        readBranches fuel inGroup spaced names branches (← repeatLast 0 none items) (dropLazy r)
    | '+' :: r => do
        readBranches fuel inGroup spaced names branches (← repeatLast 1 none items) (dropLazy r)
    | '\x7b' :: r => do
        let (least, most, r) ← readBounds spaced r
        readBranches fuel inGroup spaced names branches (← repeatLast least most items) r
    | '\\' :: r => do
        let (e, r) ← readEscape spaced r
        readBranches fuel inGroup spaced names branches (e.node :: items) r
    | '.' :: r => readBranches fuel inGroup spaced names branches (.dot :: items) r
    | '^' :: r => readBranches fuel inGroup spaced names branches (.place :: items) r
    | '$' :: r => readBranches fuel inGroup spaced names branches (.place :: items) r
    | c :: r => readBranches fuel inGroup spaced names branches (.char c :: items) r

/-- The regular expression that is a whole text. -/
def readNode (s : List Char) : Option Node :=
  (readBranches (s.length + 1) false false [] [] [] s).map (·.1)

end BoundQuery.Pattern
