/-
**What a regular expression may ask for.**

Not every expression that can be read can be matched: its parts may not be nested too deep, its
properties must exist, the machine that matches it may not be too large, and without the Unicode
switch it may not match half a character.

Which texts are accepted is up to the library that matches expressions.  The reader of this
development stands in for it: it follows the syntax of that library, but the sizes of machines are
approximations, which may differ where a class of many characters is repeated many times.  No
theorem turns on them.  Theorems on patterns ask of an accepted text no more than that it is
accepted; only `BoundQuery.Pattern.endsUnpaired_of_isAdmissible` uses how it is read.

Main definitions:

* `BoundQuery.Pattern.Node.depth` — how deep the parts are nested;
* `BoundQuery.Pattern.Node.fits` — every part has a meaning under the switches it stands under;
* `BoundQuery.Pattern.Node.size` — about the size of a machine that matches the expression;
* `BoundQuery.Pattern.isAdmissible` — a text is a regular expression that can be matched.
-/

import BoundQuery.Pattern.Reader

set_option relaxedAutoImplicit false
set_option autoImplicit false

namespace BoundQuery.Pattern

/-! ### Nesting -/

namespace Members

mutual

/-- How deep the members of a class are nested. -/
def depth : Members → Nat
  | bracket _ m => m.depth + 1
  | union ms => depthOfAll ms + 1
  | combined _ l r => max l.depth r.depth + 1
  | _ => 0

/-- The greatest depth in a list of members. -/
def depthOfAll : List Members → Nat
  | [] => 0
  | m :: ms => max m.depth (depthOfAll ms)

end

end Members

namespace Node

mutual

/-- How deep the parts of an expression are nested. -/
def depth : Node → Nat
  | bracket _ m => m.depth + 1
  | repetition _ _ n => n.depth + 1
  | group _ n => n.depth + 1
  | capture n => n.depth + 1
  | concat ns => depthOfAll ns + 1
  | alternation ns => depthOfAll ns + 1
  | _ => 0

/-- The greatest depth in a list of expressions. -/
def depthOfAll : List Node → Nat
  | [] => 0
  | n :: ns => max n.depth (depthOfAll ns)

end

end Node

/-! ### Whole characters -/

namespace Members

mutual

/-- Every member has a meaning.  Without the Unicode switch a class holds bytes, and only those of
ASCII are whole characters: its members must be in ASCII, and it cannot be negated. -/
def fits (unicode : Bool) : Members → Bool
  | nothing => true
  | char c => unicode || c.toNat < 0x80
  | range _ last => unicode || last.toNat < 0x80
  | posix negated => unicode || !negated
  | letter _ negated => unicode || !negated
  | property p => unicode && p.known
  | bracket negated m => (unicode || !negated) && m.fits unicode
  | union ms => allFit unicode ms
  | combined _ l r => l.fits unicode && r.fits unicode

/-- Every member of a list has a meaning. -/
def allFit (unicode : Bool) : List Members → Bool
  | [] => true
  | m :: ms => m.fits unicode && allFit unicode ms

end

end Members

namespace Node

mutual

/-- Every part has a meaning under the state of the Unicode switch that it stands under; also the
state of the switch behind the expression.  A change holds up to the end of the group that it
stands in. -/
def fits (unicode : Bool) : Node → Bool × Bool
  | empty => (true, unicode)
  | flags change => (true, change.apply .unicode unicode)
  | char _ => (true, unicode)
  | byte c => (unicode || c.toNat < 0x80, unicode)
  | dot => (unicode, unicode)
  | place => (true, unicode)
  | letter _ negated => (unicode || !negated, unicode)
  | property p => (unicode && p.known, unicode)
  | bracket negated m => ((unicode || !negated) && m.fits unicode, unicode)
  | repetition _ _ n => n.fits unicode
  | group change n => ((n.fits (change.apply .unicode unicode)).1, unicode)
  | capture n => ((n.fits unicode).1, unicode)
  | concat ns => allFit unicode ns
  | alternation ns => allFit unicode ns

/-- Every expression of a list has a meaning, one behind the other. -/
def allFit (unicode : Bool) : List Node → Bool × Bool
  | [] => (true, unicode)
  | n :: ns =>
      let (ok, unicode) := n.fits unicode
      let (rest, unicode) := allFit unicode ns
      (ok && rest, unicode)

end

end Node

/-! ### Size -/

/-- The size of one state of a machine, in bytes. -/
def stateSize : Nat := 32

/-- About the size of the states for one character of a class that is not of ASCII alone. -/
def LetterClass.size : LetterClass → Nat
  | .digit => 8000
  | .space => 800
  | .word => 60000

namespace Members

mutual

/-- About the size of the states for the members of a class. -/
def size : Members → Nat
  | nothing => 0
  | char c => stateSize * c.utf8Size / 2
  | range _ last => stateSize * last.utf8Size / 2
  | posix negated => if negated then 500 else stateSize
  | letter k _ => k.size
  | property _ => 12000
  | bracket negated m => if negated then m.size + 500 else m.size
  | union ms => sizeOfAll ms
  | combined _ l r => max l.size r.size

/-- The sum of the sizes of members. -/
def sizeOfAll : List Members → Nat
  | [] => 0
  | m :: ms => m.size + sizeOfAll ms

end

end Members

namespace Node

mutual

/-- Whether the expression only matches the empty text. -/
def isBlank : Node → Bool
  | empty => true
  | flags _ => true
  | place => true
  | repetition _ most n => most = some 0 || n.isBlank
  | group _ n => n.isBlank
  | capture n => n.isBlank
  | concat ns => allBlank ns
  | alternation ns => allBlank ns
  | _ => false

/-- Whether every expression of a list only matches the empty text. -/
def allBlank : List Node → Bool
  | [] => true
  | n :: ns => n.isBlank && allBlank ns

end

mutual

/-- About the size of a machine that matches the expression.  A repetition has a copy of its
expression for every time that it may be matched. -/
def size : Node → Nat
  | empty => 0
  | flags _ => 0
  | char c => stateSize * c.utf8Size
  | byte c => stateSize * c.utf8Size
  | dot => 500
  | place => stateSize
  | letter k _ => k.size
  | property _ => 12000
  | bracket negated m => max stateSize (if negated then m.size + 500 else m.size)
  | repetition least most n =>
      let bound := max 1 (most.getD least)
      let copies := if n.isBlank then 1 else bound
      if most = some 0 then 0
      else n.size * copies + (if least = bound then 0 else 40 * (copies - least + 1))
  | group _ n => n.size
  | capture n => n.size + 2 * stateSize
  | concat ns => sizeOfAll ns
  | alternation ns => sizeOfAll ns + stateSize + 4 * ns.length

/-- The sum of the sizes of expressions. -/
def sizeOfAll : List Node → Nat
  | [] => 0
  | n :: ns => n.size + sizeOfAll ns

end

end Node

/-! ### Admissible expressions -/

/-- How deep the parts of an expression may be nested. -/
def maxDepth : Nat := 250

/-- How large the machine that matches an expression may be, in the bytes that `Node.size`
estimates. -/
def maxSize : Nat := 10 * 1024 * 1024

/-- A text is a regular expression that can be matched, as far as sizes of machines are known. -/
def isAdmissible (s : List Char) : Bool :=
  match readNode s with
  | some n => n.depth ≤ maxDepth && (n.fits true).1 && n.size ≤ maxSize
  | none => false

end BoundQuery.Pattern
