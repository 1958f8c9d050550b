/-
**The shape of a regular expression.**

A regular expression is a tree of characters, classes of characters, places in the text,
repetitions, groups and alternatives.  Its switches change how what follows them, up to the end of
the group they stand in, is read and matched.

Main definitions:

* `BoundQuery.Pattern.Flag`, `BoundQuery.Pattern.FlagChange` — switches, and how they are set;
* `BoundQuery.Pattern.Members` — what a class between brackets holds;
* `BoundQuery.Pattern.Node` — a regular expression;
* `BoundQuery.Pattern.Members.ofItems`, `BoundQuery.Pattern.Node.ofItems`,
  `BoundQuery.Pattern.Node.ofBranches` — one item alone needs no node around it.
-/

import BoundQuery.Pattern.Property

set_option relaxedAutoImplicit false
set_option autoImplicit false

namespace BoundQuery.Pattern

/-- A switch of a regular expression. -/
inductive Flag where
  | ignoreCase | multiLine | dotAll | swapGreed | unicode | lineEnds | spaced
deriving DecidableEq

/-- The switch that a letter names. -/
def Flag.ofLetter? : Char → Option Flag
  | 'i' => some ignoreCase
  | 'm' => some multiLine
  | 's' => some dotAll
  | 'U' => some swapGreed
  | 'u' => some unicode
  | 'R' => some lineEnds
  | 'x' => some spaced
  | _ => none

/-- Switches to turn on and switches to turn off. -/
structure FlagChange where
  on : List Flag
  off : List Flag

/-- What a change leaves of a switch. -/
def FlagChange.apply (change : FlagChange) (f : Flag) (state : Bool) : Bool :=
  if change.on.contains f then true else if change.off.contains f then false else state

/-- A class of characters with a letter of its own. -/
inductive LetterClass where
  | digit | space | word
deriving DecidableEq

/-- How two classes are combined. -/
inductive Combination where
  | intersection | difference | symmetricDifference
deriving DecidableEq

/-- What a class between brackets holds. -/
inductive Members where
  | nothing
  | char (c : Char)
  | range (first last : Char)
  | posix (negated : Bool)
  | letter (kind : LetterClass) (negated : Bool)
  | property (p : Property)
  | bracket (negated : Bool) (members : Members)
  | union (items : List Members)
  | combined (how : Combination) (left right : Members)

/-- The members of a list of items. -/
def Members.ofItems : List Members → Members
  | [] => nothing
  | [m] => m
  | ms => union ms

/-- A regular expression. -/
inductive Node where
  | empty
  | flags (change : FlagChange)
  | char (c : Char)
  /-- A character written as two hexadecimal digits, which without the Unicode switch is a byte. -/
  | byte (c : Char)
  | dot
  /-- A place in the text. -/
  | place
  | letter (kind : LetterClass) (negated : Bool)
  | property (p : Property)
  | bracket (negated : Bool) (members : Members)
  | repetition (least : Nat) (most : Option Nat) (node : Node)
  | group (change : FlagChange) (node : Node)
  | capture (node : Node)
  | concat (items : List Node)
  | alternation (branches : List Node)

namespace Node

/-- Items one after the other. -/
def ofItems : List Node → Node
  | [] => empty
  | [n] => n
  | ns => concat ns

/-- Branches of which one is taken. -/
def ofBranches : List Node → Node
  | [n] => n
  | ns => alternation ns

/-- Whether an item can be repeated. -/
def isRepeatable : Node → Bool
  | empty => false
  | flags _ => false
  | _ => true

end Node

end BoundQuery.Pattern
