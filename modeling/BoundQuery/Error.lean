/-
**Why a query cannot be built.**

An error says which argument is wrong and for what reason; the reasons are causes, and their
wording is in one place.  An argument may be renamed on the way out, since a value that is bound
under a label is reported under that label.

Main definitions:

* `BoundQuery.Reason`, `BoundQuery.Reason.message` — a cause, and its wording;
* `BoundQuery.Error`, `BoundQuery.Error.message` — an error, and its wording;
* `BoundQuery.Error.stated` — the same error, as a script gives it;
* `BoundQuery.Error.renamed` — the same error, reported under another name.
-/

import BoundQuery.Duration.TimeUnit
import BoundQuery.Text.Inspected
import BoundQuery.Time.Instant

set_option relaxedAutoImplicit false
set_option autoImplicit false

namespace BoundQuery

/-- Why an argument is refused. -/
inductive Reason where
  /-- There is no value. -/
  | absent
  /-- A text is no identifier. -/
  | notIdentifier (text : String)
  /-- An identifier is a word of the query language. -/
  | reservedWord (text : String)
  /-- A text is no path of a package. -/
  | notPackagePath (text : String)
  /-- An instant does not fit 64 bits of nanoseconds. -/
  | outsideRange (t : Instant)
  /-- An amount of a unit does not fit 63 bits. -/
  | tooMuch (u : TimeUnit)
  /-- A count of nanoseconds has too many days. -/
  | tooLong (nanos : Int)
  /-- A unit of the calendar has no fixed length. -/
  | calendarUnit (u : TimeUnit)
  /-- A text is no regular expression. -/
  | notPattern
  /-- The present can be fixed only once. -/
  | alreadyFixed
  /-- A brace of a template is neither doubled nor part of a placeholder. -/
  | loneBrace (brace : Char) (position : Nat)
  /-- A placeholder of a template has no argument; the first placeholder is number one. -/
  | noArgument (placeholder : Nat)
  /-- A template has more arguments than placeholders. -/
  | surplusArguments (placeholders arguments : Nat)
  /-- A template refers to an argument that it does not have. -/
  | missingArgument (index : Nat)
  /-- A group of conditions is empty. -/
  | emptyGroup
  /-- A source comes after another stage. -/
  | sourceNotFirst
  /-- An average is taken over no points. -/
  | noPoints
  /-- A script gives its own reason. -/
  | stated (message : String)
deriving DecidableEq

namespace Reason

/-- The wording of a reason. -/
def message : Reason → String
  | absent => "Cannot convert a null value to Flux."
  | notIdentifier s => "'" ++ s ++ "' is not a valid Flux identifier"
  | reservedWord s => "'" ++ s ++ "' is a reserved word"
  | notPackagePath s => "'" ++ s ++ "' is not a valid package path"
  | outsideRange t =>
      String.ofList t.text ++ " is outside the Flux time range (1677-09-21 to 2262-04-11)"
  | tooMuch u => "magnitude of '" ++ u.suffix ++ "' exceeds 9223372036854775807"
  | tooLong n => String.ofList (signed n) ++ "ns is too long for Flux"
  | calendarUnit u => "'" ++ u.suffix ++ "' is a calendar unit with no fixed length"
  | notPattern => "not a regular expression"
  | alreadyFixed => "The 'now' option is already set."
  | loneBrace c n =>
      "unmatched '" ++ String.singleton c ++ "' at position " ++ String.ofList (decimal n)
  | noArgument k => "placeholder " ++ String.ofList (decimal k) ++ " has no argument"
  | surplusArguments p a =>
      String.ofList (decimal p) ++ " placeholders but " ++ String.ofList (decimal a)
        ++ " arguments"
  | missingArgument i => "missing argument " ++ String.ofList (decimal i)
  | emptyGroup => "No filtering condition has been provided."
  | sourceNotFirst => "A source must be the first stage of the query."
  | noPoints => "The moving average needs at least one point."
  | stated m => m

end Reason

/-- Why a value, a text or a call is refused. -/
inductive Error where
  /-- An argument has no acceptable value. -/
  | argument (name : String) (reason : Reason)
  /-- A value has a shape that no kind of value has. -/
  | unsupported (shape : String)
  /-- A text is no literal; what is left from the place of failure on, and that place in bytes. -/
  | unreadable (position : Nat) (found : List Char)
  /-- A configuration text is not of the form of a configuration. -/
  | configuration
  /-- A configuration names a package that cannot be imported. -/
  | configuredImport (path : String)
  /-- A file cannot be read. -/
  | file
  /-- A stored text is not of the form asked for. -/
  | stored
deriving DecidableEq

namespace Error

/-- The wording for an argument that is refused. -/
def argumentMessage (name : String) (reason : Reason) : String :=
  "Invalid argument '" ++ name ++ "': " ++ reason.message

/-- The wording of an error. -/
def message : Error → String
  | argument name reason => argumentMessage name reason
  | unsupported shape => "Unsupported value kind: " ++ shape
  | unreadable position found =>
      "Parse error at position " ++ String.ofList (decimal position)
        ++ ": cannot read a Flux literal at " ++ String.ofList (inspect (found.take 16))
  | configuration => "Configuration error: not a configuration"
  | configuredImport path =>
      "Configuration error: imports: " ++ argumentMessage "package" (.notPackagePath path)
  | file => "IO error: the file cannot be read"
  | stored => "JSON error: not the stored form of the type"

/-- The error as a script gives it, which knows the reason of an argument by its wording only. -/
def stated : Error → Error
  | argument name reason => argument name (.stated reason.message)
  | e => e

theorem message_stated (e : Error) : e.stated.message = e.message := by cases e <;> rfl

/-- The same error, with an argument reported under another name. -/
def renamed (name : String) : Error → Error
  | argument _ reason => argument name reason
  | e => e

end Error

/-- An instant that the query language can hold. -/
def Instant.checked (t : Instant) : Except Error Instant :=
  if t.InRange then .ok t else .error (.argument "value" (.outsideRange t))

end BoundQuery
