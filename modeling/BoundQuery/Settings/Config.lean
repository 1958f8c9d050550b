/-
**Settings from a configuration.**

A configuration gives the policy, the present and the packages to import, each of them only if it
wants to.  A text that is no configuration is refused as a whole; a configuration with a present
or a package that cannot be taken over is refused for that.

Main definitions:

* `BoundQuery.Config`, `BoundQuery.Config.ofText` — a configuration, and the one that a text
  spells;
* `BoundQuery.Config.settings` — the settings of a configuration;
* `BoundQuery.Settings.ofText`, `BoundQuery.Settings.ofFile` — the settings of a text and of a
  file that may not exist.
-/

import BoundQuery.Settings.Basic
import BoundQuery.Settings.Document
import BoundQuery.Time.Reader

set_option relaxedAutoImplicit false
set_option autoImplicit false

namespace BoundQuery

/-- What a configuration gives. -/
structure Config where
  policy : Policy
  now : Option Instant
  imports : List String
deriving DecidableEq

namespace Config

open Document (Entry)

/-- The policy that an entry gives: a word or a list of kinds. -/
def policyOf? : Entry → Option Policy
  | .text s => Policy.ofWord? s
  | .texts ss => (ss.mapM Kind.ofName?).map Policy.ofKinds

/-- The instant that an entry gives. -/
def instantOf? : Entry → Option Instant
  | .text s => Instant.readLenient s.toList
  | .texts _ => none

/-- The paths that an entry gives. -/
def pathsOf? : Entry → Option (List String)
  | .text _ => none
  | .texts ss => some ss

/-- The names that a configuration may give. -/
def names : List String := ["parameterize", "now", "imports"]

/-- The configuration of names with entries: no other names, and none twice. -/
def ofEntries? (entries : List (String × Entry)) : Option Config :=
  let given := entries.map (·.1)
  if given.all names.contains && decide given.Nodup then do
    let policy ← match entries.lookup "parameterize" with
      | some e => policyOf? e
      | none => some .all
    let now ← match entries.lookup "now" with
      | some e => (instantOf? e).map some
      | none => some none
    let imports ← match entries.lookup "imports" with
      | some e => pathsOf? e
      | none => some []
    some ⟨policy, now, imports⟩
  else none

/-- The configuration that a text spells. -/
def ofText (s : String) : Except Error Config :=
  match (Document.read s.toList).bind ofEntries? with
  | some c => .ok c
  | none => .error .configuration

/-- Imports the packages with these paths. -/
def importPaths (s : Settings) : List String → Except Error Settings
  | [] => .ok s
  | path :: paths =>
      match Package.ofPath path with
      | .ok p => importPaths (s.addImport p) paths
      | .error _ => .error (.configuredImport path)

/-- The settings of a configuration. -/
def settings (c : Config) : Except Error Settings := do
  let s := Settings.ofPolicy c.policy
  let s ← match c.now with
    | some t => s.fixNow t
    | none => .ok s
  importPaths s c.imports

end Config

namespace Settings

/-- The settings of a configuration text. -/
def ofText (s : String) : Except Error Settings := do (← Config.ofText s).settings

/-- The settings of a configuration file with the given contents, if it exists. -/
def ofFile : Option String → Except Error Settings
  | some s => ofText s
  | none => .error .file

end Settings

end BoundQuery
