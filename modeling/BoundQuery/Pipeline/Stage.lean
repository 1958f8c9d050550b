/-
**Stages of a pipeline.**

A pipeline begins with a source, if it has one, and every other stage follows on a line of its own
behind a pipe.  A stage that fails leaves nothing behind.

Main definitions:

* `BoundQuery.Window`, `BoundQuery.AggregateWindow` — what may be said of windows;
* `BoundQuery.Change` — a change of the settings;
* `BoundQuery.Stage` — a stage;
* `BoundQuery.Stage.form`, `BoundQuery.Session.add` — how a stage is written, and a session with
  one more stage.
-/

import BoundQuery.Pipeline.Call
import BoundQuery.Predicate.Basic
import BoundQuery.Text.CharSet

set_option relaxedAutoImplicit false
set_option autoImplicit false

namespace BoundQuery

/-! ### Windows -/

/-- What may be said of windows of time. -/
structure Window where
  period : Option Duration
  offset : Option Duration
  location : Option Location
  timeColumn : Option String
  startColumn : Option String
  stopColumn : Option String
  createEmpty : Bool
deriving DecidableEq

/-- What may be said of windows of time over which rows are aggregated. -/
structure AggregateWindow where
  period : Option Duration
  offset : Option Duration
  location : Option Location
  column : Option String
  timeSource : Option String
  timeTarget : Option String
  createEmpty : Bool
deriving DecidableEq

namespace Argument

/-- A duration that may be absent. -/
def ofDuration? (name : String) (d : Option Duration) : List (String × Argument) :=
  ofValue? name (d.map .duration)

/-- A text that may be absent. -/
def ofText? (name : String) (s : Option String) : List (String × Argument) :=
  ofValue? name (s.map .text)

/-- A time zone that may be absent. -/
def ofLocation? (l : Option Location) : List (String × Argument) :=
  l.toList.map fun l => ("location", location l)

end Argument

/-- The arguments of windows; that empty ones are not made is understood. -/
def Window.arguments (every : Duration) (w : Window) : List (String × Argument) :=
  [("every", .value (.duration every))] ++ Argument.ofDuration? "period" w.period ++
    Argument.ofDuration? "offset" w.offset ++ Argument.ofLocation? w.location ++
    Argument.ofText? "timeColumn" w.timeColumn ++ Argument.ofText? "startColumn" w.startColumn ++
    Argument.ofText? "stopColumn" w.stopColumn ++
    if w.createEmpty then [("createEmpty", .value (.boolean true))] else []

/-- The arguments of windows with a function; that empty ones are made is understood. -/
def AggregateWindow.arguments (function : Identifier) (every : Duration) (w : AggregateWindow) :
    List (String × Argument) :=
  [("every", .value (.duration every)), ("fn", .name function.name)] ++
    Argument.ofDuration? "period" w.period ++ Argument.ofDuration? "offset" w.offset ++
    Argument.ofLocation? w.location ++ Argument.ofText? "column" w.column ++
    Argument.ofText? "timeSrc" w.timeSource ++ Argument.ofText? "timeDst" w.timeTarget ++
    if w.createEmpty then [] else [("createEmpty", .value (.boolean false))]

/-! ### Changes of the settings -/

/-- A change of the settings. -/
inductive Change where
  | fixNow (t : Instant)
  | require (path : String)
  | requireAll (paths : List String)
deriving DecidableEq

/-- The settings after a change; of several packages either all are imported or none. -/
def Settings.change (s : Settings) : Change → Except Error Settings
  | .fixNow t => s.fixNow t
  | .require path => (Package.ofPath path).map s.addImport
  | .requireAll paths => (paths.mapM Package.ofPath).map s.addImports

/-! ### Stages -/

/-- A stage of a pipeline. -/
inductive Stage where
  | source (bucket : String)
  | templateSource (t : Template)
  | scriptSource (s : Script)
  | range (start : Bound) (stop : Option Bound)
  | filter (p : Predicate)
  | aggregate (function : Identifier) (column : Option String)
  | movingAverage (points : UInt32)
  | timedMovingAverage (every period : Duration) (column : Option String)
  | window (every : Duration) (w : Window)
  | aggregateWindow (function : Identifier) (every : Duration) (w : AggregateWindow)
  | yield (name : Option String)
  | configure (changes : List Change)

namespace Stage

/-- How a stage becomes part of a pipeline. -/
inductive Form where
  /-- It comes first; `argument` is what is to blame if it does not. -/
  | source (argument : String) (block : Block)
  /-- It follows behind a pipe. -/
  | piped (block : Block)
  /-- It changes the settings and writes nothing. -/
  | silent (changes : List Change)

/-- How a range is written. -/
def rangeBlock (start : Bound) (stop : Option Bound) : Block :=
  .write "range(start: ".toList :: start.block "range_start" ++
    (stop.toList.flatMap fun b => .write ", stop: ".toList :: b.block "range_stop") ++
    [.write [')']]

/-- A name that is not blank. -/
def visibleName (name : Option String) : Option String :=
  name.filter fun s => !s.toList.all isBlank

/-- How a stage is written. -/
def form : Stage → Form
  | source bucket =>
      .source "bucket" [
        .write "from(bucket: ".toList, .place "from_bucket" (.text bucket), .write [')']]
  | templateSource t => .source "template" (t.block "fromCustomFlux")
  | scriptSource s => .source "flux" s.block
  | range start stop => .piped (rangeBlock start stop)
  | filter p =>
      .piped (.write "filter(fn: (r) => ".toList :: p.plan.flatten ++ [.write [')']])
  | aggregate f column => .piped (callBlock f.name (Argument.ofText? "column" column))
  | movingAverage n =>
      .piped (if n = 0 then [.fail (.argument "n" .noPoints)]
        else callBlock "movingAverage" [("n", .value (.integer (Int64.ofNat n.toNat)))])
  | timedMovingAverage every period column =>
      .piped (callBlock "timedMovingAverage"
        ([("every", .value (.duration every)), ("period", .value (.duration period))] ++
          Argument.ofText? "column" column))
  | window every w => .piped (callBlock "window" (w.arguments every))
  | aggregateWindow f every w => .piped (callBlock "aggregateWindow" (w.arguments f every))
  | yield name => .piped (callBlock "yield" (Argument.ofText? "name" (visibleName name)))
  | configure changes => .silent changes

end Stage

/-! ### Sessions with stages -/

namespace Session

/-- The session after actions none of which fails. -/
def complete (s : Session) (b : Block) : Except Error Session :=
  match s.perform b with
  | (s, none) => .ok s
  | (_, some e) => .error e

/-- Whether nothing is written yet. -/
def isEmpty (s : Session) : Bool := s.text.isEmpty

/-- What stands before a stage that follows: a line break, unless nothing is written yet, and a
pipe. -/
def pipe (s : Session) : List Char :=
  if s.isEmpty then "  |> ".toList else "\n  |> ".toList

/-- The session after changes of its settings none of which fails. -/
def changed (s : Session) (changes : List Change) : Except Error Session :=
  (changes.foldlM Settings.change s.settings).map fun settings => { s with settings := settings }

/-- The session with a stage of the given form. -/
def addForm (s : Session) : Stage.Form → Except Error Session
  | .source argument b =>
      if s.isEmpty then s.complete b else .error (.argument argument .sourceNotFirst)
  | .piped b => s.complete (.write s.pipe :: b)
  | .silent changes => s.changed changes

/-- The session with one more stage. -/
def add (s : Session) (stage : Stage) : Except Error Session := s.addForm stage.form

end Session

end BoundQuery
