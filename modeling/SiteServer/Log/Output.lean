import SiteServer.Files.Tree
import SiteServer.Log.Filter
import SiteServer.Log.Line

/-!
# Where the log goes

The log is written to the console, to a file, to both or to neither.  A level
from the settings sets the filter, unless the environment brings a filter of its
own.  The file is opened for appending before anything is written; if it cannot
be opened there is no log at all.
-/

namespace SiteServer.Log

/-- The names of levels that settings may use. -/
def levelNames : List String := ["trace", "debug", "info", "warn", "error", "critical"]

/-- The directive for a level from the settings, in any case.  Critical events
are errors, and a name that is not a level stands for `info`. -/
def directiveFor (level : String) : String :=
  match Text.lowercase level with
  | "trace" => "trace"
  | "debug" => "debug"
  | "info" => "info"
  | "warn" => "warn"
  | "error" => "error"
  | "critical" => "error"
  | _ => "info"

/-- Where the log goes, and from which level on. -/
structure Destination where
  level : String := "debug"
  console : Bool := true
  file : Option String := none
deriving DecidableEq, Repr

/-- The log file cannot be opened. -/
structure OpenError where
  path : String
  why : Files.Fault
deriving DecidableEq, Repr

/-- What is reported of a log file that cannot be opened. -/
def OpenError.message (e : OpenError) : String :=
  "failed to open log file " ++ e.path

/-- The variable of the environment that may bring a filter. -/
def filterName : String := "RUST_LOG"

/-- The filter of a destination: the one that the environment brings if it can be
read, else the one for the level. -/
def Destination.filter (d : Destination) (fromEnvironment : Option String) : Filter :=
  ((fromEnvironment.bind fun text => Filter.parse? text.toList).orElse fun _ =>
    Filter.parse? (directiveFor d.level).toList).getD (Filter.ofDirectives [])

/-- What is written: the text of the console, and that of the file with what was
in it before. -/
structure Written where
  console : List Char
  file : Option (List Char)

/-- The thread that a server is started from. -/
def mainThread : String := "main"

/-- Writes events at some time, each with its target.  The file is opened even if
nothing is written. -/
def Destination.write (d : Destination) (tree : Files.Tree) (fromEnvironment : Option String)
    (time : String) (events : List (String × Event)) : Except OpenError Written := do
  let filter := d.filter fromEnvironment
  let enabled := events.filter fun (target, e) => filter.enables target e
  let text (targeted : Bool) : List Char :=
    enabled.flatMap fun (target, e) => Heading.write ⟨time, mainThread, targeted⟩ target e
  let console := if d.console then text false else []
  match d.file with
  | none => return ⟨console, none⟩
  | some path =>
    match tree.openToWrite path with
    | .error why => throw ⟨path, why⟩
    | .ok earlier => return ⟨console, some (Text.Utf8.decodeLossy earlier ++ text true)⟩

end SiteServer.Log
