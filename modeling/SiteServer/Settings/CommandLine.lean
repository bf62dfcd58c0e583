import SiteServer.Settings
import SiteServer.Text.Numeral

/-!
# The command line

Every setting has a long option, some have a short one, and all can also be
given by the environment.  A value follows its option as the next argument, or
in the same one after an equals sign; a short option may also be followed by its
value directly.  An option may be given once.  What an argument does not give is
taken from the environment, and what that does not give either is the default.

Arguments are read from left to right.  The value of an option is only looked at
when the next option is recognised, or at the end; so an argument that is not
known is reported before a bad value in front of it, and help that is asked for
behind a bad value is not shown.
-/

namespace SiteServer.Settings

/-- The settings that a command line can give. -/
inductive Key where
  | port | host | staticDir | templatesDir | contentDb | workers | maxRequestSize | logLevel
  | logToConsole | logFile
deriving DecidableEq, Repr

namespace Key

/-- Every key, in the order in which the environment is asked. -/
def all : List Key :=
  [port, host, staticDir, templatesDir, contentDb, workers, maxRequestSize, logLevel,
   logToConsole, logFile]

/-- The name of the long option. -/
def long : Key → String
  | port => "port"
  | host => "host"
  | staticDir => "static-dir"
  | templatesDir => "templates-dir"
  | contentDb => "content-db"
  | workers => "workers"
  | maxRequestSize => "max-request-size"
  | logLevel => "log-level"
  | logToConsole => "log-to-console"
  | logFile => "log-file"

/-- The letter of the short option. -/
def short? : Key → Option Char
  | port => some 'p'
  | workers => some 'w'
  | _ => none

/-- The variable of the environment. -/
def environmentName : Key → String
  | port => "TELAR_PORT"
  | host => "TELAR_HOST"
  | staticDir => "TELAR_STATIC_DIR"
  | templatesDir => "TELAR_TEMPLATES_DIR"
  | contentDb => "TELAR_CONTENT_DB"
  | workers => "TELAR_WORKERS"
  | maxRequestSize => "TELAR_MAX_REQUEST_SIZE"
  | logLevel => "TELAR_LOG_LEVEL"
  | logToConsole => "TELAR_LOG_TO_CONSOLE"
  | logFile => "TELAR_LOG_FILE"

end Key

/-- Why a command line gives no settings. -/
inductive UsageError where
  /-- A value is not a number in the range of its setting. -/
  | badNumber (key : Key)
  /-- A value is not one of the few that its setting allows. -/
  | badChoice (key : Key)
  /-- An option has no value. -/
  | missingValue (key : Key)
  /-- A flag has a value. -/
  | needlessValue
  /-- An option is given twice. -/
  | repeated (key : Key)
  | unknownArgument
  /-- Help is asked for. -/
  | helpWanted
  /-- The version is asked for. -/
  | versionWanted
deriving DecidableEq, Repr

/-- The largest port. -/
def maxPort : Int := 65535

/-- The largest count that fits into 64 bits. -/
def maxCount : Nat := 18446744073709551615

/-- Reads a count: digits that may follow a plus sign. -/
def count? (key : Key) (text : String) : Except UsageError Nat :=
  match Text.natural? text.toList with
  | some n => if n ≤ maxCount then .ok n else .error (.badNumber key)
  | none => .error (.badNumber key)

/-- The settings with the value of a key, read from its text. -/
def set (s : Settings) (key : Key) (text : String) : Except UsageError Settings :=
  match key with
  | .port =>
    match Text.integer? text.toList with
    | some n =>
      if 0 ≤ n ∧ n ≤ maxPort then .ok { s with port := n.toNat } else .error (.badNumber key)
    | none => .error (.badNumber key)
  | .host => .ok { s with host := text }
  | .staticDir => .ok { s with staticDir := text }
  | .templatesDir => .ok { s with templatesDir := text }
  | .contentDb => .ok { s with contentDb := some text }
  | .workers => (count? key text).map fun workers => { s with workers }
  | .maxRequestSize => (count? key text).map fun maxRequestSize => { s with maxRequestSize }
  | .logLevel => .ok { s with logLevel := text }
  | .logToConsole =>
    if text = "true" then .ok { s with logToConsole := true }
    else if text = "false" then .ok { s with logToConsole := false }
    else .error (.badChoice key)
  | .logFile => .ok { s with logFile := some text }

/-- What was read of a command line: the settings so far, the keys that were
given, and an option whose value was not looked at yet, or has not come. -/
structure Reading where
  settings : Settings := {}
  given : List Key := []
  pending : Option (Key × Option String) := none

namespace Reading

/-- Takes a value for a key. -/
def accept (r : Reading) (key : Key) (value : String) : Except UsageError Reading :=
  if r.given.contains key then .error (.repeated key)
  else (r.settings.set key value).map fun settings =>
    { r with settings, given := key :: r.given }

/-- Looks at the value of the pending option. -/
def settle (r : Reading) : Except UsageError Reading :=
  match r.pending with
  | none => .ok r
  | some (key, none) => .error (.missingValue key)
  | some (key, some value) => { r with pending := none }.accept key value

/-- Takes an option with the value in the same argument, or waits for the
value. -/
def option (r : Reading) (key : Key) (attached : Option String) : Except UsageError Reading := do
  let r ← r.settle
  match attached with
  | some value => r.accept key value
  | none => return { r with pending := some (key, none) }

/-- Ends the reading at a flag. -/
def flag (r : Reading) (e : UsageError) : Except UsageError Reading := do
  let _ ← r.settle
  throw e

/-- Takes an argument that starts with two hyphens, without them. -/
def long (r : Reading) (text : List Char) : Except UsageError Reading :=
  let (name, attached) :=
    match Text.cutAtFirst '=' text with
    | some (name, value) => (String.ofList name, some (String.ofList value))
    | none => (String.ofList text, none)
  if name = "help" then
    if attached.isSome then .error .needlessValue else r.flag .helpWanted
  else if name = "version" then
    if attached.isSome then .error .needlessValue else r.flag .versionWanted
  else
    match Key.all.find? (·.long = name) with
    | some key => r.option key attached
    | none => .error .unknownArgument

/-- Takes the letters after one hyphen.  The first decides: no letter stands for
a setting without taking what follows it as the value. -/
def short (r : Reading) (c : Char) (rest : List Char) : Except UsageError Reading :=
  if c = 'h' then r.flag .helpWanted
  else if c = 'V' then r.flag .versionWanted
  else
    match Key.all.find? (·.short? = some c) with
    | none => .error .unknownArgument
    | some key =>
      match rest with
      | [] => r.option key none
      | '=' :: value => r.option key (some (String.ofList value))
      | value => r.option key (some (String.ofList value))

/-- Takes an argument that is not an option: the value of the pending one, if
that has none. -/
def plain (r : Reading) (arg : String) : Except UsageError Reading :=
  match r.pending with
  | some (key, none) => .ok { r with pending := some (key, some arg) }
  | _ => .error .unknownArgument

/-- Takes one argument. -/
def argument (r : Reading) (arg : String) : Except UsageError Reading :=
  match arg.toList with
  | '-' :: '-' :: text => r.long text
  | '-' :: c :: rest => r.short c rest
  | _ => r.plain arg

/-- Takes all arguments.  After two hyphens alone only values could follow, and
there is nothing that takes them. -/
def arguments (r : Reading) : List String → Except UsageError Reading
  | [] => r.settle
  | "--" :: [] => r.settle
  | "--" :: _ => .error .unknownArgument
  | arg :: rest => do arguments (← r.argument arg) rest

/-- Takes from the environment what was not given. -/
def environment (r : Reading) (lookup : String → Option String) :
    List Key → Except UsageError Reading
  | [] => .ok r
  | key :: rest =>
    if r.given.contains key then r.environment lookup rest
    else
      match lookup key.environmentName with
      | none => r.environment lookup rest
      | some value => do (← r.accept key value).environment lookup rest

end Reading

/-- Reads settings from the arguments of a command and the environment. -/
def ofCommandLine (args : List String) (lookup : String → Option String) :
    Except UsageError Settings := do
  let r ← ({} : Reading).arguments args
  return (← r.environment lookup Key.all).settings

end SiteServer.Settings
