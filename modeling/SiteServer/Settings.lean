import SiteServer.Log.Output

/-!
# Settings

Everything about the server that can be chosen from outside.  Settings are read
once, checked before anything is opened, and then used with both directories
ending in a slash, so that the path of a file is the directory with the name
after it.
-/

namespace SiteServer

/-- The settings of a server; the defaults are those of an empty command line. -/
structure Settings where
  port : Nat := 8080
  host : String := "0.0.0.0"
  staticDir : String := "./static_websites"
  templatesDir : String := "./templates"
  contentDb : Option String := none
  workers : Nat := 4
  maxRequestSize : Nat := 30000
  logLevel : String := "debug"
  logToConsole : Bool := true
  logFile : Option String := none
deriving DecidableEq, Repr

/-- Why settings cannot be used. -/
inductive SettingsError where
  | noWorkers
  | noRequestSize
  | emptyStaticDir
  | unknownLogLevel (level : String)
deriving DecidableEq, Repr

/-- What is reported of settings that cannot be used. -/
def SettingsError.message : SettingsError → String
  | noWorkers => "workers must be >= 1"
  | noRequestSize => "max request size must be > 0"
  | emptyStaticDir => "static directory must not be empty"
  | unknownLogLevel level =>
    "unknown log level '" ++ level ++
      "' (expected one of: trace, debug, info, warn, error, critical)"

namespace Settings

/-- The address that the server listens on. -/
def address (s : Settings) : String :=
  s.host ++ ":" ++ Text.numeral s.port

/-- Checks the settings; the first fault is the one that is reported. -/
def validate (s : Settings) : Except SettingsError Unit :=
  if s.workers = 0 then .error .noWorkers
  else if s.maxRequestSize = 0 then .error .noRequestSize
  else if s.staticDir = "" then .error .emptyStaticDir
  else if Log.levelNames.contains (Text.lowercase s.logLevel) then .ok ()
  else .error (.unknownLogLevel s.logLevel)

/-- A directory with a slash at its end. -/
def asDirectory (dir : String) : String :=
  if dir.toList.getLast? = some '/' then dir else dir ++ "/"

/-- The settings with a slash at the end of both directories. -/
def normalized (s : Settings) : Settings :=
  { s with staticDir := asDirectory s.staticDir, templatesDir := asDirectory s.templatesDir }

/-- Where the log goes. -/
def logDestination (s : Settings) : Log.Destination where
  level := Text.lowercase s.logLevel
  console := s.logToConsole
  file := s.logFile

/-- The lines that are shown of the settings when the server starts. -/
def summaryLines (s : Settings) : List String :=
  ["╔══════════════════════════════════════════════════════════════╗",
   "║                 telar Server Configuration                   ║",
   "╚══════════════════════════════════════════════════════════════╝",
   "",
   "🌐 Network:",
   "   Address:      " ++ s.address,
   "   Max request:  " ++ Text.numeral s.maxRequestSize ++ " bytes",
   "",
   "📁 Content:",
   "   Static dir:   " ++ s.staticDir,
   "   Templates:    " ++ s.templatesDir,
   "   Content DB:   " ++ s.contentDb.getD "built-in table",
   "",
   "👷 Workers:      " ++ Text.numeral s.workers,
   "",
   "📝 Logging:",
   "   Level:        " ++ s.logLevel,
   "   Console:      " ++ (if s.logToConsole then "on" else "off"),
   "   File:         " ++ s.logFile.getD "disabled",
   "",
   "═══════════════════════════════════════════════════════════════",
   ""]

/-- What is shown of the settings when the server starts. -/
def summary (s : Settings) : String :=
  String.join (s.summaryLines.map (· ++ "\n"))

end Settings

end SiteServer
