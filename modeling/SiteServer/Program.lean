import SiteServer.Settings.CommandLine
import SiteServer.Site
import SiteServer.Template.Greeting

/-!
# The program

The program reads its settings, checks them, opens its log, shows what it was
told, and serves a site with two routes of its own.  It ends when one of these
steps fails, or when its server does; what it then writes says which step it was
and why, down to the word of the system.
-/

namespace SiteServer.Program

open Http (Response)

/-- The name of the program. -/
def name : String := "telar"

/-- What is shown for the version. -/
def version : String := name ++ " 0.1.0\n"

/-- Why the program ends. -/
inductive Fatal where
  | settings (e : SettingsError)
  | logging (e : Log.OpenError)
  | database (e : Media.DatabaseError)
  | server (e : ServerError)
deriving DecidableEq, Repr

namespace Fatal

/-- The step that failed, the failure, and what is behind it. -/
def chain : Fatal → List String
  | settings e => ["invalid configuration", e.message]
  | logging e => ["failed to initialize logging", e.message, e.why.message]
  | database e =>
    "failed to load content database" :: e.message ::
      match e with
      | .unreadable _ why => [why.message]
      | .malformed _ => []
  | server e => "server stopped with an error" :: e.message :: e.cause?.toList

/-- What is written when the program ends. -/
def report (e : Fatal) : String :=
  "💥 Error fatal: " ++ ": ".intercalate e.chain ++ "\n"

end Fatal

/-- The page of the route that is no teapot. -/
def teapotPage : String :=
  "<html><head><title>I am a teapot</title></head>" ++
  "<body><h1>I am a teapot</h1><p>This response comes from a registered route.</p></body></html>"

/-- Answers with the page of the teapot. -/
def teapot : Handler := fun _ _ => return .returned (.html .ok teapotPage)

/-- The template of the route that greets. -/
def helloFile : String := "hello.html"

/-- The site of the program, with its routes. -/
def addRoutes (site : Site) : Logged Site := do
  let site ← site.register "/myroute" [.get, .put] teapot
  site.register "/hello" [.get] (Template.greetLogged site.templates helloFile .empty)

/-- The files that starting the program may look at. -/
def filesAtLaunch (settings : Settings) : List String := settings.contentDb.toList

/-- The files that answering a buffer may look at. -/
def filesFor (site : Site) (buffer : Bytes) : List String :=
  site.templates.path helloFile :: (site.service.fileFor? buffer).toList

/-- What comes of starting the program: what it has shown, and the site that it
goes on to serve. -/
structure Launch where
  shown : String
  site : Except Fatal (Logged Site)

/-- Goes through the steps before the server runs.  `log` says whether the log
could be opened. -/
def launch (settings : Settings) (log : Except Log.OpenError Unit) (fs : Files.FileSystem) :
    Launch :=
  match settings.validate with
  | .error e => ⟨"", .error (.settings e)⟩
  | .ok () =>
    match log with
    | .error e => ⟨"", .error (.logging e)⟩
    | .ok () =>
      ⟨settings.summary,
        ((Site.create name settings fs).mapError Fatal.database).map (· >>= addRoutes)⟩

/-- How the program is called. -/
def usage : String :=
  "Usage: " ++ name ++ " [OPTIONS]\n\nOptions:\n" ++
    String.join (Settings.Key.all.map fun key =>
      "  " ++ (match key.short? with
        | some c => "-" ++ c.toString ++ ", "
        | none => "    ") ++ "--" ++ key.long ++ " <VALUE> [env: " ++ key.environmentName ++ "]\n") ++
    "  -h, --help\n  -V, --version\n"

/-- What the program has written when it ends, and its status. -/
structure Ending where
  status : Nat
  out : String
  err : String
deriving DecidableEq, Repr

/-- The end of a program that was called for help or for its version, or in a way
it does not understand. -/
def endOfUsage : Settings.UsageError → Ending
  | .helpWanted => ⟨0, usage, ""⟩
  | .versionWanted => ⟨0, version, ""⟩
  | _ => ⟨2, "", usage⟩

/-- The end of a program that failed, after it had shown something. -/
def endOfFailure (shown : String) (e : Fatal) : Ending := ⟨1, shown, e.report⟩

end SiteServer.Program
