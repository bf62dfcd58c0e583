import SiteServer.Files.Entry
import SiteServer.Http.Request
import SiteServer.Http.Response
import SiteServer.Log.Event

/-!
# Routes

A route gives a path, exactly as written, to a handler and to the methods that
the handler answers.  A path has at most one route: a later registration takes
the place of the earlier one, with its methods.  What has no route, for its path
or for its method, is left to the files of the site.

A handler may read files and log; it either returns a response or panics.
-/

namespace SiteServer

open Http (Method Request Response)

/-- How a handler ends. -/
inductive Handled where
  | returned (r : Response)
  | panicked

/-- What answers the requests of a route. -/
abbrev Handler := Files.FileSystem → Request → Logged Handled

/-- A registered path. -/
structure Route where
  /-- The methods that are answered, as they were registered. -/
  methods : List Method
  handler : Handler

/-- The routes of a site, by path. -/
abbrev Routes := Dictionary Route

namespace Routes

/-- The methods of a route, as a log shows them. -/
def methodList (methods : List Method) : String :=
  "[" ++ String.intercalate ", " (methods.map Method.token) ++ "]"

/-- Registers a route in place of an earlier one for the same path. -/
def register (routes : Routes) (path : String) (methods : List Method) (handler : Handler) :
    Logged Routes := do
  if routes.contains path then
    Logged.emit ⟨.warn, "route registered twice, replacing previous handler", [("path", path)]⟩
  else
    Logged.emit ⟨.debug, "route registered", [("path", path), ("methods", methodList methods)]⟩
  return routes.insert path ⟨methods, handler⟩

/-- The route of a path that answers a method. -/
def answering? (routes : Routes) (path : String) (method : Method) : Option Route :=
  (routes.find? path).filter (·.methods.contains method)

/-- Whether a path has a route that answers a method. -/
def answers (routes : Routes) (path : String) (method : Method) : Bool :=
  (routes.answering? path method).isSome

/-- Runs the handler for a path and a method, if there is one. -/
def handle (routes : Routes) (fs : Files.FileSystem) (path : String) (method : Method)
    (request : Request) : Logged (Option Handled) :=
  match routes.answering? path method with
  | none => return none
  | some route => do return some (← route.handler fs request)

end Routes

end SiteServer
