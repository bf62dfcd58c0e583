import SiteServer.Connection.Respond
import SiteServer.Media.Database
import SiteServer.Server.Lifecycle
import SiteServer.Settings
import SiteServer.Template.Store

/-!
# A site

A site is what its settings and its routes make of it: the table of types, the
store of templates, and the service that all of its connections share.  Routes
are registered first; the service and the server are then made from the site as
it is.
-/

namespace SiteServer

/-- A site that can be served. -/
structure Site where
  name : String
  /-- The settings, with both directories ending in a slash. -/
  settings : Settings
  table : Media.ExtensionTable
  routes : Routes

namespace Site

/-- The table of types that settings ask for. -/
def tableOf (settings : Settings) (fs : Files.FileSystem) :
    Except Media.DatabaseError Media.ExtensionTable :=
  match settings.contentDb with
  | some db => Media.Database.load fs db
  | none => .ok .builtIn

/-- A site without routes. -/
def create (name : String) (settings : Settings) (fs : Files.FileSystem) :
    Except Media.DatabaseError (Logged Site) :=
  let settings := settings.normalized
  (tableOf settings fs).map fun table => do
    Logged.emit ⟨.debug, "context created",
      [("app", name), ("static_dir", settings.staticDir),
       ("templates_dir", settings.templatesDir)]⟩
    return { name, settings, table, routes := .empty }

/-- The templates of a site. -/
def templates (site : Site) : Template.Store := ⟨site.settings.templatesDir, site.table⟩

/-- Registers a route. -/
def register (site : Site) (path : String) (methods : List Http.Method) (handler : Handler) :
    Logged Site := do
  return { site with routes := ← site.routes.register path methods handler }

/-- What the connections of a site share. -/
def service (site : Site) : Connection.Service where
  routes := site.routes
  table := site.table
  root := site.settings.staticDir
  maxRequestSize := site.settings.maxRequestSize

/-- The server of a site, without a socket. -/
def server {γ : Type} (site : Site) : Logged (Server γ) := do
  Logged.emit ⟨.info, "creating server",
    [("app", site.name), ("routes", Text.numeral site.routes.size)]⟩
  return .create site.settings.address site.settings.workers

end Site

end SiteServer
