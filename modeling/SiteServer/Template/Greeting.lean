import SiteServer.Routes
import SiteServer.Template.Store

/-!
# Templates that greet a visitor

A template that answers a request is filled in with what the request says of its
sender: the host that was asked, the platform and the user agent.  These three
take the place of arguments of the same names.
-/

namespace SiteServer.Template

open Http (Request Response)

/-- Arguments together with what a request says of its sender. -/
def visitorArguments (args : Dictionary String) (request : Request) : Dictionary String :=
  ((args.insert "host" request.host).insert "platform" request.platform.token).insert
    "user_agent" request.userAgent

/-- The response for a rendered template, or for one that was not. -/
def TemplateError.response : TemplateError → Response
  | notFound _ => .notFound
  | _ => .internalError

/-- Answers with a template. -/
def greet (store : Store) (file : String) (args : Dictionary String) : Handler :=
  fun fs request => do
    match ← store.render fs file (visitorArguments args request) with
    | .ok response => return .returned response
    | .error e => return .returned e.response

/-- Answers with a template, and logs why it could not be rendered. -/
def greetLogged (store : Store) (file : String) (args : Dictionary String) : Handler :=
  fun fs request => do
    match ← store.render fs file (visitorArguments args request) with
    | .ok response => return .returned response
    | .error (.notFound path) => do
      Logged.emit ⟨.warn, "template missing", [("template", path)]⟩
      return .returned .notFound
    | .error e => do
      Logged.emit ⟨.error, "template rendering failed", [("error", e.message)]⟩
      return .returned e.response

end SiteServer.Template
