import SiteServer.Files.Serve
import SiteServer.Http.Response
import SiteServer.Template.Render

/-!
# Templates in files

A store is the directory that templates are read from, with the table that gives
their types.  A rendered template is a response of its own, with the type of the
file that it came from.
-/

namespace SiteServer.Template

open Http (Response)

/-- Why a template was not rendered. -/
inductive TemplateError where
  /-- There is nothing to serve at the path. -/
  | notFound (path : String)
  /-- The file is not valid UTF-8. -/
  | notText (file : String)
  /-- A key has no value. -/
  | unresolved (key : String)
deriving DecidableEq, Repr

/-- What is reported of a template that was not rendered. -/
def TemplateError.message : TemplateError → String
  | notFound path => "unable to find template '" ++ path ++ "'"
  | notText file => "render error: " ++ file ++ " is not valid UTF-8"
  | unresolved key => "render error: variable '" ++ key ++ "' not found"

/-- The directory of templates. -/
structure Store where
  directory : String
  table : Media.ExtensionTable

namespace Store

/-- The path of a template. -/
def path (store : Store) (file : String) : String :=
  String.ofList (Files.Path.join store.directory.toList file.toList)

/-- Renders text, with the error of a template. -/
def renderText (source : List Char) (data : Json) : Except TemplateError (List Char) :=
  (Template.render source data).mapError fun key => .unresolved (String.ofList key)

/-- Renders a template with any value. -/
def renderValue (store : Store) (fs : Files.FileSystem) (file : String) (data : Json) :
    Logged (Except TemplateError Response) := do
  match ← fs.serve store.table (store.path file) with
  | none => return .error (.notFound (store.path file))
  | some served =>
    match Text.Utf8.decode? served.contents with
    | none => return .error (.notText file)
    | some source =>
      match renderText source data with
      | .error e => return .error e
      | .ok text =>
        let body := Text.Utf8.encode text
        Logged.emit ⟨.debug, "template rendered",
          [("template", file), ("bytes", Text.numeral body.length)]⟩
        return .ok { status := .ok, type := served.type, body }

/-- Renders a template with plain arguments. -/
def render (store : Store) (fs : Files.FileSystem) (file : String) (args : Dictionary String) :
    Logged (Except TemplateError Response) :=
  store.renderValue fs file (Json.ofStrings args)

end Store

end SiteServer.Template
