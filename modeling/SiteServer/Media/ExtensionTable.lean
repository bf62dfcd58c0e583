import SiteServer.Files.Path
import SiteServer.Text.Case
import SiteServer.Dictionary

/-!
# Types by extension

A table gives the name of a type for the extension of a file, ASCII case aside.
The built-in table knows the usual extensions of a web site; a database can add
to it and take precedence over it, with any names it likes.  Extensions of the
database are put into lower case as they are added, so of two that differ in
case only the one that is added later counts.
-/

namespace SiteServer.Media

/-- Names of types under extensions in lower case. -/
structure ExtensionTable where
  names : Dictionary String

namespace ExtensionTable

/-- The extensions that are known without a database. -/
def known : List (String × String) :=
  [("ico", "image/x-icon"), ("png", "image/png"), ("jpg", "image/jpeg"),
   ("jpeg", "image/jpeg"), ("gif", "image/gif"), ("webp", "image/webp"),
   ("svg", "image/svg+xml"), ("txt", "text/plain"), ("html", "text/html"),
   ("htm", "text/plain"), ("css", "text/css"), ("js", "text/javascript"),
   ("json", "application/json"), ("pdf", "application/pdf")]

/-- The table without a database. -/
def builtIn : ExtensionTable := ⟨Dictionary.ofList known⟩

/-- The table with one more extension. -/
def set (t : ExtensionTable) (extension name : String) : ExtensionTable :=
  ⟨t.names.insert (Text.lowercase extension) name⟩

/-- The table with the entries of a database, added in the order given. -/
def extend (t : ExtensionTable) (entries : List (String × String)) : ExtensionTable :=
  entries.foldl (fun t e => t.set e.1 e.2) t

/-- The name for the extension of a path. -/
def nameOf? (t : ExtensionTable) (path : String) : Option String := do
  let extension ← Files.Path.extension? path.toList
  t.names.find? (String.ofList (Text.fold extension))

theorem find?_set (t : ExtensionTable) (extension name key : String) :
    (t.set extension name).names.find? key =
      if Text.lowercase extension = key then some name else t.names.find? key :=
  Dictionary.find?_insert ..

end ExtensionTable

end SiteServer.Media
