import SiteServer.Files.Entry
import SiteServer.Json.Document
import SiteServer.Media.ExtensionTable

/-!
# Databases of types

A database is a JSON document with an object `extensions`, from extensions to
names of types.  The object may be missing, other members of the document are
passed over whatever they hold, and the document may also be written as an array
whose only element is that object.
-/

namespace SiteServer.Media

open Json (Document)

/-- Why a database cannot be used. -/
inductive DatabaseError where
  | unreadable (path : String) (why : Files.Fault)
  | malformed (path : String)
deriving DecidableEq, Repr

/-- What is reported of a database that cannot be used. -/
def DatabaseError.message : DatabaseError → String
  | unreadable path _ => "failed to read content database " ++ path
  | malformed path => "invalid content database " ++ path

namespace Database

/-- The member of a database that holds the extensions. -/
def extensionsName : String := "extensions"

/-- An object whose members are texts under texts; of several with one name the
last counts. -/
def texts? : Document → Option (Dictionary String)
  | .object members => Dictionary.ofList <$> members.mapM fun
    | (some name, .string (some text)) => some (name, text)
    | _ => none
  | _ => none

/-- The extensions that a document gives. -/
def ofDocument? : Document → Option (Dictionary String)
  | .object members =>
    if members.any (·.1.isNone) then none
    else
      match members.filter (·.1 = some extensionsName) with
      | [] => some .empty
      | [(_, d)] => texts? d
      | _ => none
  | .array [] => some .empty
  | .array [d] => texts? d
  | _ => none

/-- The table that a database file makes of the built-in one. -/
def load (fs : Files.FileSystem) (path : String) : Except DatabaseError ExtensionTable :=
  match (fs.entry path).readText with
  | .error why => .error (.unreadable path why)
  | .ok text =>
    match (Document.parse? text).bind ofDocument? with
    | some extensions => .ok (ExtensionTable.builtIn.extend extensions.entries)
    | none => .error (.malformed path)

end Database

end SiteServer.Media
