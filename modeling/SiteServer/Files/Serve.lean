import SiteServer.Files.Entry
import SiteServer.Http.MediaType
import SiteServer.Log.Event
import SiteServer.Media.ExtensionTable
import SiteServer.Media.Signature
import SiteServer.Text.Numeral

/-!
# Serving files

A file is served with its whole contents and with a type: the one that the table
gives for its extension, else the one that its first bytes show.  A path that is
not a file, a type that the server cannot declare and a file that cannot be read
are each logged, once, and then there is nothing to serve.
-/

namespace SiteServer.Files

open Http (MediaType)

/-- How much of a file is looked at to recognise it. -/
def sniffLength : Nat := 512

/-- Why a file has no type. -/
inductive TypeError where
  | unreadable (path : String) (why : Fault)
  | unsupported (path : String) (name : String)
deriving DecidableEq, Repr

/-- What is reported of a file without a type. -/
def TypeError.message : TypeError → String
  | unreadable path _ => "i/o error on " ++ path
  | unsupported path name => "unsupported content type for " ++ path ++ ": " ++ name

/-- A file that is ready to be sent. -/
structure Served where
  contents : Bytes
  type : MediaType

namespace FileSystem

/-- The name of the type that the beginning of a file shows. -/
def sniff (fs : FileSystem) (path : String) : Except Fault String :=
  ((fs.entry path).readPrefix sniffLength).map Media.recognise

/-- The name of the type of a file. -/
def typeName (fs : FileSystem) (table : Media.ExtensionTable) (path : String) :
    Except Fault String :=
  match table.nameOf? path with
  | some name => .ok name
  | none => fs.sniff path

/-- The type of a file. -/
def typeOf (fs : FileSystem) (table : Media.ExtensionTable) (path : String) :
    Except TypeError MediaType :=
  match fs.typeName table path with
  | .error why => .error (.unreadable path why)
  | .ok name =>
    match MediaType.parse? name with
    | some type => .ok type
    | none => .error (.unsupported path name)

/-- Reads a file and finds its type. -/
def serve (fs : FileSystem) (table : Media.ExtensionTable) (path : String) :
    Logged (Option Served) :=
  if !(fs.entry path).isFile then do
    Logged.emit ⟨.warn, "file not found", [("path", path)]⟩
    return none
  else
    match fs.typeOf table path with
    | .error e => do
      Logged.emit ⟨.error, "could not determine content type",
        [("path", path), ("error", e.message)]⟩
      return none
    | .ok type =>
      match (fs.entry path).read with
      | .ok contents => do
        Logged.emit ⟨.debug, "serving file",
          [("path", path), ("content_type", type.name), ("bytes", Text.numeral contents.length)]⟩
        return some ⟨contents, type⟩
      | .error why => do
        Logged.emit ⟨.error, "failed to read file", [("path", path), ("error", why.message)]⟩
        return none

end FileSystem

end SiteServer.Files
