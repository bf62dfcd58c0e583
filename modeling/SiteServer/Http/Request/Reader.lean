import SiteServer.Http.Head
import SiteServer.Http.Request
import SiteServer.Log.Event
import SiteServer.Text.Blank

/-!
# Reading requests

The head of a buffer is decoded as text, with replacements where it is not
valid, and cut into lines at line feeds.  The first line has three words: the
method, the path and the version.  Each line after it is a header, up to the
first empty line; a line without a colon says nothing and is passed over.

A path that is only a slash stands for the index page, and that is logged.
-/

namespace SiteServer.Http

/-! ## The request line -/

/-- The three words that a request line begins with. -/
structure RequestLine where
  method : Method
  target : String
  version : Version
deriving DecidableEq, Repr

/-- Reads a request line; words after the third are ignored. -/
def RequestLine.parse (line : List Char) : Except RequestError RequestLine :=
  match Text.words line with
  | method :: target :: version :: _ =>
    match Method.words.find? (String.ofList method) with
    | none => .error (.unknownMethod (String.ofList method))
    | some m =>
      match Version.words.find? (String.ofList version) with
      | none => .error (.unknownVersion (String.ofList version))
      | some v => .ok ⟨m, String.ofList target, v⟩
  | _ => .error .incompleteLine

/-- The page that stands for the root. -/
def indexPath : String := "/index.html"

/-- The path that a target means. -/
def pathOfTarget (target : String) : Logged String :=
  if target = "/" then do
    Logged.emit ⟨.debug, "path is root, serving /index.html", []⟩
    return indexPath
  else return target

/-! ## Header lines -/

/-- The header that names the host. -/
def hostName : String := "Host"

/-- The header that names the client. -/
def userAgentName : String := "User-Agent"

/-- The header that hints at the platform of the client. -/
def platformName : String := "sec-ch-ua-platform"

/-- What the header lines of a request say. -/
structure HeaderFields where
  host : String := ""
  userAgent : String := ""
  platform : Platform := .unknown
  others : Headers := .empty

/-- The hint in a platform header: the value without a trailing CR and without
one quote at either end. -/
def platformHint (value : List Char) : List Char :=
  Text.dropTrailing '"' (Text.dropLeading '"' (Text.dropTrailing '\r' value))

/-- Takes one header into account.  Of several hosts, user agents or platforms the last one
counts; every other name may be given once. -/
def HeaderFields.record (fields : HeaderFields) (name : String) (value : List Char) :
    Except RequestError HeaderFields :=
  if name = hostName then .ok { fields with host := String.ofList value }
  else if name = userAgentName then .ok { fields with userAgent := String.ofList value }
  else if name = platformName then
    let hint := String.ofList (platformHint value)
    match Platform.words.find? hint with
    | some platform => .ok { fields with platform }
    | none => .error (.unknownPlatform hint)
  else
    match fields.others.add name (String.ofList value) with
    | .ok others => .ok { fields with others }
    | .error e => .error (.duplicateHeader e)

/-- The name and the value in a header line, if it has a colon.  Spaces around
the value do not belong to it. -/
def headerOfLine? (line : List Char) : Option (String × List Char) :=
  (Text.cutAtFirst ':' line).map fun parts =>
    (String.ofList parts.1, Text.trimBoth (· = ' ') parts.2)

/-- Reads the header lines up to the first empty one. -/
def HeaderFields.parse (fields : HeaderFields) :
    List (List Char) → Except RequestError HeaderFields
  | [] => .ok fields
  | raw :: rest =>
    let line := Text.dropTrailing '\r' raw
    if line.isEmpty then .ok fields
    else
      match headerOfLine? line with
      | none => fields.parse rest
      | some (name, value) =>
        match fields.record name value with
        | .ok fields => fields.parse rest
        | .error e => .error e

/-! ## The whole buffer -/

/-- The text of a head. -/
def headText (buffer : Bytes) : List Char :=
  Text.Utf8.decodeLossy (splitHead buffer).1

/-- The lines of a text: the first, and those after it. -/
def linesOf (text : List Char) : List Char × List (List Char) :=
  Text.breakAt (· = '\n') text

/-- Reads a request. -/
def Request.parse (buffer : Bytes) : Logged (Except RequestError Request) :=
  let text := headText buffer
  if text.all Text.isBlank then return .error .empty
  else
    let (first, rest) := linesOf text
    match RequestLine.parse first with
    | .error e => return .error e
    | .ok line => do
      let path ← pathOfTarget line.target
      match ({} : HeaderFields).parse rest with
      | .error e => return .error e
      | .ok fields =>
        return .ok {
          method := line.method
          version := line.version
          path
          host := fields.host
          userAgent := fields.userAgent
          platform := fields.platform
          headers := fields.others
          body := (splitHead buffer).2 }

end SiteServer.Http
