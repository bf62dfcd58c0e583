import SiteServer.Http.Headers
import SiteServer.Http.MediaType
import SiteServer.Http.Status

/-!
# Responses

A response is written in one piece: the status line, the type and the length of
the body, the other headers in the order of their map, an empty line, the body.
The status line names version 1.1 whatever the request declared.
-/

namespace SiteServer.Http

/-- An answer to a request. -/
structure Response where
  status : Status
  type : MediaType
  body : Bytes
  headers : Headers := .empty

namespace Response

/-- A page with some status. -/
def html (status : Status) (page : String) : Response :=
  { status, type := .textHtml, body := Text.bytes page }

/-- The page for what does not exist. -/
def notFound : Response :=
  html .notFound "<html><body><h1>404 Page Not Found</h1></body></html>"

/-- The page for a request that cannot be read. -/
def badRequest : Response :=
  html .badRequest "<html><body><h1>400 Bad Request</h1></body></html>"

/-- The page for a failure of the server itself. -/
def internalError : Response :=
  html .internalServerError "<html><body><h1>500 Internal Server Error</h1></body></html>"

/-- A page of the server's own: one heading in HTML, under a status with some number. -/
structure IsNotice (r : Response) (code : Nat) (heading : String) : Prop where
  code : r.status.code = code
  type : r.type = .textHtml
  body : r.body = Text.bytes ("<html><body><h1>" ++ heading ++ "</h1></body></html>")
  headers : r.headers = .empty

/-- The response with one more header. -/
def withHeader (r : Response) (name value : String) : Except DuplicateHeader Response :=
  match r.headers.add name value with
  | .ok headers => .ok { r with headers }
  | .error e => .error e

/-- The response with more headers, up to the first that is already there. -/
def withHeaders (r : Response) : List (String × String) → Except DuplicateHeader Response
  | [] => .ok r
  | (name, value) :: rest => do withHeaders (← r.withHeader name value) rest

/-- The response with other headers in place of all that it had. -/
def setHeaders (r : Response) (headers : Headers) : Response := { r with headers }

/-- A line of the head, with its end. -/
def headerLine (name value : String) : String :=
  name ++ ": " ++ value ++ "\r\n"

/-- The name of the header that gives the type of the body. -/
def typeName : String := "Content-Type"

/-- The name of the header that gives the length of the body. -/
def lengthName : String := "Content-Length"

/-- The headers as they are written: type and length first, then the map. -/
def fields (r : Response) : List (String × String) :=
  (typeName, r.type.name) :: (lengthName, Text.numeral r.body.length) :: r.headers.entries

/-- The head, up to and including the empty line. -/
def head (r : Response) : String :=
  "HTTP/1.1 " ++ r.status.line ++ "\r\n" ++
    String.join (r.fields.map fun (name, value) => headerLine name value) ++ "\r\n"

/-- The response as it is sent. -/
def toBytes (r : Response) : Bytes :=
  Text.bytes r.head ++ r.body

end Response

end SiteServer.Http
