import SiteServer.Connection.Intake
import SiteServer.Files.Serve
import SiteServer.Http.Request.Reader
import SiteServer.Routes

/-!
# Answering a request

A buffer that is not a request is answered with the page for bad requests.  A
request goes to the route that answers it; without one it is answered with a
file of the site, and with the page for missing ones if there is none.  A
handler that panics is answered for with the page for internal errors.

Each of the three pages goes with exactly one event that says why.
-/

namespace SiteServer.Connection

open Http (Request Response)

/-- What all connections of a server share. -/
structure Service where
  routes : Routes
  table : Media.ExtensionTable
  /-- The directory of the site's files. -/
  root : String
  /-- The most bytes that are taken in for a request. -/
  maxRequestSize : Nat

namespace Service

/-- Logs a request, and then each of its headers. -/
def logRequest (request : Request) : Logged Unit := do
  Logged.emit ⟨.debug, "request received",
    [("method", request.method.token), ("path", request.path),
     ("version", request.version.token), ("host", request.host),
     ("platform", request.platform.token), ("user_agent", request.userAgent)]⟩
  request.headers.entries.forM fun (name, value) =>
    Logged.emit ⟨.trace, "request header", [("header", name), ("value", value)]⟩

/-- Answers with a file of the site. -/
def serveFile (service : Service) (fs : Files.FileSystem) (path : String) : Logged Response :=
  match Files.Path.resolve? service.root path with
  | none => do
    Logged.emit ⟨.warn, "path escapes static root", [("path", path)]⟩
    return .notFound
  | some file => do
    match ← fs.serve service.table file with
    | some served => return { status := .ok, type := served.type, body := served.contents }
    | none => return .notFound

/-- Answers a request by its route, or with a file. -/
def dispatch (service : Service) (fs : Files.FileSystem) (request : Request) :
    Logged Response := do
  match ← service.routes.handle fs request.path request.method request with
  | some (.returned response) => return response
  | some .panicked => do
    Logged.emit ⟨.error, "route handler panicked",
      [("path", request.path), ("method", request.method.token)]⟩
    return .internalError
  | none => service.serveFile fs request.path

/-- Answers the bytes that were taken in. -/
def respond (service : Service) (fs : Files.FileSystem) (buffer : Bytes) : Logged Response := do
  match ← Request.parse buffer with
  | .error e => do
    Logged.emit ⟨.warn, "malformed request", [("error", e.message)]⟩
    return .badRequest
  | .ok request => do
    logRequest request
    service.dispatch fs request

/-- Answering a buffer is dispatching the request in it, if there is one. -/
theorem respond_eq_of_dispatch {service service' : Service} {fs fs' : Files.FileSystem}
    {buffer : Bytes}
    (h : ∀ request, (Request.parse buffer).value = .ok request →
      service.dispatch fs request = service'.dispatch fs' request) :
    service.respond fs buffer = service'.respond fs' buffer := by
  refine Logged.bind_congr rfl ?_
  cases hparse : (Request.parse buffer).value with
  | error e => rfl
  | ok request =>
      show (logRequest request >>= fun _ => service.dispatch fs request) =
        logRequest request >>= fun _ => service'.dispatch fs' request
      rw [h request hparse]

theorem value_respond_of_ok {service : Service} {fs : Files.FileSystem} {buffer : Bytes}
    {request : Request} (h : (Request.parse buffer).value = .ok request) :
    (service.respond fs buffer).value = (service.dispatch fs request).value := by
  simp only [respond, Logged.value_bind, h]

theorem value_respond_of_error {service : Service} {fs : Files.FileSystem} {buffer : Bytes}
    {e : Http.RequestError} (h : (Request.parse buffer).value = .error e) :
    (service.respond fs buffer).value = .badRequest := by
  simp only [respond, Logged.value_bind, h, Logged.value_pure]

/-- Buffers that are read alike are answered alike. -/
theorem value_respond_congr {service : Service} {fs : Files.FileSystem} {buffer other : Bytes}
    (h : (Request.parse buffer).value = (Request.parse other).value) :
    (service.respond fs buffer).value = (service.respond fs other).value := by
  cases hparse : (Request.parse other).value with
  | error e => rw [value_respond_of_error hparse, value_respond_of_error (h.trans hparse)]
  | ok request => rw [value_respond_of_ok hparse, value_respond_of_ok (h.trans hparse)]

/-- Answers a peer.  One that sent nothing gets no answer. -/
def reply (service : Service) (fs : Files.FileSystem) (peer : String) (buffer : Bytes) :
    Logged (Option Response) :=
  if buffer.isEmpty then do
    Logged.emit ⟨.debug, "connection closed without data", [("peer", peer)]⟩
    return none
  else do return some (← service.respond fs buffer)

/-- What is logged of a response once it was sent. -/
def sentEvent (peer : String) (response : Response) : Log.Event :=
  ⟨.info, "response sent",
    [("peer", peer), ("status", Text.numeral response.status.code),
     ("bytes", Text.numeral response.body.length)]⟩

/-- Answers a peer and gives the bytes to send back. -/
def speak (service : Service) (fs : Files.FileSystem) (peer : String) (buffer : Bytes) :
    Logged Bytes := do
  match ← service.reply fs peer buffer with
  | none => return []
  | some response => do
    Logged.emit (sentEvent peer response)
    return response.toBytes

/-- A whole connection: takes a request in and answers it. -/
def converse (service : Service) (fs : Files.FileSystem) (peer : String)
    (script : List Delivery) : Except ReadFault (Logged Bytes) :=
  (receive service.maxRequestSize script).result.map (service.speak fs peer)

/-- The one file that answering a buffer may look at, the files of its handlers
aside. -/
def fileFor? (service : Service) (buffer : Bytes) : Option String :=
  match (Request.parse buffer).value with
  | .ok request => Files.Path.resolve? service.root request.path
  | .error _ => none

end Service

end SiteServer.Connection
