import SiteServer.Connection.Respond
import SiteServer.Proofs.Files.Below

/-!
# Answers stay below the root

Whoever asks chooses every byte of the buffer, but has no say in where files are
looked for: an answer depends on one entry of the file system at most, and that
entry is below the root of the site.  Whether there is a file, of what type it is
and what is in it are looked up one after another, all under the same path
(`serve_congr`), and handlers are taken to leave files alone (`LeaveFilesAlone`).

Two file systems that agree below the root can thus not be told apart by asking
(`respond_confined`).  Links are not followed here; what they lead to is part of
the entry.
-/

namespace SiteServer

open Http (Request)

namespace Files.FileSystem

/-- Serving a file looks at its own entry and at no other. -/
theorem serve_congr {fs other : FileSystem} (table : Media.ExtensionTable) {path : String}
    (h : fs.entry path = other.entry path) : fs.serve table path = other.serve table path := by
  have htype : fs.typeOf table path = other.typeOf table path := by
    unfold typeOf typeName sniff
    rw [h]
  unfold serve
  rw [h, htype]

end Files.FileSystem

namespace Routes

/-- No handler looks at files. -/
def LeaveFilesAlone (routes : Routes) : Prop :=
  ∀ path route, routes.find? path = some route →
    ∀ (fs other : Files.FileSystem) request, route.handler fs request = route.handler other request

theorem LeaveFilesAlone.handle_congr {routes : Routes} (h : routes.LeaveFilesAlone)
    (fs other : Files.FileSystem) (path : String) (method : Http.Method) (request : Request) :
    routes.handle fs path method request = routes.handle other path method request := by
  unfold handle
  cases hroute : routes.answering? path method with
  | none => rfl
  | some route =>
      have hfound : routes.find? path = some route := (Option.filter_eq_some_iff.1 hroute).1
      simp only [h path route hfound fs other request]

end Routes

namespace Connection.Service

open Files (FileSystem)
open Files.Path (Below names proper resolve?)

/-- Without a handler for it, a request is answered with its own file. -/
theorem serveFile_congr {service : Service} {fs other : FileSystem} {path : String}
    (h : ∀ file, resolve? service.root path = some file → fs.entry file = other.entry file) :
    service.serveFile fs path = service.serveFile other path := by
  unfold serveFile
  cases hfile : resolve? service.root path with
  | none => rfl
  | some file => simp only [FileSystem.serve_congr service.table (h file hfile)]

theorem dispatch_congr {service : Service} (alone : service.routes.LeaveFilesAlone)
    {fs other : FileSystem} {request : Request}
    (h : ∀ file, resolve? service.root request.path = some file →
      fs.entry file = other.entry file) :
    service.dispatch fs request = service.dispatch other request := by
  unfold dispatch
  rw [alone.handle_congr fs other, serveFile_congr h]

/-- The one file that may be looked at is that of the request in the buffer. -/
theorem fileFor?_eq_some_iff {service : Service} {buffer : Bytes} {file : String} :
    service.fileFor? buffer = some file ↔
      ∃ request, (Request.parse buffer).value = .ok request ∧
        resolve? service.root request.path = some file := by
  unfold fileFor?
  cases (Request.parse buffer).value <;> simp

/-- An answer, and what is logged of it, depends on the one file of the request. -/
theorem respond_congr {service : Service} (alone : service.routes.LeaveFilesAlone)
    {fs other : FileSystem} {buffer : Bytes}
    (h : ∀ file, service.fileFor? buffer = some file → fs.entry file = other.entry file) :
    service.respond fs buffer = service.respond other buffer := by
  apply respond_eq_of_dispatch
  intro request hparse
  apply dispatch_congr alone
  intro file hfile
  exact h file (fileFor?_eq_some_iff.2 ⟨request, hparse, hfile⟩)

/-- Where the answers of a service can come from. -/
structure Confined (service : Service) : Prop where
  /-- Nothing is looked at but the file that the path of the request resolves to, and
  nothing at all where it resolves to none. -/
  one : ∀ (fs other : FileSystem) (buffer : Bytes),
    (∀ request, (Request.parse buffer).value = .ok request →
      ∀ file, resolve? service.root request.path = some file →
        fs.entry file = other.entry file) →
    service.respond fs buffer = service.respond other buffer
  /-- That file is reached from the root by the ordinary names of the path. -/
  below : ∀ (request : Request) (file : String),
    resolve? service.root request.path = some file →
    proper file.toList = proper service.root.toList ++ (names request.path.toList).map .name ∧
      ∀ segment ∈ names request.path.toList, Files.Path.Ordinary segment
  /-- What is not below the root makes no difference to any answer. -/
  blind : ∀ fs other : FileSystem,
    (∀ path, Below service.root path → fs.entry path = other.entry path) →
    ∀ buffer, service.respond fs buffer = service.respond other buffer

/-- The answers of a service whose handlers look at no files come from below its root,
whatever it is asked. -/
theorem respond_confined {service : Service} (alone : service.routes.LeaveFilesAlone) :
    Confined service where
  one := by
    intro fs other buffer h
    apply respond_congr alone
    intro file hfile
    rcases fileFor?_eq_some_iff.1 hfile with ⟨request, hparse, hresolve⟩
    exact h request hparse file hresolve
  below := by
    intro request file hfile
    exact ⟨Files.Path.proper_of_resolve? hfile, fun _ => Files.Path.ordinary_of_mem_names⟩
  blind := by
    intro fs other h buffer
    apply respond_congr alone
    intro file hfile
    rcases fileFor?_eq_some_iff.1 hfile with ⟨request, -, hresolve⟩
    exact h file (Files.Path.below_of_resolve? hresolve)

/-- A service with one route, whose handler panics. -/
def brittle : Service where
  routes := Dictionary.empty.insert "/boom" ⟨[.get], fun _ _ => return .panicked⟩
  table := .builtIn
  root := "./site"
  maxRequestSize := 30000

/-- The handler that panics is the only one. -/
theorem eq_of_find?_brittle {path : String} {route : Route}
    (h : brittle.routes.find? path = some route) :
    route = ⟨[.get], fun _ _ => return .panicked⟩ := by
  rw [brittle, Dictionary.find?_insert] at h
  split at h
  · exact (Option.some.inj h).symm
  · contradiction

theorem brittle_confined :
    brittle.routes.LeaveFilesAlone ∧
      brittle.fileFor? (Text.bytes "GET //./a//b.txt HTTP/1.1\r\n\r\n") = some "./site/./a//b.txt" ∧
      brittle.fileFor? (Text.bytes "GET //a/../b HTTP/1.1\r\n\r\n") = none ∧
      Confined brittle := by
  have halone : brittle.routes.LeaveFilesAlone := by
    intro path route hroute fs other request
    rw [eq_of_find?_brittle hroute]
  exact ⟨halone, by decide, by decide, respond_confined halone⟩

end Connection.Service

end SiteServer
