import SiteServer.Connection.Respond
import SiteServer.Proofs.Http.IndexPage
import SiteServer.Proofs.Routes.Registrations

/-!
# Who answers a request

A request goes to the last registration of its path, if that has the method of the
request.  Every other buffer is answered, and logged, as if no route had ever been
registered: routes make no difference but through the one that they give for the
request (`respond_eq_of_answering`).

No request is for the root itself, so a route for it is never taken.
-/

namespace SiteServer

open Files (FileSystem)
open Http (Method Request Response)

/-- What is sent for what a handler did. -/
def Handled.answer : Handled → Response
  | returned response => response
  | panicked => .internalError

/-- A response is sent as it was returned; a handler that panics is answered for with a page
that says so. -/
theorem Handled.answer_cases (handled : Handled) :
    (∃ response, handled = .returned response ∧ handled.answer = response) ∨
      handled = .panicked ∧ handled.answer.IsNotice 500 "500 Internal Server Error" := by
  cases handled with
  | returned response => exact .inl ⟨response, rfl, rfl⟩
  | panicked => exact .inr ⟨rfl, ⟨rfl, rfl, rfl, rfl⟩⟩

namespace Connection.Service

variable {service : Service} {fs : FileSystem} {request : Request}

/-- The route of a request answers it, and the page for internal errors stands in for
a handler that panics. -/
theorem value_dispatch_of_answering {route : Route}
    (h : service.routes.answering? request.path request.method = some route) :
    (service.dispatch fs request).value = (route.handler fs request).value.answer := by
  unfold dispatch Routes.handle
  rw [h]
  simp only [Logged.value_bind, Logged.value_pure]
  cases (route.handler fs request).value <;> rfl

/-- Two tables of routes with the same route for the request that is in a buffer, or
with none, make for the same answer to it. -/
theorem respond_eq_of_answering (service : Service) (fs : FileSystem) {routes other : Routes}
    {buffer : Bytes}
    (h : ∀ request, (Request.parse buffer).value = .ok request →
      routes.answering? request.path request.method =
        other.answering? request.path request.method) :
    { service with routes }.respond fs buffer =
      { service with routes := other }.respond fs buffer := by
  apply respond_eq_of_dispatch
  intro request hparse
  unfold dispatch Routes.handle
  rw [h request hparse]
  rfl

/-- The service with the routes of a history of registrations. -/
def routedBy (service : Service) (history : List Registration) : Service :=
  { service with routes := .ofHistory history }

/-- What a history of registrations decides. -/
structure Decides (history : List Registration) : Prop where
  /-- The last registration of a path answers the requests for that path with its
  methods, whatever files there are. -/
  handled : ∀ (service : Service) (fs : FileSystem) (buffer : Bytes) (request : Request)
      (registration : Registration),
    (Request.parse buffer).value = .ok request →
    registration.LastIn history → registration.path = request.path →
    request.method ∈ registration.methods →
    ((service.routedBy history).respond fs buffer).value =
      (registration.handler fs request).value.answer
  /-- All else is answered as it is without routes, a request included whose method
  only an earlier registration had. -/
  left : ∀ (service : Service) (fs : FileSystem) (buffer : Bytes),
    (∀ (request : Request) (registration : Registration),
      (Request.parse buffer).value = .ok request →
      registration.LastIn history → registration.path = request.path →
      request.method ∉ registration.methods) →
    (service.routedBy history).respond fs buffer =
      { service with routes := .empty }.respond fs buffer
  /-- A path and a method are not answered exactly if nothing is done for them. -/
  refused : ∀ (fs : FileSystem) (path : String) (method : Method) (request : Request),
    (Routes.ofHistory history).answers path method = false ↔
      ((Routes.ofHistory history).handle fs path method request).value = none
  /-- They are answered exactly if a response is returned for them, unless the handler
  panics. -/
  answered : ∀ (fs : FileSystem) (path : String) (method : Method) (request : Request),
    ((Routes.ofHistory history).handle fs path method request).value ≠ some .panicked →
    ((Routes.ofHistory history).answers path method = true ↔
      ∃ response, ((Routes.ofHistory history).handle fs path method request).value =
        some (.returned response))
  /-- There is one route for each path that was registered. -/
  size : (Routes.ofHistory history).size = (history.map Registration.path).toFinset.card
  /-- Asking for the root is asking for the index page. -/
  root : ∀ (service : Service) (fs : FileSystem) (buffer other : Bytes),
    Http.AskAlike buffer other "/" Http.indexPath →
    ((service.routedBy history).respond fs buffer).value =
      ((service.routedBy history).respond fs other).value
  /-- Registrations for the root make no difference to anything. -/
  rootless : ∀ (service : Service) (fs : FileSystem) (buffer : Bytes),
    (service.routedBy history).respond fs buffer =
      (service.routedBy (history.filter (·.path ≠ "/"))).respond fs buffer

/-- For each path its last registration decides, and for the root none does. -/
theorem last_registration_decides (history : List Registration) : Decides history where
  handled := by
    intro service fs buffer request registration hparse hlast hpath hmethod
    rw [value_respond_of_ok hparse]
    have hroute : (service.routedBy history).routes.answering? request.path request.method =
        some registration.route :=
      Routes.answering?_ofHistory.2 ⟨registration, hlast, hpath, hmethod, rfl⟩
    exact value_dispatch_of_answering hroute
  left := by
    intro service fs buffer hnone
    apply respond_eq_of_answering
    intro request hparse
    exact Routes.answering?_ofHistory_eq_none.2 (hnone request · hparse)
  refused := by
    intro fs path method request
    exact (Routes.value_handle_eq_none_iff ..).symm
  answered := by
    intro fs path method request hcalm
    rw [← Bool.not_eq_false, ← Routes.value_handle_eq_none_iff _ fs path method request]
    cases hvalue : ((Routes.ofHistory history).handle fs path method request).value with
    | none => simp
    | some handled =>
        cases handled with
        | returned response => simp
        | panicked => exact absurd hvalue hcalm
  size := Routes.size_ofHistory history
  root := by
    intro service fs buffer other halike
    have hsame := Http.value_parse_root halike
    cases hparse : (Request.parse other).value with
    | error e => rw [value_respond_of_error hparse, value_respond_of_error (hsame.trans hparse)]
    | ok request => rw [value_respond_of_ok hparse, value_respond_of_ok (hsame.trans hparse)]
  rootless := by
    intro service fs buffer
    apply respond_eq_of_answering
    intro request hparse
    have hpath := Http.path_ne_root hparse
    rw [Routes.answering?, Routes.answering?, Routes.find?_ofHistory_filter hpath]

/-- A door that opens to one method first and to another one later, and a root. -/
def rehung : List Registration :=
  [⟨"/door", [.get, .put], fun _ _ => return .returned .notFound⟩,
   ⟨"/", [.get], fun _ _ => return .panicked⟩,
   ⟨"/door", [.put], fun _ _ => return .panicked⟩]

/-- A service without routes or files of its own. -/
def bare : Service := ⟨.empty, .builtIn, "./site", 30000⟩

/-- The door is answered for by its last handler, and with a file for the method that
it lost; the root is not asked for a page of its own. -/
theorem rehung_decides :
    ((bare.routedBy rehung).respond .empty
        (Text.bytes "PUT /door HTTP/1.1\r\n\r\n")).value = .internalError ∧
      (bare.routedBy rehung).respond .empty (Text.bytes "GET /door HTTP/1.1\r\n\r\n") =
        bare.respond .empty (Text.bytes "GET /door HTTP/1.1\r\n\r\n") ∧
      ((bare.routedBy rehung).respond .empty
          (Text.bytes "GET / HTTP/1.1\r\nA: b\r\n\r\n")).value =
        ((bare.routedBy rehung).respond .empty
          (Text.bytes "GET\t/index.html HTTP/1.1\r\nA: b\r\n\r\n")).value ∧
      (Routes.ofHistory rehung).size = 2 := by
  have hdecides := last_registration_decides rehung
  refine ⟨?_, ?_, ?_, ?_⟩
  · exact hdecides.handled bare .empty _ _
      ⟨"/door", [.put], fun _ _ => return .panicked⟩ rfl
      ⟨rehung.take 2, [], rfl, by simp⟩ rfl (by decide)
  · apply hdecides.left
    intro request registration hparse hlast hpath
    obtain rfl := Except.ok.inj hparse
    rcases (@Registration.lastIn_append_iff (rehung.take 2) _ _).1 hlast with rfl | ⟨-, hne⟩
    · decide
    · exact absurd hpath.symm hne
  · apply hdecides.root
    refine ⟨⟨"GET", "HTTP/1.1", ?root, ?index⟩, by decide, by decide⟩
    case root => exact ⟨by decide, by decide, by decide⟩
    case index => exact ⟨by decide, by decide, by decide⟩
  · rw [hdecides.size]; decide

end Connection.Service

end SiteServer
