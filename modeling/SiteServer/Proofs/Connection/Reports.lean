import SiteServer.Proofs.Connection.Confinement

/-!
# What is logged of an answer

There are six ways to fail a request: it cannot be read, its handler panics, or there is no
file for it, because its path leads out of the site, because there is nothing there, because
what is there has no type, or because it cannot be read (`Failure`).  Each of them has a page
that the server answers with, and one event that says what happened (`Failure.report`).

The parts of an answer log for themselves, and none of them knows what the others have
logged already.  Still, a request that fails is reported once, by the event of its failure,
and one that does not fail raises no alarm at all (`failures_are_reported_once`).  Before
that, what was received is logged, and then each of its headers in their order; nothing else
is logged as a request or at the level of the headers (`Apart`).

What handlers log is up to them; here they log nothing (`Routes.LogNothing`).
-/

namespace SiteServer

open Files (Fault FileSystem TypeError)
open Http (Request RequestError Response)

namespace Logged

/-- A loop that emits one event for each of its elements. -/
theorem events_forM_emit {α : Type} (f : α → Log.Event) (l : List α) :
    (l.forM fun a => emit (f a)).events = l.map f := by
  induction l with
  | nil => rfl
  | cons a l ih =>
      show f a :: (l.forM fun a => emit (f a)).events = f a :: l.map f
      rw [ih]

end Logged

/-- No handler logs anything. -/
def Routes.LogNothing (routes : Routes) : Prop :=
  ∀ path route, routes.find? path = some route →
    ∀ (fs : FileSystem) request, (route.handler fs request).events = []

namespace Connection

/-! ## Events -/

/-- The event that a request was received. -/
def receivedEvent (request : Request) : Log.Event :=
  ⟨.debug, "request received",
    [("method", request.method.token), ("path", request.path),
     ("version", request.version.token), ("host", request.host),
     ("platform", request.platform.token), ("user_agent", request.userAgent)]⟩

/-- The event of one header, a name with its value. -/
def headerEvent (header : String × String) : Log.Event :=
  ⟨.trace, "request header", [("header", header.1), ("value", header.2)]⟩

/-- What is logged of a request: that it was received, and its headers in their order. -/
def requestEvents (request : Request) : List Log.Event :=
  receivedEvent request :: request.headers.entries.map headerEvent

/-- An event that has nothing to do with what was received. -/
def Apart (e : Log.Event) : Prop :=
  e.message ≠ "request received" ∧ e.level ≠ .trace

instance : DecidablePred Apart := fun e =>
  inferInstanceAs (Decidable (e.message ≠ "request received" ∧ e.level ≠ .trace))

/-- Why a request is answered with a page of the server's own. -/
inductive Failure where
  | malformed (e : RequestError)
  | panicked (request : Request)
  /-- The path leads out of the site. -/
  | outside (request : Request)
  /-- The path of a file leads to none. -/
  | missing (file : String)
  | untyped (file : String) (e : TypeError)
  | unreadable (file : String) (why : Fault)

/-- The page that a failure is answered with. -/
def Failure.page : Failure → Response
  | malformed _ => .badRequest
  | panicked _ => .internalError
  | outside _ | missing _ | untyped .. | unreadable .. => .notFound

/-- What the page of a failure says: the request is at fault for one that cannot be read, the
server for one whose handler panics, and what was asked for is missing in all other cases. -/
theorem Failure.isNotice_page (failure : Failure) :
    match failure with
    | malformed _ => failure.page.IsNotice 400 "400 Bad Request"
    | panicked _ => failure.page.IsNotice 500 "500 Internal Server Error"
    | outside _ | missing _ | untyped .. | unreadable .. =>
      failure.page.IsNotice 404 "404 Page Not Found" := by
  cases failure with
  | malformed | panicked | outside | missing | untyped | unreadable => exact ⟨rfl, rfl, rfl, rfl⟩

/-- The one event that reports a failure. -/
def Failure.report : Failure → Log.Event
  | malformed e => ⟨.warn, "malformed request", [("error", e.message)]⟩
  | panicked request =>
    ⟨.error, "route handler panicked", [("path", request.path), ("method", request.method.token)]⟩
  | outside request => ⟨.warn, "path escapes static root", [("path", request.path)]⟩
  | missing file => ⟨.warn, "file not found", [("path", file)]⟩
  | untyped file e =>
    ⟨.error, "could not determine content type", [("path", file), ("error", e.message)]⟩
  | unreadable file why =>
    ⟨.error, "failed to read file", [("path", file), ("error", why.message)]⟩

theorem Failure.isAlarm_report (failure : Failure) : failure.report.isAlarm = true := by
  cases failure with
  | malformed | panicked | outside | missing | untyped | unreadable => rfl

theorem Failure.apart_report (failure : Failure) : Apart failure.report := by
  cases failure with
  | malformed | panicked | outside | missing | untyped | unreadable =>
      constructor
      · simp [report]
      · simp [report]

/-- How a request ends: with a response that was made for it, or with a failure. -/
abbrev Ending := Except Failure Response

/-- What is answered in the end. -/
def Ending.answer : Ending → Response
  | .ok response => response
  | .error failure => failure.page

/-- What is reported in the end. -/
def Ending.reports : Ending → List Log.Event
  | .ok _ => []
  | .error failure => [failure.report]

/-! ## Ways to end -/

/-- How a request that could be read ends. -/
inductive EndsWith (service : Service) (fs : FileSystem) (request : Request) : Ending → Prop where
  | returned {route : Route} {response : Response}
      (routed : service.routes.answering? request.path request.method = some route)
      (handled : (route.handler fs request).value = .returned response) :
      EndsWith service fs request (.ok response)
  | panicked {route : Route}
      (routed : service.routes.answering? request.path request.method = some route)
      (handled : (route.handler fs request).value = .panicked) :
      EndsWith service fs request (.error (.panicked request))
  | outside (unrouted : service.routes.answering? request.path request.method = none)
      (refused : Files.Path.resolve? service.root request.path = none) :
      EndsWith service fs request (.error (.outside request))
  | missing {file : String}
      (unrouted : service.routes.answering? request.path request.method = none)
      (resolved : Files.Path.resolve? service.root request.path = some file)
      (absent : (fs.entry file).isFile = false) :
      EndsWith service fs request (.error (.missing file))
  | untyped {file : String} {e : TypeError}
      (unrouted : service.routes.answering? request.path request.method = none)
      (resolved : Files.Path.resolve? service.root request.path = some file)
      (present : (fs.entry file).isFile = true)
      (typeless : fs.typeOf service.table file = .error e) :
      EndsWith service fs request (.error (.untyped file e))
  | unreadable {file : String} {type : Http.MediaType} {why : Fault}
      (unrouted : service.routes.answering? request.path request.method = none)
      (resolved : Files.Path.resolve? service.root request.path = some file)
      (present : (fs.entry file).isFile = true)
      (typed : fs.typeOf service.table file = .ok type)
      (failed : (fs.entry file).read = .error why) :
      EndsWith service fs request (.error (.unreadable file why))
  | served {file : String} {type : Http.MediaType} {contents : Bytes}
      (unrouted : service.routes.answering? request.path request.method = none)
      (resolved : Files.Path.resolve? service.root request.path = some file)
      (present : (fs.entry file).isFile = true)
      (typed : fs.typeOf service.table file = .ok type)
      (whole : (fs.entry file).read = .ok contents) :
      EndsWith service fs request (.ok { status := .ok, type, body := contents })

/-- How a buffer ends: as the request in it does, or in being none. -/
inductive BufferEnds (service : Service) (fs : FileSystem) (buffer : Bytes) : Ending → Prop where
  | malformed {e : RequestError} (flawed : (Request.parse buffer).value = .error e) :
      BufferEnds service fs buffer (.error (.malformed e))
  | read {request : Request} {ending : Ending}
      (parsed : (Request.parse buffer).value = .ok request)
      (ends : EndsWith service fs request ending) : BufferEnds service fs buffer ending

/-- Every request ends in one of these ways. -/
theorem exists_endsWith (service : Service) (fs : FileSystem) (request : Request) :
    ∃ ending, EndsWith service fs request ending := by
  cases hroute : service.routes.answering? request.path request.method with
  | some route =>
      cases hhandled : (route.handler fs request).value with
      | returned response => exact ⟨_, .returned hroute hhandled⟩
      | panicked => exact ⟨_, .panicked hroute hhandled⟩
  | none =>
      cases hfile : Files.Path.resolve? service.root request.path with
      | none => exact ⟨_, .outside hroute hfile⟩
      | some file =>
          cases hpresent : (fs.entry file).isFile with
          | false => exact ⟨_, .missing hroute hfile hpresent⟩
          | true =>
              cases htype : fs.typeOf service.table file with
              | error e => exact ⟨_, .untyped hroute hfile hpresent htype⟩
              | ok type =>
                  cases hread : (fs.entry file).read with
                  | error why => exact ⟨_, .unreadable hroute hfile hpresent htype hread⟩
                  | ok contents => exact ⟨_, .served hroute hfile hpresent htype hread⟩

theorem exists_bufferEnds (service : Service) (fs : FileSystem) (buffer : Bytes) :
    ∃ ending, BufferEnds service fs buffer ending := by
  cases hparse : (Request.parse buffer).value with
  | error e => exact ⟨_, .malformed hparse⟩
  | ok request =>
      obtain ⟨ending, hends⟩ := exists_endsWith service fs request
      exact ⟨ending, .read hparse hends⟩

/-! ## What each part logs -/

theorem events_logRequest (request : Request) :
    (Service.logRequest request).events = requestEvents request := by
  show receivedEvent request :: _ = _
  rw [requestEvents]
  congr 1
  exact Logged.events_forM_emit headerEvent request.headers.entries

/-- Nothing but what is asked for instead of the root is logged while a buffer is read. -/
theorem eq_of_mem_events_parse {buffer : Bytes} {e : Log.Event}
    (h : e ∈ (Request.parse buffer).events) :
    e = ⟨.debug, "path is root, serving /index.html", []⟩ := by
  have htarget : ∀ target, e ∈ (Http.pathOfTarget target).events →
      e = ⟨.debug, "path is root, serving /index.html", []⟩ := by
    intro target hmem
    unfold Http.pathOfTarget at hmem
    split at hmem
    · exact List.mem_singleton.1 hmem
    · exact absurd hmem List.not_mem_nil
  unfold Request.parse at h
  dsimp only at h
  split at h
  · exact absurd h List.not_mem_nil
  · split at h
    · exact absurd h List.not_mem_nil
    · next line _ =>
        rw [Logged.events_bind, List.mem_append] at h
        rcases h with h | h
        · exact htarget line.target h
        · split at h
          · exact absurd h List.not_mem_nil
          · exact absurd h List.not_mem_nil

theorem of_mem_events_parse {buffer : Bytes} {e : Log.Event}
    (h : e ∈ (Request.parse buffer).events) : e.isAlarm = false ∧ Apart e := by
  rw [eq_of_mem_events_parse h]
  decide

theorem isAlarm_of_mem_requestEvents {request : Request} {e : Log.Event}
    (h : e ∈ requestEvents request) : e.isAlarm = false := by
  rcases List.mem_cons.1 h with rfl | h
  · rfl
  · obtain ⟨header, -, rfl⟩ := List.mem_map.1 h
    rfl

/-! ### Files -/

section Serving

variable {fs : FileSystem} {table : Media.ExtensionTable} {file : String}

theorem serve_of_missing (h : (fs.entry file).isFile = false) :
    fs.serve table file = ⟨none, [(Failure.missing file).report]⟩ := by
  rw [FileSystem.serve, if_pos (by simp [h])]
  rfl

theorem serve_of_untyped {e : TypeError} (present : (fs.entry file).isFile = true)
    (h : fs.typeOf table file = .error e) :
    fs.serve table file = ⟨none, [(Failure.untyped file e).report]⟩ := by
  rw [FileSystem.serve, if_neg (by simp [present]), h]
  rfl

theorem serve_of_unreadable {type : Http.MediaType} {why : Fault}
    (present : (fs.entry file).isFile = true) (typed : fs.typeOf table file = .ok type)
    (h : (fs.entry file).read = .error why) :
    fs.serve table file = ⟨none, [(Failure.unreadable file why).report]⟩ := by
  rw [FileSystem.serve, if_neg (by simp [present]), typed]
  simp only [h]
  rfl

theorem serve_of_whole {type : Http.MediaType} {contents : Bytes}
    (present : (fs.entry file).isFile = true) (typed : fs.typeOf table file = .ok type)
    (h : (fs.entry file).read = .ok contents) :
    fs.serve table file = ⟨some ⟨contents, type⟩,
      [⟨.debug, "serving file", [("path", file), ("content_type", type.name),
        ("bytes", Text.numeral contents.length)]⟩]⟩ := by
  rw [FileSystem.serve, if_neg (by simp [present]), typed]
  simp only [h]
  rfl

end Serving

/-- The response for what there is to serve. -/
def responseFor : Option Files.Served → Response
  | some served => { status := .ok, type := served.type, body := served.contents }
  | none => .notFound

section Answering

variable {service : Service} {fs : FileSystem} {request : Request}

/-- A request without a route logs what serving its file logs. -/
theorem dispatch_of_unrouted {file : String}
    (unrouted : service.routes.answering? request.path request.method = none)
    (resolved : Files.Path.resolve? service.root request.path = some file) :
    service.dispatch fs request = responseFor <$> fs.serve service.table file := by
  have hfile : service.serveFile fs request.path = responseFor <$> fs.serve service.table file := by
    rw [Service.serveFile, resolved]
    apply Logged.ext
    · rw [Logged.value_bind, Logged.value_map]
      cases (fs.serve service.table file).value with
      | none => rfl
      | some served => rfl
    · rw [Logged.events_bind, Logged.events_map]
      cases (fs.serve service.table file).value with
      | none => exact List.append_nil _
      | some served => exact List.append_nil _
  rw [Service.dispatch, Routes.handle, unrouted, ← hfile]
  rfl

/-- A request with a route logs what its handler logs, and then whether that panicked. -/
theorem dispatch_of_routed {route : Route}
    (routed : service.routes.answering? request.path request.method = some route) :
    service.dispatch fs request =
      route.handler fs request >>= fun handled =>
        match handled with
        | .returned response => return response
        | .panicked => do
          Logged.emit (Failure.panicked request).report
          return .internalError := by
  rw [Service.dispatch, Routes.handle, routed]
  apply Logged.ext
  · simp only [Logged.value_bind, Logged.value_pure]
    cases (route.handler fs request).value with
    | returned response => rfl
    | panicked => rfl
  · simp only [Logged.events_bind, Logged.value_bind, Logged.value_pure, Logged.events_pure,
      List.append_nil]
    cases (route.handler fs request).value with
    | returned response => rfl
    | panicked => rfl

end Answering

/-! ## What is logged of the whole -/

theorem Ending.filter_isAlarm_reports (ending : Ending) :
    ending.reports.filter Log.Event.isAlarm = ending.reports := by
  apply List.filter_eq_self.2
  intro e he
  cases ending with
  | ok response => exact absurd he List.not_mem_nil
  | error failure =>
      obtain rfl := List.mem_singleton.1 he
      exact failure.isAlarm_report

theorem Ending.apart_of_mem_reports {ending : Ending} {e : Log.Event}
    (h : e ∈ ending.reports) : Apart e := by
  cases ending with
  | ok response => exact absurd h List.not_mem_nil
  | error failure =>
      obtain rfl := List.mem_singleton.1 h
      exact failure.apart_report

/-- A computation answers with what an ending calls for, and logs its reports and nothing
else of that kind. -/
structure Tells (x : Logged Response) (ending : Ending) : Prop where
  value : x.value = ending.answer
  alarms : x.events.filter Log.Event.isAlarm = ending.reports
  apart : ∀ e ∈ x.events, Apart e

/-- It is enough to log the reports alone. -/
theorem tells_of_events {x : Logged Response} {ending : Ending}
    (value : x.value = ending.answer) (h : x.events = ending.reports) : Tells x ending where
  value := value
  alarms := by rw [h, ending.filter_isAlarm_reports]
  apart := by
    intro e he
    rw [h] at he
    exact Ending.apart_of_mem_reports he

/-- What is not served is reported. -/
theorem tells_of_notServed {failure : Failure} (h : failure.page = .notFound) :
    Tells (responseFor <$> ⟨none, [failure.report]⟩) (.error failure) := by
  apply tells_of_events
  · exact h.symm
  · exact Logged.events_map _ _

variable {service : Service} {fs : FileSystem}

/-- Dispatching a request tells how it ends. -/
theorem EndsWith.tells {request : Request} {ending : Ending}
    (h : EndsWith service fs request ending) (quiet : service.routes.LogNothing) :
    Tells (service.dispatch fs request) ending := by
  have hsilent : ∀ {route : Route},
      service.routes.answering? request.path request.method = some route →
        (route.handler fs request).events = [] := fun routed =>
    quiet _ _ (Option.filter_eq_some_iff.1 routed).1 fs request
  cases h with
  | returned routed handled =>
      rw [dispatch_of_routed routed]
      apply tells_of_events
      · rw [Logged.value_bind, handled]
        rfl
      · rw [Logged.events_bind, handled, hsilent routed]
        rfl
  | panicked routed handled =>
      rw [dispatch_of_routed routed]
      apply tells_of_events
      · rw [Logged.value_bind, handled]
        rfl
      · rw [Logged.events_bind, handled, hsilent routed]
        rfl
  | outside unrouted refused =>
      rw [Service.dispatch, Routes.handle, unrouted]
      show Tells (service.serveFile fs request.path) _
      rw [Service.serveFile, refused]
      exact tells_of_events rfl rfl
  | missing unrouted resolved absent =>
      rw [dispatch_of_unrouted unrouted resolved, serve_of_missing absent]
      exact tells_of_notServed rfl
  | untyped unrouted resolved present typeless =>
      rw [dispatch_of_unrouted unrouted resolved, serve_of_untyped present typeless]
      exact tells_of_notServed rfl
  | unreadable unrouted resolved present typed failed =>
      rw [dispatch_of_unrouted unrouted resolved, serve_of_unreadable present typed failed]
      exact tells_of_notServed rfl
  | served unrouted resolved present typed whole =>
      rw [dispatch_of_unrouted unrouted resolved, serve_of_whole present typed whole]
      -- The one event here is no report, but it is no alarm either.
      constructor
      · rfl
      · rfl
      · intro e he
        obtain rfl := List.mem_singleton.1 he
        constructor
        · simp
        · simp

section Buffers

variable {buffer : Bytes} {request : Request}

theorem events_respond_of_error {e : RequestError}
    (h : (Request.parse buffer).value = .error e) :
    (service.respond fs buffer).events =
      (Request.parse buffer).events ++ [(Failure.malformed e).report] := by
  rw [Service.respond, Logged.events_bind, h]
  rfl

theorem events_respond_of_ok (h : (Request.parse buffer).value = .ok request) :
    (service.respond fs buffer).events =
      (Request.parse buffer).events ++
        (requestEvents request ++ (service.dispatch fs request).events) := by
  rw [Service.respond, Logged.events_bind, h, ← events_logRequest]
  rfl

/-- Reading a buffer raises no alarm. -/
theorem filter_isAlarm_parse (buffer : Bytes) :
    (Request.parse buffer).events.filter Log.Event.isAlarm = [] := by
  rw [List.filter_eq_nil_iff]
  intro e he
  simp [(of_mem_events_parse he).1]

/-- Nor does a request as such. -/
theorem filter_isAlarm_requestEvents (request : Request) :
    (requestEvents request).filter Log.Event.isAlarm = [] := by
  rw [List.filter_eq_nil_iff]
  intro e he
  simp [isAlarm_of_mem_requestEvents he]

/-- Answering a buffer tells how it ends. -/
theorem BufferEnds.tells {ending : Ending} (h : BufferEnds service fs buffer ending)
    (quiet : service.routes.LogNothing) :
    (service.respond fs buffer).value = ending.answer ∧
      (service.respond fs buffer).events.filter Log.Event.isAlarm = ending.reports := by
  cases h with
  | malformed flawed =>
      constructor
      · exact Service.value_respond_of_error flawed
      · rw [events_respond_of_error flawed, List.filter_append, filter_isAlarm_parse]
        exact Ending.filter_isAlarm_reports (.error (.malformed _))
  | read parsed ends =>
      have htells := ends.tells quiet
      constructor
      · rw [Service.value_respond_of_ok parsed, htells.value]
      · rw [events_respond_of_ok parsed, List.filter_append, List.filter_append,
          filter_isAlarm_parse, filter_isAlarm_requestEvents, htells.alarms]
        rfl

/-- Of what is logged of a request, everything that is like the events of `requestEvents` is
one of them. -/
theorem filter_events_respond (p : Log.Event → Bool) (hp : ∀ e, Apart e → p e = false)
    (quiet : service.routes.LogNothing) (h : (Request.parse buffer).value = .ok request) :
    (service.respond fs buffer).events.filter p = (requestEvents request).filter p := by
  have hread : (Request.parse buffer).events.filter p = [] := by
    rw [List.filter_eq_nil_iff]
    intro e he
    simp [hp e (of_mem_events_parse he).2]
  have hanswered : (service.dispatch fs request).events.filter p = [] := by
    obtain ⟨ending, hends⟩ := exists_endsWith service fs request
    rw [List.filter_eq_nil_iff]
    intro e he
    simp [hp e ((hends.tells quiet).apart e he)]
  rw [events_respond_of_ok h, List.filter_append, List.filter_append, hread, hanswered,
    List.nil_append, List.append_nil]

end Buffers

theorem filter_received (request : Request) :
    (requestEvents request).filter (·.message = "request received") = [receivedEvent request] := by
  rw [requestEvents, List.filter_cons_of_pos (by simp [receivedEvent]), List.filter_map,
    List.filter_eq_nil_iff.2]
  · rfl
  · simp [headerEvent]

theorem filter_trace (request : Request) :
    (requestEvents request).filter (·.level = .trace) =
      request.headers.entries.map headerEvent := by
  rw [requestEvents, List.filter_cons_of_neg (by simp [receivedEvent]), List.filter_eq_self]
  intro e he
  obtain ⟨header, -, rfl⟩ := List.mem_map.1 he
  rfl

/-- What a service logs of a buffer. -/
structure Reported (service : Service) (fs : FileSystem) (buffer : Bytes) : Prop where
  /-- It ends in some way. -/
  ends : ∃ ending, BufferEnds service fs buffer ending
  /-- A failure is answered with its page and reported, and that is the only alarm. -/
  told : ∀ failure, BufferEnds service fs buffer (.error failure) →
    (service.respond fs buffer).value = failure.page ∧
      (service.respond fs buffer).events.filter Log.Event.isAlarm = [failure.report]
  /-- Otherwise there is no alarm, whatever the status of the response. -/
  calm : ∀ response, BufferEnds service fs buffer (.ok response) →
    (service.respond fs buffer).value = response ∧
      (service.respond fs buffer).events.filter Log.Event.isAlarm = []
  /-- A request is logged once, -/
  received : ∀ request, (Request.parse buffer).value = .ok request →
    (service.respond fs buffer).events.filter (·.message = "request received") =
      [receivedEvent request]
  /-- its headers are all that is logged at their level, -/
  headers : ∀ request, (Request.parse buffer).value = .ok request →
    (service.respond fs buffer).events.filter (·.level = .trace) =
      request.headers.entries.map headerEvent
  /-- they follow it at once, -/
  together : ∀ request, (Request.parse buffer).value = .ok request →
    requestEvents request <:+: (service.respond fs buffer).events
  /-- and they are in ascending order of the bytes of their names. -/
  ordered : ∀ request, (Request.parse buffer).value = .ok request →
    request.headers.entries.Pairwise fun a b => Text.bytes a.1 < Text.bytes b.1

/-- A service whose handlers log nothing reports each failure once, and nothing that is no
failure. -/
theorem failures_are_reported_once {service : Service} (quiet : service.routes.LogNothing)
    (fs : FileSystem) (buffer : Bytes) : Reported service fs buffer where
  ends := exists_bufferEnds service fs buffer
  told := fun _ hends => hends.tells quiet
  calm := fun _ hends => hends.tells quiet
  received := by
    intro request hparse
    rw [filter_events_respond _ _ quiet hparse, filter_received]
    intro e hapart
    simpa using hapart.1
  headers := by
    intro request hparse
    rw [filter_events_respond _ _ quiet hparse, filter_trace]
    intro e hapart
    simpa using hapart.2
  together := by
    intro request hparse
    rw [events_respond_of_ok hparse, ← List.append_assoc]
    exact List.infix_append _ _ _
  ordered := fun request _ => request.headers.ascending

/-- A request with two headers for the route of `Service.brittle`, whose handler panics. -/
def loudRequest : Bytes :=
  Text.bytes "GET /boom HTTP/1.1\r\nB: 2\r\nA: 1\r\n\r\n"

theorem brittle_reports_once :
    Service.brittle.routes.LogNothing ∧
      (∀ fs, (Service.brittle.respond fs loudRequest).events =
        [⟨.debug, "request received",
            [("method", "GET"), ("path", "/boom"), ("version", "HTTP/1.1"), ("host", ""),
              ("platform", "Unknown"), ("user_agent", "")]⟩,
          headerEvent ("A", "1"), headerEvent ("B", "2"),
          ⟨.error, "route handler panicked", [("path", "/boom"), ("method", "GET")]⟩]) ∧
      ∀ fs, Reported Service.brittle fs loudRequest := by
  have hquiet : Service.brittle.routes.LogNothing := by
    intro path route hroute fs request
    rw [Service.eq_of_find?_brittle hroute]
    rfl
  refine ⟨hquiet, ?_, ?_⟩
  · intro fs
    rfl
  · intro fs
    exact failures_are_reported_once hquiet fs loudRequest

end Connection
end SiteServer
