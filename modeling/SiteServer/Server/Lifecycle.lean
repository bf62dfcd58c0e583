import SiteServer.Log.Event
import SiteServer.Server.State
import SiteServer.Workers.Pool

/-!
# The life of a server

A server is a state, the socket it listens on, and a flag by which anyone may ask
it to shut down.  Its own thread opens the socket, enters a run, accepts
connections and hands each of them to the pool, and at last leaves the run: it
closes the socket, has the pool finish what was handed in, and stops.

The flag is looked at before each accept and at no other time, so a server that
waits for a connection stops only after the next one has come.

As for the pool, what the threads can do is cut into moves, each at one instant.
What the system answers is part of the move.  `bind` and `enter` are the calls up
to the point where connections are accepted; each of their early ends leaves the
server as that end finds it.
-/

namespace SiteServer

open Workers (Pool)

namespace Server

/-- Who holds the socket that connections come in on. -/
inductive Socket where
  | unopened
  /-- Open, and the server's. -/
  | owned
  /-- Open, and taken by a run. -/
  | lent
  | closed
deriving DecidableEq, Repr

/-- What the system answers when a socket is to be opened. -/
inductive BindOutcome where
  | refused (why : String)
  /-- The socket was opened, but its address could not be learned. -/
  | nameless (why : String)
  | opened (endpoint : Endpoint)
deriving DecidableEq, Repr

/-- What the server's own thread is at. -/
inductive Stage (γ : Type) where
  /-- Between two calls. -/
  | idle
  /-- About to look at the flag. -/
  | checking
  | accepting
  /-- About to hand a connection to the pool. -/
  | handing (connection : γ)
  /-- Out of the loop, with the result of the run. -/
  | leaving (result : Except ServerError Unit)
  /-- The socket is closed, and the pool is shutting down. -/
  | draining (result : Except ServerError Unit)

end Server

/-- A server whose connections are of type `γ`. -/
structure Server (γ : Type) where
  /-- The address to listen on. -/
  address : String
  /-- The size of the pool. -/
  workers : Nat
  state : Server.State
  socket : Server.Socket
  /-- The address of the socket, from the time it is known. -/
  localAddress : Option Server.Endpoint
  /-- Whether a shutdown was asked for. -/
  requested : Bool
  stage : Server.Stage γ
  /-- The pool of the run. -/
  pool : Option (Pool γ)
  /-- The connections that were accepted, in order. -/
  accepted : List γ

namespace Server

variable {γ : Type}

/-- A server without a socket. -/
def create (address : String) (workers : Nat) : Server γ where
  address := address
  workers := workers
  state := .created
  socket := .unopened
  localAddress := none
  requested := false
  stage := .idle
  pool := none
  accepted := []

/-- Asks for a shutdown. -/
def request (server : Server γ) : Server γ := { server with requested := true }

/-- Opens the socket.  One whose address cannot be learned is closed again, with
the server past `created`. -/
def bind (server : Server γ) (outcome : BindOutcome) :
    Logged (Server γ × Except ServerError Endpoint) :=
  if server.state ≠ .created then return (server, .error (.invalidState server.state))
  else match outcome with
    | .refused why => do
      Logged.emit (.critical "failed to bind listener"
        [("address", server.address), ("error", why)])
      return (server, .error (.bind server.address why))
    | .nameless why =>
      return ({ server with state := .bound, socket := .closed },
        .error (.bind server.address why))
    | .opened endpoint => do
      Logged.emit ⟨.info, "server listening", [("address", endpoint.text)]⟩
      return ({ server with
        state := .listening
        socket := .owned
        localAddress := some endpoint }, .ok endpoint)

/-- Enters the loop of a server that listens.  The run takes the socket before it
opens the pool, and closes it if there is to be no pool. -/
def enterListening (server : Server γ) (spawnFault? : Nat → Option String) :
    Logged (Server γ × Except ServerError Unit) :=
  if server.state ≠ .listening ∨ server.socket ≠ .owned then
    return (server, .error (.invalidState server.state))
  else match Pool.create server.workers spawnFault? with
    | .error e => return ({ server with socket := .closed }, .error (.pool e))
    | .ok pool => do
      Logged.emit ⟨.info, "server running", [("workers", Text.numeral server.workers)]⟩
      return ({ server with
        state := .running
        socket := .lent
        stage := .checking
        pool := some pool }, .ok ())

/-- Enters a run, with the socket opened first if it was not. -/
def enter (server : Server γ) (outcome : BindOutcome) (spawnFault? : Nat → Option String) :
    Logged (Server γ × Except ServerError Unit) :=
  if server.state = .created then do
    let (bound, result) ← server.bind outcome
    match result with
    | .error e => return (bound, .error e)
    | .ok _ => bound.enterListening spawnFault?
  else server.enterListening spawnFault?

/-- One move around a server. -/
inductive Move (γ : Type) where
  | bind (outcome : BindOutcome)
  | enter (outcome : BindOutcome) (spawnFault? : Nat → Option String)
  /-- Anyone asks for a shutdown. -/
  | request
  /-- The loop looks at the flag. -/
  | check
  | accept (peer : String) (connection : γ)
  | acceptFault (why : String)
  /-- The loop hands the connection to the pool. -/
  | hand
  /-- The run is over: the socket is closed. -/
  | leave
  /-- A move of the pool. -/
  | pool (move : Workers.Move γ)
  /-- The pool is shut down: the server stops. -/
  | stop

/-- Whether a move of the pool fits what the server's thread is at: tasks are
handed in by the loop alone, and the pool is shut down once the loop is left. -/
def permits (stage : Stage γ) : Workers.Move γ → Bool
  | .submit _ => false
  | .flag | .notifyAll | .join | .drop =>
    match stage with
    | .draining _ => true
    | _ => false
  | _ => true

/-- Hands a connection to the pool. -/
def hand (server : Server γ) (pool : Pool γ) (connection : γ) : Logged (Server γ) :=
  match pool.submit connection with
  | .ok after => return { server with pool := some after, stage := .checking }
  | .error e => do
    Logged.emit ⟨.error, "could not enqueue connection", [("error", e.message)]⟩
    return { server with stage := .leaving (.error (.pool e)) }

/-- Closes the socket; a shutdown that was asked for is noted. -/
def leave (server : Server γ) (result : Except ServerError Unit) : Logged (Server γ) :=
  if server.requested then do
    Logged.emit ⟨.info, "shutdown requested, draining connections", []⟩
    return { server with
      state := .shutdownRequested, socket := .closed, stage := .draining result }
  else return { server with socket := .closed, stage := .draining result }

/-- Makes a move, if it can be made. -/
def step? (server : Server γ) : Move γ → Option (Logged (Server γ))
  | .bind outcome =>
    match server.stage with
    | .idle => some (Prod.fst <$> server.bind outcome)
    | _ => none
  | .enter outcome spawnFault? =>
    match server.stage with
    | .idle => some (Prod.fst <$> server.enter outcome spawnFault?)
    | _ => none
  | .request => some (return server.request)
  | .check =>
    match server.stage with
    | .checking =>
      some (return { server with
        stage := if server.requested then .leaving (.ok ()) else .accepting })
    | _ => none
  | .accept peer connection =>
    match server.stage with
    | .accepting => some do
      Logged.emit ⟨.debug, "connection accepted", [("peer", peer)]⟩
      return { server with
        stage := .handing connection, accepted := server.accepted ++ [connection] }
    | _ => none
  | .acceptFault why =>
    match server.stage with
    | .accepting => some do
      Logged.emit (.critical "accept failed, stopping server" [("error", why)])
      return { server with stage := .leaving (.error (.accept why)) }
    | _ => none
  | .hand =>
    match server.stage, server.pool with
    | .handing connection, some pool => some (server.hand pool connection)
    | _, _ => none
  | .leave =>
    match server.stage with
    | .leaving result => some (server.leave result)
    | _ => none
  | .pool move =>
    match server.pool with
    | some pool =>
      if permits server.stage move then
        (pool.step? move).map fun after => return { server with pool := some after }
      else none
    | none => none
  | .stop =>
    match server.stage, server.pool with
    | .draining _, some pool =>
      if pool.closing = .joined then some do
        Logged.emit ⟨.info, "server stopped", []⟩
        return { server with state := .stopped, stage := .idle }
      else none
    | _, _ => none

/-- Makes moves one after another, if all of them can be made. -/
def steps? (server : Server γ) : List (Move γ) → Option (Server γ)
  | [] => some server
  | move :: moves => (server.step? move).bind fun after => steps? after.value moves

/-- A server that some sequence of moves leads to. -/
def Reachable (address : String) (workers : Nat) (server : Server γ) : Prop :=
  ∃ moves, steps? (create address workers) moves = some server

theorem steps?_append (server : Server γ) (moves more : List (Move γ)) :
    server.steps? (moves ++ more) = (server.steps? moves).bind (·.steps? more) := by
  induction moves generalizing server with
  | nil => rfl
  | cons move moves ih =>
      simp only [List.cons_append, steps?]
      cases server.step? move with
      | none => rfl
      | some after => simpa using ih after.value

end Server

end SiteServer
