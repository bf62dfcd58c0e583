import SiteServer.Server.Lifecycle
import SiteServer.Workers.Schedule

/-!
# The course of a run

Of the many orders in which the threads around a server can move, one is singled
out: between two happenings that come from outside, the server's thread and the
workers go as far as they can.  A run is then decided by the list of what happens:
requests to shut down, connections, and failures to accept one.

The request alone does not end a run; it takes the next connection for the loop to
look at the flag.
-/

namespace SiteServer.Server

open Workers (Outcome Pool)

variable {γ : Type}

/-- What happens around a server that runs. -/
inductive Happening (γ : Type) where
  | request
  | arrival (peer : String) (connection : γ)
  | fault (why : String)

/-- Makes a move if it can be made. -/
def attempt (server : Server γ) (move : Move γ) : Logged (Server γ) :=
  (server.step? move).getD (return server)

/-- Lets the pool of a server go on. -/
def settlePool (f : Pool γ → Pool γ) (server : Server γ) : Server γ :=
  { server with pool := server.pool.map f }

/-- The next step of the loop, up to the point where it waits or is over. -/
def onward (ends : γ → Outcome) (server : Server γ) : Logged (Server γ) :=
  match server.stage with
  | .checking => server.attempt .check
  | .handing _ => settlePool (Pool.settle (some ∘ ends)) <$> server.attempt .hand
  | _ => return server

/-- Lets the loop go on until it waits for a connection or is over: it hands in
the connection it may have, and looks at the flag. -/
def advance (ends : γ → Outcome) (server : Server γ) : Logged (Server γ) := do
  (← server.onward ends).onward ends

/-- Leaves a run whose loop is over. -/
def conclude (ends : γ → Outcome) (server : Server γ) : Logged (Server γ) := do
  let server ← server.attempt .leave
  (settlePool (Pool.shutdown ends) server).attempt .stop

/-- What one happening does to a loop that waits. -/
def meet (ends : γ → Outcome) (server : Server γ) : Happening γ → Logged (Server γ)
  | .request => server.attempt .request
  | .arrival peer connection => do (← server.attempt (.accept peer connection)).advance ends
  | .fault why => do (← server.attempt (.acceptFault why)).advance ends

/-- Goes through what happens to a server in its loop, until the loop is over or
nothing more happens. -/
def follow (ends : γ → Outcome) (server : Server γ) : List (Happening γ) → Logged (Server γ)
  | [] => return server
  | happening :: rest =>
    match server.stage with
    | .leaving _ => return server
    | _ => do (← server.meet ends happening).follow ends rest

/-- A whole run; it has no result if it is not over when the course ends. -/
def run (ends : γ → Outcome) (server : Server γ) (outcome : BindOutcome)
    (spawnFault? : Nat → Option String) (course : List (Happening γ)) :
    Logged (Server γ × Option (Except ServerError Unit)) := do
  let (entered, result) ← server.enter outcome spawnFault?
  match result with
  | .error e => return (entered, some (.error e))
  | .ok () =>
    let after ← (← entered.advance ends).follow ends course
    match after.stage with
    | .leaving result => return (← after.conclude ends, some result)
    | _ => return (after, none)

end SiteServer.Server
