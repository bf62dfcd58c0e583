import SiteServer.Text.Numeral
import SiteServer.Workers.Mailbox

/-!
# The states of a server

A server goes through its states in one direction.  Opening the socket takes it
past `bound` to `listening`, a run makes it `running`, and it ends up `stopped`;
a run that ends on request passes through `shutdownRequested`.
-/

namespace SiteServer

namespace Server

/-- How far a server has come. -/
inductive State where
  | created
  | bound
  | listening
  | running
  | shutdownRequested
  | stopped
deriving DecidableEq, Repr

namespace State

/-- The name of a state in messages. -/
def label : State → String
  | created => "created"
  | bound => "bound"
  | listening => "listening"
  | running => "running"
  | shutdownRequested => "shutdown requested"
  | stopped => "stopped"

/-- The position of a state in the order of a server's life. -/
def rank : State → Nat
  | created => 0
  | bound => 1
  | listening => 2
  | running => 3
  | shutdownRequested => 4
  | stopped => 5

end State

/-- The address of an open socket. -/
structure Endpoint where
  ip : String
  port : Nat
deriving DecidableEq, Repr

/-- The text of an endpoint; an address with colons stands in brackets. -/
def Endpoint.text (e : Endpoint) : String :=
  (if e.ip.contains ':' then "[" ++ e.ip ++ "]" else e.ip) ++ ":" ++ Text.numeral e.port

end Server

/-- Why a call of a server fails. -/
inductive ServerError where
  /-- No socket could be opened at an address. -/
  | bind (address : String) (why : String)
  /-- A connection could not be accepted. -/
  | accept (why : String)
  | pool (e : Workers.PoolError)
  /-- The call does not fit the state. -/
  | invalidState (state : Server.State)
deriving DecidableEq, Repr

/-- The wording of an error. -/
def ServerError.message : ServerError → String
  | bind address _ => "failed to bind " ++ address
  | accept _ => "accept failed"
  | pool e => e.message
  | invalidState state => "operation not valid in state '" ++ state.label ++ "'"

/-- What the system said, where the error comes from it. -/
def ServerError.cause? : ServerError → Option String
  | bind _ why => some why
  | accept why => some why
  | pool e => e.cause?
  | invalidState _ => none

end SiteServer
