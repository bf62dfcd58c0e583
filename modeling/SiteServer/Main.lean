import SiteServer.Program
import SiteServer.Server.Course
import Std.Async.DNS
import Std.Async.TCP
import Std.Sync.Channel

/-!
# Command line

The outer layer: it asks the system for arguments, files, sockets and the time,
hands what it learns to the library, and does what the library answers.  Files
are read before a buffer is answered, and only those that the answer may look at.
-/

namespace SiteServer.Main

open Std.Async (Async)
open Std.Net (SocketAddress IPv4Addr IPv6Addr)

/-- The socket that connections come in on. -/
abbrev Listener := Std.Async.TCP.Socket.Server

/-- The socket of one connection. -/
abbrev Client := Std.Async.TCP.Socket.Client

/-! ## Files -/

/-- The fault behind an error of the system. -/
def faultOf : IO.Error → Files.Fault
  | .noFileOrDirectory .. => .notFound
  | .permissionDenied .. => .permissionDenied
  | .inappropriateType _ code _ => if code = 21 then .isADirectory else .notADirectory
  | .invalidArgument _ code _ => if code = 40 then .tooManyLinks else .nameTooLong
  | .hardwareFault .. => .other "Input/output error (os error 5)"
  | e => .other (toString e)

/-- What a path leads to on the disk. -/
def readEntry (path : String) : IO Files.Entry := do
  try
    return .file (← IO.FS.readBinFile path).toList
  catch e =>
    match faultOf e with
    | .isADirectory => return .directory
    | .permissionDenied => return .unreadable [] .permissionDenied
    | .other why => return .unreadable [] (.other why)
    | why => return .absent why

/-- The files at some paths, as they are now. -/
def readFiles (paths : List String) : IO Files.FileSystem := do
  let entries ← paths.mapM fun path => return (path, ← readEntry path)
  return ⟨fun path => (entries.lookup path).getD (.absent .notFound)⟩

/-! ## The log -/

/-- Writes events to wherever the log goes. -/
abbrev Logger := List Log.Event → IO Unit

/-- The time as it stands before an event. -/
def timestamp : IO String := do
  return (← Std.Time.DateTime.now).format "uuuu-MM-dd'T'HH:mm:ss.SSSSSS'Z'"

/-- Opens the log. -/
def openLog (d : Log.Destination) : IO (Except Log.OpenError Logger) := do
  let filter := d.filter (← IO.getEnv Log.filterName)
  let logger (handle? : Option IO.FS.Handle) : Logger := fun events =>
    events.forM fun event => do
      if filter.enables Program.name event then
        let time ← timestamp
        let text (targeted : Bool) : String :=
          String.ofList (Log.Heading.write ⟨time, Log.mainThread, targeted⟩ Program.name event)
        if d.console then
          IO.print (text false)
          (← IO.getStdout).flush
        if let some handle := handle? then
          handle.putStr (text true)
          handle.flush
  match d.file with
  | none => return .ok (logger none)
  | some path =>
    try
      return .ok (logger (some (← IO.FS.Handle.mk path .append)))
    catch e =>
      return .error ⟨path, faultOf e⟩

/-- Writes the events of a computation and gives its value. -/
def logged {α : Type} (log : Logger) (x : Logged α) : IO α := do
  log x.events
  return x.value

/-! ## Sockets -/

/-- The word of the system about an error. -/
def reasonOf (e : IO.Error) : String :=
  match e with
  | .permissionDenied .. => Files.Fault.permissionDenied.message
  | .resourceBusy .. => "Address already in use (os error 98)"
  | .resourceExhausted .. => "Too many open files (os error 24)"
  | e => toString e

/-- The endpoint of a socket address. -/
def endpointOf (address : SocketAddress) : Server.Endpoint :=
  ⟨toString address.ipAddr, address.port.toNat⟩

/-- The socket address of a host, by its digits or by its name. -/
def resolve (host : String) (port : UInt16) : IO SocketAddress := do
  let digits := String.ofList (host.toList.filter fun c => c ≠ '[' ∧ c ≠ ']')
  match IPv4Addr.ofString host, IPv6Addr.ofString digits with
  | some ip, _ => return .v4 ⟨ip, port⟩
  | none, some ip => return .v6 ⟨ip, port⟩
  | none, none =>
    let found : Array Std.Net.IPAddr ← (Std.Async.DNS.getAddrInfo host "").block
    match found.toList.head? with
    | some (.v4 ip) => return .v4 ⟨ip, port⟩
    | some (.v6 ip) => return .v6 ⟨ip, port⟩
    | none => throw (IO.userError "no address for the host")

/-- Opens the socket that settings ask for. -/
def openListener (s : Settings) : IO (Except String Listener) := do
  try
    let listener ← Std.Async.TCP.Socket.Server.mk
    listener.bind (← resolve s.host s.port.toUInt16)
    listener.listen 128
    return .ok listener
  catch e => return .error (reasonOf e)

/-- What came of opening a socket. -/
def outcomeOf : Except String Listener → IO Server.BindOutcome
  | .error why => return .refused why
  | .ok listener => do
    try return .opened (endpointOf (← listener.getSockName))
    catch e => return .nameless (reasonOf e)

/-- Takes a request in. -/
partial def receive (client : Client) (limit : Nat) (received : Bytes) : IO Bytes := do
  match Connection.wanted? limit received with
  | none => return received
  | some want =>
    match ← (client.recv? want.toUInt64).block with
    | none => return received
    | some data =>
      if data.isEmpty then return received
      else receive client limit (received ++ data.toList)

/-- A connection that was accepted. -/
structure Accepted where
  client : Client
  peer : String

/-- Serves a connection. -/
def attend (site : Site) (log : Logger) (c : Accepted) : IO Unit := do
  try
    let buffer ← receive c.client site.settings.maxRequestSize []
    let fs ← readFiles (Program.filesFor site buffer)
    match ← logged log (site.service.reply fs c.peer buffer) with
    | none => return
    | some response =>
      (c.client.send ⟨response.toBytes.toArray⟩).block
      c.client.shutdown.block
      log [Connection.Service.sentEvent c.peer response]
  catch e =>
    log [⟨.error, "connection error", [("peer", c.peer), ("error", reasonOf e)]⟩]

/-- Serves the connections of a queue until it is closed. -/
partial def work (site : Site) (log : Logger) (queue : Std.CloseableChannel Accepted) :
    IO Unit := do
  match ← IO.wait (← queue.recv) with
  | none => return
  | some c =>
    attend site log c
    work site log queue

/-- Accepts connections until that fails, and gives the server as it is then. -/
partial def acceptAll (server : Server Unit) (listener : Listener) (log : Logger)
    (queue : Std.CloseableChannel Accepted) : IO (Server Unit) := do
  let accepted ← try
      let client ← listener.accept.block
      let peer := (endpointOf (← client.getPeerName)).text
      pure (Except.ok (⟨client, peer⟩ : Accepted))
    catch e => pure (Except.error (reasonOf e))
  match accepted with
  | .error why => logged log (server.attempt (.acceptFault why))
  | .ok c =>
    log (server.attempt (.accept c.peer ())).events
    discard <| IO.wait (← queue.send c)
    acceptAll server listener log queue

/-- Runs a server until it stops. -/
def runServer (site : Site) (log : Logger) : IO (Except ServerError Unit) := do
  let server : Server Unit ← logged log site.server
  let opened ← openListener site.settings
  let (server, entered) ← logged log (server.enter (← outcomeOf opened) fun _ => none)
  match entered, opened with
  | .error e, _ => return .error e
  | .ok (), .error why => return .error (.bind server.address why)
  | .ok (), .ok listener =>
    let queue ← Std.CloseableChannel.new
    let workers ← (List.range site.settings.workers).mapM fun _ =>
      IO.asTask (work site log queue) Task.Priority.dedicated
    let waiting ← logged log (server.attempt .check)
    let ended ← acceptAll waiting listener log queue
    discard <| EIO.toBaseIO queue.close
    workers.forM fun worker => discard (IO.wait worker)
    discard <| logged log (ended.conclude fun _ => .returned)
    match ended.stage with
    | .leaving result => return result
    | _ => return .ok ()

/-! ## The program -/

/-- Ends the program. -/
def finish (e : Program.Ending) : IO UInt32 := do
  IO.print e.out
  IO.eprint e.err
  return e.status.toUInt32

/-- The program with its settings. -/
def run (settings : Settings) : IO UInt32 := do
  let opened ←
    match settings.validate with
    | .ok () => openLog settings.logDestination
    | .error _ => pure (.ok fun _ => pure ())
  let launch := Program.launch settings (opened.map fun _ => ())
    (← readFiles (Program.filesAtLaunch settings))
  IO.print launch.shown
  (← IO.getStdout).flush
  match launch.site, opened with
  | .error e, _ => finish (Program.endOfFailure "" e)
  | .ok _, .error e => finish (Program.endOfFailure "" (.logging e))
  | .ok site, .ok log =>
    match ← runServer (← logged log site) log with
    | .ok () => return 0
    | .error e => finish (Program.endOfFailure "" (.server e))

end SiteServer.Main

/-- Reads the settings from the arguments and the environment, and serves the
site that they describe. -/
def main (args : List String) : IO UInt32 := do
  let names := SiteServer.Settings.Key.all.map (·.environmentName)
  let environment ← names.mapM fun name => return (name, ← IO.getEnv name)
  match SiteServer.Settings.ofCommandLine args fun name => (environment.lookup name).join with
  | .ok settings => SiteServer.Main.run settings
  | .error e => SiteServer.Main.finish (SiteServer.Program.endOfUsage e)
