/-
  HttpApp/Main.lean --- the program: the demo application behind a socket.

  The program listens at the address that the environment names, serves each
  connection in a task of its own, and stops when it is interrupted, once its open
  connections are served or its patience is over.  What requests mean is decided
  in the other modules; here bytes are moved and time passes.
-/
import HttpApp.Demo
import HttpApp.Report
import HttpApp.Server.Connection
import HttpApp.Server.Drain
import HttpApp.Wire.Date
import HttpApp.Wire.Reply
import HttpApp.Wire.Stage
import Std.Async.Signal
import Std.Async.TCP
import Std.Async.Timer

set_option autoImplicit false

namespace HttpApp.Program

open Std.Async

/-- What the connections of a server share. -/
structure Service where
  app : App
  config : ServerConfig
  /-- how many requests were given an identifier -/
  counter : IO.Ref Nat
  poolStarted : IO.Ref Bool
  /-- how many connections are served at the moment -/
  active : IO.Ref Nat

/-! ## Addresses, time and reports -/

def addressOf : Std.Net.SocketAddress → Address
  | .v4 a => .v4 a.addr.octets.toList a.port
  | .v6 a => .v6 a.addr.segments.toList 0 a.port

def socketOf : Address → Std.Net.SocketAddress
  | .v4 octets port => .v4 ⟨⟨Vector.ofFn fun i => octets.getD i.val 0⟩, port⟩
  | .v6 groups _ port => .v6 ⟨⟨Vector.ofFn fun i => groups.getD i.val 0⟩, port⟩

/-- The nanoseconds since the start of 1970. -/
def nanoseconds : IO Nat := do
  return (← Std.Time.Timestamp.now).toNanosecondsSinceUnixEpoch.val.toNat

/-- The date of today, for header fields. -/
def today : IO String := do return Wire.date ((← nanoseconds) / 1000000000)

/-- A new identifier for a request. -/
def newId (s : Service) : IO String := do
  let n ← s.counter.modifyGet fun n => (n + 1, n + 1)
  return Server.freshId (← nanoseconds) n

/-- Writes events, but for those that are of use only while a program is written. -/
def report (events : List Event) : IO Unit := do
  for e in events do
    if e.level ≠ .debug then IO.println e.toJson.compact

/-! ## Connections -/

/-- Sends bytes to a client. -/
def send (client : TCP.Socket.Client) (bytes : Bytes) : Async Unit :=
  client.send (ByteArray.mk bytes.toArray)

/-- Answers a request; whether the connection stays open. -/
def answer (s : Service) (client : TCP.Socket.Client) (remote : Address) (r : Wire.Reading) :
    Async Bool := do
  let served := Server.serve s.app s.config r.head remote r.request (← newId s) (← s.poolStarted.get)
  s.poolStarted.set served.poolStarted
  if 0 < served.elapsed then sleep (.ofNat served.elapsed)
  report served.events
  let response := Wire.final served.response
  let keepAlive :=
    s.config.keepAlive && r.keepAlive && Wire.staysOpen r.head.method served.response.status
  send client (Wire.write r.head.method r.head.version keepAlive (← today) response)
  return keepAlive

/-- Reads and answers the requests of a connection. -/
def converse (s : Service) (client : TCP.Socket.Client) (remote : Address) : Async Unit := do
  let mut stage : Wire.Stage := .opening []
  let mut ahead : Bytes := []
  let mut alive := true
  while alive do
    let limit := s.config.maxBodySize
    let progress ←
      if ahead.isEmpty then
        match ← client.recv? 16384 with
        | some bytes => pure (stage.feed limit remote bytes.toList)
        | none => pure (stage.close limit remote)
      else pure (stage.feed limit remote ahead)
    ahead := []
    match progress with
    | .more next goAhead =>
      stage := next
      if goAhead then send client Wire.goAhead
    | .read r =>
      stage := .opening []
      ahead := r.rest
      alive ← answer s client remote r
    | .faulty status =>
      send client (Wire.writeFault status (← today))
      alive := false
    | .gone => alive := false

/-- Serves the client at an address to the end of its connection. -/
def serveClient (s : Service) (client : TCP.Socket.Client) (remote : Address) : Async Unit := do
  try
    converse s client remote
    client.shutdown
  catch e =>
    report [⟨.error, "Error serving connection",
      [Event.textField "remote" remote.shown, Event.textField "error" (toString e)]⟩]

/-- Serves a connection to its end. -/
def serveConnection (s : Service) (client : TCP.Socket.Client) : Async Unit := do
  s.active.modify (· + 1)
  try
    serveClient s client (addressOf (← client.getPeerName))
  finally
    s.active.modify (· - 1)

/-! ## The server -/

/-- Opens the socket at which a server listens. -/
def openSocket (address : Address) : IO TCP.Socket.Server := do
  let socket ← TCP.Socket.Server.mk
  socket.bind (socketOf address)
  socket.listen 1024
  return socket

/-- Waits until no connection is served, or until the time for that is up. -/
def drain (s : Service) : Async Unit := do
  let mut waited := 0
  while (← s.active.get) ≠ 0 ∧ waited < s.config.shutdownTimeout do
    sleep (.ofNat 50)
    waited := waited + 50
  let left ← s.active.get
  if left ≠ 0 then
    report [ServerRun.timeUpEvent ⟨.draining, List.replicate left .active⟩]

/-- Accepts connections until the program is interrupted. -/
def listen (s : Service) (socket : TCP.Socket.Server) : Async Unit := do
  let address := addressOf (← socket.getSockName)
  report [ServerRun.listeningEvent address.shown s.app.table.size]
  let interrupted ← Signal.Waiter.mk .sigint false
  let mut accepting := true
  while accepting do
    let client? ← Selectable.one #[
      .case socket.acceptSelector fun client => return some client,
      .case interrupted.selector fun _ => return none]
    match client? with
    | some client => background (serveConnection s client)
    | none =>
      report [ServerRun.stoppingEvent]
      accepting := false
  drain s

/-- Reports why the program ends. -/
def giveUp (message : String) (behind : Option String) : IO UInt32 := do
  let cause := match behind with
    | some text => "\n\nCaused by:\n    " ++ text
    | none => ""
  IO.eprintln ("Error: " ++ message ++ cause)
  return 1

/-- Runs an application at an address. -/
def serve (router : Router) (address : Address) : IO UInt32 := do
  report router.events
  let service : Service := {
    app := router.build
    config := { address }
    counter := ← IO.mkRef 0
    poolStarted := ← IO.mkRef false
    active := ← IO.mkRef 0 }
  match ← (openSocket address).toBaseIO with
  | .error e =>
    let fault : Error := .bind address.shown (.other (toString e))
    giveUp fault.message fault.behind?
  | .ok socket =>
    Async.block (listen service socket)
    report (service.app.closing (← service.poolStarted.get) false)
    return 0

/-- The address that the environment names, or else port 8000 of the own host. -/
def chosenAddress? : IO (Option Address) := do
  match ← IO.getEnv "SWITCHYARD_ADDR" with
  | some text => return Address.read? text
  | none => return some (ServerConfig.address {})

end HttpApp.Program

/-- Serves the demo application. -/
def main : IO UInt32 := do
  match ← HttpApp.Program.chosenAddress? with
  | none => HttpApp.Program.giveUp "invalid socket address syntax" none
  | some address =>
    match HttpApp.Demo.router with
    | .error e => HttpApp.Program.giveUp e.message none
    | .ok router => HttpApp.Program.serve router address
