import SignIn.Launch
import SignIn.Party.Server
import Std.Http
import Std.Async

/-!
# The program

This is the outer layer: sockets, signals, the clock and the standard streams. It binds a port for
the relying party, and one for the mock broker if there is one, hands each request to the library
and writes down what is logged. What is answered is decided there.

Requests are handled one after the other. The program ends when it is interrupted or told to
terminate; requests that are being handled are answered first. The only server that it sends
requests to is a mock broker in the same process, so it signs users in only with that.
-/

namespace SignIn.Main

/-- A server: how it answers a request, whose body may have broken off. -/
structure Site where
  answer : Http.Request → (fault : Option String) → IO Http.Response

/-- A site with a state, which requests change one after the other. -/
def Site.ofState {σ : Type} (start : σ)
    (serve : Http.Request → Option String → σ → IO (σ × Http.Response)) : IO Site := do
  let state ← Std.Mutex.new start
  return ⟨fun request fault => state.atomically do
    let (s, response) ← serve request fault (← get)
    set s
    return response⟩

/-- The request as the library sees it. -/
def toRequest (r : Std.Http.Request.Head) (body : ByteArray) : Http.Request :=
  { Http.Request.ofTarget (toString r.method) (toString r.uri) with
    contentType := (r.headers.get? .contentType).map (·.value)
    body := body.toList }

/-- A response with its headers. -/
def ofResponse (r : Http.Response) : Std.Http.Response.Builder :=
  let status := (Std.Http.Status.ofCode none r.status.toUInt16).getD .internalServerError
  let header (name : String) (value : Option String) (b : Std.Http.Response.Builder) :
      Std.Http.Response.Builder :=
    match Std.Http.Header.Name.ofString? name, value.bind Std.Http.Header.Value.ofString? with
    | some name, some value => b.header name value
    | _, _ => b
  header "content-type" r.contentType (header "location" r.location
    (header "allow" r.allow (Std.Http.Response.withStatus status)))

instance : Std.Http.Server.Handler Site where
  ResponseBody := Std.Http.Body.Full
  onRequest site request := do
    let (body, fault) : ByteArray × Option String ←
      try pure (← request.body.readAll, none) catch e => pure (.empty, some (toString e))
    let response ← site.answer (toRequest request.line body) fault
    ((ofResponse response).fromBytes response.body.toUTF8 : Std.Async.Async _)

/-- What the calendar shows. -/
def now : IO Instant := do
  return (← Std.Time.Timestamp.now).toMillisecondsSinceUnixEpoch.toInt

/-- Writes down what was logged, and forgets it. -/
def writeLog (s : Party.State Unit) : IO (Party.State Unit) := do
  for d in s.log do
    let fields := d.fields.map fun f => s!" {f.1}={f.2}"
    IO.println ("ERROR " ++ d.message ++ String.join fields)
  return { s with log := [] }

/-- The site of a relying party. -/
def partySite (setup : Party.Setup Unit) : IO Site := do
  let seed ← IO.getRandomBytes 32
  let start := setup.start () (← IO.monoMsNow) (← now) (Launch.randomFrom seed.toList)
  let serve (r : Http.Request) (fault : Option String) (s : Party.State Unit) :
      IO (Party.State Unit × Http.Response) := do
    let s := s.passTime (← IO.monoMsNow) (← now)
    let (s, response) := setup.service.receive r s fault
    return (← writeLog s, response)
  Site.ofState start serve

/-- The site of a mock broker. -/
def mockSite (issuer : IO.Ref String) : Site :=
  ⟨fun request fault => return Mock.receive (← issuer.get) (← now).unixSeconds request fault⟩

/-- The address of a host and a port. -/
def resolve (host : String) (port : Nat) : Std.Async.Async Std.Net.SocketAddress := do
  let found ← match Std.Net.IPv4Addr.ofString host, Std.Net.IPv6Addr.ofString host with
    | some a, _ => pure #[Std.Net.IPAddr.v4 a]
    | _, some a => pure #[Std.Net.IPAddr.v6 a]
    | _, _ => Std.Async.DNS.getAddrInfo host (toString port)
  match (found[0]? : Option Std.Net.IPAddr) with
  | some (.v4 addr) => return .v4 ⟨addr, port.toUInt16⟩
  | some (.v6 addr) => return .v6 ⟨addr, port.toUInt16⟩
  | none => throw (.userError s!"no address for {host}")

/-- The port of a server. -/
def portOf (server : Std.Http.Server) : Nat :=
  match server.localAddr with
  | some (.v4 a) => a.port.toNat
  | some (.v6 a) => a.port.toNat
  | none => 0

/-- Serves a site on a host and a port, if it can be had. -/
def listen (site : Site) (host : String) (port : Nat) :
    Std.Async.Async (Except Launch.Failure Std.Http.Server) := do
  try
    return .ok (← Std.Http.Server.serve (← resolve host port) site)
  catch e => return .error (.service (.bind (toString e)))

/-- Waits for one of the signals that end the program. -/
def waitForSignal : Std.Async.Async Launch.Signal := do
  let interrupt ← Std.Async.Signal.Waiter.mk .sigint false
  let terminate ← Std.Async.Signal.Waiter.mk .sigterm false
  Std.Async.Selectable.one #[
    .case interrupt.selector fun _ => return Launch.Signal.interrupt,
    .case terminate.selector fun _ => return Launch.Signal.terminate]

/-- Reports why the program does not start. -/
def fail (f : Launch.Failure) : IO UInt32 := do
  IO.eprint f.report
  return Launch.Failure.exitCode.toUInt32

/-- Runs the relying party of a plan until a signal arrives. -/
def serveUntilSignal (plan : Launch.Plan) (dialect : Broker.Dialect) : Std.Async.Async UInt32 := do
  let c := plan.configuration
  let site ← partySite (plan.setup dialect)
  match ← listen site c.host c.port with
  | .error e => fail e
  | .ok server =>
    IO.println s!"INFO RP listening addr={c.host}:{portOf server}"
    let signal ← waitForSignal
    IO.println ("INFO " ++ signal.notice)
    server.shutdownAndWait
    return 0

/-- Runs the program with these arguments. -/
def run (a : CommandLine.Arguments) : Std.Async.Async UInt32 := do
  match Configuration.ofSettings a.setting with
  | .error e => fail (.service e)
  | .ok c =>
    let issuer ← IO.mkRef ""
    let mock ← if a.mockBroker then
        match ← listen (mockSite issuer) "127.0.0.1" (Launch.brokerPort c) with
        | .error e => return ← fail e
        | .ok server => pure (some server)
      else pure none
    match Launch.plan ((mock.map portOf).getD 0) a with
    | .error f => fail f
    | .ok plan =>
      issuer.set ((plan.mockPort.map Mock.baseUrl).getD "")
      match (plan.findDialect Http.Transport.offline ()).2 with
      | .error f => fail f
      | .ok dialect =>
        let code ← serveUntilSignal plan dialect
        if let some server := mock then server.shutdownAndWait
        if code = 0 then IO.println ("INFO " ++ Launch.farewell)
        return code

end SignIn.Main

open SignIn in
/-- Reads the command line and runs the program. -/
def main (arguments : List String) : IO UInt32 := do
  let values ← Setting.all.mapM fun s => do return (s, ← IO.getEnv s.key)
  let environment (s : Setting) : Option String := (values.lookup s).join
  match CommandLine.parse environment arguments with
  | .error stop =>
    IO.print (stop.output environment)
    IO.eprint stop.errorOutput
    return stop.exitCode.toUInt32
  | .ok a => (Main.run a).block
