import SignIn.CommandLine.Wording
import SignIn.Mock.Client
import SignIn.Mock.Server
import SignIn.OpenId.Client
import SignIn.Party.Instance

/-!
# How the program starts

The program takes its configuration from the command line and then gets hold of a broker. Usually
that is the one of the configuration, about which it has to find out first. If a mock broker is
asked for, it runs in the same process, on the port of the broker's URL, and the configuration is
changed to point at it: broker and token endpoint are where the mock broker listens, so that it is
the issuer that tokens have to name.

## Main definitions

* `Launch.Failure` — why the program ends before it listens
* `Launch.brokerPort`, `Launch.pointAt` — the port of a mock broker, and the configuration with it
* `Launch.Plan`, `Launch.plan`, `Launch.Plan.findDialect` — from the command line to the broker
* `Launch.Plan.setup` — the relying party that the program runs
* `Launch.Signal` — what ends the program
-/

namespace SignIn.Launch

/-- Why the program ends before it listens. -/
inductive Failure where
  | service (error : ServiceError)
  | broker (error : BrokerError)
  | url (error : Url.ParseError)
  deriving DecidableEq, Repr

namespace Failure

/-- The wording of a failure. -/
def message : Failure → String
  | service e => e.message
  | broker e => e.message
  | url e => e.message

/-- What goes to the standard error. -/
def report (f : Failure) : String := s!"Error: {f.message}\n"

/-- The exit code. -/
def exitCode : Nat := 1

end Failure

/-- The port on which a mock broker is to listen: that of the broker's URL, or any free one. -/
def brokerPort (c : Configuration) : Nat := c.brokerUrl.portOrDefault.getD 0

/-- The configuration for a mock broker that listens on a port. -/
def pointAt (port : Nat) (c : Configuration) : Except Failure Configuration := do
  let brokerUrl ← (Url.parse (Mock.baseUrl port)).mapError .url
  let tokenEndpoint ← (brokerUrl.join "/token").mapError .url
  return { c with brokerUrl, tokenEndpoint }

/-- What is settled before the broker is looked for. -/
structure Plan where
  configuration : Configuration
  /-- The port of the mock broker, if there is one. -/
  mockPort : Option Nat

/-- The plan that follows from the command line. `freePort` is the port that the mock broker gets if
it can have any. -/
def plan (freePort : Nat) (a : CommandLine.Arguments) : Except Failure Plan := do
  let c ← (Configuration.ofSettings a.setting).mapError .service
  if a.mockBroker then
    let port := if brokerPort c = 0 then freePort else brokerPort c
    return ⟨← pointAt port c, some port⟩
  else return ⟨c, none⟩

/-- How the mock broker in the same process is spoken to. -/
def mockDialect : Broker.Dialect := Mock.dialect .implicit .formPost

/-- How the broker of a plan is spoken to, found out if it is not the mock broker. -/
def Plan.findDialect {σ : Type} (p : Plan) (transport : Http.Transport σ) (s : σ) :
    σ × Except Failure Broker.Dialect :=
  if p.mockPort.isSome then (s, .ok mockDialect)
  else
    let (s, provider) := OpenId.discover transport p.configuration.connection s
    (s, (provider.map OpenId.dialect).mapError .broker)

/-- The transport of the program: a mock broker in the same process can be reached, nothing else. -/
def transport {μ : Type} (mockPort : Option Nat) : Http.Transport (Party.State μ) :=
  fun request s =>
  match mockPort.map fun port => (Mock.baseUrl port, Url.parse (Mock.baseUrl port)) with
  | some (issuer, .ok url) =>
    if request.url.origin = url.origin then
      Http.Transport.toServer (fun r s => (s, Mock.receive issuer s.now.unixSeconds r)) request s
    else Http.Transport.offline request s
  | _ => Http.Transport.offline request s

/-- The relying party of a plan, once the broker is found. -/
def Plan.setup {μ : Type} (p : Plan) (dialect : Broker.Dialect) : Party.Setup μ where
  connection := p.configuration.connection
  dialect
  endpoint := ⟨p.configuration.tokenEndpoint, some p.configuration.httpTimeout⟩
  transport := transport p.mockPort
  requestTimeout := p.configuration.requestTimeout
  nesting := 1

/-- A source of random numbers that follows from a secret seed. -/
def randomFrom (seed : Bytes) (n : Nat) : Nat :=
  Rsa.toNumber (Sha256.hmac seed (Utf8.encode (toString n)))

/-- What ends the program. -/
inductive Signal where
  | interrupt
  | terminate
  deriving DecidableEq, Repr

/-- What is logged when a signal arrives. -/
def Signal.notice : Signal → String
  | interrupt => "Received Ctrl+C, shutting down..."
  | terminate => "Received SIGTERM, shutting down..."

/-- What is logged at the end. -/
def farewell : String := "Server stopped"

end SignIn.Launch
