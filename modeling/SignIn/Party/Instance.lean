import SignIn.Broker.Client
import SignIn.Event.Bus
import SignIn.Party.Service
import SignIn.Token.Exchange

/-!
# A relying party at work

Here the parts come together: a broker client verifies tokens and starts authentications, codes are
exchanged over HTTP, listeners hear of every outcome, and the log keeps what nobody hears.

Time and chance come from outside. The state has a reading of the calendar and a source of random
numbers, of which every authentication draws two.

## Main definitions

* `Party.Setup` — what is fixed when a relying party starts
* `Party.State` — what changes
* `Party.Setup.service` — the service that they make up
-/

namespace SignIn.Party

/-- What changes while a relying party is at work. In `μ` is what its listeners remember. -/
structure State (μ : Type) where
  client : Broker.Client
  listeners : Event.State μ
  /-- The log, the oldest line first. -/
  log : List Diagnostic
  /-- What the calendar shows. -/
  now : Instant
  /-- The source of random numbers. -/
  random : Nat → Nat
  /-- How many random numbers were drawn. -/
  drawn : Nat
  /-- Whether a request has run into the end of the calendar. It is never answered. -/
  hasBrokenDown : Bool

/-- What is fixed when a relying party starts. -/
structure Setup (μ : Type) where
  connection : Broker.Connection
  dialect : Broker.Dialect
  endpoint : Token.Endpoint
  transport : Http.Transport (State μ)
  requestTimeout : Duration
  /-- How deep listeners may emit events in each other. -/
  nesting : Nat

variable {μ : Type}

/-- A state, from a start of the clock that the purging goes by. -/
def Setup.start (setup : Setup μ) (memory : μ) (time : Nat) (now : Instant) (random : Nat → Nat) :
    State μ where
  client := .start setup.connection time
  listeners := ⟨.empty, memory⟩
  log := []
  now
  random
  drawn := 0
  hasBrokenDown := false

namespace State

/-- Starts an authentication. -/
def authenticate (d : Broker.Dialect) (identifier : String) (s : State μ) :
    State μ × Delayed (Except BrokerError Url) :=
  let nonce := Nonce.text (s.random s.drawn)
  let state := Broker.stateText (s.random (s.drawn + 1))
  let (result, client) := s.client.authenticate d identifier nonce state s.now
  let s := { s with client, drawn := s.drawn + 2 }
  match result with
  | .ok url => (s, .now (.ok url))
  | .error (.broker e) => (s, .now (.error e))
  | .error .calendar => ({ s with hasBrokenDown := true }, .never)

/-- Verifies a token. -/
def verify (d : Broker.Dialect) (token : String) (s : State μ) :
    State μ × Delayed (Except BrokerError String) :=
  let (result, client) := s.client.verify d token s.now
  ({ s with client }, .now result)

/-- Delivers an event; the result tells how many listeners it had. What is nested too deep is not
delivered. -/
def publish (nesting : Nat) (event : Event) (s : State μ) : State μ × Nat :=
  match Event.emit nesting event s.listeners with
  | some (listeners, heard) => ({ s with listeners }, heard)
  | none => (s, 0)

/-- Tears the broker client down. -/
def destroyClient (s : State μ) : State μ := { s with client := s.client.destroy }

/-- Lets time pass: the clock that the purging goes by shows `time`, the calendar `now`. -/
def passTime (s : State μ) (time : Nat) (now : Instant) : State μ :=
  { s with client := s.client.runPurge time now, now }

end State

/-- The service of a relying party. -/
def Setup.service (setup : Setup μ) : Service (State μ) where
  redirectUri := setup.connection.redirectUri.toText
  exchange := setup.endpoint.exchange setup.transport
  verify := State.verify setup.dialect
  publish := State.publish setup.nesting
  log d s := { s with log := s.log ++ [d] }
  authenticate := State.authenticate setup.dialect
  requestTimeout := setup.requestTimeout

end SignIn.Party
