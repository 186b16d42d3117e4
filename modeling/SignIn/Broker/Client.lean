import SignIn.Broker.Connection
import SignIn.Nonce.Purge
import SignIn.Text.Base64
import SignIn.Url.Query

/-!
# Broker clients

A broker client starts authentications and verifies the tokens that come back. What it sends the
browser to, and what makes a token genuine, differs from broker to broker; that is the broker's
*dialect*. What is the same for all brokers is done here: every authentication makes up a nonce, a
token has to carry one, and a nonce is redeemed once.

The nonce is looked at last. A token that is rejected for any other reason does not use it up.

When a client is torn down, it forgets all nonces, stops purging them and does nothing any more.

## Main definitions

* `Broker.Dialect` — how a broker is spoken to
* `Broker.Client` — the state of a client
* `Broker.Client.authenticate`, `Broker.Client.verify`, `Broker.Client.destroy`
-/

namespace SignIn.Broker

/-- What a genuine token says, as far as a client has to know. -/
structure Statement where
  email : Option String
  nonce : Option String
  deriving DecidableEq, Repr

/-- The random state of an authentication: 16 bytes of a number, in base64. -/
def stateText (number : Nat) : String :=
  Base64.encode ((List.range 16).map fun i => UInt8.ofNat (number >>> (8 * i)))

/-- How a broker is spoken to. -/
structure Dialect where
  /-- The URL at which the broker starts an authentication, without the parameters of this one. -/
  start : Connection → Except BrokerError Url
  /-- The parameters of an authentication, given a random state. -/
  parameters : Connection → (identifier nonce state : String) → Form
  /-- Checks a token, but not its nonce. -/
  check : Connection → (token : String) → (now : Instant) → Except BrokerError Statement

/-- Why an authentication was not started. -/
inductive StartError where
  | broker (error : BrokerError)
  /-- The nonce would expire beyond the end of the calendar. -/
  | calendar
  deriving DecidableEq, Repr

/-- The state of a broker client. -/
structure Client where
  connection : Connection
  nonces : Nonce.Store
  /-- The task that purges the nonces, as long as it is held. -/
  purge : Option Nonce.Purge
  isDestroyed : Bool

namespace Client

/-- A new client, at a time of the clock that its purging goes by. -/
def start (connection : Connection) (time : Nat) : Client :=
  ⟨connection, .empty, some (.start time Nonce.Purge.usualPeriod), false⟩

/-- The longest that a nonce can be told to live. It is a whole number of milliseconds also where
fractions are counted; a lifetime of so many milliseconds and a fraction, which would be too long,
is left out here. -/
def longestTtl : Duration := 1 <<< 63 - 1

/-- Starts an authentication with a new nonce and a random state. -/
def authenticate (d : Dialect) (c : Client) (identifier nonce state : String) (now : Instant) :
    Except StartError Url × Client :=
  if c.isDestroyed then (.error (.broker .destroyed), c)
  else match d.start c.connection with
    | .error e => (.error (.broker e), c)
    | .ok url =>
      if longestTtl < c.connection.nonceTtl then
        (.error (.broker (.protocol
          "Source duration value is out of range for the target type")), c)
      else match c.nonces.insert nonce now c.connection.nonceTtl with
        | none => (.error .calendar, c)
        | some nonces =>
          (.ok (url.appendPairs (d.parameters c.connection identifier nonce state)),
            { c with nonces })

/-- A token that is rejected for a reason. -/
def reject (reason : String) : Except BrokerError String := .error (.invalidToken reason)

/-- Verifies a token; the result is the identity that it asserts. -/
def verify (d : Dialect) (c : Client) (token : String) (now : Instant) :
    Except BrokerError String × Client :=
  if c.isDestroyed then (.error .destroyed, c)
  else if token = "" then (reject "empty token", c)
  else match d.check c.connection token now with
    | .error e => (.error e, c)
    | .ok ⟨none, _⟩ => (reject "missing email claim", c)
    | .ok ⟨some _, none⟩ => (reject "missing nonce", c)
    | .ok ⟨some email, some nonce⟩ =>
      match c.nonces.take nonce now with
      | (true, nonces) => (.ok email, { c with nonces })
      | (false, nonces) => (reject "unknown or expired nonce", { c with nonces })

/-- Lets the purging do what is due before a time, at a reading of the calendar. -/
def runPurge (c : Client) (time : Nat) (now : Instant) : Client :=
  match c.purge with
  | none => c
  | some task =>
    let (task, nonces) := task.runBefore time now c.nonces
    { c with purge := some task, nonces }

/-- Tears the client down. Only the first time does anything. -/
def destroy (c : Client) : Client :=
  if c.isDestroyed then c
  else { c with isDestroyed := true, purge := none, nonces := c.nonces.clear }

/-- Where the broker sends the browser back to. -/
def redirectUri (c : Client) : String := c.connection.redirectUri.toText

end Client

end SignIn.Broker
