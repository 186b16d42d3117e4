import SignIn.Failure
import SignIn.Time
import SignIn.Url.Parse

/-!
# How to reach a broker

A broker is known by its URL. Everything else follows from that URL and from the URL to which it
sends the browser back: who the client is, who must have issued a token, and where codes are
exchanged.

## Main definitions

* `Broker.Connection` — what a client needs to know about its broker
* `Broker.Connection.clientId`, `Broker.Connection.issuer`, `Broker.Connection.tokenEndpoint`
-/

namespace SignIn.Broker

/-- What a client needs to know about its broker. -/
structure Connection where
  /-- The broker, also the issuer that tokens have to name. -/
  brokerUrl : Url
  /-- Where the broker sends the browser back to. -/
  redirectUri : Url
  /-- How long a request to the broker may take; without it, as long as it needs. -/
  httpTimeout : Option Duration := some (.seconds 10)
  /-- How long an authentication may take. -/
  nonceTtl : Duration := .seconds (15 * 60)
  deriving Repr

namespace Connection

/-- The client is known by the origin to which the browser is sent back. -/
def clientId (c : Connection) : String := c.redirectUri.origin

/-- A text without the slashes at its end. -/
def trimSlashes (s : String) : String :=
  String.ofList (s.toList.reverse.dropWhile (· = '/')).reverse

/-- The broker as tokens name it: without a slash at the end. -/
def issuer (c : Connection) : String := trimSlashes c.brokerUrl.toText

/-- The broker's URL of this path. -/
def resolve (c : Connection) (path : String) : Except BrokerError Url :=
  match c.brokerUrl.join path with
  | .ok url => .ok url
  | .error e => .error (.protocol e.message)

/-- Where codes are exchanged. -/
def tokenEndpoint (c : Connection) : Except BrokerError Url := c.resolve "/token"

end Connection

end SignIn.Broker
