import SignIn.Broker.Connection
import SignIn.Text.Numeral
import SignIn.Text.Quoted

/-!
# The configuration of a relying party

A relying party has six settings, all of them optional texts. A number that cannot be read counts
as not given, a URL that cannot be read is an error. Of several bad URLs the first is reported, in
the order broker, token endpoint, redirect URI.

A request may take longer than the requests to the broker that it makes, so that a slow token
endpoint still ends in an answer.

## Main definitions

* `Setting` — the six settings, `Setting.key` their names
* `Configuration`, `Configuration.ofSettings`
-/

namespace SignIn

/-- What can be set. -/
inductive Setting where
  | host
  | port
  | brokerUrl
  | redirectUri
  | tokenEndpoint
  | httpTimeout
  deriving DecidableEq, Repr

namespace Setting

/-- All settings. -/
def all : List Setting := [host, port, brokerUrl, redirectUri, tokenEndpoint, httpTimeout]

/-- The name of a setting in the environment and in messages. -/
def key : Setting → String
  | host => "RP_HOST"
  | port => "RP_PORT"
  | brokerUrl => "RP_BROKER_URL"
  | redirectUri => "RP_REDIRECT_URI"
  | tokenEndpoint => "RP_TOKEN_ENDPOINT"
  | httpTimeout => "RP_HTTP_TIMEOUT_SECS"

/-- The setting of this name. -/
def ofKey? (name : String) : Option Setting := all.find? (·.key == name)

end Setting

/-- The configuration of a relying party. -/
structure Configuration where
  /-- The address to listen on. -/
  host : String
  /-- The port to listen on; 0 picks a free one. -/
  port : Nat
  /-- The broker. -/
  brokerUrl : Url
  /-- Where the broker sends the browser back to. -/
  redirectUri : Url
  /-- Where codes are exchanged. -/
  tokenEndpoint : Url
  /-- How long a request to the broker may take. -/
  httpTimeout : Duration
  deriving Repr

namespace Configuration

/-- What a request may take longer than a request to the broker. -/
def requestMargin : Duration := .seconds 20

/-- The URL of a setting. -/
def parseUrl (setting : Setting) (value : String) : Except ServiceError Url :=
  match Url.parse value with
  | .ok url => .ok url
  | .error e => .error (.config setting.key s!"{Quoted.quote value}: {e.message}")

/-- The number of a setting, or the default. -/
def numberOr (limit default : Nat) (value : Option String) : Nat :=
  match value.map (Numeral.natural limit) with
  | some (.ok n) => n
  | _ => default

/-- The token endpoint of a broker, when none is set. -/
def endpointOf (brokerUrl : Url) : Except ServiceError Url :=
  match brokerUrl.join "/token" with
  | .ok url => .ok url
  | .error e => .error (.config Setting.tokenEndpoint.key e.message)

/-- The configuration with these settings. -/
def ofSettings (setting : Setting → Option String) : Except ServiceError Configuration := do
  let brokerUrl ← parseUrl .brokerUrl ((setting .brokerUrl).getD "http://localhost:44133")
  let tokenEndpoint ← match setting .tokenEndpoint with
    | some value => parseUrl .tokenEndpoint value
    | none => endpointOf brokerUrl
  let redirectUri ←
    parseUrl .redirectUri ((setting .redirectUri).getD "http://localhost:44180/verify")
  return {
    host := (setting .host).getD "127.0.0.1"
    port := numberOr (UInt16.size - 1) 44180 (setting .port)
    brokerUrl
    redirectUri
    tokenEndpoint
    httpTimeout := .seconds (numberOr (UInt64.size - 1) 10 (setting .httpTimeout)) }

/-- The address to listen on, with the port. -/
def bindAddress (c : Configuration) : String := s!"{c.host}:{c.port}"

/-- How long a request may take. -/
def requestTimeout (c : Configuration) : Duration := c.httpTimeout.extend requestMargin

/-- What the broker client needs to know. -/
def connection (c : Configuration) : Broker.Connection where
  brokerUrl := c.brokerUrl
  redirectUri := c.redirectUri
  httpTimeout := some c.httpTimeout

end Configuration

end SignIn
