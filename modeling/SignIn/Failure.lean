/-!
# What can go wrong

Three parties can fail: the identity broker, its token endpoint, and the relying party itself when
it starts. Each failure is a value; what a log or a message says about it is its `message`.

## Main definitions

* `BrokerError` — a broker client could not start or finish an authentication
* `ExchangeError` — an authorization code was not turned into a token
* `ServiceError` — the relying party could not be configured, started or used
-/

namespace SignIn

/-- Failures of a broker client. -/
inductive BrokerError where
  /-- The broker could not be reached. -/
  | network (reason : String)
  /-- The broker answered with something that cannot be used. -/
  | protocol (reason : String)
  /-- The token is empty, malformed, expired or rejected. -/
  | invalidToken (reason : String)
  /-- The client was torn down and no longer serves requests. -/
  | destroyed
  deriving DecidableEq, Repr

/-- The wording of a broker failure. -/
def BrokerError.message : BrokerError → String
  | .network reason => s!"broker request failed: {reason}"
  | .protocol reason => s!"broker protocol error: {reason}"
  | .invalidToken reason => s!"invalid token: {reason}"
  | .destroyed => "broker client has been destroyed"

/-- Failures of the exchange of an authorization code. -/
inductive ExchangeError where
  /-- The request brought no complete response. -/
  | transport (reason : String)
  /-- The token endpoint refused. -/
  | endpoint (error description : String)
  /-- The token endpoint agreed, but its answer cannot be read. -/
  | invalidResponse (reason : String)
  deriving DecidableEq, Repr

/-- The wording of an exchange failure. -/
def ExchangeError.message : ExchangeError → String
  | .transport reason => s!"token endpoint request failed: {reason}"
  | .endpoint error description => s!"token endpoint returned `{error}`: {description}"
  | .invalidResponse reason => s!"invalid token endpoint response: {reason}"

/-- Failures of the relying party outside the handling of a callback. -/
inductive ServiceError where
  /-- A setting cannot be used. -/
  | config (key reason : String)
  /-- The broker client failed. -/
  | broker (error : BrokerError)
  /-- An address could not be bound. -/
  | bind (reason : String)
  deriving DecidableEq, Repr

/-- The wording of a failure of the relying party. -/
def ServiceError.message : ServiceError → String
  | .config key reason => s!"invalid {key}: {reason}"
  | .broker error => s!"broker error: {error.message}"
  | .bind reason => s!"I/O error: {reason}"

end SignIn
