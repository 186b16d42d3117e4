import SignIn.Broker.Client
import SignIn.Mock.IdToken

/-!
# Clients of the mock broker

A client of the mock broker chooses what the callback is to carry, a token or a code, and how it is
to come, as a form or as a query. Tokens are checked with the secret that both sides share.

## Main definitions

* `Mock.Flow`, `Mock.ResponseMode` — what a client can choose
* `Mock.dialect` — how the mock broker is spoken to
-/

namespace SignIn.Mock

/-- What the callback is to carry. -/
inductive Flow where
  /-- An ID token. -/
  | implicit
  /-- A code to be exchanged. -/
  | code
  deriving DecidableEq, Repr

/-- How the callback is to come. -/
inductive ResponseMode where
  /-- As a form that the browser posts. -/
  | formPost
  /-- As a query to which the browser is redirected. -/
  | query
  deriving DecidableEq, Repr

/-- The name of a flow in a request. -/
def Flow.responseType : Flow → String
  | implicit => "id_token"
  | code => "code"

/-- The name of a response mode in a request. -/
def ResponseMode.name : ResponseMode → String
  | formPost => "form_post"
  | query => "query"

/-- How the mock broker is spoken to. -/
def dialect (flow : Flow) (mode : ResponseMode) : Broker.Dialect where
  start c := c.resolve "/auth"
  parameters c identifier nonce _ :=
    [("client_id", c.clientId), ("login_hint", identifier), ("nonce", nonce),
      ("redirect_uri", c.redirectUri.toText), ("response_type", flow.responseType),
      ("response_mode", mode.name), ("scope", "openid email")]
  check c token now :=
    match IdToken.decode token c.issuer c.clientId now.unixSeconds with
    | .ok claims => .ok ⟨some claims.email, some claims.nonce⟩
    | .error e => .error (.invalidToken e.message)

end SignIn.Mock
