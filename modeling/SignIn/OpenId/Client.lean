import SignIn.OpenId.Discovery
import SignIn.OpenId.IdToken

/-!
# Clients of a broker that speaks OpenID Connect

The broker is asked to send an ID token, as a form that the browser posts. Where an authentication
starts and with which keys tokens are signed is what the broker published.

## Main definitions

* `OpenId.dialect` — how such a broker is spoken to
* `OpenId.dialectWith` — the same with any other check of tokens
-/

namespace SignIn.OpenId

/-- How a broker is spoken to at which authentications start at `endpoint` and whose tokens are
checked by `check`. -/
def dialectWith (endpoint : Url)
    (check : Broker.Connection → String → Instant → Except BrokerError Broker.Statement) :
    Broker.Dialect where
  start _ := .ok endpoint
  parameters c identifier nonce state :=
    [("response_type", "id_token"), ("client_id", c.clientId), ("state", state),
      ("redirect_uri", c.redirectUri.toText), ("scope", "openid email"),
      ("login_hint", identifier), ("response_mode", "form_post"), ("nonce", nonce)]
  check

/-- How a broker is spoken to. -/
def dialect (p : Provider) : Broker.Dialect :=
  dialectWith p.description.authorizationEndpoint fun c token now =>
    (IdToken.check p c.clientId token now).mapError fun e => .invalidToken e.message

end SignIn.OpenId
