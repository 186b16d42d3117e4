import SignIn.Http.Transport
import SignIn.Token.Grant

/-!
# Exchanging codes over HTTP

A code is exchanged by posting a form to the token endpoint. Only a response with status 200 is a
success, whatever it holds.

## Main definitions

* `Token.Endpoint`, `Token.Endpoint.exchange`
-/

namespace SignIn.Token

open Http

/-- Where codes are exchanged. -/
structure Endpoint where
  url : Url
  /-- How long an exchange may take; without it, as long as it needs. -/
  timeout : Option Duration
  deriving Repr

namespace Endpoint

/-- The request that exchanges a code. -/
def request (e : Endpoint) (code redirectUri : String) : Outbound where
  method := "POST"
  url := e.url
  contentType := some Request.formType
  body := Utf8.encode (Form.encode (requestForm code redirectUri))

/-- What a response means. -/
def readResponse : Except SendError Inbound → Except ExchangeError Grant
  | .error e => .error (.transport e.message)
  | .ok response => do (← Reply.parse (response.status = 200) response.body).toGrant

/-- Exchanges a code that was issued for a redirect URI. -/
def exchange {σ : Type} (e : Endpoint) (transport : Transport σ) (code redirectUri : String)
    (s : σ) : σ × Delayed (Except ExchangeError Grant) :=
  let (s, result) := send transport e.timeout (e.request code redirectUri) s
  (s, result.map readResponse)

end Endpoint

end SignIn.Token
