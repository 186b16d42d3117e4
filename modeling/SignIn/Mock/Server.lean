import SignIn.Http.Fields
import SignIn.Mock.Code
import SignIn.Mock.IdToken
import SignIn.Mock.Page

/-!
# The mock broker as a server

The mock broker plays the broker's part of a sign-in, without mailbox or password: it shows who
wants to sign in where, asks for a confirmation and sends the browser back. It remembers nothing.
The authentication request travels through the confirmation page, and all that is needed for an
exchange is in the code.

## Main definitions

* `Mock.baseUrl` — where the mock broker listens
* `Mock.AuthRequest` — what the relying party asks for
* `Mock.callback` — what the decision comes to
* `Mock.serve` — the answer to a request
* `Mock.receive` — the answer to a request that comes in
-/

namespace SignIn.Mock

open Http Json

/-- An authentication request. -/
structure AuthRequest where
  clientId : String
  loginHint : String
  nonce : String
  redirectUri : String
  responseType : String
  responseMode : String
  state : String
  deriving DecidableEq, Repr

namespace AuthRequest

/-- The fields that carry a request through the confirmation page. -/
def hiddenFields (r : AuthRequest) : List (String × String) :=
  [("client_id", r.clientId), ("login_hint", r.loginHint), ("nonce", r.nonce),
    ("redirect_uri", r.redirectUri), ("response_type", r.responseType),
    ("response_mode", r.responseMode), ("state", r.state)]

/-- The fields in which a request and a decision come. -/
def fields : List Field :=
  ["client_id", "login_hint", "nonce", "redirect_uri"].map Field.required ++
    ["response_type", "response_mode", "state", "decision"].map Field.withDefault

/-- The request and the decision of the values of these fields. -/
def ofValues : List String → Option (AuthRequest × String)
  | [clientId, loginHint, nonce, redirectUri, responseType, responseMode, state, decision] =>
    some (⟨clientId, loginHint, nonce, redirectUri, responseType, responseMode, state⟩, decision)
  | _ => none

end AuthRequest

/-- Where a mock broker on this port listens. It is also the issuer that its tokens name. -/
def baseUrl (port : Nat) : String := s!"http://127.0.0.1:{port}"

/-- The decision that lets the user in. -/
def allow : String := "allow"

/-- What the relying party is told about a decision at the time `now`, in seconds: a refusal, a code
or a token, and the state that it asked for. -/
def callback (issuer : String) (now : Int) (r : AuthRequest) (decision : String) :
    List (String × String) :=
  let result :=
    if decision ≠ allow then
      [("error", "access_denied"), ("error_description", "The user denied the request")]
    else if r.responseType = "code" then
      [("code", Code.encode ⟨r.loginHint, r.nonce, r.clientId, r.redirectUri⟩)]
    else [("id_token", IdToken.issue issuer r.clientId r.loginHint r.nonce now)]
  result ++ if r.state = "" then [] else [("state", r.state)]

/-- A URL with pairs in its query. -/
def withQuery (url : String) (form : Form) : String :=
  url ++ (if url.toList.contains '?' then "&" else "?") ++
    String.intercalate "&" (form.map fun p => p.1 ++ "=" ++ Percent.component p.2)

/-- Sends a callback to the relying party, in the way it asked for. -/
def deliver (r : AuthRequest) (form : Form) : Response :=
  if r.responseMode = "query" then .redirect (withQuery r.redirectUri form)
  else .html 200 (Page.deliver r.redirectUri form)

/-! ### Handlers -/

/-- The answer of a handler that may refuse a request. -/
def answer : Except Rejection Response → Response
  | .ok response => response
  | .error rejection => rejection.response

/-- Shows an authentication request and asks for a decision. -/
def authorize (request : Request) : Response := answer do
  match AuthRequest.ofValues (← request.queryFields AuthRequest.fields) with
  | some (r, _) => return .html 200 (Page.confirm r.loginHint r.hiddenFields)
  | none => return .notFound

/-- Carries out a decision. -/
def confirm (issuer : String) (now : Int) (request : Request) (fault : Option String := none) :
    Response := answer do
  match AuthRequest.ofValues (← request.bodyFields AuthRequest.fields fault) with
  | some (r, decision) => return deliver r (callback issuer now r decision)
  | none => return .notFound

/-- A mapping of texts. -/
def textMapping (pairs : List (String × String)) : String :=
  writeMapping (pairs.map fun p => (p.1, writeText p.2))

/-- Refuses an exchange. -/
def refuseExchange (error description : String) : Response :=
  .json 400 (textMapping [("error", error), ("error_description", description)])

/-- What a code is exchanged for. -/
def exchange (issuer : String) (now : Int) (grantType code redirectUri : String) : Response :=
  if grantType ≠ "authorization_code" then
    refuseExchange "unsupported_grant_type" "only authorization_code is supported"
  else match Code.decode? code with
    | none => refuseExchange "invalid_grant" "unknown authorization code"
    | some c =>
      if c.redirectUri ≠ redirectUri then
        refuseExchange "invalid_grant" "redirect_uri does not match"
      else
        .json 200 (textMapping [("id_token", IdToken.issue issuer c.clientId c.email c.nonce now),
          ("token_type", "bearer")])

/-- The fields in which a code and its redirect URI come. -/
def exchangeFields : List Field := ["grant_type", "code", "redirect_uri"].map Field.withDefault

/-- Exchanges a code. -/
def token (issuer : String) (now : Int) (request : Request) (fault : Option String := none) :
    Response := answer do
  match ← request.bodyFields exchangeFields fault with
  | [grantType, code, redirectUri] => return exchange issuer now grantType code redirectUri
  | _ => return .notFound

/-- The answer of a broker whose tokens name `issuer` to a request that was read, at the time `now`,
in seconds. The body of the request may have broken off. -/
def serve (issuer : String) (now : Int) (request : Request) (fault : Option String := none) :
    Response :=
  let routes : List (String × Route Response) := [
    ("/auth", { get := some authorize }),
    ("/auth/confirm", { post := some fun r => confirm issuer now r fault }),
    ("/token", { post := some fun r => token issuer now r fault })]
  (Route.dispatch routes id request).forMethod request.method

/-- The answer to a request that comes in. -/
def receive (issuer : String) (now : Int) (request : Request) (fault : Option String := none) :
    Response :=
  request.receive (serve issuer now · fault) id

end SignIn.Mock
