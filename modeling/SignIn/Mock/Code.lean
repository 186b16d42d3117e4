import SignIn.Json.Record
import SignIn.Json.Write
import SignIn.Text.Base64

/-!
# Authorization codes

The mock broker keeps no list of the codes that it issued: a code holds all that has to be known
when it is exchanged. It is a JSON mapping in base64, so it needs no escape on its way through query
strings and forms.

## Main definitions

* `Mock.Code` — the contents of a code
* `Mock.Code.encode`, `Mock.Code.decode?`
-/

namespace SignIn.Mock

open Json

/-- The contents of an authorization code. -/
structure Code where
  email : String
  nonce : String
  clientId : String
  redirectUri : String
  deriving DecidableEq, Repr

namespace Code

/-- The shape of a written code. -/
def record : Record String where
  name := "MockCode"
  members := ["email", "nonce", "client_id", "redirect_uri"].map fun name => required name readText
  others := none

/-- The contents as JSON. -/
def toJson (c : Code) : String :=
  writeMapping [("email", writeText c.email), ("nonce", writeText c.nonce),
    ("client_id", writeText c.clientId), ("redirect_uri", writeText c.redirectUri)]

/-- The code with these contents. -/
def encode (c : Code) : String := Base64.encode (Utf8.encode c.toJson)

/-- The contents of a code, unless it is none. -/
def decode? (code : String) : Option Code :=
  match Base64.decode code with
  | .error _ => none
  | .ok bytes =>
    match parse record.read bytes with
    | .ok [email, nonce, clientId, redirectUri] => some ⟨email, nonce, clientId, redirectUri⟩
    | _ => none

end Code

end SignIn.Mock
