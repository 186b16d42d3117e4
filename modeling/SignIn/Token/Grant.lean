import SignIn.Failure
import SignIn.Json.Record
import SignIn.Json.Write

/-!
# The answer of the token endpoint

The status of the response decides what its body can mean. A success carries an ID token, any
other status an error and its description; whatever the body does not say is the empty text. The
body of a failure may be anything, the body of a success has to be readable.

## Main definitions

* `Token.Grant` — a successful exchange
* `Token.Reply` — an answer of the token endpoint, `Token.Reply.parse` reads one
* `Token.requestForm` — the form that asks for an exchange
-/

namespace SignIn.Token

open Json

/-- A successful exchange. The token is empty when the endpoint left it out. -/
structure Grant where
  idToken : String
  deriving DecidableEq, Repr

namespace Grant

/-- The shape of a written grant. -/
def record : Record String := ⟨"TokenGrant", [required "id_token" readText], none⟩

/-- The grant as it is written. -/
def toJson (g : Grant) : String := writeMapping [("id_token", writeText g.idToken)]

/-- The grant with these member values. -/
def ofValues : List String → Grant
  | [idToken] => ⟨idToken⟩
  | _ => ⟨""⟩

/-- The grant of a JSON text. -/
def ofJson (bs : Bytes) : Except Json.Error Grant := ofValues <$> parse record.read bs

end Grant

/-- An answer of the token endpoint. -/
inductive Reply where
  | refused (error description : String)
  | granted (idToken : String)
  deriving DecidableEq, Repr

namespace Reply

/-- The shape of the body: three texts that may all be missing. -/
def record : Record String where
  name := "RawTokenBody"
  members := ["error", "error_description", "id_token"].map fun name => withDefault name readText ""
  others := none

/-- Error, description and ID token of a body. -/
def readBody (body : Bytes) : Except Json.Error (String × String × String) := do
  match ← parse record.read body with
  | [error, description, idToken] => return (error, description, idToken)
  | _ => return ("", "", "")

/-- Reads the body of a response that was a success or not. -/
def parse (success : Bool) (body : Bytes) : Except ExchangeError Reply :=
  match success, readBody body with
  | true, .ok (_, _, idToken) => .ok (.granted idToken)
  | true, .error e => .error (.invalidResponse e.message)
  | false, .ok (error, description, _) => .ok (.refused error description)
  | false, .error _ => .ok (.refused "" "")

/-- What the answer means to the one who asked. -/
def toGrant : Reply → Except ExchangeError Grant
  | .refused error description => .error (.endpoint error description)
  | .granted idToken => .ok ⟨idToken⟩

end Reply

/-- The form that asks the token endpoint to exchange a code. -/
def requestForm (code redirectUri : String) : List (String × String) :=
  [("grant_type", "authorization_code"), ("code", code), ("redirect_uri", redirectUri)]

end SignIn.Token
