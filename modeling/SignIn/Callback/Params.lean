import SignIn.Dictionary
import SignIn.Text.Form

/-!
# What the broker sends back

When the user is done at the broker, the browser comes back to the redirect URI with a form or a
query string. Four of its fields have a meaning here; all others are kept, so that listeners see
the whole callback.

A field that is absent reads as the empty text, and an empty field counts as absent. A callback
that carries several signals is handled by the first of them in the order of `Params.signal`, so it
is handled in one way only.

## Main definitions

* `Callback.Params` — the fields of a callback
* `Callback.Params.ofForm`, `Callback.Params.merge` — from what the browser sent
* `Callback.Signal`, `Callback.Params.signal` — what the callback asks for
-/

namespace SignIn.Callback

/-- The fields of a callback. -/
structure Params where
  error : String
  errorDescription : String
  idToken : String
  code : String
  /-- All fields without a meaning here. -/
  extra : Dictionary
  deriving DecidableEq, Repr

/-- The names of the fields with a meaning. -/
def reserved : List String := ["error", "error_description", "id_token", "code"]

namespace Params

/-- The callback that a form brings; of fields with one name the last counts. -/
def ofForm (form : Form) : Params where
  error := (form.lookup "error").getD ""
  errorDescription := (form.lookup "error_description").getD ""
  idToken := (form.lookup "id_token").getD ""
  code := (form.lookup "code").getD ""
  extra := Dictionary.ofPairs (form.filter fun p => !reserved.contains p.1)

/-- The callback of a request with a body and a query: the body if it has at least one field, the
query otherwise, and never parts of both. -/
def merge (body query : Form) : Params := if body.isEmpty then ofForm query else ofForm body

end Params

/-- What a callback asks for. -/
inductive Signal where
  /-- The broker reports a failure. -/
  | brokerError (error description : String)
  /-- The callback carries an ID token. -/
  | idToken (token : String)
  /-- The callback carries a code that the token endpoint exchanges for an ID token. -/
  | code (code : String)
  /-- The callback carries none of these. -/
  | empty
  deriving DecidableEq, Repr

/-- The first signal of a callback. -/
def Params.signal (p : Params) : Signal :=
  if p.error ≠ "" then .brokerError p.error p.errorDescription
  else if p.idToken ≠ "" then .idToken p.idToken
  else if p.code ≠ "" then .code p.code
  else .empty

end SignIn.Callback
