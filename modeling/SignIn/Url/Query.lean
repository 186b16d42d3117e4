import SignIn.Url.Parse
import SignIn.Text.Form

/-!
# The query of a URL as a form

A query string has the format of a form. Pairs are added behind what is there already, whatever it
is; reading a query never fails.

## Main definitions

* `Url.appendPairs` — a URL with more pairs in its query
* `Url.pairs` — the pairs of a URL's query
-/

namespace SignIn.Url

/-- A query with more pairs behind it. -/
def extendQuery (query : Option String) (form : Form) : String :=
  match query with
  | none | some "" => Form.encode form
  | some text => if form.isEmpty then text else text ++ "&" ++ Form.encode form

/-- A URL with more pairs in its query. -/
def appendPairs (u : Url) (form : Form) : Url := { u with query := extendQuery u.query form }

/-- The pairs of a URL's query. -/
def pairs (u : Url) : Form := Form.ofText (u.query.getD "")

end SignIn.Url
