import SignIn.Http.Transport
import SignIn.Mock.Page
import SignIn.Url.Query

/-!
# What a browser does

Between relying party and broker stands a browser. It follows redirects, shows pages with forms and
submits them, with whatever its user has changed in them.

## Main definitions

* `Browser.visit` — the request for a URL
* `Browser.title` — what a browser shows of a page in any case
* `Browser.fill` — the fields of a form after its user has changed some
* `Browser.carried` — what a response of the broker makes the browser carry to the relying party
* `Browser.deliver` — the request that carries it
-/

namespace SignIn.Browser

open Http

/-- The request for a URL. -/
def visit (url : Url) : Request where
  method := "GET"
  path := url.path.toText
  query := url.query
  contentType := none
  body := []

/-- The fields of a form with one of them set: all fields of that name, or a new one at the end. -/
def setField (form : Form) (field : String × String) : Form :=
  if form.any (·.1 == field.1) then form.map fun p => if p.1 = field.1 then field else p
  else form ++ [field]

/-- The fields of a form after some were set. -/
def fill (form changes : Form) : Form := changes.foldl setField form

/-- The title of a page. -/
def title (page : String) : String :=
  match page.splitOn "<title>" with
  | _ :: rest :: _ => (rest.splitOn "</title>").headD ""
  | _ => ""

/-- What a response of the broker makes the browser carry to the relying party: the query of a
redirect, or the hidden fields of a page. -/
def carried (r : Response) : Form :=
  match r.location.map Url.parse with
  | some (.ok url) => url.pairs
  | some (.error _) => []
  | none => Mock.Page.hiddenFields r.body

/-- The request that carries a form to a target: in its query, or as its content. -/
def deliver (method target : String) (form : Form) : Request :=
  if method = "GET" then .ofTarget "GET" (target ++ "?" ++ form.encode)
  else { Request.postForm target form with method }

end SignIn.Browser
