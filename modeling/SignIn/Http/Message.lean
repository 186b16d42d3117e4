import SignIn.Text.Form

/-!
# Requests and responses

Of an HTTP message only those parts are kept that somebody looks at. The target of a request is its
path and its query; the path is compared as it was sent, and a fragment does not count.

A server does not read a target that is too long: such a request never gets to the routes. Handlers
and routes are about requests that were read, and what comes in over a connection goes through
`Http.Request.receive` first. The server says which limit was exceeded, that for a target or, if the
target is longer still, that for all headers together. Only the first of these answers is here.

A response to `HEAD` has all headers of the response to `GET` but no body.

## Main definitions

* `Http.uriLimit` — how long a URI can be
* `Http.Request`, `Http.Request.ofTarget`
* `Http.Request.IsReadable`, `Http.Request.receive` — a request as it comes in
* `Http.Response` and the kinds of it: `Http.Response.html`, `Http.Response.text`,
  `Http.Response.json`, `Http.Response.redirect`
-/

namespace SignIn.Http

/-- How long a URI can be, in bytes: the target of a request, or the URL that one is sent to. -/
def uriLimit : Nat := 65534

/-- A request. -/
structure Request where
  method : String
  path : String
  /-- What stands behind the question mark, if there is one. -/
  query : Option String
  contentType : Option String
  body : Bytes
  deriving DecidableEq, Repr

/-- A response. -/
structure Response where
  status : Nat
  contentType : Option String := none
  location : Option String := none
  /-- The methods that the target knows, if it does not know that of the request. -/
  allow : Option String := none
  body : String := ""
  deriving DecidableEq, Repr

/-! ### Targets -/

/-- What stands behind the host of a target that starts with a scheme, or else the whole target. -/
def behindHost (target : List Char) : List Char :=
  let rest := target.dropWhile fun c => c.isAlphanum || c = '+' || c = '-' || c = '.'
  match rest with
  | ':' :: '/' :: '/' :: rest => rest.dropWhile fun c => c ≠ '/' && c ≠ '?'
  | _ => target

namespace Request

/-- The request for a target, without content. -/
def ofTarget (method target : String) : Request :=
  let text := behindHost (target.toList.takeWhile (· ≠ '#'))
  let path := text.takeWhile (· ≠ '?')
  { method
    path := if path.isEmpty then "/" else String.ofList path
    query := match text.dropWhile (· ≠ '?') with
      | _ :: query => some (String.ofList query)
      | [] => none
    contentType := none
    body := [] }

/-- The content type of forms. -/
def formType : String := "application/x-www-form-urlencoded"

/-- A request with a form as its content. -/
def postForm (target : String) (form : Form) : Request :=
  { ofTarget "POST" target with
    contentType := some formType
    body := Utf8.encode form.encode }

/-- The pairs of the query. -/
def queryForm (r : Request) : Form := Form.ofText (r.query.getD "")

/-- The target as it is sent: the path, and the query behind a question mark. -/
def target (r : Request) : String :=
  match r.query with
  | some query => r.path ++ "?" ++ query
  | none => r.path

/-- A server reads the target of the request. -/
def IsReadable (r : Request) : Prop := (Utf8.encode r.target).length ≤ uriLimit

instance (r : Request) : Decidable r.IsReadable := inferInstanceAs (Decidable (_ ≤ uriLimit))

end Request

namespace Response

/-- A page. -/
def html (status : Nat) (page : String) : Response where
  status
  contentType := some "text/html; charset=utf-8"
  body := page

/-- A plain text. -/
def text (status : Nat) (body : String) : Response where
  status
  contentType := some "text/plain; charset=utf-8"
  body

/-- A JSON text. -/
def json (status : Nat) (body : String) : Response where
  status
  contentType := some "application/json"
  body

/-- Whether a character can stand in a header: no control character but the tab can. -/
def isHeaderChar (c : Char) : Bool := c = '\t' || (0x20 ≤ c.toNat && c.toNat ≠ 0x7F)

/-- Sends the browser on with a `GET` request. -/
def redirect (location : String) : Response :=
  if location.toList.all isHeaderChar then { status := 303, location := some location }
  else text 500 "failed to parse header value"

/-- There is no such target. -/
def notFound : Response := { status := 404 }

/-- The target does not know the method. -/
def methodNotAllowed (allow : String) : Response := { status := 405, allow := some allow }

/-- The target is too long to be read. -/
def targetTooLong : Response := { status := 414 }

/-- The request took too long. -/
def timeout : Response := { status := 408 }

/-- The response as it is sent to a request of this method. -/
def forMethod (method : String) (r : Response) : Response :=
  if method = "HEAD" then { r with body := "" } else r

end Response

/-- What is done about a request that comes in: it is handled if it can be read, and answered at
once otherwise. -/
def Request.receive {α : Type} (handle : Request → α) (answer : Response → α) (r : Request) : α :=
  if r.IsReadable then handle r else answer .targetTooLong

section Receive

variable {α : Type} {handle : Request → α} {answer : Response → α} {r : Request}

theorem Request.receive_of_isReadable (h : r.IsReadable) : r.receive handle answer = handle r :=
  if_pos h

theorem Request.receive_of_not_isReadable (h : ¬r.IsReadable) :
    r.receive handle answer = answer .targetTooLong :=
  if_neg h

end Receive

/-! ### Routes -/

/-- The handlers of a target: for `GET`, which answers `HEAD` as well, and for `POST`. -/
structure Route (α : Type) where
  get : Option (Request → α) := none
  post : Option (Request → α) := none

namespace Route

variable {α : Type}

/-- The methods that a target knows. -/
def allow (r : Route α) : String :=
  String.intercalate "," ((if r.get.isSome then ["GET", "HEAD"] else []) ++
    if r.post.isSome then ["POST"] else [])

/-- The handler for a method. -/
def handler? (r : Route α) (method : String) : Option (Request → α) :=
  match method with
  | "GET" | "HEAD" => r.get
  | "POST" => r.post
  | _ => none

/-- What is done about a request, given the routes of the paths and what to do with a response that
no handler gives. -/
def dispatch (routes : List (String × Route α)) (answer : Response → α) (request : Request) : α :=
  match routes.lookup request.path with
  | none => answer .notFound
  | some route =>
    match route.handler? request.method with
    | some handler => handler request
    | none => answer (.methodNotAllowed route.allow)

end Route

end SignIn.Http
