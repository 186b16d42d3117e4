import SignIn.Broker.Connection
import SignIn.Http.Status
import SignIn.Http.Transport
import SignIn.OpenId.Provider

/-!
# Finding out about a broker

Before a broker can be spoken to, its two documents are fetched: the description, from a place that
follows from the broker's name, and the keys, from where the description says. Redirects are not
followed, and a document counts only if it comes with status 200 and as JSON. The description has to
be that of the broker that was asked for.

Whatever fails, the broker cannot be reached.

## Main definitions

* `OpenId.discover` — fetches both documents
* `OpenId.DiscoveryError`, `OpenId.DiscoveryError.message` — what can fail
-/

namespace SignIn.OpenId

open Http

/-- What can fail. -/
inductive DiscoveryError where
  /-- The URL is no address. -/
  | address (fault : AddressFault)
  /-- There is no URL at which the document could be. -/
  | url
  /-- There is no response. -/
  | request
  /-- The response is no success; `url` is the place of the document, if that is said. -/
  | status (code : Nat) (url : Option Url)
  | contentType (found : String)
  /-- The document cannot be read. -/
  | document
  /-- The document describes another broker. -/
  | issuer (found expected : String)
  deriving Repr

/-- The wording of a failure. -/
def DiscoveryError.message : DiscoveryError → String
  | .address fault => s!"Other error: failed to prepare request: {fault.message}"
  | .url => "Failed to parse URL"
  | .request => "Request failed"
  | .status code place =>
    s!"Server returned invalid response: HTTP status code {statusText code}" ++
      (place.map fun u => " at " ++ u.toText).getD ""
  | .contentType found =>
    "Server returned invalid response: Unexpected response Content-Type: " ++
      s!"{Quoted.quote found}, should be `application/json`"
  | .document => "Failed to parse server response"
  | .issuer found expected =>
    s!"Validation error: unexpected issuer URI `{found}` (expected `{expected}`)"

/-- The content type of documents. -/
def documentType : String := "application/json"

/-- Whether a content type is that of documents; what stands behind a semicolon does not count. -/
def isDocumentType (contentType : String) : Bool :=
  let mediaType := contentType.toLower.toList.takeWhile (· ≠ ';')
  (mediaType.reverse.dropWhile (· = ' ')).reverse = documentType.toList

/-- The content of a response, if it is a document. -/
def contentOf (url : Option Url) (response : Inbound) : Except DiscoveryError Bytes :=
  if response.status ≠ 200 then .error (.status response.status url)
  else match response.contentType with
    | some found => if isDocumentType found then .ok response.body else .error (.contentType found)
    | none => .ok response.body

variable {σ : Type}

/-- Fetches a document. -/
def fetch (transport : Transport σ) (timeout : Option Duration) (url : Url) (named : Option Url)
    (s : σ) : σ × Except DiscoveryError Bytes :=
  match addressFault? url with
  | some fault => (s, .error (.address fault))
  | none =>
    match sendOnce transport timeout ⟨"GET", withoutUserinfo url, none, []⟩ s with
    | (s, .after _ (.ok response)) => (s, contentOf named response)
    | (s, _) => (s, .error .request)

/-- The place of the description, behind the broker's name. -/
def descriptionPath : String := "/.well-known/openid-configuration"

/-- Reads a description; it has to be that of this broker. -/
def readDescription (issuer : String) (content : Bytes) : Except DiscoveryError Description :=
  match Description.ofJson? content with
  | none => .error .document
  | some description =>
    if description.issuer = issuer then .ok description
    else .error (.issuer description.issuer issuer)

/-- Fetches the description of a broker. -/
def fetchDescription (transport : Transport σ) (timeout : Option Duration) (issuer : String)
    (s : σ) : σ × Except DiscoveryError Description :=
  match Url.parse (issuer ++ descriptionPath) with
  | .error _ => (s, .error .url)
  | .ok url =>
    let (s, content) := fetch transport timeout url (some url) s
    (s, content.bind (readDescription issuer))

/-- Fetches the keys of a broker. -/
def fetchKeys (transport : Transport σ) (timeout : Option Duration) (url : Url) (s : σ) :
    σ × Except DiscoveryError (List SigningKey) :=
  let (s, content) := fetch transport timeout url none s
  (s, content.bind fun c => (SigningKey.listOfJson? c).elim (.error .document) .ok)

/-- Finds out about a broker. -/
def discover (transport : Transport σ) (connection : Broker.Connection) (s : σ) :
    σ × Except BrokerError Provider :=
  let network (e : DiscoveryError) : Except BrokerError Provider := .error (.network e.message)
  match Url.parse connection.issuer with
  | .error e => (s, .error (.protocol e.message))
  | .ok _ =>
    match fetchDescription transport connection.httpTimeout connection.issuer s with
    | (s, .error e) => (s, network e)
    | (s, .ok description) =>
      match fetchKeys transport connection.httpTimeout description.keysUrl s with
      | (s, .error e) => (s, network e)
      | (s, .ok keys) => (s, .ok ⟨description, keys⟩)

end SignIn.OpenId
