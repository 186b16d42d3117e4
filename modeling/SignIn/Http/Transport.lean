import SignIn.Delayed
import SignIn.Http.Address
import SignIn.Http.Message
import SignIn.Url.Parse

/-!
# Requests to others

A transport carries one request to a server and brings its response back. Around it is what every
request of ours goes through: it is sent only to a host that can be reached over HTTP, the whole of
it has to come back in time, and a response that points elsewhere is followed, up to ten times.

When a redirect is followed, 307 and 308 repeat the request as it was; 301, 302 and 303 turn it into
a `GET` without content.

## Main definitions

* `Http.Outbound`, `Http.Inbound` — a request and its response
* `Http.Transport` — carries requests; `Http.Transport.offline`, `Http.Transport.toServer`
* `Http.SendError`, `Http.SendError.message` — why there is no response
* `Http.sendOnce`, `Http.send` — a request alone, and with all redirects
-/

namespace SignIn.Http

/-- A request to a server. -/
structure Outbound where
  method : String
  url : Url
  contentType : Option String
  body : Bytes
  deriving DecidableEq, Repr

/-- The response of a server. -/
structure Inbound where
  status : Nat
  contentType : Option String
  location : Option String
  body : Bytes
  deriving DecidableEq, Repr

/-- Where a transport can fail. -/
inductive TransportFault where
  /-- No response came back. -/
  | request
  /-- A response began but did not end. -/
  | body
  deriving DecidableEq, Repr

/-- Carries a request to a server, in a world of type `σ`. -/
abbrev Transport (σ : Type) := Outbound → σ → σ × Delayed (Except TransportFault Inbound)

/-- The transport of a machine without a network. -/
def Transport.offline {σ : Type} : Transport σ := fun _ s => (s, .now (.error .request))

/-- The request as the server sees it. -/
def Outbound.toRequest (r : Outbound) : Request where
  method := r.method
  path := r.url.path.toText
  query := r.url.query
  contentType := r.contentType
  body := r.body

/-- The response as the client sees it. -/
def Response.toInbound (r : Response) : Inbound where
  status := r.status
  contentType := r.contentType
  location := r.location
  body := Utf8.encode r.body

/-- The transport to a server that answers at once, whatever host is asked for. -/
def Transport.toServer {σ : Type} (serve : Request → σ → σ × Response) : Transport σ :=
  fun r s =>
    let (s, response) := serve r.toRequest s
    (s, .now (.ok response.toInbound))

/-- Why there is no response. -/
inductive SendError where
  /-- The URL names no host that can be reached over HTTP. -/
  | url (url : Url)
  | request (url : Url)
  | redirect (url : Url)
  | body
  deriving DecidableEq, Repr

/-- The wording of the reason. -/
def SendError.message : SendError → String
  | .url u => s!"builder error for url ({u.toText})"
  | .request u => s!"error sending request for url ({u.toText})"
  | .redirect u => s!"error following redirect for url ({u.toText})"
  | .body => "error decoding response body"

/-- User name and password are not shown to anyone. -/
def withoutUserinfo (url : Url) : Url := { url with username := "", password := "" }

/-- How many redirects are followed. -/
def redirectLimit : Nat := 10

/-- The request that a redirect leads to, if the response is one. -/
def redirected? (request : Outbound) (response : Inbound) : Option Outbound :=
  match response.location.map request.url.join with
  | some (.ok url) =>
    if response.status ∈ [301, 302, 303] then
      some ⟨if request.method = "HEAD" then "HEAD" else "GET", url, none, []⟩
    else if response.status ∈ [307, 308] then some { request with url }
    else none
  | _ => none

variable {σ : Type}

/-- A failure after a time, or never if there is none. -/
def failAfter (time : Option Duration) (e : SendError) : Delayed (Except SendError Inbound) :=
  match time with
  | some time => .after time (.error e)
  | none => .never

/-- Whether a URL is an address that can be reached over HTTP. -/
def canBeReached (url : Url) : Bool :=
  (url.scheme = "http" || url.scheme = "https") && (addressFault? url).isNone

/-- Sends a single request. The response has to be there before the timeout. -/
def sendOnce (transport : Transport σ) (timeout : Option Duration) (request : Outbound) (s : σ) :
    σ × Delayed (Except SendError Inbound) :=
  if !canBeReached request.url then
    (s, failAfter (some 0) (.url request.url))
  else match transport request s with
    | (s, .never) => (s, failAfter timeout (.request request.url))
    | (s, .after delay result) =>
      if timeout.any (· ≤ delay) then (s, failAfter timeout (.request request.url))
      else match result with
        | .error .request => (s, failAfter (some delay) (.request request.url))
        | .error .body => (s, failAfter (some delay) .body)
        | .ok response => (s, .after delay (.ok response))

/-- Sends a request and follows redirects, with at most `steps` more requests. -/
def sendFrom (transport : Transport σ) : (steps : Nat) → (timeout : Option Duration) →
    Outbound → σ → σ × Delayed (Except SendError Inbound)
  | steps, timeout, request, s =>
    match sendOnce transport timeout request s with
    | (s, .after delay (.ok response)) =>
      match redirected? request response, steps with
      | none, _ => (s, .after delay (.ok response))
      | some next, 0 => (s, failAfter (some delay) (.redirect next.url))
      | some next, steps + 1 =>
        let (s, result) := sendFrom transport steps (timeout.map (· - delay)) next s
        (s, result.later delay)
    | (s, result) => (s, result)

/-- Sends a request and follows redirects. The last response has to be there before the timeout. -/
def send (transport : Transport σ) (timeout : Option Duration) (request : Outbound) (s : σ) :
    σ × Delayed (Except SendError Inbound) :=
  sendFrom transport redirectLimit timeout { request with url := withoutUserinfo request.url } s

end SignIn.Http
