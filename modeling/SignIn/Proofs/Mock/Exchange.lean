import SignIn.Proofs.Http.Transport
import SignIn.Proofs.Mock.Client

/-!
# Exchanging codes at the mock broker

Client and server of an exchange meet twice: in the form that the client posts, and in the status
and the body of the answer. Between them stands the code, which is a mapping in base64. Whatever
code and redirect URI the client sends, the server reads the same two texts, and what it decides
about them is what the client is told. There are three decisions and no fourth one, as long as the
form is not longer than a body can be.

The transport is arbitrary, and so is the time that the answer takes, but the answer must be there
before the exchange is given up.

## Main definitions

* `Mock.IsAnswered` — the mock broker answers the request of an exchange
* `Mock.IsGrantFor` — the exchange comes to a token for the owner of a code

## Main results

* `Mock.exchange_agrees` — what an exchange comes to, for every code and redirect URI
-/

namespace SignIn.Mock

open Http

/-- The request that exchanges a code is sent in the state `s` and comes to the mock broker. It is
answered when the clock there shows `issued`. The answer is there after `delay`, in time, and the
state is then `t`. -/
structure IsAnswered {σ : Type} (transport : Transport σ) (endpoint : Token.Endpoint)
    (issuer code redirectUri : String) (s t : σ) (delay : Duration) (issued : Instant) : Prop where
  path : endpoint.url.path.toText = "/token"
  reach : canBeReached (withoutUserinfo endpoint.url)
  body : (endpoint.request code redirectUri).body.length ≤ Request.bodyLimit
  answer : transport
      { endpoint.request code redirectUri with url := withoutUserinfo endpoint.url } s =
    (t, .after delay (.ok (serve issuer issued.unixSeconds
      (endpoint.request code redirectUri).toRequest).toInbound))
  intime : ∀ time ∈ endpoint.timeout, delay < time
  reading : issued.IsReading

/-- The exchange has come to a token that was issued at `issued` to the client of the code. While it
lives it is accepted, and it names the issuer, that client, and the user and nonce of the code. -/
def IsGrantFor (issuer : String) (issued : Instant) (c : Code)
    (result : Except ExchangeError Token.Grant) : Prop :=
  ∃ idToken claims, result = .ok ⟨idToken⟩ ∧
    (∀ now : Instant,
      now.unixSeconds ≤ issued.unixSeconds + IdToken.lifetime + IdToken.leeway →
        IdToken.decode idToken issuer c.clientId now.unixSeconds = .ok claims) ∧
    claims.iss = issuer ∧ claims.aud = c.clientId ∧ claims.email = c.email ∧ claims.nonce = c.nonce

variable {σ : Type} {transport : Transport σ} {endpoint : Token.Endpoint}
  {issuer code redirectUri : String} {s t : σ} {delay : Duration} {issued : Instant}

theorem IsAnswered.send
    (h : IsAnswered transport endpoint issuer code redirectUri s t delay issued) :
    send transport endpoint.timeout (endpoint.request code redirectUri) s =
      (t, .after delay (.ok (serve issuer issued.unixSeconds
        (endpoint.request code redirectUri).toRequest).toInbound)) :=
  send_of_response h.reach h.answer h.intime (location_serve_token h.path code redirectUri)

/-- A token that was issued for a code is a grant for its owner. -/
theorem isGrantFor_issue (hissued : issued.IsReading) (c : Code) :
    IsGrantFor issuer issued c
      (.ok ⟨IdToken.issue issuer c.clientId c.email c.nonce issued.unixSeconds⟩) := by
  obtain ⟨hiat, hexp⟩ := Claims.inRange_of_isReading hissued
  exact ⟨_, _, rfl, fun now hnow => IdToken.decode_issue hiat hexp hnow, rfl, rfl, rfl, rfl⟩

/-- The exchange comes to a token for the owner of the code if the code was issued for the redirect
URI. If it was issued for another one, or if there is no such code, the mock broker refuses, and the
client is told its reason. So a code that the mock broker has made can be exchanged by whoever knows
its redirect URI, and by nobody else. Nothing else can come of the exchange: the client always
understands the answer. -/
theorem exchange_agrees
    (h : IsAnswered transport endpoint issuer code redirectUri s t delay issued) :
    ∃ result, endpoint.exchange transport code redirectUri s = (t, .after delay result) ∧
      (∀ c, Code.decode? code = some c → c.redirectUri = redirectUri →
        IsGrantFor issuer issued c result) ∧
      (Code.decode? code = none →
        result = .error (.endpoint "invalid_grant" "unknown authorization code")) ∧
      (∀ c, Code.decode? code = some c → c.redirectUri ≠ redirectUri →
        result = .error (.endpoint "invalid_grant" "redirect_uri does not match")) ∧
      (∀ c : Code, code = c.encode →
        (redirectUri = c.redirectUri → IsGrantFor issuer issued c result) ∧
          (redirectUri ≠ c.redirectUri →
            result = .error (.endpoint "invalid_grant" "redirect_uri does not match"))) ∧
      ∀ message, result ≠ .error (.transport message) ∧
        result ≠ .error (.invalidResponse message) := by
  have hexchange := exchange_of_send h.path h.body h.send
  let result := Token.Endpoint.readResponse
    (.ok (exchange issuer issued.unixSeconds "authorization_code" code redirectUri).toInbound)
  have hgranted (c : Code) (hcode : Code.decode? code = some c)
      (hredirect : c.redirectUri = redirectUri) : IsGrantFor issuer issued c result := by
    simp only [result, readResponse_of_code hcode hredirect]
    exact isGrantFor_issue h.reading c
  have hunknown (hcode : Code.decode? code = none) :
      result = .error (.endpoint "invalid_grant" "unknown authorization code") :=
    readResponse_of_unknown hcode
  have helsewhere (c : Code) (hcode : Code.decode? code = some c)
      (hredirect : c.redirectUri ≠ redirectUri) :
      result = .error (.endpoint "invalid_grant" "redirect_uri does not match") :=
    readResponse_of_elsewhere hcode hredirect
  refine ⟨result, hexchange, hgranted, hunknown, helsewhere, ?_, ?_⟩
  · rintro c rfl
    have hcode := Code.decode?_encode c
    exact ⟨fun hredirect => hgranted c hcode hredirect.symm,
      fun hredirect => helsewhere c hcode (Ne.symm hredirect)⟩
  · intro message
    cases hcode : Code.decode? code with
    | none =>
      rw [hunknown hcode]
      exact ⟨nofun, nofun⟩
    | some c =>
      by_cases hredirect : c.redirectUri = redirectUri
      · obtain ⟨idToken, claims, hresult, -⟩ := hgranted c hcode hredirect
        rw [hresult]
        exact ⟨nofun, nofun⟩
      · rw [helsewhere c hcode hredirect]
        exact ⟨nofun, nofun⟩

/-! ### An exchange on one machine -/

/-- The token endpoint of a mock broker on the same machine. -/
def localEndpoint : Token.Endpoint where
  url :=
    { scheme := "http"
      username := ""
      password := ""
      host := some (.domain "localhost")
      port := some 44133
      path := .segments ["token"]
      query := none
      fragment := none }
  timeout := some (Duration.seconds 10)

/-- The transport to it. Its clock stands still at the start of 1970. -/
def localTransport : Transport Unit :=
  .toServer fun request s => (s, serve (baseUrl 44133) 0 request)

/-- A code for a redirect URI with characters that forms and JSON texts escape. -/
def localCode : Code where
  email := "\"é\"@b"
  nonce := "n"
  clientId := "c"
  redirectUri := "c/?a=+"

theorem exchange_agrees_local :
    (∃ result, localEndpoint.exchange localTransport localCode.encode localCode.redirectUri () =
        ((), .after 0 result) ∧ IsGrantFor (baseUrl 44133) 0 localCode result) ∧
      localEndpoint.exchange localTransport localCode.encode "c/" () =
        ((), .after 0 (.error (.endpoint "invalid_grant" "redirect_uri does not match"))) ∧
      localEndpoint.exchange localTransport "é" "" () =
        ((), .after 0 (.error (.endpoint "invalid_grant" "unknown authorization code"))) := by
  have hanswered (code redirectUri : String)
      (hbody : (localEndpoint.request code redirectUri).body.length ≤ Request.bodyLimit) :
      IsAnswered localTransport localEndpoint (baseUrl 44133) code redirectUri () () 0 0 :=
    ⟨by decide, by decide +kernel, hbody, rfl, by decide, ⟨by decide, by decide⟩⟩
  refine ⟨?_, ?_, ?_⟩
  · obtain ⟨result, hresult, -, -, -, hcode, -⟩ := exchange_agrees
      (hanswered localCode.encode localCode.redirectUri (by decide +kernel))
    exact ⟨result, hresult, (hcode localCode rfl).1 rfl⟩
  · obtain ⟨result, hresult, -, -, -, hcode, -⟩ := exchange_agrees
      (hanswered localCode.encode "c/" (by decide +kernel))
    rw [hresult, (hcode localCode rfl).2 (by decide)]
  · obtain ⟨result, hresult, -, hunknown, -⟩ :=
      exchange_agrees (hanswered "é" "" (by decide +kernel))
    rw [hresult, hunknown (by decide +kernel)]

end SignIn.Mock
