import SignIn.Browser
import SignIn.Mock.Client
import SignIn.Proofs.Broker.Endpoint
import SignIn.Proofs.Mock.IdToken
import SignIn.Proofs.Mock.Server
import SignIn.Proofs.Url.Query

/-!
# What a client gets from the mock broker

The client finds the mock broker under the paths that it serves, and the tokens that it is given are
genuine. What it is asked about an authentication is what the mock broker will say about it later.

## Main results

* `Mock.start_dialect` — where an authentication starts
* `Mock.serve_visit` — the page that it starts with
* `Mock.check_issue` — a token that was issued is genuine
* `Mock.exchange_of_send` — what comes of a code that is sent there
* `Mock.readResponse_of_code`, `Mock.readResponse_of_unknown`, `Mock.readResponse_of_elsewhere` — a
  token if it was issued for this redirect URI, and otherwise the reason
-/

namespace SignIn.Mock

open Http

variable {c : Broker.Connection} {flow : Flow} {mode : ResponseMode} {issuer : String}

/-! ### Finding the mock broker -/

theorem isTarget_auth : Url.IsTarget "auth" :=
  ⟨⟨by decide, by decide, by decide, by decide⟩, by decide, by decide⟩

/-- A broker that is found under its name: paths can be put behind its URL, and no drive is in their
way. -/
structure IsFound (u : Url) : Prop where
  rooted : u.isRootless = false
  noDrive : u.scheme = "file" → Url.isDrive u.firstSegment = false

theorem resolve_of_isTarget (h : IsFound c.brokerUrl) {name : String} (hname : Url.IsTarget name) :
    ∃ url, c.resolve ("/" ++ name) = .ok url ∧ url.path = .segments [name] ∧ url.query = none := by
  obtain ⟨url, hjoin, hurl⟩ := Url.join_slash hname h.rooted h.noDrive
  refine ⟨url, ?_, hurl⟩
  rw [Broker.Connection.resolve, hjoin]

theorem start_dialect (h : IsFound c.brokerUrl) (flow : Flow) (mode : ResponseMode) :
    ∃ url, (dialect flow mode).start c = .ok url ∧
      url.path.toText = "/auth" ∧ url.query = none := by
  obtain ⟨url, hresolve, hpath, hquery⟩ := resolve_of_isTarget h isTarget_auth
  refine ⟨url, hresolve, ?_, hquery⟩
  rw [hpath]
  decide

/-- The broker's token endpoint has the path of the exchange, and no query. -/
theorem of_tokenEndpoint_eq_ok (h : IsFound c.brokerUrl) {url : Url}
    (hurl : c.tokenEndpoint = .ok url) : url.path.toText = "/token" ∧ url.query = none := by
  obtain ⟨found, hresolve, hpath, hquery⟩ := resolve_of_isTarget h Broker.Connection.isTarget_token
  obtain rfl : found = url := Except.ok.inj (hresolve.symm.trans hurl)
  rw [hpath]
  exact ⟨by decide, hquery⟩

/-! ### Tokens and codes -/

/-- The browser that visits the URL of an authentication is asked about it. -/
theorem serve_visit {url : Url} (hpath : url.path.toText = "/auth") (hquery : url.query = none)
    (now : Int) (identifier nonce state : String) :
    serve issuer now (Browser.visit
        (url.appendPairs ((dialect flow mode).parameters c identifier nonce state))) =
      .html 200 (Page.confirm identifier
        (authRequest flow mode c identifier nonce).hiddenFields) := by
  have hpairs : (url.appendPairs ((dialect flow mode).parameters c identifier nonce state)).pairs =
      (dialect flow mode).parameters c identifier nonce state := by
    rw [Url.pairs_appendPairs, Url.pairs, hquery, Option.getD_none, Form.ofText_empty,
      List.nil_append]
  exact @serve_auth issuer now _ flow mode c identifier nonce state rfl hpath hpairs

theorem encode_ne_empty (code : Code) : code.encode ≠ "" := by
  intro h
  have hdigits : Base64.encodeBytes (Utf8.encode code.toJson) = [] := by
    rw [← String.toList_ofList (l := Base64.encodeBytes (Utf8.encode code.toJson))]
    exact congrArg String.toList h
  have hbytes := Base64.encodeBytes_eq_nil hdigits
  rw [Code.toJson, Utf8.encode_eq_bytes, Json.toList_writeMapping,
    Utf8.bytes_cons_of_lt (by decide)] at hbytes
  contradiction

theorem issue_ne_empty (issuer audience email nonce : String) (now : Int) :
    IdToken.issue issuer audience email nonce now ≠ "" := by
  intro h
  have hchars := congrArg String.toList h
  rw [IdToken.issue, IdToken.ofPayload, IdToken.signed, String.toList_append,
    String.toList_append] at hchars
  have hdot := (List.append_eq_nil_iff.1 (List.append_eq_nil_iff.1 hchars).1).2
  contradiction

/-- A token that was issued to a client is genuine to that client. -/
theorem check_issue {issued : Int} (hiat : Claims.InRange issued)
    (hexp : Claims.InRange (issued + IdToken.lifetime)) {clock : Instant}
    (hnow : clock.unixSeconds ≤ issued + IdToken.lifetime + IdToken.leeway)
    (identifier nonce : String) :
    (dialect flow mode).check c (IdToken.issue c.issuer c.clientId identifier nonce issued) clock =
      .ok ⟨some identifier, some nonce⟩ := by
  have hdecode := @IdToken.decode_issue c.issuer c.clientId identifier nonce issued _ hiat hexp hnow
  simp only [dialect, hdecode]
  rfl

/-- A token that another broker issued is not. -/
theorem check_issue_of_ne {issued : Int} (hiat : Claims.InRange issued)
    (hexp : Claims.InRange (issued + IdToken.lifetime)) {clock : Instant}
    (hnow : clock.unixSeconds ≤ issued + IdToken.lifetime + IdToken.leeway)
    (hissuer : issuer ≠ c.issuer) (audience identifier nonce : String) :
    (dialect flow mode).check c (IdToken.issue issuer audience identifier nonce issued) clock =
      .error (.invalidToken "InvalidIssuer") := by
  have hdecode := @IdToken.decode_issue_eq issuer audience identifier nonce issued _ hiat hexp hnow
    c.issuer c.clientId
  rw [if_pos hissuer] at hdecode
  simp only [dialect, hdecode]
  rfl

variable {σ : Type} {transport : Transport σ} {endpoint : Token.Endpoint} {s t : σ}
  {delay : Duration} {code redirectUri : String} {issued : Int}

/-- The client learns what the mock broker made of the code, if the request comes there. -/
theorem exchange_of_send (hpath : endpoint.url.path.toText = "/token")
    (hbody : (endpoint.request code redirectUri).body.length ≤ Request.bodyLimit)
    (hsend : send transport endpoint.timeout (endpoint.request code redirectUri) s =
      (t, .after delay (.ok (serve issuer issued
        (endpoint.request code redirectUri).toRequest).toInbound))) :
    endpoint.exchange transport code redirectUri s =
      (t, .after delay (Token.Endpoint.readResponse
        (.ok (exchange issuer issued "authorization_code" code redirectUri).toInbound))) := by
  rw [Token.Endpoint.exchange, hsend, serve_token hpath hbody]
  rfl

/-- A code that was issued for the redirect URI is exchanged for a token. -/
theorem readResponse_of_code {contents : Code} (hcode : Code.decode? code = some contents)
    (hredirect : contents.redirectUri = redirectUri) :
    Token.Endpoint.readResponse
        (.ok (exchange issuer issued "authorization_code" code redirectUri).toInbound) =
      .ok ⟨IdToken.issue issuer contents.clientId contents.email contents.nonce issued⟩ := by
  have hexchange : exchange issuer issued "authorization_code" code redirectUri =
      .json 200 (textMapping [("id_token",
        IdToken.issue issuer contents.clientId contents.email contents.nonce issued),
          ("token_type", "bearer")]) := by
    rw [exchange, hcode]
    simp only [ne_eq, not_true_eq_false, if_false, hredirect]
  rw [hexchange, readResponse_granted]

/-- A text that is no code is refused. -/
theorem readResponse_of_unknown (hcode : Code.decode? code = none) :
    Token.Endpoint.readResponse
        (.ok (exchange issuer issued "authorization_code" code redirectUri).toInbound) =
      .error (.endpoint "invalid_grant" "unknown authorization code") := by
  have hexchange : exchange issuer issued "authorization_code" code redirectUri =
      refuseExchange "invalid_grant" "unknown authorization code" := by
    rw [exchange, hcode]
    rfl
  rw [hexchange, readResponse_refused]

/-- A code that was issued for another redirect URI is refused. -/
theorem readResponse_of_elsewhere {contents : Code} (hcode : Code.decode? code = some contents)
    (hredirect : contents.redirectUri ≠ redirectUri) :
    Token.Endpoint.readResponse
        (.ok (exchange issuer issued "authorization_code" code redirectUri).toInbound) =
      .error (.endpoint "invalid_grant" "redirect_uri does not match") := by
  have hexchange : exchange issuer issued "authorization_code" code redirectUri =
      refuseExchange "invalid_grant" "redirect_uri does not match" := by
    rw [exchange, hcode]
    simp only [ne_eq, not_true_eq_false, if_false, hredirect, not_false_eq_true, if_true]
  rw [hexchange, readResponse_refused]

end SignIn.Mock
