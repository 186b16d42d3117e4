import SignIn.Mock.Client
import SignIn.Mock.Server
import SignIn.Proofs.Http.Fields
import SignIn.Proofs.Json.Record
import SignIn.Proofs.Mock.Code
import SignIn.Token.Exchange

/-!
# What the mock broker answers

A sign-in makes three requests to the mock broker. Each answer depends only on the fields of its
request, and the fields are read back from the form that carried them. What the client of an
exchange makes of the answer depends on the status and on the members of the body.

## Main definitions

* `Mock.authRequest` — the authentication request of a client
* `Mock.AuthRequest.values` — what a request and a decision are read as

## Main results

* `Mock.serve_auth`, `Mock.serve_confirm`, `Mock.serve_token` — the answers to these requests
* `Mock.receive_postForm` — a decision is read, however long it is
* `Mock.readResponse_granted`, `Mock.readResponse_refused` — what an exchange comes to
-/

namespace SignIn.Mock

open Http Json

/-- The authentication request of a client. -/
def authRequest (flow : Flow) (mode : ResponseMode) (c : Broker.Connection)
    (identifier nonce : String) : AuthRequest where
  clientId := c.clientId
  loginHint := identifier
  nonce
  redirectUri := c.redirectUri.toText
  responseType := flow.responseType
  responseMode := mode.name
  state := ""

/-- What a request and a decision are read as. -/
def AuthRequest.values (r : AuthRequest) (decision : String) : List String :=
  [r.clientId, r.loginHint, r.nonce, r.redirectUri, r.responseType, r.responseMode, r.state,
    decision]

variable {issuer : String} {now : Int} {request : Request} {r : AuthRequest} {decision : String}

/-! ### The confirmation page -/

/-- The page that is shown for a request. A decision that comes along does not matter. -/
theorem serve_auth_of_values (hmethod : request.method = "GET") (hpath : request.path = "/auth")
    (hfields : request.queryFields AuthRequest.fields = .ok (r.values decision)) :
    serve issuer now request = .html 200 (Page.confirm r.loginHint r.hiddenFields) := by
  have hauthorize : authorize request = .html 200 (Page.confirm r.loginHint r.hiddenFields) := by
    rw [authorize, hfields]
    rfl
  rw [serve, Route.dispatch, hpath, hmethod]
  exact hauthorize

theorem readFields_parameters (flow : Flow) (mode : ResponseMode) (c : Broker.Connection)
    (identifier nonce state : String) :
    readFields AuthRequest.fields ((dialect flow mode).parameters c identifier nonce state) =
      .ok ((authRequest flow mode c identifier nonce).values "") := rfl

/-- The page that is shown for the authentication request of a client. -/
theorem serve_auth {flow : Flow} {mode : ResponseMode} {c : Broker.Connection}
    {identifier nonce state : String} (hmethod : request.method = "GET")
    (hpath : request.path = "/auth")
    (hform : request.queryForm = (dialect flow mode).parameters c identifier nonce state) :
    serve issuer now request =
      .html 200 (Page.confirm identifier
        (authRequest flow mode c identifier nonce).hiddenFields) := by
  have hfields : request.queryFields AuthRequest.fields =
      .ok ((authRequest flow mode c identifier nonce).values "") := by
    rw [Request.queryFields, hform, readFields_parameters]
    rfl
  exact serve_auth_of_values (r := authRequest flow mode c identifier nonce) hmethod hpath hfields

/-! ### The decision -/

/-- No decision makes the target too long. -/
theorem receive_postForm (form : Form) :
    receive issuer now (Request.postForm "/auth/confirm" form) =
      serve issuer now (Request.postForm "/auth/confirm" form) :=
  Request.receive_of_isReadable (Request.isReadable_postForm (by decide +kernel) form)

theorem serve_postForm (form : Form) :
    serve issuer now (Request.postForm "/auth/confirm" form) =
      confirm issuer now (Request.postForm "/auth/confirm" form) := by
  have hpath : (Request.ofTarget "POST" "/auth/confirm").path = "/auth/confirm" := by decide
  have hposted : (Request.postForm "/auth/confirm" form).path = "/auth/confirm" := hpath
  rw [serve, Route.dispatch, hposted]
  rfl

/-- A confirmation is at most three times as long as what it says, apart from the names of its
fields. -/
theorem length_confirmation_le (r : AuthRequest) (decision : String) :
    (Request.postForm "/auth/confirm"
      (r.hiddenFields ++ [("decision", decision)])).body.length ≤
      3 * ((Utf8.encode r.clientId).length + (Utf8.encode r.loginHint).length +
        (Utf8.encode r.nonce).length + (Utf8.encode r.redirectUri).length +
        (Utf8.encode r.responseType).length + (Utf8.encode r.responseMode).length +
        (Utf8.encode r.state).length + (Utf8.encode decision).length) + 241 := by
  have hnames : (Utf8.encode "client_id").length + (Utf8.encode "login_hint").length +
      (Utf8.encode "nonce").length + (Utf8.encode "redirect_uri").length +
      (Utf8.encode "response_type").length + (Utf8.encode "response_mode").length +
      (Utf8.encode "state").length + (Utf8.encode "decision").length = 75 := by
    decide +kernel
  refine Nat.le_trans (Form.length_encode_le _) ?_
  simp only [AuthRequest.hiddenFields, List.cons_append, List.nil_append, List.map_cons,
    List.map_nil, List.sum_cons, List.sum_nil]
  omega

/-- The fields of the page and a decision are read back. -/
theorem bodyFields_hiddenFields
    (h : (Request.postForm "/auth/confirm"
      (r.hiddenFields ++ [("decision", decision)])).body.length ≤ Request.bodyLimit) :
    (Request.postForm "/auth/confirm"
      (r.hiddenFields ++ [("decision", decision)])).bodyFields AuthRequest.fields =
        .ok (r.values decision) := by
  have hread : readFields AuthRequest.fields (r.hiddenFields ++ [("decision", decision)]) =
    .ok (r.values decision) := rfl
  rw [Request.bodyFields, Request.bodyForm_postForm h, ok_bind, hread]
  rfl

/-- The decision about a request is carried out. -/
theorem serve_confirm
    (h : (Request.postForm "/auth/confirm"
      (r.hiddenFields ++ [("decision", decision)])).body.length ≤ Request.bodyLimit) :
    serve issuer now
        (Request.postForm "/auth/confirm" (r.hiddenFields ++ [("decision", decision)])) =
      deliver r (callback issuer now r decision) := by
  rw [serve_postForm, confirm, bodyFields_hiddenFields h]
  rfl

/-- A decision in a form that is too long is refused. -/
theorem serve_confirm_of_long {form : Form}
    (h : Request.bodyLimit < (Request.postForm "/auth/confirm" form).body.length) :
    serve issuer now (Request.postForm "/auth/confirm" form) = Rejection.tooLong.response := by
  rw [serve_postForm, confirm, Request.bodyFields, Request.bodyForm_of_long rfl h]
  rfl

/-! ### The exchange -/

theorem serve_toRequest {endpoint : Token.Endpoint} (hpath : endpoint.url.path.toText = "/token")
    (code redirectUri : String) :
    serve issuer now (endpoint.request code redirectUri).toRequest =
      token issuer now (endpoint.request code redirectUri).toRequest := by
  have hrequest : (endpoint.request code redirectUri).toRequest.path = "/token" := hpath
  rw [serve, Route.dispatch, hrequest]
  rfl

/-- No code makes the target too long. -/
theorem receive_toRequest {endpoint : Token.Endpoint} (hpath : endpoint.url.path.toText = "/token")
    (hquery : endpoint.url.query = none) (code redirectUri : String) :
    receive issuer now (endpoint.request code redirectUri).toRequest =
      serve issuer now (endpoint.request code redirectUri).toRequest := by
  have htarget : (endpoint.request code redirectUri).toRequest.target = "/token" := by
    rw [Request.target, Outbound.toRequest, Token.Endpoint.request, hquery]
    exact hpath
  refine Request.receive_of_isReadable ?_
  rw [Request.IsReadable, htarget]
  decide +kernel

/-- The request that exchanges a code is taken for what it asks. -/
theorem serve_token {endpoint : Token.Endpoint} {code redirectUri : String}
    (hpath : endpoint.url.path.toText = "/token")
    (h : (endpoint.request code redirectUri).body.length ≤ Request.bodyLimit) :
    serve issuer now (endpoint.request code redirectUri).toRequest =
      exchange issuer now "authorization_code" code redirectUri := by
  let request := (endpoint.request code redirectUri).toRequest
  have hreadable : readFields exchangeFields (Token.requestForm code redirectUri) =
      .ok ["authorization_code", code, redirectUri] := rfl
  have hfields : request.bodyFields exchangeFields =
      .ok ["authorization_code", code, redirectUri] := by
    rw [Request.bodyFields, Request.bodyForm_of_encode rfl rfl h, ok_bind, hreadable]
    rfl
  rw [serve_toRequest hpath, token, hfields]
  rfl

/-- The token endpoint sends nobody elsewhere. -/
theorem location_serve_token {endpoint : Token.Endpoint}
    (hpath : endpoint.url.path.toText = "/token") (code redirectUri : String) :
    (serve issuer now (endpoint.request code redirectUri).toRequest).location = none := by
  have hexchange (grantType code redirectUri : String) :
      (exchange issuer now grantType code redirectUri).location = none := by
    rw [exchange]
    split
    · rfl
    · split
      · rfl
      · split
        · rfl
        · rfl
  have hrejection (rejection : Rejection) : rejection.response.location = none := by
    cases rejection <;> rfl
  let request := (endpoint.request code redirectUri).toRequest
  rw [serve_toRequest hpath, token]
  cases request.bodyFields exchangeFields with
  | error rejection => exact hrejection rejection
  | ok values =>
    rw [ok_bind]
    split
    · exact hexchange _ _ _
    · rfl

/-! ### What the client makes of it -/

/-- The members of an answer of the token endpoint that can be read. -/
theorem readBody_textMapping {members pairs : List (String × String)}
    {error description idToken : String}
    (hfits : Fits Token.Reply.record [] (members.map fun m => (m.1, writeText m.2)) pairs)
    (hvalues : Token.Reply.record.collect pairs = .ok [error, description, idToken]) :
    Token.Reply.readBody (Utf8.encode (textMapping members)) =
      .ok (error, description, idToken) := by
  rw [Token.Reply.readBody, textMapping, parse_writeMapping hfits hvalues]
  rfl

theorem readBody_granted (idToken : String) :
    Token.Reply.readBody
        (Utf8.encode (textMapping [("id_token", idToken), ("token_type", "bearer")])) =
      .ok ("", "", idToken) := by
  have hfits : Fits Token.Reply.record []
      [("id_token", writeText idToken), ("token_type", writeText "bearer")]
      [("id_token", idToken)] := by
    refine .known rfl rfl (reads_writeText idToken) ?_
    exact .unknown rfl rfl (passes_writeText "bearer") (.nil _)
  exact readBody_textMapping hfits rfl

theorem readBody_refused (error description : String) :
    Token.Reply.readBody (Utf8.encode
        (textMapping [("error", error), ("error_description", description)])) =
      .ok (error, description, "") := by
  have hfits : Fits Token.Reply.record []
      [("error", writeText error), ("error_description", writeText description)]
      [("error", error), ("error_description", description)] := by
    refine .known rfl rfl (reads_writeText error) ?_
    exact .known rfl rfl (reads_writeText description) (.nil _)
  exact readBody_textMapping hfits rfl

/-- The client looks at the status and reads the body. -/
theorem readResponse_json (status : Nat) (body : String) :
    Token.Endpoint.readResponse (.ok (Response.json status body).toInbound) =
      Token.Reply.parse (status = 200) (Utf8.encode body) >>= Token.Reply.toGrant := rfl

/-- The client that exchanges a code gets the token. -/
theorem readResponse_granted (idToken : String) :
    Token.Endpoint.readResponse (.ok (Response.json 200
      (textMapping [("id_token", idToken), ("token_type", "bearer")])).toInbound) =
        .ok ⟨idToken⟩ := by
  rw [readResponse_json, Token.Reply.parse.eq_def, readBody_granted]
  rfl

/-- The client whose exchange is refused is told why. -/
theorem readResponse_refused (error description : String) :
    Token.Endpoint.readResponse (.ok (refuseExchange error description).toInbound) =
      .error (.endpoint error description) := by
  rw [refuseExchange, readResponse_json, Token.Reply.parse.eq_def, readBody_refused]
  rfl

end SignIn.Mock
