import SignIn.Proofs.Http.Transport
import SignIn.Proofs.Mock.Client
import SignIn.Proofs.Mock.Delivery
import SignIn.Proofs.Party.Meanwhile
import SignIn.Proofs.Party.Service

/-!
# A whole sign-in

A sign-in at the mock broker goes through many hands. The relying party sends the browser away with
an identifier in a query; the mock broker shows it on a page and carries it along in the fields of a
form; the decision sends it back in a token, or in a code that is exchanged for one; and at the end
the relying party shows it on a page of its own. On each of these ways it is written in another
format, and on each it is read back.

So the relying party confirms the identifier that the sign-in was started with, whatever text that
is, if the user allows it and the token comes before it and its nonce have expired. If the user does
not, the callback reports a failure, and nothing that the relying party remembers changes.

What happens in between does not matter, as long as nobody else redeems the nonce. But there are
limits. The identifier goes through the query of a URL, and a server does not read a target that is
too long; the same holds for a token or a code that comes back in a query. A form that is posted
must not be too long either. And a nonce must expire within the calendar. A refusal always comes
through: it is short, because these sign-ins have no state.

## Main definitions

* `Party.Setup.SignsInAtMock` — a relying party whose users sign in at the mock broker
* `Mock.ResponseMode.request` — the request that brings a callback to the relying party
* `Party.Setup.Brings` — how the token of a callback gets to the relying party
* `Party.Setup.Concludes` — how a callback ends, and what the browser is shown

## Main results

* `Party.handshake` — a whole sign-in
-/

namespace SignIn

open Http

/-- What the browser sends when the user has decided on a confirmation page. -/
def Browser.submit (page decision : String) : Request :=
  .postForm "/auth/confirm" (Mock.Page.hiddenFields page ++ [("decision", decision)])

/-- The request that brings a callback to the relying party. -/
def Mock.ResponseMode.request (mode : Mock.ResponseMode) (form : Form) : Request :=
  match mode with
  | .formPost => .postForm "/verify" form
  | .query => Mock.getForm "/verify" form

namespace Party

variable {μ : Type}

/-- A relying party whose users sign in at the mock broker. -/
structure Setup.SignsInAtMock (setup : Setup μ) (flow : Mock.Flow) (mode : Mock.ResponseMode) :
    Prop where
  dialect : setup.dialect = Mock.dialect flow mode
  brokerUrl : Mock.IsFound setup.connection.brokerUrl
  redirectUri : ∃ text, Url.parse text = .ok setup.connection.redirectUri
  scheme : setup.connection.redirectUri.scheme = "http" ∨
    setup.connection.redirectUri.scheme = "https"
  query : setup.connection.redirectUri.query = none
  fragment : setup.connection.redirectUri.fragment = none
  nonceTtl : setup.connection.nonceTtl ≤ Broker.Client.longestTtl
  requestTimeout : 0 < setup.requestTimeout

/-- The nonce of the next authentication. -/
def State.nextNonce (s : State μ) : String := Nonce.text (s.random s.drawn)

/-- The request that exchanges the code of a callback. -/
def Setup.tokenRequest (setup : Setup μ) (p : Callback.Params) : Outbound :=
  setup.endpoint.request p.code setup.connection.redirectUri.toText

/-- The page that asks whether to sign in. -/
def Setup.confirmPage (setup : Setup μ) (flow : Mock.Flow) (mode : Mock.ResponseMode)
    (identifier nonce : String) : String :=
  Mock.Page.confirm identifier
    (Mock.authRequest flow mode setup.connection identifier nonce).hiddenFields

/-- What the mock broker tells the relying party about a decision that it is told at `confirmed`. -/
def Setup.callbackForm (setup : Setup μ) (flow : Mock.Flow) (mode : Mock.ResponseMode)
    (identifier nonce decision : String) (confirmed : Instant) : Form :=
  Mock.callback setup.connection.issuer confirmed.unixSeconds
    (Mock.authRequest flow mode setup.connection identifier nonce) decision

/-- How the token of a callback that comes in `s` gets to the relying party. It was issued at
`issued`, and it is verified in `t`. In the implicit flow it comes with the callback, which was
confirmed at `confirmed`. In the code flow the mock broker answers the request for it, and something
may happen until its answer is there. -/
inductive Setup.Brings (setup : Setup μ) (nonce : String) (confirmed : Instant)
    (p : Callback.Params) (s : State μ) : Mock.Flow → (issued : Instant) → State μ → Prop where
  | implicit : Brings setup nonce confirmed p s .implicit confirmed s
  | code {issued : Instant} {t : State μ} {delay : Duration}
      (endpoint : setup.connection.tokenEndpoint = .ok setup.endpoint.url)
      (body : (setup.tokenRequest p).body.length ≤ Request.bodyLimit)
      (answer : send setup.transport setup.endpoint.timeout (setup.tokenRequest p) s =
        (t, .after delay (.ok (Mock.receive setup.connection.issuer issued.unixSeconds
          (setup.tokenRequest p).toRequest).toInbound)))
      (intime : delay < setup.requestTimeout) (meanwhile : Meanwhile setup.dialect nonce s t) :
    Brings setup nonce confirmed p s .code issued t

/-- The request brings a callback that comes to this outcome, and is answered accordingly. -/
structure Setup.Concludes (setup : Setup μ) (request : Request) (p : Callback.Params) (s : State μ)
    (outcome : Callback.Outcome) : Prop where
  callback : Job.receive request = .callback (.start p)
  handled : (Callback.handle setup.service.toParties (some setup.requestTimeout) p s).2 =
    some outcome
  answer : (setup.service.receive request s).2 = Job.outcomeResponse outcome

variable {setup : Setup μ} {flow : Mock.Flow} {mode : Mock.ResponseMode} {s : State μ}

/-- A code is exchanged if the requests of the relying party come to the mock broker. -/
theorem Setup.Brings.of_transport (h : setup.SignsInAtMock flow mode) {nonce : String}
    {confirmed issued : Instant} {p : Callback.Params} {t : State μ} {delay : Duration}
    (endpoint : setup.connection.tokenEndpoint = .ok setup.endpoint.url)
    (body : (setup.tokenRequest p).body.length ≤ Request.bodyLimit)
    (hreach : canBeReached (withoutUserinfo setup.endpoint.url))
    (htransport : setup.transport
        { setup.tokenRequest p with url := withoutUserinfo setup.endpoint.url } s =
      (t, .after delay (.ok (Mock.receive setup.connection.issuer issued.unixSeconds
        (setup.tokenRequest p).toRequest).toInbound)))
    (htime : ∀ time ∈ setup.endpoint.timeout, delay < time) (intime : delay < setup.requestTimeout)
    (meanwhile : Meanwhile setup.dialect nonce s t) :
    setup.Brings nonce confirmed p s .code issued t := by
  obtain ⟨hpath, hquery⟩ := Mock.of_tokenEndpoint_eq_ok h.brokerUrl endpoint
  have hlocation : (Mock.receive setup.connection.issuer issued.unixSeconds
      (setup.tokenRequest p).toRequest).location = none := by
    rw [Setup.tokenRequest, Mock.receive_toRequest hpath hquery]
    exact Mock.location_serve_token hpath _ _
  exact .code endpoint body (send_of_response hreach htransport htime hlocation) intime meanwhile

/-! ### The start -/

section Start

variable (h : setup.SignsInAtMock flow mode)
  (hconnection : s.client.connection = setup.connection) (halive : s.client.isDestroyed = false)
  (hvalid : Instant.isValid (s.now + setup.connection.nonceTtl))

include h hconnection halive hvalid

/-- An authentication is started, and the relying party waits for its nonce. -/
theorem authenticate_started (identifier : String) :
    ∃ url : Url, url.path.toText = "/auth" ∧ url.query = none ∧
      (s.authenticate setup.dialect identifier).2 = .now (.ok (url.appendPairs
        ((Mock.dialect flow mode).parameters setup.connection identifier s.nextNonce
          (Broker.stateText (s.random (s.drawn + 1)))))) ∧
      Awaits setup.connection s.nextNonce s.now (s.authenticate setup.dialect identifier).1 := by
  obtain ⟨url, hstart, hpath, hquery⟩ := Mock.start_dialect h.brokerUrl flow mode
  rw [← hconnection] at hstart hvalid
  have hlongest : s.client.connection.nonceTtl ≤ Broker.Client.longestTtl :=
    hconnection ▸ h.nonceTtl
  have hstarted := Broker.Client.authenticate_of_start halive hstart hlongest hvalid identifier
    s.nextNonce (Broker.stateText (s.random (s.drawn + 1)))
  have hstate := State.authenticate_of_ok hstarted
  have hok : (s.authenticate (Mock.dialect flow mode) identifier).2 = .now (.ok (url.appendPairs
      ((Mock.dialect flow mode).parameters setup.connection identifier s.nextNonce
        (Broker.stateText (s.random (s.drawn + 1)))))) := by
    rw [hstate, hconnection]
  rw [h.dialect]
  exact ⟨url, hpath, hquery, hok, hconnection ▸ (Awaits.of_authenticate hok).1⟩

/-- The target of the request for its URL holds its parameters, none of which is random but the
nonce. -/
theorem authenticate_target (identifier : String) :
    ∃ url, (s.authenticate setup.dialect identifier).2 = .now (.ok url) ∧
      (Browser.visit url).target = "/auth" ++ "?" ++ Form.encode
        ((Mock.dialect flow mode).parameters setup.connection identifier s.nextNonce "") := by
  obtain ⟨url, hpath, hquery, hurl, -⟩ :=
    authenticate_started h hconnection halive hvalid identifier
  refine ⟨_, hurl, ?_⟩
  rw [← hpath, Request.target, Browser.visit, Url.appendPairs, hquery]
  rfl

/-- With an identifier that is as long as a target can be it is too long. -/
theorem authenticate_of_long {identifier : String}
    (hlong : uriLimit ≤ (Utf8.encode identifier).length) :
    ∃ url, (s.authenticate setup.dialect identifier).2 = .now (.ok url) ∧
      ¬(Browser.visit url).IsReadable := by
  obtain ⟨url, hurl, htarget⟩ := authenticate_target h hconnection halive hvalid identifier
  have hmem : ("login_hint", identifier) ∈
      (Mock.dialect flow mode).parameters setup.connection identifier s.nextNonce "" :=
    .tail _ (.head _)
  exact ⟨url, hurl, Request.not_isReadable_of_target htarget
    (Nat.le_trans hlong (Form.length_le_encode hmem))⟩

/-- It is three times as long as what it says at most, apart from the names. -/
theorem authenticate_of_short {identifier : String}
    (hshort : 3 * ((Utf8.encode setup.connection.clientId).length +
      (Utf8.encode identifier).length + (Utf8.encode s.nextNonce).length +
      (Utf8.encode setup.connection.redirectUri.toText).length +
      (Utf8.encode flow.responseType).length + (Utf8.encode mode.name).length) + 257 ≤ uriLimit) :
    ∃ url, (s.authenticate setup.dialect identifier).2 = .now (.ok url) ∧
      (Browser.visit url).IsReadable := by
  obtain ⟨url, hurl, htarget⟩ := authenticate_target h hconnection halive hvalid identifier
  have hfront : (Utf8.encode ("/auth" ++ "?")).length = 6 := by decide +kernel
  have hfixed : (Utf8.encode "client_id").length + (Utf8.encode "login_hint").length +
      (Utf8.encode "nonce").length + (Utf8.encode "redirect_uri").length +
      (Utf8.encode "response_type").length + (Utf8.encode "response_mode").length +
      ((Utf8.encode "scope").length + (Utf8.encode "openid email").length) = 79 := by
    decide +kernel
  have hform := Form.length_encode_le
    ((Mock.dialect flow mode).parameters setup.connection identifier s.nextNonce "")
  refine ⟨url, hurl, ?_⟩
  rw [Request.IsReadable, htarget, Utf8.encode_append, List.length_append, hfront]
  simp only [Mock.dialect, List.map_cons, List.map_nil, List.sum_cons, List.sum_nil] at hform ⊢
  omega

end Start

/-- The fields of the page go along with the decision. -/
theorem submit_confirmPage (setup : Setup μ) (flow : Mock.Flow) (mode : Mock.ResponseMode)
    (identifier nonce decision : String) :
    Browser.submit (setup.confirmPage flow mode identifier nonce) decision =
      .postForm "/auth/confirm"
        ((Mock.authRequest flow mode setup.connection identifier nonce).hiddenFields ++
          [("decision", decision)]) := by
  let r := Mock.authRequest flow mode setup.connection identifier nonce
  have hfields : Mock.Page.hiddenFields (Mock.Page.confirm identifier r.hiddenFields) =
    r.hiddenFields := Mock.Page.hiddenFields_confirm identifier _
  rw [Browser.submit, Setup.confirmPage, hfields]

/-! ### The end -/

/-- A token that was issued for a nonce is accepted by the relying party that waits for it. -/
theorem verify_issued (h : setup.SignsInAtMock flow mode) {nonce : String} {start issued : Instant}
    (hawaits : Awaits setup.connection nonce start s)
    (hissued : issued.IsReading) (hlives : s.now < start + setup.connection.nonceTtl)
    (hnow : s.now.unixSeconds ≤
      issued.unixSeconds + Mock.IdToken.lifetime + Mock.IdToken.leeway) (identifier : String) :
    setup.service.verify (Mock.IdToken.issue setup.connection.issuer setup.connection.clientId
        identifier nonce issued.unixSeconds) s =
      ((s.verify setup.dialect (Mock.IdToken.issue setup.connection.issuer
        setup.connection.clientId identifier nonce issued.unixSeconds)).1,
        .now (.ok identifier)) := by
  obtain ⟨hiat, hexp⟩ := Mock.Claims.inRange_of_isReading hissued
  refine Prod.ext rfl (hawaits.verify_of_check (Mock.issue_ne_empty _ _ _ _ _) ?_ hlives)
  rw [h.dialect]
  exact Mock.check_issue hiat hexp hnow identifier nonce

/-- The callback of a sign-in that the user allowed is accepted. -/
theorem handle_allowed (h : setup.SignsInAtMock flow mode) {nonce identifier : String}
    {start confirmed issued : Instant} {t : State μ} {p : Callback.Params}
    (hp : p = .ofForm (setup.callbackForm flow mode identifier nonce Mock.allow confirmed))
    (hawaits : Awaits setup.connection nonce start s)
    (hbrings : setup.Brings nonce confirmed p s flow issued t) (hissued : issued.IsReading)
    (hlives : t.now < start + setup.connection.nonceTtl)
    (hnow : t.now.unixSeconds ≤
      issued.unixSeconds + Mock.IdToken.lifetime + Mock.IdToken.leeway) :
    (Callback.handle setup.service.toParties (some setup.requestTimeout) p s).2 =
      some (.verified identifier) := by
  have htimeout {delay : Duration} (hdelay : delay < setup.requestTimeout) :
      ∀ time ∈ some setup.requestTimeout, delay < time := by
    rintro time ⟨⟩
    exact hdelay
  cases hbrings with
  | implicit =>
    have hverify := verify_issued h hawaits hissued hlives hnow identifier
    have hsignal : p.signal = .idToken (Mock.IdToken.issue setup.connection.issuer
        setup.connection.clientId identifier nonce confirmed.unixSeconds) := by
      have htype : "id_token" ≠ "code" := by decide
      rw [hp, Setup.callbackForm, Mock.callback_of_token rfl htype]
      exact Mock.signal_token (Mock.issue_ne_empty _ _ _ _ _)
    rw [Callback.handle_of_idToken (htimeout h.requestTimeout) hsignal hverify]
  | code endpoint body answer intime meanwhile =>
    let code : Mock.Code := ⟨identifier, nonce, setup.connection.clientId,
      setup.connection.redirectUri.toText⟩
    have hform : p = .ofForm [("code", code.encode)] := by
      rw [hp, Setup.callbackForm, Mock.callback_of_code rfl rfl]
      rfl
    have hcode : p.code = code.encode := by
      rw [hform]
      rfl
    have hsignal : p.signal = .code code.encode := by
      rw [hform]
      exact Mock.signal_code (Mock.encode_ne_empty code)
    have hverify := verify_issued h (hawaits.meanwhile meanwhile) hissued hlives hnow identifier
    obtain ⟨hpath, hquery⟩ := Mock.of_tokenEndpoint_eq_ok h.brokerUrl endpoint
    rw [Setup.tokenRequest, hcode] at body answer
    rw [Mock.receive_toRequest hpath hquery] at answer
    have hexchange := Mock.exchange_of_send hpath body answer
    rw [Mock.readResponse_of_code (Mock.Code.decode?_encode code) rfl] at hexchange
    rw [Callback.handle_of_code (htimeout intime) hsignal hexchange hverify]

/-- The page of an outcome is what the browser is shown. -/
theorem concludes_of_handle {request : Request} {p : Callback.Params} {outcome : Callback.Outcome}
    (hreadable : request.IsReadable) (hcallback : Job.start request = .callback (.start p))
    (hmethod : request.method ≠ "HEAD")
    (hhandled : (Callback.handle setup.service.toParties (some setup.requestTimeout) p s).2 =
      some outcome) : setup.Concludes request p s outcome where
  callback := (Job.receive_of_isReadable hreadable none).trans hcallback
  handled := hhandled
  answer := by
    have htimeout : setup.service.requestTimeout = setup.requestTimeout := rfl
    rw [setup.service.receive_of_isReadable hreadable, setup.service.serve_callback s hcallback,
      htimeout, hhandled]
    exact if_neg hmethod

section Forward

variable {form : Form}

theorem method_request (mode : Mock.ResponseMode) (form : Form) :
    (mode.request form).method ≠ "HEAD" := by
  cases mode with
  | formPost => exact (by decide : "POST" ≠ "HEAD")
  | query => exact (by decide : "GET" ≠ "HEAD")

/-- Only a query can make a target too long. -/
theorem isReadable_request (hread : mode = .query → (mode.request form).IsReadable) :
    (mode.request form).IsReadable := by
  cases mode with
  | formPost => exact Job.isReadable_postForm form
  | query => exact hread rfl

/-- The request is for the callback that it brings, if its body is not too long. -/
theorem start_request (hform : form ≠ []) (hplain : Mock.IsPlain form)
    (hlimit : mode = .formPost → (mode.request form).body.length ≤ Request.bodyLimit) :
    Job.start (mode.request form) = .callback (.start (.ofForm form)) := by
  cases mode with
  | formPost => exact Job.start_postForm hform (hlimit rfl)
  | query => exact Job.start_of_query rfl rfl (Mock.ofText_queryText hplain)

end Forward

/-- The mock broker is told a decision, and the browser brings what it answers to the relying
party. -/
theorem forward_decision (h : setup.SignsInAtMock flow mode) {identifier nonce decision : String}
    (hshort : (Browser.submit (setup.confirmPage flow mode identifier nonce) decision).body.length ≤
      Request.bodyLimit) (confirmed : Instant) :
    Browser.forward "/verify" (Mock.receive setup.connection.issuer confirmed.unixSeconds
        (Browser.submit (setup.confirmPage flow mode identifier nonce) decision)) =
      some (mode.request
        (setup.callbackForm flow mode identifier nonce decision confirmed)) := by
  obtain ⟨text, hparse⟩ := h.redirectUri
  have hnormal := Url.normal_of_parse hparse h.scheme
  obtain ⟨-, hplain⟩ := @Mock.isPlain_callback setup.connection.issuer confirmed.unixSeconds
    (Mock.authRequest flow mode setup.connection identifier nonce) decision
  rw [submit_confirmPage] at hshort ⊢
  rw [Mock.receive_postForm, Mock.serve_confirm hshort]
  cases mode with
  | formPost =>
    have hmode : "form_post" ≠ "query" := by decide
    exact Mock.forward_page hmode _ "/verify"
  | query => exact Mock.forward_query hnormal h.query h.fragment rfl rfl hplain "/verify"

/-- The callback of a sign-in that the user did not allow reports a failure, whatever has happened
meanwhile. -/
theorem concludes_refusal (h : setup.SignsInAtMock flow mode) (s : State μ) :
    setup.Concludes (mode.request Mock.refusal) (.ofForm Mock.refusal) s .gotError ∧
      (setup.service.receive (mode.request Mock.refusal) s).1.client = s.client := by
  have hleft : ∀ time ∈ some setup.requestTimeout, 0 < time := by
    rintro time ⟨⟩
    exact h.requestTimeout
  have hreadable : (mode.request Mock.refusal).IsReadable := isReadable_request <| by
    rintro rfl
    exact Mock.isReadable_refusal
  have hcallback : Job.start (mode.request Mock.refusal) =
      .callback (.start (.ofForm Mock.refusal)) := start_request nofun Mock.isPlain_refusal <| by
    rintro rfl
    exact Mock.length_refusal
  have hhandle := @Callback.handle_of_refused _ setup.service.toParties (.ofForm Mock.refusal) s _
    hleft _ _ Mock.signal_refusal
  have htimeout : setup.service.requestTimeout = setup.requestTimeout := rfl
  refine ⟨concludes_of_handle hreadable hcallback (method_request mode _)
    (congrArg Prod.snd hhandle), ?_⟩
  rw [setup.service.receive_of_isReadable hreadable, setup.service.serve_callback s hcallback,
    htimeout, hhandle]
  exact (setup.announce_client (.ofForm Mock.refusal) _ s).1

/-! ### The whole sign-in -/

/-- A user who signs in is confirmed as the one whom the sign-in was started for, if the mock broker
was told to allow it and the token comes in time. Otherwise the callback says that the user denied
the request, and the client is as it was. What goes through a query must not make the target of its
request too long, and what is posted must not be too long for a body. -/
theorem handshake (h : setup.SignsInAtMock flow mode)
    (hconnection : s.client.connection = setup.connection) (halive : s.client.isDestroyed = false)
    (hvalid : Instant.isValid (s.now + setup.connection.nonceTtl)) (identifier : String) :
    ∃ url, (s.authenticate setup.dialect identifier).2 = .now (.ok url) ∧
      ((Browser.visit url).IsReadable → ∀ shown : Instant,
        Mock.receive setup.connection.issuer shown.unixSeconds (Browser.visit url) =
          .html 200 (setup.confirmPage flow mode identifier s.nextNonce)) ∧
      ∀ (decision : String) (confirmed : Instant),
        (Browser.submit (setup.confirmPage flow mode identifier s.nextNonce) decision).body.length ≤
          Request.bodyLimit →
        ∃ request p, Browser.forward "/verify" (Mock.receive setup.connection.issuer
            confirmed.unixSeconds (Browser.submit
              (setup.confirmPage flow mode identifier s.nextNonce) decision)) = some request ∧
          (decision = Mock.allow → (mode = .query → request.IsReadable) →
            (mode = .formPost → request.body.length ≤ Request.bodyLimit) →
            ∀ s' issued t,
              Meanwhile setup.dialect s.nextNonce (s.authenticate setup.dialect identifier).1 s' →
              setup.Brings s.nextNonce confirmed p s' flow issued t → issued.IsReading →
              t.now < s.now + setup.connection.nonceTtl →
              t.now.unixSeconds ≤
                issued.unixSeconds + Mock.IdToken.lifetime + Mock.IdToken.leeway →
              setup.Concludes request p s' (.verified identifier)) ∧
          (decision ≠ Mock.allow →
            p.error = "access_denied" ∧ p.errorDescription = "The user denied the request" ∧
              ∀ s' : State μ, setup.Concludes request p s' .gotError ∧
                (setup.service.receive request s').1.client = s'.client) := by
  obtain ⟨url, hpath, hquery, hauthenticate, hawaits⟩ :=
    authenticate_started h hconnection halive hvalid identifier
  refine ⟨_, hauthenticate, fun hreadable shown => ?_, fun decision confirmed hshort => ?_⟩
  · rw [Mock.receive, Request.receive_of_isReadable hreadable]
    exact Mock.serve_visit hpath hquery shown.unixSeconds _ _ _
  · let form := setup.callbackForm flow mode identifier s.nextNonce decision confirmed
    refine ⟨mode.request form, .ofForm form, forward_decision h hshort confirmed, ?_, ?_⟩
    · rintro rfl hread hlimit s' issued t hmeanwhile hbrings hissued hlives hnow
      obtain ⟨hform, hplain⟩ := @Mock.isPlain_callback setup.connection.issuer
        confirmed.unixSeconds (Mock.authRequest flow mode setup.connection identifier s.nextNonce)
        Mock.allow
      exact concludes_of_handle (isReadable_request hread) (start_request hform hplain hlimit)
        (method_request mode form) (handle_allowed h rfl (hawaits.meanwhile hmeanwhile) hbrings
          hissued hlives hnow)
    · intro hdecision
      have hform : form = Mock.refusal := Mock.callback_of_ne_allow rfl hdecision
      rw [hform]
      exact ⟨rfl, rfl, fun s' => concludes_refusal h s'⟩

/-! ### A sign-in on one machine -/

/-- A URL on this machine. -/
def localUrl (port : Nat) (name : String) : Url where
  scheme := "http"
  username := ""
  password := ""
  host := some (.domain "localhost")
  port := some port
  path := .segments [name]
  query := none
  fragment := none

/-- A relying party that signs its users in at a mock broker on the same machine. -/
def localSetup : Setup Unit where
  connection := { brokerUrl := localUrl 44133 "", redirectUri := localUrl 44180 "verify" }
  dialect := Mock.dialect .implicit .query
  endpoint := ⟨localUrl 44133 "token", none⟩
  transport := .offline
  requestTimeout := defaultRequestTimeout
  nesting := 1

/-- Its state at the start of 1970. -/
def localState : State Unit := localSetup.start () 0 0 fun _ => 0

theorem signsInAtMock_local : localSetup.SignsInAtMock .implicit .query where
  dialect := rfl
  brokerUrl := ⟨rfl, by decide⟩
  redirectUri := ⟨"http://localhost:44180/verify", by decide +kernel⟩
  scheme := .inl rfl
  query := rfl
  fragment := rfl
  nonceTtl := by decide
  requestTimeout := by decide

/-- The token that the mock broker issues there at the start of 1970. -/
def localToken (identifier : String) : String :=
  Mock.IdToken.issue localSetup.connection.issuer localSetup.connection.clientId identifier
    localState.nextNonce 0

theorem callbackForm_local (identifier : String) :
    localSetup.callbackForm .implicit .query identifier localState.nextNonce Mock.allow 0 =
      [("id_token", localToken identifier)] :=
  have htype : Mock.Flow.implicit.responseType ≠ "code" := by decide
  Mock.callback_of_token rfl htype

theorem handshake_local : ∃ url request p,
    (localState.authenticate localSetup.dialect "a@b.com").2 = .now (.ok url) ∧
      Browser.forward "/verify" (Mock.receive localSetup.connection.issuer 0 (Browser.submit
        (localSetup.confirmPage .implicit .query "a@b.com" localState.nextNonce) Mock.allow)) =
          some request ∧
      localSetup.Concludes request p (localState.authenticate localSetup.dialect "a@b.com").1
        (.verified "a@b.com") := by
  have hconnection : localState.client.connection = localSetup.connection := rfl
  have halive : localState.client.isDestroyed = false := rfl
  obtain ⟨url, hurl, -, hdecide⟩ :=
    handshake signsInAtMock_local hconnection halive (by decide) "a@b.com"
  have hshort : (Browser.submit (localSetup.confirmPage .implicit .query "a@b.com"
      localState.nextNonce) Mock.allow).body.length ≤ Request.bodyLimit := by
    rw [submit_confirmPage]
    decide +kernel
  obtain ⟨request, p, hforward, hallowed, -⟩ := hdecide Mock.allow 0 hshort
  have hreadable : request.IsReadable := by
    rw [forward_decision signsInAtMock_local hshort] at hforward
    have hclaims : (Utf8.encode (Mock.IdToken.claims localSetup.connection.issuer
        localSetup.connection.clientId "a@b.com" localState.nextNonce 0).toJson).length ≤ 1000 := by
      decide +kernel
    have htoken : (Utf8.encode (localToken "a@b.com")).length ≤ 2 * 1000 + 120 :=
      Nat.le_trans (Mock.IdToken.length_issue_le ..)
        (Nat.add_le_add_right (Nat.mul_le_mul_left 2 hclaims) 120)
    rw [← Option.some.inj hforward, callbackForm_local]
    exact Mock.isReadable_token (Nat.le_trans
      (Nat.add_le_add_right (Nat.mul_le_mul_left 3 htoken) 17) (by decide))
  have hnow : (localState.authenticate localSetup.dialect "a@b.com").1.now = 0 :=
    (localState.authenticate_client localSetup.dialect "a@b.com").2
  refine ⟨url, request, p, hurl, hforward, hallowed rfl (fun _ => hreadable) nofun _ 0 _ .nothing
    .implicit ⟨Int.le_refl 0, by decide⟩ ?_ ?_⟩
  · rw [hnow]
    decide
  · rw [hnow]
    decide

/-- A broker whose URL starts with a drive. -/
def driveUrl : Url where
  scheme := "file"
  username := ""
  password := ""
  host := some (.domain "")
  port := none
  path := .segments ["C:", ""]
  query := none
  fragment := none

/-- An identifier that is short enough for the target of a query, and too long for it in a token,
does not come to the relying party when it is confirmed. -/
theorem untold_of_long {identifier : String} (hshort : (Utf8.encode identifier).length ≤ 12000)
    (hlong : uriLimit ≤ (Utf8.encode (Json.writeText identifier)).length) :
    (∃ url, (localState.authenticate localSetup.dialect identifier).2 = .now (.ok url) ∧
      (Browser.visit url).IsReadable) ∧
    ∃ request, Browser.forward "/verify" (Mock.receive localSetup.connection.issuer 0
        (Browser.submit (localSetup.confirmPage .implicit .query identifier localState.nextNonce)
          Mock.allow)) = some request ∧
      Job.receive request = .answered .targetTooLong := by
  have hfixed : (Utf8.encode localSetup.connection.clientId).length +
      (Utf8.encode localState.nextNonce).length +
      (Utf8.encode localSetup.connection.redirectUri.toText).length +
      (Utf8.encode Mock.Flow.implicit.responseType).length +
      (Utf8.encode Mock.ResponseMode.query.name).length = 96 := by
    decide +kernel
  constructor
  · refine authenticate_of_short signsInAtMock_local (s := localState) rfl rfl (by decide) ?_
    rw [uriLimit]
    omega
  · have hconfirmed : (Browser.submit (localSetup.confirmPage .implicit .query identifier
        localState.nextNonce) Mock.allow).body.length ≤ Request.bodyLimit := by
      have hdecision : (Utf8.encode "").length + (Utf8.encode Mock.allow).length = 5 := by
        decide +kernel
      rw [submit_confirmPage]
      refine Nat.le_trans (Mock.length_confirmation_le _ _) ?_
      simp only [Mock.authRequest, Request.bodyLimit]
      omega
    have hmem : ("id_token", localToken identifier) ∈ [("id_token", localToken identifier)] :=
      .head _
    have htoken : (Utf8.encode (Json.writeText identifier)).length ≤
        (Utf8.encode (Mock.queryText [("id_token", localToken identifier)])).length :=
      Nat.le_trans (Mock.IdToken.length_le_issue ..) (Mock.length_le_queryText hmem)
    have hunreadable : ¬(Mock.getForm "/verify" [("id_token", localToken identifier)]).IsReadable :=
      Request.not_isReadable_of_target rfl (Nat.le_trans hlong htoken)
    refine ⟨_, forward_decision signsInAtMock_local hconfirmed 0, ?_⟩
    rw [callbackForm_local]
    exact Request.receive_of_not_isReadable hunreadable

/-- With an identifier that is as long as a target can be, the mock broker is not even asked; with
one that takes more room in a token, the relying party is not asked in the end; and one that is
longer than a body can be does not come through the confirmation. A broker behind a drive is not
found. And an authentication is not started if its nonce is to live for longer than can be counted,
or until behind the end of the calendar. -/
theorem handshake_limits :
    (∃ url, (localState.authenticate localSetup.dialect
        (String.ofList (List.replicate uriLimit 'a'))).2 = .now (.ok url) ∧
      (Mock.receive localSetup.connection.issuer 0 (Browser.visit url)).status = 414) ∧
    (let identifier := String.ofList (List.replicate 12000 '\x01')
    (∃ url, (localState.authenticate localSetup.dialect identifier).2 = .now (.ok url) ∧
      (Browser.visit url).IsReadable) ∧
    ∃ request, Browser.forward "/verify" (Mock.receive localSetup.connection.issuer 0
        (Browser.submit (localSetup.confirmPage .implicit .query identifier localState.nextNonce)
          Mock.allow)) = some request ∧
      Job.receive request = .answered .targetTooLong) ∧
    (Mock.receive localSetup.connection.issuer 0 (Browser.submit
        (localSetup.confirmPage .implicit .query
          (String.ofList (List.replicate (Request.bodyLimit + 1) 'a')) localState.nextNonce)
        "deny")).status = 413 ∧
    (∃ url, Url.parse "file:///C:/" = .ok driveUrl ∧
      (State.authenticate localSetup.dialect "a@b.com"
        { localState with
          client := .start { localSetup.connection with brokerUrl := driveUrl } 0 }).2 =
          .now (.ok url) ∧
      (Mock.receive localSetup.connection.issuer 0 (Browser.visit url)).status = 404) ∧
    (State.authenticate localSetup.dialect "a@b.com"
      { localState with
        client := .start { localSetup.connection with nonceTtl := 1 <<< 63 } 0 }).2 =
        .now (.error (.protocol "Source duration value is out of range for the target type")) ∧
    (State.authenticate localSetup.dialect "a@b.com"
      { localState with
        client := .start { localSetup.connection with nonceTtl := 1 <<< 62 } 0 }).2 = .never := by
  refine ⟨?_, ?_, ?_, ⟨_, by decide +kernel, rfl, by decide +kernel⟩, rfl, rfl⟩
  · have hlong : uriLimit ≤
        (Utf8.encode (String.ofList (List.replicate uriLimit 'a'))).length :=
      Nat.le_of_eq (Utf8.length_encode_replicate (by decide) _).symm
    obtain ⟨url, hurl, hunreadable⟩ := authenticate_of_long signsInAtMock_local
      (s := localState) rfl rfl (by decide) hlong
    refine ⟨url, hurl, ?_⟩
    rw [Mock.receive, Request.receive_of_not_isReadable hunreadable]
    rfl
  · have hwritten : 12000 * 6 ≤ (Utf8.encode
        (Json.writeText (String.ofList (List.replicate 12000 '\x01')))).length :=
      Json.length_le_writeText '\x01' 12000
    exact untold_of_long (Nat.le_of_eq (Utf8.length_encode_replicate (by decide) _))
      (Nat.le_trans (by decide) hwritten)
  · let identifier := String.ofList (List.replicate (Request.bodyLimit + 1) 'a')
    have hidentifier : (Utf8.encode identifier).length = Request.bodyLimit + 1 :=
      Utf8.length_encode_replicate (by decide) _
    let form : Form := (Mock.authRequest .implicit .query localSetup.connection identifier
      localState.nextNonce).hiddenFields ++ [("decision", "deny")]
    have hmem : ("login_hint", identifier) ∈ form := .tail _ (.head _)
    have hlong : Request.bodyLimit < (Request.postForm "/auth/confirm" form).body.length :=
      Nat.lt_of_lt_of_le (hidentifier ▸ Nat.lt_succ_self _) (Form.length_le_encode hmem)
    rw [submit_confirmPage, Mock.receive_postForm, Mock.serve_confirm_of_long hlong]
    rfl

end Party

end SignIn
