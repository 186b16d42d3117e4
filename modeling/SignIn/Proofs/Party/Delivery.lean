import SignIn.Proofs.Handshake

/-!
# Two ways for one callback

The mock broker sends a callback in the query of a redirect or in the form of a page. The first is
escaped for a URL and read from a query; the second is escaped for a page, read from it by the
browser, escaped for a form and read from a body. The relying party cannot tell one from the other:
on both ways it is told the same, which is a refusal, a code or a token, and in addition the state
that the request was made with.

There are differences, and they are in the server and not in what is written. A body can be too long
to be read, and then nothing has been told. A target can be too long as well, and that comes much
sooner; such a request is refused before the relying party gets to know of it. So a callback with a
long state, or with a token or code in which much is said, can be told on one way and not on the
other.

## Main definitions

* `Mock.AuthRequest.reported` — what the relying party is told
* `Party.confirmation` — what the browser posts when the user has decided

## Main results

* `Mock.ofForm_callback` — what a callback says is what is to be told
* `Party.delivered_alike` — and it is told on both ways, if it is not too long
* `Party.not_delivered_alike_of_long` — if it is, it may be told on one of them
-/

namespace SignIn

open Http

namespace Mock

/-- What the relying party is told about a decision on a request. -/
def AuthRequest.reported (r : AuthRequest) (issuer : String) (now : Int) (decision : String) :
    Callback.Params :=
  let extra := Dictionary.ofPairs (if r.state = "" then [] else [("state", r.state)])
  if decision ≠ allow then
    { error := "access_denied", errorDescription := "The user denied the request", idToken := "",
      code := "", extra }
  else if r.responseType = "code" then
    { error := "", errorDescription := "", idToken := "",
      code := Code.encode ⟨r.loginHint, r.nonce, r.clientId, r.redirectUri⟩, extra }
  else
    { error := "", errorDescription := "",
      idToken := IdToken.issue issuer r.clientId r.loginHint r.nonce now, code := "", extra }

/-- The same request, with the callback to be sent in another way. -/
def AuthRequest.withMode (r : AuthRequest) (mode : String) : AuthRequest :=
  { r with responseMode := mode }

variable {issuer : String} {now : Int} {r : AuthRequest} {decision : String}

/-- The fields of a callback say what is to be told. -/
theorem ofForm_callback :
    Callback.Params.ofForm (callback issuer now r decision) = r.reported issuer now decision := by
  rw [callback, AuthRequest.reported]
  split_ifs <;> rfl

/-- Without a permission there is nothing to sign in with. -/
theorem AuthRequest.reported_of_ne_allow (hdecision : decision ≠ allow) :
    (r.reported issuer now decision).code = "" ∧ (r.reported issuer now decision).idToken = "" := by
  rw [AuthRequest.reported, if_pos hdecision]
  exact ⟨rfl, rfl⟩

/-- The relying party is told one thing: a refusal, a code or a token. -/
theorem AuthRequest.countP_reported :
    [(r.reported issuer now decision).error, (r.reported issuer now decision).code,
      (r.reported issuer now decision).idToken].countP (· ≠ "") = 1 := by
  by_cases hdecision : decision = allow
  · by_cases htype : r.responseType = "code"
    · simp [AuthRequest.reported, hdecision, htype, encode_ne_empty]
    · simp [AuthRequest.reported, hdecision, htype, issue_ne_empty]
  · simp [AuthRequest.reported, hdecision]

end Mock

namespace Party

section Ways

variable {u : Url} {text : String} {r : Mock.AuthRequest}

/-- Behind a redirect the relying party is told what is to be told, and nothing if the target is too
long. -/
theorem receive_redirected (hparse : Url.parse text = .ok u)
    (hscheme : u.scheme = "http" ∨ u.scheme = "https") (hquery : u.query = none)
    (hfragment : u.fragment = none) (hredirect : r.redirectUri = u.toText) (issuer : String)
    (now : Int) (decision : String) :
    ∃ request, Browser.forward "/verify" (Mock.deliver (r.withMode "query")
        (Mock.callback issuer now (r.withMode "query") decision)) = some request ∧
      request.target = "/verify" ++ "?" ++
        Mock.queryText (Mock.callback issuer now r decision) ∧
      (request.IsReadable →
        Job.receive request = .callback (.start (r.reported issuer now decision))) ∧
      (¬request.IsReadable → ∃ response, Job.receive request = .answered response) := by
  have hnormal := Url.normal_of_parse hparse hscheme
  obtain ⟨-, hplain⟩ := @Mock.isPlain_callback issuer now r decision
  refine ⟨Mock.getForm "/verify" (Mock.callback issuer now r decision), ?_, rfl,
    fun hreadable => ?_, fun hunreadable => ⟨_, Request.receive_of_not_isReadable hunreadable⟩⟩
  · exact Mock.forward_query (r := r.withMode "query") hnormal hquery hfragment hredirect rfl hplain
      "/verify"
  · have hstart : Job.start (Mock.getForm "/verify" (Mock.callback issuer now r decision)) =
        .callback (.start (.ofForm (Mock.callback issuer now r decision))) :=
      Job.start_of_query rfl rfl (Mock.ofText_queryText hplain)
    rw [Job.receive_of_isReadable hreadable, hstart, Mock.ofForm_callback]

/-- In a form the relying party is told what is to be told, and nothing if the form is too long. -/
theorem receive_posted {mode : String} (hmode : mode ≠ "query") (issuer : String) (now : Int)
    (decision : String) :
    ∃ request, Browser.forward "/verify" (Mock.deliver (r.withMode mode)
        (Mock.callback issuer now (r.withMode mode) decision)) = some request ∧
      request.body = Utf8.encode (Form.encode (Mock.callback issuer now r decision)) ∧
      (request.body.length ≤ Request.bodyLimit →
        Job.receive request = .callback (.start (r.reported issuer now decision))) ∧
      (Request.bodyLimit < request.body.length →
        Job.receive request = .callback (.start (.ofForm []))) := by
  obtain ⟨hform, -⟩ := @Mock.isPlain_callback issuer now r decision
  have hreceive : Job.receive (.postForm "/verify" (Mock.callback issuer now r decision)) =
      Job.start (.postForm "/verify" (Mock.callback issuer now r decision)) :=
    Job.receive_of_isReadable (Job.isReadable_postForm _) none
  refine ⟨.postForm "/verify" (Mock.callback issuer now r decision), ?_, rfl, fun hshort => ?_,
    fun hlong => ?_⟩
  · exact Mock.forward_page (r := r.withMode mode) hmode _ "/verify"
  · rw [hreceive, Job.start_postForm hform hshort, Mock.ofForm_callback]
  · rw [hreceive, Job.start_postForm_of_long hlong]

/-- A refusal with a state as a form. -/
theorem length_refused_le (state : String) :
    (Utf8.encode (Form.encode (Mock.refusal ++ [("state", state)]))).length ≤
      3 * (Utf8.encode state).length + 207 := by
  have herror : (Utf8.encode "error").length + (Utf8.encode "access_denied").length = 18 := by
    decide +kernel
  have hdescription : (Utf8.encode "error_description").length +
      (Utf8.encode "The user denied the request").length = 44 := by
    decide +kernel
  have hname : (Utf8.encode "state").length = 5 := by decide +kernel
  refine Nat.le_trans (Form.length_encode_le _) ?_
  simp only [Mock.refusal, List.cons_append, List.nil_append, List.map_cons, List.map_nil,
    List.sum_cons, List.sum_nil, herror, hdescription, hname]
  omega

/-- A refusal with a state that fits into a body and not into a target is told in a form. Behind a
redirect its target cannot be read. -/
theorem refused_in_form (hparse : Url.parse text = .ok u)
    (hscheme : u.scheme = "http" ∨ u.scheme = "https") (hquery : u.query = none)
    (hfragment : u.fragment = none) (hredirect : r.redirectUri = u.toText)
    (hlong : uriLimit ≤ (Utf8.encode r.state).length)
    (hshort : 3 * (Utf8.encode r.state).length + 207 ≤ Request.bodyLimit) {mode : String}
    (hmode : mode ≠ "query") (issuer : String) (now : Int) {decision : String}
    (hdecision : decision ≠ Mock.allow) :
    ∃ request request',
      Browser.forward "/verify" (Mock.deliver (r.withMode "query")
        (Mock.callback issuer now (r.withMode "query") decision)) = some request ∧
      Browser.forward "/verify" (Mock.deliver (r.withMode mode)
        (Mock.callback issuer now (r.withMode mode) decision)) = some request' ∧
      ¬request.IsReadable ∧
      Job.receive request' = .callback (.start (r.reported issuer now decision)) := by
  have hne : r.state ≠ "" := by
    intro h
    rw [h, Utf8.encode_empty] at hlong
    exact absurd hlong (by decide)
  have hcallback : Mock.callback issuer now r decision = Mock.refusal ++ [("state", r.state)] := by
    rw [Mock.callback, if_pos hdecision, if_neg hne]
    rfl
  obtain ⟨request, hforward, htarget, -⟩ :=
    receive_redirected hparse hscheme hquery hfragment hredirect issuer now decision
  obtain ⟨request', hforward', hbody, hread, -⟩ := receive_posted (r := r) hmode issuer now decision
  rw [hcallback] at htarget hbody
  refine ⟨request, request', hforward, hforward', ?_, hread ?_⟩
  · have hmem : ("state", r.state) ∈ Mock.refusal ++ [("state", r.state)] :=
      List.mem_append_right _ List.mem_cons_self
    exact Request.not_isReadable_of_target htarget
      (Nat.le_trans hlong (Mock.length_le_queryText hmem))
  · rw [hbody]
    exact Nat.le_trans (length_refused_le r.state) hshort

/-- A token that is longer than a body can be is not told in a form. -/
theorem unread_in_form
    (hlong : Request.bodyLimit < (Utf8.encode (Json.writeText r.loginHint)).length)
    (htype : r.responseType ≠ "code") {mode : String} (hmode : mode ≠ "query") (issuer : String)
    (now : Int) :
    ∃ request, Browser.forward "/verify" (Mock.deliver (r.withMode mode)
        (Mock.callback issuer now (r.withMode mode) Mock.allow)) = some request ∧
      Job.receive request = .callback (.start (.ofForm [])) := by
  obtain ⟨request, hforward, hbody, -, hunread⟩ :=
    receive_posted (r := r) hmode issuer now Mock.allow
  refine ⟨request, hforward, hunread ?_⟩
  let token := Mock.IdToken.issue issuer r.clientId r.loginHint r.nonce now
  have hmem : ("id_token", token) ∈ Mock.callback issuer now r Mock.allow := by
    rw [Mock.callback, if_neg (not_not_intro rfl), if_neg htype]
    exact .head _
  calc Request.bodyLimit
      < (Utf8.encode (Json.writeText r.loginHint)).length := hlong
    _ ≤ (Utf8.encode token).length := Mock.IdToken.length_le_issue ..
    _ ≤ (Utf8.encode (Form.encode (Mock.callback issuer now r Mock.allow))).length :=
        Form.length_le_encode hmem
    _ = request.body.length := by rw [hbody]

end Ways

/-- **Told alike.** Whatever a request asks for and whatever is decided on it, the relying party is
told the same behind a redirect and in the form of a page, if the target of the one and the body of
the other are not too long to be read. It is told one thing: a refusal, a code or a token; and
nothing but a refusal if the user was not let in. Behind a redirect that makes the target too long
it is told nothing, as the request is answered without it; and in a form that is too long it finds
no callback. -/
theorem delivered_alike {u : Url} {text : String} (hparse : Url.parse text = .ok u)
    (hscheme : u.scheme = "http" ∨ u.scheme = "https") (hquery : u.query = none)
    (hfragment : u.fragment = none) {r : Mock.AuthRequest} (hredirect : r.redirectUri = u.toText)
    (issuer : String) (now : Int) (decision : String) :
    (∃ request, Browser.forward "/verify" (Mock.deliver (r.withMode "query")
        (Mock.callback issuer now (r.withMode "query") decision)) = some request ∧
      request.target = "/verify" ++ "?" ++
        Mock.queryText (Mock.callback issuer now r decision) ∧
      (request.IsReadable →
        Job.receive request = .callback (.start (r.reported issuer now decision))) ∧
      (¬request.IsReadable → ∃ response, Job.receive request = .answered response)) ∧
    (∀ mode ≠ "query", ∃ request, Browser.forward "/verify" (Mock.deliver (r.withMode mode)
        (Mock.callback issuer now (r.withMode mode) decision)) = some request ∧
      request.body = Utf8.encode (Form.encode (Mock.callback issuer now r decision)) ∧
      (request.body.length ≤ Request.bodyLimit →
        Job.receive request = .callback (.start (r.reported issuer now decision))) ∧
      (Request.bodyLimit < request.body.length →
        Job.receive request = .callback (.start (.ofForm [])))) ∧
    (decision ≠ Mock.allow → (r.reported issuer now decision).code = "" ∧
      (r.reported issuer now decision).idToken = "") ∧
    [(r.reported issuer now decision).error, (r.reported issuer now decision).code,
      (r.reported issuer now decision).idToken].countP (· ≠ "") = 1 := by
  refine ⟨?_, ?_, ?_, Mock.AuthRequest.countP_reported⟩
  · exact receive_redirected hparse hscheme hquery hfragment hredirect issuer now decision
  · intro mode hmode
    exact receive_posted hmode issuer now decision
  · exact Mock.AuthRequest.reported_of_ne_allow

/-! ### A short state and a long one -/

/-- A sign-in with a state. -/
def localRequest (state : String) : Mock.AuthRequest where
  clientId := "http://localhost:44180"
  loginHint := "a@b.com"
  nonce := "n"
  redirectUri := "http://localhost:44180/verify"
  responseType := "id_token"
  responseMode := "query"
  state

theorem parse_localUrl :
    Url.parse "http://localhost:44180/verify" = .ok (localUrl 44180 "verify") := by
  decide +kernel

theorem redirectUri_localRequest (state : String) :
    (localRequest state).redirectUri = (localUrl 44180 "verify").toText := by
  show "http://localhost:44180/verify" = _
  decide +kernel

theorem delivered_alike_local : ∃ request request' p,
    Browser.forward "/verify" (Mock.deliver ((localRequest "s").withMode "query")
      (Mock.callback "" 0 ((localRequest "s").withMode "query") "deny")) = some request ∧
    Browser.forward "/verify" (Mock.deliver ((localRequest "s").withMode "form_post")
      (Mock.callback "" 0 ((localRequest "s").withMode "form_post") "deny")) = some request' ∧
    Job.receive request = .callback (.start p) ∧ Job.receive request' = .callback (.start p) ∧
    p.code = "" ∧ p.idToken = "" := by
  obtain ⟨hredirected, hposted, hrefused, -⟩ := delivered_alike parse_localUrl (.inl rfl) rfl rfl
    (redirectUri_localRequest "s") "" 0 "deny"
  obtain ⟨request, hforward, htarget, hread, -⟩ := hredirected
  obtain ⟨request', hforward', hbody, hshort, -⟩ := hposted "form_post" (by decide)
  have hreadable : request.IsReadable := by
    rw [Request.IsReadable, htarget]
    decide +kernel
  have hlimit : request'.body.length ≤ Request.bodyLimit := by
    rw [hbody]
    decide +kernel
  obtain ⟨hcode, htoken⟩ := hrefused (by decide)
  exact ⟨request, request', _, hforward, hforward', hread hreadable, hshort hlimit, hcode, htoken⟩

/-- What the browser posts when the user has decided on a request. -/
def confirmation (r : Mock.AuthRequest) (decision : String) : Request :=
  .postForm "/auth/confirm" (r.hiddenFields ++ [("decision", decision)])

theorem receive_confirmation {r : Mock.AuthRequest} {decision : String}
    (h : (confirmation r decision).body.length ≤ Request.bodyLimit) (issuer : String) (now : Int) :
    Mock.receive issuer now (confirmation r decision) =
      Mock.deliver r (Mock.callback issuer now r decision) := by
  rw [confirmation, Mock.receive_postForm, Mock.serve_confirm h]

/-- There may be too much of a state for a target: the form brings the refusal, and the redirect is
answered without the relying party. And there may be too much of an identifier for the body in which
its token is posted, although it was confirmed in one: a control character takes three bytes there
and six in a token. Then the form brings nothing. -/
theorem not_delivered_alike_of_long :
    (let r := localRequest (String.ofList (List.replicate uriLimit 'a'))
    ∃ request request' p,
      Browser.forward "/verify"
        (Mock.receive "" 0 (confirmation (r.withMode "query") "deny")) = some request ∧
      Browser.forward "/verify"
        (Mock.receive "" 0 (confirmation (r.withMode "form_post") "deny")) = some request' ∧
      Job.receive request = .answered .targetTooLong ∧
      Job.receive request' = .callback (.start p) ∧ p.error = "access_denied") ∧
    let r := { localRequest "" with loginHint := String.ofList (List.replicate 400000 '\x01') }
    (r.reported "" 0 Mock.allow).idToken ≠ "" ∧ ∃ request,
      Browser.forward "/verify"
        (Mock.receive "" 0 (confirmation (r.withMode "form_post") Mock.allow)) = some request ∧
      Job.receive request = .callback (.start (.ofForm [])) := by
  have hmode : "form_post" ≠ "query" := by decide
  constructor
  · intro r
    have hstate : (Utf8.encode (String.ofList (List.replicate uriLimit 'a'))).length = uriLimit :=
      Utf8.length_encode_replicate (by decide) _
    have hshort : 3 * (Utf8.encode r.state).length + 207 ≤ Request.bodyLimit := by
      simp only [r, localRequest, hstate]
      decide
    have hconfirmed : (confirmation (r.withMode "query") "deny").body.length ≤ Request.bodyLimit ∧
        (confirmation (r.withMode "form_post") "deny").body.length ≤ Request.bodyLimit := by
      constructor
      all_goals
        refine Nat.le_trans (Mock.length_confirmation_le _ _) ?_
        simp only [Mock.AuthRequest.withMode, r, localRequest, hstate]
        decide +kernel
    have hdecision : "deny" ≠ Mock.allow := by decide
    obtain ⟨request, request', hforward, hforward', hunreadable, hread⟩ :=
      refused_in_form parse_localUrl (.inl rfl) rfl rfl (redirectUri_localRequest _)
        (Nat.le_of_eq hstate.symm) hshort hmode "" 0 hdecision
    rw [receive_confirmation hconfirmed.1, receive_confirmation hconfirmed.2]
    exact ⟨request, request', _, hforward, hforward', Request.receive_of_not_isReadable hunreadable,
      hread, rfl⟩
  · intro r
    have hidentifier : (Utf8.encode (String.ofList (List.replicate 400000 '\x01'))).length =
        400000 :=
      Utf8.length_encode_replicate (by decide) _
    have hconfirmed :
        (confirmation (r.withMode "form_post") Mock.allow).body.length ≤ Request.bodyLimit := by
      refine Nat.le_trans (Mock.length_confirmation_le _ _) ?_
      simp only [Mock.AuthRequest.withMode, r, localRequest, hidentifier]
      decide +kernel
    have hlong : 400000 * 6 ≤ (Utf8.encode (Json.writeText r.loginHint)).length :=
      Json.length_le_writeText '\x01' 400000
    obtain ⟨request, hforward, hunread⟩ := unread_in_form (r := r)
      (Nat.lt_of_lt_of_le (by decide) hlong) (by decide) hmode "" 0
    rw [receive_confirmation hconfirmed]
    refine ⟨?_, request, hforward, hunread⟩
    rw [Mock.AuthRequest.reported, if_neg (by decide), if_neg (by decide)]
    exact Mock.issue_ne_empty _ _ _ _ _

end Party

end SignIn
