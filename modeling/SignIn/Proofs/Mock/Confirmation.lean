import SignIn.Proofs.Mock.Page
import SignIn.Proofs.Mock.Server

/-!
# A request on its way through the confirmation page

The mock broker remembers nothing between the page on which it asks for a confirmation and the
decision that comes back. All that it will need is in hidden fields of the page. So whoever decides
what an authentication request says decides what stands on the page, and the page has to give back
the request that it was made for, whatever its texts are: no text may end the field that it stands
in, and none may look like another field.

A request reaches the page in a query, where its optional parameters may be missing, and where a
decision may stand already. It comes back in a form, where they are all there. The one thing that
can go wrong with that form is that it gets too long for the server that reads it; then nothing of
it is read, not even the decision.

## Main definitions

* `Mock.AuthRequest.CarriedBy` — a form carries an authentication request

## Main results

* `Mock.carried_unchanged` — the request comes back as it was, and so do the fields of a callback
-/

namespace SignIn.Mock

open Http

/-- The form carries the request, with whatever decision: it has each required parameter once and
each optional one at most once, and those that are missing are empty. -/
def AuthRequest.CarriedBy (r : AuthRequest) (form : Form) : Prop :=
  ∃ decision, List.Forall₂ (fun f value => f.Holds form value) fields (r.values decision)

/-- A request is carried by its own fields. -/
theorem AuthRequest.carriedBy_hiddenFields (r : AuthRequest) : r.CarriedBy r.hiddenFields := by
  have hread : readFields fields r.hiddenFields = .ok (r.values "") := rfl
  exact ⟨"", readFields_eq_ok_iff.1 hread⟩

/-- The request for the page of an authentication request. -/
def AuthRequest.visit (r : AuthRequest) : Request where
  method := "GET"
  path := "/auth"
  query := some (Form.encode r.hiddenFields)
  contentType := none
  body := []

theorem AuthRequest.carriedBy_visit (r : AuthRequest) : r.CarriedBy r.visit.queryForm := by
  have hform : r.visit.queryForm = r.hiddenFields := Form.ofText_encode _
  exact hform ▸ r.carriedBy_hiddenFields

variable {r : AuthRequest} {request : Request}

/-- The page for a request that is carried by a query. -/
theorem serve_auth_of_carriedBy (issuer : String) (now : Int) (hmethod : request.method = "GET")
    (hpath : request.path = "/auth") (h : r.CarriedBy request.queryForm) :
    serve issuer now request = .html 200 (Page.confirm r.loginHint r.hiddenFields) := by
  obtain ⟨decision, hholds⟩ := h
  have hfields : request.queryFields AuthRequest.fields = .ok (r.values decision) := by
    rw [Request.queryFields, readFields_eq_ok_iff.2 hholds]
    rfl
  exact serve_auth_of_values hmethod hpath hfields

/-- **Carried unchanged.** Whatever the texts of an authentication request are, the page that is
shown for it gives them back: its hidden fields are those of the request, and if they are posted
along with a decision, this request and this decision are what the mock broker reads and acts on,
unless the form is too long to be read at all. In the same way the page that delivers a callback
gives back the fields that it was made of. -/
theorem carried_unchanged :
    (∀ r : AuthRequest, ∃ request : Request,
      request.method = "GET" ∧ request.path = "/auth" ∧ r.CarriedBy request.queryForm) ∧
    (∀ (issuer : String) (now : Int) (r : AuthRequest) (request : Request),
      request.method = "GET" → request.path = "/auth" → r.CarriedBy request.queryForm →
      ∃ page, serve issuer now request = .html 200 page ∧
        Page.hiddenFields page = r.hiddenFields ∧
        ∀ (decision : String) (later : Int) (posted : Request),
          posted = .postForm "/auth/confirm"
            (Page.hiddenFields page ++ [("decision", decision)]) →
          (posted.body.length ≤ Request.bodyLimit →
            (∃ values, posted.bodyFields AuthRequest.fields = .ok values ∧
              AuthRequest.ofValues values = some (r, decision)) ∧
            serve issuer later posted = deliver r (callback issuer later r decision)) ∧
          (Request.bodyLimit < posted.body.length →
            serve issuer later posted = Rejection.tooLong.response)) ∧
    ∀ (redirectUri : String) (fields : List (String × String)),
      Page.hiddenFields (Page.deliver redirectUri fields) = fields := by
  refine ⟨fun r => ⟨r.visit, rfl, rfl, r.carriedBy_visit⟩, ?_, Page.hiddenFields_deliver⟩
  intro issuer now r request hmethod hpath hcarried
  have hfields := Page.hiddenFields_confirm r.loginHint r.hiddenFields
  refine ⟨_, serve_auth_of_carriedBy issuer now hmethod hpath hcarried, hfields, ?_⟩
  rintro decision later posted rfl
  rw [hfields]
  refine ⟨fun hshort => ⟨⟨_, bodyFields_hiddenFields hshort, rfl⟩, serve_confirm hshort⟩, ?_⟩
  exact serve_confirm_of_long

/-- A request whose texts look like the markup of the page, without a response type, and with a
decision in its query. -/
theorem carried_unchanged_markup :
    let r : AuthRequest := ⟨"\" /><input type=\"hidden\" name=\"state\" value=\"", "</form>&quot;",
      "", "é&#39;=+%41", "", "query", "'"⟩
    let request : Request := { r.visit with
      query := some (Form.encode [("decision", "allow"), ("state", r.state), ("scope", "email"),
        ("response_mode", r.responseMode), ("redirect_uri", r.redirectUri), ("nonce", r.nonce),
        ("login_hint", r.loginHint), ("client_id", r.clientId)]) }
    ∃ page, serve "" 0 request = .html 200 page ∧ Page.hiddenFields page = r.hiddenFields ∧
      serve "" 1 (.postForm "/auth/confirm" (Page.hiddenFields page ++ [("decision", "deny")])) =
        deliver r (callback "" 1 r "deny") := by
  intro r request
  have hform : request.queryForm = [("decision", "allow"), ("state", r.state), ("scope", "email"),
      ("response_mode", r.responseMode), ("redirect_uri", r.redirectUri), ("nonce", r.nonce),
      ("login_hint", r.loginHint), ("client_id", r.clientId)] := Form.ofText_encode _
  have hread : readFields AuthRequest.fields request.queryForm = .ok (r.values "allow") := by
    rw [hform]
    rfl
  obtain ⟨page, hpage, hfields, hposted⟩ := carried_unchanged.2.1 "" 0 r request rfl rfl
    ⟨_, readFields_eq_ok_iff.1 hread⟩
  have hshort : (Request.postForm "/auth/confirm"
      (Page.hiddenFields page ++ [("decision", "deny")])).body.length ≤ Request.bodyLimit := by
    rw [hfields]
    decide +kernel
  exact ⟨page, hpage, hfields, ((hposted "deny" 1 _ rfl).1 hshort).2⟩

/-- A decision that does not fit into a body is not read, so not even the refusal that it is comes
to the relying party. -/
theorem not_carried_of_long :
    let r : AuthRequest := ⟨"c", "a", "n", "http://localhost:44180/verify", "id_token", "query", ""⟩
    let decision := String.ofList (List.replicate (Request.bodyLimit + 1) 'a')
    let posted := Request.postForm "/auth/confirm" (r.hiddenFields ++ [("decision", decision)])
    (∀ values, posted.bodyFields AuthRequest.fields ≠ .ok values) ∧
      serve "" 0 posted ≠ deliver r (callback "" 0 r decision) := by
  intro r decision posted
  have hdecision : (Utf8.encode decision).length = Request.bodyLimit + 1 :=
    Utf8.length_encode_replicate (by decide) _
  have hmem : ("decision", decision) ∈ r.hiddenFields ++ [("decision", decision)] :=
    List.mem_append_right _ List.mem_cons_self
  have hlong : Request.bodyLimit < posted.body.length :=
    Nat.lt_of_lt_of_le (hdecision ▸ Nat.lt_succ_self _) (Form.length_le_encode hmem)
  have hbody : posted.bodyForm = .error .tooLong := Request.bodyForm_of_long rfl hlong
  constructor
  · intro values h
    rw [Request.bodyFields, hbody] at h
    cases h
  · have hstatus : (deliver r (callback "" 0 r decision)).status ≠ 413 := by
      rw [deliver, if_pos rfl, Response.redirect]
      split <;> decide
    rw [serve_confirm_of_long hlong]
    exact fun h => hstatus (h ▸ rfl)

end SignIn.Mock
