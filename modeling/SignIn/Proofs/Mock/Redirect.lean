import SignIn.Proofs.Mock.Delivery
import SignIn.Proofs.Url.Query

/-!
# A callback behind any redirect URI

A redirect is made by putting text behind the redirect URI: a question mark and the pairs of the
callback, or an ampersand and the pairs if there is a question mark already. This is done without
reading the redirect URI as a URL, so where the pairs end up depends on how it ends.

If it has no fragment, they end up where they belong. They become the query, or they come behind the
pairs of the query that is there, be it empty or not. If it has a fragment, that is the last part of
the URL, and everything behind it belongs to it. A browser keeps a fragment to itself, so the
relying party is sent the redirect URI's own pairs and nothing of the callback. It makes no
difference then whether the question mark that was looked for is in the query, in the fragment or
nowhere.

## Main definitions

* `Mock.redirected` — the URL that a redirect leads to

## Main results

* `Mock.withQuery_eq_redirected` — it is written by putting the pairs behind the redirect URI
* `Mock.pairs_redirected_of_none`, `Mock.pairs_redirected_of_some` — its pairs
* `Mock.redirect_carries` — what a redirect carries to the relying party
-/

namespace SignIn.Mock

open Http

variable {u : Url} {form : Form}

/-- What is put between a text and the pairs behind it. -/
def pairsMark (text : String) : String := if text.toList.contains '?' then "&" else "?"

/-- The URL that a redirect leads to. -/
def redirected (u : Url) (form : Form) : Url :=
  match u.fragment, u.query with
  | some fragment, _ =>
    { u with fragment := some (fragment ++ (pairsMark u.toText ++ queryText form)) }
  | none, some query => { u with query := some (query ++ ("&" ++ queryText form)) }
  | none, none => { u with query := some (queryText form) }

theorem redirected_of_fragment {fragment : String} (hfragment : u.fragment = some fragment) :
    redirected u form =
      { u with fragment := some (fragment ++ (pairsMark u.toText ++ queryText form)) } := by
  simp only [redirected, hfragment]

theorem redirected_of_query {query : String} (hfragment : u.fragment = none)
    (hquery : u.query = some query) :
    redirected u form = { u with query := some (query ++ ("&" ++ queryText form)) } := by
  simp only [redirected, hfragment, hquery]

theorem redirected_of_none (hfragment : u.fragment = none) (hquery : u.query = none) :
    redirected u form = { u with query := some (queryText form) } := by
  simp only [redirected, hfragment, hquery]

/-- A URL with a query is written with a question mark. -/
theorem pairsMark_of_query {query : String} (hquery : u.query = some query) :
    pairsMark u.toText = "&" := by
  have hmark : '?' ∈ u.toText.toList := by
    simp [Url.toText, hquery, Url.partText]
  simp [pairsMark, hmark]

/-- The pairs are put behind the redirect URI as it is written. -/
theorem withQuery_eq_redirected (h : u.Normal) (form : Form) :
    withQuery u.toText form = (redirected u form).toText := by
  have hshape : withQuery u.toText form = u.toText ++ (pairsMark u.toText ++ queryText form) := by
    rw [withQuery, String.append_assoc]
    rfl
  cases hfragment : u.fragment with
  | some fragment =>
    rw [hshape, Url.toText_append_of_fragment hfragment, redirected_of_fragment hfragment]
  | none =>
    cases hquery : u.query with
    | some query =>
      rw [hshape, pairsMark_of_query hquery, Url.toText_append_of_query hquery hfragment,
        redirected_of_query hfragment hquery]
    | none => rw [withQuery_eq h hquery hfragment, redirected_of_none hfragment hquery]

theorem HoldsQuery.escaped_question {escapes : List Char} (h : HoldsQuery escapes) :
    Url.Escaped escapes "?".toList := by
  intro c hc
  rw [List.mem_singleton.1 hc]
  exact h.marks '?' (by decide)

theorem HoldsQuery.escaped_ampersand {escapes : List Char} (h : HoldsQuery escapes) :
    Url.Escaped escapes "&".toList := by
  intro c hc
  rw [List.mem_singleton.1 hc]
  exact h.marks '&' (by decide)

/-- What is put behind the redirect URI can stand there, wherever that is. -/
theorem normal_redirected (h : u.Normal) (hplain : IsPlain form) : (redirected u form).Normal := by
  cases hfragment : u.fragment with
  | some fragment =>
    have hpairsMark : Url.Escaped Url.fragmentEscapes (pairsMark u.toText).toList := by
      rw [pairsMark]
      split
      · exact holdsQuery_fragment.escaped_ampersand
      · exact holdsQuery_fragment.escaped_question
    have hpairs := escaped_queryText holdsQuery_fragment hplain
    rw [redirected_of_fragment hfragment]
    exact h.withFragment ((h.fragment fragment hfragment).append (hpairsMark.append hpairs))
  | none =>
    have hpairs := escaped_queryText holdsQuery_query hplain
    cases hquery : u.query with
    | some query =>
      rw [redirected_of_query hfragment hquery]
      exact h.withQuery
        ((h.query query hquery).append (holdsQuery_query.escaped_ampersand.append hpairs))
    | none =>
      rw [redirected_of_none hfragment hquery]
      exact h.withQuery hpairs

/-- Without a fragment the pairs come behind those that are there. -/
theorem pairs_redirected_of_none (hfragment : u.fragment = none) (hplain : IsPlain form) :
    (redirected u form).pairs = u.pairs ++ form := by
  cases hquery : u.query with
  | some query =>
    rw [redirected_of_query hfragment hquery]
    simp only [Url.pairs, hquery, Option.getD_some]
    rw [← String.append_assoc, Form.ofText_append, ofText_queryText hplain]
  | none =>
    rw [redirected_of_none hfragment hquery]
    simp only [Url.pairs, hquery, Option.getD_some, Option.getD_none]
    rw [ofText_queryText hplain, Form.ofText_empty, List.nil_append]

/-- With a fragment there are no others than before. -/
theorem pairs_redirected_of_some {fragment : String} (hfragment : u.fragment = some fragment)
    (form : Form) : (redirected u form).pairs = u.pairs := by
  rw [redirected_of_fragment hfragment]
  rfl

/-- The place that a redirect leads to is that of the redirect URI. -/
theorem place_redirected (u : Url) (form : Form) :
    (redirected u form).scheme = u.scheme ∧ (redirected u form).username = u.username ∧
      (redirected u form).password = u.password ∧ (redirected u form).host = u.host ∧
      (redirected u form).port = u.port ∧ (redirected u form).path = u.path := by
  unfold redirected
  split <;> exact ⟨rfl, rfl, rfl, rfl, rfl, rfl⟩

/-- **What a redirect carries.** A redirect leads to a URL at the same place as the redirect URI,
and the browser that follows it sends the pairs of that URL. If the redirect URI has no fragment,
these are its own pairs and behind them the callback, in order and unaltered. If it has one, the
callback becomes part of that, and only the redirect URI's own pairs are sent. -/
theorem redirect_carries {text : String} (hparse : Url.parse text = .ok u)
    (hscheme : u.scheme = "http" ∨ u.scheme = "https") {r : AuthRequest}
    (hredirect : r.redirectUri = u.toText) (hmode : r.responseMode = "query") (hform : form ≠ [])
    (hplain : IsPlain form) (path : String) :
    ∃ location v request, (deliver r form).status = 303 ∧
      (deliver r form).location = some location ∧ Url.parse location = .ok v ∧
      (v.scheme = u.scheme ∧ v.username = u.username ∧ v.password = u.password ∧
        v.host = u.host ∧ v.port = u.port ∧ v.path = u.path) ∧
      Browser.forward path (deliver r form) = some request ∧ request.method = "GET" ∧
      request.path = path ∧ request.queryForm = v.pairs ∧
      (u.fragment = none → v.fragment = none ∧ v.pairs = u.pairs ++ form) ∧
      (∀ fragment, u.fragment = some fragment →
        v.fragment = some (fragment ++ (pairsMark u.toText ++ queryText form)) ∧
          v.pairs = u.pairs ∧ v.pairs ≠ u.pairs ++ form) := by
  have hnormal : u.Normal := Url.normal_of_parse hparse hscheme
  have hnormal' : (redirected u form).Normal := normal_redirected hnormal hplain
  have hdeliver : deliver r form = .redirect (redirected u form).toText := by
    rw [deliver, if_pos hmode, hredirect, withQuery_eq_redirected hnormal]
  have hchars : (redirected u form).toText.toList.all Response.isHeaderChar = true :=
    List.all_eq_true.2 fun c hc => isHeaderChar_of_graphic (Url.mem_toText hnormal' hc)
  have hresponse : deliver r form =
      { status := 303, location := some (redirected u form).toText } := by
    rw [hdeliver, Response.redirect, if_pos hchars]
  refine ⟨(redirected u form).toText, redirected u form,
    { Browser.visit (redirected u form) with path }, ?_, ?_, Url.parse_toText hnormal',
    place_redirected u form, ?_, rfl, rfl, rfl, ?_, ?_⟩
  · rw [hresponse]
  · rw [hresponse]
  · rw [hdeliver]
    exact forward_redirect hnormal' path
  · intro hfragment
    refine ⟨?_, pairs_redirected_of_none hfragment hplain⟩
    cases hquery : u.query with
    | some query =>
      rw [redirected_of_query hfragment hquery]
      exact hfragment
    | none =>
      rw [redirected_of_none hfragment hquery]
      exact hfragment
  · intro fragment hfragment
    have hpairs := pairs_redirected_of_some hfragment form
    refine ⟨by rw [redirected_of_fragment hfragment], hpairs, ?_⟩
    rw [hpairs]
    intro heq
    exact hform (List.self_eq_append_right.1 heq)

/-! ### A query that ends in an ampersand, and a fragment -/

/-- The page that a relying party takes callbacks at, with a query and a fragment. -/
def verifyUrl (query fragment : Option String) : Url where
  scheme := "http"
  username := ""
  password := ""
  host := some (.domain "localhost")
  port := some 44180
  path := .segments ["verify"]
  query
  fragment

/-- A sign-in that is redirected to this URL. -/
def requestTo (redirectUri state : String) : AuthRequest where
  clientId := "http://localhost:44180"
  loginHint := "a@b.com"
  nonce := "n"
  redirectUri
  responseType := "id_token"
  responseMode := "query"
  state

/-- What a user who does not sign in is sent back with. -/
def denial (redirectUri state : String) : Response :=
  deliver (requestTo redirectUri state) (callback "" 0 (requestTo redirectUri state) "deny")

theorem redirect_carries_behind_pair :
    Url.parse "http://localhost:44180/verify?a=1&" = .ok (verifyUrl (some "a=1&") none) ∧
    ∃ location request,
      (denial "http://localhost:44180/verify?a=1&" "s&t=?").location = some location ∧
      Browser.forward "/verify" (denial "http://localhost:44180/verify?a=1&" "s&t=?") =
        some request ∧
      request.queryForm = [("a", "1"), ("error", "access_denied"),
        ("error_description", "The user denied the request"), ("state", "s&t=?")] := by
  have hparse : Url.parse "http://localhost:44180/verify?a=1&" =
      .ok (verifyUrl (some "a=1&") none) := by
    decide +kernel
  have hredirect : "http://localhost:44180/verify?a=1&" = (verifyUrl (some "a=1&") none).toText := by
    decide +kernel
  obtain ⟨hform, hplain⟩ :=
    @isPlain_callback "" 0 (requestTo "http://localhost:44180/verify?a=1&" "s&t=?") "deny"
  obtain ⟨location, v, request, -, hlocation, -, -, hforward, -, -, hquery, hpairs, -⟩ :=
    redirect_carries (r := requestTo "http://localhost:44180/verify?a=1&" "s&t=?") hparse (.inl rfl)
      hredirect rfl hform hplain "/verify"
  have hown : (verifyUrl (some "a=1&") none).pairs = [("a", "1")] := by decide +kernel
  refine ⟨hparse, location, request, hlocation, hforward, ?_⟩
  rw [hquery, (hpairs rfl).2, hown]
  rfl

/-- Behind a redirect URI with a fragment the callback becomes part of the fragment, and the browser
brings nothing to the relying party. -/
theorem redirect_carries_nothing_behind_fragment :
    Url.parse "http://localhost:44180/verify#top" = .ok (verifyUrl none (some "top")) ∧
    "http://localhost:44180/verify#top" = (verifyUrl none (some "top")).toText ∧
    (denial "http://localhost:44180/verify#top" "").location =
      some ("http://localhost:44180/verify#top?error=access_denied&" ++
        "error_description=The%20user%20denied%20the%20request") ∧
    ∃ request, Browser.forward "/verify" (denial "http://localhost:44180/verify#top" "") =
        some request ∧ request.queryForm = [] := by
  refine ⟨by decide +kernel, by decide +kernel, by decide +kernel, ?_⟩
  have hforward : (Browser.forward "/verify"
      (denial "http://localhost:44180/verify#top" "")).map Request.queryForm = some [] := by
    decide +kernel
  exact Option.map_eq_some_iff.1 hforward

end SignIn.Mock
