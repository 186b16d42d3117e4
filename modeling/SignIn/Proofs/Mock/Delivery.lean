import Mathlib.Data.Bool.AllAny
import SignIn.Browser
import SignIn.Callback.Params
import SignIn.Mock.Server
import SignIn.Proofs.Mock.Page
import SignIn.Proofs.Mock.Server
import SignIn.Proofs.Url.Parse

/-!
# A callback on its way

The mock broker sends a callback either behind the redirect URI, as a query, or as the form of a
page. The browser goes on with the one or the other, and in both cases the relying party gets the
fields that the broker wrote.

A query is put behind the redirect URI as text. So the URL that the browser follows has to be read
from that text, and it is the redirect URI with this query only because all that is in the query is
escaped.

## Main definitions

* `Browser.forward` — the request that a response of the broker leads to
* `Mock.getForm` — the request that brings a form in its query
* `Mock.IsPlain` — a form whose names need no escape
* `Mock.HoldsQuery` — a place in a URL that can hold a query as it is written

## Main results

* `Mock.forward_query`, `Mock.forward_page` — the callback arrives as it was sent
-/

namespace SignIn

open Http

/-- The request that a response of the broker leads to: the browser follows a redirect, or sends the
form of a page. The path is that under which the relying party is found. -/
def Browser.forward (path : String) (r : Response) : Option Request :=
  match r.location.map Url.parse with
  | some (.ok url) => some { Browser.visit url with path }
  | some (.error _) => none
  | none => some (.postForm path (Mock.Page.hiddenFields r.body))

namespace Mock

/-- The names of the form need no escape. -/
def IsPlain (form : Form) : Prop :=
  ∀ p ∈ form, ∀ c ∈ p.1.toList, c.toNat < 0x80 ∧ Percent.isUnreserved (UInt8.ofNat c.toNat)

theorem IsPlain.unreserved {form : Form} (h : IsPlain form) {p : String × String} (hp : p ∈ form) :
    ∀ b ∈ Utf8.encode p.1, Percent.isUnreserved b := by
  intro b hb
  rw [← String.ofList_toList (s := p.1), Utf8.encode_ofList_of_lt fun c hc => (h p hp c hc).1,
    List.mem_map] at hb
  obtain ⟨c, hc, rfl⟩ := hb
  exact (h p hp c hc).2

/-- The pairs of a form as a query. -/
def queryText (form : Form) : String :=
  String.intercalate "&" (form.map fun p => p.1 ++ "=" ++ Percent.component p.2)

/-! ### The query -/

/-- The escapes of a place leave alone what a query is written with. -/
structure HoldsQuery (escapes : List Char) : Prop where
  unreserved : ∀ x ∈ escapes, Percent.isUnreserved (UInt8.ofNat x.toNat) = false
  digit : ∀ n < 16, Percent.hexDigit n ∉ escapes
  marks : Url.Escaped escapes ['%', '?', '&', '=']

theorem holdsQuery_query : HoldsQuery (Url.queryEscapes true) :=
  ⟨List.all_iff_forall_prop.1 (by decide), by decide, by decide⟩

theorem holdsQuery_fragment : HoldsQuery Url.fragmentEscapes :=
  ⟨List.all_iff_forall_prop.1 (by decide), by decide, by decide⟩

section Escaped

variable {escapes : List Char}

/-- Such a place can hold a component as it is. -/
theorem escaped_component (h : HoldsQuery escapes) (s : String) :
    Url.Escaped escapes (Percent.component s).toList := by
  have hdigit : ∀ n < 16, Url.IsGraphic (Percent.hexDigit n) := by decide
  intro c hc
  rw [Percent.component, Percent.encode, String.toList_ofList, Percent.encodeBytes,
    List.mem_flatMap] at hc
  obtain ⟨b, -, hc⟩ := hc
  have hb := b.toNat_lt
  split at hc
  · next hunreserved =>
    have hsmall : b.toNat < 0x80 := Percent.keepsAscii_isUnreserved b hunreserved
    have hchar : c.toNat = b.toNat := by
      rw [List.mem_singleton.1 hc, Utf8.toNat_ofNat (by omega)]
    constructor
    · simp only [Percent.isUnreserved, Percent.isAlphanumeric, Bool.or_eq_true, Bool.and_eq_true,
        decide_eq_true_eq, beq_iff_eq, UInt8.le_iff_toNat_le, ← UInt8.toNat_inj,
        UInt8.reduceToNat] at hunreserved
      constructor <;> omega
    · intro hmem
      have hnot := h.unreserved c hmem
      rw [hchar, UInt8.ofNat_toNat, hunreserved] at hnot
      exact Bool.false_ne_true hnot.symm
  · simp only [Percent.escapeByte, List.mem_cons, List.not_mem_nil, or_false] at hc
    rcases hc with rfl | rfl | rfl
    · exact h.marks '%' (by decide)
    · exact ⟨hdigit _ (by omega), h.digit _ (by omega)⟩
    · exact ⟨hdigit _ (by omega), h.digit _ (by omega)⟩

/-- Such a place can hold a plain form as it is written in a query. -/
theorem escaped_queryText {form : Form} (hescapes : HoldsQuery escapes) (h : IsPlain form) :
    Url.Escaped escapes (queryText form).toList := by
  have hampersand : "&".toList = ['&'] := rfl
  have hequals : "=".toList = ['='] := rfl
  intro c hc
  rw [queryText, String.toList_intercalate, hampersand] at hc
  obtain rfl | ⟨piece, hpiece, hc⟩ := Url.mem_intercalate hc
  · exact hescapes.marks '&' (by decide)
  · rw [List.map_map, List.mem_map] at hpiece
    obtain ⟨p, hp, rfl⟩ := hpiece
    have hname : Percent.component p.1 = p.1 :=
      Percent.encode_of_forall_keep Percent.keepsAscii_isUnreserved (h.unreserved hp)
    simp only [Function.comp_apply, String.toList_append, hequals, List.mem_append,
      List.mem_singleton] at hc
    rcases hc with (hc | rfl) | hc
    · rw [← hname] at hc
      exact escaped_component hescapes p.1 c hc
    · exact hescapes.marks '=' (by decide)
    · exact escaped_component hescapes p.2 c hc

end Escaped

/-- A plain form is read back from a query. -/
theorem ofText_queryText {form : Form} (h : IsPlain form) : Form.ofText (queryText form) = form :=
  @Form.ofText_intercalate id Percent.component form
    (fun _ hp => Form.writes_self (h.unreserved hp)) fun p _ => Form.writes_component p.2

/-- A query is as long as each of its values at least. -/
theorem length_le_queryText {form : Form} {p : String × String} (h : p ∈ form) :
    (Utf8.encode p.2).length ≤ (Utf8.encode (queryText form)).length :=
  @Form.length_le_intercalate id Percent.component (Percent.length_le_encode _) form p h

/-- The request that brings a form in its query. -/
def getForm (path : String) (form : Form) : Request where
  method := "GET"
  path
  query := some (queryText form)
  contentType := none
  body := []

/-! ### The URL -/

section Redirect

variable {u : Url}

/-- A URL without query and fragment has no question mark in it. -/
theorem question_not_mem (h : u.Normal) (hquery : u.query = none) (hfragment : u.fragment = none) :
    '?' ∉ u.toText.toList := by
  obtain ⟨host, hhost, hcanonical⟩ := h.host
  obtain ⟨names, hpath, -, hnames⟩ := h.path
  have hscheme : '?' ∉ u.scheme.toList ++ [':', '/', '/'] := by
    obtain hscheme | hscheme := h.scheme
    · rw [hscheme]
      decide
    · rw [hscheme]
      decide
  have hshape : u.toText.toList = u.scheme.toList ++ [':', '/', '/'] ++
      (u.userinfoText.toList ++ (host.toText.toList ++ (Url.portText u.port).toList)) ++
        u.path.toText.toList := by
    rw [Url.toList_toText hhost, hquery, hfragment, Url.behindHost]
    simp [Url.partText]
  intro hmem
  rw [hshape] at hmem
  rcases List.mem_append.1 hmem with hmem | hmem
  · rcases List.mem_append.1 hmem with hmem | hmem
    · exact hscheme hmem
    · exact absurd (Url.mem_authority h hcanonical hmem).2 (by decide)
  · rw [hpath] at hmem
    exact absurd (Url.mem_segments hnames hmem).2 (by decide)

/-- A plain form behind a URL without query and fragment is the query of that URL. -/
theorem withQuery_eq (h : u.Normal) (hquery : u.query = none) (hfragment : u.fragment = none)
    (form : Form) :
    withQuery u.toText form = Url.toText { u with query := some (queryText form) } := by
  have hmark : u.toText.toList.contains '?' = false := by
    rw [List.contains_eq_mem, decide_eq_false_iff_not]
    exact question_not_mem h hquery hfragment
  rw [withQuery, hmark, if_neg Bool.false_ne_true, String.append_assoc,
    ← Url.toText_append_query hquery hfragment]
  rfl

/-- A graphic character can stand in a header. -/
theorem isHeaderChar_of_graphic {c : Char} (h : Url.IsGraphic c) :
    Response.isHeaderChar c = true := by
  obtain ⟨hlow, hhigh⟩ := h
  rw [Response.isHeaderChar, Bool.or_eq_true, Bool.and_eq_true, decide_eq_true_eq,
    decide_eq_true_eq]
  exact .inr ⟨Nat.le_of_lt hlow, decide_eq_true (Nat.ne_of_lt hhigh)⟩

/-- The browser follows a redirect to a normal URL. -/
theorem forward_redirect (h : u.Normal) (path : String) :
    Browser.forward path (.redirect u.toText) = some { Browser.visit u with path } := by
  have hchars : u.toText.toList.all Response.isHeaderChar = true :=
    List.all_eq_true.2 fun c hc => isHeaderChar_of_graphic (Url.mem_toText h hc)
  rw [Response.redirect, if_pos hchars, Browser.forward, Option.map_some, Url.parse_toText h]

end Redirect

/-! ### What a callback says -/

/-- What the relying party is told when the user is not let in. -/
def refusal : Form :=
  [("error", "access_denied"), ("error_description", "The user denied the request")]

theorem isPlain_refusal : IsPlain refusal := by
  have hnames : ∀ p ∈ refusal, p.1.toList.all fun c =>
      c.toNat < 0x80 ∧ Percent.isUnreserved (UInt8.ofNat c.toNat) := by
    decide
  exact fun p hp => List.all_iff_forall_prop.1 (hnames p hp)

theorem length_refusal : (Utf8.encode refusal.encode).length ≤ Request.bodyLimit := by
  decide +kernel

/-- A token comes through in a query if it is not too long. -/
theorem isReadable_token {token : String}
    (h : 3 * (Utf8.encode token).length + 17 ≤ uriLimit) :
    (getForm "/verify" [("id_token", token)]).IsReadable := by
  have hfront : (Utf8.encode "/verify").length + (Utf8.encode "?").length +
      (Utf8.encode "id_token").length + (Utf8.encode "=").length = 17 := by
    decide +kernel
  have hcomponent := Percent.length_encode_le Percent.keepsAscii_isUnreserved token
  have htarget : (getForm "/verify" [("id_token", token)]).target =
      "/verify" ++ "?" ++ ("id_token" ++ "=" ++ Percent.component token) := by
    rw [Request.target, getForm, queryText, List.map_singleton, String.intercalate_singleton]
  rw [Request.IsReadable, htarget]
  simp only [Utf8.encode_append, List.length_append, Percent.component]
  omega

theorem isReadable_refusal : (getForm "/verify" refusal).IsReadable := by
  decide +kernel

section Callback

variable {issuer : String} {now : Int} {r : AuthRequest} {decision : String}

theorem callback_of_ne_allow (hstate : r.state = "") (hdecision : decision ≠ allow) :
    callback issuer now r decision = refusal := by
  simp only [callback, hdecision, hstate, refusal, ne_eq, not_false_eq_true, if_true,
    List.append_nil]

theorem callback_of_code (hstate : r.state = "") (htype : r.responseType = "code") :
    callback issuer now r allow =
      [("code", Code.encode ⟨r.loginHint, r.nonce, r.clientId, r.redirectUri⟩)] := by
  simp only [callback, hstate, htype, ne_eq, not_true_eq_false, if_false, if_true, List.append_nil]

theorem callback_of_token (hstate : r.state = "") (htype : r.responseType ≠ "code") :
    callback issuer now r allow =
      [("id_token", IdToken.issue issuer r.clientId r.loginHint r.nonce now)] := by
  simp only [callback, hstate, htype, ne_eq, not_true_eq_false, if_false, if_true, List.append_nil]

/-- Whatever the decision is, the callback has something to say, under names that need no escape. -/
theorem isPlain_callback :
    callback issuer now r decision ≠ [] ∧ IsPlain (callback issuer now r decision) := by
  have hnames : ∀ n ∈ ["error", "error_description", "code", "id_token", "state"],
      n.toList.all fun c => c.toNat < 0x80 ∧ Percent.isUnreserved (UInt8.ofNat c.toNat) := by
    decide
  have hkeys : (callback issuer now r decision).map Prod.fst ⊆
      ["error", "error_description", "code", "id_token", "state"] := by
    rw [callback]
    split_ifs <;> simp
  refine ⟨?_, fun p hp =>
    List.all_iff_forall_prop.1 (hnames p.1 (hkeys (List.mem_map_of_mem hp)))⟩
  rw [callback]
  split_ifs <;> exact List.cons_ne_nil _ _

end Callback

theorem signal_refusal : (Callback.Params.ofForm refusal).signal =
    .brokerError "access_denied" "The user denied the request" := rfl

theorem signal_code {code : String} (h : code ≠ "") :
    (Callback.Params.ofForm [("code", code)]).signal = .code code := by
  have hcode : (Callback.Params.ofForm [("code", code)]).code = code := rfl
  have herror : (Callback.Params.ofForm [("code", code)]).error = "" := rfl
  have htoken : (Callback.Params.ofForm [("code", code)]).idToken = "" := rfl
  rw [Callback.Params.signal, hcode, herror, htoken]
  simp [h]

theorem signal_token {token : String} (h : token ≠ "") :
    (Callback.Params.ofForm [("id_token", token)]).signal = .idToken token := by
  have htoken : (Callback.Params.ofForm [("id_token", token)]).idToken = token := rfl
  have herror : (Callback.Params.ofForm [("id_token", token)]).error = "" := rfl
  rw [Callback.Params.signal, htoken, herror]
  simp [h]

/-! ### The callback -/

/-- The form of a page is sent on. -/
theorem forward_page {r : AuthRequest} (hmode : r.responseMode ≠ "query") (form : Form)
    (path : String) :
    Browser.forward path (deliver r form) = some (.postForm path form) := by
  rw [deliver, if_neg hmode]
  show some (Request.postForm path (Page.hiddenFields (Page.deliver r.redirectUri form))) = _
  rw [Page.hiddenFields_deliver]

/-- The query of a redirect is sent on. -/
theorem forward_query {r : AuthRequest} {u : Url} (h : u.Normal) (hquery : u.query = none)
    (hfragment : u.fragment = none) (hredirect : r.redirectUri = u.toText)
    (hmode : r.responseMode = "query") {form : Form} (hplain : IsPlain form) (path : String) :
    Browser.forward path (deliver r form) = some (getForm path form) := by
  rw [deliver, if_pos hmode, hredirect, withQuery_eq h hquery hfragment]
  exact forward_redirect (h.withQuery (escaped_queryText holdsQuery_query hplain)) path

end Mock

end SignIn
