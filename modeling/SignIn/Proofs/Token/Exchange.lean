import SignIn.Proofs.Http.Transport
import SignIn.Proofs.Token.Shapes

/-!
# Where a code goes

Whoever has a code can exchange it, so a client that exchanges one should hand it to the token
endpoint and to nobody else. It makes one request, with the code in its content, and it makes no
other as long as the response does not point elsewhere. Then a status other than 200 is a refusal,
with what the body says about it.

But a response can point elsewhere, and the client goes there. So it is up to the token endpoint who
sees the code: a 307 or 308 has it posted to another place as it was, and whatever comes back from
there counts as the answer of the token endpoint. That a redirect has a status other than 200 does
not make it a refusal.

## Main definitions

* `Token.Reply.Explains` — what the body of a refusal says

## Main results

* `Token.Endpoint.exchange_sends` — what is sent, and what comes of it
-/

namespace SignIn.Token

open Http Json

namespace Reply

/-- The body of a refusal says this: what its members say, and nothing if it cannot be read. A body
that is no mapping cannot be read, unless it is a sequence of at most three texts: these are taken
for error, description and ID token. -/
structure Explains (body : Bytes) (error description : String) : Prop where
  said : ∀ (members : List (String × Option String)) (text : String), body = Utf8.encode text →
    IsMapping members text.toList → SaysOnce members →
      error = under members "error" ∧ description = under members "error_description"
  listed : ∀ (texts : List String) (text : String), body = Utf8.encode text →
    IsSequence texts text.toList → texts.length ≤ 3 →
      error = texts.getD 0 "" ∧ description = texts.getD 1 ""
  unread : (∀ values, readBody body ≠ .ok values) → error = "" ∧ description = ""
  unsaid : ¬IsAnyMapping (Utf8.lossy body) →
    (∀ texts text, body = Utf8.encode text → IsSequence texts text.toList → 3 < texts.length) →
      error = "" ∧ description = ""

/-- A refusal comes with what its body says. -/
theorem explains_of_parse_false {body : Bytes} {error description : String}
    (h : parse false body = .ok (.refused error description)) :
    Explains body error description := by
  have hunread : (∀ values, readBody body ≠ .ok values) → error = "" ∧ description = "" := by
    intro hread
    cases hbody : readBody body with
    | ok values => exact absurd hbody (hread values)
    | error e =>
      rw [parse.eq_def, hbody] at h
      cases h
      exact ⟨rfl, rfl⟩
  refine ⟨?_, ?_, hunread, fun hmapping hlong => hunread (readBody_ne_ok hmapping hlong)⟩
  · rintro members text rfl htext hsays
    rw [parse.eq_def, readBody_of_isMapping htext hsays] at h
    cases h
    exact ⟨rfl, rfl⟩
  · rintro texts text rfl htexts hlength
    rw [parse.eq_def, Utf8.encode_eq_bytes, readBody_of_isSequence htexts hlength] at h
    cases h
    exact ⟨rfl, rfl⟩

end Reply

namespace Endpoint

variable {σ : Type}

/-- A response with another status than 200 is a refusal. -/
theorem readResponse_of_status {response : Inbound} (h : response.status ≠ 200) :
    ∃ error description, readResponse (.ok response) = .error (.endpoint error description) ∧
      Reply.Explains response.body error description := by
  obtain ⟨error, description, hparse⟩ := Reply.parse_false response.body
  refine ⟨error, description, ?_, Reply.explains_of_parse_false hparse⟩
  rw [readResponse, decide_eq_false h, hparse]
  rfl

theorem exchange_of_send {e : Endpoint} {transport : Transport σ} {code redirectUri : String}
    {s s' : σ} {result : Delayed (Except SendError Inbound)}
    (h : send transport e.timeout (e.request code redirectUri) s = (s', result)) :
    e.exchange transport code redirectUri s = (s', result.map readResponse) := by
  rw [exchange, h]

/-- **What an exchange sends.** If the token endpoint is a place that can be reached, the code is
posted there, once. If no whole response comes in time, nothing else is sent, and no answer comes
but a fault of the transport. If a response comes in time and points nowhere else, nothing else is
sent, and a status other than 200 is a refusal, with what the body says. If it points elsewhere, the
next request goes there, and a 307 or 308 has the code posted there, too. -/
theorem exchange_sends (e : Endpoint) (transport : Transport σ) (code redirectUri : String)
    (s : σ) :
    let first : Outbound := ⟨"POST", withoutUserinfo e.url, some Request.formType,
      Utf8.encode (Form.encode [("grant_type", "authorization_code"), ("code", code),
        ("redirect_uri", redirectUri)])⟩
    let outcome := e.exchange transport.recorded code redirectUri (s, [])
    (canBeReached first.url = false →
      outcome.1 = (s, []) ∧ ∃ reason, outcome.2 = .now (.error (.transport reason))) ∧
    ∀ s' answer, canBeReached first.url = true → transport first s = (s', answer) →
      (Misses e.timeout answer → outcome.1 = (s', [first]) ∧
        ∀ result ∈ outcome.2.value?, ∃ reason, result = .error (.transport reason)) ∧
      ∀ delay response, answer = .after delay (.ok response) →
        (∀ time ∈ e.timeout, delay < time) →
        (redirected? first response = none →
          outcome = ((s', [first]), .after delay (readResponse (.ok response))) ∧
          (response.status ≠ 200 → ∃ error description,
            readResponse (.ok response) = .error (.endpoint error description) ∧
              Reply.Explains response.body error description)) ∧
        ∀ next, redirected? first response = some next →
          (canBeReached next.url = true → ∃ others, outcome.1.2 = first :: next :: others) ∧
          next = if response.status ∈ [307, 308] then { first with url := next.url }
            else ⟨"GET", next.url, none, []⟩ := by
  intro first outcome
  have hfirst : (e.request code redirectUri).sent = first := rfl
  refine ⟨fun hreach => ?_, fun s' answer hreach htransport => ⟨fun hmisses => ?_, ?_⟩⟩
  · have hsend := @send_of_not_reach _ transport.recorded e.timeout (e.request code redirectUri)
      (s, []) hreach
    have houtcome : outcome = _ := exchange_of_send hsend
    rw [houtcome]
    exact ⟨rfl, _, rfl⟩
  · obtain ⟨time, fault, hsend⟩ := @send_of_misses _ transport.recorded e.timeout
      (e.request code redirectUri) _ _ _ hreach (recorded_of_eq htransport []) hmisses
    have houtcome : outcome = _ := exchange_of_send hsend
    rw [houtcome]
    refine ⟨rfl, fun result hresult => ?_⟩
    cases time with
    | none => cases hresult
    | some time =>
      cases hresult
      exact ⟨_, rfl⟩
  · rintro delay response rfl htime
    refine ⟨fun hfinal => ⟨?_, readResponse_of_status⟩, fun next hnext =>
      ⟨fun hreach' => ?_, eq_of_redirected hnext⟩⟩
    · have hsend := @send_of_final _ transport.recorded e.timeout (e.request code redirectUri)
        _ _ _ _ hreach (recorded_of_eq htransport []) htime hfinal
      exact exchange_of_send hsend
    · obtain ⟨others, hothers⟩ := @recorded_of_redirected _ transport e.timeout
        (e.request code redirectUri) _ _ _ _ [] _ hreach htransport htime hnext hreach'
      have hrecord : outcome.1.2 =
          (send transport.recorded e.timeout (e.request code redirectUri) (s, [])).1.2 := rfl
      exact ⟨others, hrecord.trans hothers.symm⟩

/-! ### Two endpoints -/

/-- A token endpoint that waits for as long as it takes. -/
def patient (host : String) : Endpoint :=
  ⟨⟨"http", "", "", some (.domain host), none, .segments ["token"], none, none⟩, none⟩

/-- What a code is posted with to a host. -/
def posted (host : String) : Outbound :=
  ⟨"POST", (patient host).url, some Request.formType,
    Utf8.encode "grant_type=authorization_code&code=c&redirect_uri=r"⟩

/-- A network in which every request is sent on to a place that does not exist. -/
def sendingNowhere : Transport Unit := fun _ s =>
  (s, .now (.ok ⟨302, none, some "http://[", Utf8.encode Reply.oddBody⟩))

/-- Where nobody can be sent, the redirect is a refusal, and its body is read. -/
theorem exchange_sends_nowhere :
    (patient "broker.test").exchange sendingNowhere.recorded "c" "r" ((), []) =
      (((), [posted "broker.test"]), .now (.error (.endpoint "a/b" ""))) := by
  have hreach : canBeReached (posted "broker.test").url = true := by decide +kernel
  have hform : posted "broker.test" = ⟨"POST", withoutUserinfo (patient "broker.test").url,
      some Request.formType, Utf8.encode (Form.encode [("grant_type", "authorization_code"),
        ("code", "c"), ("redirect_uri", "r")])⟩ := by
    decide +kernel
  have hfinal : redirected? (posted "broker.test")
      ⟨302, none, some "http://[", Utf8.encode Reply.oddBody⟩ = none := by
    decide +kernel
  obtain ⟨-, hsends⟩ := exchange_sends (patient "broker.test") sendingNowhere "c" "r" ()
  rw [← hform] at hsends
  obtain ⟨-, hresponse⟩ := hsends () _ hreach rfl
  obtain ⟨houtcome, hrefused⟩ := (hresponse 0 _ rfl nofun).1 hfinal
  obtain ⟨error, description, hread, hexplains⟩ := hrefused (by decide)
  have hsays : Reply.SaysOnce [("x", none), ("error", some "a/b")] := by decide
  obtain ⟨rfl, rfl⟩ := hexplains.said _ _ rfl Reply.isMapping_oddBody hsays
  rw [houtcome, hread]
  rfl

/-- A network in which one host sends everybody on to another one, where there are tokens. -/
def sendingOn : Transport Unit := fun r s =>
  (s, .now (.ok (if r.url.host = some (.domain "broker.test") then
      ⟨307, none, some "http://elsewhere.test/token", []⟩
    else ⟨200, none, none, Utf8.encode "\x7b\"id_token\":\"t\"\x7d"⟩)))

/-- A code that is sent on goes to two places, and the status of the redirect is no refusal. -/
theorem exchange_sends_on :
    let outcome := (patient "broker.test").exchange sendingOn.recorded "c" "r" ((), [])
    outcome.1.2 = [posted "broker.test", posted "elsewhere.test"] ∧
      outcome.2.value? = some (.ok ⟨"t"⟩) := by
  decide +kernel

end Endpoint

end SignIn.Token
