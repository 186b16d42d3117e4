import SignIn.Configuration
import SignIn.Proofs.Except
import SignIn.Proofs.Text.Numeral
import SignIn.Proofs.Url.Join

/-!
# What a configuration can be

A configuration is made of texts, and most of them can be anything. What is known about all of them
alike is little: the URLs were read, the token endpoint follows from the broker if none is set, and
a number is not larger than its type allows. And if there is none, a URL is to blame, either one
that was given or the token endpoint of a broker that has no root to put it at.

That is enough for the two timeouts. A request may take longer than the requests to the broker that
it makes, but durations end somewhere, and close to their end there is no room for twenty seconds
more. There the sum is the longest duration, and it is still the longer one of the two, though by
less than a second: a timeout is set in whole seconds, and the longest duration is not a whole
number of them.

## Main definitions

* `Configuration.IsUrlError` — which URL is to blame

## Main results

* `Configuration.of_ofSettings_eq_ok` — where the parts of a configuration come from
* `Configuration.isUrlError_of_ofSettings` — what can be in the way of one
* `Configuration.httpTimeout_lt_requestTimeout` — which timeout is the longer one
-/

namespace SignIn

theorem Broker.Connection.isTarget_token : Url.IsTarget "token" :=
  ⟨⟨by decide, by decide, by decide, by decide⟩, by decide, by decide⟩

namespace Configuration

open Broker.Connection

variable {setting : Setting → Option String} {c : Configuration}

theorem numberOr_le {limit default : Nat} (h : default ≤ limit) (value : Option String) :
    numberOr limit default value ≤ limit := by
  rw [numberOr]
  split
  · next n hn =>
    obtain ⟨text, -, hread⟩ := Option.map_eq_some_iff.1 hn
    exact Numeral.natural_le hread
  · exact h

/-! ### The parts of a configuration -/

theorem of_parseUrl_eq_ok {s : Setting} {value : String} {url : Url}
    (h : parseUrl s value = .ok url) : Url.parse value = .ok url := by
  rw [parseUrl] at h
  split at h
  · next url' hparse =>
    cases h
    exact hparse
  · cases h

theorem of_endpointOf_eq_ok {brokerUrl url : Url} (h : endpointOf brokerUrl = .ok url) :
    brokerUrl.join "/token" = .ok url := by
  rw [endpointOf] at h
  split at h
  · next url' hjoin =>
    cases h
    exact hjoin
  · cases h

/-- The steps in which a configuration is made, one behind the other. -/
theorem ofSettings_eq (setting : Setting → Option String) : ofSettings setting = do
    let brokerUrl ← parseUrl .brokerUrl ((setting .brokerUrl).getD "http://localhost:44133")
    let tokenEndpoint ←
      (setting .tokenEndpoint).elim (endpointOf brokerUrl) (parseUrl .tokenEndpoint)
    let redirectUri ←
      parseUrl .redirectUri ((setting .redirectUri).getD "http://localhost:44180/verify")
    return {
      host := (setting .host).getD "127.0.0.1"
      port := numberOr (UInt16.size - 1) 44180 (setting .port)
      brokerUrl
      redirectUri
      tokenEndpoint
      httpTimeout := .seconds (numberOr (UInt64.size - 1) 10 (setting .httpTimeout)) } := by
  rw [ofSettings]
  cases setting .tokenEndpoint <;> rfl

/-- Where the broker, the token endpoint and the timeout of a configuration come from. -/
theorem of_ofSettings_eq_ok (h : ofSettings setting = .ok c) :
    Url.parse ((setting .brokerUrl).getD "http://localhost:44133") = .ok c.brokerUrl ∧
      (∀ value, setting .tokenEndpoint = some value → Url.parse value = .ok c.tokenEndpoint) ∧
      (setting .tokenEndpoint = none → c.brokerUrl.join "/token" = .ok c.tokenEndpoint) ∧
      c.httpTimeout = .seconds (numberOr (UInt64.size - 1) 10 (setting .httpTimeout)) := by
  rw [ofSettings_eq] at h
  obtain ⟨brokerUrl, hbroker, h⟩ := of_bind_eq_ok h
  obtain ⟨tokenEndpoint, hendpoint, h⟩ := of_bind_eq_ok h
  obtain ⟨redirectUri, -, h⟩ := of_bind_eq_ok h
  cases h
  refine ⟨of_parseUrl_eq_ok hbroker, fun value hset => ?_, fun hset => ?_, rfl⟩
  · rw [hset] at hendpoint
    exact of_parseUrl_eq_ok hendpoint
  · rw [hset] at hendpoint
    exact of_endpointOf_eq_ok hendpoint

theorem port_of_ofSettings_eq_ok (h : ofSettings setting = .ok c) :
    c.port = numberOr (UInt16.size - 1) 44180 (setting .port) := by
  rw [ofSettings_eq] at h
  obtain ⟨brokerUrl, -, h⟩ := of_bind_eq_ok h
  obtain ⟨tokenEndpoint, -, h⟩ := of_bind_eq_ok h
  obtain ⟨redirectUri, -, h⟩ := of_bind_eq_ok h
  cases h
  rfl

/-! ### What is in the way -/

/-- The error is that of a URL. Either it names a setting, and what was given there cannot be read;
or it names the token endpoint, of which nothing was said, and the broker that was given is one that
nothing can be resolved against. Nothing else that is not given can be to blame. -/
inductive IsUrlError (setting : Setting → Option String) : ServiceError → Prop where
  | given {s : Setting} {value : String} {reason : Url.ParseError}
      (url : s ∈ [Setting.brokerUrl, .tokenEndpoint, .redirectUri])
      (given : setting s = some value) (unread : Url.parse value = .error reason) :
    IsUrlError setting (.config s.key s!"{Quoted.quote value}: {reason.message}")
  | derived {value : String} {brokerUrl : Url} (endpoint : setting .tokenEndpoint = none)
      (given : setting .brokerUrl = some value) (read : Url.parse value = .ok brokerUrl)
      (rootless : brokerUrl.isRootless) :
    IsUrlError setting (.config Setting.tokenEndpoint.key
      Url.ParseError.relativeWithRootlessBase.message)

theorem of_parseUrl_eq_error {s : Setting} {value : String} {e : ServiceError}
    (h : parseUrl s value = .error e) : ∃ reason, Url.parse value = .error reason ∧
      e = .config s.key s!"{Quoted.quote value}: {reason.message}" := by
  rw [parseUrl] at h
  split at h
  · cases h
  · next reason hparse =>
    cases h
    exact ⟨reason, hparse, rfl⟩

/-- A broker has a token endpoint unless nothing can be resolved against it. -/
theorem of_endpointOf_eq_error {brokerUrl : Url} {e : ServiceError}
    (h : endpointOf brokerUrl = .error e) : brokerUrl.isRootless ∧
      e = .config Setting.tokenEndpoint.key Url.ParseError.relativeWithRootlessBase.message := by
  have hslash : "/token" = "/" ++ "token" := by decide
  cases hroot : brokerUrl.isRootless with
  | false =>
    rw [endpointOf, hslash, Url.join_eq isTarget_token hroot] at h
    cases h
  | true =>
    rw [endpointOf, hslash, Url.join_of_isTarget isTarget_token, hroot, if_pos rfl] at h
    cases h
    exact ⟨rfl, rfl⟩

/-- The error of a URL with a default that can be read. -/
theorem isUrlError_of_getD {s : Setting} {default : String} {e : ServiceError}
    (hs : s ∈ [Setting.brokerUrl, .tokenEndpoint, .redirectUri])
    (hdefault : (Url.parse default).isOk)
    (h : parseUrl s ((setting s).getD default) = .error e) : IsUrlError setting e := by
  obtain ⟨reason, hparse, rfl⟩ := of_parseUrl_eq_error h
  cases hset : setting s with
  | some value =>
    rw [hset] at hparse
    exact .given hs hset hparse
  | none =>
    rw [hset, Option.getD_none] at hparse
    rw [hparse] at hdefault
    cases hdefault

/-- The default of the broker can be read, and a token endpoint follows from it. -/
theorem of_parseUrl_default {brokerUrl : Url}
    (h : parseUrl .brokerUrl "http://localhost:44133" = .ok brokerUrl) :
    brokerUrl.isRootless = false := by
  have hrooted : (Url.parse "http://localhost:44133").toOption.any (!·.isRootless) := by
    decide +kernel
  rw [of_parseUrl_eq_ok h] at hrooted
  simpa [Except.toOption] using hrooted

/-- The error of the token endpoint, whether it was set or follows from the broker. -/
theorem isUrlError_of_elim {brokerUrl : Url} {e : ServiceError}
    (hbroker : parseUrl .brokerUrl ((setting .brokerUrl).getD "http://localhost:44133") =
      .ok brokerUrl)
    (h : (setting .tokenEndpoint).elim (endpointOf brokerUrl) (parseUrl .tokenEndpoint) =
      .error e) : IsUrlError setting e := by
  cases hset : setting .tokenEndpoint with
  | some value =>
    rw [hset] at h
    obtain ⟨reason, hparse, rfl⟩ := of_parseUrl_eq_error h
    exact .given (by decide) hset hparse
  | none =>
    rw [hset] at h
    obtain ⟨hroot, rfl⟩ := of_endpointOf_eq_error h
    cases hgiven : setting .brokerUrl with
    | some value =>
      rw [hgiven] at hbroker
      exact .derived hset hgiven (of_parseUrl_eq_ok hbroker) hroot
    | none =>
      rw [hgiven] at hbroker
      exact absurd hroot (Bool.eq_false_iff.1 (of_parseUrl_default hbroker))

/-- Nothing but a URL can be in the way of a configuration. -/
theorem isUrlError_of_ofSettings {e : ServiceError} (h : ofSettings setting = .error e) :
    IsUrlError setting e := by
  rw [ofSettings_eq] at h
  obtain hbroker | ⟨brokerUrl, hbroker, h⟩ := of_bind_eq_error h
  · exact isUrlError_of_getD (by decide) (by decide +kernel) hbroker
  obtain hendpoint | ⟨tokenEndpoint, -, h⟩ := of_bind_eq_error h
  · exact isUrlError_of_elim hbroker hendpoint
  obtain hredirect | ⟨redirectUri, -, h⟩ := of_bind_eq_error h
  · exact isUrlError_of_getD (by decide) (by decide +kernel) hredirect
  · cases h

/-! ### Timeouts -/

theorem requestTimeout_le (c : Configuration) : c.requestTimeout ≤ Duration.longest :=
  Nat.min_le_right _ _

/-- Whole seconds come to an end before durations do. -/
theorem httpTimeout_lt_longest (h : ofSettings setting = .ok c) :
    c.httpTimeout < Duration.longest := by
  have hseconds : numberOr (UInt64.size - 1) 10 (setting .httpTimeout) ≤ UInt64.size - 1 :=
    numberOr_le (by decide) _
  rw [(of_ofSettings_eq_ok h).2.2.2]
  exact Nat.lt_of_le_of_lt (Nat.mul_le_mul_right 1000 hseconds) (Nat.lt_add_of_pos_right (by decide))

/-- **A request may take longer than a request to the broker**, whatever is set. -/
theorem httpTimeout_lt_requestTimeout (h : ofSettings setting = .ok c) :
    c.httpTimeout < c.requestTimeout := by
  have hmargin : 0 < requestMargin := by decide
  exact Nat.lt_min.2 ⟨Nat.lt_add_of_pos_right hmargin, httpTimeout_lt_longest h⟩

end Configuration

end SignIn
