import SignIn.Launch
import SignIn.Proofs.Configuration
import SignIn.Proofs.Http.Transport
import SignIn.Proofs.Party.Deadline

/-!
# Patience with the token endpoint

While a code is exchanged, two clocks are running. One is for the request to the token endpoint, and
when it is up, the exchange has failed. The other is for the request of the browser, and when that
is up, nobody learns what became of the exchange. So the second clock has to be the slower one: then
a token endpoint that says nothing is a failure like any other, with a page and an event.

A relying party that takes both times from one configuration has this, whatever the configuration.
Nothing is known here about how the exchange is done. It may be by someone else's means, as long as
it ends in the time that the configuration has for it. If it is done over HTTP with the timeout of
the configuration, it does, whatever becomes of the requests.

What is left of the time for the request does not matter, as long as there is some. The verification
of a token is taken to be done at once, as it is by the broker clients here.

## Main definitions

* `Party.Service.startedWith` — a relying party that takes its time from a configuration
* `Party.Service.Concludes` — a callback is announced by one event and answered by the page for it

## Main results

* `Party.Service.concludes_of_isSome` — a callback that has an outcome in time
* `Token.Endpoint.exchange_within` — an exchange over HTTP ends with its timeout
* `Party.exchange_never_preempted` — no exchange is cut off by the time for the request
-/

namespace SignIn

variable {σ : Type}

/-- With a timeout an exchange comes to an end, and not later. -/
theorem Token.Endpoint.exchange_within {e : Endpoint} {time : Duration}
    (h : e.timeout = some time) (transport : Http.Transport σ) (code redirectUri : String) (s : σ) :
    ∃ s' delay answer, e.exchange transport code redirectUri s = (s', .after delay answer) ∧
      delay ≤ time := by
  obtain ⟨s', delay, result, hsend, hdelay⟩ :=
    Http.send_within transport time (e.request code redirectUri) s
  refine ⟨s', delay, readResponse result, ?_, hdelay⟩
  rw [exchange, h, hsend]
  rfl

/-- A code that is exchanged before the deadline, for a token that is verified at once. -/
theorem Callback.isSome_handle_of_exchange {parties : Parties σ} {p : Params} {code : String}
    {s s' : σ} {left : Option Duration} {delay : Duration}
    {answer : Except ExchangeError Token.Grant} (hsignal : p.signal = .code code)
    (hanswer : parties.exchange code parties.redirectUri s = (s', .after delay answer))
    (htime : ∀ time ∈ left, delay < time)
    (hverify : ∀ grant, answer = .ok grant →
      ∃ t result, parties.verify grant.idToken s' = (t, .now result)) :
    (handle parties left p s).2.isSome := by
  have hstart : Run.start p = .suspended p (.exchange code) := by
    rw [Run.start, Progress.start, hsignal]
  rw [handle, hstart]
  refine Run.inTime_exchange_of_answer 0 hanswer htime fun grant hgrant => ?_
  obtain ⟨t, result, hresult⟩ := hverify grant hgrant
  exact Run.inTime_verify_of_answer hresult (pos_of_mem_remaining htime) 0

namespace Party

open Http

variable {request : Request} {fault : Option String} {p : Callback.Params} {s : σ}

namespace Service

/-- The relying party that is started with a configuration: how long a request may take is taken
from there. -/
def startedWith (c : Configuration) (service : Service σ) : Service σ :=
  { service with requestTimeout := c.requestTimeout }

/-- The request, with this callback, is answered by the page of an outcome, and exactly one event
was emitted, that of the outcome. -/
def Concludes (service : Service σ) (request : Request) (fault : Option String)
    (p : Callback.Params) (s : σ) : Prop :=
  ∃ t response outcome world, service.recorded.serve request ⟨s, []⟩ fault = (t, response) ∧
    service.serve request s fault = (t.world, response) ∧
    response = (Job.outcomeResponse outcome).forMethod request.method ∧
    response.status ∈ [200, 500] ∧
    t.calls.filterMap Callback.Call.published? = [(outcome.event p, world)]

/-- A callback that has an outcome before the deadline is not cut off. -/
theorem concludes_of_isSome (service : Service σ)
    (hstart : Job.start request fault = .callback (.start p))
    (h : (Callback.handle service.toParties (some service.requestTimeout) p s).2.isSome) :
    service.Concludes request fault p s := by
  have hview : Callback.handle service.toParties (some service.requestTimeout) p s =
      ((Callback.handle service.toParties.recorded (some service.requestTimeout) p ⟨s, []⟩).1.world,
        (Callback.handle service.toParties.recorded (some service.requestTimeout) p ⟨s, []⟩).2) :=
    Callback.handle_recorded service.toParties (some service.requestTimeout) p ⟨s, []⟩
  obtain ⟨t, -, ht, -⟩ | ⟨t, outcome, ht, hfinishes⟩ :=
    Callback.Run.asked_or_finishes service.toParties (.start p) (some service.requestTimeout)
      ⟨s, []⟩ (Nat.le_refl _)
  · have hcut : Callback.handle service.toParties.recorded (some service.requestTimeout) p ⟨s, []⟩ =
      (t, none) := ht
    rw [hview, hcut] at h
    cases h
  · have hdone : Callback.handle service.recorded.toParties
      (some service.recorded.requestTimeout) p ⟨s, []⟩ = (t, some outcome) := ht
    have hseen : Callback.handle service.toParties (some service.requestTimeout) p s =
        (t.world, some outcome) := hview.trans (congrArg (fun x => (x.1.world, x.2)) hdone)
    obtain ⟨questions, verdict, world, hdecision, houtcome, hcalls⟩ := hfinishes.calls
    refine ⟨t, (Job.outcomeResponse outcome).forMethod request.method, outcome, world, ?_, ?_, rfl,
      ?_, ?_⟩
    · rw [serve_callback _ _ hstart, hdone]
      rfl
    · rw [serve_callback _ _ hstart, hseen]
      rfl
    · rw [Job.status_outcomeResponse]
      split <;> decide
    · rw [hcalls, List.filterMap_append, hdecision.filterMap_published?, List.nil_append,
        Callback.Parties.published_announcement, Callback.Verdict.event_eq, houtcome]

/-- A callback with a code that is exchanged before the deadline, for a token that is verified at
once. -/
theorem concludes_of_exchange (service : Service σ) (c : Configuration) {code : String} {s' : σ}
    {delay : Duration} {answer : Except ExchangeError Token.Grant}
    (hstart : Job.start request fault = .callback (.start p)) (hsignal : p.signal = .code code)
    (hanswer : service.exchange code service.redirectUri s = (s', .after delay answer))
    (htime : delay < c.requestTimeout)
    (hverify : ∀ grant, answer = .ok grant →
      ∃ t result, service.verify grant.idToken s' = (t, .now result)) :
    (service.startedWith c).Concludes request fault p s := by
  have hleft : ∀ time ∈ some c.requestTimeout, delay < time := by simpa using htime
  exact concludes_of_isSome _ hstart
    (Callback.isSome_handle_of_exchange hsignal hanswer hleft hverify)

end Service

/-- **The time for a request is never up before that for the exchange.** Whatever is set, if it
makes a configuration at all: the time for a request is a duration, and a longer one than the time
for the requests that it makes. So a relying party that is started with this configuration handles
every callback with a code whose exchange ends in that time, in whatever way, to its end, if tokens
are verified at once. Exchanges over HTTP with the timeout of the configuration all end in that
time. -/
theorem exchange_never_preempted (setting : Setting → Option String) (c : Configuration)
    (h : Configuration.ofSettings setting = .ok c) :
    (c.httpTimeout < c.requestTimeout ∧ c.requestTimeout ≤ Duration.longest) ∧
    (∀ {σ : Type} (service : Service σ) (request : Request) (fault : Option String)
      (p : Callback.Params) (code : String) (s s' : σ) (delay : Duration)
      (answer : Except ExchangeError Token.Grant),
      Job.start request fault = .callback (.start p) → p.signal = .code code →
      service.exchange code service.redirectUri s = (s', .after delay answer) →
      delay ≤ c.httpTimeout →
      (∀ grant, answer = .ok grant →
        ∃ t result, service.verify grant.idToken s' = (t, .now result)) →
      (service.startedWith c).Concludes request fault p s) ∧
    ∀ {μ : Type} (setup : Setup μ) (request : Request) (fault : Option String)
      (p : Callback.Params) (code : String) (s : State μ),
      setup.endpoint.timeout = some c.httpTimeout →
      Job.start request fault = .callback (.start p) → p.signal = .code code →
      (setup.service.startedWith c).Concludes request fault p s := by
  have hlonger := Configuration.httpTimeout_lt_requestTimeout h
  refine ⟨⟨hlonger, c.requestTimeout_le⟩, ?_, ?_⟩
  · intro σ service request fault p code s s' delay answer hstart hsignal hanswer hdelay hverify
    exact service.concludes_of_exchange c hstart hsignal hanswer
      (Nat.lt_of_le_of_lt hdelay hlonger) hverify
  · intro μ setup request fault p code s htimeout hstart hsignal
    obtain ⟨s', delay, answer, hanswer, hdelay⟩ := setup.endpoint.exchange_within htimeout
      setup.transport code setup.service.redirectUri s
    exact setup.service.concludes_of_exchange c hstart hsignal hanswer
      (Nat.lt_of_le_of_lt hdelay hlonger) fun grant _ => ⟨_, _, rfl⟩

/-- The longest timeout that can be set, and an exchange that fails when it is up: there is less
than a second left, and that is enough. -/
theorem exchange_never_preempted_longest :
    let setting : Setting → Option String := fun s =>
      if s = .httpTimeout then some "18446744073709551615" else none
    let service : Service Unit :=
      { Callback.Parties.ofAnswers "http://localhost:44180/verify" (fun _ _ => .ok ⟨""⟩)
          fun _ => .error .destroyed with
        exchange := fun _ _ s => (s, .after (.seconds 18446744073709551615) (.error (.transport "")))
        authenticate := fun _ s => (s, .never)
        requestTimeout := defaultRequestTimeout }
    let request : Request := ⟨"GET", "/verify", some "code=abc", none, []⟩
    ∃ c, Configuration.ofSettings setting = .ok c ∧
      c.httpTimeout = .seconds 18446744073709551615 ∧ c.requestTimeout = Duration.longest ∧
      c.httpTimeout < c.requestTimeout ∧
      (service.startedWith c).Concludes request none (.ofForm request.queryForm) () := by
  intro setting service request
  obtain ⟨c, hc⟩ : ∃ c, Configuration.ofSettings setting = .ok c := by
    have hread : (Configuration.ofSettings setting).toOption.isSome := by decide +kernel
    cases hsettings : Configuration.ofSettings setting with
    | ok c => exact ⟨c, rfl⟩
    | error e =>
      rw [hsettings] at hread
      cases hread
  obtain ⟨⟨hlonger, -⟩, hconcludes, -⟩ := exchange_never_preempted setting c hc
  have htimeout : c.httpTimeout = .seconds 18446744073709551615 := by
    rw [(Configuration.of_ofSettings_eq_ok hc).2.2.2]
    decide +kernel
  have hrequest : c.requestTimeout = Duration.longest := by
    rw [Configuration.requestTimeout, htimeout]
    decide +kernel
  refine ⟨c, hc, htimeout, hrequest, hlonger, ?_⟩
  exact hconcludes service request none _ "abc" () () _ _ rfl (by decide +kernel) rfl
    (Nat.le_of_eq htimeout.symm) nofun

end Party

end SignIn
