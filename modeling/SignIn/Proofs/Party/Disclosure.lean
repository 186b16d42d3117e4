import SignIn.Proofs.Party.Deadline
import SignIn.Proofs.Party.Server

/-!
# What a failure shows the browser

A browser that is told of a failure learns that there was one, and of which kind, and nothing else.
Which identifier was asked for, what the broker answered, which tokens and codes a callback carried
and why they were rejected makes no difference to it. So this is a statement about two requests, to
two relying parties that may differ in everything: if both fail in the same way, both are answered
alike. The reason goes to the log and to the listeners.

A request is handled among others, which may do anything to the world while it waits. `Job.Finishes`
is a job in such a changing world, as `Callback.Run.Finishes` is a callback in one. Deadlines are no
part of it; what is cut off is answered by `Response.timeout`, which shows nothing at all.

## Main definitions

* `Party.Job.Finishes` — a job to its end, in a changing world
* `Party.Service.Declines` — an authentication that is asked for cannot be started
* `Party.Service.ComesTo` — a callback has an outcome in time

## Main results

* `Party.Job.Finishes.of_callback` — the answer to a callback is the page of its outcome
* `Party.Service.serve_of_declines` — the answer to an authentication that cannot be started
* `Party.Service.failures_alike` — requests that fail in the same way are answered alike
-/

namespace SignIn

/-- An event tells the outcome that it announces. -/
theorem Callback.Outcome.eq_of_event_eq {outcome outcome' : Outcome} {p p' : Params}
    (h : outcome.event p = outcome'.event p') : outcome = outcome' := by
  cases outcome with
  | verified identity => cases outcome' <;> cases h; rfl
  | gotError => cases outcome' <;> cases h; rfl
  | invalidToken => cases outcome' <;> cases h; rfl

namespace Party

open Http

variable {σ τ : Type}

/-! ### Jobs in a changing world -/

/-- A job is done to its end. Behind every step the world may have become any other. -/
inductive Job.Finishes (service : Service σ) :
    Job → Callback.Recorded σ → Response → Callback.Recorded σ → Prop where
  | answered {response : Response} {r : Callback.Recorded σ} :
    Finishes service (.answered response) r response r
  | resumed {job next : Job} {r r' t : Callback.Recorded σ} {delay : Duration} {response : Response}
      (world : σ) (waiting : job.response? = none)
      (step : job.resume service.recorded r = (r', .after delay next))
      (rest : Finishes service next ⟨world, r'.calls⟩ response t) :
    Finishes service job r response t

namespace Job.Finishes

variable {service : Service σ} {r t : Callback.Recorded σ} {response : Response}

theorem of_answered {given : Response} (h : Finishes service (.answered given) r response t) :
    response = given ∧ t = r := by
  cases h with
  | answered => exact ⟨rfl, rfl⟩
  | resumed world waiting step rest => cases waiting

/-- An authentication that cannot be started leaves a line in the log, and nothing else. -/
theorem of_authenticated_error {error : BrokerError}
    (h : Finishes service (.authenticated (.error error)) r response t) :
    response = .html 500 Page.error ∧
      t.calls = r.calls ++ [.log (.requestFailed (.broker error))] := by
  cases h with
  | resumed world waiting step rest =>
    obtain ⟨rfl, hnext⟩ := Prod.mk.inj step
    obtain ⟨-, rfl⟩ := Delayed.after.inj hnext
    obtain ⟨rfl, rfl⟩ := rest.of_answered
    exact ⟨rfl, rfl⟩

theorem of_authenticate_error {identifier : String} {delay : Duration} {error : BrokerError}
    (hanswer : (service.authenticate identifier r.world).2 = .after delay (.error error))
    (h : Finishes service (.authenticate identifier) r response t) :
    response = .html 500 Page.error ∧
      t.calls = r.calls ++ [.log (.requestFailed (.broker error))] := by
  cases h with
  | resumed world waiting step rest =>
    simp only [Job.resume, Service.recorded, hanswer] at step
    obtain ⟨rfl, hnext⟩ := Prod.mk.inj step
    obtain ⟨-, rfl⟩ := Delayed.after.inj hnext
    exact rest.of_authenticated_error

/-- The answer to a callback is the page of its outcome, and the calls are those of the
callback. -/
theorem of_callback {run : Callback.Run} (h : Finishes service (.callback run) r response t) :
    ∃ outcome world, run.Finishes service.toParties r outcome ⟨world, t.calls⟩ ∧
      response = outcomeResponse outcome := by
  obtain ⟨job, hjob⟩ : ∃ job, job = Job.callback run := ⟨_, rfl⟩
  rw [← hjob] at h
  induction h generalizing run with
  | answered => cases hjob
  | resumed world waiting step rest ih =>
    subst hjob
    cases run with
    | finished outcome =>
      obtain ⟨rfl, hnext⟩ := Prod.mk.inj step
      obtain ⟨-, rfl⟩ := Delayed.after.inj hnext
      obtain ⟨rfl, rfl⟩ := rest.of_answered
      exact ⟨outcome, _, .finished, rfl⟩
    | suspended p progress =>
      obtain ⟨hworld, hnext⟩ := Prod.mk.inj step
      obtain ⟨next, hrun, rfl⟩ := Delayed.of_map_eq_after hnext
      obtain ⟨outcome, last, hfinishes, hresponse⟩ := ih rfl
      exact ⟨outcome, last, .resumed world (Prod.ext hworld hrun) hfinishes, hresponse⟩

end Job.Finishes

/-! ### Requests that fail -/

/-- A callback by `GET` or by `POST`. -/
def IsCallback (request : Request) : Prop :=
  request.path = "/verify" ∧ request.method ∈ ["GET", "POST"]

theorem IsCallback.ne_head {request : Request} (h : IsCallback request) :
    request.method ≠ "HEAD" := by
  intro hhead
  have hmethod := h.2
  rw [hhead] at hmethod
  exact absurd hmethod (by decide)

namespace Job

variable {service : Service σ} {request : Request} {fault : Option String}

theorem start_of_bodyFields {identifier : String} (hmethod : request.method = "POST")
    (hpath : request.path = "/auth")
    (hfields : request.bodyFields [.withDefault "email"] fault = .ok [identifier]) :
    Job.start request fault = .authenticate identifier := by
  rw [Job.start, Route.dispatch, hpath, hmethod]
  show Job.startAuth request fault = _
  rw [Job.startAuth, hfields]
  rfl

/-- A form that breaks off does not keep a request from being a callback. -/
theorem start_of_isCallback (h : IsCallback request) (fault : Option String) :
    ∃ p, start request fault = .callback (.start p) := by
  refine ⟨_, start_verify h.1 ?_ fault⟩
  have hmethod := h.2
  simp only [List.mem_cons, List.not_mem_nil, or_false] at hmethod ⊢
  exact hmethod.imp_right .inr

/-- The page of a failure says that it is one. -/
theorem status_of_isFailure {outcome : Callback.Outcome} (h : outcome.isFailure) :
    (outcomeResponse outcome).status = 500 := by
  cases outcome with
  | verified identity => cases h
  | gotError => rfl
  | invalidToken => rfl

/-- Of a callback that was announced, the answer is the page of the outcome that was announced. -/
theorem Finishes.of_event {response : Response} {s : σ} {t : Callback.Recorded σ}
    (h : (start request fault).Finishes service ⟨s, []⟩ response t) (hrequest : IsCallback request)
    {outcome : Callback.Outcome} {p : Callback.Params} {w : σ}
    (hevent : t.calls.filterMap Callback.Call.published? = [(outcome.event p, w)]) :
    response = outcomeResponse outcome := by
  obtain ⟨q, hstart⟩ := start_of_isCallback hrequest fault
  rw [hstart] at h
  obtain ⟨result, world, hfinishes, rfl⟩ := h.of_callback
  obtain ⟨questions, verdict, last, hdecision, rfl, hcalls⟩ := hfinishes.calls
  rw [hcalls, List.filterMap_append, hdecision.filterMap_published?, List.nil_append,
    Callback.Parties.published_announcement, Callback.Verdict.event_eq] at hevent
  have hsame : verdict.outcome.event q = outcome.event p := (Prod.mk.inj (List.cons.inj hevent).1).1
  rw [Callback.Outcome.eq_of_event_eq hsame]

/-- The record changes nothing about a step. -/
theorem resume_recorded (service : Service σ) (job : Job) (r : Callback.Recorded σ) :
    job.resume service r.world =
      ((job.resume service.recorded r).1.world, (job.resume service.recorded r).2) := by
  match job with
  | answered response => rfl
  | authenticate identifier => rfl
  | authenticated (.ok url) => rfl
  | authenticated (.error e) => rfl
  | callback (.finished outcome) => rfl
  | callback (.suspended p progress) =>
    have hrun := @Callback.Run.resume_recorded _ service.toParties (.suspended p progress) r
    exact congrArg (fun x => (x.1, x.2.map callback)) hrun

/-- An authentication that cannot be started is logged, and then answered. -/
theorem workWithin_of_authenticate_error {identifier : String} {delay : Duration}
    {error : BrokerError} {left : Option Duration} {s s' : σ}
    (hleft : ∀ time ∈ left, delay < time)
    (hanswer : service.authenticate identifier s = (s', .after delay (.error error))) :
    Delayed.workWithin (resume service) response? 2 left (.authenticate identifier) s =
      (service.log (.requestFailed (.broker error)) s', some (.html 500 Page.error)) := by
  have hasked : (authenticate identifier).resume service s =
      (s', .after delay (.authenticated (.error error))) := by
    rw [resume, hanswer]
    rfl
  have hrest := Callback.pos_of_mem_remaining hleft
  rw [Delayed.workWithin_of_step hleft rfl hasked, Delayed.workWithin_of_step hrest rfl rfl]
  exact Delayed.workWithin_of_result (Callback.remaining_ne_zero hrest) rfl

end Job

namespace Service

/-- An authentication is asked for that cannot be started. The broker client says so, with this
error, before the time for the request is up. -/
def Declines (service : Service σ) (request : Request) (fault : Option String) (s : σ)
    (error : BrokerError) : Prop :=
  request.method = "POST" ∧ request.path = "/auth" ∧ ∃ identifier delay,
    request.bodyFields [.withDefault "email"] fault = .ok [identifier] ∧
    (service.authenticate identifier s).2 = .after delay (.error error) ∧
    delay < service.requestTimeout

/-- A callback comes to this outcome, before the time for the request is up. -/
def ComesTo (service : Service σ) (request : Request) (fault : Option String) (s : σ)
    (outcome : Callback.Outcome) : Prop :=
  ∃ p, Job.start request fault = .callback (.start p) ∧
    (Callback.handle service.toParties (some service.requestTimeout) p s).2 = some outcome

variable {service : Service σ} {request : Request} {fault : Option String} {s : σ}
  {error : BrokerError} {outcome : Callback.Outcome}

/-- The record changes nothing about the answer to a request. -/
theorem serve_recorded (service : Service σ) (request : Request) (fault : Option String)
    (r : Callback.Recorded σ) :
    service.serve request r.world fault =
      ((service.recorded.serve request r fault).1.world,
        (service.recorded.serve request r fault).2) := by
  rw [serve, Delayed.workWithin_view Callback.Recorded.world (Job.resume_recorded service) r]
  rfl

/-- An authentication that cannot be started is answered by the page that says so. No event is
emitted, and the error is written into the log, once. -/
theorem serve_of_declines (h : service.Declines request fault s error) :
    ∃ world, service.recorded.serve request ⟨s, []⟩ fault =
      (⟨world, [.log (.requestFailed (.broker error))]⟩, .html 500 Page.error) := by
  obtain ⟨hmethod, hpath, identifier, delay, hfields, hanswer, hdelay⟩ := h
  obtain ⟨⟨s', answer⟩, hstart⟩ : ∃ x, service.authenticate identifier s = x := ⟨_, rfl⟩
  obtain rfl : answer = .after delay (.error error) := by rw [← hanswer, hstart]
  have hrecorded : service.recorded.authenticate identifier ⟨s, []⟩ =
      (⟨s', []⟩, .after delay (.error error)) := by
    simp only [recorded, hstart]
  have hleft : ∀ time ∈ some service.recorded.requestTimeout, delay < time := by
    simpa [recorded] using hdelay
  have hwork := Job.workWithin_of_authenticate_error hleft hrecorded
  have hget : request.method ≠ "HEAD" := by
    rw [hmethod]
    decide
  refine ⟨service.log (.requestFailed (.broker error)) s', ?_⟩
  rw [serve, Job.start_of_bodyFields hmethod hpath hfields]
  simp only [Job.stepsLeft, hwork, forMethod_of_ne hget]
  rfl

/-- The same, whatever becomes of the world in the meantime. -/
theorem Declines.of_finishes (h : service.Declines request fault s error) {response : Response}
    {t : Callback.Recorded σ}
    (hjob : (Job.start request fault).Finishes service ⟨s, []⟩ response t) :
    response = .html 500 Page.error ∧ t.calls = [.log (.requestFailed (.broker error))] := by
  obtain ⟨hmethod, hpath, identifier, delay, hfields, hanswer, -⟩ := h
  rw [Job.start_of_bodyFields hmethod hpath hfields] at hjob
  exact hjob.of_authenticate_error hanswer

/-- A callback that has an outcome in time is answered by the page of that outcome. -/
theorem serve_of_comesTo (hrequest : IsCallback request)
    (h : service.ComesTo request fault s outcome) :
    (service.serve request s fault).2 = Job.outcomeResponse outcome := by
  obtain ⟨p, hstart, houtcome⟩ := h
  rw [service.serve_callback s hstart, houtcome, forMethod_of_ne hrequest.ne_head]
  rfl

/-- A callback that has no outcome in time is cut off. -/
theorem comesTo_or_timeout (service : Service σ) (hrequest : IsCallback request)
    (fault : Option String) (s : σ) :
    (∃ outcome, service.ComesTo request fault s outcome) ∨
      (service.serve request s fault).2 = .timeout := by
  obtain ⟨p, hstart⟩ := Job.start_of_isCallback hrequest fault
  cases houtcome : (Callback.handle service.toParties (some service.requestTimeout) p s).2 with
  | some outcome => exact .inl ⟨outcome, p, hstart, houtcome⟩
  | none =>
    rw [service.serve_callback s hstart, houtcome, forMethod_of_ne hrequest.ne_head]
    exact .inr rfl

/-- **Failures that look alike.** Two relying parties, which may have nothing in common, each handle
a request. If neither can start the authentication that is asked for, whatever the identifiers and
whatever the errors, then the browsers get the same response, of status 500; no event is emitted,
and the log of each says once which error it was. If both requests are callbacks, whatever is in
them and whatever the others answer, and they come to the same outcome, then the browsers get the
same response; so a page depends on nothing but the outcome, and that of a failure on nothing but
what kind of failure it was. A callback without an outcome is cut off.

It does not matter what else happens while the requests are handled. -/
theorem failures_alike (a : Service σ) (b : Service τ) (request request' : Request)
    (fault fault' : Option String) (s : σ) (s' : τ) :
    (∀ error error', a.Declines request fault s error → b.Declines request' fault' s' error' →
      ∃ t t' response, a.serve request s fault = (t.world, response) ∧
        b.serve request' s' fault' = (t'.world, response) ∧
        a.recorded.serve request ⟨s, []⟩ fault = (t, response) ∧
        b.recorded.serve request' ⟨s', []⟩ fault' = (t', response) ∧ response.status = 500 ∧
        t.calls = [.log (.requestFailed (.broker error))] ∧
        t'.calls = [.log (.requestFailed (.broker error'))]) ∧
    (IsCallback request → IsCallback request' →
      (∀ outcome, a.ComesTo request fault s outcome → b.ComesTo request' fault' s' outcome →
        (a.serve request s fault).2 = (b.serve request' s' fault').2 ∧
        (outcome.isFailure → (a.serve request s fault).2.status = 500)) ∧
      ((∃ outcome, a.ComesTo request fault s outcome) ∨
        (a.serve request s fault).2 = .timeout)) ∧
    ∀ response response' t t', (Job.start request fault).Finishes a ⟨s, []⟩ response t →
      (Job.start request' fault').Finishes b ⟨s', []⟩ response' t' →
      (∀ error error', a.Declines request fault s error → b.Declines request' fault' s' error' →
        response = response' ∧ response.status = 500 ∧
        t.calls = [.log (.requestFailed (.broker error))] ∧
        t'.calls = [.log (.requestFailed (.broker error'))]) ∧
      (IsCallback request → IsCallback request' → ∀ (outcome : Callback.Outcome) p p' w w',
        t.calls.filterMap Callback.Call.published? = [(outcome.event p, w)] →
        t'.calls.filterMap Callback.Call.published? = [(outcome.event p', w')] →
        response = response') := by
  refine ⟨fun error error' h h' => ?_, fun hrequest hrequest' => ⟨fun outcome h h' => ?_, ?_⟩,
    fun response response' t t' hjob hjob' => ⟨fun error error' h h' => ?_,
      fun hrequest hrequest' outcome p p' w w' hevent hevent' => ?_⟩⟩
  · obtain ⟨world, hserve⟩ := serve_of_declines h
    obtain ⟨world', hserve'⟩ := serve_of_declines h'
    refine ⟨_, _, _, ?_, ?_, hserve, hserve', rfl, rfl, rfl⟩
    · rw [a.serve_recorded request fault ⟨s, []⟩, hserve]
    · rw [b.serve_recorded request' fault' ⟨s', []⟩, hserve']
  · rw [serve_of_comesTo hrequest h, serve_of_comesTo hrequest' h']
    exact ⟨rfl, Job.status_of_isFailure⟩
  · exact a.comesTo_or_timeout hrequest fault s
  · obtain ⟨rfl, hcalls⟩ := h.of_finishes hjob
    obtain ⟨rfl, hcalls'⟩ := h'.of_finishes hjob'
    exact ⟨rfl, rfl, hcalls, hcalls'⟩
  · rw [hjob.of_event hrequest hevent, hjob'.of_event hrequest' hevent']

/-- An identifier that a broker refuses and one that was not even given, and two callbacks of which
one is refused by the broker and the other by its token endpoint. -/
theorem failures_alike_refusals :
    let a : Service Unit :=
      { Callback.Parties.ofAnswers "http://localhost:44180/verify" (fun _ _ => .ok ⟨""⟩)
          fun _ => .error .destroyed with
        authenticate := fun _ s => (s, .after (.seconds 1) (.error (.network "no route")))
        requestTimeout := .seconds 2 }
    let b : Service Unit :=
      { Callback.Parties.ofAnswers "http://127.0.0.1:8080/verify"
          (fun _ _ => .error (.endpoint "invalid_grant" "used")) fun token => .ok token with
        authenticate := fun identifier s => (s, .now (.error (.protocol identifier)))
        requestTimeout := .seconds 1 }
    let email : Request :=
      ⟨"POST", "/auth", none, some Request.formType, Utf8.encode (Form.encode [("email", "<b>")])⟩
    let nothing : Request := ⟨"POST", "/auth", none, some Request.formType, []⟩
    let refused : Request := ⟨"GET", "/verify", some "error=access_denied", none, []⟩
    let code : Request := ⟨"POST", "/verify", none, some Request.formType, Utf8.encode "code=x"⟩
    (a.Declines email none () (.network "no route") ∧ b.Declines nothing none () (.protocol "") ∧
      (a.serve email ()).2 = (b.serve nothing ()).2) ∧
    IsCallback refused ∧ IsCallback code ∧ a.ComesTo refused none () .gotError ∧
      b.ComesTo code none () .gotError ∧ (a.serve refused ()).2 = (b.serve code ()).2 := by
  intro a b email nothing refused code
  have hemail : a.Declines email none () (.network "no route") := by
    refine ⟨rfl, rfl, "<b>", .seconds 1, ?_, rfl, by decide⟩
    rw [Request.bodyFields, Request.bodyForm_of_encode rfl rfl (by decide +kernel)]
    rfl
  have hnothing : b.Declines nothing none () (.protocol "") := by
    have hempty : nothing.body = Utf8.encode (Form.encode []) := by decide +kernel
    refine ⟨rfl, rfl, "", 0, ?_, rfl, by decide⟩
    rw [Request.bodyFields, Request.bodyForm_of_encode rfl hempty (by decide +kernel)]
    rfl
  have hrefused : IsCallback refused := ⟨rfl, by decide⟩
  have hcode : IsCallback code := ⟨rfl, by decide⟩
  have hgot : a.ComesTo refused none () .gotError :=
    ⟨_, Job.start_of_query rfl rfl rfl, by decide +kernel⟩
  have hgot' : b.ComesTo code none () .gotError := ⟨_, Job.start_post rfl rfl, by decide +kernel⟩
  obtain ⟨hdeclined, -⟩ := failures_alike a b email nothing none none () ()
  obtain ⟨t, t', response, hserve, hserve', -⟩ := hdeclined _ _ hemail hnothing
  obtain ⟨-, hcallbacks, -⟩ := failures_alike a b refused code none none () ()
  obtain ⟨hsame, -⟩ := (hcallbacks hrefused hcode).1 _ hgot hgot'
  exact ⟨⟨hemail, hnothing, by rw [hserve, hserve']⟩, hrefused, hcode, hgot, hgot', hsame⟩

end Service

end Party

end SignIn
