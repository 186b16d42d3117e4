import SignIn.Proofs.Broker.Teardown
import SignIn.Proofs.Handshake
import SignIn.Proofs.Party.Disclosure

/-!
# Serving with a client that was torn down

A broker client can be torn down while a relying party still serves with it. Nothing is left out
then. A callback whose token is looked at is announced as one with an invalid token, and an
authentication is answered by the page of a failure, with the reason in the log. Both take no time,
so neither is cut off.

A code is still exchanged, because that does not concern the client. What is sent out in the
meantime may change the world, but it does not bring the client back.

## Main definitions

* `Party.Setup.KeepsTeardown` — what is sent out does not bring the client back

## Main results

* `Callback.rejected_of_asked` — where every token is rejected at once
* `Party.Service.client_ends_once` — the life of a client, and what a relying party makes of its end
-/

namespace SignIn

namespace Callback

variable {σ : Type} {parties : Parties σ} {p : Params} {r : Recorded σ} {left : Option Duration}
  {error : BrokerError} {token : String} {P : σ → Prop}

/-! ### Callbacks where every token is rejected -/

/-- A token is verified. -/
def Call.IsVerification : Call σ → Prop
  | verify _ _ => True
  | _ => False

/-- An announcement verifies nothing. -/
theorem Parties.not_isVerification_announcement (verdict : Verdict) (s : σ) :
    ∀ call ∈ parties.announcement p verdict s, ¬call.IsVerification := by
  intro call hcall hverification
  have hquestion : call.isQuestion := by
    cases call with
    | verify token answer => rfl
    | _ => exact hverification.elim
  have hnone := parties.filter_announcement p verdict s
  exact List.ne_nil_of_mem (List.mem_filter.2 ⟨hcall, hquestion⟩) hnone

/-- What comes of a run in which a token was verified: it is told to be invalid, in a world of this
kind, and nothing else is told. -/
def EndsInRejection (p : Params) (P : σ → Prop) (result : Recorded σ × Option Outcome) : Prop :=
  (∃ call ∈ result.1.calls, call.IsVerification) → result.2 = some .invalidToken ∧
    ∃ world, P world ∧ result.1.calls.filterMap Call.published? = [(.invalidToken p, world)]

namespace Run

/-- In a callback that is announced without a question, no token is verified. -/
theorem endsInRejection_announce (verdict : Verdict) (steps : Nat)
    (hcalls : ∀ call ∈ r.calls, ¬call.IsVerification) :
    EndsInRejection p P (Delayed.workWithin (resume parties.recorded) outcome? (steps + 1) left
      (.suspended p (.announce verdict)) r) := by
  rintro ⟨call, hcall, hverification⟩
  by_cases hover : left = some 0
  · rw [hover, Delayed.workWithin_over] at hcall
    exact absurd hverification (hcalls call hcall)
  · rw [workWithin_announce (pos_of_ne_zero hover), Parties.announce_recorded] at hcall
    obtain hcall | hcall := List.mem_append.1 hcall
    · exact absurd hverification (hcalls call hcall)
    · exact absurd hverification (Parties.not_isVerification_announcement verdict _ call hcall)

/-- A token that is verified is rejected at once, and that is announced. -/
theorem endsInRejection_verify
    (hverify : parties.verify token r.world = (r.world, .now (.error error)))
    (hworld : P r.world) (steps : Nat) (hcalls : ∀ call ∈ r.calls, ¬call.IsVerification)
    (hquiet : r.calls.filterMap Call.published? = []) :
    EndsInRejection p P (Delayed.workWithin (resume parties.recorded) outcome? (steps + 2) left
      (.suspended p (.verify token)) r) := by
  rintro ⟨call, hcall, hverification⟩
  by_cases hover : left = some 0
  · rw [hover, Delayed.workWithin_over] at hcall
    exact absurd hverification (hcalls call hcall)
  · have hleft := pos_of_ne_zero hover
    have hstep : resume parties.recorded (.suspended p (.verify token)) r =
        (⟨r.world, r.calls ++ [.verify token (.now (.error error))]⟩,
          .after 0 (.suspended p (.announce (.rejected error)))) := by
      simp only [resume, Parties.recorded, hverify]
      rfl
    rw [Delayed.workWithin_of_step hleft rfl hstep,
      workWithin_announce (pos_of_mem_remaining hleft), Parties.announce_recorded]
    refine ⟨rfl, r.world, hworld, ?_⟩
    simp only [List.filterMap_append, hquiet, Parties.published_announcement]
    rfl

end Run

/-- Where every token is rejected at once, a callback that verifies one is told to have an invalid
token. Nothing but the verification may depend on what the world is like, and an exchange has to
leave it so. -/
theorem rejected_of_asked
    (hexchange : ∀ code redirectUri s, P s → P (parties.exchange code redirectUri s).1)
    (hverify : ∀ token s, P s → parties.verify token s = (s, .now (.error error))) (p : Params)
    (left : Option Duration) {s : σ} (hs : P s) :
    EndsInRejection p P (handle parties.recorded left p ⟨s, []⟩) := by
  rw [handle, Run.start, Progress.start]
  cases p.signal with
  | brokerError error description =>
    exact Run.endsInRejection_announce _ 0 (by simp)
  | idToken token => exact Run.endsInRejection_verify (hverify token s hs) hs 0 (by simp) rfl
  | empty => exact Run.endsInRejection_verify (hverify "" s hs) hs 0 (by simp) rfl
  | code code =>
    obtain ⟨⟨s', answer⟩, hanswer⟩ : ∃ x, parties.exchange code parties.redirectUri s = x :=
      ⟨_, rfl⟩
    have hs' : P s' := by simpa [hanswer] using hexchange code parties.redirectUri s hs
    let asked : Recorded σ := ⟨s', [.exchange code parties.redirectUri answer]⟩
    have hasked : ∀ call ∈ asked.calls, ¬call.IsVerification := by
      intro call hcall
      rw [List.mem_singleton.1 hcall]
      exact id
    have hnothing (outcome : Option Outcome) : EndsInRejection p P (asked, outcome) := by
      rintro ⟨call, hcall, hverification⟩
      exact absurd hverification (hasked call hcall)
    have hstep : Run.resume parties.recorded (.suspended p (.exchange code)) ⟨s, []⟩ =
        (asked, answer.map fun a => .suspended p (.afterExchange a)) := by
      simp only [Run.resume, Parties.recorded, hanswer]
      rfl
    show EndsInRejection p P (Delayed.workWithin _ _ 3 left _ _)
    by_cases hover : left = some 0
    · rw [hover, Delayed.workWithin_over]
      rintro ⟨call, hcall, -⟩
      exact absurd hcall List.not_mem_nil
    · cases answer with
      | never =>
        rw [Delayed.workWithin_of_never hover rfl hstep]
        exact hnothing none
      | after delay answer =>
        by_cases hleft : ∀ time ∈ left, delay < time
        · rw [Delayed.workWithin_of_step hleft rfl hstep]
          cases answer with
          | ok grant => exact Run.endsInRejection_verify (hverify _ s' hs') hs' 0 hasked rfl
          | error failure => exact Run.endsInRejection_announce _ 1 hasked
        · rw [Delayed.workWithin_of_late hover hleft rfl hstep]
          exact hnothing none

end Callback

namespace Party

open Http Broker

/-! ### A relying party whose client was torn down -/

section Gone

variable {μ : Type} {setup : Setup μ} {s : State μ} {request : Request} {fault : Option String}

/-- What is sent out while a client is torn down does not bring it back. -/
def Setup.KeepsTeardown (setup : Setup μ) : Prop :=
  ∀ request s, s.client.isDestroyed = true →
    (setup.transport request s).1.client.isDestroyed = true

theorem Setup.KeepsTeardown.exchange (h : setup.KeepsTeardown) (code redirectUri : String)
    (s : State μ) (hs : s.client.isDestroyed = true) :
    (setup.service.exchange code redirectUri s).1.client.isDestroyed = true :=
  send_keeps h hs

theorem State.verify_of_isDestroyed (d : Dialect) (token : String) (s : State μ)
    (hs : s.client.isDestroyed = true) : s.verify d token = (s, .now (.error .destroyed)) := by
  rw [State.verify, Client.verify_of_isDestroyed hs]

theorem State.authenticate_of_isDestroyed (d : Dialect) (identifier : String)
    (hs : s.client.isDestroyed = true) :
    (s.authenticate d identifier).2 = .now (.error .destroyed) := by
  rw [State.authenticate, Client.authenticate_of_isDestroyed hs]

/-- An authentication that can be read is declined. -/
theorem Setup.declines_of_isDestroyed (setup : Setup μ) (htimeout : 0 < setup.requestTimeout)
    (hs : s.client.isDestroyed = true) (hmethod : request.method = "POST")
    (hpath : request.path = "/auth") {identifier : String}
    (hfields : request.bodyFields [.withDefault "email"] fault = .ok [identifier]) :
    setup.service.Declines request fault s .destroyed :=
  ⟨hmethod, hpath, identifier, 0, hfields,
    State.authenticate_of_isDestroyed setup.dialect identifier hs, htimeout⟩

/-- One that cannot be read is answered at once. -/
theorem Setup.serve_of_rejection (setup : Setup μ) (htimeout : 0 < setup.requestTimeout)
    (hmethod : request.method = "POST") (hpath : request.path = "/auth") {rejection : Rejection}
    (hfields : request.bodyFields [.withDefault "email"] fault = .error rejection)
    (r : Callback.Recorded (State μ)) :
    setup.service.recorded.serve request r fault = (r, rejection.response) := by
  have hstart : Job.start request fault = .answered rejection.response := by
    rw [Job.start, Route.dispatch, hpath, hmethod]
    show Job.startAuth request fault = _
    rw [Job.startAuth, hfields]
  have hleft : some setup.service.recorded.requestTimeout ≠ some 0 :=
    fun h => absurd (Option.some.inj h) (Nat.ne_of_gt htimeout)
  have hget : request.method ≠ "HEAD" := by
    rw [hmethod]
    decide
  have hanswered : Job.response? (.answered rejection.response) = some rejection.response := rfl
  rw [Service.serve, hstart]
  simp only [Delayed.workWithin_of_result hleft hanswered, forMethod_of_ne hget]
  rfl

/-- A callback whose token is verified is told to have an invalid one. -/
theorem Setup.serve_of_verification (hsetup : setup.KeepsTeardown)
    (hs : s.client.isDestroyed = true) {p : Callback.Params}
    (hstart : Job.start request fault = .callback (.start p))
    {t : Callback.Recorded (State μ)} {response : Response}
    (hserve : setup.service.recorded.serve request ⟨s, []⟩ fault = (t, response))
    (hasked : ∃ call ∈ t.calls, call.IsVerification) :
    (∃ world : State μ, world.client.isDestroyed = true ∧
      t.calls.filterMap Callback.Call.published? = [(.invalidToken p, world)]) ∧
    response = (Response.html 500 Page.invalidToken).forMethod request.method := by
  rw [Service.serve_callback _ _ hstart] at hserve
  obtain ⟨rfl, rfl⟩ := Prod.mk.inj hserve
  obtain ⟨houtcome, hevent⟩ := Callback.rejected_of_asked hsetup.exchange
    (State.verify_of_isDestroyed setup.dialect) p (some setup.requestTimeout) hs hasked
  refine ⟨hevent, ?_⟩
  have houtcome' : (Callback.handle setup.service.recorded.toParties
    (some setup.service.recorded.requestTimeout) p ⟨s, []⟩).2 = some .invalidToken := houtcome
  rw [houtcome']
  rfl

end Gone

/-- **A client ends once.** Whatever is asked of a client of the mock broker, or of any other broker
that calls a token invalid if it is not genuine, by callbacks and by others, in any order and at any
readings of the clock: nobody is told that the client was torn down before it was. From then on
everybody is, its nonces and its purging are gone, and nothing changes it any more, tearing it down
again included.

A relying party that still serves with such a client announces every callback whose token it
verifies, once, as one with an invalid token, and says so to the browser. An authentication is
answered by the page of a failure, or by a refusal to read the request, and no event is emitted. -/
theorem client_ends_once (c : Connection) (time : Nat) (acts : List (Instant × Act)) {μ : Type}
    (setup : Setup μ) (s : State μ) :
    (∀ flow mode, (Site.after (Mock.dialect flow mode) c time acts).journal.EndsOnce) ∧
    (∀ endpoint (ε : Type) (check : Connection → String → Instant → Except ε Statement)
      (reason : ε → String), (Site.after (OpenId.dialectWith endpoint fun c token now =>
        (check c token now).mapError fun e => .invalidToken (reason e)) c time
          acts).journal.EndsOnce) ∧
    (setup.KeepsTeardown → s.client.isDestroyed = true →
      (∀ request fault, request.path = "/verify" → request.method ∈ ["GET", "HEAD", "POST"] →
        ∀ t response, setup.service.recorded.serve request ⟨s, []⟩ fault = (t, response) →
          (∃ call ∈ t.calls, call.IsVerification) →
          (∃ p world, Job.start request fault = .callback (.start p) ∧
            t.calls.filterMap Callback.Call.published? = [(.invalidToken p, world)]) ∧
          response = (Response.html 500 Page.invalidToken).forMethod request.method) ∧
      (0 < setup.requestTimeout → ∀ request fault, request.path = "/auth" →
        request.method = "POST" →
        (∀ identifier, request.bodyFields [.withDefault "email"] fault = .ok [identifier] →
          ∃ world, setup.service.recorded.serve request ⟨s, []⟩ fault =
            (⟨world, [.log (.requestFailed (.broker .destroyed))]⟩, .html 500 Page.error)) ∧
        ∀ rejection, request.bodyFields [.withDefault "email"] fault = .error rejection →
          setup.service.recorded.serve request ⟨s, []⟩ fault =
            (⟨s, []⟩, rejection.response))) := by
  refine ⟨fun flow mode => Site.endsOnce_after (leavesTeardown_mock flow mode) c time acts,
    fun endpoint ε check reason =>
      Site.endsOnce_after (leavesTeardown_openId endpoint check reason) c time acts,
    fun hsetup hs => ⟨fun request fault hpath hmethod t response hserve hasked => ?_,
      fun htimeout request fault hpath hmethod => ⟨fun identifier hfields => ?_,
        fun rejection hfields => ?_⟩⟩⟩
  · have hstart := Job.start_verify hpath hmethod fault
    obtain ⟨⟨world, -, hevent⟩, hresponse⟩ :=
      Setup.serve_of_verification hsetup hs hstart hserve hasked
    exact ⟨⟨_, world, hstart, hevent⟩, hresponse⟩
  · exact Service.serve_of_declines
      (setup.declines_of_isDestroyed htimeout hs hmethod hpath hfields)
  · exact setup.serve_of_rejection htimeout hmethod hpath hfields ⟨s, []⟩

/-- A client that is torn down between an authentication and the use of its nonce, and a relying
party that gets a callback without a token and the request for an authentication. -/
theorem client_ends_once_local :
    let s := localState.destroyClient
    let callback : Request := ⟨"GET", "/verify", none, none, []⟩
    let email : Request :=
      ⟨"POST", "/auth", none, some Request.formType, Utf8.encode (Form.encode [("email", "a")])⟩
    let acts : List (Instant × Act) :=
      [(0, .authenticate "a@b.com" "n" ""), (1, .destroy), (2, .verify "token"), (3, .destroy)]
    (Site.after localSetup.dialect localSetup.connection 0 acts).journal.EndsOnce ∧
    localSetup.KeepsTeardown ∧ s.client.isDestroyed = true ∧
    (∃ t response, localSetup.service.recorded.serve callback ⟨s, []⟩ = (t, response) ∧
      (∃ call ∈ t.calls, call.IsVerification) ∧ response = .html 500 Page.invalidToken) ∧
    ∃ world, localSetup.service.recorded.serve email ⟨s, []⟩ =
      (⟨world, [.log (.requestFailed (.broker .destroyed))]⟩, .html 500 Page.error) := by
  intro s callback email acts
  have hkeeps : localSetup.KeepsTeardown := fun _ _ h => h
  obtain ⟨hmock, -, hserved⟩ :=
    client_ends_once localSetup.connection 0 acts localSetup s
  obtain ⟨hverify, hauth⟩ := hserved hkeeps rfl
  obtain ⟨⟨t, response⟩, hserve⟩ :
      ∃ x, localSetup.service.recorded.serve callback ⟨s, []⟩ = x := ⟨_, rfl⟩
  have hasked : ∃ call ∈ t.calls, call.IsVerification := by
    have hstart : Job.start callback = .callback (.start (.ofForm [])) :=
      Job.start_of_query rfl rfl Form.ofText_empty
    rw [Service.serve_callback _ _ hstart] at hserve
    obtain ⟨rfl, -⟩ := Prod.mk.inj hserve
    exact ⟨.verify "" (.now (.error .destroyed)), .head _, trivial⟩
  obtain ⟨-, hresponse⟩ := hverify callback none rfl (by decide) t response hserve hasked
  refine ⟨hmock .implicit .query, hkeeps, rfl, ⟨t, response, hserve, hasked, hresponse⟩, ?_⟩
  refine (hauth (by decide) email none rfl rfl).1 "a" ?_
  rw [Request.bodyFields, Request.bodyForm_of_encode rfl rfl (by decide +kernel)]
  rfl

/-- An authentication that is not said to come as a form is not asked of the client at all. -/
theorem client_ends_once_unread :
    let s := localState.destroyClient
    let request : Request := ⟨"POST", "/auth", none, none, Utf8.encode "email=a"⟩
    s.client.isDestroyed = true ∧ request.method = "POST" ∧ request.path = "/auth" ∧
      (localSetup.service.serve request s).2.status = 415 ∧
      (localSetup.service.serve request s).2 ≠ .html 500 Page.error := by
  refine ⟨rfl, rfl, rfl, rfl, fun h => ?_⟩
  have hstatus := congrArg Response.status h
  contradiction

end Party

end SignIn
