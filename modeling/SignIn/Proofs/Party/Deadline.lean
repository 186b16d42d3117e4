import SignIn.Proofs.Callback.Announcement
import SignIn.Proofs.Party.Service

/-!
# Callbacks that run out of time

The time for a request can be up at any moment while a callback waits, and it may wait for ever. It
is never up between the announcement of a callback and its answer, because these are one step: a
callback waits for the answers to its questions and for nothing else. So a browser that is told that
its request took too long can be sure that nobody was told of an outcome, and whoever is told of an
outcome can be sure that the browser is shown it.

That a callback is cut off is not an excuse for never handling one. If the answers come quickly
enough, no callback is.

## Main definitions

* `Party.Service.recorded` — the same service, with a record of its calls
* `Party.Job.callbackOf` — the callback of a request
* `Callback.Parties.AnswersWithin` — how long the others take at most

## Main results

* `Callback.Run.asked_or_finishes` — a run that is cut off has asked questions and done nothing else
* `Party.Service.announced_or_timedOut` — every callback request is announced and answered, or
  neither
-/

namespace SignIn

variable {σ : Type}

namespace Callback

/-! ### Cut off or finished -/

theorem Call.published?_of_isQuestion {call : Call σ} (h : call.isQuestion) :
    call.published? = none := by
  cases call with
  | publish event world => cases h
  | _ => rfl

theorem Call.logged?_of_isQuestion {call : Call σ} (h : call.isQuestion) : call.logged? = none := by
  cases call with
  | log diagnostic => cases h
  | _ => rfl

namespace Run

variable {progress : Progress}

/-- What a callback does before its announcement is to ask a question. -/
theorem asks_of_ne_announce (parties : Parties σ) (p : Params)
    (h : ∀ verdict, progress ≠ .announce verdict) (r : Recorded σ) :
    ∃ question : Call σ, question.isQuestion ∧
      ((suspended p progress).resume parties.recorded r).1.calls = r.calls ++ [question] := by
  cases progress with
  | exchange code => exact ⟨.exchange code parties.redirectUri _, rfl, rfl⟩
  | verify token => exact ⟨.verify token _, rfl, rfl⟩
  | announce verdict => exact absurd rfl (h verdict)

/-- A callback that is announced is finished with it. -/
theorem finishes_announce (parties : Parties σ) (p : Params) (verdict : Verdict) (r : Recorded σ) :
    (suspended p (.announce verdict)).Finishes parties r verdict.outcome
      (parties.recorded.announce p verdict r) :=
  .resumed (parties.recorded.announce p verdict r).world rfl .finished

/-- A run with a deadline is cut off, and then it has asked questions and done nothing else, or it
is a run to the end. -/
theorem asked_or_finishes (parties : Parties σ) {steps : Nat} (run : Run)
    (left : Option Duration) (r : Recorded σ) (hsteps : run.stepsLeft ≤ steps) :
    (∃ t questions, Delayed.workWithin (resume parties.recorded) outcome? steps left run r =
        (t, none) ∧ t.calls = r.calls ++ questions ∧ ∀ call ∈ questions, call.isQuestion) ∨
    ∃ t outcome, Delayed.workWithin (resume parties.recorded) outcome? steps left run r =
        (t, some outcome) ∧ run.Finishes parties r outcome t := by
  induction steps generalizing run left r with
  | zero =>
    by_cases hover : left = some 0
    · subst hover
      exact .inl ⟨r, [], Delayed.workWithin_over, by simp, by simp⟩
    · cases run with
      | finished outcome =>
        exact .inr ⟨r, outcome, Delayed.workWithin_of_result hover rfl, .finished⟩
      | suspended p progress => exact absurd hsteps (Nat.not_le.2 (stepsLeft_pos p progress))
  | succ steps ih =>
    by_cases hover : left = some 0
    · subst hover
      exact .inl ⟨r, [], Delayed.workWithin_over, by simp, by simp⟩
    cases run with
    | finished outcome =>
      exact .inr ⟨r, outcome, Delayed.workWithin_of_result hover rfl, .finished⟩
    | suspended p progress =>
      by_cases hannounce : ∃ verdict, progress = .announce verdict
      · -- The one step that waits for nothing: there is no moment behind it to be cut off at.
        obtain ⟨verdict, rfl⟩ := hannounce
        exact .inr ⟨_, _, workWithin_announce (pos_of_ne_zero hover) verdict steps,
          finishes_announce parties p verdict r⟩
      · rw [not_exists] at hannounce
        obtain ⟨question, hquestion, hcalls⟩ := asks_of_ne_announce parties p hannounce r
        obtain ⟨⟨r', next⟩, hstep⟩ :
            ∃ x, (suspended p progress).resume parties.recorded r = x := ⟨_, rfl⟩
        rw [hstep] at hcalls
        have hasked : ∀ call ∈ [question], call.isQuestion := by simpa using hquestion
        cases next with
        | never =>
          exact .inl ⟨r', _, Delayed.workWithin_of_never hover rfl hstep, hcalls, hasked⟩
        | after delay next =>
          by_cases hleft : ∀ time ∈ left, delay < time
          · rw [Delayed.workWithin_of_step hleft rfl hstep]
            have hless := stepsLeft_resume hstep
            obtain ⟨t, questions, ht, htcalls, hquestions⟩ | ⟨t, outcome, ht, hrest⟩ :=
              ih next (left.map (· - delay)) r' (by omega)
            · refine .inl ⟨t, question :: questions, ht, ?_, ?_⟩
              · rw [htcalls, hcalls, List.append_assoc, List.singleton_append]
              · simpa [hquestion] using hquestions
            · exact .inr ⟨t, outcome, ht, .resumed r'.world hstep hrest⟩
          · exact .inl ⟨r', _, Delayed.workWithin_of_late hover hleft rfl hstep, hcalls, hasked⟩

end Run

/-! ### Quick answers -/

/-- An exchange takes at most the one time and a verification at most the other. -/
structure Parties.AnswersWithin (parties : Parties σ) (exchange verify : Duration) : Prop where
  exchange : ∀ code redirectUri s, ∃ s' delay answer,
    parties.exchange code redirectUri s = (s', .after delay answer) ∧ delay ≤ exchange
  verify : ∀ token s, ∃ s' delay answer,
    parties.verify token s = (s', .after delay answer) ∧ delay ≤ verify

section Quick

variable {parties : Parties σ} {p : Params} {exchange verify : Duration} {left : Option Duration}

theorem Run.inTime_announce (hleft : ∀ time ∈ left, 0 < time) (verdict : Verdict) (s : σ)
    (steps : Nat) :
    (Delayed.workWithin (resume parties) outcome? (steps + 1) left
      (suspended p (.announce verdict)) s).2.isSome := by
  rw [workWithin_announce hleft]
  rfl

/-- A token that is verified in time. -/
theorem Run.inTime_verify_of_answer {token : String} {s s' : σ} {delay : Duration}
    {answer : Except BrokerError String} (hanswer : parties.verify token s = (s', .after delay answer))
    (htime : ∀ time ∈ left, delay < time) (steps : Nat) :
    (Delayed.workWithin (resume parties) outcome? (steps + 2) left
      (suspended p (.verify token)) s).2.isSome := by
  have hstep : (suspended p (.verify token)).resume parties s =
      (s', .after delay (.suspended p (.announce (.ofAnswer answer)))) := by
    rw [resume, hanswer, ← Progress.afterVerify_eq]
    rfl
  rw [Delayed.workWithin_of_step htime rfl hstep]
  exact inTime_announce (pos_of_mem_remaining htime) _ s' steps

/-- A code that is exchanged in time, if there is time left for the token. -/
theorem Run.inTime_exchange_of_answer {code : String} {s s' : σ} {delay : Duration}
    {answer : Except ExchangeError Token.Grant} (steps : Nat)
    (hanswer : parties.exchange code parties.redirectUri s = (s', .after delay answer))
    (htime : ∀ time ∈ left, delay < time)
    (hverify : ∀ grant, answer = .ok grant → (Delayed.workWithin (resume parties) outcome?
      (steps + 2) (left.map (· - delay)) (suspended p (.verify grant.idToken)) s').2.isSome) :
    (Delayed.workWithin (resume parties) outcome? (steps + 3) left
      (suspended p (.exchange code)) s).2.isSome := by
  have hstep : (suspended p (.exchange code)).resume parties s =
      (s', .after delay (.suspended p (.afterExchange answer))) := by
    rw [resume, hanswer]
    rfl
  rw [Delayed.workWithin_of_step htime rfl hstep]
  cases answer with
  | ok grant => exact hverify grant rfl
  | error error => exact inTime_announce (pos_of_mem_remaining htime) _ s' (steps + 1)

theorem Run.inTime_verify (h : parties.AnswersWithin exchange verify)
    (hleft : ∀ time ∈ left, verify < time) (token : String) (s : σ) (steps : Nat) :
    (Delayed.workWithin (resume parties) outcome? (steps + 2) left
      (suspended p (.verify token)) s).2.isSome := by
  obtain ⟨s', delay, answer, hanswer, hdelay⟩ := h.verify token s
  exact inTime_verify_of_answer hanswer
    (fun time htime => Nat.lt_of_le_of_lt hdelay (hleft time htime)) steps

theorem Run.inTime_exchange (h : parties.AnswersWithin exchange verify)
    (hleft : ∀ time ∈ left, exchange + verify < time) (code : String) (s : σ) (steps : Nat) :
    (Delayed.workWithin (resume parties) outcome? (steps + 3) left
      (suspended p (.exchange code)) s).2.isSome := by
  obtain ⟨s', delay, answer, hanswer, hdelay⟩ := h.exchange code parties.redirectUri s
  have htime : ∀ time ∈ left, delay < time := fun time htime =>
    Nat.lt_of_le_of_lt (Nat.le_trans hdelay (Nat.le_add_right ..)) (hleft time htime)
  have hrest : ∀ time ∈ left.map (· - delay), verify < time := by
    intro time htime
    obtain ⟨before, hbefore, rfl⟩ := Option.map_eq_some_iff.1 htime
    have hsum : delay + verify < before :=
      Nat.lt_of_le_of_lt (Nat.add_le_add_right hdelay verify) (hleft before hbefore)
    exact Nat.lt_sub_of_add_lt (Nat.add_comm delay verify ▸ hsum)
  exact inTime_exchange_of_answer steps hanswer htime fun grant _ =>
    inTime_verify h hrest grant.idToken s' steps

/-- Quick answers are enough for a callback to come to its end. -/
theorem isSome_handle (h : parties.AnswersWithin exchange verify)
    (hleft : ∀ time ∈ left, exchange + verify < time) (p : Params) (s : σ) :
    (handle parties left p s).2.isSome := by
  have hverify : ∀ time ∈ left, verify < time :=
    fun time htime => Nat.lt_of_le_of_lt (Nat.le_add_left ..) (hleft time htime)
  have hpos : ∀ time ∈ left, 0 < time :=
    fun time htime => Nat.lt_of_le_of_lt (Nat.zero_le _) (hleft time htime)
  rw [handle, Run.start, Progress.start]
  cases p.signal with
  | brokerError error description => exact Run.inTime_announce hpos _ s 0
  | idToken token => exact Run.inTime_verify h hverify token s 0
  | code code => exact Run.inTime_exchange h hleft code s 0
  | empty => exact Run.inTime_verify h hverify "" s 0

end Quick

end Callback

namespace Party

open Http

/-- The same service, with a record of its calls. -/
def Service.recorded (service : Service σ) : Service (Callback.Recorded σ) where
  toParties := service.toParties.recorded
  authenticate identifier r :=
    let (world, answer) := service.authenticate identifier r.world
    (⟨world, r.calls⟩, answer)
  requestTimeout := service.requestTimeout

/-- The callback of a request: that of its query, and of a `POST` request rather that of its
body, which may have broken off. -/
def Job.callbackOf (request : Request) (fault : Option String := none) : Callback.Params :=
  if request.method = "POST" then postedCallback request fault else .ofForm request.queryForm

/-- No query and no body keeps a request from being a callback. -/
theorem Job.start_verify {request : Request} (hpath : request.path = "/verify")
    (hmethod : request.method ∈ ["GET", "HEAD", "POST"]) (fault : Option String) :
    start request fault = .callback (.start (callbackOf request fault)) := by
  rw [start, Route.dispatch, hpath]
  simp only [List.mem_cons, List.not_mem_nil, or_false] at hmethod
  rcases hmethod with hget | hhead | hpost
  · rw [callbackOf, hget]
    rfl
  · rw [callbackOf, hhead]
    rfl
  · rw [callbackOf, hpost]
    rfl

/-- The status of the page for the end of a callback. -/
theorem Job.status_outcomeResponse (outcome : Callback.Outcome) (method : String) :
    ((outcomeResponse outcome).forMethod method).status =
      if outcome.isFailure then 500 else 200 := by
  rw [Response.forMethod]
  cases outcome <;> split <;> rfl

/-- **Announced and answered, or neither.** A request for `/verify`, whatever is in it, even if its
body broke off, however long the others take and whatever time it has, is answered in one of two
ways. Its time was up, and it
has only asked questions: no event was emitted and nothing was written into the log. Or its callback
came to an outcome, exactly one event was emitted, that of the outcome, and the answer is the page
of the outcome. If the others answer soon enough, the time is not up. -/
theorem Service.announced_or_timedOut (service : Service σ) (request : Request)
    (fault : Option String) (s : σ) (hpath : request.path = "/verify")
    (hmethod : request.method ∈ ["GET", "HEAD", "POST"]) :
    ∃ t response, service.recorded.serve request ⟨s, []⟩ fault = (t, response) ∧
      service.serve request s fault = (t.world, response) ∧
      ((response.status = 408 ∧ t.calls.filterMap Callback.Call.published? = [] ∧
          t.calls.filterMap Callback.Call.logged? = []) ∨
        ∃ outcome world,
          (Callback.Run.start (Job.callbackOf request fault)).Finishes service.toParties ⟨s, []⟩
            outcome t ∧
          t.calls.filterMap Callback.Call.published? =
            [(outcome.event (Job.callbackOf request fault), world)] ∧
          response = (Job.outcomeResponse outcome).forMethod request.method ∧
          response.status = if outcome.isFailure then 500 else 200) ∧
      ∀ exchange verify, service.AnswersWithin exchange verify →
        exchange + verify < service.requestTimeout → response.status ≠ 408 := by
  have hstart := Job.start_verify hpath hmethod fault
  obtain ⟨⟨t, outcome?⟩, ht⟩ : ∃ x, Callback.handle service.recorded.toParties
    (some service.recorded.requestTimeout) (Job.callbackOf request fault) ⟨s, []⟩ = x := ⟨_, rfl⟩
  have hrun : Callback.handle service.toParties (some service.requestTimeout)
      (Job.callbackOf request fault) s = (t.world, outcome?) := by
    have hview := Callback.handle_recorded service.toParties (some service.requestTimeout)
      (Job.callbackOf request fault) ⟨s, []⟩
    change _ = ((Callback.handle service.recorded.toParties _ _ _).1.world,
      (Callback.handle service.recorded.toParties _ _ _).2) at hview
    rw [hview]
    exact congrArg (fun x => (x.1.world, x.2)) ht
  refine ⟨t, ((outcome?.map Job.outcomeResponse).getD .timeout).forMethod request.method, ?_, ?_,
    ?_, ?_⟩
  · rw [Service.serve_callback _ _ hstart, ht]
  · rw [Service.serve_callback _ _ hstart, hrun]
  · obtain ⟨t', questions, ht', hcalls, hquestions⟩ | ⟨t', outcome, ht', hfinishes⟩ :=
      Callback.Run.asked_or_finishes service.toParties (.start (Job.callbackOf request fault))
        (some service.requestTimeout) ⟨s, []⟩ (Nat.le_refl _)
    · obtain ⟨rfl, rfl⟩ := Prod.mk.inj (ht.symm.trans ht')
      rw [List.nil_append] at hcalls
      refine .inl ⟨?_, ?_, ?_⟩
      · rw [Response.forMethod]
        split <;> rfl
      · rw [hcalls, List.filterMap_eq_nil_iff]
        exact fun call hcall => Callback.Call.published?_of_isQuestion (hquestions call hcall)
      · rw [hcalls, List.filterMap_eq_nil_iff]
        exact fun call hcall => Callback.Call.logged?_of_isQuestion (hquestions call hcall)
    · obtain ⟨rfl, rfl⟩ := Prod.mk.inj (ht.symm.trans ht')
      obtain ⟨questions, verdict, world, hdecision, houtcome, hcalls⟩ := hfinishes.calls
      refine .inr ⟨outcome, world, hfinishes, ?_, rfl, Job.status_outcomeResponse ..⟩
      rw [hcalls, List.filterMap_append, hdecision.filterMap_published?, List.nil_append,
        Callback.Parties.published_announcement, Callback.Verdict.event_eq, houtcome]
  · intro exchange verify hanswers htime
    have hleft : ∀ time ∈ some service.requestTimeout, exchange + verify < time := by
      simpa using htime
    have hsome := Callback.isSome_handle hanswers hleft (Job.callbackOf request fault) s
    rw [hrun] at hsome
    obtain ⟨outcome, rfl⟩ := Option.isSome_iff_exists.1 hsome
    show ((Job.outcomeResponse outcome).forMethod request.method).status ≠ 408
    rw [Job.status_outcomeResponse]
    split <;> decide

/-- A body that is no form, with nothing in the query, and a broker that rejects every token. -/
theorem announced_or_timedOut_unreadable :
    let service : Service Unit :=
      { Callback.Parties.ofAnswers "http://localhost:44180/verify" (fun _ _ => .ok ⟨""⟩)
          fun _ => .error .destroyed with
        authenticate := fun _ s => (s, .never)
        requestTimeout := .seconds 1 }
    let request : Request := ⟨"POST", "/verify", none, some "text/plain", [255]⟩
    request.path = "/verify" ∧ request.method ∈ ["GET", "HEAD", "POST"] ∧
      service.AnswersWithin 0 0 ∧ ∃ t response, ∃ outcome : Callback.Outcome,
        service.recorded.serve request ⟨(), []⟩ = (t, response) ∧
        t.calls.filterMap Callback.Call.published? =
          [(outcome.event (Job.callbackOf request), ())] ∧
        response.status = if outcome.isFailure then 500 else 200 := by
  intro service request
  have hmethod : request.method ∈ ["GET", "HEAD", "POST"] := by decide
  have hanswers : service.AnswersWithin 0 0 :=
    ⟨fun _ _ s => ⟨s, 0, _, rfl, Nat.le_refl 0⟩, fun _ s => ⟨s, 0, _, rfl, Nat.le_refl 0⟩⟩
  obtain ⟨t, response, hserve, -, hcases, hquick⟩ :=
    service.announced_or_timedOut request none () rfl hmethod
  refine ⟨rfl, hmethod, hanswers, t, response, ?_⟩
  rcases hcases with ⟨htimeout, -, -⟩ | ⟨outcome, world, -, hpublished, -, hstatus⟩
  · exact absurd htimeout (hquick 0 0 hanswers (by decide))
  · exact ⟨outcome, hserve, hpublished, hstatus⟩

end Party

end SignIn
