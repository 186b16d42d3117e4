import SignIn.Party.Service
import SignIn.Proofs.Callback.Calls
import SignIn.Proofs.Callback.Outcome
import SignIn.Proofs.Http.Fields

/-!
# Callbacks in requests

What a browser is shown at the end of a callback tells how the callback was handled, and nothing is
lost between the form that it brings and the callback. That is about requests that were read; one
that comes in is read if its target is not too long.

## Main results

* `Party.Job.start_of_query`, `Party.Job.start_post`, `Party.Job.start_postForm`,
  `Party.Job.start_postForm_of_long` — the callback of a request
* `Party.Service.serve_callback` — its answer shows what the callback came to
-/

namespace SignIn.Party

open Http

variable {σ : Type} {request : Request} {fault : Option String} {form : Form} {p : Callback.Params}

/-! ### From the request to the callback -/

theorem Job.receive_of_isReadable (h : request.IsReadable) (fault : Option String) :
    receive request fault = start request fault :=
  Request.receive_of_isReadable h

theorem Service.receive_of_isReadable (service : Service σ) (h : request.IsReadable) (s : σ)
    (fault : Option String) : service.receive request s fault = service.serve request s fault :=
  Request.receive_of_isReadable h

/-- A callback in a query. -/
theorem Job.start_of_query (hmethod : request.method = "GET") (hpath : request.path = "/verify")
    (hform : request.queryForm = form) : start request = .callback (.start (.ofForm form)) := by
  rw [start, Route.dispatch, hpath, hmethod, ← hform]
  rfl

theorem Job.start_post (hmethod : request.method = "POST") (hpath : request.path = "/verify") :
    start request fault = .callback (.start (postedCallback request fault)) := by
  rw [start, Route.dispatch, hpath, hmethod]
  rfl

/-- With a field in the body, the body counts. -/
theorem Job.postedCallback_of_bodyForm (h : request.bodyForm = .ok form) (hform : form ≠ []) :
    postedCallback request = .ofForm form := by
  obtain ⟨pair, pairs, rfl⟩ := List.exists_cons_of_ne_nil hform
  rw [postedCallback, h]
  rfl

theorem Job.path_postForm (form : Form) : (Request.postForm "/verify" form).path = "/verify" := by
  have hpath : (Request.ofTarget "POST" "/verify").path = "/verify" := by decide
  exact hpath

theorem Job.isReadable_postForm (form : Form) : (Request.postForm "/verify" form).IsReadable :=
  Request.isReadable_postForm (by decide +kernel) form

/-- A callback in a posted form that is short enough. -/
theorem Job.start_postForm (hform : form ≠ [])
    (h : (Request.postForm "/verify" form).body.length ≤ Request.bodyLimit) :
    start (Request.postForm "/verify" form) = .callback (.start (.ofForm form)) := by
  rw [start_post rfl (path_postForm form),
    postedCallback_of_bodyForm (Request.bodyForm_postForm h) hform]

/-- A posted form that is too long is no callback of its own. -/
theorem Job.start_postForm_of_long
    (h : Request.bodyLimit < (Request.postForm "/verify" form).body.length) :
    start (Request.postForm "/verify" form) = .callback (.start (.ofForm [])) := by
  have hquery : (Request.ofTarget "POST" "/verify").query = none := by decide
  have hempty : (Request.postForm "/verify" form).queryForm = [] := by
    rw [Request.queryForm, Request.postForm, hquery]
    exact Form.ofText_empty
  rw [start_post rfl (path_postForm form), postedCallback, Request.bodyForm_of_long rfl h, hempty]
  rfl

/-! ### From the callback to the answer -/

/-- A callback that is finished only has to be answered. -/
theorem Job.workWithin_finished (service : Service σ) (steps : Nat) (outcome : Callback.Outcome)
    (left : Option Duration) (s : σ) :
    Delayed.workWithin (resume service) response? (steps + 1) left
        (.callback (.finished outcome)) s =
      ((Delayed.workWithin (Callback.Run.resume service.toParties) Callback.Run.outcome? steps left
          (.finished outcome) s).1,
        (Delayed.workWithin (Callback.Run.resume service.toParties) Callback.Run.outcome? steps left
          (.finished outcome) s).2.map outcomeResponse) := by
  by_cases hover : left = some 0
  · rw [hover, Delayed.workWithin_over, Delayed.workWithin_over]
    rfl
  · have hleft := Callback.pos_of_ne_zero hover
    have hrest := Callback.remaining_ne_zero hleft
    have hfinished : Callback.Run.outcome? (.finished outcome) = some outcome := rfl
    have hanswered : response? (.answered (outcomeResponse outcome)) =
        some (outcomeResponse outcome) := rfl
    have hstep : resume service (.callback (.finished outcome)) s =
        (s, .after 0 (.answered (outcomeResponse outcome))) := rfl
    rw [Delayed.workWithin_of_result hover hfinished, Delayed.workWithin_of_step hleft rfl hstep,
      Delayed.workWithin_of_result hrest hanswered]
    rfl

/-- A job does for a callback what is to be done, and then answers. -/
theorem Job.workWithin_callback (service : Service σ) {steps : Nat} {run : Callback.Run}
    (hsteps : run.stepsLeft ≤ steps) (left : Option Duration) (s : σ) :
    Delayed.workWithin (resume service) response? (steps + 1) left (.callback run) s =
      ((Delayed.workWithin (Callback.Run.resume service.toParties) Callback.Run.outcome? steps left
          run s).1,
        (Delayed.workWithin (Callback.Run.resume service.toParties) Callback.Run.outcome? steps left
          run s).2.map outcomeResponse) := by
  induction steps generalizing run left s with
  | zero =>
    cases run with
    | finished outcome => exact workWithin_finished service 0 outcome left s
    | suspended p progress => cases progress <;> simp [Callback.Run.stepsLeft] at hsteps
  | succ steps ih =>
    cases run with
    | finished outcome => exact workWithin_finished service (steps + 1) outcome left s
    | suspended p progress =>
      by_cases hover : left = some 0
      · rw [hover, Delayed.workWithin_over, Delayed.workWithin_over]
        rfl
      obtain ⟨⟨s', next⟩, hrun⟩ :
          ∃ x, Callback.Run.resume service.toParties (.suspended p progress) s = x := ⟨_, rfl⟩
      have hjob : resume service (.callback (.suspended p progress)) s =
          (s', next.map Job.callback) := by
        show ((Callback.Run.resume service.toParties (.suspended p progress) s).1,
          (Callback.Run.resume service.toParties (.suspended p progress) s).2.map Job.callback) = _
        rw [hrun]
      cases next with
      | never =>
        rw [Delayed.workWithin_of_never hover rfl hrun, Delayed.workWithin_of_never hover rfl hjob]
        rfl
      | after delay next =>
        by_cases hleft : ∀ time ∈ left, delay < time
        · have hless := Callback.Run.stepsLeft_resume hrun
          rw [Delayed.workWithin_of_step hleft rfl hrun, Delayed.workWithin_of_step hleft rfl hjob]
          exact ih (by omega) _ s'
        · rw [Delayed.workWithin_of_late hover hleft rfl hrun,
            Delayed.workWithin_of_late hover hleft rfl hjob]
          rfl

/-- The answer to a callback shows what it came to, unless it comes too late. -/
theorem Service.serve_callback (service : Service σ) (s : σ)
    (h : Job.start request fault = .callback (.start p)) :
    service.serve request s fault =
      ((Callback.handle service.toParties (some service.requestTimeout) p s).1,
        (((Callback.handle service.toParties (some service.requestTimeout) p s).2.map
          Job.outcomeResponse).getD .timeout).forMethod request.method) := by
  have hwork := Job.workWithin_callback service (Nat.le_refl (Callback.Run.start p).stepsLeft)
    (some service.requestTimeout) s
  simp only [serve, h, Job.stepsLeft, hwork]
  rfl

end SignIn.Party
