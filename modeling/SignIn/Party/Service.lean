import SignIn.Callback.Verification
import SignIn.Http.Fields
import SignIn.Page
import SignIn.Url.Basic

/-!
# What the relying party serves

A relying party has three targets: a login page, the start of an authentication and the callback.
Most requests are answered at once. Those that involve others become a job, which is done in steps
and cut off when the time for a request is up.

The body of a callback may be anything. What cannot be read as a form counts as an empty form, and
an empty form makes room for the query, so no callback is refused, not even when its body breaks
off. A callback whose target is too long to be read does not come to the relying party at all.

A failure shows the browser that there was one and nothing else; the rest is for the log and the
listeners.

## Main definitions

* `Party.Service` — the others that take part, and the time for a request
* `Party.Job` — a request that is being handled
* `Party.Service.serve` — the answer to a request
* `Party.Job.receive`, `Party.Service.receive` — the same for a request that comes in
-/

namespace SignIn.Party

open Http

/-- All that a relying party works with, in a world of type `σ`. -/
structure Service (σ : Type) extends Callback.Parties σ where
  /-- The URL at which the broker starts an authentication. -/
  authenticate : (identifier : String) → σ → σ × Delayed (Except BrokerError Url)
  /-- How long a request may take. -/
  requestTimeout : Duration

/-- The time for a request, if nothing else is said. -/
def defaultRequestTimeout : Duration := .seconds 30

/-- A request that is being handled. -/
inductive Job where
  /-- An authentication is to be started. -/
  | authenticate (identifier : String)
  /-- The broker has answered. -/
  | authenticated (answer : Except BrokerError Url)
  /-- A callback is being handled. -/
  | callback (run : Callback.Run)
  /-- The answer is there. -/
  | answered (response : Response)

namespace Job

/-- The page for the end of a callback. -/
def outcomeResponse : Callback.Outcome → Response
  | .verified identity => .html 200 (Page.confirmed identity)
  | .gotError => .html 500 Page.gotError
  | .invalidToken => .html 500 Page.invalidToken

/-- The callback of a `POST` request: its body if that is a form with a field in it, its query
otherwise. -/
def postedCallback (r : Request) (fault : Option String := none) : Callback.Params :=
  Callback.Params.merge ((r.bodyForm fault).toOption.getD []) r.queryForm

/-- The job of a `POST` request to start an authentication. -/
def startAuth (r : Request) (fault : Option String := none) : Job :=
  match r.bodyFields [.withDefault "email"] fault with
  | .ok values => .authenticate (values.headD "")
  | .error rejection => .answered rejection.response

/-- The targets of a relying party. -/
def routes (fault : Option String := none) : List (String × Route Job) := [
  ("/", { get := some fun _ => .answered (.html 200 Page.login) }),
  ("/auth", { post := some fun r => startAuth r fault }),
  ("/verify",
    { get := some fun r => .callback (.start (.ofForm r.queryForm))
      post := some fun r => .callback (.start (postedCallback r fault)) })]

/-- The job of a request that was read. Its body may have broken off. -/
def start (r : Request) (fault : Option String := none) : Job :=
  Route.dispatch (routes fault) .answered r

/-- The job of a request that comes in. -/
def receive (r : Request) (fault : Option String := none) : Job :=
  r.receive (start · fault) .answered

/-- The answer, once it is there. -/
def response? : Job → Option Response
  | answered response => some response
  | _ => none

/-- The most steps that a job can still take. -/
def stepsLeft : Job → Nat
  | authenticate _ => 2
  | authenticated _ => 1
  | callback run => run.stepsLeft + 1
  | answered _ => 0

variable {σ : Type}

/-- Does the next step of a job. -/
def resume (service : Service σ) (job : Job) (s : σ) : σ × Delayed Job :=
  match job with
  | answered response => (s, .now (.answered response))
  | authenticate identifier =>
    let (s, answer) := service.authenticate identifier s
    (s, answer.map .authenticated)
  | authenticated (.ok url) => (s, .now (.answered (.redirect url.toText)))
  | authenticated (.error e) =>
    (service.log (.requestFailed (.broker e)) s, .now (.answered (.html 500 Page.error)))
  | callback (.finished outcome) => (s, .now (.answered (outcomeResponse outcome)))
  | callback run =>
    let (s, run) := run.resume service.toParties s
    (s, run.map .callback)

end Job

namespace Service

variable {σ : Type}

/-- The answer to a request that was read: that of its job, if it comes in time. -/
def serve (service : Service σ) (request : Request) (s : σ) (fault : Option String := none) :
    σ × Response :=
  let job := Job.start request fault
  let (s, response) := Delayed.workWithin (Job.resume service) Job.response? job.stepsLeft
    (some service.requestTimeout) job s
  (s, (response.getD .timeout).forMethod request.method)

/-- The answer to a request that comes in. -/
def receive (service : Service σ) (request : Request) (s : σ) (fault : Option String := none) :
    σ × Response :=
  request.receive (service.serve · s fault) (s, ·)

end Service

end SignIn.Party
