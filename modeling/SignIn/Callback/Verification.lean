import SignIn.Delayed
import SignIn.Event
import SignIn.Failure
import SignIn.Token.Grant

/-!
# Handling a callback

A callback is handled in at most three steps: a code is exchanged for a token, the token is
verified, and the outcome is announced. What the callback asks for decides where this starts, and
every failure leads straight to the announcement.

Exchange and verification are calls to others, who may take their time. In between the callback is
suspended, and anything may happen to the world around it. Everything that has to be remembered is
in `Run`; nothing about one callback is kept elsewhere. The last step announces the outcome and
produces it at once, so no callback is cut off between the two.

## Main definitions

* `Callback.Verdict` — how a callback ends, with its event, outcome and diagnostic
* `Callback.Progress` — what has to be done next
* `Callback.Parties` — the others: how codes are exchanged, tokens verified and events heard
* `Callback.Run`, `Callback.Run.resume` — one callback and one step of it
* `Callback.handle` — a whole callback without interruption
-/

namespace SignIn

/-- A failure that is worth a line in the log. -/
inductive Diagnostic where
  /-- The broker reported a failure. -/
  | brokerRefused (error description : String)
  /-- A code was not exchanged. -/
  | exchangeFailed (error : ExchangeError)
  /-- A token was rejected. -/
  | tokenRejected (error : BrokerError)
  /-- An authentication could not be started. -/
  | requestFailed (error : ServiceError)
  deriving DecidableEq, Repr

namespace Diagnostic

/-- The line in the log. -/
def message : Diagnostic → String
  | brokerRefused _ _ => "RP got an error from the broker"
  | exchangeFailed _ => "RP got an error from the token endpoint"
  | tokenRejected _ => "RP failed to verify token"
  | requestFailed _ => "RP request failed"

/-- The named texts that belong to the line. -/
def fields : Diagnostic → List (String × String)
  | brokerRefused error description => [("error", error), ("description", description)]
  | exchangeFailed error => [("error", error.message)]
  | tokenRejected error => [("error", error.message)]
  | requestFailed error => [("error", error.message)]

end Diagnostic

namespace Callback

/-- What a callback came to. -/
inductive Outcome where
  /-- The broker or its token endpoint reported a failure. -/
  | gotError
  /-- The token was rejected. -/
  | invalidToken
  /-- The token asserts this identity. -/
  | verified (identity : String)
  deriving DecidableEq, Repr

/-- How a callback ends, and why. -/
inductive Verdict where
  /-- The callback itself reports a failure. -/
  | refused (error description : String)
  /-- The code was not exchanged. -/
  | exchangeFailed (error : ExchangeError)
  /-- The token was rejected. -/
  | rejected (error : BrokerError)
  /-- The token asserts this identity. -/
  | accepted (identity : String)
  deriving DecidableEq, Repr

namespace Verdict

/-- What the callback came to. -/
def outcome : Verdict → Outcome
  | refused _ _ | exchangeFailed _ => .gotError
  | rejected _ => .invalidToken
  | accepted identity => .verified identity

/-- How it is announced. -/
def event (p : Params) : Verdict → Event
  | refused _ _ | exchangeFailed _ => .gotError p
  | rejected _ => .invalidToken p
  | accepted identity => .verified identity

/-- What is logged if nobody listens. -/
def diagnostic? : Verdict → Option Diagnostic
  | refused error description => some (.brokerRefused error description)
  | exchangeFailed error => some (.exchangeFailed error)
  | rejected error => some (.tokenRejected error)
  | accepted _ => none

end Verdict

/-- What has to be done next for a callback. -/
inductive Progress where
  /-- A code is to be exchanged. -/
  | exchange (code : String)
  /-- A token is to be verified. -/
  | verify (token : String)
  /-- The verdict is to be announced. -/
  | announce (verdict : Verdict)
  deriving DecidableEq, Repr

namespace Progress

/-- The start of a callback. Without any signal the token is empty, and is verified like any
other. -/
def start (p : Params) : Progress :=
  match p.signal with
  | .brokerError error description => .announce (.refused error description)
  | .idToken token => .verify token
  | .code code => .exchange code
  | .empty => .verify ""

/-- What follows from the answer to an exchange. -/
def afterExchange : Except ExchangeError Token.Grant → Progress
  | .ok grant => .verify grant.idToken
  | .error error => .announce (.exchangeFailed error)

/-- What follows from the answer to a verification. -/
def afterVerify : Except BrokerError String → Progress
  | .ok identity => .announce (.accepted identity)
  | .error error => .announce (.rejected error)

end Progress

/-- The others that take part in handling a callback, in a world of type `σ`. -/
structure Parties (σ : Type) where
  /-- Where the broker sends the browser back to. -/
  redirectUri : String
  /-- Exchanges a code that was issued for a redirect URI. -/
  exchange : (code redirectUri : String) → σ → σ × Delayed (Except ExchangeError Token.Grant)
  /-- Verifies a token. -/
  verify : (token : String) → σ → σ × Delayed (Except BrokerError String)
  /-- Delivers an event and tells how many listeners it had. -/
  publish : Event → σ → σ × Nat
  /-- Writes a line into the log. -/
  log : Diagnostic → σ → σ

variable {σ : Type}

/-- Announces a verdict, and logs it if it is a failure that nobody listens to. -/
def Parties.announce (parties : Parties σ) (p : Params) (verdict : Verdict) (s : σ) : σ :=
  let (s, heard) := parties.publish (verdict.event p) s
  match heard, verdict.diagnostic? with
  | 0, some diagnostic => parties.log diagnostic s
  | _, _ => s

/-- One callback: suspended, with the next thing to be done when it is resumed, or finished. -/
inductive Run where
  | suspended (params : Params) (progress : Progress)
  | finished (outcome : Outcome)
  deriving DecidableEq, Repr

namespace Run

/-- A callback that has just come in. -/
def start (p : Params) : Run := .suspended p (.start p)

/-- Does the next thing for a callback. The result is when it can be resumed, and as what. -/
def resume (parties : Parties σ) (run : Run) (s : σ) : σ × Delayed Run :=
  match run with
  | .finished outcome => (s, .now (.finished outcome))
  | .suspended p (.exchange code) =>
    let (s, answer) := parties.exchange code parties.redirectUri s
    (s, answer.map fun a => .suspended p (.afterExchange a))
  | .suspended p (.verify token) =>
    let (s, answer) := parties.verify token s
    (s, answer.map fun a => .suspended p (.afterVerify a))
  | .suspended p (.announce verdict) =>
    (parties.announce p verdict s, .now (.finished verdict.outcome))

/-- The most steps that a callback can still take. -/
def stepsLeft : Run → Nat
  | .suspended _ (.exchange _) => 3
  | .suspended _ (.verify _) => 2
  | .suspended _ (.announce _) => 1
  | .finished _ => 0

/-- What a finished callback came to. -/
def outcome? : Run → Option Outcome
  | .suspended _ _ => none
  | .finished outcome => some outcome

end Run

/-- Handles a callback to its end, if it comes before the deadline. -/
def handle (parties : Parties σ) (deadline : Option Duration) (p : Params) (s : σ) :
    σ × Option Outcome :=
  let run := Run.start p
  Delayed.workWithin (Run.resume parties) Run.outcome? run.stepsLeft deadline run s

end Callback

end SignIn
