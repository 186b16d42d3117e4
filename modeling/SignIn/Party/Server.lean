import SignIn.Party.Service

/-!
# The life of a relying party

A relying party serves until it is destroyed. From the first `destroy` on it accepts no request any
more, but those that are in flight go on as if nothing had happened, with a broker client that is
still alive. Only when the last of them is answered, the broker client is torn down, and the first
`destroy` is over. Further calls of `destroy` do nothing and do not wait.

A relying party that is dropped without being destroyed stops serving as well, but nobody tears its
broker client down.

What happens to a relying party is a sequence of *occurrences*: requests come in, jobs take a step,
somebody registers a listener, `destroy` is called. They can come in any order. What a call of
`destroy` waits for is an occurrence of its own. Only a request that was read is an occurrence: one
with a target that is too long is answered by the server, and nothing happens here.

A call of `destroy` waits for some seconds at most, and gives up what is in flight then. That is
left out: here it waits until everything is answered.

## Main definitions

* `Party.Server` — a relying party in its life
* `Party.Server.accept`, `Party.Server.resume`, `Party.Server.destroy`, `Party.Server.finish`
* `Party.Server.Occurrence`, `Party.Server.step` — anything that can happen, in one function
* `Party.Server.run` — anything that can happen, one after the other
-/

namespace SignIn.Party

open Http

/-- How far the life of a relying party has come. -/
inductive Phase where
  /-- Requests are accepted. -/
  | serving
  /-- The first `destroy` waits for the requests in flight. -/
  | draining
  /-- The broker client is torn down. -/
  | destroyed
  /-- It was dropped. -/
  | dropped
  deriving DecidableEq, Repr

/-- A request in flight. -/
structure InFlight where
  /-- The number of the request, counted from the start. -/
  ticket : Nat
  method : String
  job : Job

/-- A relying party in its life, in a world of type `σ`. -/
structure Server (σ : Type) where
  phase : Phase
  /-- How many requests were accepted. -/
  accepted : Nat
  inFlight : List InFlight
  world : σ

namespace Server

variable {σ : Type}

/-- A relying party that has just started. -/
def launch (world : σ) : Server σ := ⟨.serving, 0, [], world⟩

/-- Whether `destroy` was called. -/
def isDestroyed (s : Server σ) : Bool := s.phase == .draining || s.phase == .destroyed

/-- Accepts a request that was read, if the relying party still serves; the result is its ticket. -/
def accept (request : Request) (s : Server σ) (fault : Option String := none) :
    Option Nat × Server σ :=
  match s.phase with
  | .serving =>
    (some s.accepted,
      { s with
        accepted := s.accepted + 1
        inFlight := s.inFlight ++ [⟨s.accepted, request.method, .start request fault⟩] })
  | _ => (none, s)

/-- The request in flight with this ticket. -/
def find? (s : Server σ) (ticket : Nat) : Option InFlight := s.inFlight.find? (·.ticket == ticket)

/-- Without the request that has this ticket. -/
def remove (s : Server σ) (ticket : Nat) : Server σ :=
  { s with inFlight := s.inFlight.filter (·.ticket ≠ ticket) }

/-- Answers a request in flight whose time is up. -/
def cutOff (ticket : Nat) (s : Server σ) : Option Response × Server σ :=
  match s.find? ticket with
  | some r => (some (Response.timeout.forMethod r.method), s.remove ticket)
  | none => (none, s)

/-- Lets a request in flight take its next step; the result is its answer, once it is there. -/
def resume (service : Service σ) (ticket : Nat) (s : Server σ) : Option Response × Server σ :=
  match s.find? ticket with
  | none => (none, s)
  | some r =>
    match r.job.response? with
    | some response => (some (response.forMethod r.method), s.remove ticket)
    | none =>
      let (world, next) := r.job.resume service s.world
      let s := { s with world }
      match next with
      | .after _ job =>
        let advance (q : InFlight) : InFlight := if q.ticket = ticket then { q with job } else q
        (none, { s with inFlight := s.inFlight.map advance })
      | .never => (none, s)

/-- The start of a `destroy`. -/
def destroy (s : Server σ) : Server σ :=
  match s.phase with
  | .serving => { s with phase := .draining }
  | _ => s

/-- The end of the first `destroy`: nothing is in flight any more, and the broker client is torn
down. -/
def finish (tearDown : σ → σ) (s : Server σ) : Server σ :=
  if s.phase = .draining ∧ s.inFlight.isEmpty then
    { s with phase := .destroyed, world := tearDown s.world }
  else s

/-- Drops the relying party. -/
def drop (s : Server σ) : Server σ :=
  match s.phase with
  | .serving => { s with phase := .dropped }
  | _ => s

/-- Serves one request that was read from its acceptance to its answer, with nothing in between. -/
def serve (service : Service σ) (request : Request) (s : Server σ) (fault : Option String := none) :
    Option Response × Server σ :=
  match s.phase with
  | .serving =>
    let (world, response) := service.serve request s.world fault
    (some response, { s with accepted := s.accepted + 1, world })
  | _ => (none, s)

/-! ### Anything that can happen -/

/-- What can happen to a relying party. -/
inductive Occurrence (σ : Type) where
  /-- A request was read, whose body may have broken off. -/
  | request (request : Request) (fault : Option String := none)
  /-- A request in flight takes its next step. -/
  | resume (ticket : Nat)
  /-- The time of a request in flight is up. -/
  | cutOff (ticket : Nat)
  /-- Something else changes the world: a listener is registered, an event is emitted. -/
  | change (change : σ → σ)
  /-- `destroy` is called. -/
  | destroy
  /-- The first `destroy` is over. -/
  | finish

/-- What an occurrence brings about: an answer with its ticket, if it is the answer to a request. -/
def step (service : Service σ) (tearDown : σ → σ) (o : Occurrence σ) (s : Server σ) :
    Option (Nat × Response) × Server σ :=
  match o with
  | .request r fault => (none, (s.accept r fault).2)
  | .resume ticket =>
    let (answer, s) := s.resume service ticket
    (answer.map (ticket, ·), s)
  | .cutOff ticket =>
    let (answer, s) := s.cutOff ticket
    (answer.map (ticket, ·), s)
  | .change f => (none, { s with world := f s.world })
  | .destroy => (none, s.destroy)
  | .finish => (none, s.finish tearDown)

/-- What a sequence of occurrences brings about: the answers in their order, and what the relying
party has come to. -/
def run (service : Service σ) (tearDown : σ → σ) :
    List (Occurrence σ) → Server σ → List (Nat × Response) × Server σ
  | [], s => ([], s)
  | o :: os, s =>
    let (answer, s) := s.step service tearDown o
    let (answers, s) := run service tearDown os s
    (answer.toList ++ answers, s)

end Server

end SignIn.Party
