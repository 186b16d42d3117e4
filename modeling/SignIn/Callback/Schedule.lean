import SignIn.Callback.Verification

/-!
# Callbacks at the same time

Several callbacks are handled at once over the same parties. Each goes on until it has to wait, in
the order in which they came in. After that the one whose waiting ends first is resumed, and goes on
until it has to wait again; of two whose waiting ends at the same time, the one that came in first.

## Main definitions

* `Callback.Schedule` — the callbacks that wait, and the outcomes so far
* `Callback.handleAll` — handles callbacks at the same time
-/

namespace SignIn.Callback

/-- A callback that waits. -/
structure Waiting where
  /-- Its place among the callbacks that came in. -/
  index : Nat
  wakesAt : Nat
  run : Run
  deriving Repr

/-- Whether the waiting of `a` ends before that of `b`. -/
def Waiting.isBefore (a b : Waiting) : Bool :=
  a.wakesAt < b.wakesAt || (a.wakesAt == b.wakesAt && a.index < b.index)

/-- Callbacks that are handled at the same time. -/
structure Schedule where
  /-- Those that wait. -/
  waiting : List Waiting
  /-- Those that are finished. -/
  finished : List (Nat × Outcome)
  deriving Repr

namespace Schedule

variable {σ : Type}

/-- Lets a callback go on from time `now` until it waits or is finished. -/
def goOn (parties : Parties σ) (index now : Nat) :
    (steps : Nat) → Run → Schedule → σ → Schedule × σ
  | _, .finished outcome, q, s => ({ q with finished := q.finished ++ [(index, outcome)] }, s)
  | 0, run, q, s => ({ q with waiting := q.waiting ++ [⟨index, now, run⟩] }, s)
  | steps + 1, run, q, s =>
    match run.resume parties s with
    | (s, .never) => (q, s)
    | (s, .after 0 run) => goOn parties index now steps run q s
    | (s, .after delay run) =>
      ({ q with waiting := q.waiting ++ [⟨index, now + delay, run⟩] }, s)

/-- The callback whose waiting ends first, and all others. -/
def next : List Waiting → Option (Waiting × List Waiting)
  | [] => none
  | w :: ws =>
    match next ws with
    | none => some (w, [])
    | some (first, others) =>
      if first.isBefore w then some (first, w :: others) else some (w, ws)

/-- Resumes callbacks until none waits any more. -/
def drain (parties : Parties σ) : (steps : Nat) → Schedule → σ → Schedule × σ
  | 0, q, s => (q, s)
  | steps + 1, q, s =>
    match next q.waiting with
    | none => (q, s)
    | some (w, others) =>
      let (q, s) := goOn parties w.index w.wakesAt w.run.stepsLeft w.run
        { q with waiting := others } s
      drain parties steps q s

/-- Lets callbacks come in one behind the other. -/
def enter (parties : Parties σ) : (index : Nat) → List Params → Schedule → σ → Schedule × σ
  | _, [], q, s => (q, s)
  | index, p :: ps, q, s =>
    let run := Run.start p
    let (q, s) := goOn parties index 0 run.stepsLeft run q s
    enter parties (index + 1) ps q s

end Schedule

/-- Handles callbacks at the same time. The outcomes stand in the order in which the callbacks came
in; a callback that waits for an answer that never comes has none. -/
def handleAll {σ : Type} (parties : Parties σ) (callbacks : List Params) (s : σ) :
    List (Option Outcome) × σ :=
  let (q, s) := Schedule.enter parties 0 callbacks ⟨[], []⟩ s
  -- A callback waits at most twice, for the exchange and for the verification.
  let (q, s) := Schedule.drain parties (2 * callbacks.length) q s
  ((List.range callbacks.length).map fun i => q.finished.lookup i, s)

end SignIn.Callback
