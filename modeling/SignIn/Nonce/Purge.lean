import SignIn.Nonce

/-!
# Purging in the background

Nobody may ever come back with a nonce, so expired ones are removed from time to time. The task that
does so is due as soon as it is started, and then again after every period. A task without a period
is never due.

## Main definitions

* `Nonce.Purge` — the task
* `Nonce.Purge.ticksBefore`, `Nonce.Purge.runBefore` — what it does until a time
-/

namespace SignIn.Nonce

/-- A task that purges a store. -/
structure Purge where
  /-- When it is due next, in milliseconds of a clock that only moves forward. -/
  next : Nat
  /-- How much time passes between two turns. -/
  period : Duration
  deriving DecidableEq, Repr

namespace Purge

/-- How much time usually passes between two turns. -/
def usualPeriod : Duration := .seconds 60

/-- A task that is started at a time. -/
def start (time : Nat) (period : Duration) : Purge := ⟨time, period⟩

/-- How often the task is due before a time. -/
def ticksBefore (p : Purge) (time : Nat) : Nat :=
  if p.period = 0 then 0 else (time - p.next + (p.period - 1)) / p.period

/-- The task after all turns before a time, and the store that it purged at the clock reading
`now`. -/
def runBefore (p : Purge) (time : Nat) (now : Instant) (s : Store) : Purge × Store :=
  match p.ticksBefore time with
  | 0 => (p, s)
  | n + 1 => ({ p with next := p.next + (n + 1) * p.period }, (s.purge now).2)

end Purge

end SignIn.Nonce
