import SignIn.Time

/-!
# Work that has to wait

Some answers take their time, and some never arrive. Work that depends on them is done in steps:
each step is done at once, and tells how long to wait before the next one.

A deadline cuts work off between two steps. It comes first: work that could go on at the very moment
of its deadline is cut off.

## Main definitions

* `Delayed` — something that arrives later, or never
* `Delayed.workWithin` — does work step by step until it is done or its deadline comes

## Main results

* `Delayed.workWithin_of_result`, `Delayed.workWithin_of_step`, `Delayed.workWithin_of_late` — what
  one round of work does
* `Delayed.workWithin_view` — what no step looks at changes nothing about the work
-/

namespace SignIn

/-- Something that arrives later, or never. -/
inductive Delayed (α : Type) where
  | after (delay : Duration) (value : α)
  | never
  deriving Repr

namespace Delayed

variable {σ α β : Type}

/-- What is there at once. -/
def now (value : α) : Delayed α := .after 0 value

/-- What arrives is transformed. -/
def map (f : α → β) : Delayed α → Delayed β
  | .after delay value => .after delay (f value)
  | .never => .never

/-- What arrives when something is transformed has arrived before. -/
theorem of_map_eq_after {f : α → β} {d : Delayed α} {delay : Duration} {value : β}
    (h : d.map f = .after delay value) : ∃ a, d = .after delay a ∧ f a = value := by
  cases d with
  | never => contradiction
  | after wait a =>
    obtain ⟨rfl, hvalue⟩ := Delayed.after.inj h
    exact ⟨a, rfl, hvalue⟩

/-- What arrives, whenever that is. -/
def value? : Delayed α → Option α
  | .after _ value => some value
  | .never => none

theorem value?_map (f : α → β) (d : Delayed α) : (d.map f).value? = d.value?.map f := by
  cases d <;> rfl

/-- Everything arrives later by a duration. -/
def later (wait : Duration) : Delayed α → Delayed α
  | .after delay value => .after (wait + delay) value
  | .never => .never

/-- Does work step by step until it is done, with at most `steps` steps and at most the time `left`.
In `σ` is all that the steps change. -/
def workWithin (step : α → σ → σ × Delayed α) (result? : α → Option β) :
    (steps : Nat) → Option Duration → α → σ → σ × Option β
  | steps, left, work, s =>
    if left = some 0 then (s, none)
    else match result? work, steps with
      | some result, _ => (s, some result)
      | none, 0 => (s, none)
      | none, steps + 1 =>
        match step work s with
        | (s, .never) => (s, none)
        | (s, .after delay work) =>
          match left with
          | none => workWithin step result? steps none work s
          | some left =>
            if delay < left then workWithin step result? steps (some (left - delay)) work s
            else (s, none)

/-! ### Rounds of work -/

section Work

variable {step : α → σ → σ × Delayed α} {result? : α → Option β} {left : Option Duration}
  {work next : α} {s s' : σ} {steps : Nat}

/-- Work that is done has its result, unless its time is up. -/
theorem workWithin_of_result {result : β} (hleft : left ≠ some 0) (h : result? work = some result) :
    workWithin step result? steps left work s = (s, some result) := by
  unfold workWithin
  simp only [if_neg hleft, h]

/-- When the time is up, nothing is done any more. -/
theorem workWithin_over : workWithin step result? steps (some 0) work s = (s, none) := by
  rw [workWithin.eq_def]
  exact if_pos rfl

/-- Work that is not done has no result without a further step. -/
theorem workWithin_zero (h : result? work = none) :
    workWithin step result? 0 left work s = (s, none) := by
  unfold workWithin
  simp [h]

/-- A step that leads on in time. -/
theorem workWithin_of_step {delay : Duration} (hleft : ∀ time ∈ left, delay < time)
    (h : result? work = none) (hstep : step work s = (s', .after delay next)) :
    workWithin step result? (steps + 1) left work s =
      workWithin step result? steps (left.map (· - delay)) next s' := by
  rw [workWithin.eq_def]
  cases left with
  | none => simp [h, hstep]
  | some time =>
    have hdelay : delay < time := hleft time rfl
    have htime : time ≠ 0 := Nat.ne_zero_of_lt hdelay
    simp [h, hstep, hdelay, htime]

/-- A step that leads on too late. -/
theorem workWithin_of_late {delay : Duration} (hleft : left ≠ some 0)
    (hlate : ¬∀ time ∈ left, delay < time) (h : result? work = none)
    (hstep : step work s = (s', .after delay next)) :
    workWithin step result? (steps + 1) left work s = (s', none) := by
  rw [workWithin.eq_def]
  cases left with
  | none => simp at hlate
  | some time =>
    have hdelay : ¬delay < time := by simpa using hlate
    have hzero : time ≠ 0 := fun e => hleft (e ▸ rfl)
    simp [h, hstep, hdelay, hzero]

/-- A step that leads nowhere. -/
theorem workWithin_of_never (hleft : left ≠ some 0) (h : result? work = none)
    (hstep : step work s = (s', .never)) :
    workWithin step result? (steps + 1) left work s = (s', none) := by
  rw [workWithin.eq_def]
  simp [hleft, h, hstep]

/-- Work that also changes something which no step looks at is the same work to those who do not see
that. -/
theorem workWithin_view {τ : Type} {fuller : α → τ → τ × Delayed α} (view : τ → σ)
    (h : ∀ work t, step work (view t) = (view (fuller work t).1, (fuller work t).2)) (t : τ) :
    workWithin step result? steps left work (view t) =
      (view (workWithin fuller result? steps left work t).1,
        (workWithin fuller result? steps left work t).2) := by
  induction steps generalizing left work t with
  | zero =>
    by_cases hover : left = some 0
    · rw [hover, workWithin_over, workWithin_over]
    · cases hresult : result? work with
      | some result => rw [workWithin_of_result hover hresult, workWithin_of_result hover hresult]
      | none => rw [workWithin_zero hresult, workWithin_zero hresult]
  | succ steps ih =>
    by_cases hover : left = some 0
    · rw [hover, workWithin_over, workWithin_over]
    cases hresult : result? work with
    | some result => rw [workWithin_of_result hover hresult, workWithin_of_result hover hresult]
    | none =>
      obtain ⟨⟨t', next⟩, hfuller⟩ : ∃ x, fuller work t = x := ⟨_, rfl⟩
      have hstep : step work (view t) = (view t', next) := by rw [h, hfuller]
      cases next with
      | never => rw [workWithin_of_never hover hresult hstep,
          workWithin_of_never hover hresult hfuller]
      | after delay next =>
        by_cases hleft : ∀ time ∈ left, delay < time
        · rw [workWithin_of_step hleft hresult hstep, workWithin_of_step hleft hresult hfuller]
          exact ih t'
        · rw [workWithin_of_late hover hleft hresult hstep,
            workWithin_of_late hover hleft hresult hfuller]

end Work

end Delayed

end SignIn
