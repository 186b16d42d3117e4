import SignIn.Callback.Verification

/-!
# How a callback ends

A callback that is handled before its deadline ends as its first signal and the answers of the
others tell. Only the exchange takes time here; a broker client answers at once.

## Main results

* `Callback.handle_of_refused`, `Callback.handle_of_idToken`, `Callback.handle_of_code` — a callback
  that reports a failure, one that carries a token, and one that carries a code
-/

namespace SignIn.Callback

variable {σ : Type} {parties : Parties σ} {p : Params} {s s' t : σ} {left : Option Duration}
  {token identity : String}

/-- As long as the time is not up, there is some left. -/
theorem pos_of_ne_zero (h : left ≠ some 0) : ∀ time ∈ left, 0 < time := by
  rintro time rfl
  exact Nat.pos_of_ne_zero fun htime => h (htime ▸ rfl)

/-- A step that is done in time leaves time for the next one. -/
theorem pos_of_mem_remaining {delay : Duration} (hleft : ∀ time ∈ left, delay < time) :
    ∀ time ∈ left.map (· - delay), 0 < time := by
  intro time htime
  obtain ⟨before, hbefore, rfl⟩ := Option.map_eq_some_iff.1 htime
  exact Nat.sub_pos_of_lt (hleft before hbefore)

/-- A step that is done in time does not use up the time. -/
theorem remaining_ne_zero {delay : Duration} (hleft : ∀ time ∈ left, delay < time) :
    left.map (· - delay) ≠ some 0 :=
  fun h => absurd (pos_of_mem_remaining hleft 0 h) (Nat.lt_irrefl 0)

namespace Run

/-- The announcement is the last thing to be done. -/
theorem workWithin_announce (hleft : ∀ time ∈ left, 0 < time) (verdict : Verdict) (steps : Nat) :
    Delayed.workWithin (resume parties) outcome? (steps + 1) left
        (.suspended p (.announce verdict)) s =
      (parties.announce p verdict s, some verdict.outcome) := by
  rw [Delayed.workWithin_of_step hleft rfl rfl]
  exact Delayed.workWithin_of_result (remaining_ne_zero hleft) rfl

/-- A token that is accepted at once. -/
theorem workWithin_verify (hleft : ∀ time ∈ left, 0 < time) (steps : Nat)
    (hverify : parties.verify token s = (t, .now (.ok identity))) :
    Delayed.workWithin (resume parties) outcome? (steps + 2) left (.suspended p (.verify token)) s =
      (parties.announce p (.accepted identity) t, some (.verified identity)) := by
  have hstep : resume parties (.suspended p (.verify token)) s =
      (t, .after 0 (.suspended p (.announce (.accepted identity)))) := by
    rw [resume, hverify]
    rfl
  rw [Delayed.workWithin_of_step hleft rfl hstep]
  exact workWithin_announce (pos_of_mem_remaining hleft) _ steps

end Run

/-- A callback that reports a failure. -/
theorem handle_of_refused (hleft : ∀ time ∈ left, 0 < time) {error description : String}
    (hsignal : p.signal = .brokerError error description) :
    handle parties left p s =
      (parties.announce p (.refused error description) s, some .gotError) := by
  have hstart : Run.start p = .suspended p (.announce (.refused error description)) := by
    rw [Run.start, Progress.start, hsignal]
  rw [handle, hstart]
  exact Run.workWithin_announce hleft _ 0

/-- A callback that carries a token which is accepted. -/
theorem handle_of_idToken (hleft : ∀ time ∈ left, 0 < time) (hsignal : p.signal = .idToken token)
    (hverify : parties.verify token s = (t, .now (.ok identity))) :
    handle parties left p s =
      (parties.announce p (.accepted identity) t, some (.verified identity)) := by
  have hstart : Run.start p = .suspended p (.verify token) := by
    rw [Run.start, Progress.start, hsignal]
  rw [handle, hstart]
  exact Run.workWithin_verify hleft 0 hverify

/-- A callback that carries a code which is exchanged in time for a token that is accepted. -/
theorem handle_of_code {code : String} {delay : Duration} (hleft : ∀ time ∈ left, delay < time)
    (hsignal : p.signal = .code code)
    (hexchange : parties.exchange code parties.redirectUri s = (s', .after delay (.ok ⟨token⟩)))
    (hverify : parties.verify token s' = (t, .now (.ok identity))) :
    handle parties left p s =
      (parties.announce p (.accepted identity) t, some (.verified identity)) := by
  have hstart : Run.start p = .suspended p (.exchange code) := by
    rw [Run.start, Progress.start, hsignal]
  have hstep : Run.resume parties (.suspended p (.exchange code)) s =
      (s', .after delay (.suspended p (.verify token))) := by
    rw [Run.resume, hexchange]
    rfl
  rw [handle, hstart]
  show Delayed.workWithin _ _ 3 left _ s = _
  rw [Delayed.workWithin_of_step hleft rfl hstep]
  exact Run.workWithin_verify (pos_of_mem_remaining hleft) 0 hverify

end SignIn.Callback
