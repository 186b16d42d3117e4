import SignIn.Http.Transport

/-!
# Requests that are carried

A request that is answered at once is carried once, and so is one that is not answered in time. A
response that points elsewhere makes another request be carried, to wherever it points. However
often one is carried, what every carrying of a request preserves is preserved in the end.

## Main definitions

* `Http.Misses` — no whole response comes in time
* `Http.Transport.recorded` — a transport with a record of what it carries

## Main results

* `Http.send_of_response` — a response that comes in time and points nowhere else
* `Http.send_within` — a request with a timeout comes to an end
* `Http.send_keeps` — what becomes of the world
* `Http.send_of_misses`, `Http.send_of_final`, `Http.recorded_of_redirected` — one request, or more
-/

namespace SignIn.Http

variable {σ : Type} {transport : Transport σ} {timeout : Option Duration} {request : Outbound}
  {s s' : σ} {delay : Duration} {response : Inbound}

/-! ### A request alone -/

/-- A request for a place that cannot be reached is not carried. -/
theorem sendOnce_of_not_reach (h : canBeReached request.url = false) :
    sendOnce transport timeout request s = (s, failAfter (some 0) (.url request.url)) := by
  rw [sendOnce, h]
  rfl

theorem sendOnce_of_response (hreach : canBeReached request.url)
    (htransport : transport request s = (s', .after delay (.ok response)))
    (htime : ∀ time ∈ timeout, delay < time) :
    sendOnce transport timeout request s = (s', .after delay (.ok response)) := by
  have hintime : timeout.any (· ≤ delay) = false := by
    cases timeout with
    | none => rfl
    | some time => simpa using htime time rfl
  rw [sendOnce, hreach, htransport]
  simp [hintime]

/-- No whole response comes in time. -/
def Misses (timeout : Option Duration) : Delayed (Except TransportFault Inbound) → Prop
  | .never => True
  | .after _ (.error _) => True
  | .after delay (.ok _) => ∃ time ∈ timeout, time ≤ delay

theorem sendOnce_of_misses {answer : Delayed (Except TransportFault Inbound)}
    (hreach : canBeReached request.url) (htransport : transport request s = (s', answer))
    (hmisses : Misses timeout answer) :
    ∃ time e, sendOnce transport timeout request s = (s', failAfter time e) := by
  rw [sendOnce, hreach, htransport]
  match answer with
  | .never => exact ⟨_, _, rfl⟩
  | .after delay (.error fault) =>
    simp only [Bool.not_true, Bool.false_eq_true, if_false]
    split
    · exact ⟨_, _, rfl⟩
    · cases fault <;> exact ⟨_, _, rfl⟩
  | .after delay (.ok response) =>
    obtain ⟨time, htime, hlate⟩ := hmisses
    have hlate : timeout.any (· ≤ delay) = true := by
      rw [htime]
      exact decide_eq_true hlate
    simp only [Bool.not_true, Bool.false_eq_true, if_false, hlate, if_true]
    exact ⟨_, _, rfl⟩

/-- A request for a place that can be reached is carried. -/
theorem sendOnce_fst (hreach : canBeReached request.url) :
    (sendOnce transport timeout request s).1 = (transport request s).1 := by
  rw [sendOnce, hreach]
  split
  · contradiction
  · split
    · next htransport => rw [htransport]
    · next htransport =>
      rw [htransport]
      split
      · rfl
      · split <;> rfl

/-! ### Redirects -/

section Redirects

variable {steps : Nat} {next : Outbound}

/-- The request that a redirect makes of another one: the same for another place, or one without
content. -/
theorem eq_of_redirected (hnext : redirected? request response = some next) :
    next = if response.status ∈ [307, 308] then { request with url := next.url }
      else ⟨if request.method = "HEAD" then "HEAD" else "GET", next.url, none, []⟩ := by
  have hmoved : ∀ status ∈ [301, 302, 303], status ∉ [307, 308] := by decide
  rw [redirected?] at hnext
  split at hnext
  · split at hnext
    · next hstatus => rw [if_neg (hmoved _ hstatus), ← Option.some.inj hnext]
    · split at hnext
      · next hstatus => rw [if_pos hstatus, ← Option.some.inj hnext]
      · contradiction
  · contradiction

/-- Where a request alone fails, no other is sent. -/
theorem sendFrom_of_failAfter {time : Option Duration} {e : SendError}
    (h : sendOnce transport timeout request s = (s', failAfter time e)) :
    sendFrom transport steps timeout request s = (s', failAfter time e) := by
  rw [sendFrom.eq_def]
  cases time <;> simp only [h, failAfter]

theorem sendFrom_of_response
    (h : sendOnce transport timeout request s = (s', .after delay (.ok response)))
    (hnext : redirected? request response = none) :
    sendFrom transport steps timeout request s = (s', .after delay (.ok response)) := by
  rw [sendFrom.eq_def]
  simp only [h, hnext]

/-- A response that points elsewhere is followed. -/
theorem sendFrom_of_redirected
    (h : sendOnce transport timeout request s = (s', .after delay (.ok response)))
    (hnext : redirected? request response = some next) :
    (sendFrom transport (steps + 1) timeout request s).1 =
      (sendFrom transport steps (timeout.map (· - delay)) next s').1 := by
  rw [sendFrom.eq_def]
  simp only [h, hnext]

end Redirects

/-- The request as it is sent: of its URL, user name and password are not. -/
def Outbound.sent (r : Outbound) : Outbound := { r with url := withoutUserinfo r.url }

theorem send_eq_sendFrom : send transport timeout request s =
    sendFrom transport redirectLimit timeout request.sent s := rfl

/-- A response that comes in time and points nowhere else is what comes of a request. -/
theorem send_of_final (hreach : canBeReached request.sent.url)
    (htransport : transport request.sent s = (s', .after delay (.ok response)))
    (htime : ∀ time ∈ timeout, delay < time) (hfinal : redirected? request.sent response = none) :
    send transport timeout request s = (s', .after delay (.ok response)) :=
  sendFrom_of_response (sendOnce_of_response hreach htransport htime) hfinal

/-- A response without a location points nowhere else. -/
theorem send_of_response (hreach : canBeReached (withoutUserinfo request.url))
    (htransport : transport { request with url := withoutUserinfo request.url } s =
      (s', .after delay (.ok response)))
    (htime : ∀ time ∈ timeout, delay < time) (hlocation : response.location = none) :
    send transport timeout request s = (s', .after delay (.ok response)) := by
  refine send_of_final hreach htransport htime ?_
  rw [redirected?, hlocation]
  rfl

theorem send_of_not_reach (h : canBeReached request.sent.url = false) :
    send transport timeout request s = (s, .now (.error (.url request.sent.url))) :=
  sendFrom_of_failAfter (sendOnce_of_not_reach h)

theorem send_of_misses {answer : Delayed (Except TransportFault Inbound)}
    (hreach : canBeReached request.sent.url) (htransport : transport request.sent s = (s', answer))
    (hmisses : Misses timeout answer) :
    ∃ time e, send transport timeout request s = (s', failAfter time e) := by
  obtain ⟨time, e, honce⟩ := sendOnce_of_misses hreach htransport hmisses
  exact ⟨time, e, sendFrom_of_failAfter honce⟩

/-! ### Requests with a timeout -/

/-- With a timeout a request alone comes to an end, and not later. -/
theorem sendOnce_within (transport : Transport σ) (time : Duration) (request : Outbound) (s : σ) :
    ∃ s' delay result, sendOnce transport (some time) request s = (s', .after delay result) ∧
      delay ≤ time := by
  cases hreach : canBeReached request.url with
  | false => exact ⟨s, 0, _, sendOnce_of_not_reach hreach, Nat.zero_le time⟩
  | true =>
    obtain ⟨⟨s', answer⟩, htransport⟩ : ∃ x, transport request s = x := ⟨_, rfl⟩
    simp only [sendOnce, hreach, htransport, Bool.not_true, Bool.false_eq_true, if_false]
    cases answer with
    | never => exact ⟨s', time, _, rfl, Nat.le_refl time⟩
    | after delay result =>
      by_cases hlate : time ≤ delay
      · simp only [Option.any_some, hlate, decide_true, if_true]
        exact ⟨s', time, _, rfl, Nat.le_refl time⟩
      · have hdelay : delay ≤ time := Nat.le_of_not_le hlate
        simp only [Option.any_some, hlate, decide_false, Bool.false_eq_true, if_false]
        cases result with
        | ok response => exact ⟨s', delay, _, rfl, hdelay⟩
        | error fault => cases fault <;> exact ⟨s', delay, _, rfl, hdelay⟩

/-- With a timeout a request comes to an end, unless a redirect is to be followed. -/
theorem sendFrom_within_or_redirected (transport : Transport σ) (steps : Nat) (time : Duration)
    (request : Outbound) (s : σ) :
    (∃ s' delay result, sendFrom transport steps (some time) request s =
      (s', .after delay result) ∧ delay ≤ time) ∨
    ∃ s' delay response next, sendOnce transport (some time) request s =
      (s', .after delay (.ok response)) ∧ redirected? request response = some next ∧
        delay ≤ time := by
  obtain ⟨s', delay, result, honce, hdelay⟩ := sendOnce_within transport time request s
  cases result with
  | error e =>
    have hfail : sendOnce transport (some time) request s = (s', failAfter (some delay) e) := honce
    exact .inl ⟨s', delay, _, sendFrom_of_failAfter hfail, hdelay⟩
  | ok response =>
    cases hnext : redirected? request response with
    | none => exact .inl ⟨s', delay, _, sendFrom_of_response honce hnext, hdelay⟩
    | some next => exact .inr ⟨s', delay, response, next, honce, hnext, hdelay⟩

/-- The requests that redirects lead to share the timeout. -/
theorem sendFrom_within (transport : Transport σ) (steps : Nat) (time : Duration)
    (request : Outbound) (s : σ) : ∃ s' delay result,
      sendFrom transport steps (some time) request s = (s', .after delay result) ∧
        delay ≤ time := by
  induction steps generalizing time request s with
  | zero =>
    obtain hdone | ⟨s', delay, response, next, honce, hnext, hdelay⟩ :=
      sendFrom_within_or_redirected transport 0 time request s
    · exact hdone
    · refine ⟨s', delay, .error (.redirect next.url), ?_, hdelay⟩
      rw [sendFrom.eq_def]
      simp only [honce, hnext, failAfter]
  | succ steps ih =>
    obtain hdone | ⟨s', delay, response, next, honce, hnext, hdelay⟩ :=
      sendFrom_within_or_redirected transport (steps + 1) time request s
    · exact hdone
    · obtain ⟨s'', delay', result, hrest, hdelay'⟩ := ih (time - delay) next s'
      refine ⟨s'', delay + delay', result, ?_, Nat.add_le_of_le_sub' hdelay hdelay'⟩
      rw [sendFrom.eq_def]
      simp only [honce, hnext, Option.map_some, hrest]
      rfl

/-- **With a timeout a request comes to an end, and not later**, whatever the transport does. -/
theorem send_within (transport : Transport σ) (time : Duration) (request : Outbound) (s : σ) :
    ∃ s' delay result, send transport (some time) request s = (s', .after delay result) ∧
      delay ≤ time :=
  sendFrom_within transport redirectLimit time _ s

/-! ### The world in the meantime -/

section Keeps

variable {P : σ → Prop}

theorem sendOnce_keeps (h : ∀ request s, P s → P (transport request s).1) (hs : P s) :
    P (sendOnce transport timeout request s).1 := by
  cases hreach : canBeReached request.url with
  | false => rwa [sendOnce_of_not_reach hreach]
  | true =>
    rw [sendOnce_fst hreach]
    exact h request s hs

theorem sendFrom_keeps (h : ∀ request s, P s → P (transport request s).1) {steps : Nat}
    (hs : P s) : P (sendFrom transport steps timeout request s).1 := by
  have hkeeps : ∀ {timeout : Option Duration} {request : Outbound} {s s' : σ}
      {result : Delayed (Except SendError Inbound)}, P s →
        sendOnce transport timeout request s = (s', result) → P s' := by
    intro timeout request s s' result hs honce
    have hkept := @sendOnce_keeps σ transport timeout request s P h hs
    rwa [honce] at hkept
  fun_induction sendFrom transport steps timeout request s with
  | case1 _ _ _ _ _ _ _ honce => exact hkeeps hs honce
  | case2 _ _ _ _ _ _ honce => exact hkeeps hs honce
  | case3 _ _ _ _ _ _ honce _ _ _ _ _ hrest ih =>
    have hkept := ih (hkeeps hs honce)
    rwa [hrest] at hkept
  | case4 _ _ _ _ _ _ _ honce => exact hkeeps hs honce

/-- What a transport preserves is preserved by a request with all its redirects. -/
theorem send_keeps (h : ∀ request s, P s → P (transport request s).1) (hs : P s) :
    P (send transport timeout request s).1 :=
  sendFrom_keeps h hs

end Keeps

/-! ### A record of requests -/

/-- The transport, with a record of what it carries. -/
def Transport.recorded (transport : Transport σ) : Transport (σ × List Outbound) := fun r x =>
  let (s, answer) := transport r x.1
  ((s, x.2 ++ [r]), answer)

variable {before : List Outbound}

theorem recorded_of_eq {answer : Delayed (Except TransportFault Inbound)}
    (h : transport request s = (s', answer)) (before : List Outbound) :
    transport.recorded request (s, before) = ((s', before ++ [request]), answer) := by
  rw [Transport.recorded, h]

/-- What was recorded stays recorded. -/
theorem sendFrom_recorded {steps : Nat} (x : σ × List Outbound) :
    x.2 <+: (sendFrom transport.recorded steps timeout request x).1.2 :=
  sendFrom_keeps (P := fun y : σ × List Outbound => x.2 <+: y.2)
    (fun _ _ hy => hy.trans (List.prefix_append _ _)) (List.prefix_refl _)

/-- A request for a place that can be reached is the next in the record. -/
theorem sendFrom_recorded_of_reach {steps : Nat} (hreach : canBeReached request.url)
    (x : σ × List Outbound) :
    x.2 ++ [request] <+: (sendFrom transport.recorded steps timeout request x).1.2 := by
  have hcarried : (sendOnce transport.recorded timeout request x).1.2 = x.2 ++ [request] := by
    rw [sendOnce_fst hreach]
    rfl
  rw [← hcarried]
  fun_cases sendFrom transport.recorded steps timeout request x with
  | case1 _ _ _ _ _ _ _ honce =>
    rewrite [honce]
    exact List.prefix_refl _
  | case2 _ _ _ _ _ _ honce =>
    rewrite [honce]
    exact List.prefix_refl _
  | case3 _ _ _ s' delay _ honce next steps _ _ _ hrest =>
    have hkept := @sendFrom_recorded σ transport (timeout.map (· - delay)) next steps s'
    rw [hrest] at hkept
    rw [honce]
    exact hkept
  | case4 _ _ _ _ _ _ _ honce =>
    rewrite [honce]
    exact List.prefix_refl _

/-- Where a response points to a place that can be reached, the request for that place is the next
in the record. -/
theorem recorded_of_redirected {next : Outbound} (hreach : canBeReached request.sent.url)
    (htransport : transport request.sent s = (s', .after delay (.ok response)))
    (htime : ∀ time ∈ timeout, delay < time)
    (hnext : redirected? request.sent response = some next)
    (hreach' : canBeReached next.url) :
    before ++ [request.sent, next] <+:
      (send transport.recorded timeout request (s, before)).1.2 := by
  have honce : sendOnce transport.recorded timeout request.sent (s, before) =
      ((s', before ++ [request.sent]), .after delay (.ok response)) :=
    sendOnce_of_response hreach (recorded_of_eq htransport _) htime
  have hfrom := @sendFrom_of_redirected _ transport.recorded timeout request.sent (s, before) _ _ _
    9 _ honce hnext
  rw [send_eq_sendFrom, redirectLimit, hfrom, List.append_cons]
  exact sendFrom_recorded_of_reach hreach' (s', before ++ [request.sent])

end SignIn.Http
