import SignIn.Party.Instance
import SignIn.Proofs.Callback.Calls

/-!
# How a callback is announced

A callback that comes to its end is announced by one event, and a failure that nobody hears leaves
one line in the log. Whether anybody hears it depends on the listener table, which is not the
callback's own: others register and remove listeners while the callback waits, and so do the
listeners themselves while the event is delivered. What counts is the table at the moment of the
announcement and in it the listeners of that one kind.

Delivering an event has no result if listeners emit events in each other deeper than is allowed,
which is to say that the announcement does not come to its end. The line in the log is then left
open; the event is not.

## Main definitions

* `Callback.Outcome.event` — the event of an outcome
* `Callback.Names` — which failure a line in the log has to name
* `Callback.Parties.onBus` — any broker and any exchanger, with the bus and the log of a relying
  party

## Main results

* `Event.heard_of_emit` — how many listeners an event had is decided before the first one is called
* `Callback.announced_once`
-/

namespace SignIn

variable {μ σ : Type}

/-- The listeners are counted in the table as it is when the event comes; what they do to the table
does not count. -/
theorem Event.heard_of_emit {depth heard : Nat} {event : Event} {s s' : Event.State μ}
    (h : emit depth event s = some (s', heard)) : heard = s.bus.count event.kind := by
  cases depth with
  | zero => simp [emit] at h
  | succ depth =>
    rw [emit] at h
    obtain ⟨s₁, -, hs₁⟩ := Option.bind_eq_some_iff.1 h
    obtain ⟨-, rfl⟩ := Prod.mk.inj (Option.some.inj hs₁)
    rfl

namespace Callback

/-- The event that announces an outcome: of a failure the whole callback, of a success the
identity. -/
def Outcome.event (p : Params) : Outcome → Event
  | .gotError => .gotError p
  | .invalidToken => .invalidToken p
  | .verified identity => .verified identity

/-- Whether an outcome is none of those that a user is signed in by. -/
def Outcome.isFailure : Outcome → Bool
  | .gotError | .invalidToken => true
  | .verified _ => false

theorem Verdict.event_eq (p : Params) (verdict : Verdict) :
    verdict.event p = verdict.outcome.event p := by
  cases verdict <;> rfl

theorem Verdict.isSome_diagnostic? (verdict : Verdict) :
    verdict.diagnostic?.isSome = verdict.outcome.isFailure := by
  cases verdict <;> rfl

/-- The failure that a line in the log names: the error of the broker, if it reported one, or else
the answer that ended the callback. -/
inductive Names (p : Params) (calls : List (Call σ)) : Diagnostic → Prop where
  | broker (error : p.error ≠ "") : Names p calls (.brokerRefused p.error p.errorDescription)
  | exchange {code redirectUri : String} {delay : Duration} {failure : ExchangeError}
      (asked : .exchange code redirectUri (.after delay (.error failure)) ∈ calls) :
    Names p calls (.exchangeFailed failure)
  | verification {token : String} {delay : Duration} {failure : BrokerError}
      (asked : .verify token (.after delay (.error failure)) ∈ calls) :
    Names p calls (.tokenRejected failure)

theorem Decision.names {redirectUri : String} {p : Params} {questions calls : List (Call σ)}
    {verdict : Verdict} {diagnostic : Diagnostic} (h : Decision redirectUri p questions verdict)
    (hcalls : questions ⊆ calls) (hdiagnostic : verdict.diagnostic? = some diagnostic) :
    Names p calls diagnostic := by
  cases h with
  | refused error =>
    obtain rfl := Option.some.inj hdiagnostic
    exact .broker error
  | exchangeFailed =>
    obtain rfl := Option.some.inj hdiagnostic
    exact .exchange (hcalls List.mem_cons_self)
  | token _ _ _ answer | nothing _ _ _ _ answer =>
    cases answer with
    | ok identity => cases hdiagnostic
    | error failure =>
      obtain rfl := Option.some.inj hdiagnostic
      exact .verification (hcalls List.mem_cons_self)
  | exchanged _ _ _ _ _ _ answer =>
    cases answer with
    | ok identity => cases hdiagnostic
    | error failure =>
      obtain rfl := Option.some.inj hdiagnostic
      exact .verification (hcalls (List.mem_cons_of_mem _ List.mem_cons_self))

theorem Decision.filterMap_published? {redirectUri : String} {p : Params}
    {questions : List (Call σ)} {verdict : Verdict} (h : Decision redirectUri p questions verdict) :
    questions.filterMap Call.published? = [] := by
  cases h <;> rfl

theorem Decision.filterMap_logged? {redirectUri : String} {p : Params} {questions : List (Call σ)}
    {verdict : Verdict} (h : Decision redirectUri p questions verdict) :
    questions.filterMap Call.logged? = [] := by
  cases h <;> rfl

namespace Parties

theorem published_announcement (parties : Parties σ) (p : Params) (verdict : Verdict) (s : σ) :
    (parties.announcement p verdict s).filterMap Call.published? = [(verdict.event p, s)] := by
  rw [announcement]
  split <;> rfl

theorem logged_announcement (parties : Parties σ) (p : Params) (verdict : Verdict) (s : σ) :
    (parties.announcement p verdict s).filterMap Call.logged? =
      if (parties.publish (verdict.event p) s).2 = 0 then verdict.diagnostic?.toList else [] := by
  rw [announcement]
  split
  · next diagnostic hheard hdiagnostic =>
    rw [if_pos hheard, hdiagnostic]
    rfl
  · next hnone =>
    have hempty : (parties.publish (verdict.event p) s).2 = 0 → verdict.diagnostic? = none :=
      fun hheard => Option.eq_none_iff_forall_ne_some.2 fun d hd => hnone d hheard hd
    by_cases hheard : (parties.publish (verdict.event p) s).2 = 0
    · simp [hheard, hempty hheard, Call.logged?]
    · simp [hheard, Call.logged?]

/-- A broker and an exchanger of any behaviour, together with the bus and the log of a relying
party. They may change both. -/
def onBus (nesting : Nat) (redirectUri : String)
    (exchange : (code redirectUri : String) → Party.State μ →
      Party.State μ × Delayed (Except ExchangeError Token.Grant))
    (verify : (token : String) → Party.State μ →
      Party.State μ × Delayed (Except BrokerError String)) :
    Parties (Party.State μ) where
  redirectUri
  exchange
  verify
  publish := Party.State.publish nesting
  log d s := { s with log := s.log ++ [d] }

/-- The parties of a relying party are of this kind. -/
theorem service_toParties (setup : Party.Setup μ) :
    setup.service.toParties = onBus setup.nesting setup.connection.redirectUri.toText
      (setup.endpoint.exchange setup.transport) (Party.State.verify setup.dialect) := rfl

end Parties

theorem heard_publish {nesting : Nat} {event : Event} {s : Party.State μ}
    (h : (Event.emit nesting event s.listeners).isSome) :
    (Party.State.publish nesting event s).2 = s.listeners.bus.count event.kind := by
  obtain ⟨⟨listeners, heard⟩, hemit⟩ := Option.isSome_iff_exists.1 h
  rw [Party.State.publish, hemit]
  exact Event.heard_of_emit hemit

/-- **One event, and one line if nobody hears of a failure.** A callback that comes to its end, with
any broker, any exchanger and any listeners, and whatever becomes of the listener table while it
waits, emits the event of its outcome and no other. If that event is delivered, a line is written
exactly if the outcome is a failure and no listener of that kind was registered when the event was
emitted, and it names the failure. -/
theorem announced_once (nesting : Nat) (redirectUri : String)
    (exchange : (code redirectUri : String) → Party.State μ →
      Party.State μ × Delayed (Except ExchangeError Token.Grant))
    (verify : (token : String) → Party.State μ →
      Party.State μ × Delayed (Except BrokerError String))
    (p : Params) (s : Party.State μ) (outcome : Outcome) (t : Recorded (Party.State μ))
    (h : (Run.start p).Finishes (.onBus nesting redirectUri exchange verify) ⟨s, []⟩ outcome t) :
    ∃ world, t.calls.filterMap Call.published? = [(outcome.event p, world)] ∧
      ((Event.emit nesting (outcome.event p) world.listeners).isSome →
        (outcome.isFailure ∧ world.listeners.bus.count (outcome.event p).kind = 0 →
          ∃ diagnostic, t.calls.filterMap Call.logged? = [diagnostic] ∧
            Names p t.calls diagnostic) ∧
        (¬(outcome.isFailure ∧ world.listeners.bus.count (outcome.event p).kind = 0) →
          t.calls.filterMap Call.logged? = [])) := by
  obtain ⟨questions, verdict, world, hdecision, rfl, hcalls⟩ := h.calls
  have hlogged := congrArg (List.filterMap Call.logged?) hcalls
  rw [List.filterMap_append, hdecision.filterMap_logged?, List.nil_append,
    Parties.logged_announcement, Verdict.event_eq] at hlogged
  refine ⟨world, ?_, fun hemit => ?_⟩
  · rw [hcalls, List.filterMap_append, hdecision.filterMap_published?, List.nil_append,
      Parties.published_announcement, Verdict.event_eq]
  · change t.calls.filterMap Call.logged? = if (Party.State.publish nesting
      (verdict.outcome.event p) world).2 = 0 then verdict.diagnostic?.toList else [] at hlogged
    rw [heard_publish hemit] at hlogged
    refine ⟨fun ⟨hfailure, hcount⟩ => ?_, fun hnot => ?_⟩
    · rw [← Verdict.isSome_diagnostic?] at hfailure
      obtain ⟨diagnostic, hdiagnostic⟩ := Option.isSome_iff_exists.1 hfailure
      refine ⟨diagnostic, by rw [hlogged, if_pos hcount, hdiagnostic]; rfl, ?_⟩
      exact hdecision.names (hcalls ▸ List.subset_append_left ..) hdiagnostic
    · rw [hlogged]
      split
      · next hcount =>
        have hnone : verdict.diagnostic?.isSome = false := by
          rw [Verdict.isSome_diagnostic?]
          exact Bool.eq_false_iff.2 fun hfailure => hnot ⟨hfailure, hcount⟩
        rw [Option.isSome_eq_false_iff, Option.isNone_iff_eq_none] at hnone
        rw [hnone]
        rfl
      · rfl

/-- The broker refuses, and the only listener listens to successes. -/
theorem announced_once_unheard :
    let p := Params.ofForm [("error", "access_denied"), ("error_description", "user said no")]
    ∃ s t, (Run.start p).Finishes (.onBus (μ := Unit) 1 "" (fun _ _ s => (s, .never))
        fun _ s => (s, .never)) ⟨s, []⟩ .gotError t ∧
      s.listeners.bus.count .verified = 1 ∧
      t.calls.filterMap Call.published? = [(.gotError p, s)] ∧
      ∃ diagnostic, t.calls.filterMap Call.logged? = [diagnostic] ∧ Names p t.calls diagnostic := by
  intro p
  let url : Url := ⟨"http", "", "", some (.domain "localhost"), none, .segments [""], none, none⟩
  let bus : Event.Bus Unit := (Event.Bus.empty.on .verified fun _ => .done).2
  let s : Party.State Unit := ⟨.start ⟨url, url, none, 0⟩ 0, ⟨bus, ()⟩, [], 0, fun _ => 0, 0, false⟩
  have h : (Run.start p).Finishes (.onBus 1 "" (fun _ _ s => (s, .never)) fun _ s => (s, .never))
      ⟨s, []⟩ .gotError
      ⟨s, [.publish (.gotError p) s, .log (.brokerRefused "access_denied" "user said no")]⟩ :=
    .resumed s rfl .finished
  obtain ⟨world, hpublished, hlogged⟩ := announced_once 1 "" _ _ p s .gotError _ h
  obtain rfl : s = world := by simpa [Call.published?, Outcome.event] using hpublished
  exact ⟨s, _, h, rfl, rfl, (hlogged rfl).1 ⟨rfl, rfl⟩⟩

end Callback

end SignIn
