import Mathlib.Logic.Basic
import Mathlib.Tactic.SplitIfs
import SignIn.Callback.Verification

/-!
# The calls of a callback

Whom a callback calls, how often and with what, is decided by the callback and by the answers that
it gets, and by nothing else. This is a statement about whole runs: which calls are made is as much
a part of it as what they lead to.

## How calls are observed

A world can carry anything, so it can carry a record. `Parties.recorded` are the same parties in a
world that also keeps a list of the calls, and everything that is proved about all parties holds of
them. The record of an announcement keeps the world in which it was made, because what an event
leads to depends on who is listening at that moment.

## What happens meanwhile

A callback is suspended while it waits for an answer, and others may do anything to the world then.
`Run.Finishes` is a run in which the world is replaced by an arbitrary one behind every step. Only
the record stays, which is a record of this callback's own calls. The run without interruptions,
which is what `Callback.handle` does, is one of these.

## Main definitions

* `Callback.Call`, `Callback.Recorded`, `Callback.Parties.recorded`
* `Callback.Run.Finishes` — a run to its end, in a changing world
* `Callback.Decision` — the order in which the signals of a callback count

## Main results

* `Callback.Run.Finishes.calls` — a run makes the calls of a decision, and announces its verdict
* `Callback.calls_decided` — the same for the answers and the outcome, with a run for every callback
-/

namespace SignIn.Callback

variable {σ : Type}

/-! ### Recording -/

/-- A call to another party, with the answer where there is one to wait for. -/
inductive Call (σ : Type) where
  | exchange (code redirectUri : String) (answer : Delayed (Except ExchangeError Token.Grant))
  | verify (token : String) (answer : Delayed (Except BrokerError String))
  /-- An event that was announced in this world. -/
  | publish (event : Event) (world : σ)
  | log (diagnostic : Diagnostic)

namespace Call

/-- Whether a call asks for an answer that decides how the callback goes on. -/
def isQuestion : Call σ → Bool
  | exchange _ _ _ | verify _ _ => true
  | publish _ _ | log _ => false

/-- The event of an announcement and the world in which it was made. -/
def published? : Call σ → Option (Event × σ)
  | publish event world => some (event, world)
  | _ => none

/-- The line that was written into the log. -/
def logged? : Call σ → Option Diagnostic
  | log diagnostic => some diagnostic
  | _ => none

end Call

/-- A world with the calls so far, the oldest first. -/
structure Recorded (σ : Type) where
  world : σ
  calls : List (Call σ)

namespace Parties

/-- The same parties, with a record of the calls. -/
def recorded (parties : Parties σ) : Parties (Recorded σ) where
  redirectUri := parties.redirectUri
  exchange code redirectUri r :=
    let (world, answer) := parties.exchange code redirectUri r.world
    (⟨world, r.calls ++ [.exchange code redirectUri answer]⟩, answer)
  verify token r :=
    let (world, answer) := parties.verify token r.world
    (⟨world, r.calls ++ [.verify token answer]⟩, answer)
  publish event r :=
    let (world, heard) := parties.publish event r.world
    (⟨world, r.calls ++ [.publish event r.world]⟩, heard)
  log diagnostic r := ⟨parties.log diagnostic r.world, r.calls ++ [.log diagnostic]⟩

/-- Every question is answered at some time. -/
structure Answer (parties : Parties σ) : Prop where
  exchange : ∀ code redirectUri s, ∃ s' delay answer,
    parties.exchange code redirectUri s = (s', .after delay answer)
  verify : ∀ token s, ∃ s' delay answer, parties.verify token s = (s', .after delay answer)

/-- Parties that answer at once, and the same question always in the same way. Nobody listens to
them, and they keep no log. -/
def ofAnswers (redirectUri : String)
    (exchange : (code redirectUri : String) → Except ExchangeError Token.Grant)
    (verify : (token : String) → Except BrokerError String) : Parties Unit where
  redirectUri
  exchange code redirectUri s := (s, .now (exchange code redirectUri))
  verify token s := (s, .now (verify token))
  publish _ s := (s, 0)
  log _ s := s

theorem answer_ofAnswers (redirectUri : String)
    (exchange : (code redirectUri : String) → Except ExchangeError Token.Grant)
    (verify : (token : String) → Except BrokerError String) :
    (ofAnswers redirectUri exchange verify).Answer :=
  ⟨fun _ _ s => ⟨s, 0, _, rfl⟩, fun _ s => ⟨s, 0, _, rfl⟩⟩

/-- The calls that announce a verdict: the event, and a line in the log if it is a failure that
nobody listens to. -/
def announcement (parties : Parties σ) (p : Params) (verdict : Verdict) (s : σ) : List (Call σ) :=
  .publish (verdict.event p) s ::
    match (parties.publish (verdict.event p) s).2, verdict.diagnostic? with
    | 0, some diagnostic => [.log diagnostic]
    | _, _ => []

/-- An announcement leaves exactly its calls in the record. -/
theorem announce_recorded (parties : Parties σ) (p : Params) (verdict : Verdict) (r : Recorded σ) :
    parties.recorded.announce p verdict r =
      ⟨parties.announce p verdict r.world, r.calls ++ parties.announcement p verdict r.world⟩ := by
  simp only [announce, announcement, recorded]
  split <;> simp_all

end Parties

/-! ### Runs -/

/-- A callback goes on to its end. Behind every step the world may have become any other. -/
inductive Run.Finishes (parties : Parties σ) : Run → Recorded σ → Outcome → Recorded σ → Prop where
  | finished {outcome : Outcome} {r : Recorded σ} :
    Finishes parties (.finished outcome) r outcome r
  | resumed {p : Params} {progress : Progress} {next : Run} {r r' t : Recorded σ} {delay : Duration}
      {outcome : Outcome} (world : σ)
      (step : (Run.suspended p progress).resume parties.recorded r = (r', .after delay next))
      (rest : Finishes parties next ⟨world, r'.calls⟩ outcome t) :
    Finishes parties (.suspended p progress) r outcome t

/-- The verdict on a token, from the answer to its verification. -/
def Verdict.ofAnswer : Except BrokerError String → Verdict
  | .ok identity => .accepted identity
  | .error error => .rejected error

theorem Progress.afterVerify_eq (answer : Except BrokerError String) :
    afterVerify answer = .announce (.ofAnswer answer) := by
  cases answer <;> rfl

/-- The order in which the signals of a callback count, with the questions that it asks, the answers
that it gets and the verdict that follows. -/
inductive Decision (redirectUri : String) (p : Params) : List (Call σ) → Verdict → Prop where
  /-- An error that the broker reports comes before everything else, and nothing is asked. -/
  | refused (error : p.error ≠ "") : Decision redirectUri p [] (.refused p.error p.errorDescription)
  /-- Then a token is looked at, and only verified. -/
  | token (error : p.error = "") (idToken : p.idToken ≠ "") (delay : Duration)
      (answer : Except BrokerError String) :
    Decision redirectUri p [.verify p.idToken (.after delay answer)] (.ofAnswer answer)
  /-- Then a code is exchanged, once. If that fails nothing is verified. -/
  | exchangeFailed (error : p.error = "") (idToken : p.idToken = "") (code : p.code ≠ "")
      (delay : Duration) (failure : ExchangeError) :
    Decision redirectUri p [.exchange p.code redirectUri (.after delay (.error failure))]
      (.exchangeFailed failure)
  /-- The token that comes back is verified, even if it is empty. -/
  | exchanged (error : p.error = "") (idToken : p.idToken = "") (code : p.code ≠ "")
      (delay wait : Duration) (grant : Token.Grant) (answer : Except BrokerError String) :
    Decision redirectUri p
      [.exchange p.code redirectUri (.after delay (.ok grant)),
        .verify grant.idToken (.after wait answer)] (.ofAnswer answer)
  /-- Without a signal the empty token is verified. -/
  | nothing (error : p.error = "") (idToken : p.idToken = "") (code : p.code = "")
      (delay : Duration) (answer : Except BrokerError String) :
    Decision redirectUri p [.verify "" (.after delay answer)] (.ofAnswer answer)

/-! ### What one step does

A run that is to be finished has one step for each thing that is to be done. These lemmas say what
that step leaves in the record and how the run goes on. -/

namespace Run.Finishes

variable {parties : Parties σ} {p : Params} {r t : Recorded σ} {outcome : Outcome}

theorem of_finished {result : Outcome} (h : Finishes parties (.finished result) r outcome t) :
    outcome = result ∧ t = r := by
  cases h
  exact ⟨rfl, rfl⟩

theorem of_announce {verdict : Verdict}
    (h : Finishes parties (.suspended p (.announce verdict)) r outcome t) :
    outcome = verdict.outcome ∧ t.calls = r.calls ++ parties.announcement p verdict r.world := by
  cases h with
  | resumed world step rest =>
    rw [Run.resume, Parties.announce_recorded] at step
    obtain ⟨rfl, hnext⟩ := Prod.mk.inj step
    obtain ⟨-, rfl⟩ := Delayed.after.inj hnext
    obtain ⟨houtcome, ht⟩ := rest.of_finished
    exact ⟨houtcome, by rw [ht]⟩

theorem of_verify {token : String}
    (h : Finishes parties (.suspended p (.verify token)) r outcome t) :
    ∃ delay answer world, outcome = (Verdict.ofAnswer answer).outcome ∧
      t.calls = r.calls ++ .verify token (.after delay answer) ::
        parties.announcement p (.ofAnswer answer) world := by
  cases h with
  | resumed world step rest =>
    simp only [Run.resume, Parties.recorded] at step
    cases hanswer : (parties.verify token r.world).2 with
    | never => simp [hanswer, Delayed.map] at step
    | after wait answer =>
      rw [hanswer] at step
      obtain ⟨rfl, hnext⟩ := Prod.mk.inj step
      obtain ⟨-, rfl⟩ := Delayed.after.inj hnext
      simp only [Progress.afterVerify_eq] at rest
      obtain ⟨houtcome, hcalls⟩ := rest.of_announce
      exact ⟨wait, answer, world, houtcome, by simp [hcalls]⟩

theorem of_exchange {code : String}
    (h : Finishes parties (.suspended p (.exchange code)) r outcome t) :
    (∃ delay error world, outcome = .gotError ∧
      t.calls = r.calls ++ .exchange code parties.redirectUri (.after delay (.error error)) ::
        parties.announcement p (.exchangeFailed error) world) ∨
    ∃ delay grant wait answer world, outcome = (Verdict.ofAnswer answer).outcome ∧
      t.calls = r.calls ++ .exchange code parties.redirectUri (.after delay (.ok grant)) ::
        .verify grant.idToken (.after wait answer) ::
          parties.announcement p (.ofAnswer answer) world := by
  cases h with
  | resumed world step rest =>
    simp only [Run.resume, Parties.recorded] at step
    cases hanswer : (parties.exchange code parties.redirectUri r.world).2 with
    | never => simp [hanswer, Delayed.map] at step
    | after delay answer =>
      rw [hanswer] at step
      obtain ⟨rfl, hnext⟩ := Prod.mk.inj step
      obtain ⟨-, rfl⟩ := Delayed.after.inj hnext
      cases answer with
      | error error =>
        obtain ⟨houtcome, hcalls⟩ := rest.of_announce
        exact .inl ⟨delay, error, world, houtcome, by simp [hcalls]⟩
      | ok grant =>
        obtain ⟨wait, answer, world, houtcome, hcalls⟩ := rest.of_verify
        exact .inr ⟨delay, grant, wait, answer, world, houtcome, by simp [hcalls]⟩

/-! ### What a whole run does -/

/-- The questions of a run and the verdict follow the order of the signals, and what comes behind
the questions is the announcement of the verdict in the world of that moment. -/
theorem calls {s : σ} (h : Finishes parties (.start p) ⟨s, []⟩ outcome t) :
    ∃ questions verdict world, Decision parties.redirectUri p questions verdict ∧
      outcome = verdict.outcome ∧
      t.calls = questions ++ parties.announcement p verdict world := by
  rw [Run.start, Progress.start, Params.signal] at h
  split_ifs at h with herror htoken hcode
  · obtain ⟨houtcome, hcalls⟩ := h.of_announce
    exact ⟨_, _, s, .refused herror, houtcome, hcalls⟩
  · obtain ⟨delay, answer, world, houtcome, hcalls⟩ := h.of_verify
    exact ⟨_, _, world, .token (not_not.1 herror) htoken delay answer, houtcome, hcalls⟩
  · rw [not_not] at herror htoken
    obtain ⟨delay, error, world, houtcome, hcalls⟩ |
      ⟨delay, grant, wait, answer, world, houtcome, hcalls⟩ := h.of_exchange
    · exact ⟨_, _, world, .exchangeFailed herror htoken hcode delay error, houtcome, hcalls⟩
    · exact ⟨_, _, world, .exchanged herror htoken hcode delay wait grant answer, houtcome, hcalls⟩
  · rw [not_not] at herror htoken hcode
    obtain ⟨delay, answer, world, houtcome, hcalls⟩ := h.of_verify
    exact ⟨_, _, world, .nothing herror htoken hcode delay answer, houtcome, hcalls⟩

end Run.Finishes

/-! ### The run without interruptions -/

namespace Run

variable {parties : Parties σ}

theorem stepsLeft_pos (p : Params) (progress : Progress) :
    0 < (suspended p progress).stepsLeft := by
  cases progress <;> exact Nat.succ_pos _

theorem stepsLeft_le (run : Run) : run.stepsLeft ≤ 3 := by
  cases run with
  | suspended p progress => cases progress <;> simp [stepsLeft]
  | finished outcome => exact Nat.zero_le 3

/-- A callback that goes on has less to do. -/
theorem stepsLeft_resume {p : Params} {progress : Progress} {next : Run} {s s' : σ}
    {delay : Duration} (h : (suspended p progress).resume parties s = (s', .after delay next)) :
    next.stepsLeft < (suspended p progress).stepsLeft := by
  cases progress with
  | exchange code =>
    obtain ⟨answer, -, rfl⟩ := Delayed.of_map_eq_after (Prod.mk.inj h).2
    cases answer with
    | ok grant => exact Nat.lt_succ_self 2
    | error error => exact (by decide : 1 < 3)
  | verify token =>
    obtain ⟨answer, -, rfl⟩ := Delayed.of_map_eq_after (Prod.mk.inj h).2
    cases answer with
    | ok identity => exact Nat.lt_succ_self 1
    | error error => exact Nat.lt_succ_self 1
  | announce verdict =>
    obtain ⟨-, rfl⟩ := Delayed.after.inj (Prod.mk.inj h).2
    exact Nat.zero_lt_one

/-- The record changes nothing about a step. -/
theorem resume_recorded (run : Run) (r : Recorded σ) :
    run.resume parties r.world =
      ((run.resume parties.recorded r).1.world, (run.resume parties.recorded r).2) := by
  match run with
  | .finished outcome => rfl
  | .suspended p (.exchange code) => rfl
  | .suspended p (.verify token) => rfl
  | .suspended p (.announce verdict) => rw [resume, resume, Parties.announce_recorded]

/-- Nothing is left to be done for a callback that is finished. -/
theorem workWithin_finished (parties : Parties σ) (steps : Nat) (outcome : Outcome) (s : σ) :
    Delayed.workWithin (Run.resume parties) Run.outcome? steps none (.finished outcome) s =
      (s, some outcome) :=
  Delayed.workWithin_of_result (by simp) rfl

/-- The record changes nothing about a whole run. -/
theorem workWithin_recorded (parties : Parties σ) (steps : Nat) (run : Run) (r : Recorded σ) :
    Delayed.workWithin (Run.resume parties) Run.outcome? steps none run r.world =
      ((Delayed.workWithin (Run.resume parties.recorded) Run.outcome? steps none run r).1.world,
        (Delayed.workWithin (Run.resume parties.recorded) Run.outcome? steps none run r).2) :=
  Delayed.workWithin_view Recorded.world resume_recorded r

/-- If all questions are answered, a callback can do its next thing. -/
theorem resume_of_answer (h : parties.Answer) (p : Params) (progress : Progress) (r : Recorded σ) :
    ∃ r' delay next,
      (suspended p progress).resume parties.recorded r = (r', .after delay next) := by
  cases progress with
  | exchange code =>
    obtain ⟨s', delay, answer, hanswer⟩ := h.exchange code parties.redirectUri r.world
    refine ⟨⟨s', r.calls ++ [.exchange code parties.redirectUri (.after delay answer)]⟩, delay,
      .suspended p (.afterExchange answer), ?_⟩
    simp [resume, Parties.recorded, hanswer, Delayed.map]
  | verify token =>
    obtain ⟨s', delay, answer, hanswer⟩ := h.verify token r.world
    refine ⟨⟨s', r.calls ++ [.verify token (.after delay answer)]⟩, delay,
      .suspended p (.afterVerify answer), ?_⟩
    simp [resume, Parties.recorded, hanswer, Delayed.map]
  | announce verdict => exact ⟨_, _, _, rfl⟩

/-- If all questions are answered, a callback comes to its end without interruptions, which is one
of the runs in a changing world. -/
theorem finishes_of_answer (h : parties.Answer) {steps : Nat} (run : Run) (r : Recorded σ)
    (hsteps : run.stepsLeft ≤ steps) :
    ∃ outcome t, Delayed.workWithin (Run.resume parties.recorded) Run.outcome? steps none run r =
        (t, some outcome) ∧ run.Finishes parties r outcome t := by
  induction steps generalizing run r with
  | zero =>
    cases run with
    | finished outcome =>
      exact ⟨outcome, r, workWithin_finished _ _ outcome r, .finished⟩
    | suspended p progress => exact absurd hsteps (Nat.not_le.2 (stepsLeft_pos p progress))
  | succ steps ih =>
    cases run with
    | finished outcome =>
      exact ⟨outcome, r, workWithin_finished _ _ outcome r, .finished⟩
    | suspended p progress =>
      obtain ⟨r', delay, next, hstep⟩ := resume_of_answer h p progress r
      have hless := stepsLeft_resume hstep
      obtain ⟨outcome, t, ht, hrest⟩ := ih next r' (by omega)
      refine ⟨outcome, t, ?_, .resumed r'.world hstep hrest⟩
      rw [Delayed.workWithin_of_step (by simp) rfl hstep]
      exact ht

end Run

/-- The record changes nothing about how a callback is handled. -/
theorem handle_recorded (parties : Parties σ) (deadline : Option Duration) (p : Params)
    (r : Recorded σ) :
    handle parties deadline p r.world =
      ((handle parties.recorded deadline p r).1.world, (handle parties.recorded deadline p r).2) :=
  Delayed.workWithin_view Recorded.world Run.resume_recorded r

/-- The announcement of a verdict asks nobody. -/
theorem Parties.filter_announcement (parties : Parties σ) (p : Params) (verdict : Verdict) (s : σ) :
    (parties.announcement p verdict s).filter Call.isQuestion = [] := by
  rw [announcement]
  split <;> rfl

theorem Decision.filter_eq {redirectUri : String} {p : Params} {questions : List (Call σ)}
    {verdict : Verdict} (h : Decision redirectUri p questions verdict) :
    questions.filter Call.isQuestion = questions := by
  cases h <;> rfl

/-- **Whom a callback calls.** Whatever the others answer and whatever becomes of the world in the
meantime, the questions of a callback, their answers and its outcome are those of a decision; an
identity is accepted only as the answer to the last of its questions, the verification of the token
that it came to. If every question is answered, there is such a run without interruptions. -/
theorem calls_decided (parties : Parties σ) (p : Params) (s : σ) :
    (∀ outcome t, (Run.start p).Finishes parties ⟨s, []⟩ outcome t →
      (∃ verdict, Decision parties.redirectUri p (t.calls.filter Call.isQuestion) verdict ∧
        outcome = verdict.outcome) ∧
      ∀ identity, outcome = .verified identity → ∃ token delay,
        (t.calls.filter Call.isQuestion).getLast? =
          some (.verify token (.after delay (.ok identity)))) ∧
    (parties.Answer → ∃ outcome t, handle parties none p s = (t.world, some outcome) ∧
      (Run.start p).Finishes parties ⟨s, []⟩ outcome t) := by
  refine ⟨fun outcome t h => ?_, fun h => ?_⟩
  · obtain ⟨questions, verdict, world, hdecision, houtcome, hcalls⟩ := h.calls
    have hquestions : t.calls.filter Call.isQuestion = questions := by
      rw [hcalls, List.filter_append, hdecision.filter_eq, Parties.filter_announcement,
        List.append_nil]
    rw [hquestions]
    refine ⟨⟨verdict, hdecision, houtcome⟩, fun identity hidentity => ?_⟩
    rw [hidentity] at houtcome
    cases hdecision with
    | refused => simp [Verdict.outcome] at houtcome
    | exchangeFailed => simp [Verdict.outcome] at houtcome
    | token _ _ delay answer | exchanged _ _ _ _ delay _ answer | nothing _ _ _ delay answer =>
      cases answer with
      | error error => simp [Verdict.ofAnswer, Verdict.outcome] at houtcome
      | ok i =>
        obtain rfl : identity = i := by simpa [Verdict.ofAnswer, Verdict.outcome] using houtcome
        exact ⟨_, delay, rfl⟩
  · obtain ⟨outcome, t, ht, hfinishes⟩ :=
      Run.finishes_of_answer h (Run.start p) ⟨s, []⟩ (Nat.le_refl _)
    refine ⟨outcome, t, ?_, hfinishes⟩
    have hplain := Run.workWithin_recorded parties (Run.start p).stepsLeft (Run.start p) ⟨s, []⟩
    rw [ht] at hplain
    exact hplain

/-- A callback with a code and nothing else, whose code is exchanged for the token `xyz`. -/
theorem calls_decided_code :
    let parties : Parties Unit := .ofAnswers "http://localhost:44180/verify"
      (fun _ _ => .ok ⟨"xyz"⟩)
      (fun token => if token = "xyz" then .ok "a@b.com" else .error .destroyed)
    let p := Params.ofForm [("code", "AUTH123")]
    parties.Answer ∧ ∃ outcome t, handle parties none p () = (t.world, some outcome) ∧
      (Run.start p).Finishes parties ⟨(), []⟩ outcome t ∧
      ∃ verdict, Decision parties.redirectUri p (t.calls.filter Call.isQuestion) verdict ∧
        outcome = verdict.outcome := by
  intro parties p
  have hanswer : parties.Answer := Parties.answer_ofAnswers ..
  obtain ⟨hdecided, hruns⟩ := calls_decided parties p ()
  obtain ⟨outcome, t, hhandle, hfinishes⟩ := hruns hanswer
  exact ⟨hanswer, outcome, t, hhandle, hfinishes, (hdecided outcome t hfinishes).1⟩

end SignIn.Callback
