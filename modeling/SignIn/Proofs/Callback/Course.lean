import SignIn.Proofs.Callback.Announcement
import SignIn.Proofs.Event.Plain

/-!
# The course of a callback

If the others always give the same answer to the same question, and the listeners leave the bus
alone, then nothing that a callback depends on ever changes. Its course is settled when it comes in:
what it will ask, what it will announce, whether it will write into the log, and what it will come
to. A step of the callback takes what is first off its course, in whatever state it finds the
world.

An answer may take any time, and that may well depend on the state of the world. It may also never
come, and then it never comes to that question.

## Main definitions

* `Callback.Deed` — what a callback does to others
* `Callback.Replies`, `Callback.Replies.Govern` — always the same answers
* `Callback.Replies.course` — all that a callback will do, and what it will come to

## Main results

* `Callback.Replies.resume_course` — a step takes what is first off the course
* `Callback.Replies.handle_course` — a callback on its own takes its course
-/

namespace SignIn.Callback

/-! ### Deeds -/

/-- What a callback does to others. -/
inductive Deed where
  | exchange (code redirectUri : String)
  | verify (token : String)
  | emit (event : Event)
  | log (diagnostic : Diagnostic)
  deriving DecidableEq, Repr

/-- The event that is emitted. -/
def Deed.event? : Deed → Option Event
  | emit event => some event
  | _ => none

section Deeds

variable {σ : Type}

/-- The deed of a call. -/
def Call.deed : Call σ → Deed
  | exchange code redirectUri _ => .exchange code redirectUri
  | verify token _ => .verify token
  | publish event _ => .emit event
  | log diagnostic => .log diagnostic

/-- All deeds so far, the oldest first. -/
def Recorded.deeds (r : Recorded σ) : List Deed := r.calls.map Call.deed

/-- All events so far, the oldest first. -/
def Recorded.events (r : Recorded σ) : List Event := r.deeds.filterMap Deed.event?

end Deeds

/-! ### Courses -/

/-- What is still to come of a callback. -/
structure Course where
  deeds : List Deed
  /-- What it comes to, if it comes to an end. -/
  outcome : Option Outcome

namespace Course

/-- Nothing, for ever. -/
def stuck : Course := ⟨[], none⟩

/-- Deeds, and then the course. -/
def behind (c : Course) (deeds : List Deed) : Course := { c with deeds := deeds ++ c.deeds }

end Course

/-- Answers that depend on the question alone; some questions are never answered. -/
structure Replies where
  exchange : (code redirectUri : String) → Option (Except ExchangeError Token.Grant)
  verify : (token : String) → Option (Except BrokerError String)

variable {μ : Type}

/-- The broker and the exchanger give these answers, in any state and after any time, and leave the
listeners alone. -/
structure Replies.Govern (replies : Replies)
    (exchange : (code redirectUri : String) → Party.State μ →
      Party.State μ × Delayed (Except ExchangeError Token.Grant))
    (verify : (token : String) → Party.State μ →
      Party.State μ × Delayed (Except BrokerError String)) : Prop where
  exchange_value : ∀ code redirectUri s,
    (exchange code redirectUri s).2.value? = replies.exchange code redirectUri
  verify_value : ∀ token s, (verify token s).2.value? = replies.verify token
  exchange_listeners : ∀ code redirectUri s,
    (exchange code redirectUri s).1.listeners = s.listeners
  verify_listeners : ∀ token s, (verify token s).1.listeners = s.listeners

namespace Replies

variable (replies : Replies) (redirectUri : String) (b : Event.Bus μ) (p : Params)

/-- An announcement, with a line in the log if it is a failure that nobody listens to. -/
def courseOfAnnounce (verdict : Verdict) : Course where
  deeds := .emit (verdict.event p) ::
    if b.count (verdict.event p).kind = 0 then verdict.diagnostic?.toList.map .log else []
  outcome := some verdict.outcome

/-- A verification and the announcement of its result. -/
def courseOfVerify (token : String) : Course :=
  match replies.verify token with
  | none => Course.stuck.behind [.verify token]
  | some answer => (courseOfAnnounce b p (.ofAnswer answer)).behind [.verify token]

/-- An exchange, and the verification of the token that comes back. -/
def courseOfExchange (code : String) : Course :=
  match replies.exchange code redirectUri with
  | none => Course.stuck.behind [.exchange code redirectUri]
  | some (.ok grant) =>
    (replies.courseOfVerify b p grant.idToken).behind [.exchange code redirectUri]
  | some (.error failure) =>
    (courseOfAnnounce b p (.exchangeFailed failure)).behind [.exchange code redirectUri]

/-- All that a callback will do, and what it will come to. Without a run it waits for ever. -/
def course : Option Run → Course
  | none => .stuck
  | some (.finished outcome) => ⟨[], some outcome⟩
  | some (.suspended p (.exchange code)) => replies.courseOfExchange redirectUri b p code
  | some (.suspended p (.verify token)) => replies.courseOfVerify b p token
  | some (.suspended p (.announce verdict)) => courseOfAnnounce b p verdict

end Replies

/-! ### One step -/

theorem Recorded.events_of_deeds {σ : Type} {r r' : Recorded σ} {ds : List Deed}
    (h : r'.deeds = r.deeds ++ ds) : r'.events = r.events ++ ds.filterMap Deed.event? := by
  rw [Recorded.events, h, List.filterMap_append]
  rfl

section Step

variable {nesting : Nat} {redirectUri : String} {replies : Replies} {b : Event.Bus μ}
  {exchange : (code redirectUri : String) → Party.State μ →
    Party.State μ × Delayed (Except ExchangeError Token.Grant)}
  {verify : (token : String) → Party.State μ → Party.State μ × Delayed (Except BrokerError String)}
  {p : Params}

/-- The table has the same listeners as `b`, all of which are plain. -/
structure HasTable (b : Event.Bus μ) (s : Party.State μ) : Prop where
  isPlain : b.IsPlain
  registrations : s.listeners.bus.registrations = b.registrations

theorem HasTable.count {s : Party.State μ} (h : HasTable b s) (kind : Event.Kind) :
    s.listeners.bus.count kind = b.count kind := by
  rw [Event.Bus.count, Event.Bus.count, Event.Bus.listenersOf, h.registrations]
  rfl

/-- What is not done by an event leaves the table as it is. -/
theorem HasTable.of_listeners {s t : Party.State μ} (h : HasTable b s) {events : List Event}
    (ht : t.listeners = events.foldl Event.State.react s.listeners) : HasTable b t := by
  refine ⟨h.isPlain, ?_⟩
  rw [ht, ← h.registrations]
  generalize s.listeners = l
  clear h ht
  induction events generalizing l with
  | nil => rfl
  | cons event events ih => exact (ih _).trans (l.registrations_react event)

theorem HasTable.publish {s : Party.State μ} (h : HasTable b s) (event : Event) :
    Party.State.publish (nesting + 1) event s =
      ({ s with listeners := s.listeners.react event }, b.count event.kind) := by
  have hplain : s.listeners.bus.IsPlain := by
    intro r hr
    rw [h.registrations] at hr
    exact h.isPlain r hr
  simp only [Party.State.publish, Event.emit_of_isPlain hplain, h.count]

theorem HasTable.deeds_announcement {s : Party.State μ} (h : HasTable b s) (verdict : Verdict) :
    ((Parties.onBus (nesting + 1) redirectUri exchange verify).announcement p verdict s).map
      Call.deed = (Replies.courseOfAnnounce b p verdict).deeds := by
  have hheard : ((Parties.onBus (nesting + 1) redirectUri exchange verify).publish
      (verdict.event p) s).2 = b.count (verdict.event p).kind :=
    congrArg Prod.snd (h.publish _)
  rw [Parties.announcement, Replies.courseOfAnnounce, hheard]
  split
  · next diagnostic hcount hdiagnostic => simp [hcount, hdiagnostic, Call.deed]
  · next hnone =>
    split
    · next hcount =>
      have hdiagnostic : verdict.diagnostic? = none :=
        Option.eq_none_iff_forall_ne_some.2 fun d hd => hnone d hcount hd
      simp [hdiagnostic, Call.deed]
    · rfl

theorem HasTable.listeners_announce {s : Party.State μ} (h : HasTable b s) (verdict : Verdict) :
    ((Parties.onBus (nesting + 1) redirectUri exchange verify).announce p verdict s).listeners =
      s.listeners.react (verdict.event p) := by
  have hpublish : ((Parties.onBus (nesting + 1) redirectUri exchange verify).publish
      (verdict.event p) s).1.listeners = s.listeners.react (verdict.event p) :=
    congrArg (fun x => x.1.listeners) (h.publish _)
  rw [Parties.announce]
  simp only
  split
  · exact hpublish
  · exact hpublish

theorem Replies.filterMap_courseOfAnnounce (verdict : Verdict) :
    (courseOfAnnounce b p verdict).deeds.filterMap Deed.event? = [verdict.event p] := by
  rw [courseOfAnnounce]
  split
  · cases verdict <;> rfl
  · rfl

/-- What a step does: it takes deeds off the course and leaves the rest, and the listeners react to
what is emitted. Either it is the announcement, and the callback is finished, or it is a question,
nothing is emitted, and there is less to do when the answer comes. -/
structure Replies.Advances (replies : Replies) (redirectUri : String) (b : Event.Bus μ) (p : Params)
    (progress : Progress) (r r' : Recorded (Party.State μ)) (next : Option Run) (ds : List Deed) :
    Prop where
  deeds : r'.deeds = r.deeds ++ ds
  course : replies.course redirectUri b (some (.suspended p progress)) =
    (replies.course redirectUri b next).behind ds
  listeners : r'.world.listeners =
    (ds.filterMap Deed.event?).foldl Event.State.react r.world.listeners
  ends : (∃ outcome, next = some (.finished outcome) ∧
      ds.filterMap Deed.event? = [outcome.event p]) ∨
    ds.filterMap Deed.event? = [] ∧ ∀ run ∈ next, ∃ progress', run = .suspended p progress'

theorem Replies.advances_announce {r : Recorded (Party.State μ)} (hr : HasTable b r.world)
    (verdict : Verdict) :
    replies.Advances redirectUri b p (.announce verdict) r
      ((Parties.onBus (nesting + 1) redirectUri exchange verify).recorded.announce p verdict r)
      (some (.finished verdict.outcome)) (courseOfAnnounce b p verdict).deeds := by
  rw [Parties.announce_recorded]
  constructor
  · rw [Recorded.deeds, List.map_append, hr.deeds_announcement]
    rfl
  · show courseOfAnnounce b p verdict = ⟨(courseOfAnnounce b p verdict).deeds ++ [], _⟩
    rw [List.append_nil]
    rfl
  · rw [filterMap_courseOfAnnounce]
    exact hr.listeners_announce verdict
  · exact .inl ⟨_, rfl, by rw [filterMap_courseOfAnnounce, Verdict.event_eq]⟩

theorem Replies.advances_question {r : Recorded (Party.State μ)} {world : Party.State μ}
    {progress : Progress} {next : Option Run} {call : Call (Party.State μ)}
    (hcall : call.deed.event? = none) (hworld : world.listeners = r.world.listeners)
    (hcourse : replies.course redirectUri b (some (.suspended p progress)) =
      (replies.course redirectUri b next).behind [call.deed])
    (hnext : ∀ run ∈ next, ∃ progress', run = .suspended p progress') :
    replies.Advances redirectUri b p progress r ⟨world, r.calls ++ [call]⟩ next [call.deed] := by
  have hevents : [call.deed].filterMap Deed.event? = [] := by
    rw [List.filterMap_cons_none hcall]
    rfl
  refine ⟨?_, hcourse, ?_, .inr ⟨hevents, hnext⟩⟩
  · rw [Recorded.deeds, List.map_append]
    rfl
  · rw [hevents]
    exact hworld

/-- A step takes what is first off the course. -/
theorem Replies.resume_course (h : replies.Govern exchange verify)
    {r : Recorded (Party.State μ)} (hr : HasTable b r.world) (p : Params) (progress : Progress) :
    ∃ r' next ds, (Run.suspended p progress).resume
        (Parties.onBus (nesting + 1) redirectUri exchange verify).recorded r = (r', next) ∧
      replies.Advances redirectUri b p progress r r' next.value? ds := by
  cases progress with
  | announce verdict => exact ⟨_, _, _, rfl, advances_announce hr verdict⟩
  | verify token =>
    refine ⟨_, _, _, rfl, advances_question rfl (h.verify_listeners token r.world) ?_ ?_⟩
    · rw [Delayed.value?_map]
      change _ = (replies.course _ _ ((verify token r.world).2.value?.map _)).behind _
      rw [h.verify_value, course, courseOfVerify]
      cases replies.verify token with
      | none => rfl
      | some answer =>
        rw [Option.map_some, Progress.afterVerify_eq]
        rfl
    · rw [Delayed.value?_map]
      intro run hrun
      obtain ⟨answer, -, rfl⟩ := Option.map_eq_some_iff.1 hrun
      exact ⟨_, rfl⟩
  | exchange code =>
    refine ⟨_, _, _, rfl, advances_question rfl
      (h.exchange_listeners code redirectUri r.world) ?_ ?_⟩
    · rw [Delayed.value?_map]
      change _ = (replies.course _ _ ((exchange code redirectUri r.world).2.value?.map _)).behind _
      rw [h.exchange_value, course, courseOfExchange]
      cases replies.exchange code redirectUri with
      | none => rfl
      | some answer => cases answer <;> rfl
    · rw [Delayed.value?_map]
      intro run hrun
      obtain ⟨answer, -, rfl⟩ := Option.map_eq_some_iff.1 hrun
      exact ⟨_, rfl⟩

/-! ### A callback on its own -/

/-- Undisturbed, a callback takes its course. -/
theorem Replies.workWithin_course (h : replies.Govern exchange verify) {steps : Nat} (run : Run)
    {r : Recorded (Party.State μ)} (hr : HasTable b r.world) (hsteps : run.stepsLeft ≤ steps) :
    ∃ t, Delayed.workWithin
        (Run.resume (Parties.onBus (nesting + 1) redirectUri exchange verify).recorded)
        Run.outcome? steps none run r = (t, (replies.course redirectUri b (some run)).outcome) ∧
      t.deeds = r.deeds ++ (replies.course redirectUri b (some run)).deeds := by
  induction steps generalizing run r with
  | zero =>
    cases run with
    | finished outcome =>
      exact ⟨r, Run.workWithin_finished _ _ outcome r, (List.append_nil _).symm⟩
    | suspended p progress => exact absurd hsteps (Nat.not_le.2 (Run.stepsLeft_pos p progress))
  | succ steps ih =>
    cases run with
    | finished outcome =>
      exact ⟨r, Run.workWithin_finished _ _ outcome r, (List.append_nil _).symm⟩
    | suspended p progress =>
      obtain ⟨r', next, ds, hstep, hadvances⟩ := replies.resume_course h hr p progress
      rw [hadvances.course]
      cases next with
      | never =>
        refine ⟨r', Delayed.workWithin_of_never (by simp) rfl hstep, ?_⟩
        exact hadvances.deeds.trans (congrArg (r.deeds ++ ·) (List.append_nil ds).symm)
      | after delay next =>
        have hless := Run.stepsLeft_resume hstep
        obtain ⟨t, ht, htdeeds⟩ := ih next (hr.of_listeners hadvances.listeners) (by omega)
        refine ⟨t, ?_, ?_⟩
        · rw [Delayed.workWithin_of_step (by simp) rfl hstep]
          exact ht
        · rw [htdeeds, hadvances.deeds, List.append_assoc]
          rfl

/-- A callback on its own takes the course that is settled when it comes in. -/
theorem Replies.handle_course (h : replies.Govern exchange verify) {s : Party.State μ}
    (hs : HasTable b s) (p : Params) :
    (handle (.onBus (nesting + 1) redirectUri exchange verify) none p s).2 =
        (replies.course redirectUri b (some (.start p))).outcome ∧
      (handle (Parties.onBus (nesting + 1) redirectUri exchange verify).recorded none p
        ⟨s, []⟩).1.deeds = (replies.course redirectUri b (some (.start p))).deeds := by
  obtain ⟨t, ht, hdeeds⟩ := @workWithin_course _ nesting redirectUri replies b _ _ h _ (.start p)
    ⟨s, []⟩ hs (Nat.le_refl _)
  have hhandle : handle (Parties.onBus (nesting + 1) redirectUri exchange verify).recorded none p
    ⟨s, []⟩ = (t, (replies.course redirectUri b (some (.start p))).outcome) := ht
  refine ⟨?_, ?_⟩
  · rw [handle_recorded _ none p ⟨s, []⟩, hhandle]
  · rw [hhandle]
    exact hdeeds

end Step

end SignIn.Callback
