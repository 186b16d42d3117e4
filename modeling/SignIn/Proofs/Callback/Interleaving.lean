import Mathlib.Data.List.Perm.Basic
import SignIn.Proofs.Callback.Course
import SignIn.Proofs.Callback.Crowd

/-!
# Callbacks at the same time do not disturb each other

If the answers depend on the questions alone and the listeners leave the bus alone, the order in
which callbacks take turns decides about nothing but order. Every callback comes to what it would
have come to on its own. What all of them do to others is what they would have done on their own,
taken together. And the listeners hear of the callbacks in the order in which they were finished,
because a callback is announced and finished in one step.

The proof is an account that every turn leaves in balance: what has been done so far, together with
what is still on the courses of the callbacks, is what was on their courses when they came in.

## Main definitions

* `Callback.Crowd.Accounts` — the account

## Main results

* `Callback.Crowd.Accounts.turn`, `Callback.Crowd.Accounts.interleave` — a turn keeps the account,
  and so do any turns
* `Callback.handleAll_outcomes` — callbacks that are handled at the same time come to what each
  comes to on its own
* `Callback.handled_as_alone` — whatever the turns are, every callback is handled as on its own
-/

namespace SignIn.Callback

section Lists

variable {α β : Type}

theorem map_set_of_eq {l : List α} {i : Nat} {x a : α} {f : α → β} (hx : l[i]? = some x)
    (h : f x = f a) : (l.set i a).map f = l.map f := by
  obtain ⟨hi, rfl⟩ := List.getElem?_eq_some_iff.1 hx
  have hi' : i < (l.map f).length := by simpa using hi
  rw [List.map_set, ← h, ← List.getElem_map f (h := hi')]
  exact List.set_getElem_self hi'

/-- What is taken off one of the lists is missing in all of them together. -/
theorem flatMap_set_perm {l : List α} {i : Nat} {x a : α} {f : α → List β} {taken : List β}
    (hx : l[i]? = some x) (h : f x = taken ++ f a) :
    (taken ++ (l.set i a).flatMap f).Perm (l.flatMap f) := by
  obtain ⟨hi, rfl⟩ := List.getElem?_eq_some_iff.1 hx
  have hset : ((l.set i a).flatMap f).Perm (f a ++ (l.eraseIdx i).flatMap f) :=
    (List.set_perm_cons_eraseIdx hi a).flatMap_right f
  have hold : (f l[i] ++ (l.eraseIdx i).flatMap f).Perm (l.flatMap f) :=
    (List.getElem_cons_eraseIdx_perm hi).flatMap_right f
  rw [h, List.append_assoc] at hold
  exact (hset.append_left taken).trans hold

end Lists

namespace Crowd

variable {μ : Type} {nesting : Nat} {replies : Replies} {redirectUri : String}
  {exchange : (code redirectUri : String) → Party.State μ →
    Party.State μ × Delayed (Except ExchangeError Token.Grant)}
  {verify : (token : String) → Party.State μ → Party.State μ × Delayed (Except BrokerError String)}
  {s : Party.State μ} {callbacks : List Params} {c : Crowd (Recorded (Party.State μ))}

/-- The account of callbacks that came in when the world was `s`. What is done and what is still to
be done is what was to be done, no callback is taken for another, and what the listeners heard is
what the finished callbacks came to. -/
structure Accounts (replies : Replies) (redirectUri : String) (s : Party.State μ)
    (callbacks : List Params) (c : Crowd (Recorded (Party.State μ))) : Prop where
  outcomes : c.runs.map (fun run => (replies.course redirectUri s.listeners.bus run).outcome) =
    callbacks.map fun p => (replies.course redirectUri s.listeners.bus (some (.start p))).outcome
  deeds : (c.world.deeds ++
      c.runs.flatMap fun run => (replies.course redirectUri s.listeners.bus run).deeds).Perm
    (callbacks.flatMap fun p =>
      (replies.course redirectUri s.listeners.bus (some (.start p))).deeds)
  params : ∀ (i : Nat) p progress, c.runs[i]? = some (some (.suspended p progress)) →
    callbacks[i]? = some p
  events : c.world.events =
    c.finished.filterMap fun x => callbacks[x.1]?.map fun p => x.2.event p
  listeners : c.world.world.listeners = c.world.events.foldl Event.State.react s.listeners

namespace Accounts

/-- Callbacks that have just come in. -/
theorem enter (replies : Replies) (redirectUri : String) (s : Party.State μ)
    (callbacks : List Params) :
    Accounts replies redirectUri s callbacks (Crowd.enter callbacks ⟨s, []⟩) where
  outcomes := by
    rw [Crowd.enter, List.map_map]
    rfl
  deeds := by
    rw [Crowd.enter, List.flatMap_map]
    exact .refl _
  params := by
    intro i p progress hrun
    rw [getElem?_enter] at hrun
    obtain ⟨p', hp', hstart⟩ := Option.map_eq_some_iff.1 hrun
    rw [← (Run.suspended.inj (Option.some.inj hstart)).1]
    exact hp'
  events := rfl
  listeners := rfl

/-- What a step does keeps the account. -/
theorem advance {i : Nat} {p : Params} {progress : Progress} {r : Recorded (Party.State μ)}
    {run : Option Run} {ds : List Deed} (h : Accounts replies redirectUri s callbacks c)
    (hrun : c.runs[i]? = some (some (.suspended p progress)))
    (hadvances : replies.Advances redirectUri s.listeners.bus p progress c.world r run ds) :
    Accounts replies redirectUri s callbacks
      ⟨c.runs.set i run, c.finished ++ ((run.bind Run.outcome?).map (i, ·)).toList, r⟩ := by
  obtain ⟨hi, -⟩ := List.getElem?_eq_some_iff.1 hrun
  have hself : (c.runs.set i run)[i]? = some run := List.getElem?_set_self hi
  have hothers : ∀ j ≠ i, (c.runs.set i run)[j]? = c.runs[j]? :=
    fun j hj => List.getElem?_set_ne hj.symm
  have hevents : r.events = (c.finished ++ ((run.bind Run.outcome?).map (i, ·)).toList).filterMap
      fun x => callbacks[x.1]?.map fun p => x.2.event p := by
    rw [Recorded.events_of_deeds hadvances.deeds, h.events, List.filterMap_append]
    congr 1
    obtain ⟨outcome, rfl, hds⟩ | ⟨hds, hnext⟩ := hadvances.ends
    · rw [hds]
      simp [Run.outcome?, h.params i p progress hrun]
    · rw [hds]
      cases run with
      | none => rfl
      | some run =>
        obtain ⟨progress', rfl⟩ := hnext run rfl
        rfl
  refine ⟨?_, ?_, ?_, hevents, ?_⟩
  · rw [← h.outcomes]
    refine map_set_of_eq hrun ?_
    rw [hadvances.course]
    rfl
  · rw [hadvances.deeds, List.append_assoc]
    refine ((flatMap_set_perm hrun ?_).append_left _).trans h.deeds
    rw [hadvances.course]
    rfl
  · intro j p' progress' hj
    by_cases hij : j = i
    · subst hij
      obtain rfl := Option.some.inj (hself.symm.trans hj)
      obtain ⟨outcome, hfinal, -⟩ | ⟨-, hnext⟩ := hadvances.ends
      · cases hfinal
      · obtain ⟨progress'', hsame⟩ := hnext _ rfl
        rw [(Run.suspended.inj hsame).1]
        exact h.params j p progress hrun
    · rw [hothers j hij] at hj
      exact h.params j p' progress' hj
  · rw [hadvances.listeners, h.listeners, ← List.foldl_append,
      ← Recorded.events_of_deeds hadvances.deeds]

/-- A turn keeps the account. -/
theorem turn (hgovern : replies.Govern exchange verify) (hplain : s.listeners.bus.IsPlain)
    (h : Accounts replies redirectUri s callbacks c) (i : Nat) :
    Accounts replies redirectUri s callbacks
      (c.turn (Parties.onBus (nesting + 1) redirectUri exchange verify).recorded i) := by
  by_cases hwaits : ∃ p progress, c.runs[i]? = some (some (.suspended p progress))
  · obtain ⟨p, progress, hrun⟩ := hwaits
    have htable : HasTable s.listeners.bus c.world.world :=
      HasTable.of_listeners ⟨hplain, rfl⟩ h.listeners
    obtain ⟨r, next, ds, hstep, hadvances⟩ :=
      @Replies.resume_course _ nesting redirectUri replies _ _ _ hgovern _ htable p progress
    rw [turn_of_suspended hrun hstep]
    generalize next.value? = run at hadvances
    exact h.advance hrun hadvances
  · rw [turn_of_forall_ne fun p progress hrun => hwaits ⟨p, progress, hrun⟩]
    exact h

theorem interleave (hgovern : replies.Govern exchange verify) (hplain : s.listeners.bus.IsPlain)
    (h : Accounts replies redirectUri s callbacks c) (turns : List Nat) :
    Accounts replies redirectUri s callbacks
      (c.interleave (Parties.onBus (nesting + 1) redirectUri exchange verify).recorded turns) := by
  induction turns generalizing c with
  | nil => exact h
  | cons i turns ih => exact ih (h.turn hgovern hplain i)

/-! ### The account at the end -/

/-- What a callback has come to, or will come to. -/
theorem outcome_at (h : Accounts replies redirectUri s callbacks c) (i : Nat) :
    c.runs[i]?.map (fun run => (replies.course redirectUri s.listeners.bus run).outcome) =
      callbacks[i]?.map fun p =>
        (replies.course redirectUri s.listeners.bus (some (.start p))).outcome := by
  rw [← List.getElem?_map, ← List.getElem?_map, h.outcomes]

theorem outcome_of_mem (h : Accounts replies redirectUri s callbacks c) (htallied : c.Tallied)
    {i : Nat} {outcome : Outcome} (hmem : (i, outcome) ∈ c.finished) :
    ∃ p, callbacks[i]? = some p ∧
      (replies.course redirectUri s.listeners.bus (some (.start p))).outcome = some outcome := by
  have hat := h.outcome_at i
  rw [(htallied.finished i outcome).1 hmem] at hat
  exact Option.map_eq_some_iff.1 hat.symm

/-- When no callback has anything to do any more, each has come to what it was to come to. -/
theorem lookup_of_isSettled (h : Accounts replies redirectUri s callbacks c) (htallied : c.Tallied)
    (hsettled : c.IsSettled) {i : Nat} {p : Params} (hp : callbacks[i]? = some p) :
    c.finished.lookup i =
      (replies.course redirectUri s.listeners.bus (some (.start p))).outcome := by
  have hat := h.outcome_at i
  rw [hp] at hat
  obtain ⟨run, hrun, houtcome⟩ := Option.map_eq_some_iff.1 hat
  rw [htallied.lookup_eq hrun]
  refine Eq.trans ?_ houtcome
  rcases run with _ | ⟨p', progress⟩ | outcome
  · rfl
  · exact absurd hrun (hsettled i p' progress)
  · rfl

/-- Then all is done that was to be done. -/
theorem deeds_of_isSettled (h : Accounts replies redirectUri s callbacks c)
    (hsettled : c.IsSettled) : c.world.deeds.Perm (callbacks.flatMap fun p =>
      (replies.course redirectUri s.listeners.bus (some (.start p))).deeds) := by
  have hnone : c.runs.flatMap (fun run => (replies.course redirectUri s.listeners.bus run).deeds) =
      [] := by
    refine List.flatMap_eq_nil_iff.2 fun run hmem => ?_
    obtain ⟨i, hi⟩ := List.getElem?_of_mem hmem
    rcases run with _ | ⟨p, progress⟩ | outcome
    · rfl
    · exact absurd hi (hsettled i p progress)
    · rfl
  have hdeeds := h.deeds
  rw [hnone, List.append_nil] at hdeeds
  exact hdeeds

end Accounts

end Crowd

section Whole

variable {μ : Type} {replies : Replies}
  {exchange : (code redirectUri : String) → Party.State μ →
    Party.State μ × Delayed (Except ExchangeError Token.Grant)}
  {verify : (token : String) → Party.State μ → Party.State μ × Delayed (Except BrokerError String)}

/-- The outcomes of callbacks that are handled at the same time are those of each on its own. -/
theorem handleAll_outcomes (h : replies.Govern exchange verify) (nesting : Nat)
    (redirectUri : String) {s : Party.State μ} (hs : s.listeners.bus.IsPlain)
    (callbacks : List Params) :
    (handleAll (.onBus (nesting + 1) redirectUri exchange verify) callbacks s).1 =
      callbacks.map fun p =>
        (handle (.onBus (nesting + 1) redirectUri exchange verify) none p s).2 := by
  let parties := Parties.onBus (nesting + 1) redirectUri exchange verify
  obtain ⟨turns, hsettled, hall⟩ := handleAll_eq parties callbacks s
  have hview : (Crowd.enter callbacks s).interleave parties turns =
      ((Crowd.enter callbacks ⟨s, []⟩).interleave parties.recorded turns).unrecorded :=
    Crowd.interleave_recorded parties turns (Crowd.enter callbacks ⟨s, []⟩)
  have haccounts : Crowd.Accounts replies redirectUri s callbacks
      ((Crowd.enter callbacks ⟨s, []⟩).interleave parties.recorded turns) :=
    (Crowd.Accounts.enter ..).interleave h hs turns
  have htallied := Crowd.tallied_interleave callbacks (⟨s, []⟩ : Recorded _) parties.recorded turns
  rw [hview] at hsettled hall
  rw [hall]
  refine List.ext_getElem (by simp) fun i hi _ => ?_
  have hi' : i < callbacks.length := by simpa using hi
  have hlookup := haccounts.lookup_of_isSettled htallied hsettled (List.getElem?_eq_getElem hi')
  obtain ⟨hsolo, -⟩ := Replies.handle_course h ⟨hs, rfl⟩ callbacks[i]
  simp only [List.getElem_map, List.getElem_range]
  exact hlookup.trans hsolo.symm

/-- **Callbacks at the same time do not disturb each other.** Whatever turns they take, a callback
that is finished has come to what it comes to on its own, and is finished once. The events are those
of the finished callbacks, in the order in which they were finished, and every listener is called
with those of its kind, once each and in that order. When no callback has anything to do any more,
which three turns for each are enough for, all questions, events and lines in the log are together
those of each callback on its own. In particular the outcomes are the same when every answer takes
the time that it takes. -/
theorem handled_as_alone (h : replies.Govern exchange verify) (nesting : Nat) (redirectUri : String)
    {s : Party.State μ} (hs : s.listeners.bus.IsPlain) (callbacks : List Params)
    (turns : List Nat) :
    let parties := Parties.onBus (nesting + 1) redirectUri exchange verify
    let b := s.listeners.bus
    let c := (Crowd.enter callbacks ⟨s, []⟩).interleave parties.recorded turns
    (∀ i outcome, (i, outcome) ∈ c.finished →
      ∃ p, callbacks[i]? = some p ∧ (handle parties none p s).2 = some outcome) ∧
    (c.finished.map Prod.fst).Nodup ∧
    c.world.events =
      c.finished.filterMap (fun x => callbacks[x.1]?.map fun p => x.2.event p) ∧
    c.world.world.listeners = (b.calls c.world.events).foldl b.respond s.listeners ∧
    (∀ (i : Nat) r, b.registrations[i]? = some r →
      ((b.calls c.world.events).filter (·.1 = i)).map Prod.snd =
        c.world.events.filter (·.kind = r.kind)) ∧
    (c.IsSettled →
      (∀ (i : Nat) p, callbacks[i]? = some p →
        c.finished.lookup i = (handle parties none p s).2) ∧
      c.world.deeds.Perm
        (callbacks.flatMap fun p => (handle parties.recorded none p ⟨s, []⟩).1.deeds)) ∧
    ((∀ i < callbacks.length, 3 ≤ turns.count i) → c.IsSettled) ∧
    (handleAll parties callbacks s).1 = callbacks.map fun p => (handle parties none p s).2 := by
  intro parties b c
  have haccounts : Crowd.Accounts replies redirectUri s callbacks c :=
    (Crowd.Accounts.enter ..).interleave h hs turns
  have htallied : c.Tallied := Crowd.tallied_interleave callbacks ⟨s, []⟩ parties.recorded turns
  have hsolo := @Replies.handle_course _ nesting redirectUri replies b _ _ h s ⟨hs, rfl⟩
  refine ⟨?_, htallied.nodup, haccounts.events, ?_, ?_, ?_, ?_,
    handleAll_outcomes h nesting redirectUri hs callbacks⟩
  · intro i outcome hmem
    obtain ⟨p, hp, houtcome⟩ := haccounts.outcome_of_mem htallied hmem
    exact ⟨p, hp, (hsolo p).1.trans houtcome⟩
  · rw [haccounts.listeners]
    exact (Event.foldl_respond_calls rfl _).symm
  · intro i r hr
    exact Event.Bus.calls_at hr _
  · intro hsettled
    constructor
    · intro i p hp
      rw [(hsolo p).1]
      exact haccounts.lookup_of_isSettled htallied hsettled hp
    · have hcourses : (fun p => (handle parties.recorded none p ⟨s, []⟩).1.deeds) =
          fun p => (replies.course redirectUri b (some (.start p))).deeds :=
        funext fun p => (hsolo p).2
      rw [hcourses]
      exact haccounts.deeds_of_isSettled hsettled
  · intro hthree
    exact Crowd.isSettled_of_count hthree parties.recorded ⟨s, []⟩

/-- A code and a bad token come in together, and the token is rejected while the code is being
exchanged. -/
theorem handled_as_alone_overtaken :
    let replies : Replies :=
      ⟨fun _ _ => some (.ok ⟨"xyz"⟩),
        fun token => some (if token = "xyz" then .ok "a@b.com" else .error .destroyed)⟩
    ∃ (s : Party.State Unit) (exchange : _) (verify : _),
      replies.Govern exchange verify ∧ s.listeners.bus.IsPlain ∧
      let parties := Parties.onBus 1 "http://localhost:44180/verify" exchange verify
      let c := (Crowd.enter [.ofForm [("code", "AUTH123")], .ofForm [("id_token", "bad")]]
        ⟨s, []⟩).interleave parties.recorded [0, 1, 1, 0, 0, 1]
      c.finished.lookup 0 = some (.verified "a@b.com") ∧ c.finished.lookup 1 = some .invalidToken ∧
        c.world.world.listeners.bus.mailboxes = [⟨[.verified "a@b.com"], true⟩] := by
  intro replies
  let url : Url := ⟨"http", "", "", some (.domain "localhost"), none, .segments [""], none, none⟩
  let bus : Event.Bus Unit := (Event.Bus.empty.subscribe .verified).2
  let s : Party.State Unit := ⟨.start ⟨url, url, none, 0⟩ 0, ⟨bus, ()⟩, [], 0, fun _ => 0, 0, false⟩
  let exchange : (code redirectUri : String) → Party.State Unit →
      Party.State Unit × Delayed (Except ExchangeError Token.Grant) :=
    fun _ _ s => (s, .after 7 (.ok ⟨"xyz"⟩))
  let verify : (token : String) → Party.State Unit →
      Party.State Unit × Delayed (Except BrokerError String) :=
    fun token s => (s, .after 1 (if token = "xyz" then .ok "a@b.com" else .error .destroyed))
  have hgovern : replies.Govern exchange verify :=
    ⟨fun _ _ _ => rfl, fun _ _ => rfl, fun _ _ _ => rfl, fun _ _ => rfl⟩
  have hplain : s.listeners.bus.IsPlain := by
    intro r hr
    obtain rfl := List.mem_singleton.1 hr
    exact .mailbox 0
  obtain ⟨-, -, -, -, -, hsettled, hthree, -⟩ := handled_as_alone hgovern 0
    "http://localhost:44180/verify" hplain
    [.ofForm [("code", "AUTH123")], .ofForm [("id_token", "bad")]] [0, 1, 1, 0, 0, 1]
  obtain ⟨hlookup, -⟩ := hsettled (hthree (by decide))
  refine ⟨s, exchange, verify, hgovern, hplain, ?_, ?_, ?_⟩
  · exact (hlookup 0 _ rfl).trans rfl
  · exact (hlookup 1 _ rfl).trans rfl
  · rfl

end Whole

end SignIn.Callback
