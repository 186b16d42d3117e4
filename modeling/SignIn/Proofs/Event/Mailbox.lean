import SignIn.Proofs.Event.Snapshot

/-!
# What a receiver gets

A subscription is a registration like any other, and emissions call it like any other: if it was in
the table when they started, once each, even if somebody removes it before they have come to it.
Every call puts the event into the mailbox, and the receiver takes the events out in that order. So
what a receiver was given, and what is still in its mailbox, is in all what the subscription was
called with.

The sending end of a mailbox belongs to the subscription. It is in the table, and a copy of it is in
the hands of every emission that took the subscription when it started, up to the end of that
emission. A receiver is told that nothing will come only if neither is there any more.

A receiver may take something out at any time, also in the middle of an emission.

## Main definitions

* `Event.deliveredFrom`, `Event.invocationsOf` — what a log says of a mailbox
* `Event.HasReceiver` — a subscription whose receiver was not dropped
* `Event.IsHeld` — an emission that has not ended has a copy of the subscription
* `Event.IsRightAnswer` — what a receiver is to be told
* `Event.Deed.post` — what becomes of the mailboxes

## Main results

* `Event.Execution.move_posts` — all that can happen to mailboxes in one step
* `Event.Execution.Posted.move`, `Event.Execution.Posted.after` — no event is lost or duplicated
* `Event.Execution.Posted.mem_invocationsOf_iff` — which events a subscription is called with
-/

namespace SignIn.Event

variable {σ : Type}

/-! ### What a log says of a mailbox -/

/-- What a receiver was given, if it was given something. -/
def Deed.delivery? (index : Nat) : Deed σ → Option Event
  | .received index' (.event event) => if index' = index then some event else none
  | _ => none

/-- All that the receiver of a mailbox was given. -/
def deliveredFrom (index : Nat) (log : List (Deed σ)) : List Event :=
  log.filterMap (Deed.delivery? index)

/-- The emission that called the subscription of a mailbox, and its event. -/
def Deed.invocation? (index : Nat) : Deed σ → Option (Nat × Event)
  | .called number event r => if r.mailbox? = some index then some (number, event) else none
  | _ => none

/-- All calls of the subscription of a mailbox. -/
def invocationsOf (index : Nat) (log : List (Deed σ)) : List (Nat × Event) :=
  log.filterMap (Deed.invocation? index)

/-- A subscription was made, and the receiver of its mailbox was not dropped since. -/
def HasReceiver (r : Registration σ) (index : Nat) (log : List (Deed σ)) : Prop :=
  r.mailbox? = some index ∧
    ∃ before behind, log = before ++ .registered r :: behind ∧ .dropped index ∉ behind

/-- An emission took the registration when it started, and it has not ended. -/
def IsHeld (r : Registration σ) (log : List (Deed σ)) : Prop :=
  ∃ number event before behind, log = before ++ .started number event :: behind ∧
    r ∈ audience before event ∧ ∀ heard, .ended number heard ∉ log

/-- What the receiver of a subscription is to be told: the first event that it was not given yet; if
there is none, whether some may still come. -/
def IsRightAnswer (r : Registration σ) (index : Nat) (log : List (Deed σ)) : Received → Prop
  | .event event => ∃ later,
    (invocationsOf index log).map Prod.snd = deliveredFrom index log ++ event :: later
  | .empty => (invocationsOf index log).map Prod.snd = deliveredFrom index log ∧
    (r ∈ tableOf log ∨ IsHeld r log)
  | .disconnected => (invocationsOf index log).map Prod.snd = deliveredFrom index log ∧
    .removed r.id true ∈ log ∧ r ∉ tableOf log ∧ ¬IsHeld r log
  | .gone => False

section Log

variable {log : List (Deed σ)} {deed : Deed σ} {r : Registration σ} {index number : Nat}
  {event : Event}

theorem deliveredFrom_concat (index : Nat) (log : List (Deed σ)) (deed : Deed σ) :
    deliveredFrom index (log ++ [deed]) =
      deliveredFrom index log ++ (deed.delivery? index).toList := by
  rw [deliveredFrom, List.filterMap_append, deliveredFrom, List.filterMap_cons]
  cases deed.delivery? index <;> rfl

theorem invocationsOf_concat (index : Nat) (log : List (Deed σ)) (deed : Deed σ) :
    invocationsOf index (log ++ [deed]) =
      invocationsOf index log ++ (deed.invocation? index).toList := by
  rw [invocationsOf, List.filterMap_append, invocationsOf, List.filterMap_cons]
  cases deed.invocation? index <;> rfl

theorem mem_invocationsOf : (number, event) ∈ invocationsOf index log ↔
    ∃ r : Registration σ, r.mailbox? = some index ∧ .called number event r ∈ log := by
  rw [invocationsOf, List.mem_filterMap]
  constructor
  · rintro ⟨deed, hdeed, hinvocation⟩
    cases deed with
    | called number' event' r =>
      obtain ⟨hr, heq⟩ := Option.ite_none_right_eq_some.1 hinvocation
      obtain ⟨rfl, rfl⟩ := Prod.mk.inj (Option.some.inj heq)
      exact ⟨r, hr, hdeed⟩
    | _ => cases hinvocation
  · rintro ⟨r, hr, hdeed⟩
    exact ⟨_, hdeed, if_pos hr⟩

/-- What one emission called is found on its course. -/
theorem filter_invocationsOf (index number : Nat) (log : List (Deed σ)) :
    (invocationsOf index log).filter (·.1 = number) =
      invocationsOf index (courseOf number log) := by
  rw [invocationsOf, invocationsOf, courseOf, List.filter_filterMap, List.filterMap_filter]
  refine List.filterMap_congr fun deed _ => ?_
  cases deed with
  | called number' event r =>
    by_cases hr : r.mailbox? = some index <;> by_cases hnumber : number' = number <;>
      simp [Deed.invocation?, Deed.emission?, hr, hnumber]
  | _ => simp [Deed.invocation?]

theorem mem_invocationsOf_of_filter {n : Nat} (h : (invocationsOf index log).filter
      (·.1 = number) = List.replicate n (number, event)) :
    (number, event) ∈ invocationsOf index log ↔ 0 < n := by
  have hfilter : (number, event) ∈ invocationsOf index log ↔
      (number, event) ∈ (invocationsOf index log).filter (·.1 = number) := by simp
  rw [hfilter, h, List.mem_replicate, Nat.pos_iff_ne_zero, and_iff_left rfl]

theorem invocationsOf_append (index : Nat) (log more : List (Deed σ)) :
    invocationsOf index (log ++ more) = invocationsOf index log ++ invocationsOf index more :=
  List.filterMap_append

theorem invocationsOf_calls (index number : Nat) (event : Event)
    (listeners : List (Registration σ)) : invocationsOf index (calls number event listeners) =
      List.replicate (listeners.countP (·.mailbox? = some index)) (number, event) := by
  induction listeners with
  | nil => rfl
  | cons r rs ih =>
    have hcalls : calls number event (r :: rs) =
        [.called number event r, .returned number r] ++ calls number event rs := rfl
    rw [hcalls, invocationsOf_append, ih, List.countP_cons]
    by_cases hr : r.mailbox? = some index
    · simp [invocationsOf, Deed.invocation?, hr, List.replicate_succ]
    · simp [invocationsOf, Deed.invocation?, hr]

/-- Whom an emission calls was registered before. -/
theorem mem_registrationsOf_of_audience {before behind : List (Deed σ)}
    (hlog : log = before ++ behind) (hr : r ∈ audience before event) :
    r ∈ registrationsOf log := by
  rw [hlog, registrationsOf_append]
  exact List.mem_append_left _ ((tableOf_sublist before).subset (List.mem_filter.1 hr).1)

theorem IsHeld.mem (h : IsHeld r log) : r ∈ registrationsOf log := by
  obtain ⟨number, event, before, behind, hlog, hr, -⟩ := h
  exact mem_registrationsOf_of_audience hlog hr

theorem HasReceiver.mem (h : HasReceiver r index log) : r ∈ registrationsOf log := by
  obtain ⟨-, before, behind, rfl, -⟩ := h
  exact List.mem_filterMap.2 ⟨.registered r, by simp, rfl⟩

/-- A subscription has its receiver from the start, and keeps it until that is dropped. -/
theorem HasReceiver.of_concat (h : HasReceiver r index (log ++ [deed])) :
    (deed = .registered r ∧ r.mailbox? = some index) ∨
      (HasReceiver r index log ∧ deed ≠ .dropped index) := by
  obtain ⟨hr, before, behind, hlog, hnot⟩ := h
  obtain ⟨rfl, rfl, rfl⟩ | ⟨rest, rfl, rfl⟩ := Log.concat_eq_iff.1 hlog
  · exact .inl ⟨rfl, hr⟩
  · rw [List.mem_append, not_or] at hnot
    refine .inr ⟨⟨hr, before, rest, rfl, hnot.1⟩, ?_⟩
    rintro rfl
    exact hnot.2 List.mem_cons_self

end Log

/-! ### What can happen to mailboxes -/

/-- What becomes of the mailboxes. -/
def Deed.post (mailboxes : List Mailbox) : Deed σ → List Mailbox
  | .registered r =>
    match r.mailbox? with
    | some _ => mailboxes ++ [⟨[], true⟩]
    | none => mailboxes
  | .called _ event r =>
    match r.mailbox? with
    | some index => mailboxes.modify index fun m =>
      if m.isOpen then { m with queue := m.queue ++ [event] } else m
    | none => mailboxes
  | .received index (.event _) => mailboxes.modify index fun m => { m with queue := m.queue.tail }
  | .dropped index => mailboxes.modify index fun _ => ⟨[], false⟩
  | _ => mailboxes

theorem Deed.length_post {deed : Deed σ} (h : deed.registration? = none)
    (mailboxes : List Mailbox) : (deed.post mailboxes).length = mailboxes.length := by
  cases deed with
  | registered r => cases h
  | called number event r => cases hr : r.mailbox? <;> simp [Deed.post, hr]
  | received index answer => cases answer <;> simp [Deed.post]
  | _ => simp [Deed.post]

/-- No mailbox goes away. -/
theorem Deed.length_le_post (deed : Deed σ) (mailboxes : List Mailbox) :
    mailboxes.length ≤ (deed.post mailboxes).length := by
  cases deed with
  | registered r => cases hr : r.mailbox? <;> simp [Deed.post, hr]
  | _ => rw [Deed.length_post rfl]

/-- What a deed says is right, for the mailboxes, and those into which something can come. -/
def Deed.IsRightOf (mailboxes : List Mailbox) (connected : Nat → Prop) : Deed σ → Prop
  | .registered r => ∀ index, r.mailbox? = some index → index = mailboxes.length
  | .received index (.event event) => ∃ queue, mailboxes[index]? = some ⟨event :: queue, true⟩
  | .received index .empty => mailboxes[index]? = some ⟨[], true⟩ ∧ connected index
  | .received index .disconnected => mailboxes[index]? = some ⟨[], true⟩ ∧ ¬connected index
  | .received index .gone => ∀ queue, mailboxes[index]? ≠ some ⟨queue, true⟩
  | _ => True

/-- A call puts its event into the mailbox of its registration. -/
theorem Registration.deliver_mailboxes (r : Registration σ) (number : Nat) (event : Event)
    (b : Bus σ) :
    (r.deliver event b).mailboxes = Deed.post b.mailboxes (.called number event r) := by
  rw [Registration.deliver, Deed.post, Registration.mailbox?]
  cases r.listener <;> rfl

theorem Bus.isConnected_iff (b : Bus σ) (index : Nat) :
    b.isConnected index = true ↔ ∃ r ∈ b.registrations, r.mailbox? = some index := by
  rw [Bus.isConnected, List.any_eq_true]
  refine exists_congr fun r => and_congr_right fun _ => ?_
  rw [Registration.mailbox?]
  cases r.listener <;> simp

namespace Execution

/-- Nothing is noted, and nothing was done to the mailboxes. -/
structure IsStill (x y : Execution σ) : Prop where
  log : y.log = x.log
  mailboxes : y.state.bus.mailboxes = x.state.bus.mailboxes

/-- Something can still come into a mailbox. -/
def IsConnected (x : Execution σ) (index : Nat) : Prop :=
  x.state.bus.isConnected index = true ∨ x.holds index = true

/-- One deed is noted. It is right, and what it says was done to the mailboxes. -/
structure Posts (x y : Execution σ) (deed : Deed σ) : Prop where
  log : y.log = x.log ++ [deed]
  right : deed.IsRightOf x.state.bus.mailboxes x.IsConnected
  mailboxes : y.state.bus.mailboxes = deed.post x.state.bus.mailboxes

theorem posts_of_receive {x : Execution σ} {index : Nat} {answer : Received} {bus : Bus σ}
    (h : x.receive index = (answer, bus))
    (hright : Deed.IsRightOf (σ := σ) x.state.bus.mailboxes x.IsConnected (.received index answer))
    (hmailboxes : bus.mailboxes =
      Deed.post (σ := σ) x.state.bus.mailboxes (.received index answer)) :
    x.Posts (x.move (.receive index)) (.received index (x.receive index).1) := by
  rw [h]
  refine ⟨?_, hright, ?_⟩
  · rw [move, h]
  · rw [move, h]
    exact hmailboxes

/-- A receiver is told what is right, and what it is given is taken out. -/
theorem receive_posts (x : Execution σ) (index : Nat) :
    x.Posts (x.move (.receive index)) (.received index (x.receive index).1) := by
  by_cases hopen : ∃ queue, x.state.bus.mailboxes[index]? = some ⟨queue, true⟩
  · obtain ⟨queue, hqueue⟩ := hopen
    cases queue with
    | nil =>
      by_cases hconnected : x.IsConnected index
      · have hreceive : x.receive index = (.empty, x.state.bus) := by
          obtain htable | hheld := hconnected
          · simp [receive, Bus.receive, hqueue, htable]
          · simp [receive, Bus.receive, hqueue, hheld]
        exact posts_of_receive hreceive ⟨hqueue, hconnected⟩ rfl
      · have hreceive : x.receive index = (.disconnected, x.state.bus) := by
          obtain ⟨htable, hheld⟩ := not_or.1 hconnected
          simp [receive, Bus.receive, hqueue, htable, hheld]
        exact posts_of_receive hreceive ⟨hqueue, hconnected⟩ rfl
    | cons event queue =>
      have hreceive : x.receive index = (.event event, { x.state.bus with
          mailboxes := x.state.bus.mailboxes.set index ⟨queue, true⟩ }) := by
        simp [receive, Bus.receive, hqueue]
      refine posts_of_receive hreceive ⟨queue, hqueue⟩ ?_
      simp [Deed.post, List.modify_eq_set_getElem?, hqueue]
  · have hgone : x.state.bus.receive index = (.gone, x.state.bus) := by
      rw [Bus.receive]
      split
      · next hqueue => exact absurd ⟨_, hqueue⟩ hopen
      · next hqueue => exact absurd ⟨_, hqueue⟩ hopen
      · rfl
    have hreceive : x.receive index = (.gone, x.state.bus) := by simp [receive, hgone]
    exact posts_of_receive hreceive (not_exists.1 hopen) rfl

theorem goOn_posts (x : Execution σ) (e : Emission σ) (outer : List (Emission σ)) :
    ∃ deed, x.Posts (x.goOn e outer) deed := by
  rw [goOn]
  split
  · exact ⟨_, rfl, trivial, rfl⟩
  · next r _ _ _ => exact ⟨_, rfl, trivial, r.deliver_mailboxes e.number e.event _⟩
  · exact ⟨_, rfl, trivial, rfl⟩

/-- All that can happen to mailboxes in one step. -/
theorem move_posts (x : Execution σ) (m : Move σ) :
    x.IsStill (x.move m) ∨ ∃ deed, x.Posts (x.move m) deed := by
  cases m with
  | ask script =>
    left
    rw [move, ask]
    split <;> exact ⟨rfl, rfl⟩
  | receive index => exact .inr ⟨_, x.receive_posts index⟩
  | drop index => exact .inr ⟨_, rfl, trivial, rfl⟩
  | go =>
    obtain ⟨state, script, emissions, emitted, log⟩ := x
    cases script with
    | done =>
      cases emissions with
      | nil => exact .inl ⟨rfl, rfl⟩
      | cons e outer => exact .inr (goOn_posts _ e outer)
    | act change next => exact .inl ⟨rfl, rfl⟩
    | on kind run next =>
      exact .inr ⟨_, rfl, fun index h => absurd h.symm (Option.some_ne_none index), rfl⟩
    | subscribe kind next => exact .inr ⟨_, rfl, fun _ h => (Option.some.inj h).symm, rfl⟩
    | off id next => exact .inr ⟨_, rfl, trivial, rfl⟩
    | count kind next => exact .inr ⟨_, rfl, trivial, rfl⟩
    | emit event next => exact .inr ⟨_, rfl, trivial, rfl⟩

/-! ### Who has a subscription -/

namespace Sound

variable {x : Execution σ} {r : Registration σ} {number : Nat} {event : Event}

/-- An emission under way has its listeners from its start. -/
theorem listeners_eq (h : x.Sound) {e : Emission σ} (he : e ∈ x.emissions)
    {before behind : List (Deed σ)}
    (hlog : x.log = before ++ .started e.number event :: behind) :
    event = e.event ∧ audience before event = e.listeners := by
  obtain ⟨called, hcourse, hall⟩ := h.underWay e he
  obtain ⟨rfl, hlisteners⟩ := hcourse.listeners before _ behind hlog event rfl
  exact ⟨rfl, hlisteners.trans hall.symm⟩

/-- An emission that has started and has not ended is under way. -/
theorem exists_underWay (h : x.Sound) (hmem : .started number event ∈ x.log)
    (hnot : ∀ heard, .ended number heard ∉ x.log) : ∃ e ∈ x.emissions, e.number = number := by
  rw [← List.mem_map]
  by_contra hnone
  obtain ⟨event', listeners, hcourse⟩ := h.ended number (h.lt_emitted hmem rfl) hnone
  refine hnot listeners.length ((mem_courseOf rfl).1 ?_)
  rw [hcourse.course]
  simp

/-- A registration is held by the emissions under way that took it when they started. -/
theorem isHeld_iff (h : x.Sound) : IsHeld r x.log ↔ ∃ e ∈ x.emissions, r ∈ e.listeners := by
  constructor
  · rintro ⟨number, event, before, behind, hlog, hr, hnot⟩
    have hstarted : .started number event ∈ x.log := by simp [hlog]
    obtain ⟨e, he, rfl⟩ := h.exists_underWay hstarted hnot
    exact ⟨e, he, (h.listeners_eq he hlog).2 ▸ hr⟩
  · rintro ⟨e, he, hr⟩
    obtain ⟨called, hcourse, -⟩ := h.underWay e he
    have hmem : .started e.number e.event ∈ courseOf e.number x.log :=
      hcourse.course ▸ List.mem_cons_self
    obtain ⟨before, behind, hlog⟩ := List.append_of_mem ((mem_courseOf rfl).1 hmem)
    refine ⟨e.number, e.event, before, behind, hlog, ?_, (h.underWay_law he hlog).2.1⟩
    rwa [(h.listeners_eq he hlog).2]

/-- Whoever is called was in the table for the event when the emission started. -/
theorem exists_of_called (h : x.Sound) (hmem : .called number event r ∈ x.log) :
    ∃ before behind, x.log = before ++ .started number event :: behind ∧
      r ∈ audience before event := by
  obtain ⟨event', before, behind, hlog⟩ := h.exists_started hmem rfl
  have hcourse : .called number event r ∈ courseOf number x.log := (mem_courseOf rfl).2 hmem
  have hfull := (h.law hlog).1.subset hcourse
  simp only [fullCourse, List.mem_cons, reduceCtorEq, List.mem_append, mem_calls, false_or,
    List.not_mem_nil, or_false, Deed.called.injEq] at hfull
  obtain ⟨r', hr', ⟨-, rfl, rfl⟩⟩ := hfull
  exact ⟨before, behind, hlog, hr'⟩

/-- Of those whom an emission was to call, it has called the first ones, and each of them once. The
others are waiting. -/
theorem exists_invoked (h : x.Sound) {before behind : List (Deed σ)}
    (hlog : x.log = before ++ .started number event :: behind) :
    ∃ called waiting, audience before event = called ++ waiting ∧
      (∀ index, (invocationsOf index x.log).filter (·.1 = number) =
        List.replicate (called.countP (·.mailbox? = some index)) (number, event)) ∧
      ∀ r, r ∈ waiting ↔ ∃ e ∈ x.emissions, e.number = number ∧ r ∈ e.waiting := by
  by_cases hunder : number ∈ x.emissions.map (·.number)
  · obtain ⟨e, he, rfl⟩ := List.mem_map.1 hunder
    obtain ⟨called, hcourse, -⟩ := h.underWay e he
    obtain ⟨rfl, hlisteners⟩ := hcourse.listeners before _ behind hlog event rfl
    refine ⟨called ++ e.current.toList, e.waiting, by simp [hlisteners], fun index => ?_,
      fun r => ⟨fun hr => ⟨e, he, rfl, hr⟩, ?_⟩⟩
    · rw [filter_invocationsOf, hcourse.course, ← List.singleton_append, invocationsOf_append,
        invocationsOf_append, invocationsOf_calls, List.countP_append, List.replicate_add]
      cases e.current with
      | none => rfl
      | some r =>
        by_cases hr : r.mailbox? = some index <;> simp [invocationsOf, Deed.invocation?, hr]
    · rintro ⟨e', he', hnumber, hr⟩
      have hnumbers : (x.emissions.map (·.number)).Nodup :=
        (List.pairwise_cons.1 h.numbers).2.imp Nat.ne_of_gt
      rwa [List.inj_on_of_nodup_map hnumbers he' he hnumber] at hr
  · have hmem : .started number event ∈ x.log := by simp [hlog]
    obtain ⟨event', listeners, hcourse⟩ := h.ended number (h.lt_emitted hmem rfl) hunder
    obtain ⟨rfl, hlisteners⟩ := hcourse.listeners before _ behind hlog event rfl
    refine ⟨listeners, [], by simp [hlisteners], fun index => ?_, fun r => ?_⟩
    · rw [filter_invocationsOf, hcourse.course, ← List.singleton_append, invocationsOf_append,
        invocationsOf_append, invocationsOf_calls]
      exact List.append_nil _
    · refine iff_of_false List.not_mem_nil ?_
      rintro ⟨e, he, rfl, -⟩
      exact hunder (List.mem_map_of_mem he)

end Sound

/-! ### Nothing is lost -/

/-- What the receiver of a mailbox was given, and what is still in the mailbox, is in all what the
subscription was called with. -/
def IsComplete (x : Execution σ) (index : Nat) : Prop :=
  ∃ queue, x.state.bus.mailboxes[index]? = some ⟨queue, true⟩ ∧
    deliveredFrom index x.log ++ queue = (invocationsOf index x.log).map Prod.snd

/-- No mailbox with a receiver has lost or duplicated anything, and every answer was right. -/
structure Posted (x : Execution σ) : Prop where
  sound : x.Sound
  /-- Every mailbox belongs to one subscription, and they are numbered as they come. -/
  places : (registrationsOf x.log).filterMap Registration.mailbox? =
    List.range x.state.bus.mailboxes.length
  /-- Nothing comes out of a mailbox that does not exist yet. -/
  fresh : ∀ index, x.state.bus.mailboxes.length ≤ index → deliveredFrom index x.log = []
  queues : ∀ r index, HasReceiver r index x.log → x.IsComplete index
  answers : ∀ before deed behind, x.log = before ++ deed :: behind →
    ∀ r index answer, deed = .received index answer → HasReceiver r index before →
      IsRightAnswer r index before answer

namespace Posted

variable {x y : Execution σ} {r q : Registration σ} {index number : Nat} {event : Event}
  {deed : Deed σ}

theorem start (memory : σ) : (start memory).Posted where
  sound := .start memory
  places := rfl
  fresh := fun _ _ => rfl
  queues := by
    rintro r index ⟨-, before, behind, hlog, -⟩
    simp [Execution.start] at hlog
  answers := by
    intro before deed behind hlog
    simp [Execution.start] at hlog

theorem countP_le_one (h : x.Posted) (index : Nat) :
    (registrationsOf x.log).countP (·.mailbox? = some index) ≤ 1 := by
  have hnodup : ((registrationsOf x.log).filterMap Registration.mailbox?).Nodup :=
    h.places ▸ List.nodup_range
  have hone := List.nodup_iff_count_le_one.1 hnodup index
  rw [List.count_filterMap] at hone
  exact (Nat.le_of_eq (List.countP_congr fun r _ => by simp)).trans hone

/-- No two subscriptions have the same mailbox. -/
theorem eq_of_mailbox (h : x.Posted) (hr : r ∈ registrationsOf x.log)
    (hq : q ∈ registrationsOf x.log) (hrindex : r.mailbox? = some index)
    (hqindex : q.mailbox? = some index) : q = r := by
  have hone := h.countP_le_one index
  obtain ⟨front, rest, hsplit⟩ := List.append_of_mem hr
  rw [hsplit, List.countP_append, List.countP_cons, if_pos (decide_eq_true hrindex)] at hone
  rw [hsplit, List.mem_append, List.mem_cons] at hq
  obtain hq | rfl | hq := hq
  · have hfront : 0 < front.countP (·.mailbox? = some index) :=
      List.countP_pos_iff.2 ⟨q, hq, decide_eq_true hqindex⟩
    omega
  · rfl
  · have hrest : 0 < rest.countP (·.mailbox? = some index) :=
      List.countP_pos_iff.2 ⟨q, hq, decide_eq_true hqindex⟩
    omega

theorem lt_of_mem (h : x.Posted) (hr : r ∈ registrationsOf x.log)
    (hindex : r.mailbox? = some index) : index < x.state.bus.mailboxes.length := by
  rw [← List.mem_range, ← h.places]
  exact List.mem_filterMap.2 ⟨r, hr, hindex⟩

/-- Nobody is called for a mailbox that does not exist yet. -/
theorem invocationsOf_eq_nil (h : x.Posted) (hindex : x.state.bus.mailboxes.length ≤ index) :
    invocationsOf index x.log = [] := by
  refine List.eq_nil_iff_forall_not_mem.2 ?_
  rintro ⟨number, event⟩ hmem
  obtain ⟨r, hr, hcalled⟩ := mem_invocationsOf.1 hmem
  obtain ⟨before, behind, hlog, haudience⟩ := h.sound.exists_of_called hcalled
  have hlt := h.lt_of_mem (mem_registrationsOf_of_audience hlog haudience) hr
  omega

/-- Something can come into a mailbox as long as the table or an emission has its subscription. -/
theorem isConnected_iff (h : x.Posted) (hr : r ∈ registrationsOf x.log)
    (hindex : r.mailbox? = some index) :
    x.IsConnected index ↔ r ∈ tableOf x.log ∨ IsHeld r x.log := by
  rw [IsConnected, Bus.isConnected_iff, h.sound.kept.table, h.sound.isHeld_iff]
  refine or_congr ⟨?_, fun htable => ⟨r, htable, hindex⟩⟩ ?_
  · rintro ⟨q, hq, hqindex⟩
    rwa [← h.eq_of_mailbox hr ((tableOf_sublist _).subset hq) hindex hqindex]
  · simp only [holds, List.any_eq_true, decide_eq_true_eq]
    constructor
    · rintro ⟨e, he, q, hq, hqindex⟩
      have hheld : IsHeld q x.log := h.sound.isHeld_iff.2 ⟨e, he, hq⟩
      exact ⟨e, he, h.eq_of_mailbox hr hheld.mem hindex hqindex ▸ hq⟩
    · rintro ⟨e, he, hmem⟩
      exact ⟨e, he, r, hmem, hindex⟩

/-! ### Nothing is lost in one step -/

/-- Mailboxes are numbered as they come. -/
theorem places_posts (h : x.Posted) (hposts : x.Posts y deed) :
    (registrationsOf y.log).filterMap Registration.mailbox? =
      List.range y.state.bus.mailboxes.length := by
  obtain ⟨hlog, hright, hmailboxes⟩ := hposts
  rw [hlog, registrationsOf_concat, List.filterMap_append, h.places, hmailboxes]
  cases deed with
  | registered r =>
    cases hr : r.mailbox? with
    | none => simp [Deed.registration?, Deed.post, hr]
    | some index =>
      obtain rfl := hright index hr
      simp [Deed.registration?, Deed.post, hr, List.range_succ]
  | _ => rw [Deed.length_post rfl]; simp [Deed.registration?]

theorem fresh_posts (h : x.Posted) (hposts : x.Posts y deed)
    (hindex : y.state.bus.mailboxes.length ≤ index) : deliveredFrom index y.log = [] := by
  obtain ⟨hlog, hright, hmailboxes⟩ := hposts
  rw [hmailboxes] at hindex
  have hx : x.state.bus.mailboxes.length ≤ index := (deed.length_le_post _).trans hindex
  rw [hlog, deliveredFrom_concat, h.fresh index hx, List.nil_append]
  cases deed with
  | received index' answer =>
    cases answer with
    | event event =>
      obtain ⟨queue, hqueue⟩ := hright
      have hlt := (List.getElem?_eq_some_iff.1 hqueue).1
      have hne : index' ≠ index := by omega
      simp [Deed.delivery?, hne]
    | _ => rfl
  | _ => rfl

/-- A new subscription was not called with anything. -/
theorem queues_registered (h : x.Posted) (hposts : x.Posts y (.registered r))
    (hr : r.mailbox? = some index) : y.IsComplete index := by
  obtain ⟨hlog, hright, hmailboxes⟩ := hposts
  obtain rfl := hright index hr
  refine ⟨[], ?_, ?_⟩
  · simp [hmailboxes, Deed.post, hr]
  · rw [hlog, deliveredFrom_concat, invocationsOf_concat, h.fresh _ (Nat.le_refl _),
      h.invocationsOf_eq_nil (Nat.le_refl _)]
    rfl

/-- A call puts an event into the mailbox, and a receiver takes one out. -/
theorem queues_kept (h : x.Posted) (hposts : x.Posts y deed) (hr : HasReceiver r index x.log)
    (hnot : deed ≠ .dropped index) : y.IsComplete index := by
  obtain ⟨hlog, hright, hmailboxes⟩ := hposts
  obtain ⟨queue, hqueue, hall⟩ := h.queues r index hr
  rw [IsComplete, hmailboxes, hlog, deliveredFrom_concat, invocationsOf_concat, List.map_append, ← hall]
  cases deed with
  | registered q =>
    refine ⟨queue, ?_, by simp [Deed.delivery?, Deed.invocation?]⟩
    have hlt := (List.getElem?_eq_some_iff.1 hqueue).1
    cases hq : q.mailbox? with
    | none => simpa [Deed.post, hq] using hqueue
    | some index' => simpa [Deed.post, hq, List.getElem?_append_left hlt] using hqueue
  | called number event q =>
    by_cases hq : q.mailbox? = some index
    · refine ⟨queue ++ [event], ?_, ?_⟩
      · simp [Deed.post, hq, hqueue]
      · simp [Deed.delivery?, Deed.invocation?, hq]
    · refine ⟨queue, ?_, by simp [Deed.delivery?, Deed.invocation?, hq]⟩
      cases hq' : q.mailbox? with
      | none => simpa [Deed.post, hq'] using hqueue
      | some index' =>
        have hne : index' ≠ index := fun heq => hq (heq ▸ hq')
        simpa [Deed.post, hq', List.getElem?_modify, hne] using hqueue
  | received index' answer =>
    cases answer with
    | event event =>
      by_cases hindex : index' = index
      · subst hindex
        obtain ⟨later, hlater⟩ := hright
        obtain rfl : queue = event :: later := by simpa [hqueue] using hlater
        refine ⟨later, ?_, by simp [Deed.delivery?, Deed.invocation?]⟩
        simp [Deed.post, hqueue]
      · refine ⟨queue, ?_, by simp [Deed.delivery?, Deed.invocation?, hindex]⟩
        simpa [Deed.post, List.getElem?_modify, hindex] using hqueue
    | _ => exact ⟨queue, hqueue, by simp [Deed.delivery?, Deed.invocation?]⟩
  | dropped index' =>
    have hne : index' ≠ index := fun heq => hnot (heq ▸ rfl)
    refine ⟨queue, ?_, by simp [Deed.delivery?, Deed.invocation?]⟩
    simpa [Deed.post, List.getElem?_modify, hne] using hqueue
  | _ => exact ⟨queue, hqueue, by simp [Deed.delivery?, Deed.invocation?]⟩

/-- What a receiver is told is right, judged by the log. -/
theorem isRightAnswer (h : x.Posted) {answer : Received}
    (hright : Deed.IsRightOf (σ := σ) x.state.bus.mailboxes x.IsConnected (.received index answer))
    (hr : HasReceiver r index x.log) : IsRightAnswer r index x.log answer := by
  obtain ⟨queue, hqueue, hall⟩ := h.queues r index hr
  have hconnected := h.isConnected_iff hr.mem hr.1
  cases answer with
  | event event =>
    obtain ⟨later, hlater⟩ := hright
    obtain rfl : queue = event :: later := by simpa [hqueue] using hlater
    exact ⟨later, hall.symm⟩
  | empty =>
    obtain ⟨hempty, hright⟩ := hright
    obtain rfl : queue = [] := by simpa [hqueue] using hempty
    exact ⟨hall.symm.trans (List.append_nil _), hconnected.1 hright⟩
  | disconnected =>
    obtain ⟨hempty, hright⟩ := hright
    obtain rfl : queue = [] := by simpa [hqueue] using hempty
    obtain ⟨htable, hheld⟩ := not_or.1 (mt hconnected.2 hright)
    have hremoved := (h.sound.kept.truthful.mem_tableOf_or_removed hr.mem).resolve_left htable
    exact ⟨hall.symm.trans (List.append_nil _), hremoved, htable, hheld⟩
  | gone => exact hright queue hqueue

theorem posts (h : x.Posted) (hsound : y.Sound) (hposts : x.Posts y deed) : y.Posted := by
  refine ⟨hsound, h.places_posts hposts, fun _ => h.fresh_posts hposts,
    fun r index hr => ?_, ?_⟩
  · rw [hposts.log] at hr
    obtain ⟨rfl, hindex⟩ | ⟨hr, hnot⟩ := hr.of_concat
    · exact h.queues_registered hposts hindex
    · exact h.queues_kept hposts hr hnot
  obtain ⟨hlog, hright, -⟩ := hposts
  rw [hlog]
  refine Log.forall_concat_iff.2 ⟨h.answers, ?_⟩
  rintro r index answer rfl hr
  exact h.isRightAnswer hright hr

theorem move (h : x.Posted) (m : Move σ) : (x.move m).Posted := by
  have hsound := h.sound.move m
  obtain hstill | ⟨deed, hposts⟩ := x.move_posts m
  · refine ⟨hsound, ?_, ?_, ?_, ?_⟩
    · rw [hstill.log, hstill.mailboxes, h.places]
    · rw [hstill.log, hstill.mailboxes]
      exact h.fresh
    · simp only [IsComplete, hstill.log, hstill.mailboxes]
      exact h.queues
    · rw [hstill.log]
      exact h.answers
  · exact h.posts hsound hposts

theorem after (memory : σ) (moves : List (Move σ)) : (after memory moves).Posted :=
  List.foldlRecOn (motive := Posted) moves Execution.move (.start memory) fun _ h m _ => h.move m

/-! ### Which events a subscription is called with -/

/-- Those whom an emission has called and those who are waiting are different subscriptions. -/
theorem countP_add_countP_le_one (h : x.Posted) {before behind : List (Deed σ)}
    {called waiting : List (Registration σ)} (hlog : x.log = before ++ behind)
    (hlisteners : audience before event = called ++ waiting) (index : Nat) :
    called.countP (·.mailbox? = some index) + waiting.countP (·.mailbox? = some index) ≤ 1 := by
  have hsublist : (called ++ waiting).Sublist (registrationsOf x.log) := by
    rw [← hlisteners, hlog, registrationsOf_append]
    exact (List.filter_sublist.trans (tableOf_sublist before)).trans (List.sublist_append_left ..)
  rw [← List.countP_append]
  exact hsublist.countP_le.trans (h.countP_le_one index)

/-- A subscription is called with the events whose emissions took it when they started, except where
its turn is still to come. -/
theorem mem_invocationsOf_iff (h : x.Posted) (hr : r ∈ registrationsOf x.log)
    (hindex : r.mailbox? = some index) : (number, event) ∈ invocationsOf index x.log ↔
      (∃ before behind, x.log = before ++ .started number event :: behind ∧
        r ∈ audience before event) ∧
      ∀ e ∈ x.emissions, e.number = number → r ∉ e.waiting := by
  constructor
  · intro hmem
    obtain ⟨q, hq, hcalled⟩ := mem_invocationsOf.1 hmem
    obtain ⟨before, behind, hlog, haudience⟩ := h.sound.exists_of_called hcalled
    have hregistered := mem_registrationsOf_of_audience hlog haudience
    obtain rfl : q = r := h.eq_of_mailbox hr hregistered hindex hq
    obtain ⟨called, waiting, hlisteners, hfilter, hwaiting⟩ := h.sound.exists_invoked hlog
    refine ⟨⟨before, behind, hlog, haudience⟩, fun e he hnumber hmem' => ?_⟩
    have hcalled := (mem_invocationsOf_of_filter (hfilter index)).1 hmem
    have hturn : 0 < waiting.countP (·.mailbox? = some index) :=
      List.countP_pos_iff.2 ⟨q, (hwaiting q).2 ⟨e, he, hnumber, hmem'⟩, decide_eq_true hindex⟩
    have hone := h.countP_add_countP_le_one hlog hlisteners index
    omega
  · rintro ⟨⟨before, behind, hlog, haudience⟩, hnot⟩
    obtain ⟨called, waiting, hlisteners, hfilter, hwaiting⟩ := h.sound.exists_invoked hlog
    have hcalled : r ∈ called := by
      rw [hlisteners, List.mem_append, hwaiting] at haudience
      refine haudience.resolve_right ?_
      rintro ⟨e, he, hnumber, hmem⟩
      exact hnot e he hnumber hmem
    refine (mem_invocationsOf_of_filter (hfilter index)).2 ?_
    exact List.countP_pos_iff.2 ⟨r, hcalled, decide_eq_true hindex⟩

/-- An emission calls a subscription once. -/
theorem nodup_invocationsOf (h : x.Posted) (index : Nat) :
    ((invocationsOf index x.log).map Prod.fst).Nodup := by
  refine List.nodup_iff_count_le_one.2 fun number => ?_
  have hcount : ((invocationsOf index x.log).map Prod.fst).count number =
      ((invocationsOf index x.log).filter (·.1 = number)).length := by
    rw [List.count, List.countP_map, List.countP_eq_length_filter]
    rfl
  rw [hcount]
  cases hown : (invocationsOf index x.log).filter (·.1 = number) with
  | nil => exact Nat.zero_le 1
  | cons first rest =>
    obtain ⟨number', event⟩ := first
    have hfirst : (number', event) ∈ (invocationsOf index x.log).filter (·.1 = number) := by
      simp [hown]
    obtain ⟨hmem, hnumber⟩ := List.mem_filter.1 hfirst
    obtain rfl : number' = number := of_decide_eq_true hnumber
    obtain ⟨r, hr, hcalled⟩ := mem_invocationsOf.1 hmem
    obtain ⟨before, behind, hlog, -⟩ := h.sound.exists_of_called hcalled
    obtain ⟨called, waiting, hlisteners, hcalled, -⟩ := h.sound.exists_invoked hlog
    have hone := h.countP_add_countP_le_one hlog hlisteners index
    rw [← hown, hcalled, List.length_replicate]
    omega

end Posted

end Execution

end SignIn.Event
