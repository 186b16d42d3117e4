import SignIn.Proofs.Event.Mailbox

/-!
# Receivers are on their own

What is done with a receiver is nobody else's business. Two buses that differ only in one mailbox,
and in what was logged of its receiver, go on to be like that: the same listeners are called, the
same counts come back, and all other receivers are told the same. So it makes no difference to them
whether a receiver is dropped, not even in the middle of an emission that is about to come to its
subscription. That one stays in the table, and counts.

## Main definitions

* `Event.apartFrom` — a log without what was done with a receiver
* `Event.Execution.AgreesApartFrom` — two buses that differ at most in one receiver

## Main results

* `Event.Execution.AgreesApartFrom.move`, `Event.Execution.AgreesApartFrom.foldl`
* `Event.Execution.agreesApartFrom_after` — a receiver that is dropped makes no other difference
* `Event.mailboxes_of_history`
-/

namespace SignIn.Event

variable {σ : Type}

/-- A receiver was asked, or it was dropped. -/
def Deed.isAtReceiver (index : Nat) : Deed σ → Bool
  | .received index' _ => index' = index
  | .dropped index' => index' = index
  | _ => false

/-- What was logged of everything but one receiver. -/
def apartFrom (index : Nat) (log : List (Deed σ)) : List (Deed σ) :=
  log.filter (!·.isAtReceiver index)

theorem apartFrom_concat (index : Nat) (log : List (Deed σ)) (deed : Deed σ) :
    apartFrom index (log ++ [deed]) =
      apartFrom index log ++ if deed.isAtReceiver index then [] else [deed] := by
  rw [apartFrom, List.filter_append]
  cases hdeed : deed.isAtReceiver index <;> simp [apartFrom, hdeed]

/-- Two lists of mailboxes are the same but for one mailbox. -/
structure MailboxesAgree (index : Nat) (mailboxes mailboxes' : List Mailbox) : Prop where
  length : mailboxes'.length = mailboxes.length
  others : ∀ other ≠ index, mailboxes'[other]? = mailboxes[other]?

/-- A deed does the same to mailboxes that are the same. -/
theorem MailboxesAgree.post {index : Nat} {mailboxes mailboxes' : List Mailbox}
    (h : MailboxesAgree index mailboxes mailboxes') (deed : Deed σ) :
    MailboxesAgree index (deed.post mailboxes) (deed.post mailboxes') := by
  have hmodify : ∀ (place : Nat) (change : Mailbox → Mailbox),
      MailboxesAgree index (mailboxes.modify place change) (mailboxes'.modify place change) := by
    refine fun place change => ⟨by simp [h.length], fun other hne => ?_⟩
    rw [List.getElem?_modify, List.getElem?_modify, h.others other hne]
  cases deed with
  | registered r =>
    cases hr : r.mailbox? with
    | none => simpa [Deed.post, hr] using h
    | some place =>
      simp only [Deed.post, hr]
      refine ⟨by simp [h.length], fun other hne => ?_⟩
      rw [List.getElem?_append, List.getElem?_append, h.length, h.others other hne]
  | called number event r =>
    cases hr : r.mailbox? with
    | none => simpa [Deed.post, hr] using h
    | some place => simpa [Deed.post, hr] using hmodify place _
  | received place answer =>
    cases answer with
    | event event => exact hmodify place _
    | _ => exact h
  | dropped place => exact hmodify place _
  | _ => exact h

/-- What is done with a receiver is done to its mailbox alone. -/
theorem mailboxesAgree_post {index : Nat} {deed : Deed σ} (h : deed.isAtReceiver index)
    (mailboxes : List Mailbox) : MailboxesAgree index mailboxes (deed.post mailboxes) := by
  have hmodify : ∀ change : Mailbox → Mailbox,
      MailboxesAgree index mailboxes (mailboxes.modify index change) := by
    refine fun change => ⟨by simp, fun other hne => ?_⟩
    rw [List.getElem?_modify]
    simp [hne.symm]
  cases deed with
  | received index' answer =>
    obtain rfl : index' = index := of_decide_eq_true h
    cases answer with
    | event event => exact hmodify _
    | _ => exact ⟨rfl, fun _ _ => rfl⟩
  | dropped index' =>
    obtain rfl : index' = index := of_decide_eq_true h
    exact hmodify _
  | _ => cases h

namespace Execution

/-- Two buses in use differ at most in one mailbox and in what was done with its receiver. -/
structure AgreesApartFrom (index : Nat) (x y : Execution σ) : Prop where
  registrations : y.state.bus.registrations = x.state.bus.registrations
  nextId : y.state.bus.nextId = x.state.bus.nextId
  mailboxes : MailboxesAgree index x.state.bus.mailboxes y.state.bus.mailboxes
  memory : y.state.memory = x.state.memory
  script : y.script = x.script
  emissions : y.emissions = x.emissions
  emitted : y.emitted = x.emitted
  log : apartFrom index y.log = apartFrom index x.log

variable {x y z : Execution σ} {index : Nat}

namespace AgreesApartFrom

theorem symm (h : x.AgreesApartFrom index y) : y.AgreesApartFrom index x :=
  ⟨h.registrations.symm, h.nextId.symm,
    ⟨h.mailboxes.length.symm, fun other hne => (h.mailboxes.others other hne).symm⟩,
    h.memory.symm, h.script.symm, h.emissions.symm, h.emitted.symm, h.log.symm⟩

theorem trans (h : x.AgreesApartFrom index y) (h' : y.AgreesApartFrom index z) :
    x.AgreesApartFrom index z :=
  ⟨h'.registrations.trans h.registrations, h'.nextId.trans h.nextId,
    ⟨h'.mailboxes.length.trans h.mailboxes.length, fun other hne =>
      (h'.mailboxes.others other hne).trans (h.mailboxes.others other hne)⟩,
    h'.memory.trans h.memory, h'.script.trans h.script, h'.emissions.trans h.emissions,
    h'.emitted.trans h.emitted, h'.log.trans h.log⟩

end AgreesApartFrom

/-- Where a receiver is dropped, everything else stays as it is. -/
theorem agreesApartFrom_drop (x : Execution σ) (index : Nat) :
    x.AgreesApartFrom index (x.move (.drop index)) := by
  have hdeed : (Deed.dropped index : Deed σ).isAtReceiver index := decide_eq_true rfl
  refine ⟨rfl, rfl, mailboxesAgree_post hdeed _, rfl, rfl, rfl, rfl, ?_⟩
  exact (apartFrom_concat ..).trans (by simp [hdeed])

/-- Nor does it make a difference to anybody else when a receiver asks. -/
theorem agreesApartFrom_receive (x : Execution σ) (index : Nat) :
    x.AgreesApartFrom index (x.move (.receive index)) := by
  have hposts := x.receive_posts index
  have htable := x.state.bus.receive_table index
  have hdeed : (Deed.received index (x.receive index).1 : Deed σ).isAtReceiver index :=
    decide_eq_true rfl
  refine ⟨htable.1, htable.2, ?_, rfl, rfl, rfl, rfl, ?_⟩
  · rw [hposts.mailboxes]
    exact mailboxesAgree_post hdeed _
  · rw [hposts.log, apartFrom_concat, if_pos hdeed, List.append_nil]

namespace AgreesApartFrom

/-- The other receivers are told the same. -/
theorem receive_fst (h : x.AgreesApartFrom index y) {other : Nat} (hne : other ≠ index) :
    (y.receive other).1 = (x.receive other).1 := by
  have hconnected : y.state.bus.isConnected other = x.state.bus.isConnected other := by
    rw [Bus.isConnected, h.registrations, Bus.isConnected]
  have hholds : y.holds other = x.holds other := by rw [holds, h.emissions, holds]
  have hmailbox := h.mailboxes.others other hne
  cases hx : x.state.bus.mailboxes[other]? with
  | none => simp [receive, Bus.receive, hmailbox, hx]
  | some m =>
    obtain ⟨queue, isOpen⟩ := m
    cases isOpen <;> cases queue <;>
      simp [receive, Bus.receive, hmailbox, hx, hconnected, hholds]

theorem receive (h : x.AgreesApartFrom index y) (other : Nat) :
    (x.move (.receive other)).AgreesApartFrom index (y.move (.receive other)) := by
  by_cases hne : other = index
  · subst hne
    exact (x.agreesApartFrom_receive other).symm.trans (h.trans (y.agreesApartFrom_receive other))
  · have hx := x.receive_posts other
    have hy := y.receive_posts other
    rw [h.receive_fst hne] at hy
    have hxtable := x.state.bus.receive_table other
    have hytable := y.state.bus.receive_table other
    refine ⟨(hytable.1.trans h.registrations).trans hxtable.1.symm,
      (hytable.2.trans h.nextId).trans hxtable.2.symm, ?_, h.memory, h.script, h.emissions,
      h.emitted, ?_⟩
    · rw [hx.mailboxes, hy.mailboxes]
      exact h.mailboxes.post _
    · rw [hx.log, hy.log, apartFrom_concat, apartFrom_concat, h.log]

theorem log_concat (h : x.AgreesApartFrom index y) (deed : Deed σ) :
    apartFrom index (y.log ++ [deed]) = apartFrom index (x.log ++ [deed]) := by
  rw [apartFrom_concat, apartFrom_concat, h.log]

theorem goOn (h : x.AgreesApartFrom index y) (e : Emission σ) (outer : List (Emission σ)) :
    (x.goOn e outer).AgreesApartFrom index (y.goOn e outer) := by
  rw [Execution.goOn, Execution.goOn]
  split
  · exact ⟨h.registrations, h.nextId, h.mailboxes, h.memory, h.script, rfl, h.emitted,
      h.log_concat _⟩
  · next r waiting _ _ =>
    have hxtable := r.deliver_table e.event x.state.bus
    have hytable := r.deliver_table e.event y.state.bus
    refine ⟨(hytable.1.trans h.registrations).trans hxtable.1.symm,
      (hytable.2.trans h.nextId).trans hxtable.2.symm, ?_, h.memory, rfl, rfl, h.emitted,
      h.log_concat _⟩
    rw [call, call, r.deliver_mailboxes e.number, r.deliver_mailboxes e.number]
    exact h.mailboxes.post _
  · exact ⟨h.registrations, h.nextId, h.mailboxes, h.memory, rfl, rfl, h.emitted,
      h.log_concat _⟩

theorem go (h : x.AgreesApartFrom index y) : x.go.AgreesApartFrom index y.go := by
  by_cases hdone : x.script = .done
  · have hdone' : y.script = .done := h.script.trans hdone
    cases hemissions : x.emissions with
    | nil =>
      have hemissions' := h.emissions.trans hemissions
      rwa [go_of_isIdle ⟨hdone, hemissions⟩, go_of_isIdle ⟨hdone', hemissions'⟩]
    | cons e outer =>
      rw [go_of_done hdone hemissions, go_of_done hdone' (h.emissions.trans hemissions)]
      exact h.goOn e outer
  · have hlog := h.log_concat
    obtain ⟨⟨⟨nextId, registrations, mailboxes⟩, memory⟩, script, emissions, emitted, log⟩ := x
    obtain ⟨⟨⟨nextId', registrations', mailboxes'⟩, memory'⟩, script', emissions', emitted',
      log'⟩ := y
    obtain ⟨rfl, rfl, hmailboxes, rfl, rfl, rfl, rfl, hsame⟩ := h
    cases script' with
    | done => exact absurd rfl hdone
    | act change next => exact ⟨rfl, rfl, hmailboxes, rfl, rfl, rfl, rfl, hsame⟩
    | on kind run next => exact ⟨rfl, rfl, hmailboxes, rfl, rfl, rfl, rfl, hlog _⟩
    | subscribe kind next =>
      -- The new mailbox has the same number on both sides.
      simp only [Execution.go, Bus.subscribe, Bus.register, hmailboxes.length]
      exact ⟨rfl, rfl, hmailboxes.post (.registered ⟨⟨nextId'⟩, kind, .mailbox 0⟩ : Deed σ), rfl,
        rfl, rfl, rfl, hlog _⟩
    | off id next => exact ⟨rfl, rfl, hmailboxes, rfl, rfl, rfl, rfl, hlog _⟩
    | count kind next => exact ⟨rfl, rfl, hmailboxes, rfl, rfl, rfl, rfl, hlog _⟩
    | emit event next => exact ⟨rfl, rfl, hmailboxes, rfl, rfl, rfl, rfl, hlog _⟩

theorem move (h : x.AgreesApartFrom index y) (m : Move σ) :
    (x.move m).AgreesApartFrom index (y.move m) := by
  cases m with
  | ask script =>
    rw [Execution.move, Execution.move, ask, ask, h.script, h.emissions]
    split
    · exact ⟨h.registrations, h.nextId, h.mailboxes, h.memory, rfl, rfl, h.emitted, h.log⟩
    · exact h
  | go => exact h.go
  | receive other => exact h.receive other
  | drop other =>
    have hmailboxes := h.mailboxes.post (.dropped other : Deed σ)
    exact ⟨h.registrations, h.nextId, hmailboxes, h.memory, h.script, h.emissions, h.emitted,
      h.log_concat _⟩

theorem foldl (h : x.AgreesApartFrom index y) (moves : List (Move σ)) :
    (moves.foldl Execution.move x).AgreesApartFrom index (moves.foldl Execution.move y) := by
  induction moves generalizing x y with
  | nil => exact h
  | cons m moves ih => exact ih (h.move m)

/-- The other receivers were given the same. -/
theorem deliveredFrom_eq (h : x.AgreesApartFrom index y) {other : Nat} (hne : other ≠ index) :
    deliveredFrom other y.log = deliveredFrom other x.log := by
  have hapart : ∀ log : List (Deed σ),
      deliveredFrom other log = deliveredFrom other (apartFrom index log) := by
    intro log
    rw [deliveredFrom, deliveredFrom, apartFrom, List.filterMap_filter]
    refine List.filterMap_congr fun deed _ => ?_
    cases deed with
    | received place answer =>
      by_cases hplace : place = index
      · cases answer <;> simp [Deed.delivery?, Deed.isAtReceiver, hplace, hne.symm]
      · simp [Deed.isAtReceiver, hplace]
    | _ => simp [Deed.delivery?]
  rw [hapart, h.log, ← hapart]

end AgreesApartFrom

/-- A receiver that is dropped makes no difference to anything else that happens. -/
theorem agreesApartFrom_after (memory : σ) (first rest : List (Move σ)) (index : Nat) :
    (after memory (first ++ rest)).AgreesApartFrom index
      (after memory (first ++ .drop index :: rest)) := by
  rw [after, after, List.foldl_append, List.foldl_append, List.foldl_cons]
  exact ((first.foldl move (start memory)).agreesApartFrom_drop index).foldl rest

end Execution

/-- What subscriptions come to, in whatever way a bus is used. All handles show one table, which is
what the log has made of it, and every subscription has a mailbox of its own. As long as a receiver
is not dropped, what it was given and what is still in its mailbox is what its subscription was
called with, in that order, once for every emission: for those that took the subscription for their
kind when they started, unless its turn is still to come. Every time a receiver asks, it is given
the next event; if there is none, it is told that nothing will come only if the subscription was
removed, and no emission has it any more. And if a receiver is dropped, at any time, everything else
goes on as if it were not: the counts, what is emitted and whom it comes to, and what all other
receivers are told. -/
theorem mailboxes_of_history (memory : σ) (uses : List (Shared.Use (Move σ))) :
    let x := Execution.after memory (Shared.moves 1 uses)
    (∃ handles, (Shared.after Execution.move (.start memory) uses).IsSole x handles) ∧
    (∀ before behind, x.log = before ++ behind → ∃ earlier, earlier <+: Shared.moves 1 uses ∧
      (Execution.after memory earlier).log = before ∧
      (Execution.after memory earlier).state.bus.registrations = tableOf before) ∧
    (registrationsOf x.log).filterMap Registration.mailbox? =
      List.range x.state.bus.mailboxes.length ∧
    (∀ r index, HasReceiver r index x.log →
      (∃ queue, x.state.bus.mailboxes[index]? = some ⟨queue, true⟩ ∧
        deliveredFrom index x.log ++ queue = (invocationsOf index x.log).map Prod.snd) ∧
      ((invocationsOf index x.log).map Prod.fst).Nodup ∧
      ∀ number event, (number, event) ∈ invocationsOf index x.log ↔
        (∃ before behind, x.log = before ++ .started number event :: behind ∧
          r ∈ audience before event) ∧
        ∀ e ∈ x.emissions, e.number = number → r ∉ e.waiting) ∧
    (∀ before index answer behind, x.log = before ++ .received index answer :: behind →
      ∀ r, HasReceiver r index before → IsRightAnswer r index before answer) ∧
    (∀ first rest index, Shared.moves 1 uses = first ++ rest →
      let y := Execution.after memory (first ++ .drop index :: rest)
      x.AgreesApartFrom index y ∧
      (∀ kind, y.state.bus.count kind = x.state.bus.count kind) ∧
      ∀ other ≠ index, deliveredFrom other y.log = deliveredFrom other x.log) := by
  intro x
  have hposted : x.Posted := .after memory (Shared.moves 1 uses)
  refine ⟨Shared.isSole_after .., fun _ _ => Execution.exists_moment memory (Shared.moves 1 uses),
    hposted.places, ?_, ?_, ?_⟩
  · intro r index hr
    refine ⟨hposted.queues r index hr, hposted.nodup_invocationsOf index, ?_⟩
    exact fun number event => hposted.mem_invocationsOf_iff hr.mem hr.1
  · intro before index answer behind hlog r hr
    exact hposted.answers before _ behind hlog r index answer rfl hr
  · intro first rest index hmoves y
    have hagrees : x.AgreesApartFrom index y := by
      have hdropped := Execution.agreesApartFrom_after memory first rest index
      rwa [← hmoves] at hdropped
    refine ⟨hagrees, fun kind => ?_, fun other => hagrees.deliveredFrom_eq⟩
    rw [Bus.count_eq, Bus.count_eq, hagrees.registrations]

/-- The first listener removes a subscription that is called after it. The emission keeps it, so its
receiver is not told that nothing will come until the emission has ended. -/
example :
    let event : Event := .verified "a@b.com"
    let script : Script Unit :=
      .on .verified (fun _ => .off ⟨1⟩ fun _ => .done) fun _ => .subscribe .verified fun _ _ =>
        .emit event fun _ => .done
    let moves : List (Move Unit) :=
      .ask script :: List.replicate 5 .go ++ .receive 0 :: List.replicate 2 .go ++
        .receive 0 :: .receive 0 :: List.replicate 2 .go ++ [.receive 0]
    (Execution.after () moves).log.filterMap (fun deed => match deed with
      | .received _ answer => some answer
      | _ => none) = [.empty, .event event, .empty, .disconnected] := by
  decide +kernel

end SignIn.Event
