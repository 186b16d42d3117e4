import SignIn.Proofs.Event.Table

/-!
# Whom an emission calls

An emission calls those who were registered for its kind when it started, each of them once, in the
order of the table, and gives back how many they were. Listeners may register and remove others on
the way, and they may emit further events. So the table may be another one each time an emission
goes on, but whom it has yet to call was settled when it started.

The steps of nested emissions are mixed up in the log. What one of them did is found by its number.

## Main definitions

* `Event.courseOf` — what a log says of one emission
* `Event.audience` — whom an emission calls that starts now
* `Event.fullCourse` — all that an emission does
* `Event.HasCourse` — what an emission has done so far, and whom it was to call

## Main results

* `Event.Execution.move_cases` — what can happen to the emissions under way
* `Event.Execution.Sound.move`, `Event.Execution.Sound.after` — they stay on course
* `Event.emission_calls_snapshot`
-/

namespace SignIn.Event

variable {σ : Type}

/-! ### What a log says of an emission -/

/-- The emission that did it, if one did. -/
def Deed.emission? : Deed σ → Option Nat
  | .started number _ => some number
  | .called number _ _ => some number
  | .returned number _ => some number
  | .ended number _ => some number
  | _ => none

/-- What a log says of one emission. -/
def courseOf (number : Nat) (log : List (Deed σ)) : List (Deed σ) :=
  log.filter (·.emission? = some number)

/-- Those who hear an event that is emitted when this is the log. -/
def audience (log : List (Deed σ)) (event : Event) : List (Registration σ) :=
  (tableOf log).filter (·.kind = event.kind)

/-- Listeners are called one after the other, and all of them return. -/
def calls (number : Nat) (event : Event) (listeners : List (Registration σ)) : List (Deed σ) :=
  listeners.flatMap fun r => [.called number event r, .returned number r]

/-- All that an emission does. -/
def fullCourse (number : Nat) (event : Event) (listeners : List (Registration σ)) :
    List (Deed σ) :=
  .started number event :: (calls number event listeners ++ [.ended number listeners.length])

/-- An emission had these listeners when it started, and this is what it has done since. -/
structure HasCourse (number : Nat) (event : Event) (listeners : List (Registration σ))
    (course log : List (Deed σ)) : Prop where
  course : courseOf number log = .started number event :: course
  listeners : ∀ before deed behind, log = before ++ deed :: behind →
    ∀ event', deed = .started number event' → event' = event ∧ audience before event = listeners

/-- An emission has done all that it was to do. -/
def HasEnded (number : Nat) (log : List (Deed σ)) : Prop :=
  ∃ event listeners, HasCourse number event listeners
    (calls number event listeners ++ [.ended number listeners.length]) log

/-- An emission that is under way has called the first of its listeners, and has yet to call the
others. -/
def Emission.IsOnCourse (e : Emission σ) (log : List (Deed σ)) : Prop :=
  ∃ called, HasCourse e.number e.event (called ++ (e.current.toList ++ e.waiting))
      (calls e.number e.event called ++ e.current.toList.map (.called e.number e.event)) log ∧
    e.listeners = called ++ (e.current.toList ++ e.waiting)

section Course

variable {log deeds course : List (Deed σ)} {deed : Deed σ} {number : Nat} {event : Event}
  {listeners : List (Registration σ)}

theorem mem_calls : deed ∈ calls number event listeners ↔
    ∃ r ∈ listeners, deed = .called number event r ∨ deed = .returned number r := by
  simp [calls]

theorem calls_concat (number : Nat) (event : Event) (listeners : List (Registration σ))
    (r : Registration σ) : calls number event (listeners ++ [r]) =
      calls number event listeners ++ [.called number event r] ++ [.returned number r] := by
  simp [calls]

theorem calls_append (number : Nat) (event : Event) (listeners more : List (Registration σ)) :
    calls number event (listeners ++ more) =
      calls number event listeners ++ calls number event more :=
  List.flatMap_append

theorem ended_not_mem_calls (heard : Nat) : .ended number heard ∉ calls number event listeners := by
  simp [mem_calls]

theorem mem_courseOf (hdeed : deed.emission? = some number) :
    deed ∈ courseOf number log ↔ deed ∈ log := by
  simp [courseOf, hdeed]

theorem courseOf_concat_own (log : List (Deed σ)) (hdeed : deed.emission? = some number) :
    courseOf number (log ++ [deed]) = courseOf number log ++ [deed] := by
  simp [courseOf, hdeed]

theorem other_of_ne {n : Nat} (hdeed : deed.emission? = some n) (hne : n ≠ number) :
    ∀ d ∈ [deed], d.emission? ≠ some number :=
  List.forall_mem_singleton.2 fun heq => hne (Option.some.inj (hdeed.symm.trans heq))

theorem courseOf_append_other (hdeeds : ∀ deed ∈ deeds, deed.emission? ≠ some number) :
    courseOf number (log ++ deeds) = courseOf number log := by
  have hnone : courseOf number deeds = [] :=
    List.filter_eq_nil_iff.2 fun deed hdeed => by simpa using hdeeds deed hdeed
  rw [courseOf, List.filter_append]
  exact (congrArg _ hnone).trans (List.append_nil _)

/-- An emission starts and is to call those who are registered now. -/
theorem hasCourse_started (hfresh : courseOf number log = []) (event : Event) :
    HasCourse number event (audience log event) [] (log ++ [.started number event]) := by
  have hcourse : courseOf number (log ++ [.started number event]) = [.started number event] := by
    rw [courseOf_concat_own log rfl, hfresh, List.nil_append]
  refine ⟨hcourse, Log.forall_concat_iff.2 ⟨?_, ?_⟩⟩
  · rintro before deed behind rfl event' rfl
    have hmem : .started number event' ∈
        courseOf number (before ++ .started number event' :: behind) :=
      (mem_courseOf rfl).2 (List.mem_append_right _ List.mem_cons_self)
    rw [hfresh] at hmem
    cases hmem
  · rintro event' ⟨⟩
    exact ⟨rfl, rfl⟩

/-- What others do is not on the course of an emission. -/
theorem HasCourse.append_other (h : HasCourse number event listeners course log)
    (hdeeds : ∀ deed ∈ deeds, deed.emission? ≠ some number) :
    HasCourse number event listeners course (log ++ deeds) := by
  induction deeds generalizing log with
  | nil => rwa [List.append_nil]
  | cons deed deeds ih =>
    obtain ⟨hdeed, hdeeds⟩ := List.forall_mem_cons.1 hdeeds
    have hcourse : courseOf number (log ++ [deed]) = courseOf number log :=
      courseOf_append_other (List.forall_mem_singleton.2 hdeed)
    rw [List.append_cons]
    refine ih ⟨hcourse.trans h.course, Log.forall_concat_iff.2 ⟨h.listeners, ?_⟩⟩ hdeeds
    rintro event' rfl
    exact absurd rfl hdeed

/-- What an emission does after its start changes nothing in whom it is to call. -/
theorem HasCourse.concat_own (h : HasCourse number event listeners course log) (deed : Deed σ)
    (hdeed : deed.emission? = some number) (hstarted : ∀ event', deed ≠ .started number event') :
    HasCourse number event listeners (course ++ [deed]) (log ++ [deed]) :=
  ⟨by rw [courseOf_concat_own log hdeed, h.course, List.cons_append],
    Log.forall_concat_iff.2 ⟨h.listeners, fun event' heq => absurd heq (hstarted event')⟩⟩

theorem HasEnded.append_other (h : HasEnded number log)
    (hdeeds : ∀ deed ∈ deeds, deed.emission? ≠ some number) : HasEnded number (log ++ deeds) := by
  obtain ⟨event, listeners, hcourse⟩ := h
  exact ⟨event, listeners, hcourse.append_other hdeeds⟩

end Course

namespace Emission.IsOnCourse

variable {log : List (Deed σ)} {e : Emission σ} {r : Registration σ}

theorem append_other (h : e.IsOnCourse log) {deeds : List (Deed σ)}
    (hdeeds : ∀ deed ∈ deeds, deed.emission? ≠ some e.number) : e.IsOnCourse (log ++ deeds) := by
  obtain ⟨called, hcourse, hall⟩ := h
  exact ⟨called, hcourse.append_other hdeeds, hall⟩

/-- The listener that was called returns. -/
theorem comeBack (h : e.IsOnCourse log) (hcurrent : e.current = some r) :
    IsOnCourse { e with current := none } (log ++ [.returned e.number r]) := by
  obtain ⟨called, hcourse, hall⟩ := h
  rw [hcurrent] at hcourse hall
  refine ⟨called ++ [r], ?_, by simpa using hall⟩
  simpa [calls_concat] using hcourse.concat_own (.returned e.number r) rfl nofun

/-- The next listener is called. -/
theorem call (h : e.IsOnCourse log) {waiting : List (Registration σ)} (hcurrent : e.current = none)
    (hwaiting : e.waiting = r :: waiting) :
    IsOnCourse { e with current := some r, waiting } (log ++ [.called e.number e.event r]) := by
  obtain ⟨called, hcourse, hall⟩ := h
  rw [hcurrent, hwaiting] at hcourse hall
  refine ⟨called, ?_, hall⟩
  simpa using hcourse.concat_own (.called e.number e.event r) rfl nofun

/-- There is no other listener to be called. -/
theorem hasEnded (h : e.IsOnCourse log) (hcurrent : e.current = none) (hwaiting : e.waiting = []) :
    HasEnded e.number (log ++ [.ended e.number e.heard]) := by
  obtain ⟨called, hcourse, hall⟩ := h
  rw [hcurrent, hwaiting] at hcourse hall
  have hcalled : called ++ ((none : Option (Registration σ)).toList ++ []) = called := by simp
  rw [hcalled] at hcourse hall
  refine ⟨e.event, called, ?_⟩
  simpa [Emission.heard, hall] using hcourse.concat_own (.ended e.number e.heard) rfl nofun

end Emission.IsOnCourse

/-! ### What can happen to the emissions under way -/

namespace Execution

variable {x y : Execution σ}

/-- The emissions under way have nothing to do with what is done. -/
structure IsAside (x y : Execution σ) : Prop where
  emissions : y.emissions = x.emissions
  emitted : y.emitted = x.emitted
  log : ∃ deeds, y.log = x.log ++ deeds ∧ ∀ deed ∈ deeds, deed.emission? = none
  /-- While an emission is under way, only a script that is not done can go on. -/
  script : x.emissions ≠ [] → x.script = .done → y.script = .done

/-- All that can happen to emissions in one step: nothing, or one starts, or the innermost one goes
on. -/
theorem move_cases (x : Execution σ) (m : Move σ) :
    x.IsAside (x.move m) ∨
    (∃ event next, x.script = .emit event next ∧ x.move m = x.startEmission event next) ∨
    ∃ e outer, x.script = .done ∧ x.emissions = e :: outer ∧ x.move m = x.goOn e outer := by
  have hsilent : ∃ deeds, x.log = x.log ++ deeds ∧ ∀ deed ∈ deeds, deed.emission? = none :=
    ⟨[], (List.append_nil _).symm, fun _ h => by cases h⟩
  have hnoted : ∀ deed, deed.emission? = none →
      ∃ deeds, x.log ++ [deed] = x.log ++ deeds ∧ ∀ deed ∈ deeds, deed.emission? = none :=
    fun deed hdeed => ⟨_, rfl, List.forall_mem_singleton.2 hdeed⟩
  cases m with
  | ask script =>
    left
    rw [move, ask]
    split
    · next hemissions => exact ⟨rfl, rfl, hsilent, fun h _ => absurd hemissions h⟩
    · exact ⟨rfl, rfl, hsilent, fun _ h => h⟩
  | receive mailbox => exact .inl ⟨rfl, rfl, hnoted _ rfl, fun _ h => h⟩
  | drop mailbox => exact .inl ⟨rfl, rfl, hnoted _ rfl, fun _ h => h⟩
  | go =>
    obtain ⟨state, script, emissions, emitted, log⟩ := x
    cases script with
    | done =>
      cases emissions with
      | nil => exact .inl ⟨rfl, rfl, hsilent, fun _ h => h⟩
      | cons e outer => exact .inr (.inr ⟨e, outer, rfl, rfl, rfl⟩)
    | emit event next => exact .inr (.inl ⟨event, next, rfl, rfl⟩)
    | act change next => exact .inl ⟨rfl, rfl, hsilent, fun _ h => by cases h⟩
    | on kind run next => exact .inl ⟨rfl, rfl, hnoted _ rfl, fun _ h => by cases h⟩
    | subscribe kind next => exact .inl ⟨rfl, rfl, hnoted _ rfl, fun _ h => by cases h⟩
    | off id next => exact .inl ⟨rfl, rfl, hnoted _ rfl, fun _ h => by cases h⟩
    | count kind next => exact .inl ⟨rfl, rfl, hnoted _ rfl, fun _ h => by cases h⟩

/-- Every emission has done what it was to do so far, and none waits in vain. -/
structure Sound (x : Execution σ) : Prop where
  kept : x.Kept
  underWay : ∀ e ∈ x.emissions, e.IsOnCourse x.log
  ended : ∀ number < x.emitted, number ∉ x.emissions.map (·.number) → HasEnded number x.log
  fresh : ∀ number, x.emitted ≤ number → courseOf number x.log = []
  numbers : (x.emitted :: x.emissions.map (·.number)).Pairwise (· > ·)
  /-- An emission that is not the innermost waits for a listener that it has called. -/
  outer : ∀ e ∈ x.emissions.tail, e.current.isSome
  /-- So does the innermost one while something is performed. -/
  inner : x.script ≠ .done → ∀ e ∈ x.emissions, e.current.isSome

namespace Sound

theorem start (memory : σ) : (start memory).Sound where
  kept := .start memory
  underWay := nofun
  ended := fun _ h => absurd h (Nat.not_lt_zero _)
  fresh := fun _ _ => rfl
  numbers := List.pairwise_singleton ..
  outer := nofun
  inner := nofun

theorem isAside (h : x.Sound) (hkept : y.Kept) (haside : x.IsAside y) : y.Sound := by
  obtain ⟨deeds, hlog, hdeeds⟩ := haside.log
  have hother : ∀ number, ∀ deed ∈ deeds, deed.emission? ≠ some number := fun number deed hdeed =>
    hdeeds deed hdeed ▸ nofun
  refine ⟨hkept, ?_, ?_, ?_, ?_, ?_, ?_⟩
  · rw [haside.emissions, hlog]
    exact fun e he => (h.underWay e he).append_other (hother _)
  · rw [haside.emitted, haside.emissions, hlog]
    exact fun number hlt hnot => (h.ended number hlt hnot).append_other (hother _)
  · rw [haside.emitted, hlog]
    exact fun number hle => (courseOf_append_other (hother _)).trans (h.fresh number hle)
  · rw [haside.emitted, haside.emissions]
    exact h.numbers
  · rw [haside.emissions]
    exact h.outer
  · rw [haside.emissions]
    intro hy e he
    refine h.inner (fun hx => hy (haside.script (fun hnil => ?_) hx)) e he
    rw [hnil] at he
    cases he

/-- An emission starts. -/
theorem startEmission (h : x.Sound) {event : Event} {next : Nat → Script σ}
    (hkept : (x.startEmission event next).Kept) (hscript : x.script = .emit event next) :
    (x.startEmission event next).Sound := by
  have hother : ∀ number, x.emitted ≠ number →
      ∀ deed ∈ [Deed.started (σ := σ) x.emitted event], deed.emission? ≠ some number :=
    fun number => other_of_ne rfl
  have hlt : ∀ e ∈ x.emissions, e.number < x.emitted := fun e he =>
    (List.pairwise_cons.1 h.numbers).1 _ (List.mem_map_of_mem he)
  refine ⟨hkept, List.forall_mem_cons.2 ⟨⟨[], ?_, rfl⟩, ?_⟩, ?_, ?_, ?_, ?_,
    fun hdone => absurd rfl hdone⟩
  · have hstarted := hasCourse_started (h.fresh x.emitted (Nat.le_refl _)) event
    rw [audience, ← h.kept.table] at hstarted
    exact hstarted
  · exact fun e he => (h.underWay e he).append_other (hother _ (Nat.ne_of_gt (hlt e he)))
  · intro number hnumber hnot
    obtain ⟨hne, hnot⟩ := not_or.1 (mt List.mem_cons.2 hnot)
    have hlt : number < x.emitted := Nat.lt_of_le_of_ne (Nat.le_of_lt_succ hnumber) hne
    exact (h.ended number hlt hnot).append_other (hother _ (Nat.ne_of_gt hlt))
  · intro number hle
    refine (courseOf_append_other (hother number (Nat.ne_of_lt hle))).trans ?_
    exact h.fresh number (Nat.le_of_succ_le hle)
  · refine List.pairwise_cons.2 ⟨List.forall_mem_cons.2 ⟨Nat.lt_succ_self _, ?_⟩, h.numbers⟩
    exact fun number hnumber =>
      Nat.lt_succ_of_lt ((List.pairwise_cons.1 h.numbers).1 number hnumber)
  · exact h.inner (hscript ▸ nofun)

/-- What the innermost emission does leaves the others on course. -/
theorem append_own (h : x.Sound) {e : Emission σ} {outer : List (Emission σ)}
    (hemissions : x.emissions = e :: outer) (deed : Deed σ)
    (hdeed : deed.emission? = some e.number) :
    (∀ e ∈ outer, e.IsOnCourse (x.log ++ [deed])) ∧
    (∀ number < x.emitted, number ∉ e.number :: outer.map (·.number) →
      HasEnded number (x.log ++ [deed])) ∧
    (∀ number, x.emitted ≤ number → courseOf number (x.log ++ [deed]) = []) := by
  have hnumbers := hemissions ▸ h.numbers
  obtain ⟨hfresh, hnumbers⟩ := List.pairwise_cons.1 hnumbers
  have houter := (List.pairwise_cons.1 hnumbers).1
  refine ⟨fun e' he' => ?_, fun number hlt hnot => ?_, fun number hle => ?_⟩
  · have hlt := houter e'.number (List.mem_map_of_mem he')
    refine (h.underWay e' ?_).append_other (other_of_ne hdeed (Nat.ne_of_gt hlt))
    exact hemissions ▸ List.mem_cons_of_mem _ he'
  · have hne : e.number ≠ number := fun heq => hnot (heq ▸ List.mem_cons_self)
    exact (h.ended number hlt (hemissions ▸ hnot)).append_other (other_of_ne hdeed hne)
  · have hlt : e.number < x.emitted := hfresh _ List.mem_cons_self
    rw [courseOf_append_other (other_of_ne hdeed (by omega)), h.fresh number hle]

/-- The innermost emission comes back to itself, or it calls a listener. -/
theorem goesOn (h : x.Sound) (hkept : y.Kept) {e e' : Emission σ} {outer : List (Emission σ)}
    {deed : Deed σ} (hemissions : x.emissions = e :: outer) (hdeed : deed.emission? = some e.number)
    (hlog : y.log = x.log ++ [deed]) (hunder : y.emissions = e' :: outer)
    (hnumber : e'.number = e.number) (hemitted : y.emitted = x.emitted)
    (hcourse : e'.IsOnCourse y.log) (hinner : y.script ≠ .done → e'.current.isSome) : y.Sound := by
  obtain ⟨hothers, hended, hfresh⟩ := h.append_own hemissions _ hdeed
  have hnumbers := hemissions ▸ h.numbers
  have houter : ∀ e ∈ outer, e.current.isSome := by simpa [hemissions] using h.outer
  refine ⟨hkept, ?_, ?_, ?_, ?_, ?_, ?_⟩
  · rw [hunder]
    exact List.forall_mem_cons.2 ⟨hcourse, hlog ▸ hothers⟩
  · rw [hunder, hemitted, hlog, List.map_cons, hnumber]
    exact hended
  · rw [hemitted, hlog]
    exact hfresh
  · rw [hunder, hemitted, List.map_cons, hnumber]
    exact hnumbers
  · rw [hunder]
    exact houter
  · rw [hunder]
    exact fun hscript => List.forall_mem_cons.2 ⟨hinner hscript, houter⟩

/-- The innermost emission ends. -/
theorem endEmission (h : x.Sound) {e : Emission σ} {outer : List (Emission σ)}
    (hkept : (x.endEmission e outer).Kept) (hemissions : x.emissions = e :: outer)
    (hended : HasEnded e.number (x.log ++ [.ended e.number e.heard])) :
    (x.endEmission e outer).Sound := by
  obtain ⟨hothers, hothersEnded, hfresh⟩ :=
    h.append_own hemissions (.ended e.number e.heard) rfl
  have hnumbers := hemissions ▸ h.numbers
  have houter : ∀ e ∈ outer, e.current.isSome := by simpa [hemissions] using h.outer
  refine ⟨hkept, hothers, fun number hlt hnot => ?_, hfresh, ?_, ?_, fun _ => houter⟩
  · by_cases hnumber : number = e.number
    · rw [hnumber]
      exact hended
    · exact hothersEnded number hlt (List.not_mem_cons_of_ne_of_not_mem hnumber hnot)
  · exact hnumbers.sublist (.cons_cons _ (List.sublist_cons_self ..))
  · exact fun e he => houter e (List.mem_of_mem_tail he)

/-- The innermost emission does what it is to do next. -/
theorem goOn (h : x.Sound) {e : Emission σ} {outer : List (Emission σ)}
    (hkept : (x.goOn e outer).Kept) (hscript : x.script = .done)
    (hemissions : x.emissions = e :: outer) : (x.goOn e outer).Sound := by
  have hcourse : e.IsOnCourse x.log := h.underWay e (hemissions ▸ List.mem_cons_self)
  rw [Execution.goOn] at hkept ⊢
  split at hkept
  · next r _ hcurrent =>
    exact h.goesOn hkept hemissions rfl rfl rfl rfl rfl (hcourse.comeBack hcurrent)
      fun hnot => absurd hscript hnot
  · next r waiting hcurrent hwaiting =>
    exact h.goesOn hkept hemissions rfl rfl rfl rfl rfl (hcourse.call hcurrent hwaiting)
      fun _ => rfl
  · next hcurrent hwaiting =>
    exact h.endEmission hkept hemissions (hcourse.hasEnded hcurrent hwaiting)

theorem move (h : x.Sound) (m : Move σ) : (x.move m).Sound := by
  have hkept := h.kept.move m
  obtain haside | ⟨event, next, hscript, heq⟩ | ⟨e, outer, hscript, hemissions, heq⟩ :=
    x.move_cases m
  · exact h.isAside hkept haside
  · rw [heq] at hkept ⊢
    exact h.startEmission hkept hscript
  · rw [heq] at hkept ⊢
    exact h.goOn hkept hscript hemissions

/-- Whatever happens to a bus, every emission stays on course. -/
theorem after (memory : σ) (moves : List (Move σ)) : (after memory moves).Sound :=
  List.foldlRecOn (motive := Sound) moves Execution.move (.start memory) fun _ h m _ => h.move m

/-- However far a bus goes on by itself, every emission stays on course. -/
theorem iterate (h : x.Sound) (n : Nat) : (Execution.go^[n] x).Sound := by
  induction n generalizing x with
  | zero => exact h
  | succ n ih => exact ih (h.move .go)

/-- The log knows only emissions that have started. -/
theorem lt_emitted (h : x.Sound) {deed : Deed σ} {number : Nat} (hmem : deed ∈ x.log)
    (hdeed : deed.emission? = some number) : number < x.emitted := by
  by_contra hle
  rw [← mem_courseOf hdeed, h.fresh number (Nat.le_of_not_lt hle)] at hmem
  cases hmem

/-- Everything an emission does comes after its start. -/
theorem exists_started (h : x.Sound) {deed : Deed σ} {number : Nat} (hmem : deed ∈ x.log)
    (hdeed : deed.emission? = some number) :
    ∃ event before behind, x.log = before ++ .started number event :: behind := by
  obtain ⟨event, hstarted⟩ : ∃ event, .started number event ∈ courseOf number x.log := by
    by_cases hunder : number ∈ x.emissions.map (·.number)
    · obtain ⟨e, he, rfl⟩ := List.mem_map.1 hunder
      obtain ⟨called, hcourse, -⟩ := h.underWay e he
      exact ⟨e.event, hcourse.course ▸ List.mem_cons_self⟩
    · obtain ⟨event, listeners, hcourse⟩ := h.ended number (h.lt_emitted hmem hdeed) hunder
      exact ⟨event, hcourse.course ▸ List.mem_cons_self⟩
  obtain ⟨before, behind, hlog⟩ := List.append_of_mem ((mem_courseOf rfl).1 hstarted)
  exact ⟨event, before, behind, hlog⟩

/-- An emission that has nobody left to call, and waits for nobody, ends in the next step. -/
theorem go_of_underWay (h : x.Sound) {e : Emission σ} (he : e ∈ x.emissions)
    (hcurrent : e.current = none) (hwaiting : e.waiting = []) :
    x.go.log = x.log ++ [.ended e.number e.heard] := by
  have hbusy : ¬e.current.isSome := fun hsome => by
    rw [hcurrent] at hsome
    cases hsome
  have hscript : x.script = .done := by
    by_contra hscript
    exact hbusy (h.inner hscript e he)
  have houter := h.outer
  cases hemissions : x.emissions with
  | nil =>
    rw [hemissions] at he
    cases he
  | cons first outer =>
    rw [hemissions] at he houter
    obtain rfl | he := List.mem_cons.1 he
    · rw [go_of_done hscript hemissions, Execution.goOn, hcurrent, hwaiting]
      rfl
    · exact absurd (houter e he) hbusy

/-- An emission that is under way has done the first part of what it is to do, and it ends in the
next step if that is all but its end. -/
theorem underWay_law (h : x.Sound) {e : Emission σ} (he : e ∈ x.emissions)
    {before behind : List (Deed σ)} {event : Event}
    (hlog : x.log = before ++ .started e.number event :: behind) :
    courseOf e.number x.log <+: fullCourse e.number event (audience before event) ∧
    (∀ heard, .ended e.number heard ∉ x.log) ∧
    (courseOf e.number x.log =
        .started e.number event :: calls e.number event (audience before event) →
      x.go.log = x.log ++ [.ended e.number (audience before event).length]) := by
  obtain ⟨called, hcourse, hall⟩ := h.underWay e he
  obtain ⟨rfl, hlisteners⟩ := hcourse.listeners before _ behind hlog event rfl
  rw [hlisteners, hcourse.course, fullCourse, calls_append, List.append_assoc]
  refine ⟨?_, fun heard hmem => ?_, fun heq => ?_⟩
  · -- The call that is under way is the next one of the full course.
    have hcurrent : e.current.toList.map (.called e.number e.event) <+:
        calls e.number e.event (e.current.toList ++ e.waiting) := by
      cases e.current with
      | none => exact List.nil_prefix
      | some r => exact ⟨.returned e.number r :: calls e.number e.event e.waiting, rfl⟩
    refine List.cons_prefix_cons.2 ⟨rfl, (List.prefix_append_right_inj _).2 ?_⟩
    exact hcurrent.trans (List.prefix_append ..)
  · rw [← mem_courseOf rfl, hcourse.course] at hmem
    simp [ended_not_mem_calls] at hmem
  · have hrest : e.current.toList.map (.called e.number e.event) =
        calls e.number e.event (e.current.toList ++ e.waiting) :=
      List.append_cancel_left (List.cons_injective heq)
    cases hcurrent : e.current with
    | some r =>
      rw [hcurrent] at hrest
      simp [calls] at hrest
    | none =>
      have hwaiting : e.waiting = [] := by
        rw [hcurrent] at hrest
        cases hwaiting : e.waiting with
        | nil => rfl
        | cons r waiting =>
          rw [hwaiting] at hrest
          cases hrest
      rw [h.go_of_underWay he hcurrent hwaiting, Emission.heard, hall, hcurrent]

/-- What an emission has done is the first part of what it is to do, or all of that. -/
theorem law (h : x.Sound) {number : Nat} {before behind : List (Deed σ)} {event : Event}
    (hlog : x.log = before ++ .started number event :: behind) :
    courseOf number x.log <+: fullCourse number event (audience before event) ∧
    (∀ heard, .ended number heard ∈ x.log →
      courseOf number x.log = fullCourse number event (audience before event) ∧
        heard = (audience before event).length) ∧
    (courseOf number x.log = .started number event :: calls number event (audience before event) →
      x.go.log = x.log ++ [.ended number (audience before event).length]) := by
  by_cases hunder : number ∈ x.emissions.map (·.number)
  · obtain ⟨e, he, rfl⟩ := List.mem_map.1 hunder
    obtain ⟨hfirst, hended, hnext⟩ := h.underWay_law he hlog
    exact ⟨hfirst, fun heard hmem => absurd hmem (hended heard), hnext⟩
  · have hmem : .started number event ∈ x.log := by simp [hlog]
    obtain ⟨event', listeners, hcourse⟩ := h.ended number (h.lt_emitted hmem rfl) hunder
    obtain ⟨rfl, hlisteners⟩ := hcourse.listeners before _ behind hlog event rfl
    have hfull : courseOf number x.log = fullCourse number event listeners := hcourse.course
    rw [hlisteners, hfull]
    refine ⟨List.prefix_rfl, fun heard hmem => ⟨rfl, ?_⟩, fun heq => ?_⟩
    · rw [← mem_courseOf rfl, hfull, fullCourse] at hmem
      simpa [ended_not_mem_calls] using hmem
    · have hlast := List.cons_injective heq
      simp at hlast

/-- The log tells at most one number of listeners for an emission. -/
theorem heard_unique (h : x.Sound) {number heard heard' : Nat}
    (hmem : .ended number heard ∈ x.log) (hmem' : .ended number heard' ∈ x.log) :
    heard = heard' := by
  obtain ⟨event, before, behind, hlog⟩ := h.exists_started hmem rfl
  obtain ⟨-, hended, -⟩ := h.law hlog
  rw [(hended heard hmem).2, (hended heard' hmem').2]

end Sound

/-! ### Emissions at once -/

theorem go_of_isIdle (h : x.IsIdle) : x.go = x := by
  obtain ⟨hscript, hemissions⟩ := h
  rw [go, hscript]
  simp only [hemissions]

/-- A bus goes on to one end only. -/
theorem iterate_unique {n m : Nat} (hn : (go^[n] x).IsIdle) (hm : (go^[m] x).IsIdle) :
    go^[n] x = go^[m] x := by
  wlog hle : n ≤ m generalizing n m
  · exact (this hm hn (Nat.le_of_not_le hle)).symm
  · rw [← Nat.sub_add_cancel hle, Function.iterate_add_apply,
      Function.iterate_fixed (go_of_isIdle hn)]

theorem ask_of_isIdle (h : x.IsIdle) (script : Script σ) :
    x.move (.ask script) = { x with script } := by
  obtain ⟨hscript, hemissions⟩ := h
  rw [move, ask, hscript, hemissions]

/-- If an emission has a result at some depth, the steps come to an end with that result. -/
theorem exists_of_emit (hidle : x.IsIdle) {depth : Nat} {event : Event} {t : State σ} {heard : Nat}
    (hemit : emit depth event x.state = some (t, heard)) :
    ∃ n, let y := go^[n] (x.move (.ask (.emit event fun _ => .done)))
      y.IsIdle ∧ y.state = t ∧ .ended x.emitted heard ∈ y.log := by
  rw [ask_of_isIdle hidle]
  obtain ⟨y, ⟨n, rfl⟩, hscript, hstate, hemissions, hended⟩ := emits_emit depth
    { x with script := .emit event fun _ => .done } event (fun _ => .done) t heard rfl hemit
  exact ⟨n, ⟨hscript, hemissions.trans hidle.2⟩, hstate, hended⟩

/-- If the steps come to an end, the emission has a result at some depth, and they come to that. -/
theorem exists_emit_of_isIdle (hidle : x.IsIdle) {n : Nat} {event : Event}
    (hend : (go^[n] (x.move (.ask (.emit event fun _ => .done)))).IsIdle) :
    ∃ heard, emit n event x.state =
      some ((go^[n] (x.move (.ask (.emit event fun _ => .done)))).state, heard) := by
  have hfinish := finish_of_isIdle hend
  rw [ask_of_isIdle hidle] at hfinish ⊢
  obtain ⟨s, hscript, hrest⟩ := Option.bind_eq_some_iff.1 hfinish
  obtain ⟨⟨s', heard⟩, hemit, hdone⟩ := Option.bind_eq_some_iff.1 hscript
  rw [hidle.2] at hrest ⊢
  rw [← Option.some.inj hrest, ← Option.some.inj hdone]
  exact ⟨heard, hemit⟩

/-- An emission has a result at some depth just when the steps come to an end, and then it is what
they come to. -/
theorem Sound.emit_iff (h : x.Sound) (hidle : x.IsIdle) (event : Event) (t : State σ)
    (heard : Nat) : (∃ depth, emit depth event x.state = some (t, heard)) ↔
      ∃ n, let y := go^[n] (x.move (.ask (.emit event fun _ => .done)))
        y.IsIdle ∧ y.state = t ∧ .ended x.emitted heard ∈ y.log := by
  constructor
  · rintro ⟨depth, hemit⟩
    exact exists_of_emit hidle hemit
  · rintro ⟨n, hend, rfl, hended⟩
    -- Some number of listeners comes with the result, and the log knows only this one.
    obtain ⟨heard', hemit⟩ := exists_emit_of_isIdle hidle hend
    obtain ⟨m, hend', -, hended'⟩ := exists_of_emit hidle hemit
    rw [iterate_unique hend' hend] at hended'
    rw [((h.move _).iterate n).heard_unique hended hended']
    exact ⟨n, hemit⟩

end Execution

/-- Whom emissions call, in whatever way a bus is used. All handles show one table, which is what
the log has made of it, now and at every time before; so no change to it is lost or undone. Every
emission, nested or not, calls those who were in the table for its kind when it started, in that
order and each of them once, and waits for each to return. If all have returned it ends next, with
their number. And what `emit` does at once is what these steps come to. -/
theorem emission_calls_snapshot (memory : σ) (uses : List (Shared.Use (Move σ))) :
    let x := Execution.after memory (Shared.moves 1 uses)
    (∃ handles, (Shared.after Execution.move (.start memory) uses).IsSole x handles) ∧
    x.state.bus.registrations = tableOf x.log ∧
    (∀ before behind, x.log = before ++ behind → ∃ earlier, earlier <+: Shared.moves 1 uses ∧
      (Execution.after memory earlier).log = before ∧
      (Execution.after memory earlier).state.bus.registrations = tableOf before) ∧
    (∀ number event before behind, x.log = before ++ .started number event :: behind →
      courseOf number x.log <+: fullCourse number event (audience before event) ∧
      (∀ heard, .ended number heard ∈ x.log →
        courseOf number x.log = fullCourse number event (audience before event) ∧
          heard = (audience before event).length) ∧
      (courseOf number x.log = .started number event :: calls number event (audience before event) →
        x.go.log = x.log ++ [.ended number (audience before event).length])) ∧
    (x.IsIdle → ∀ event t heard,
      (∃ depth, emit depth event x.state = some (t, heard)) ↔
        ∃ n, let y := Execution.go^[n] (x.move (.ask (.emit event fun _ => .done)))
          y.IsIdle ∧ y.state = t ∧ .ended x.emitted heard ∈ y.log) := by
  intro x
  have hsound : x.Sound := .after memory (Shared.moves 1 uses)
  exact ⟨Shared.isSole_after .., hsound.kept.table,
    fun _ _ => Execution.exists_moment memory (Shared.moves 1 uses), fun _ _ _ _ => hsound.law,
    hsound.emit_iff⟩

/-- The first listener removes the second one and registers a third. The second is called and the
third is not. -/
example :
    let first : Event → Script Nat := fun _ =>
      .off ⟨1⟩ fun _ => .on .verified (fun _ => .act (· + 10) fun _ => .done) fun _ => .done
    let second : Event → Script Nat := fun _ => .act (· + 1) fun _ => .done
    let bus := ((Bus.empty.on .verified first).2.on .verified second).2
    (emit 1 (.verified "a@b.com") ⟨bus, 0⟩).map
      (fun (s, heard) => (s.memory, heard, s.bus.registrations.map (·.id.number))) =
      some (1, 2, [0, 2]) := by
  decide +kernel

end SignIn.Event
