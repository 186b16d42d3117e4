import Mathlib.Logic.Function.Iterate
import SignIn.Event.Bus
import SignIn.Shared

/-!
# Emissions, step by step

An emission calls listeners, which perform scripts, which emit further events. `Event.emit` runs all
of this to its end, and its result does not tell what happened on the way. Here the same is done in
single steps, and every step is kept in a log: who was registered and removed, which emission
started, whom it called, who returned and when it ended. What is under way at a time is a stack of
emissions, the innermost on top, each with those whom it has yet to call.

A client is whoever uses the bus from outside. It performs a script too, but only while nobody else
is at work. A run may be looked at in the middle of an emission, and it may be one that never ends.

Both ways of looking at it agree. If an emission has a result at any depth, the steps come to an end
with that result; and if the steps come to an end, there is a depth at which the emission has a
result.

## Main definitions

* `Event.Deed` — an entry of the log
* `Event.Emission`, `Event.Execution` — what is under way
* `Event.Execution.go` — the next step
* `Event.Execution.move`, `Event.Execution.after` — what can happen to a bus, and all that happens

## Main results

* `Event.emit_succ` — greater depth gives the same result
* `Event.Execution.finish_of_isIdle`, `Event.Execution.emits_emit` — the two directions
-/

namespace SignIn.Event

variable {σ : Type}

/-! ### What is under way -/

/-- Something that happened where a bus is used. Emissions are numbered in the order in which they
started. -/
inductive Deed (σ : Type) where
  /-- A script or a mailbox was registered. -/
  | registered (registration : Registration σ)
  | removed (id : ListenerId) (found : Bool)
  | counted (kind : Kind) (answer : Nat)
  | started (emission : Nat) (event : Event)
  /-- The listener of a registration was called. -/
  | called (emission : Nat) (event : Event) (registration : Registration σ)
  /-- The listener of a registration was done. -/
  | returned (emission : Nat) (registration : Registration σ)
  | ended (emission : Nat) (heard : Nat)
  | received (mailbox : Nat) (answer : Received)
  | dropped (mailbox : Nat)

/-- An emission that is under way. -/
structure Emission (σ : Type) where
  number : Nat
  event : Event
  /-- The registration whose listener is at work. -/
  current : Option (Registration σ)
  /-- The registrations whose listeners have yet to be called. -/
  waiting : List (Registration σ)
  /-- All the registrations that it took when it started. It keeps them to its end. -/
  listeners : List (Registration σ)
  /-- What is done with their number. -/
  next : Nat → Script σ

/-- How many listeners there are in all. -/
def Emission.heard (e : Emission σ) : Nat := e.listeners.length

/-- A bus in use. -/
structure Execution (σ : Type) where
  state : State σ
  /-- What is performed at the moment. -/
  script : Script σ
  /-- The emissions that are under way, the innermost first. -/
  emissions : List (Emission σ)
  /-- How many emissions have started so far. -/
  emitted : Nat
  log : List (Deed σ)

/-- What the listener of a registration performs. -/
def Registration.script (r : Registration σ) (event : Event) : Script σ :=
  match r.listener with
  | .script run => run event
  | .mailbox _ => .done

/-- The mailbox of a registration, if it has one. -/
def Registration.mailbox? (r : Registration σ) : Option Nat :=
  match r.listener with
  | .script _ => none
  | .mailbox index => some index

/-- Puts an event into the mailbox of a registration, if it has one. -/
def Registration.deliver (r : Registration σ) (event : Event) (b : Bus σ) : Bus σ :=
  match r.listener with
  | .script _ => b
  | .mailbox index => b.deliver index event

namespace Execution

/-- A new bus that nobody uses yet. -/
def start (memory : σ) : Execution σ := ⟨⟨.empty, memory⟩, .done, [], 0, []⟩

/-- Nothing is under way. -/
def IsIdle (x : Execution σ) : Prop := x.script = .done ∧ x.emissions = []

/-! ### Steps -/

/-- The listener that was at work has returned to its emission. -/
def comeBack (x : Execution σ) (e : Emission σ) (r : Registration σ) (outer : List (Emission σ)) :
    Execution σ :=
  { x with
    emissions := { e with current := none } :: outer
    log := x.log ++ [.returned e.number r] }

/-- An emission calls the next listener. -/
def call (x : Execution σ) (e : Emission σ) (r : Registration σ) (waiting : List (Registration σ))
    (outer : List (Emission σ)) : Execution σ :=
  { x with
    state := { x.state with bus := r.deliver e.event x.state.bus }
    script := r.script e.event
    emissions := { e with current := some r, waiting } :: outer
    log := x.log ++ [.called e.number e.event r] }

/-- An emission has called all its listeners, and what comes behind it is performed. -/
def endEmission (x : Execution σ) (e : Emission σ) (outer : List (Emission σ)) : Execution σ :=
  { x with
    script := e.next e.heard
    emissions := outer
    log := x.log ++ [.ended e.number e.heard] }

/-- What the innermost emission does next, when its listener has nothing more to perform. -/
def goOn (x : Execution σ) (e : Emission σ) (outer : List (Emission σ)) : Execution σ :=
  match e.current, e.waiting with
  | some r, _ => x.comeBack e r outer
  | none, r :: waiting => x.call e r waiting outer
  | none, [] => x.endEmission e outer

/-- Starts an emission to the listeners that are registered now. -/
def startEmission (x : Execution σ) (event : Event) (next : Nat → Script σ) : Execution σ :=
  let listeners := x.state.bus.registrations.filter (·.kind = event.kind)
  { x with
    script := .done
    emissions := ⟨x.emitted, event, none, listeners, listeners, next⟩ :: x.emissions
    emitted := x.emitted + 1
    log := x.log ++ [.started x.emitted event] }

/-- The next step. -/
def go (x : Execution σ) : Execution σ :=
  match x.script with
  | .done =>
    match x.emissions with
    | [] => x
    | e :: outer => x.goOn e outer
  | .act change next =>
    let memory := change x.state.memory
    { x with state := { x.state with memory }, script := next memory }
  | .on kind run next =>
    let (id, bus) := x.state.bus.on kind run
    { x with
      state := { x.state with bus }
      script := next id
      log := x.log ++ [.registered ⟨id, kind, .script run⟩] }
  | .subscribe kind next =>
    let ((id, index), bus) := x.state.bus.subscribe kind
    { x with
      state := { x.state with bus }
      script := next id index
      log := x.log ++ [.registered ⟨id, kind, .mailbox index⟩] }
  | .off id next =>
    let (found, bus) := x.state.bus.off id
    { x with
      state := { x.state with bus }
      script := next found
      log := x.log ++ [.removed id found] }
  | .count kind next =>
    let answer := x.state.bus.count kind
    { x with script := next answer, log := x.log ++ [.counted kind answer] }
  | .emit event next => x.startEmission event next

/-- What a client does with a bus that is not at work. -/
def ask (x : Execution σ) (script : Script σ) : Execution σ :=
  match x.script, x.emissions with
  | .done, [] => { x with script }
  | _, _ => x

end Execution

/-- What can happen to a bus in use. Receivers are asked and dropped at any time, also while
listeners are at work. -/
inductive Move (σ : Type) where
  /-- A client performs a script. -/
  | ask (script : Script σ)
  | go
  | receive (mailbox : Nat)
  | drop (mailbox : Nat)

namespace Execution

/-- Whether an emission that is under way keeps the subscription of a mailbox. -/
def holds (x : Execution σ) (mailbox : Nat) : Bool :=
  x.emissions.any fun e => e.listeners.any (·.mailbox? = some mailbox)

/-- Takes the next event out of a mailbox. A subscription that was removed is not gone as long as an
emission keeps it. -/
def receive (x : Execution σ) (mailbox : Nat) : Received × Bus σ :=
  let (answer, bus) := x.state.bus.receive mailbox
  (if answer = .disconnected ∧ x.holds mailbox then .empty else answer, bus)

/-- A bus in use after something happened to it. -/
def move (x : Execution σ) : Move σ → Execution σ
  | .ask script => x.ask script
  | .go => x.go
  | .receive mailbox =>
    let (answer, bus) := x.receive mailbox
    { x with state := { x.state with bus }, log := x.log ++ [.received mailbox answer] }
  | .drop mailbox =>
    { x with
      state := { x.state with bus := x.state.bus.drop mailbox }
      log := x.log ++ [.dropped mailbox] }

/-- A new bus after all that happened to it. -/
def after (memory : σ) (moves : List (Move σ)) : Execution σ := moves.foldl move (start memory)

end Execution

/-! ### Greater depth gives the same result -/

section Depth

variable {f g : Event → State σ → Option (State σ × Nat)} {event : Event} {s t : State σ}

theorem Script.perform_mono (hfg : ∀ event s r, f event s = some r → g event s = some r)
    {script : Script σ} (h : script.perform f s = some t) : script.perform g s = some t := by
  induction script generalizing s with
  | done => exact h
  | act change next ih => exact ih _ h
  | on kind listener next _ ih => exact ih _ h
  | subscribe kind next ih => exact ih _ _ h
  | off id next ih => exact ih _ h
  | count kind next ih => exact ih _ h
  | emit event next ih =>
    obtain ⟨⟨s₁, heard⟩, hemit, hrest⟩ := Option.bind_eq_some_iff.1 h
    exact Option.bind_eq_some_iff.2 ⟨_, hfg _ _ _ hemit, ih _ hrest⟩

theorem Listener.call_mono (hfg : ∀ event s r, f event s = some r → g event s = some r)
    {listener : Listener σ} (h : listener.call f event s = some t) :
    listener.call g event s = some t := by
  cases listener with
  | script run => exact Script.perform_mono hfg h
  | mailbox index => exact h

theorem foldlM_mono {α : Type} {f g : State σ → α → Option (State σ)}
    (hfg : ∀ s a t, f s a = some t → g s a = some t) {as : List α}
    (h : as.foldlM f s = some t) : as.foldlM g s = some t := by
  induction as generalizing s with
  | nil => exact h
  | cons a as ih =>
    rw [List.foldlM_cons] at h ⊢
    obtain ⟨s₁, hfirst, hrest⟩ := Option.bind_eq_some_iff.1 h
    exact Option.bind_eq_some_iff.2 ⟨s₁, hfg _ _ _ hfirst, ih hrest⟩

/-- What has a result at some depth has the same one at greater depth. -/
theorem emit_succ {depth : Nat} {r : State σ × Nat} (h : emit depth event s = some r) :
    emit (depth + 1) event s = some r := by
  induction depth generalizing event s r with
  | zero => cases h
  | succ depth ih =>
    rw [emit] at h ⊢
    obtain ⟨s₁, hcalls, hresult⟩ := Option.bind_eq_some_iff.1 h
    have hcalls' := foldlM_mono (fun s l t h => Listener.call_mono (fun _ _ _ => ih) h) hcalls
    exact Option.bind_eq_some_iff.2 ⟨s₁, hcalls', hresult⟩

end Depth

/-! ### From the steps to a result -/

theorem Registration.call_eq (emission : Event → State σ → Option (State σ × Nat)) (event : Event)
    (s : State σ) (r : Registration σ) : r.listener.call emission event s =
      (r.script event).perform emission { s with bus := r.deliver event s.bus } := by
  rw [Registration.script, Registration.deliver]
  cases r.listener <;> rfl

/-- Calls the listeners that an emission has yet to call, and does what comes behind it. -/
def Emission.finish (depth : Nat) (s : State σ) (e : Emission σ) : Option (State σ) := do
  let s ← e.waiting.foldlM (fun s r => r.listener.call (emit depth) e.event s) s
  (e.next e.heard).perform (emit depth) s

namespace Execution

variable {x y : Execution σ} {s t : State σ} {depth : Nat}

/-- Does all that is still to be done, at once. -/
def finish (depth : Nat) (x : Execution σ) : Option (State σ) := do
  let s ← x.script.perform (emit depth) x.state
  x.emissions.foldlM (Emission.finish depth) s

theorem finish_succ (h : x.finish depth = some s) : x.finish (depth + 1) = some s := by
  have hperform : ∀ (script : Script σ) (s t : State σ), script.perform (emit depth) s = some t →
      script.perform (emit (depth + 1)) s = some t :=
    fun script s t => Script.perform_mono fun _ _ _ => emit_succ
  obtain ⟨s₁, hscript, hrest⟩ := Option.bind_eq_some_iff.1 h
  refine Option.bind_eq_some_iff.2 ⟨s₁, hperform _ _ _ hscript, foldlM_mono ?_ hrest⟩
  intro s e t he
  obtain ⟨s₂, hcalls, hnext⟩ := Option.bind_eq_some_iff.1 he
  refine Option.bind_eq_some_iff.2 ⟨s₂, foldlM_mono ?_ hcalls, hperform _ _ _ hnext⟩
  exact fun s r t => Listener.call_mono fun _ _ _ => emit_succ

/-- Where an emission starts, its listeners are called at a smaller depth than its own. -/
theorem finish_startEmission {event : Event} {next : Nat → Script σ}
    (hscript : x.script = .emit event next)
    (h : (x.startEmission event next).finish depth = some s) : x.finish (depth + 1) = some s := by
  obtain ⟨s₁, hcalls, hrest⟩ : ∃ s₁, (x.state.bus.registrations.filter (·.kind = event.kind)).foldlM
      (fun s r => r.listener.call (emit depth) event s) x.state = some s₁ ∧
      finish depth { x with script := next (x.state.bus.count event.kind), state := s₁ } =
        some s := by
    obtain ⟨s₂, hemission, houter⟩ := Option.bind_eq_some_iff.1 h
    obtain ⟨s₁, hcalls, hnext⟩ := Option.bind_eq_some_iff.1 hemission
    refine ⟨s₁, hcalls, Option.bind_eq_some_iff.2 ⟨s₂, ?_, houter⟩⟩
    rw [Bus.count, Bus.listenersOf, List.length_map]
    exact hnext
  have hemit : emit (depth + 1) event x.state = some (s₁, x.state.bus.count event.kind) := by
    rw [emit, Bus.listenersOf, List.foldlM_map, hcalls]
    rfl
  rw [finish, hscript, Script.perform, hemit]
  exact finish_succ hrest

theorem finish_call {e : Emission σ} {r : Registration σ} {waiting : List (Registration σ)}
    {outer : List (Emission σ)} (hscript : x.script = .done) (hemissions : x.emissions = e :: outer)
    (hwaiting : e.waiting = r :: waiting) :
    (x.call e r waiting outer).finish depth = x.finish depth := by
  have hcall : e.finish depth x.state = (r.listener.call (emit depth) e.event x.state).bind
      (Emission.finish depth · { e with current := some r, waiting }) := by
    rw [Emission.finish, hwaiting, List.foldlM_cons]
    exact Option.bind_assoc ..
  have hx : x.finish depth =
      (e.finish depth x.state).bind (outer.foldlM (Emission.finish depth) ·) := by
    rw [finish, hscript, hemissions]
    rfl
  rw [hx, hcall, Registration.call_eq, Option.bind_assoc]
  rfl

/-- One step takes away nothing of what is still to be done. -/
theorem finish_go (h : x.go.finish depth = some s) : x.finish (depth + 1) = some s := by
  obtain ⟨state, script, emissions, emitted, log⟩ := x
  cases script with
  | emit event next => exact finish_startEmission rfl h
  | done =>
    refine finish_succ (h ▸ Eq.symm ?_)
    cases emissions with
    | nil => rfl
    | cons e outer =>
      obtain ⟨number, event, current, waiting, listeners, next⟩ := e
      cases current with
      | some r => rfl
      | none =>
        cases waiting with
        | nil => rfl
        | cons r waiting => exact finish_call rfl rfl rfl
  | _ => exact finish_succ h

/-- If the steps come to an end, what was to be done has a result at some depth. -/
theorem finish_of_isIdle {n : Nat} (h : (go^[n] x).IsIdle) :
    x.finish n = some (go^[n] x).state := by
  induction n generalizing x with
  | zero =>
    obtain ⟨hscript, hemissions⟩ := h
    rw [Function.iterate_zero_apply] at hscript hemissions
    rw [finish, hscript, hemissions]
    rfl
  | succ n ih => exact finish_go (ih h)

/-! ### From a result to the steps -/

/-- Steps lead from one to the other. -/
def Leads (x y : Execution σ) : Prop := ∃ n, go^[n] x = y

theorem Leads.refl (x : Execution σ) : x.Leads x := ⟨0, rfl⟩

theorem Leads.of_go (h : x.go.Leads y) : x.Leads y := by
  obtain ⟨n, hn⟩ := h
  exact ⟨n + 1, hn⟩

theorem Leads.trans {z : Execution σ} (h : x.Leads y) (h' : y.Leads z) : x.Leads z := by
  obtain ⟨n, rfl⟩ := h
  obtain ⟨m, rfl⟩ := h'
  exact ⟨m + n, Function.iterate_add_apply ..⟩

/-- Steps lead to the end of what is performed, in a state and with some emissions under way. -/
def Performs (x : Execution σ) (t : State σ) (emissions : List (Emission σ)) : Prop :=
  ∃ y, x.Leads y ∧ y.script = .done ∧ y.state = t ∧ y.emissions = emissions

theorem Performs.of_leads {emissions : List (Emission σ)} (hleads : x.Leads y)
    (h : y.Performs t emissions) : x.Performs t emissions := by
  obtain ⟨z, hleads', hz⟩ := h
  exact ⟨z, hleads.trans hleads', hz⟩

theorem Performs.of_go {emissions : List (Emission σ)} (h : x.go.Performs t emissions) :
    x.Performs t emissions :=
  h.of_leads (Leads.of_go (.refl _))

/-- Where an event is emitted with a result, steps lead behind the emission, with the same result,
and the emission is seen to end. -/
def Emits (emission : Event → State σ → Option (State σ × Nat)) : Prop :=
  ∀ (x : Execution σ) event next t heard, x.script = .emit event next →
    emission event x.state = some (t, heard) → ∃ y, x.Leads y ∧ y.script = next heard ∧
      y.state = t ∧ y.emissions = x.emissions ∧ .ended x.emitted heard ∈ y.log

variable {emission : Event → State σ → Option (State σ × Nat)}

/-- What a script does at once, the steps do too. -/
theorem Emits.performs (h : Emits emission) {script : Script σ} (hscript : x.script = script)
    (hperform : script.perform emission x.state = some t) : x.Performs t x.emissions := by
  induction script generalizing x with
  | done => exact ⟨x, .refl x, hscript, Option.some.inj hperform, rfl⟩
  | emit event next ih =>
    obtain ⟨⟨s, heard⟩, hemission, hrest⟩ := Option.bind_eq_some_iff.1 hperform
    obtain ⟨y, hleads, hnext, rfl, hemissions, -⟩ := h x event next s heard hscript hemission
    exact .of_leads hleads (hemissions ▸ ih heard hnext hrest)
  | act change next ih =>
    obtain ⟨state, _, emissions, emitted, log⟩ := x
    subst hscript
    exact .of_go (ih _ rfl hperform)
  | on kind run next _ ih =>
    obtain ⟨state, _, emissions, emitted, log⟩ := x
    subst hscript
    exact .of_go (ih _ rfl hperform)
  | subscribe kind next ih =>
    obtain ⟨state, _, emissions, emitted, log⟩ := x
    subst hscript
    exact .of_go (ih _ _ rfl hperform)
  | off id next ih =>
    obtain ⟨state, _, emissions, emitted, log⟩ := x
    subst hscript
    exact .of_go (ih _ rfl hperform)
  | count kind next ih =>
    obtain ⟨state, _, emissions, emitted, log⟩ := x
    subst hscript
    exact .of_go (ih _ rfl hperform)

theorem go_of_done {e : Emission σ} {outer : List (Emission σ)} (hscript : x.script = .done)
    (hemissions : x.emissions = e :: outer) : x.go = x.goOn e outer := by
  rw [go, hscript]
  simp only [hemissions]

/-- What the listeners of an emission do at once, the steps do too, and then the emission ends. The
induction is on the listeners that have yet to be called. -/
theorem Emits.calls (h : Emits emission) {e : Emission σ} {outer : List (Emission σ)}
    (hscript : x.script = .done) (hemissions : x.emissions = e :: outer)
    (hcurrent : e.current = none)
    (hcalls : e.waiting.foldlM (fun s r => r.listener.call emission e.event s) x.state = some t) :
    ∃ y, x.Leads y ∧ y.script = e.next e.heard ∧ y.state = t ∧ y.emissions = outer ∧
      .ended e.number e.heard ∈ y.log := by
  induction hwaiting : e.waiting generalizing x e with
  | nil =>
    have hgo : x.go = x.endEmission e outer := by
      rw [go_of_done hscript hemissions, goOn, hcurrent, hwaiting]
    rw [hwaiting] at hcalls
    refine ⟨x.endEmission e outer, ⟨1, hgo⟩, rfl, Option.some.inj hcalls, rfl, ?_⟩
    exact List.mem_append_right _ List.mem_cons_self
  | cons r waiting ih =>
    have hgo : x.go = x.call e r waiting outer := by
      rw [go_of_done hscript hemissions, goOn, hcurrent, hwaiting]
    rw [hwaiting, List.foldlM_cons] at hcalls
    obtain ⟨s, hcall, hrest⟩ := Option.bind_eq_some_iff.1 hcalls
    rw [Registration.call_eq] at hcall
    obtain ⟨y, hleads, hdone, rfl, hunder⟩ := h.performs (x := x.call e r waiting outer) rfl hcall
    have hback : y.go = y.comeBack { e with current := some r, waiting } r outer :=
      go_of_done hdone hunder
    obtain ⟨z, hleads', hz⟩ := ih (x := y.go) (e := { e with current := none, waiting })
      (hback ▸ hdone) (hback ▸ rfl) rfl (hback ▸ hrest) rfl
    exact ⟨z, .of_go (hgo ▸ hleads.trans (.of_go hleads')), hz⟩

/-- An emission at any depth does at once what the steps do. -/
theorem emits_emit (depth : Nat) : Emits (σ := σ) (emit depth) := by
  induction depth with
  | zero => exact fun _ _ _ _ _ _ h => absurd h (Option.some_ne_none _ ·.symm)
  | succ depth ih =>
    intro x event next t heard hscript hemit
    have hgo : x.go = x.startEmission event next := by
      rw [go, hscript]
    rw [emit, Bus.listenersOf, List.foldlM_map, List.length_map] at hemit
    obtain ⟨s, hcalls, hresult⟩ := Option.bind_eq_some_iff.1 hemit
    obtain ⟨rfl, rfl⟩ := Prod.mk.inj (Option.some.inj hresult)
    obtain ⟨y, hleads, hy⟩ := ih.calls (x := x.startEmission event next) rfl rfl rfl hcalls
    exact ⟨y, .of_go (hgo ▸ hleads), hy⟩

end Execution

end SignIn.Event
