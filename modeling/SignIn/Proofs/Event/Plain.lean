import Mathlib.Data.List.Basic
import SignIn.Event.Bus

/-!
# Listeners that leave the bus alone

A listener may do anything to the bus that calls it. Most do nothing to it: they change what they
remember, or put the event into a mailbox. If all listeners of a table are of that kind, the table
stays as it is, an emission always comes to its end, and what a sequence of events does is what the
listeners do one after the other.

## Main definitions

* `Event.Script.IsPlain`, `Event.Listener.IsPlain`, `Event.Bus.IsPlain` — nothing is done to the bus
* `Event.State.react` — what an event does
* `Event.Bus.calls` — which listener is called with what

## Main results

* `Event.emit_of_isPlain` — an emission comes to its end
* `Event.foldl_respond_calls` — events do what the calls do
* `Event.Bus.calls_at` — a listener is called with every event of its kind
-/

namespace SignIn.Event

variable {σ : Type}

/-! ### Plain listeners -/

/-- The script does nothing to the bus. -/
inductive Script.IsPlain : Script σ → Prop where
  | done : IsPlain .done
  | act {change : σ → σ} {next : σ → Script σ} (rest : ∀ memory, (next memory).IsPlain) :
    IsPlain (.act change next)

/-- What a plain script makes of the memory. -/
def Script.effect : Script σ → σ → σ
  | .act change next, memory => (next (change memory)).effect (change memory)
  | _, memory => memory

/-- The listener does nothing to the bus but fill a mailbox. -/
inductive Listener.IsPlain : Listener σ → Prop where
  | script {run : Event → Script σ} (plain : ∀ event, (run event).IsPlain) : IsPlain (.script run)
  | mailbox (index : Nat) : IsPlain (.mailbox index)

/-- What a plain listener does with an event. -/
def Listener.react (event : Event) (s : State σ) : Listener σ → State σ
  | .script run => { s with memory := (run event).effect s.memory }
  | .mailbox index => { s with bus := s.bus.deliver index event }

/-- No listener of the table does anything to it. -/
def Bus.IsPlain (b : Bus σ) : Prop := ∀ r ∈ b.registrations, r.listener.IsPlain

/-- What an event does if all listeners are plain. -/
def State.react (s : State σ) (event : Event) : State σ :=
  (s.bus.listenersOf event.kind).foldl (fun s listener => listener.react event s) s

section Emit

variable {emission : Event → State σ → Option (State σ × Nat)} {event : Event}

theorem Script.perform_of_isPlain {script : Script σ} (h : script.IsPlain) (s : State σ) :
    script.perform emission s = some { s with memory := script.effect s.memory } := by
  induction h generalizing s with
  | done => rfl
  | act rest ih =>
    rw [perform]
    exact ih _ _

theorem Listener.call_of_isPlain {listener : Listener σ} (h : listener.IsPlain) (s : State σ) :
    listener.call emission event s = some (listener.react event s) := by
  cases h with
  | script plain => exact Script.perform_of_isPlain (plain event) s
  | mailbox index => rfl

/-- A plain listener leaves the table as it is. -/
theorem Listener.registrations_react (event : Event) (s : State σ) (listener : Listener σ) :
    (listener.react event s).bus.registrations = s.bus.registrations := by
  cases listener <;> rfl

theorem foldlM_call {listeners : List (Listener σ)} (h : ∀ l ∈ listeners, l.IsPlain)
    (s : State σ) :
    listeners.foldlM (fun s listener => listener.call emission event s) s =
      some (listeners.foldl (fun s listener => listener.react event s) s) := by
  induction listeners generalizing s with
  | nil => rfl
  | cons l ls ih =>
    rw [List.foldlM_cons, Listener.call_of_isPlain (h l List.mem_cons_self)]
    exact ih (fun l hl => h l (List.mem_cons_of_mem _ hl)) _

theorem foldl_react_registrations (event : Event) (listeners : List (Listener σ)) (s : State σ) :
    (listeners.foldl (fun s listener => listener.react event s) s).bus.registrations =
      s.bus.registrations := by
  induction listeners generalizing s with
  | nil => rfl
  | cons l ls ih => exact (ih _).trans (l.registrations_react event s)

/-- An event leaves the table as it is. -/
theorem State.registrations_react (s : State σ) (event : Event) :
    (s.react event).bus.registrations = s.bus.registrations :=
  foldl_react_registrations event _ s

/-- An emission to plain listeners comes to its end, at any depth. -/
theorem emit_of_isPlain {s : State σ} (h : s.bus.IsPlain) (depth : Nat) :
    emit (depth + 1) event s = some (s.react event, s.bus.count event.kind) := by
  have hlisteners : ∀ l ∈ s.bus.listenersOf event.kind, l.IsPlain := by
    intro l hl
    obtain ⟨r, hr, rfl⟩ := List.mem_map.1 hl
    exact h r (List.mem_filter.1 hr).1
  rw [emit, foldlM_call hlisteners]
  rfl

end Emit

/-! ### Which listener is called with what -/

/-- The places of the listeners of a kind, in the order of their registration. -/
def Bus.places (b : Bus σ) (kind : Kind) : List Nat :=
  (b.registrations.zipIdx.filter (·.1.kind = kind)).map Prod.snd

/-- The calls that events lead to: every event comes to the listeners of its kind. -/
def Bus.calls (b : Bus σ) (events : List Event) : List (Nat × Event) :=
  events.flatMap fun event => (b.places event.kind).map (·, event)

/-- What the listener at a place does with an event. -/
def Bus.respond (b : Bus σ) (s : State σ) (call : Nat × Event) : State σ :=
  match b.registrations[call.1]? with
  | some r => r.listener.react call.2 s
  | none => s

variable {b : Bus σ}

theorem foldl_respond {table : List (Registration σ × Nat)}
    (htable : ∀ r ∈ table, b.registrations[r.2]? = some r.1) (event : Event) (s : State σ) :
    (((table.filter (·.1.kind = event.kind)).map Prod.snd).map (·, event)).foldl b.respond s =
      (((table.map Prod.fst).filter (·.kind = event.kind)).map (·.listener)).foldl
        (fun s listener => listener.react event s) s := by
  induction table generalizing s with
  | nil => rfl
  | cons r table ih =>
    have hrest : ∀ r ∈ table, b.registrations[r.2]? = some r.1 :=
      fun r hr => htable r (List.mem_cons_of_mem _ hr)
    by_cases hkind : r.1.kind = event.kind
    · have hrespond : b.respond s (r.2, event) = r.1.listener.react event s := by
        rw [Bus.respond, htable r List.mem_cons_self]
      simp only [List.map_cons, List.filter_cons, hkind, decide_true, if_true, List.foldl_cons,
        hrespond]
      exact ih hrest _
    · simp only [List.map_cons, List.filter_cons, hkind, decide_false, Bool.false_eq_true, if_false]
      exact ih hrest s

/-- What events do is what the listeners do that are called with them. -/
theorem foldl_respond_calls {s : State σ} (h : s.bus.registrations = b.registrations)
    (events : List Event) : (b.calls events).foldl b.respond s = events.foldl State.react s := by
  induction events generalizing s with
  | nil => rfl
  | cons event events ih =>
    have htable : ∀ r ∈ b.registrations.zipIdx, b.registrations[r.2]? = some r.1 :=
      fun r hr => List.mk_mem_zipIdx_iff_getElem?.1 hr
    have hevent : ((b.places event.kind).map (·, event)).foldl b.respond s = s.react event := by
      rw [Bus.places, foldl_respond htable, List.zipIdx_map_fst, ← h]
      rfl
    rw [Bus.calls, List.flatMap_cons, List.foldl_append, hevent, List.foldl_cons]
    exact ih ((s.registrations_react event).trans h)

theorem filter_zipIdx {α : Type} {l : List α} {k : Nat} {a : α} (h : l[k]? = some a) (n : Nat) :
    (l.zipIdx n).filter (·.2 = n + k) = [(a, n + k)] := by
  induction l generalizing n k with
  | nil => simp at h
  | cons x l ih =>
    rw [List.zipIdx_cons]
    cases k with
    | zero =>
      obtain rfl : x = a := by simpa using h
      have hrest : (l.zipIdx (n + 1)).filter (·.2 = n + 0) = [] := by
        rw [List.filter_eq_nil_iff]
        intro r hr
        have hle := List.le_snd_of_mem_zipIdx hr
        simp only [decide_eq_true_eq]
        omega
      rw [List.filter_cons_of_pos (by simp), hrest]
      rfl
    | succ k =>
      rw [List.getElem?_cons_succ] at h
      have hshift : n + (k + 1) = n + 1 + k := by omega
      rw [List.filter_cons_of_neg (by simp), hshift]
      exact ih h (n + 1)

theorem Bus.filter_places {i : Nat} {r : Registration σ} (h : b.registrations[i]? = some r)
    (kind : Kind) : (b.places kind).filter (· = i) = if kind = r.kind then [i] else [] := by
  have hplace := filter_zipIdx h 0
  rw [Nat.zero_add] at hplace
  have hswap : (b.registrations.zipIdx.filter (·.1.kind = kind)).filter (·.2 = i) =
      (b.registrations.zipIdx.filter (·.2 = i)).filter (·.1.kind = kind) := by
    rw [List.filter_filter, List.filter_filter]
    exact List.filter_congr fun r _ => Bool.and_comm _ _
  rw [places, List.filter_map]
  change ((b.registrations.zipIdx.filter (·.1.kind = kind)).filter (·.2 = i)).map Prod.snd = _
  rw [hswap, hplace]
  by_cases hkind : r.kind = kind
  · simp [hkind]
  · simp [hkind, Ne.symm hkind]

/-- A listener is called with every event of its kind, once and in order. -/
theorem Bus.calls_at {i : Nat} {r : Registration σ} (h : b.registrations[i]? = some r)
    (events : List Event) :
    ((b.calls events).filter (·.1 = i)).map Prod.snd = events.filter (·.kind = r.kind) := by
  induction events with
  | nil => rfl
  | cons event events ih =>
    have hevent : (((b.places event.kind).map (·, event)).filter (·.1 = i)).map Prod.snd =
        if event.kind = r.kind then [event] else [] := by
      rw [List.filter_map]
      change (((b.places event.kind).filter (· = i)).map _).map Prod.snd = _
      rw [filter_places h]
      split <;> rfl
    rw [calls, List.flatMap_cons, List.filter_append, List.map_append, hevent, List.filter_cons]
    change _ ++ ((b.calls events).filter (·.1 = i)).map Prod.snd = _
    rw [ih]
    by_cases hkind : event.kind = r.kind
    · simp [hkind]
    · simp [hkind]

end SignIn.Event
