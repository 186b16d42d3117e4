import SignIn.Event

/-!
# The event bus

Events are delivered at once: emitting one calls every listener of its kind, in the order in which
they were registered, and returns how many there were. The count matters to the one who emits,
because a failure that nobody listens to is logged instead.

## Listeners that use the bus

A listener may itself register and remove listeners and emit events. So a listener is not a
function on events but a *script*, a tree of the operations that it performs, each followed by what
it does with the result. An emission works on the listeners that were registered when it started:
one that is added meanwhile is not called, and one that is removed meanwhile still is.

Scripts have a memory in common with each other and with those outside of the bus. It is how the
outside learns what a listener saw.

A script that emits may call itself. `Bus.emit` is told how deep emissions may be nested, and has no
result if that is not deep enough; any greater depth gives the same result.

## Mailboxes

A subscription is a listener that puts events into a mailbox, where they wait until they are
received. It stays registered, and counts, when the receiver is dropped.

## Main definitions

* `Event.Script`, `Event.Listener`, `Event.Bus`
* `Event.Bus.on`, `Event.Bus.off`, `Event.Bus.subscribe`, `Event.Bus.count`
* `Event.Bus.receive`, `Event.Bus.drop` — the receiving end of a mailbox
* `Event.emit` — delivers an event
-/

namespace SignIn.Event

/-- Names a registration. Every bus counts its own registrations from 0, with 64 bits. -/
structure ListenerId where
  number : UInt64
  deriving DecidableEq, Repr

/-- What a listener does. -/
inductive Script (σ : Type) where
  /-- Nothing more. -/
  | done
  /-- Changes the memory and goes on with what it is then. -/
  | act (change : σ → σ) (next : σ → Script σ)
  /-- Registers a listener. -/
  | on (kind : Kind) (listener : Event → Script σ) (next : ListenerId → Script σ)
  /-- Registers a mailbox. -/
  | subscribe (kind : Kind) (next : ListenerId → Nat → Script σ)
  /-- Removes a listener and goes on with whether it was there. -/
  | off (id : ListenerId) (next : Bool → Script σ)
  /-- Counts the listeners of a kind. -/
  | count (kind : Kind) (next : Nat → Script σ)
  /-- Emits an event and goes on with how many listeners it had. -/
  | emit (event : Event) (next : Nat → Script σ)

/-- What is called when an event is emitted. -/
inductive Listener (σ : Type) where
  | script (run : Event → Script σ)
  | mailbox (index : Nat)

/-- An entry of the listener table. -/
structure Registration (σ : Type) where
  id : ListenerId
  kind : Kind
  listener : Listener σ

/-- The events that a subscriber has not received yet. -/
structure Mailbox where
  queue : List Event
  /-- Whether the receiver is still there. -/
  isOpen : Bool
  deriving DecidableEq, Repr

/-- A listener table. -/
structure Bus (σ : Type) where
  /-- The number of the next registration. -/
  nextId : UInt64
  /-- The listeners in the order of their registration. -/
  registrations : List (Registration σ)
  /-- The mailboxes of all subscriptions so far. -/
  mailboxes : List Mailbox

/-- What comes out of a mailbox. -/
inductive Received where
  | event (event : Event)
  /-- Nothing is there yet. -/
  | empty
  /-- Nothing is there, and nothing will come. -/
  | disconnected
  /-- There is no such receiver, or it was dropped. -/
  | gone
  deriving DecidableEq, Repr

namespace Bus

variable {σ : Type}

/-- A bus without listeners. -/
def empty : Bus σ := ⟨0, [], []⟩

instance : Inhabited (Bus σ) := ⟨empty⟩

/-- Registers a listener behind all others. -/
def register (b : Bus σ) (kind : Kind) (listener : Listener σ) : ListenerId × Bus σ :=
  (⟨b.nextId⟩,
    { b with
      nextId := b.nextId + 1
      registrations := b.registrations ++ [⟨⟨b.nextId⟩, kind, listener⟩] })

/-- Registers a script. -/
def on (b : Bus σ) (kind : Kind) (run : Event → Script σ) : ListenerId × Bus σ :=
  b.register kind (.script run)

/-- Registers a new mailbox; the result names the registration and the mailbox. -/
def subscribe (b : Bus σ) (kind : Kind) : (ListenerId × Nat) × Bus σ :=
  let index := b.mailboxes.length
  let b : Bus σ := { b with mailboxes := b.mailboxes ++ [⟨[], true⟩] }
  let (id, b) := b.register kind (.mailbox index)
  ((id, index), b)

/-- Removes a registration; the result tells whether it was there. -/
def off (b : Bus σ) (id : ListenerId) : Bool × Bus σ :=
  (b.registrations.any (·.id = id),
    { b with registrations := b.registrations.filter (·.id ≠ id) })

/-- The listeners of a kind, in the order of their registration. -/
def listenersOf (b : Bus σ) (kind : Kind) : List (Listener σ) :=
  (b.registrations.filter (·.kind = kind)).map (·.listener)

/-- How many listeners of a kind there are. -/
def count (b : Bus σ) (kind : Kind) : Nat := (b.listenersOf kind).length

/-- What a bus shows of itself: the number of its listeners. -/
def describe (b : Bus σ) : String :=
  "EventBus \x7b listeners: " ++ toString b.registrations.length ++ " \x7d"

/-- Puts an event into a mailbox, unless its receiver was dropped. -/
def deliver (b : Bus σ) (index : Nat) (event : Event) : Bus σ :=
  { b with
    mailboxes := b.mailboxes.modify index fun m =>
      if m.isOpen then { m with queue := m.queue ++ [event] } else m }

/-- Whether events can still come into a mailbox. -/
def isConnected (b : Bus σ) (index : Nat) : Bool :=
  b.registrations.any fun r =>
    match r.listener with
    | .mailbox i => i == index
    | .script _ => false

/-- Takes the next event out of a mailbox. -/
def receive (b : Bus σ) (index : Nat) : Received × Bus σ :=
  match b.mailboxes[index]? with
  | some ⟨event :: queue, true⟩ =>
    (.event event, { b with mailboxes := b.mailboxes.set index ⟨queue, true⟩ })
  | some ⟨[], true⟩ => (if b.isConnected index then .empty else .disconnected, b)
  | _ => (.gone, b)

/-- Drops the receiver of a mailbox. -/
def drop (b : Bus σ) (index : Nat) : Bus σ :=
  { b with mailboxes := b.mailboxes.modify index fun _ => ⟨[], false⟩ }

end Bus

/-! ### Emitting -/

/-- A bus together with the memory of its listeners. -/
structure State (σ : Type) where
  bus : Bus σ
  memory : σ

variable {σ : Type}

/-- Performs a script, given how to emit an event. -/
def Script.perform (emit : Event → State σ → Option (State σ × Nat)) :
    Script σ → State σ → Option (State σ)
  | .done, s => some s
  | .act change next, s =>
    let memory := change s.memory
    (next memory).perform emit { s with memory }
  | .on kind listener next, s =>
    let (id, bus) := s.bus.on kind listener
    (next id).perform emit { s with bus }
  | .subscribe kind next, s =>
    let ((id, index), bus) := s.bus.subscribe kind
    (next id index).perform emit { s with bus }
  | .off id next, s =>
    let (found, bus) := s.bus.off id
    (next found).perform emit { s with bus }
  | .count kind next, s => (next (s.bus.count kind)).perform emit s
  | .emit event next, s => do
    let (s, heard) ← emit event s
    (next heard).perform emit s

/-- Calls a listener, given how to emit an event. -/
def Listener.call (emit : Event → State σ → Option (State σ × Nat)) (event : Event) (s : State σ) :
    Listener σ → Option (State σ)
  | .script run => (run event).perform emit s
  | .mailbox index => some { s with bus := s.bus.deliver index event }

/-- Delivers an event to the listeners of its kind that are registered now; the result tells how
many there were. Emissions may be nested up to `depth`. -/
def emit : (depth : Nat) → Event → State σ → Option (State σ × Nat)
  | 0, _, _ => none
  | depth + 1, event, s => do
    let listeners := s.bus.listenersOf event.kind
    let s ← listeners.foldlM (fun s listener => listener.call (emit depth) event s) s
    return (s, listeners.length)

end SignIn.Event
