import SignIn.Proofs.Event.Table

/-!
# Several buses

What is done to one bus does not change another one, but listeners can use them all: one that is
called by this bus may emit an event on another, whose listener comes back and removes something
here. So while a bus is in the middle of an emission, a script can be performed there that none of
its own listeners brought along.

The handle of a listener is a number, and every bus counts from 0. A handle does not tell which bus
it came from. What a removal takes away was always registered at this bus, through one copy of its
handle or another; but with the handle of a listener of another bus it takes away the one that came
to this bus at the same turn, if it is still there.

## Main definitions

* `Event.Script.andThen` — two scripts, one behind the other
* `Event.Execution.interrupt` — a listener of another bus uses this one
* `Event.Buses.after` — several buses, after all that happened to them
* `Event.Buses.Issued` — what was registered at a bus, and when

## Main results

* `Event.Buses.act_cases` — all that can happen to a bus in one step
* `Event.Buses.kept_after`, `Event.Buses.exists_issue` — what this comes to in a run
* `Event.Buses.off_goes_by_number` — what a removal takes away
* `Event.Buses.off_takes_foreign_id` — and that it need not be what was meant
-/

namespace SignIn.Event

variable {σ : Type}

/-! ### What is performed in between -/

/-- Performs a script, and then another one. -/
def Script.andThen : Script σ → Script σ → Script σ
  | .done, rest => rest
  | .act change next, rest => .act change fun memory => (next memory).andThen rest
  | .on kind run next, rest => .on kind run fun id => (next id).andThen rest
  | .subscribe kind next, rest => .subscribe kind fun id index => (next id index).andThen rest
  | .off id next, rest => .off id fun found => (next found).andThen rest
  | .count kind next, rest => .count kind fun answer => (next answer).andThen rest
  | .emit event next, rest => .emit event fun heard => (next heard).andThen rest

/-- A listener of another bus performs a script here, in the middle of what is performed. -/
def Execution.interrupt (x : Execution σ) (script : Script σ) : Execution σ :=
  { x with script := script.andThen x.script }

/-! ### Buses -/

/-- Buses in use, and handles to them. -/
abbrev Buses (σ : Type) := Shared (Execution σ)

/-- What can happen where several buses are in use. -/
inductive Act (σ : Type) where
  /-- A new bus, with a handle of its own. -/
  | create (memory : σ)
  /-- A copy of a handle. -/
  | clone (handle : Nat)
  | move (handle : Nat) (move : Move σ)
  | interrupt (handle : Nat) (script : Script σ)

namespace Buses

/-- Several buses after something happened. -/
def act (s : Buses σ) : Act σ → Buses σ
  | .create memory => s.create (.start memory)
  | .clone handle => s.clone handle
  | .move handle m => s.modify handle (·.move m)
  | .interrupt handle script => s.modify handle (·.interrupt script)

/-- All buses after all that happened. -/
def after (acts : List (Act σ)) : Buses σ := acts.foldl act ⟨[], []⟩

theorem after_concat (acts : List (Act σ)) (a : Act σ) :
    after (acts ++ [a]) = act (after acts) a := by
  rw [after, List.foldl_append]
  rfl

/-- Handles stay what they are. -/
theorem handles_act {s : Buses σ} {handle place : Nat} (h : s.handles[handle]? = some place)
    (a : Act σ) : (act s a).handles[handle]? = some place := by
  have happend : ∀ more : List Nat, (s.handles ++ more)[handle]? = some place := fun more =>
    (List.getElem?_append_left (List.getElem?_eq_some_iff.1 h).1).trans h
  cases a with
  | create memory => exact happend _
  | clone handle => exact happend _
  | move handle m =>
    rw [act, Shared.modify]
    split <;> exact h
  | interrupt handle script =>
    rw [act, Shared.modify]
    split <;> exact h

/-- All that can happen to a bus in one step: it is new, something happens to it through one of its
handles, or a listener of another bus uses it. -/
theorem act_cases {s : Buses σ} {a : Act σ} {place : Nat} {x' : Execution σ}
    (h : (act s a).values[place]? = some x') :
    (∃ memory, x' = .start memory) ∨
      ∃ x, s.values[place]? = some x ∧
        (x' = x ∨
          (∃ handle m, a = .move handle m ∧ s.handles[handle]? = some place ∧ x' = x.move m) ∨
          ∃ script, x' = x.interrupt script) := by
  cases a with
  | create memory =>
    rw [act, Shared.create, List.getElem?_append] at h
    split at h
    · exact .inr ⟨x', h, .inl rfl⟩
    · have hnew : x' ∈ [Execution.start memory] := List.mem_of_getElem? h
      exact .inl ⟨memory, List.mem_singleton.1 hnew⟩
  | clone handle => exact .inr ⟨x', h, .inl rfl⟩
  | move handle m =>
    obtain ⟨x, hx, hcase⟩ := Shared.of_values_modify h
    exact .inr ⟨x, hx, hcase.imp_right fun ⟨hhandle, hmove⟩ => .inl ⟨handle, m, rfl, hhandle, hmove⟩⟩
  | interrupt handle script =>
    obtain ⟨x, hx, hcase⟩ := Shared.of_values_modify h
    exact .inr ⟨x, hx, hcase.imp_right fun ⟨_, hinterrupt⟩ => .inr ⟨script, hinterrupt⟩⟩

end Buses

/-! ### What was registered -/

namespace Execution

/-- The next step registers something, and its number is returned to who asked for it. -/
def Issues (x : Execution σ) (r : Registration σ) : Prop :=
  (∃ run next, x.script = .on r.kind run next ∧ r.listener = .script run ∧
    x.go.script = next r.id) ∨
  ∃ index next, x.script = .subscribe r.kind next ∧ r.listener = .mailbox index ∧
    x.go.script = next r.id index

theorem registrationsOf_concat_of_none {log : List (Deed σ)} {deed : Deed σ}
    (h : deed.registration? = none) : registrationsOf (log ++ [deed]) = registrationsOf log := by
  rw [registrationsOf_concat, h]
  exact List.append_nil _

theorem registrationsOf_goOn (x : Execution σ) (e : Emission σ) (outer : List (Emission σ)) :
    registrationsOf (x.goOn e outer).log = registrationsOf x.log := by
  rw [goOn]
  split <;> exact registrationsOf_concat_of_none rfl

/-- What was registered before is all there is, unless the next step registers something. -/
theorem registrationsOf_move (x : Execution σ) (m : Move σ) :
    registrationsOf (x.move m).log = registrationsOf x.log ∨
      ∃ r, m = .go ∧ x.Issues r ∧ registrationsOf (x.move m).log = registrationsOf x.log ++ [r] := by
  cases m with
  | ask script =>
    left
    rw [move, ask]
    split <;> rfl
  | receive mailbox => exact .inl (registrationsOf_concat_of_none rfl)
  | drop mailbox => exact .inl (registrationsOf_concat_of_none rfl)
  | go =>
    obtain ⟨state, script, emissions, emitted, log⟩ := x
    cases script with
    | done =>
      cases emissions with
      | nil => exact .inl rfl
      | cons e outer => exact .inl (registrationsOf_goOn _ e outer)
    | act change next => exact .inl rfl
    | on kind run next =>
      exact .inr ⟨_, rfl, .inl ⟨run, next, rfl, rfl, rfl⟩, registrationsOf_concat ..⟩
    | subscribe kind next =>
      exact .inr ⟨_, rfl, .inr ⟨_, next, rfl, rfl, rfl⟩, registrationsOf_concat ..⟩
    | off id next => exact .inl (registrationsOf_concat_of_none rfl)
    | count kind next => exact .inl (registrationsOf_concat_of_none rfl)
    | emit event next => exact .inl (registrationsOf_concat_of_none rfl)

/-- The next step of a removal. -/
theorem go_of_off {x : Execution σ} {id : ListenerId} {next : Bool → Script σ}
    (h : x.script = .off id next) :
    x.go = { x with
      state := { x.state with bus := (x.state.bus.off id).2 }
      script := next (x.state.bus.off id).1
      log := x.log ++ [.removed id (x.state.bus.off id).1] } := by
  rw [go, h]

end Execution

/-! ### Removals -/

theorem Bus.off_found_iff (b : Bus σ) (id : ListenerId) :
    (b.off id).1 = true ↔ ∃ r ∈ b.registrations, r.id = id := by
  rw [Bus.off, List.any_eq_true]
  simp

theorem Bus.off_of_not_found {b : Bus σ} {id : ListenerId} (h : (b.off id).1 = false) :
    (b.off id).2 = b := by
  have hothers : ∀ r ∈ b.registrations, decide (r.id ≠ id) = true := fun r hr =>
    decide_eq_true fun hid => Bool.eq_false_iff.1 h ((b.off_found_iff id).2 ⟨r, hr, hid⟩)
  rw [Bus.off, List.filter_eq_self.2 hothers]

section Numbers

variable {log : List (Deed σ)} {r : Registration σ} {i : Nat}

/-- The number of a registration is its turn. -/
theorem Truthful.id_of_getElem? (h : Truthful log) (hr : (registrationsOf log)[i]? = some r) :
    r.id = ⟨.ofNat i⟩ := by
  have hi : i < (registrationsOf log).length := (List.getElem?_eq_some_iff.1 hr).1
  have hnumber : ((registrationsOf log).map (·.id.number))[i]? = some r.id.number := by
    rw [List.getElem?_map, hr, Option.map_some]
  rw [h.numbers, List.getElem?_map, List.getElem?_range hi, Option.map_some] at hnumber
  exact congrArg ListenerId.mk (Option.some.inj hnumber).symm

/-- As long as there are enough numbers, the turn of a registration is its number. -/
theorem Truthful.getElem?_of_id (h : Truthful log) (hfew : (registrationsOf log).length < 2 ^ 64)
    (hr : r ∈ registrationsOf log) (hi : i < 2 ^ 64) (hid : r.id = ⟨.ofNat i⟩) :
    (registrationsOf log)[i]? = some r := by
  obtain ⟨j, hj⟩ := List.mem_iff_getElem?.1 hr
  have hlt : j < 2 ^ 64 := (List.getElem?_eq_some_iff.1 hj).1.trans hfew
  have hnumber : UInt64.ofNat j = .ofNat i :=
    congrArg ListenerId.number ((h.id_of_getElem? hj).symm.trans hid)
  obtain rfl : j = i := by
    have hnat := congrArg UInt64.toNat hnumber
    rwa [UInt64.toNat_ofNat_of_lt' hlt, UInt64.toNat_ofNat_of_lt' hi] at hnat
  exact hj

end Numbers

/-! ### All that happened to several buses -/

namespace Buses

/-- Whoever uses a bus, its table is what its log says. -/
theorem kept_after (acts : List (Act σ)) {place : Nat} {x : Execution σ}
    (hx : (after acts).values[place]? = some x) : x.Kept := by
  induction acts using List.reverseRecOn generalizing x with
  | nil => cases hx
  | append_singleton acts a ih =>
    rw [after_concat] at hx
    obtain ⟨memory, rfl⟩ | ⟨y, hy, rfl | ⟨handle, m, -, -, rfl⟩ | ⟨script, rfl⟩⟩ := act_cases hx
    · exact .start memory
    · exact ih hy
    · exact (ih hy).move m
    · exact ⟨(ih hy).table, (ih hy).nextId, (ih hy).truthful⟩

/-- A registration was made at the bus of a handle, through this handle or a copy of it. -/
def Issued (acts : List (Act σ)) (handle : Nat) (r : Registration σ) : Prop :=
  ∃ earlier copy y, earlier ++ [.move copy .go] <+: acts ∧
    (after acts).handles[copy]? = (after acts).handles[handle]? ∧
    (after earlier).get? copy = some y ∧ y.Issues r

/-- All that the log of a bus says to have been registered was registered at this bus. -/
theorem exists_issue (acts : List (Act σ)) {place : Nat} {x : Execution σ}
    (hx : (after acts).values[place]? = some x) {r : Registration σ}
    (hr : r ∈ registrationsOf x.log) :
    ∃ earlier copy y, earlier ++ [.move copy .go] <+: acts ∧
      (after acts).handles[copy]? = some place ∧ (after earlier).get? copy = some y ∧
      y.Issues r := by
  induction acts using List.reverseRecOn generalizing x with
  | nil => cases hx
  | append_singleton acts a ih =>
    rw [after_concat] at hx ⊢
    -- What was registered before this step is found by the induction hypothesis.
    have hearly : ∀ {y}, (after acts).values[place]? = some y → r ∈ registrationsOf y.log →
        ∃ earlier copy z, earlier ++ [.move copy .go] <+: acts ++ [a] ∧
          (act (after acts) a).handles[copy]? = some place ∧
          (after earlier).get? copy = some z ∧ z.Issues r := by
      intro y hy hr
      obtain ⟨earlier, copy, z, hearlier, hcopy, hz, hissues⟩ := ih hy hr
      exact ⟨earlier, copy, z, hearlier.trans (List.prefix_append ..),
        handles_act hcopy a, hz, hissues⟩
    obtain ⟨memory, rfl⟩ | ⟨y, hy, rfl | ⟨handle, m, rfl, hhandle, rfl⟩ | ⟨script, rfl⟩⟩ :=
      act_cases hx
    · cases hr
    · exact hearly hy hr
    · obtain hold | ⟨r', rfl, hissues, hnew⟩ := y.registrationsOf_move m
      · exact hearly hy (hold ▸ hr)
      · rw [hnew, List.mem_append, List.mem_singleton] at hr
        obtain hr | rfl := hr
        · exact hearly hy hr
        · exact ⟨acts, handle, y, List.prefix_rfl,
            handles_act hhandle _,
            Shared.get?_eq_some.2 ⟨place, hhandle, hy⟩, hissues⟩
    · exact hearly hy hr

theorem issued_of_mem {acts : List (Act σ)} {handle : Nat} {x : Execution σ}
    (hx : (after acts).get? handle = some x) {r : Registration σ}
    (hr : r ∈ registrationsOf x.log) : Issued acts handle r := by
  obtain ⟨place, hplace, hx⟩ := Shared.get?_eq_some.1 hx
  obtain ⟨earlier, copy, y, hearlier, hcopy, hy, hissues⟩ := exists_issue acts hx hr
  exact ⟨earlier, copy, y, hearlier, hcopy.trans hplace.symm, hy, hissues⟩

/-- What a removal takes away was registered at the bus where it is removed, through one copy of its
handle or another. The handle of a listener of another bus does not tell where it came from, so it
is taken for a handle of this bus: for that of the listener that came to this bus at the same turn.
If that one is not there, or not there any more, the answer is no and nothing changes. No other bus
changes in any case. -/
theorem off_goes_by_number (acts : List (Act σ)) (handle : Nat) (x : Execution σ) (id : ListenerId)
    (next : Bool → Script σ) (hx : (after acts).get? handle = some x)
    (hoff : x.script = .off id next) :
    let s := after acts
    let s' := after (acts ++ [.move handle .go])
    ∃ found bus,
      (∀ copy, s.handles[copy]? = s.handles[handle]? → s'.get? copy = some { x with
        state := { x.state with bus }
        script := next found
        log := x.log ++ [.removed id found] }) ∧
      (∀ other, s.handles[other]? ≠ s.handles[handle]? → s'.get? other = s.get? other) ∧
      (found = true ↔ ∃ r ∈ x.state.bus.registrations, r.id = id ∧ Issued acts handle r) ∧
      (found = false → bus = x.state.bus) ∧
      (∀ other q, s.handles[other]? ≠ s.handles[handle]? → Issued acts other q → q.id = id →
        (∀ r, Issued acts handle r → r.id = id → r ∉ x.state.bus.registrations) →
        found = false ∧ bus = x.state.bus) ∧
      ((registrationsOf x.log).length < 2 ^ 64 →
        (found = true → ∃ front r rest, x.state.bus.registrations = front ++ r :: rest ∧
          r.id = id ∧ bus.registrations = front ++ rest) ∧
        ∀ other y i q, s.handles[other]? ≠ s.handles[handle]? → s.get? other = some y →
          (registrationsOf y.log)[i]? = some q → q.id = id → i < 2 ^ 64 →
          (found = true ↔
            ∃ r ∈ x.state.bus.registrations, (registrationsOf x.log)[i]? = some r)) := by
  intro s s'
  obtain ⟨place, hplace, hvalue⟩ := Shared.get?_eq_some.1 hx
  have hkept : x.Kept := kept_after acts hvalue
  have hs' : s' = s.modify handle (·.go) := after_concat acts _
  have hregistered : ∀ r ∈ x.state.bus.registrations, r ∈ registrationsOf x.log := fun r hr =>
    (tableOf_sublist x.log).subset (hkept.table ▸ hr)
  have hfound := x.state.bus.off_found_iff id
  refine ⟨(x.state.bus.off id).1, (x.state.bus.off id).2, ?_, ?_, ?_, Bus.off_of_not_found, ?_, ?_⟩
  · intro copy hcopy
    have hsame : s.get? copy = some x := Shared.get?_eq_some.2 ⟨place, hcopy.trans hplace, hvalue⟩
    rw [hs', Shared.get?_modify, if_pos hcopy, hsame, Option.map_some, Execution.go_of_off hoff]
  · intro other hother
    rw [hs', Shared.get?_modify, if_neg hother]
  · rw [hfound]
    exact exists_congr fun r => and_congr_right fun hr =>
      (and_iff_left (issued_of_mem hx (hregistered r hr))).symm
  · intro other q _ _ _ hnone
    have hnot : (x.state.bus.off id).1 = false := Bool.eq_false_iff.2 fun htrue => by
      obtain ⟨r, hr, hid⟩ := hfound.1 htrue
      exact hnone r (issued_of_mem hx (hregistered r hr)) hid hr
    exact ⟨hnot, Bus.off_of_not_found hnot⟩
  · intro hfew
    have hgo : (x.go).Kept := hkept.move .go
    constructor
    · intro htrue
      rw [Execution.go_of_off hoff, htrue] at hgo
      obtain ⟨front, r, rest, htable, hid, hrest⟩ :=
        hgo.truthful.tableOf_found (hkept.truthful.unambiguous hfew)
      exact ⟨front, r, rest, hkept.table.trans htable, hid, hgo.table.trans hrest⟩
    · intro other y i q _ hy hq hid hi
      obtain ⟨_, -, hy⟩ := Shared.get?_eq_some.1 hy
      have hnumber : id = ⟨.ofNat i⟩ :=
        hid.symm.trans ((kept_after acts hy).truthful.id_of_getElem? hq)
      rw [hfound]
      refine exists_congr fun r => and_congr_right fun hr => ?_
      rw [hnumber]
      exact ⟨hkept.truthful.getElem?_of_id hfew (hregistered r hr) hi,
        hkept.truthful.id_of_getElem?⟩

/-- A bus with two listeners, one of them registered through a copy of its handle, and a bus with
one. In the middle of what is performed on that other bus, the handle of the second listener is to
be removed there. There was no second listener yet, so the answer is no. -/
theorem off_goes_by_number_second :
    let listen : Script Unit := .on .verified (fun _ => .done) fun _ => .done
    let acts : List (Act Unit) :=
      [.create (), .clone 0, .move 0 (.ask listen), .move 0 .go,
        .move 1 (.ask (.subscribe .gotError fun _ _ => .done)), .move 1 .go,
        .create (), .move 2 (.ask (listen.andThen (.count .verified fun _ => .done))), .move 2 .go,
        .interrupt 2 (.off ⟨1⟩ fun _ => .done)]
    let s := after acts
    let s' := after (acts ++ [.move 2 .go])
    ∃ y x x', s.get? 1 = some y ∧ (registrationsOf y.log).map (·.id.number) = [0, 1] ∧
      s.get? 2 = some x ∧ x.state.bus.registrations.map (·.id.number) = [0] ∧
      s'.get? 2 = some x' ∧ x'.log = x.log ++ [.removed ⟨1⟩ false] ∧ x'.state = x.state := by
  intro listen acts s s'
  obtain ⟨found, bus, hcopies, -, -, hnot, -, hnumbers⟩ :=
    off_goes_by_number acts 2 _ ⟨1⟩ _ rfl rfl
  have hturn := (hnumbers (by decide)).2 1 _ 1 _ (by decide) rfl rfl rfl (by decide)
  have hfound : found = false := Bool.eq_false_iff.2 fun htrue => by
    obtain ⟨r, -, hr⟩ := hturn.1 htrue
    cases hr
  obtain rfl := hnot hfound
  subst hfound
  exact ⟨_, _, _, rfl, by decide, rfl, by decide, hcopies 2 rfl, rfl, rfl⟩

/-- The first listeners of two buses have equal handles. With that of the one bus the listener of
the other one is removed, and nobody is left who would hear an event there. -/
theorem off_takes_foreign_id :
    let listen : Script Unit := .on .verified (fun _ => .done) fun _ => .done
    let acts : List (Act Unit) :=
      [.create (), .create (), .move 0 (.ask listen), .move 0 .go, .move 1 (.ask listen),
        .move 1 .go, .move 1 (.ask (.off ⟨0⟩ fun _ => .done))]
    let s := after acts
    let s' := after (acts ++ [.move 1 .go])
    s.handles[0]? ≠ s.handles[1]? ∧ (∃ q, Issued acts 0 q ∧ q.id = ⟨0⟩) ∧
      ∃ x x', s.get? 1 = some x ∧ s'.get? 1 = some x' ∧
        x'.log = x.log ++ [.removed ⟨0⟩ true] ∧
        x.state.bus.count .verified = 1 ∧ x'.state.bus.count .verified = 0 := by
  intro listen acts s s'
  refine ⟨by decide, ?_, _, _, rfl, rfl, rfl, by decide, by decide⟩
  exact ⟨⟨⟨0⟩, .verified, .script fun _ => .done⟩, ⟨acts.take 3, 0, _, ⟨acts.drop 4, rfl⟩, rfl, rfl,
    .inl ⟨_, _, rfl, rfl, rfl⟩⟩, rfl⟩

end Buses

end SignIn.Event
