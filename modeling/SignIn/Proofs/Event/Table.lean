import Mathlib.Algebra.GroupWithZero.Nat
import Mathlib.Data.List.Induction
import Mathlib.Data.List.Nodup
import Mathlib.Data.List.Range
import SignIn.Proofs.Event.Execution
import SignIn.Proofs.Log

/-!
# The table of listeners and its past

The table that a bus shows is what the registrations and removals so far have made of it, in the
order in which they happened. It makes no difference who asked for them, a client or a listener
in the middle of an emission, and through which handle.

Registrations are numbered, and the table is ordered by their numbers. With 64 bits there are enough
of them for all that is ever registered, so a number that was given away is not given away again,
although its registration may be gone. This is why a removal is answered truthfully, and only once
with yes.

## Main definitions

* `Event.tableOf` — the table that results from a log
* `Event.registrationsOf`, `Event.removalsOf` — what was registered, and how much was removed
* `Event.Truthful` — every answer in a log is right, judged by what was logged before it

## Main results

* `Event.Execution.move_spec` — all that can happen to a table in one step
* `Event.Execution.Kept.after` — what it comes to in a run
* `Event.Execution.exists_moment` — the log tells what the table was at any time
* `Event.Truthful.mem_tableOf_iff`, `Event.Truthful.count_add_removalsOf`
* `Event.table_of_history`
-/

namespace SignIn.Event

variable {σ : Type}

/-! ### What a log says about the table -/

/-- What becomes of a table. -/
def Deed.change (table : List (Registration σ)) : Deed σ → List (Registration σ)
  | .registered r => table ++ [r]
  | .removed id _ => table.filter (·.id ≠ id)
  | _ => table

/-- The table that results from a log. -/
def tableOf (log : List (Deed σ)) : List (Registration σ) := log.foldl Deed.change []

/-- What was registered, if something was. -/
def Deed.registration? : Deed σ → Option (Registration σ)
  | .registered r => some r
  | _ => none

/-- All that was registered, whether it is still in the table or not. -/
def registrationsOf (log : List (Deed σ)) : List (Registration σ) :=
  log.filterMap Deed.registration?

/-- A registration of a kind was removed. -/
def Deed.isRemovalOf (kind : Kind) (registrations : List (Registration σ)) : Deed σ → Bool
  | .removed id true => registrations.any fun r => r.id = id ∧ r.kind = kind
  | _ => false

/-- How many registrations of a kind were removed. -/
def removalsOf (kind : Kind) (log : List (Deed σ)) : Nat :=
  log.countP (Deed.isRemovalOf kind (registrationsOf log))

/-- What a deed says is right, for a table and the number of the next registration. -/
def Deed.IsTrueOf (table : List (Registration σ)) (nextId : UInt64) : Deed σ → Prop
  | .registered r => r.id = ⟨nextId⟩
  | .removed id found => found = table.any (·.id = id)
  | .counted kind answer => answer = table.countP (·.kind = kind)
  | _ => True

/-- Every deed of a log is right, judged by what was logged before it. -/
def Truthful (log : List (Deed σ)) : Prop :=
  ∀ before deed behind, log = before ++ deed :: behind →
    deed.IsTrueOf (tableOf before) (.ofNat (registrationsOf before).length)

section Log

variable {log : List (Deed σ)} {deed : Deed σ}

theorem tableOf_concat (log : List (Deed σ)) (deed : Deed σ) :
    tableOf (log ++ [deed]) = deed.change (tableOf log) := by
  rw [tableOf, List.foldl_append]
  rfl

theorem registrationsOf_concat (log : List (Deed σ)) (deed : Deed σ) :
    registrationsOf (log ++ [deed]) = registrationsOf log ++ deed.registration?.toList := by
  rw [registrationsOf, List.filterMap_append]
  cases deed <;> rfl

theorem registrationsOf_append (log more : List (Deed σ)) :
    registrationsOf (log ++ more) = registrationsOf log ++ registrationsOf more :=
  List.filterMap_append

theorem truthful_nil : Truthful ([] : List (Deed σ)) := by
  intro before deed behind h
  simp at h

theorem Truthful.of_append {more : List (Deed σ)} (h : Truthful (log ++ more)) : Truthful log :=
  fun before deed behind hlog => h before deed (behind ++ more) (by simp [hlog])

theorem truthful_concat : Truthful (log ++ [deed]) ↔
    Truthful log ∧ deed.IsTrueOf (tableOf log) (.ofNat (registrationsOf log).length) :=
  Log.forall_concat_iff

/-- What is in the table was registered, in the same order. -/
theorem tableOf_sublist (log : List (Deed σ)) : (tableOf log).Sublist (registrationsOf log) := by
  induction log using List.reverseRecOn with
  | nil => exact .slnil
  | append_singleton log deed ih =>
    rw [tableOf_concat, registrationsOf_concat]
    cases deed with
    | registered r => exact ih.append (.refl _)
    | removed id found => exact (List.filter_sublist.trans ih).trans (List.sublist_append_left ..)
    | _ => exact ih.trans (List.sublist_append_left ..)

/-! ### Numbers of registrations -/

/-- Registrations are numbered as they come. -/
theorem Truthful.numbers (h : Truthful log) : (registrationsOf log).map (·.id.number) =
    (List.range (registrationsOf log).length).map UInt64.ofNat := by
  induction log using List.reverseRecOn with
  | nil => rfl
  | append_singleton log deed ih =>
    obtain ⟨hlog, hdeed⟩ := truthful_concat.1 h
    rw [registrationsOf_concat]
    cases deed with
    | registered r =>
      have hid : r.id = ⟨.ofNat (registrationsOf log).length⟩ := hdeed
      simp [Deed.registration?, ih hlog, hid, List.range_succ]
    | _ => simpa [Deed.registration?] using ih hlog

/-- With 64 bits, a later registration has a greater number. -/
theorem Truthful.ascending (h : Truthful log) (hfew : (registrationsOf log).length < 2 ^ 64) :
    ((registrationsOf log).map (·.id.number)).Pairwise (· < ·) := by
  rw [h.numbers, List.pairwise_map]
  refine List.pairwise_lt_range.imp_of_mem fun {i j} hi hj hij => ?_
  rw [List.mem_range] at hi hj
  exact (UInt64.ofNat_lt_iff_lt (hi.trans hfew) (hj.trans hfew)).2 hij

/-- The number of the next registration is greater than all that were given away. -/
theorem Truthful.lt_nextId (h : Truthful log) (hfew : (registrationsOf log).length < 2 ^ 64) :
    ∀ r ∈ registrationsOf log, r.id.number < .ofNat (registrationsOf log).length := by
  intro r hr
  have hnumber : r.id.number ∈ (registrationsOf log).map (·.id.number) := List.mem_map_of_mem hr
  rw [h.numbers] at hnumber
  obtain ⟨i, hi, heq⟩ := List.mem_map.1 hnumber
  rw [List.mem_range] at hi
  rw [← heq]
  exact (UInt64.ofNat_lt_iff_lt (hi.trans hfew) hfew).2 hi

/-- No two registrations have the same number. -/
def Unambiguous (log : List (Deed σ)) : Prop := ((registrationsOf log).map (·.id)).Nodup

theorem Truthful.unambiguous (h : Truthful log) (hfew : (registrationsOf log).length < 2 ^ 64) :
    Unambiguous log := by
  have hnumbers := List.pairwise_map.1 (h.ascending hfew)
  refine List.pairwise_map.2 (hnumbers.imp fun hlt heq => ?_)
  rw [heq] at hlt
  exact UInt64.lt_irrefl _ hlt

theorem Unambiguous.of_append {more : List (Deed σ)} (h : Unambiguous (log ++ more)) :
    Unambiguous log := by
  rw [Unambiguous, registrationsOf_append, List.map_append] at h
  exact h.of_append_left

/-- The table without a registration is what comes before it and what comes behind it. -/
theorem filter_ne_of_nodup {front rest : List (Registration σ)} {r : Registration σ}
    (h : ((front ++ r :: rest).map (·.id)).Nodup) :
    (front ++ r :: rest).filter (·.id ≠ r.id) = front ++ rest := by
  rw [List.map_append, List.map_cons, List.nodup_middle, List.nodup_cons, ← List.map_append] at h
  have hothers : ∀ q ∈ front ++ rest, decide (q.id ≠ r.id) = true := fun q hq =>
    decide_eq_true fun heq => h.1 (List.mem_map.2 ⟨q, hq, heq⟩)
  rw [List.filter_append, List.filter_cons_of_neg (by simp), ← List.filter_append,
    List.filter_eq_self.2 hothers]

/-! ### Removals -/

theorem Truthful.found_iff {before behind : List (Deed σ)} {id : ListenerId} {found : Bool}
    (h : Truthful (before ++ .removed id found :: behind)) :
    found = true ↔ ∃ r ∈ tableOf before, r.id = id := by
  have hfound : found = (tableOf before).any (·.id = id) := h before _ behind rfl
  rw [hfound, List.any_eq_true]
  simp

/-- What was removed had been registered. -/
theorem Truthful.exists_of_removed (h : Truthful log) {id : ListenerId}
    (hremoved : .removed id true ∈ log) : ∃ r ∈ registrationsOf log, r.id = id := by
  obtain ⟨before, behind, rfl⟩ := List.append_of_mem hremoved
  obtain ⟨r, hr, hid⟩ := h.found_iff.1 rfl
  rw [registrationsOf_append]
  exact ⟨r, List.mem_append_left _ ((tableOf_sublist before).subset hr), hid⟩

/-- In the table is what was registered and was not removed. -/
theorem Truthful.mem_tableOf_iff (h : Truthful log) (hids : Unambiguous log)
    {r : Registration σ} :
    r ∈ tableOf log ↔ r ∈ registrationsOf log ∧ .removed r.id true ∉ log := by
  induction log using List.reverseRecOn with
  | nil => simp [tableOf, registrationsOf]
  | append_singleton log deed ih =>
    obtain ⟨hlog, hdeed⟩ := truthful_concat.1 h
    have hih := ih hlog hids.of_append
    rw [tableOf_concat, registrationsOf_concat]
    cases deed with
    | registered new =>
      -- What is registered only now cannot have been removed before.
      have hnew : .removed new.id true ∉ log := by
        intro hremoved
        obtain ⟨old, hold, hid⟩ := hlog.exists_of_removed hremoved
        rw [Unambiguous, registrationsOf_concat, List.map_append] at hids
        exact (List.nodup_append.1 hids).2.2 old.id (List.mem_map_of_mem hold) new.id
          List.mem_cons_self hid
      simp only [Deed.change, Deed.registration?, Option.toList_some, List.mem_append,
        List.mem_singleton, hih, reduceCtorEq, or_false]
      constructor
      · rintro (⟨hr, hnot⟩ | rfl)
        · exact ⟨.inl hr, hnot⟩
        · exact ⟨.inr rfl, hnew⟩
      · rintro ⟨hr | rfl, hnot⟩
        · exact .inl ⟨hr, hnot⟩
        · exact .inr rfl
    | removed id found =>
      have hfound := h.found_iff
      simp only [Deed.change, Deed.registration?, Option.toList_none, List.append_nil,
        List.mem_filter, decide_eq_true_eq, List.mem_append, List.mem_singleton, not_or,
        ← and_assoc, ← hih, Deed.removed.injEq]
      refine and_congr_right fun hr => not_congr ⟨fun hid => ⟨hid, ?_⟩, And.left⟩
      exact (hfound.2 ⟨r, hr, hid⟩).symm
    | _ => simpa [Deed.change, Deed.registration?] using hih

/-- What was registered is still in the table unless it was removed, whatever the numbers are. -/
theorem Truthful.mem_tableOf_or_removed (h : Truthful log) {r : Registration σ}
    (hr : r ∈ registrationsOf log) : r ∈ tableOf log ∨ .removed r.id true ∈ log := by
  induction log using List.reverseRecOn with
  | nil => cases hr
  | append_singleton log deed ih =>
    obtain ⟨hlog, hdeed⟩ := truthful_concat.1 h
    rw [registrationsOf_concat, List.mem_append] at hr
    rw [tableOf_concat, List.mem_append]
    cases deed with
    | registered new =>
      obtain hr | hr := hr
      · exact (ih hlog hr).imp (List.mem_append_left _) .inl
      · exact .inl (List.mem_append_right _ hr)
    | removed id found =>
      obtain htable | hremoved := ih hlog (by simpa [Deed.registration?] using hr)
      · by_cases hid : r.id = id
        · obtain rfl : found = true := h.found_iff.2 ⟨r, htable, hid⟩
          exact .inr (.inr (by simp [hid]))
        · exact .inl (List.mem_filter.2 ⟨htable, decide_eq_true hid⟩)
      · exact .inr (.inl hremoved)
    | _ => exact (ih hlog (by simpa [Deed.registration?] using hr)).imp_right .inl

/-- A removal that is answered with yes takes one registration away, and the others keep their
order. -/
theorem Truthful.tableOf_found {before behind : List (Deed σ)} {id : ListenerId}
    (h : Truthful (before ++ .removed id true :: behind)) (hids : Unambiguous before) :
    ∃ front r rest, tableOf before = front ++ r :: rest ∧ r.id = id ∧
      tableOf (before ++ [.removed id true]) = front ++ rest := by
  obtain ⟨r, hr, rfl⟩ := h.found_iff.1 rfl
  obtain ⟨front, rest, htable⟩ := List.append_of_mem hr
  have hnodup : ((tableOf before).map (·.id)).Nodup :=
    List.Nodup.sublist ((tableOf_sublist before).map _) hids
  refine ⟨front, r, rest, htable, rfl, ?_⟩
  rw [tableOf_concat, Deed.change, htable]
  exact filter_ne_of_nodup (htable ▸ hnodup)

/-- A removal that is answered with no changes nothing. -/
theorem Truthful.tableOf_not_found {before behind : List (Deed σ)} {id : ListenerId}
    (h : Truthful (before ++ .removed id false :: behind)) :
    tableOf (before ++ [.removed id false]) = tableOf before := by
  rw [tableOf_concat]
  refine List.filter_eq_self.2 fun r hr => decide_eq_true fun hid => ?_
  exact Bool.false_ne_true (h.found_iff.2 ⟨r, hr, hid⟩)

/-- The answer to a removal of something that was registered tells whether it is still there, which
is whether it was not removed before. -/
theorem Truthful.found_iff_not_removed {before behind : List (Deed σ)} {id : ListenerId}
    {found : Bool} (h : Truthful (before ++ .removed id found :: behind))
    (hids : Unambiguous (before ++ .removed id found :: behind))
    (hissued : ∃ r ∈ registrationsOf before, r.id = id) :
    found = true ↔ .removed id true ∉ before := by
  obtain ⟨r, hr, rfl⟩ := hissued
  rw [h.found_iff]
  constructor
  · rintro ⟨q, hq, hid⟩
    rw [← hid]
    exact ((h.of_append.mem_tableOf_iff hids.of_append).1 hq).2
  · exact fun hnot => ⟨r, (h.of_append.mem_tableOf_iff hids.of_append).2 ⟨hr, hnot⟩, rfl⟩

/-- Something that was registered and removed is not there when it is to be removed again. -/
theorem Truthful.not_found_again {before behind : List (Deed σ)} {id : ListenerId}
    {found found' : Bool} (h : Truthful (before ++ .removed id found :: behind))
    (hids : Unambiguous (before ++ .removed id found :: behind))
    (hissued : ∃ r ∈ registrationsOf before, r.id = id) (hagain : .removed id found' ∈ behind) :
    found' = false := by
  obtain ⟨between, rest, rfl⟩ := List.append_of_mem hagain
  have hremoved : .removed id true ∈ before ++ .removed id found :: between := by
    cases found with
    | true => exact List.mem_append_right _ List.mem_cons_self
    | false =>
      refine List.mem_append_left _ (not_not.1 fun hnot => ?_)
      exact Bool.false_ne_true ((h.found_iff_not_removed hids hissued).2 hnot)
  have hissued' : ∃ r ∈ registrationsOf (before ++ .removed id found :: between), r.id = id := by
    obtain ⟨r, hr, hid⟩ := hissued
    rw [registrationsOf_append]
    exact ⟨r, List.mem_append_left _ hr, hid⟩
  rw [← List.cons_append, ← List.append_assoc] at h hids
  exact Bool.eq_false_iff.2 fun hfound =>
    (h.found_iff_not_removed hids hissued').1 hfound hremoved

theorem Unambiguous.isRemovalOf (hids : Unambiguous log) {r : Registration σ}
    (hr : r ∈ registrationsOf log) (kind : Kind) :
    Deed.isRemovalOf kind (registrationsOf log) (.removed r.id true) = decide (r.kind = kind) := by
  rw [Deed.isRemovalOf, Bool.eq_iff_iff, List.any_eq_true, decide_eq_true_eq]
  constructor
  · rintro ⟨q, hq, hqr⟩
    obtain ⟨hid, hkind⟩ := of_decide_eq_true hqr
    obtain rfl : q = r := List.inj_on_of_nodup_map hids hq hr hid
    exact hkind
  · exact fun hkind => ⟨r, hr, decide_eq_true ⟨rfl, hkind⟩⟩

/-- A new registration is none of those that were removed before. -/
theorem Truthful.isRemovalOf_concat (h : Truthful log) {new : Registration σ}
    (hids : Unambiguous (log ++ [.registered new])) (kind : Kind) (hdeed : deed ∈ log) :
    Deed.isRemovalOf kind (registrationsOf (log ++ [.registered new])) deed =
      Deed.isRemovalOf kind (registrationsOf log) deed := by
  cases deed with
  | removed id found =>
    cases found with
    | false => rfl
    | true =>
      obtain ⟨r, hr, rfl⟩ := h.exists_of_removed hdeed
      have hr' : r ∈ registrationsOf (log ++ [.registered new]) := by
        rw [registrationsOf_append]
        exact List.mem_append_left _ hr
      rw [hids.isRemovalOf hr', hids.of_append.isRemovalOf hr]
  | _ => rfl

theorem removalsOf_concat_registered (h : Truthful log) {new : Registration σ}
    (hids : Unambiguous (log ++ [.registered new])) (kind : Kind) :
    removalsOf kind (log ++ [.registered new]) = removalsOf kind log := by
  rw [removalsOf, List.countP_append, List.countP_singleton, removalsOf]
  exact List.countP_congr fun deed hdeed => by rw [h.isRemovalOf_concat hids kind hdeed]

/-- What was removed of a kind, and what is left of it, is what was registered of it. -/
theorem Truthful.count_add_removalsOf (h : Truthful log) (hids : Unambiguous log) (kind : Kind) :
    (tableOf log).countP (·.kind = kind) + removalsOf kind log =
      (registrationsOf log).countP (·.kind = kind) := by
  induction log using List.reverseRecOn with
  | nil => rfl
  | append_singleton log deed ih =>
    obtain ⟨hlog, hdeed⟩ := truthful_concat.1 h
    have hih := ih hlog hids.of_append
    cases deed with
    | registered new =>
      rw [removalsOf_concat_registered hlog hids, tableOf_concat, registrationsOf_concat,
        Deed.change, Deed.registration?, Option.toList_some, List.countP_append,
        List.countP_append]
      omega
    | removed id found =>
      have hregistrations : registrationsOf (log ++ [.removed id found]) = registrationsOf log := by
        rw [registrationsOf_concat]
        exact List.append_nil _
      rw [removalsOf, hregistrations, List.countP_append, List.countP_singleton]
      change _ + (removalsOf kind log + _) = _
      cases found with
      | true =>
        obtain ⟨front, r, rest, htable, rfl, hrest⟩ := h.tableOf_found hids.of_append
        have hr : r ∈ registrationsOf log := (tableOf_sublist log).subset (by simp [htable])
        rw [hids.of_append.isRemovalOf hr, hrest]
        rw [htable] at hih
        simp only [List.countP_append, List.countP_cons] at hih ⊢
        omega
      | false =>
        rw [h.tableOf_not_found]
        exact hih
    | _ => simpa [removalsOf, registrationsOf_concat, tableOf_concat, Deed.registration?,
        Deed.change, Deed.isRemovalOf] using hih

end Log

/-! ### What can happen to a table -/

theorem Bus.count_eq (b : Bus σ) (kind : Kind) :
    b.count kind = b.registrations.countP (·.kind = kind) := by
  rw [Bus.count, Bus.listenersOf, List.length_map, List.countP_eq_length_filter]

/-- Every registration is of one kind. -/
theorem Bus.sum_count (b : Bus σ) : (Kind.all.map b.count).sum = b.registrations.length := by
  have hkinds : ∀ table : List (Registration σ),
      (Kind.all.map fun kind => table.countP (·.kind = kind)).sum = table.length := by
    intro table
    induction table with
    | nil => rfl
    | cons r table ih =>
      simp only [Kind.all, List.map_cons, List.map_nil, List.sum_cons, List.sum_nil,
        List.countP_cons, List.length_cons] at ih ⊢
      cases hkind : r.kind <;> simp <;> omega
  rw [funext b.count_eq]
  exact hkinds b.registrations

theorem Bus.describe_eq (b : Bus σ) : b.describe =
    "EventBus \x7b listeners: " ++ toString (Kind.all.map b.count).sum ++ " \x7d" := by
  rw [Bus.sum_count]
  rfl

theorem Bus.receive_table (b : Bus σ) (mailbox : Nat) :
    (b.receive mailbox).2.registrations = b.registrations ∧
      (b.receive mailbox).2.nextId = b.nextId := by
  rw [Bus.receive]
  split <;> exact ⟨rfl, rfl⟩

theorem Registration.deliver_table (r : Registration σ) (event : Event) (b : Bus σ) :
    (r.deliver event b).registrations = b.registrations ∧
      (r.deliver event b).nextId = b.nextId := by
  rw [Registration.deliver]
  split <;> exact ⟨rfl, rfl⟩

namespace Execution

/-- Nothing is noted, and nothing was done to the table. -/
structure IsSilent (x y : Execution σ) : Prop where
  log : y.log = x.log
  table : y.state.bus.registrations = x.state.bus.registrations
  nextId : y.state.bus.nextId = x.state.bus.nextId

/-- One deed is noted. It is right, and what it says was done to the table. -/
structure Notes (x y : Execution σ) (deed : Deed σ) : Prop where
  log : y.log = x.log ++ [deed]
  right : deed.IsTrueOf x.state.bus.registrations x.state.bus.nextId
  table : y.state.bus.registrations = deed.change x.state.bus.registrations
  nextId : y.state.bus.nextId =
    if deed.registration?.isSome then x.state.bus.nextId + 1 else x.state.bus.nextId

theorem goOn_spec (x : Execution σ) (e : Emission σ) (outer : List (Emission σ)) :
    ∃ deed, x.Notes (x.goOn e outer) deed := by
  rw [goOn]
  split
  · exact ⟨_, rfl, trivial, rfl, rfl⟩
  · next r _ _ _ =>
    have hdeliver := r.deliver_table e.event x.state.bus
    exact ⟨_, rfl, trivial, hdeliver.1, hdeliver.2⟩
  · exact ⟨_, rfl, trivial, rfl, rfl⟩

/-- All that can happen to a table in one step. -/
theorem move_spec (x : Execution σ) (m : Move σ) :
    x.IsSilent (x.move m) ∨ ∃ deed, x.Notes (x.move m) deed := by
  cases m with
  | ask script =>
    left
    rw [move, ask]
    split <;> exact ⟨rfl, rfl, rfl⟩
  | receive mailbox =>
    have hreceive := x.state.bus.receive_table mailbox
    exact .inr ⟨_, rfl, trivial, hreceive.1, hreceive.2⟩
  | drop mailbox => exact .inr ⟨_, rfl, trivial, rfl, rfl⟩
  | go =>
    obtain ⟨state, script, emissions, emitted, log⟩ := x
    cases script with
    | done =>
      cases emissions with
      | nil => exact .inl ⟨rfl, rfl, rfl⟩
      | cons e outer => exact .inr (goOn_spec _ e outer)
    | act change next => exact .inl ⟨rfl, rfl, rfl⟩
    | on kind run next => exact .inr ⟨_, rfl, rfl, rfl, rfl⟩
    | subscribe kind next => exact .inr ⟨_, rfl, rfl, rfl, rfl⟩
    | off id next => exact .inr ⟨_, rfl, rfl, rfl, rfl⟩
    | count kind next => exact .inr ⟨_, rfl, state.bus.count_eq kind, rfl, rfl⟩
    | emit event next => exact .inr ⟨_, rfl, trivial, rfl, rfl⟩

/-- The table is what the log says, and the log is right. -/
structure Kept (x : Execution σ) : Prop where
  table : x.state.bus.registrations = tableOf x.log
  nextId : x.state.bus.nextId = .ofNat (registrationsOf x.log).length
  truthful : Truthful x.log

theorem Kept.start (memory : σ) : (start memory).Kept := ⟨rfl, rfl, truthful_nil⟩

theorem Kept.move {x : Execution σ} (h : x.Kept) (m : Move σ) : (x.move m).Kept := by
  obtain hsilent | ⟨deed, hnotes⟩ := x.move_spec m
  · refine ⟨?_, ?_, hsilent.log ▸ h.truthful⟩
    · rw [hsilent.table, hsilent.log, h.table]
    · rw [hsilent.nextId, hsilent.log, h.nextId]
  · refine ⟨?_, ?_, ?_⟩
    · rw [hnotes.table, hnotes.log, tableOf_concat, h.table]
    · rw [hnotes.nextId, hnotes.log, registrationsOf_concat, List.length_append, h.nextId]
      cases deed.registration? with
      | none => rfl
      | some r => exact (UInt64.ofNat_add _ 1).symm
    · rw [hnotes.log]
      exact truthful_concat.2 ⟨h.truthful, h.table ▸ h.nextId ▸ hnotes.right⟩

/-- Whatever happens to a bus, its table is what the log says. -/
theorem Kept.after (memory : σ) (moves : List (Move σ)) : (after memory moves).Kept :=
  List.foldlRecOn (motive := Kept) moves Execution.move (.start memory) fun _ h m _ => h.move m

/-- What stands in the log before an entry was all of it at some time, and then the table was what
this part of the log says. -/
theorem exists_moment (memory : σ) (moves : List (Move σ)) {before behind : List (Deed σ)}
    (hlog : (Execution.after memory moves).log = before ++ behind) :
    ∃ earlier, earlier <+: moves ∧ (Execution.after memory earlier).log = before ∧
      (Execution.after memory earlier).state.bus.registrations = tableOf before := by
  suffices hmoment : ∃ earlier, earlier <+: moves ∧ (Execution.after memory earlier).log = before by
    obtain ⟨earlier, hearlier, rfl⟩ := hmoment
    exact ⟨earlier, hearlier, rfl, (Kept.after memory earlier).table⟩
  induction moves using List.reverseRecOn generalizing behind with
  | nil => exact ⟨[], List.prefix_rfl, (List.append_eq_nil_iff.1 hlog.symm).1.symm⟩
  | append_singleton moves m ih =>
    have hafter :
        Execution.after memory (moves ++ [m]) = (Execution.after memory moves).move m := by
      rw [Execution.after, List.foldl_append]
      rfl
    have hearly : ∀ {behind}, (Execution.after memory moves).log = before ++ behind →
        ∃ earlier, earlier <+: moves ++ [m] ∧ (Execution.after memory earlier).log = before :=
      fun h => (ih h).imp fun earlier => And.imp_left (·.trans (List.prefix_append ..))
    obtain hsilent | ⟨deed, hnotes⟩ := (Execution.after memory moves).move_spec m
    · rw [hafter, hsilent.log] at hlog
      exact hearly hlog
    · obtain rfl | ⟨rest, last, rfl⟩ := List.eq_nil_or_concat behind
      · exact ⟨moves ++ [m], List.prefix_rfl, hlog.trans (List.append_nil before)⟩
      · rw [hafter, hnotes.log, List.concat_eq_append, ← List.append_assoc] at hlog
        exact hearly (List.append_singleton_inj.1 hlog).1

end Execution

/-- What a table has to do with its past, as long as there are enough numbers. All handles show one
table, which is what the log has made of it, now and at every time before. It is ordered by the
numbers of its registrations, which were given away once each. A removal of something that was
registered is answered with yes if that is still there, and only then takes something away: this one
registration. From then on the answer is no. The counts are what was registered less what was
removed, and a bus shows their sum. -/
theorem table_of_history (memory : σ) (uses : List (Shared.Use (Move σ)))
    (hfew : (registrationsOf (Execution.after memory (Shared.moves 1 uses)).log).length < 2 ^ 64) :
    let x := Execution.after memory (Shared.moves 1 uses)
    (∃ handles, (Shared.after Execution.move (.start memory) uses).IsSole x handles) ∧
    x.state.bus.registrations = tableOf x.log ∧
    (∀ before behind, x.log = before ++ behind → ∃ earlier, earlier <+: Shared.moves 1 uses ∧
      (Execution.after memory earlier).log = before ∧
      (Execution.after memory earlier).state.bus.registrations = tableOf before) ∧
    (x.state.bus.registrations.map (·.id.number)).Pairwise (· < ·) ∧
    (∀ r ∈ x.state.bus.registrations, r.id.number < x.state.bus.nextId) ∧
    ((registrationsOf x.log).map (·.id.number)).Pairwise (· < ·) ∧
    (∀ before id found behind, x.log = before ++ .removed id found :: behind →
      (∃ r ∈ registrationsOf before, r.id = id) →
      (found = true ↔ ∃ r ∈ tableOf before, r.id = id) ∧
      (found = true ↔ .removed id true ∉ before) ∧
      (found = true → ∃ front r rest, tableOf before = front ++ r :: rest ∧ r.id = id ∧
        tableOf (before ++ [.removed id found]) = front ++ rest) ∧
      (found = false → tableOf (before ++ [.removed id found]) = tableOf before) ∧
      ∀ found', .removed id found' ∈ behind → found' = false) ∧
    (∀ before kind answer behind, x.log = before ++ .counted kind answer :: behind →
      answer + removalsOf kind before = (registrationsOf before).countP (·.kind = kind)) ∧
    (∀ kind, x.state.bus.count kind + removalsOf kind x.log =
      (registrationsOf x.log).countP (·.kind = kind)) ∧
    x.state.bus.describe =
      "EventBus \x7b listeners: " ++ toString (Kind.all.map x.state.bus.count).sum ++ " \x7d" := by
  intro x
  have hkept : x.Kept := .after memory (Shared.moves 1 uses)
  have hids : Unambiguous x.log := hkept.truthful.unambiguous hfew
  have hascending := hkept.truthful.ascending hfew
  refine ⟨Shared.isSole_after .., hkept.table,
    fun _ _ => Execution.exists_moment memory (Shared.moves 1 uses), ?_, ?_, hascending,
    ?_, ?_, ?_, ?_⟩
  · rw [hkept.table]
    exact hascending.sublist ((tableOf_sublist x.log).map _)
  · rw [hkept.table, hkept.nextId]
    exact fun r hr => hkept.truthful.lt_nextId hfew r ((tableOf_sublist x.log).subset hr)
  · intro before id found behind hlog hissued
    have htruthful := hlog ▸ hkept.truthful
    have hids := hlog ▸ hids
    refine ⟨htruthful.found_iff, htruthful.found_iff_not_removed hids hissued, ?_, ?_,
      fun found' => htruthful.not_found_again hids hissued⟩
    · rintro rfl
      exact htruthful.tableOf_found hids.of_append
    · rintro rfl
      exact htruthful.tableOf_not_found
  · intro before kind answer behind hlog
    have htruthful := hlog ▸ hkept.truthful
    have hanswer : answer = (tableOf before).countP (·.kind = kind) := htruthful before _ behind rfl
    rw [hanswer]
    exact htruthful.of_append.count_add_removalsOf (hlog ▸ hids).of_append kind
  · intro kind
    rw [Bus.count_eq, hkept.table]
    exact hkept.truthful.count_add_removalsOf hids kind
  · exact x.state.bus.describe_eq

/-- A listener removes itself and registers another one when it is called. Then the client, which
has a copy of its handle now, asks for its removal again and counts. -/
theorem table_of_history_selfRemoval :
    let run : Event → Script Unit := fun _ =>
      .off ⟨0⟩ fun _ => .on .gotError (fun _ => .done) fun _ => .done
    let script : Script Unit :=
      .on .verified run fun first => .subscribe .verified fun _ _ =>
        .emit (.verified "a@b.com") fun _ => .off first fun _ => .count .verified fun _ => .done
    let uses : List (Shared.Use (Move Unit)) :=
      .via 0 (.ask script) :: .clone 0 :: List.replicate 13 (.via 1 .go)
    let x := Execution.after () (Shared.moves 1 uses)
    (registrationsOf x.log).length < 2 ^ 64 ∧ x.script = .done ∧
      x.state.bus.registrations.map (fun r => (r.id.number, r.kind)) =
        [(1, .verified), (2, .gotError)] ∧
      x.state.bus.count .verified + removalsOf .verified x.log = 2 ∧
      x.state.bus.describe = "EventBus \x7b listeners: 2 \x7d" := by
  intro run script uses x
  have hfew : (registrationsOf x.log).length < 2 ^ 64 := by decide +kernel
  obtain ⟨-, -, -, -, -, -, -, -, hcounts, hdescribe⟩ := table_of_history () uses hfew
  refine ⟨hfew, rfl, by decide +kernel, ?_, ?_⟩
  · rw [hcounts]
    decide +kernel
  · have hsum : (Kind.all.map x.state.bus.count).sum = 2 := by decide +kernel
    rw [hdescribe, hsum]
    rfl

end SignIn.Event
