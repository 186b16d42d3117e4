import SignIn.Nonce.Purge
import SignIn.Proofs.Nonce.History

/-!
# Purging changes no answer

Expired nonces are purged in the background, at moments that nobody chooses. As long as the clock
does not go back, nobody can tell. A store that was purged and one that was not differ in what is
expired at the last reading of the clock, and no later redemption could have succeeded with that.

The comparison is strict in both places. A nonce cannot be redeemed any more at the very instant of
its expiry, and a purge at that instant removes it.

## Main definitions

* `Nonce.Store.answers` — what the redemptions of a run are answered
* `Nonce.Store.AgreeAfter` — two stores differ only in what is expired

## Main results

* `Nonce.Store.AgreeAfter.perform`, `Nonce.Store.AgreeAfter.purge` — the step
* `Nonce.Store.AgreeAfter.answers_eq` — the run
* `Nonce.purging_unobservable`
-/

namespace SignIn.Nonce

namespace Deed

/-- Whether it is a purge. -/
def isPurge : Deed → Bool
  | .purge _ => true
  | _ => false

/-- The reading of the clock that a deed is told. -/
def reading? : Deed → Option Instant
  | .insert _ now _ | .take _ now | .purge now => some now
  | .clear => none

end Deed

namespace Store

/-- What the redemptions among some deeds are answered, the first one first. -/
def answers : Store → List Deed → List Bool
  | _, [] => []
  | s, .take nonce now :: deeds =>
    (s.take nonce now).1 :: (s.perform (.take nonce now)).answers deeds
  | s, deed :: deeds => (s.perform deed).answers deeds

/-- Two stores differ only in what is expired at an instant. -/
def AgreeAfter (now : Instant) (s t : Store) : Prop :=
  ∀ nonce expiry, now < expiry → (s.expiry? nonce = some expiry ↔ t.expiry? nonce = some expiry)

section Agree

variable {s t : Store} {now later : Instant} {deed : Deed} {deeds : List Deed}

theorem AgreeAfter.mono (h : AgreeAfter now s t) (hlater : now ≤ later) : AgreeAfter later s t :=
  fun nonce expiry hexpiry => h nonce expiry (Int.lt_of_le_of_lt hlater hexpiry)

/-- The same deed leads from stores that agree to stores that agree. -/
theorem AgreeAfter.perform (h : AgreeAfter now s t) (hs : s.Distinct) (ht : t.Distinct)
    (deed : Deed) : AgreeAfter now (s.perform deed) (t.perform deed) := by
  intro nonce expiry hexpiry
  rw [hs.expiry?_perform, ht.expiry?_perform, h nonce expiry hexpiry]

/-- A purge of one of two stores is not seen later on. -/
theorem AgreeAfter.purge (h : AgreeAfter now s t) (hs : s.Distinct) :
    AgreeAfter now (s.perform (.purge now)) t := by
  intro nonce expiry hexpiry
  have hkept : ¬Deed.Ends nonce expiry (.purge now) := Int.not_le.2 hexpiry
  rw [hs.expiry?_perform, h nonce expiry hexpiry]
  exact ⟨fun hnew => hnew.elim False.elim And.left, fun hold => .inr ⟨hold, hkept⟩⟩

/-- Stores that agree answer a redemption alike. -/
theorem AgreeAfter.take_eq (h : AgreeAfter now s t) (nonce : String) :
    (s.take nonce now).1 = (t.take nonce now).1 := by
  rw [Bool.eq_iff_iff, take_eq_true_iff, take_eq_true_iff]
  exact exists_congr fun expiry => and_congr_left (h nonce expiry)

/-- Stores that agree give the same answers, although purges are left out for one of them. The
induction is on the deeds, and the agreement moves on with the readings of the clock. -/
theorem AgreeAfter.answers_eq (h : AgreeAfter now s t) (hs : s.Distinct) (ht : t.Distinct)
    (hstart : ∀ reading ∈ deeds.filterMap Deed.reading?, now ≤ reading)
    (hclock : (deeds.filterMap Deed.reading?).Pairwise (· ≤ ·)) :
    s.answers deeds = t.answers (deeds.filter (!·.isPurge)) := by
  induction deeds generalizing s t now with
  | nil => rfl
  | cons deed deeds ih =>
    cases deed with
    | clear => exact ih (h.perform hs ht .clear) (hs.perform _) (ht.perform _) hstart hclock
    | insert nonce time ttl =>
      obtain ⟨hrest, hclock⟩ := List.pairwise_cons.1 hclock
      have hagree := h.mono (hstart time List.mem_cons_self)
      exact ih (hagree.perform hs ht _) (hs.perform _) (ht.perform _) hrest hclock
    | take nonce time =>
      obtain ⟨hrest, hclock⟩ := List.pairwise_cons.1 hclock
      have hagree := h.mono (hstart time List.mem_cons_self)
      have hanswers := ih (hagree.perform hs ht (.take nonce time)) (hs.perform _) (ht.perform _)
        hrest hclock
      exact congrArg₂ List.cons (hagree.take_eq nonce) hanswers
    | purge time =>
      obtain ⟨hrest, hclock⟩ := List.pairwise_cons.1 hclock
      have hagree := h.mono (hstart time List.mem_cons_self)
      exact ih (hagree.purge hs) (hs.perform _) ht hrest hclock

end Agree

/-! ### What a purge leaves -/

variable {s : Store} {nonce : String} {expiry now again : Instant}

/-- A purge leaves what is not expired, and nothing else. -/
theorem Distinct.expiry?_purge_iff (h : s.Distinct) :
    (s.purge now).2.expiry? nonce = some expiry ↔ s.expiry? nonce = some expiry ∧ now < expiry := by
  refine (h.expiry?_perform (.purge now)).trans ?_
  simp [Deed.Puts, Deed.Ends]

/-- A second purge finds nothing, unless the clock has moved on. -/
theorem purge_purge (h : again ≤ now) :
    (s.purge now).2.purge again = (0, (s.purge now).2) := by
  have hall : ∀ entry ∈ s.entries.filter (now < ·.2), decide (again < entry.2) = true := by
    intro entry hentry
    have hnow : now < entry.2 := of_decide_eq_true (List.mem_filter.1 hentry).2
    exact decide_eq_true (Int.lt_of_le_of_lt h hnow)
  rw [purge, purge, List.filter_eq_self.2 hall, Nat.sub_self]

/-- Purging twice is purging once. -/
theorem foldl_replicate_purge (s : Store) (now : Instant) (n : Nat) :
    (List.replicate (n + 1) (.purge now)).foldl perform s = (s.purge now).2 := by
  induction n with
  | zero => rfl
  | succ n ih =>
    have hsecond : ((s.purge now).2.purge now).2 = (s.purge now).2 := by
      rw [purge_purge (Int.le_refl now)]
    rw [List.replicate_succ', List.foldl_append, ih]
    exact hsecond

/-- What the background task does until a time is one purge for each time it was due. -/
theorem runBefore_eq_foldl (task : Purge) (time : Nat) (now : Instant) (s : Store) :
    (task.runBefore time now s).2 =
      (List.replicate (task.ticksBefore time) (.purge now)).foldl perform s := by
  rw [Purge.runBefore]
  cases task.ticksBefore time with
  | zero => rfl
  | succ n => exact (foldl_replicate_purge s now n).symm

end Store

/-- **Purging cannot be observed.** Whatever was done to a store before, as long as the clock does
not go back the redemptions are answered as if nothing had been purged, wherever purges were put in,
also at the very instant of an expiry. A purge leaves nothing that is expired by then and keeps all
the rest, and a second one that is not later removes nothing. The background task does such purges
and nothing else. -/
theorem purging_unobservable (earlier deeds : List Deed)
    (hclock : (deeds.filterMap Deed.reading?).Pairwise (· ≤ ·)) :
    let store := Store.after earlier
    store.answers deeds = store.answers (deeds.filter (!·.isPurge)) ∧
    (∀ now,
      (∀ nonce expiry, (store.purge now).2.expiry? nonce = some expiry ↔
        store.expiry? nonce = some expiry ∧ now < expiry) ∧
      ∀ again ≤ now, (store.purge now).2.purge again = (0, (store.purge now).2)) ∧
    ∀ (task : Purge) time now, (task.runBefore time now store).2 =
      (List.replicate (task.ticksBefore time) (.purge now)).foldl Store.perform store := by
  intro store
  have hdistinct : store.Distinct := Store.distinct_after earlier
  refine ⟨?_, fun now => ⟨fun nonce expiry => hdistinct.expiry?_purge_iff,
    fun again h => Store.purge_purge h⟩, fun task time now => Store.runBefore_eq_foldl ..⟩
  -- Before the first reading the two stores are the same, so they agree after any instant.
  have hsame : ∀ now, Store.AgreeAfter now store store := fun _ _ _ _ => .rfl
  obtain ⟨now, hstart⟩ : ∃ now, ∀ reading ∈ deeds.filterMap Deed.reading?, now ≤ reading := by
    cases hreadings : deeds.filterMap Deed.reading? with
    | nil => exact ⟨0, fun _ h => absurd h List.not_mem_nil⟩
    | cons first readings =>
      rw [hreadings, List.pairwise_cons] at hclock
      exact ⟨first, List.forall_mem_cons.2 ⟨Int.le_refl first, hclock.1⟩⟩
  exact (hsame now).answers_eq hdistinct hdistinct hstart hclock

/-- A purge and a redemption fall on the expiry of one nonce, and another one is still good then. -/
theorem purging_unobservable_at_expiry :
    let deeds : List Deed := [.insert "early" 0 10, .purge 3, .insert "late" 3 8, .purge 10,
      .take "early" 10, .take "late" 10]
    (deeds.filterMap Deed.reading?).Pairwise (· ≤ ·) ∧
      (Store.after []).answers deeds = (Store.after []).answers (deeds.filter (!·.isPurge)) ∧
      (Store.after []).answers deeds = [false, true] := by
  intro deeds
  have hclock : (deeds.filterMap Deed.reading?).Pairwise (· ≤ ·) := by decide
  exact ⟨hclock, (purging_unobservable [] deeds hclock).1, by decide⟩

end SignIn.Nonce
