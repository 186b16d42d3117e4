import Mathlib.Data.List.Induction
import Mathlib.Data.List.Nodup
import SignIn.Nonce
import SignIn.Proofs.Log
import SignIn.Shared

/-!
# Nonces and their past

Whether a nonce can be redeemed follows from what happened to the store. The last insertion of the
nonce decides: its expiry has to be still to come, and since then the nonce must not have been taken
out by anything. A redemption takes it out, whether it succeeds or not. So does clearing, and so
does a purge, but only at a reading of the clock that is not before the expiry. Readings need not
be in order, so an earlier purge may come after a later one.

An insertion whose expiry the calendar does not have fails and changes nothing. It is no insertion
in the sense of the above.

## Main definitions

* `Nonce.Deed`, `Nonce.Store.perform`, `Nonce.Store.after` — what is done to a store
* `Nonce.Outstanding` — a nonce can still be redeemed, judged by the past alone

## Main results

* `Nonce.Store.expiry?_perform` — the step: what one deed does to one nonce
* `Nonce.Store.expiry?_after` — the run: the store and the past agree
* `Nonce.take_after` — when a nonce can be redeemed
-/

namespace SignIn.Nonce

/-! ### What is done to a store -/

/-- What is done to a store. -/
inductive Deed where
  | insert (nonce : String) (now : Instant) (ttl : Int)
  | take (nonce : String) (now : Instant)
  | purge (now : Instant)
  | clear
  deriving DecidableEq, Repr

namespace Deed

/-- The nonce is remembered until an instant. -/
def Puts (nonce : String) (expiry : Instant) : Deed → Prop
  | .insert name now ttl => name = nonce ∧ now.after? ttl = some expiry
  | _ => False

/-- What was remembered of the nonce, until an instant, is forgotten. -/
def Ends (nonce : String) (expiry : Instant) : Deed → Prop
  | .insert name now ttl => name = nonce ∧ (now.after? ttl).isSome
  | .take name _ => name = nonce
  | .purge now => expiry ≤ now
  | .clear => True

/-- The deed is about one nonce, and it is another one. -/
def IsAboutOther (nonce : String) : Deed → Prop
  | .insert name _ _ => name ≠ nonce
  | .take name _ => name ≠ nonce
  | .purge _ => False
  | .clear => False

end Deed

namespace Store

/-- The store after a deed. An insertion that fails leaves it as it is. -/
def perform (s : Store) : Deed → Store
  | .insert nonce now ttl => (s.insert nonce now ttl).getD s
  | .take nonce now => (s.take nonce now).2
  | .purge now => (s.purge now).2
  | .clear => s.clear

/-- A new store after deeds. -/
def after (deeds : List Deed) : Store := deeds.foldl perform empty

/-! ### Every nonce is there once -/

/-- No nonce is in the store twice. -/
def Distinct (s : Store) : Prop := (s.entries.map Prod.fst).Nodup

variable {s : Store} {nonce : String} {expiry now : Instant}

theorem distinct_empty : empty.Distinct := List.nodup_nil

theorem Distinct.filter (h : s.Distinct) (keep : String × Instant → Bool) :
    Distinct ⟨s.entries.filter keep⟩ :=
  List.Nodup.sublist (List.filter_sublist.map Prod.fst) h

theorem Distinct.put (h : s.Distinct) (nonce : String) (expiry : Instant) :
    (s.put nonce expiry).Distinct := by
  have hnew : nonce ∉ (s.erase nonce).entries.map Prod.fst := by
    simp [erase]
  rw [Distinct, Store.put, List.map_append, List.map_singleton, ← List.concat_eq_append]
  exact List.Nodup.concat hnew (h.filter _)

theorem Distinct.perform (h : s.Distinct) (deed : Deed) : (s.perform deed).Distinct := by
  cases deed with
  | insert nonce now ttl =>
    rw [Store.perform, Store.insert]
    cases now.after? ttl with
    | none => exact h
    | some expiry => exact h.put nonce expiry
  | take nonce now => exact h.filter _
  | purge now => exact h.filter _
  | clear => exact distinct_empty

/-- When a nonce expires is what its only entry says. -/
theorem Distinct.expiry?_eq_some_iff (h : s.Distinct) :
    s.expiry? nonce = some expiry ↔ (nonce, expiry) ∈ s.entries := by
  refine ⟨mem_of_expiry?, fun hmem => ?_⟩
  obtain ⟨before, behind, hentries⟩ := List.append_of_mem hmem
  rw [Distinct, hentries, List.map_append, List.map_cons] at h
  have hbefore : nonce ∉ before.map Prod.fst := fun hnonce =>
    (List.nodup_append.1 h).2.2 nonce hnonce nonce List.mem_cons_self rfl
  refine List.lookup_eq_some_iff.2 ⟨before, behind, hentries, fun entry hentry => ?_⟩
  exact bne_iff_ne.2 fun heq => hbefore (List.mem_map.2 ⟨entry, hentry, heq.symm⟩)

/-! ### One deed, and all of them -/

/-- A nonce is remembered because a deed put it in, or as before if the deed has not ended that. -/
theorem Distinct.expiry?_perform (h : s.Distinct) (deed : Deed) :
    (s.perform deed).expiry? nonce = some expiry ↔
      deed.Puts nonce expiry ∨ s.expiry? nonce = some expiry ∧ ¬deed.Ends nonce expiry := by
  rw [(h.perform deed).expiry?_eq_some_iff, h.expiry?_eq_some_iff]
  cases deed with
  | insert name now ttl =>
    rw [Store.perform, Store.insert, Deed.Puts, Deed.Ends]
    cases now.after? ttl with
    | none => simp
    | some time =>
      simp only [Option.map_some, Option.getD_some, mem_entries_put, Prod.mk.injEq,
        Option.some.injEq, Option.isSome_some, and_true, ne_comm]
      rw [or_comm, @eq_comm _ nonce, @eq_comm _ expiry]
  | take name now => simp [Store.perform, take, Deed.Puts, Deed.Ends, ne_comm]
  | purge now => simp [Store.perform, Deed.Puts, Deed.Ends]
  | clear => simp [Store.perform, clear, empty, Deed.Puts, Deed.Ends]

end Store

/-- A nonce can still be redeemed, before an instant. Some deed put it in, and nothing has ended
that since. -/
def Outstanding (deeds : List Deed) (nonce : String) (expiry : Instant) : Prop :=
  ∃ earlier deed since, deeds = earlier ++ deed :: since ∧ deed.Puts nonce expiry ∧
    ∀ d ∈ since, ¬d.Ends nonce expiry

section Outstanding

variable {deeds : List Deed} {deed : Deed} {nonce : String} {expiry now : Instant}

theorem outstanding_nil : ¬Outstanding [] nonce expiry := by
  rintro ⟨earlier, deed, since, hdeeds, -⟩
  simp at hdeeds

theorem outstanding_concat : Outstanding (deeds ++ [deed]) nonce expiry ↔
    deed.Puts nonce expiry ∨ Outstanding deeds nonce expiry ∧ ¬deed.Ends nonce expiry := by
  constructor
  · rintro ⟨earlier, d, since, hdeeds, hputs, hsince⟩
    obtain ⟨rfl, rfl, -⟩ | ⟨rest, rfl, rfl⟩ := Log.concat_eq_iff.1 hdeeds
    · exact .inl hputs
    · have hrest : ∀ d ∈ rest, ¬d.Ends nonce expiry := fun d hd =>
        hsince d (List.mem_append_left _ hd)
      exact .inr ⟨⟨earlier, d, rest, rfl, hputs, hrest⟩, hsince _ (by simp)⟩
  · rintro (hputs | ⟨⟨earlier, d, since, rfl, hputs, hsince⟩, hends⟩)
    · exact ⟨deeds, deed, [], rfl, hputs, fun _ h => absurd h List.not_mem_nil⟩
    · refine ⟨earlier, d, since ++ [deed], by simp, hputs, fun d' hd' => ?_⟩
      obtain hd' | hd' := List.mem_append.1 hd'
      · exact hsince d' hd'
      · rwa [List.mem_singleton.1 hd']

end Outstanding

namespace Store

variable {nonce : String} {expiry now : Instant}

theorem after_concat (deeds : List Deed) (deed : Deed) :
    after (deeds ++ [deed]) = (after deeds).perform deed := by
  rw [after, List.foldl_append]
  rfl

theorem distinct_after (deeds : List Deed) : (after deeds).Distinct := by
  induction deeds using List.reverseRecOn with
  | nil => exact distinct_empty
  | append_singleton deeds deed ih =>
    rw [after_concat]
    exact ih.perform deed

/-- The store remembers what is outstanding, and nothing else. -/
theorem expiry?_after (deeds : List Deed) :
    (after deeds).expiry? nonce = some expiry ↔ Outstanding deeds nonce expiry := by
  induction deeds using List.reverseRecOn with
  | nil => exact iff_of_false (Option.some_ne_none expiry ·.symm) outstanding_nil
  | append_singleton deeds deed ih =>
    rw [after_concat, (distinct_after deeds).expiry?_perform, outstanding_concat, ih]

theorem take_eq_true_iff {s : Store} :
    (s.take nonce now).1 = true ↔ ∃ expiry, s.expiry? nonce = some expiry ∧ now < expiry := by
  rw [take]
  cases s.expiry? nonce <;> simp

/-- What is done to one nonce does not matter to the others. -/
theorem expiry?_perform_of_other {s : Store} {deed : Deed} (h : deed.IsAboutOther nonce) :
    (s.perform deed).expiry? nonce = s.expiry? nonce := by
  cases deed with
  | insert name now ttl =>
    rw [perform, Store.insert]
    cases now.after? ttl with
    | none => rfl
    | some time => exact expiry?_put.trans (if_neg (Ne.symm h))
  | take name now => exact expiry?_erase.trans (if_neg (Ne.symm h))
  | purge now => exact h.elim
  | clear => exact h.elim

theorem size_purge (s : Store) (now : Instant) :
    (s.purge now).1 + (s.purge now).2.size = s.size :=
  Nat.sub_add_cancel (List.length_filter_le _ _)

end Store

/-- **When a nonce can be redeemed.** Whatever is done to a store, at any readings of the clock and
through any copies of its handle, all copies show the same store. A nonce is redeemed exactly if its
last insertion has an expiry that is still to come, and since then it was not taken, whether that
succeeded or not, the store was not cleared, and no purge was at or after that expiry. So between a
redemption and a later one that succeeds the nonce was inserted. What is done to one nonce does not
matter to the others, and a purge tells by how much it made the store smaller. -/
theorem take_after (uses : List (Shared.Use Deed)) :
    let deeds := Shared.moves 1 uses
    let store := Store.after deeds
    (∃ handles, (Shared.after Store.perform .empty uses).IsSole store handles) ∧
    (∀ nonce now, (store.take nonce now).1 = true ↔
      ∃ expiry, Outstanding deeds nonce expiry ∧ now < expiry) ∧
    (∀ before between nonce time now, deeds = before ++ .take nonce time :: between →
      (store.take nonce now).1 = true → ∃ deed ∈ between, ∃ expiry, deed.Puts nonce expiry) ∧
    (∀ deed nonce now, deed.IsAboutOther nonce →
      ((store.perform deed).take nonce now).1 = (store.take nonce now).1) ∧
    ∀ now, store.Distinct ∧ (store.purge now).1 + (store.purge now).2.size = store.size := by
  intro deeds store
  have htake : ∀ nonce now, (store.take nonce now).1 = true ↔
      ∃ expiry, Outstanding deeds nonce expiry ∧ now < expiry := by
    intro nonce now
    rw [Store.take_eq_true_iff]
    exact exists_congr fun expiry => and_congr_left' (Store.expiry?_after deeds)
  refine ⟨Shared.isSole_after _ _ _, htake, fun before between nonce time now hdeeds hfound => ?_,
    fun deed nonce now hother => ?_, fun now => ⟨Store.distinct_after deeds, store.size_purge now⟩⟩
  · obtain ⟨expiry, ⟨earlier, deed, since, hsplit, hputs, hsince⟩, -⟩ := (htake nonce now).1 hfound
    rw [hdeeds] at hsplit
    -- The take cannot be among what came since the insertion, so the insertion is behind it.
    obtain ⟨rest, rfl, hrest⟩ | ⟨rest, rfl, hrest⟩ := List.append_eq_append_iff.1 hsplit
    · cases rest with
      | nil =>
        obtain ⟨rfl, -⟩ := List.cons.inj hrest
        exact hputs.elim
      | cons first rest =>
        obtain ⟨-, hrest⟩ := List.cons.inj hrest
        exact ⟨deed, by simp [hrest], expiry, hputs⟩
    · cases rest with
      | nil =>
        obtain ⟨rfl, -⟩ := List.cons.inj hrest
        exact hputs.elim
      | cons first rest =>
        obtain ⟨-, hrest⟩ := List.cons.inj hrest
        exact absurd rfl (hsince (.take nonce time) (by simp [hrest]))
  · rw [Store.take, Store.take, Store.expiry?_perform_of_other hother]

end SignIn.Nonce
