import Mathlib.Data.List.Forall2

/-!
# Steps that can fail

A computation that can fail is a chain of steps, and it goes on behind a step only if that has
succeeded. So a whole chain is followed from its front, with the results of its steps, and if it has
succeeded, it can be taken apart in the same way.

## Main results

* `ok_bind` — following a chain
* `of_bind_eq_ok`, `of_map_eq_ok` — taking a chain apart
* `of_bind_eq_error` — where a chain has failed
* `mapM_of_forall₂`, `forall₂_of_mapM_eq_ok` — one step for every element of a list
* `exists_of_forall₂` — and what it has come to
-/

namespace SignIn

variable {ε α β : Type}

/-- Behind a step that has succeeded, its result is used. -/
theorem ok_bind (a : α) (next : α → Except ε β) : Except.ok a >>= next = next a := rfl

/-- Where a computation succeeds, every step of it has. -/
theorem of_bind_eq_ok {x : Except ε α} {next : α → Except ε β} {b : β}
    (h : x >>= next = .ok b) : ∃ a, x = .ok a ∧ next a = .ok b := by
  cases x with
  | error e => cases h
  | ok a => exact ⟨a, rfl, h⟩

/-- Where a computation fails, its first step has, or what comes behind it. -/
theorem of_bind_eq_error {x : Except ε α} {next : α → Except ε β} {e : ε}
    (h : x >>= next = .error e) : x = .error e ∨ ∃ a, x = .ok a ∧ next a = .error e := by
  cases x with
  | error e' =>
    cases h
    exact .inl rfl
  | ok a => exact .inr ⟨a, rfl, h⟩

theorem of_map_eq_ok {x : Except ε α} {f : α → β} {b : β} (h : f <$> x = .ok b) :
    ∃ a, x = .ok a ∧ f a = b := by
  cases x with
  | error e => cases h
  | ok a => exact ⟨a, rfl, Except.ok.inj h⟩

/-- Where a step succeeds for every element of a list, there is a result for each of them. -/
theorem forall₂_of_mapM_eq_ok {f : α → Except ε β} {l : List α} {bs : List β}
    (h : l.mapM f = .ok bs) : List.Forall₂ (fun a b => f a = .ok b) l bs := by
  induction l generalizing bs with
  | nil =>
    cases h
    exact .nil
  | cons a l ih =>
    rw [List.mapM_cons] at h
    obtain ⟨b, hb, h⟩ := of_bind_eq_ok h
    obtain ⟨bs', hbs, h⟩ := of_bind_eq_ok h
    cases h
    exact .cons hb (ih hbs)

/-- What is paired off with a list has a partner for each of its elements. -/
theorem exists_of_forall₂ {R : α → β → Prop} {l : List α} {bs : List β} (h : List.Forall₂ R l bs) :
    ∀ a ∈ l, ∃ b ∈ bs, R a b := by
  induction h with
  | nil => exact nofun
  | @cons a b l bs hab _ ih =>
    refine List.forall_mem_cons.2 ⟨⟨b, List.mem_cons_self, hab⟩, fun a' ha' => ?_⟩
    obtain ⟨b', hb', hab'⟩ := ih a' ha'
    exact ⟨b', List.mem_cons_of_mem _ hb', hab'⟩

theorem mapM_of_forall₂ {f : α → Except ε β} {l : List α} {bs : List β}
    (h : List.Forall₂ (fun a b => f a = .ok b) l bs) : l.mapM f = .ok bs := by
  induction h with
  | nil => rfl
  | cons hb _ ih =>
    rw [List.mapM_cons, hb, ok_bind, ih]
    rfl

end SignIn
