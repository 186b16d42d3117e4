/-!
# Shared values

Some things are not handed on but shared. A nonce store belongs to a broker client and to the task
that purges it, and an event bus to a relying party and to everything that listens. Whoever needs
such a thing has a handle to it. A handle can be copied, and what is done through one copy is seen
through all others.

## Main definitions

* `Shared` — values, and handles to them
* `Shared.start`, `Shared.create`, `Shared.clone` — a new value has a new handle, a copy has not a
  new value
* `Shared.get?`, `Shared.modify` — what is done through a handle
* `Shared.Use`, `Shared.after`, `Shared.moves` — a value that is used through copies of its handle

## Main results

* `Shared.get?_modify` — what is done through a handle is seen through its copies
* `Shared.isSole_after` — through which copy something is done makes no difference
-/

namespace SignIn

/-- Values, and handles to them. -/
structure Shared (α : Type) where
  values : List α
  /-- The place of the value to which each handle belongs. -/
  handles : List Nat
  deriving DecidableEq, Repr

namespace Shared

variable {α μ : Type}

/-- One value with one handle. -/
def start (value : α) : Shared α := ⟨[value], [0]⟩

/-- A further value, with a handle of its own. -/
def create (s : Shared α) (value : α) : Shared α :=
  ⟨s.values ++ [value], s.handles ++ [s.values.length]⟩

/-- A copy of a handle. It belongs to the same value. -/
def clone (s : Shared α) (handle : Nat) : Shared α :=
  { s with handles := s.handles ++ s.handles[handle]?.toList }

/-- The value of a handle. -/
def get? (s : Shared α) (handle : Nat) : Option α := do s.values[← s.handles[handle]?]?

/-- Changes the value of a handle. -/
def modify (s : Shared α) (handle : Nat) (change : α → α) : Shared α :=
  match s.handles[handle]? with
  | some place => { s with values := s.values.modify place change }
  | none => s

/-- What can be done with a handle. -/
inductive Use (μ : Type) where
  | clone (handle : Nat)
  /-- Something is done to the value. -/
  | via (handle : Nat) (move : μ)
  deriving DecidableEq, Repr

/-- Uses a handle, given what is done to a value. -/
def use (act : α → μ → α) (s : Shared α) : Use μ → Shared α
  | .clone handle => s.clone handle
  | .via handle move => s.modify handle (act · move)

/-- A value with one handle, after it was used. -/
def after (act : α → μ → α) (value : α) (uses : List (Use μ)) : Shared α :=
  uses.foldl (use act) (start value)

/-- What is done to a value that has so many handles. A handle that does not exist does nothing. -/
def moves : (handles : Nat) → List (Use μ) → List μ
  | _, [] => []
  | handles, .clone handle :: uses =>
    moves (if handle < handles then handles + 1 else handles) uses
  | handles, .via handle move :: uses =>
    if handle < handles then move :: moves handles uses else moves handles uses

/-! ### What is seen through a handle -/

theorem get?_eq_some {s : Shared α} {handle : Nat} {value : α} :
    s.get? handle = some value ↔
      ∃ place, s.handles[handle]? = some place ∧ s.values[place]? = some value :=
  Option.bind_eq_some_iff

/-- What is done through a handle is seen through all its copies, and through no other handle. -/
theorem get?_modify (s : Shared α) (handle other : Nat) (change : α → α) :
    (s.modify handle change).get? other =
      if s.handles[other]? = s.handles[handle]? then (s.get? other).map change
      else s.get? other := by
  by_cases heq : s.handles[other]? = s.handles[handle]?
  · rw [if_pos heq]
    cases hplace : s.handles[handle]? with
    | none => simp [modify, get?, heq, hplace]
    | some place => simp [modify, get?, heq, hplace]
  · rw [if_neg heq]
    cases hplace : s.handles[handle]? with
    | none => simp [modify, hplace]
    | some place =>
      cases hother : s.handles[other]? with
      | none => simp [modify, get?, hplace, hother]
      | some place' =>
        have hne : place ≠ place' := by
          rintro rfl
          exact heq (hother.trans hplace.symm)
        simp [modify, get?, hplace, hother, List.getElem?_modify, hne]

/-- What is done through a handle is done to its value alone. -/
theorem of_values_modify {s : Shared α} {handle place : Nat} {change : α → α} {value' : α}
    (h : (s.modify handle change).values[place]? = some value') :
    ∃ value, s.values[place]? = some value ∧
      (value' = value ∨ s.handles[handle]? = some place ∧ value' = change value) := by
  rw [modify] at h
  split at h
  · next place' hplace =>
    rw [List.getElem?_modify] at h
    obtain ⟨value, hvalue, rfl⟩ := Option.map_eq_some_iff.1 h
    refine ⟨value, hvalue, ?_⟩
    split
    · next heq => exact .inr ⟨heq ▸ hplace, rfl⟩
    · exact .inl rfl
  · exact ⟨value', h, .inl rfl⟩

/-! ### A value and all copies of its handle -/

/-- There is one value, and so many handles, which all belong to it. -/
def IsSole (s : Shared α) (value : α) (handles : Nat) : Prop :=
  s = ⟨[value], List.replicate handles 0⟩

variable {s : Shared α} {value : α} {handles : Nat}

theorem IsSole.clone (h : s.IsSole value handles) (handle : Nat) :
    (s.clone handle).IsSole value (if handle < handles then handles + 1 else handles) := by
  rw [h, Shared.clone, IsSole, List.getElem?_replicate]
  split
  · rw [Option.toList_some, List.replicate_succ']
  · rw [Option.toList_none, List.append_nil]

theorem IsSole.modify (h : s.IsSole value handles) (handle : Nat) (change : α → α) :
    (s.modify handle change).IsSole (if handle < handles then change value else value) handles := by
  rw [h, Shared.modify, IsSole, List.getElem?_replicate]
  by_cases hhandle : handle < handles
  · rw [if_pos hhandle, if_pos hhandle]
    rfl
  · rw [if_neg hhandle, if_neg hhandle]

/-- Through which copy of its handle something is done to a value makes no difference: there is one
value behind all of them, to which everything was done. -/
theorem isSole_after (act : α → μ → α) (value : α) (uses : List (Use μ)) :
    ∃ handles, (after act value uses).IsSole ((moves 1 uses).foldl act value) handles := by
  have hrun : ∀ (s : Shared α) (value : α) (n : Nat), s.IsSole value n →
      ∃ handles, (uses.foldl (use act) s).IsSole ((moves n uses).foldl act value) handles := by
    induction uses with
    | nil => exact fun s value n h => ⟨n, h⟩
    | cons u uses ih =>
      intro s value n h
      cases u with
      | clone handle => exact ih _ _ _ (h.clone handle)
      | via handle move =>
        have hstep := ih _ _ _ (h.modify handle (act · move))
        rw [moves]
        by_cases hhandle : handle < n
        · rw [if_pos hhandle] at hstep ⊢
          exact hstep
        · rw [if_neg hhandle] at hstep ⊢
          exact hstep
  exact hrun _ _ 1 rfl

end Shared

end SignIn
