import SignIn.Time

/-!
# Nonces

A nonce is a random text that is made up when an authentication starts. The token that comes back
has to carry it, and it is redeemed once.

Whether a nonce can be redeemed depends on the clock, but the clock is not part of the store: every
operation is told the time, and readings need not be in order.

## Main definitions

* `Nonce.text` — a nonce from a random number
* `Nonce.Store` — the nonces that were issued and not redeemed yet
* `Nonce.Store.insert`, `Nonce.Store.take`, `Nonce.Store.purge`, `Nonce.Store.clear`

## Main results

* `Nonce.Store.expiry?_erase`, `Nonce.Store.expiry?_put` — one nonce changes and no other
* `Nonce.Store.expiry?_purge` — purging keeps what is not expired
-/

namespace SignIn.Nonce

/-- The characters of a nonce. -/
def alphabet : String := "ABCDEFGHIJKLMNOPQRSTUVWXYZabcdefghijklmnopqrstuvwxyz0123456789"

/-- How many characters a nonce has. -/
def length : Nat := 32

/-- `n` digits of a number, the lowest first. -/
def digits : (n : Nat) → Nat → List Char
  | 0, _ => []
  | n + 1, number => alphabet.toList.getD (number % 62) 'A' :: digits n (number / 62)

/-- The nonce of a number. Larger numbers than there are nonces begin again with the first one. -/
def text (number : Nat) : String := String.ofList (digits length number)

/-- Nonces that can be redeemed, each with the instant at which it expires. -/
structure Store where
  entries : List (String × Instant)
  deriving DecidableEq, Repr

namespace Store

/-- A store without nonces. -/
def empty : Store := ⟨[]⟩

instance : Inhabited Store := ⟨empty⟩

/-- When a nonce expires, if it is in the store. -/
def expiry? (s : Store) (nonce : String) : Option Instant := s.entries.lookup nonce

/-- How many nonces there are. -/
def size (s : Store) : Nat := s.entries.length

/-- The store without a nonce. -/
def erase (s : Store) (nonce : String) : Store := ⟨s.entries.filter (·.1 ≠ nonce)⟩

/-- The store with a nonce that expires at an instant. -/
def put (s : Store) (nonce : String) (expiry : Instant) : Store :=
  ⟨(s.erase nonce).entries ++ [(nonce, expiry)]⟩

/-- Remembers a nonce for a time. There is no result if it would expire beyond the end of the
calendar. -/
def insert (s : Store) (nonce : String) (now : Instant) (ttl : Int) : Option Store :=
  (now.after? ttl).map (s.put nonce)

/-- Redeems a nonce, which removes it in any case. It has to be there and not expired. -/
def take (s : Store) (nonce : String) (now : Instant) : Bool × Store :=
  ((s.expiry? nonce).any (now < ·), s.erase nonce)

/-- Removes what is expired; the result tells how much that was. -/
def purge (s : Store) (now : Instant) : Nat × Store :=
  let kept := s.entries.filter (now < ·.2)
  (s.entries.length - kept.length, ⟨kept⟩)

/-- Removes everything. -/
def clear (_ : Store) : Store := empty

/-! ### The nonces of a store -/

variable {s : Store} {nonce other : String} {expiry now : Instant} {entry : String × Instant}

@[simp]
theorem mem_entries_erase :
    entry ∈ (s.erase nonce).entries ↔ entry ∈ s.entries ∧ entry.1 ≠ nonce := by
  simp [erase]

@[simp]
theorem mem_entries_put : entry ∈ (s.put nonce expiry).entries ↔
    (entry ∈ s.entries ∧ entry.1 ≠ nonce) ∨ entry = (nonce, expiry) := by
  simp [put]

@[simp]
theorem mem_entries_purge :
    entry ∈ (s.purge now).2.entries ↔ entry ∈ s.entries ∧ now < entry.2 := by
  simp [purge]

/-! ### When a nonce expires -/

theorem mem_of_expiry? (h : s.expiry? nonce = some expiry) : (nonce, expiry) ∈ s.entries := by
  obtain ⟨before, after, hentries, -⟩ := List.lookup_eq_some_iff.1 h
  simp [hentries]

theorem expiry?_cons (name : String) (time : Instant) (entries : List (String × Instant)) :
    expiry? ⟨(name, time) :: entries⟩ other =
      if other = name then some time else expiry? ⟨entries⟩ other := by
  rw [expiry?, List.lookup_cons]
  by_cases h : other = name
  · rw [if_pos h, beq_iff_eq.2 h]
  · rw [if_neg h, beq_eq_false_iff_ne.2 h]
    rfl

/-- Removing a nonce leaves all others. -/
@[simp]
theorem expiry?_erase :
    (s.erase nonce).expiry? other = if other = nonce then none else s.expiry? other := by
  obtain ⟨entries⟩ := s
  rw [erase]
  induction entries with
  | nil => simp [expiry?]
  | cons entry entries ih =>
    obtain ⟨name, time⟩ := entry
    rw [expiry?_cons]
    by_cases hname : name = nonce
    · rw [List.filter_cons_of_neg (by simpa using hname), ih, hname]
      split <;> rfl
    · rw [List.filter_cons_of_pos (by simpa using hname), expiry?_cons, ih]
      by_cases hother : other = name
      · simp [hother, hname]
      · simp [hother]

/-- A nonce that is put in expires as it was told, and all others as before. -/
@[simp]
theorem expiry?_put :
    (s.put nonce expiry).expiry? other =
      if other = nonce then some expiry else s.expiry? other := by
  have hsplit : (s.put nonce expiry).expiry? other =
      ((s.erase nonce).expiry? other).or (expiry? ⟨[(nonce, expiry)]⟩ other) :=
    List.lookup_append
  rw [hsplit, expiry?_erase, expiry?_cons]
  by_cases h : other = nonce <;> simp [h, expiry?]

/-- Purging keeps what is not expired. -/
theorem expiry?_purge (h : s.expiry? nonce = some expiry) (hnow : now < expiry) :
    (s.purge now).2.expiry? nonce = some expiry := by
  obtain ⟨entries⟩ := s
  rw [purge]
  induction entries with
  | nil => simp [expiry?] at h
  | cons entry entries ih =>
    obtain ⟨name, time⟩ := entry
    rw [expiry?_cons] at h
    by_cases hname : nonce = name
    · rw [if_pos hname] at h
      obtain rfl : time = expiry := Option.some.inj h
      rw [List.filter_cons_of_pos (by simpa using hnow), expiry?_cons, if_pos hname]
    · rw [if_neg hname] at h
      have hrest := ih h
      by_cases htime : now < time
      · rw [List.filter_cons_of_pos (by simpa using htime), expiry?_cons, if_neg hname]
        exact hrest
      · rw [List.filter_cons_of_neg (by simpa using htime)]
        exact hrest

end Store

end SignIn.Nonce
