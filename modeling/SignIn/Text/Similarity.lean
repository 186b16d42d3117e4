/-!
# How alike two words are

When a word is not known, the known word that is most like it may be what was meant. Two words are
the more alike the more characters they share at about the same places, in about the same order:
with `m` shared characters, of which `t` pairs are out of order, words of lengths `a` and `b` have
the likeness `(m / a + m / b + (m - t) / m) / 3`, a number between 0 and 1.

The likeness is kept as an exact fraction.

## Main definitions

* `Likeness`, `Likeness.between`
* `Likeness.mostAlike?` — the known word that is most like a word, if one is like it at all
-/

namespace SignIn

/-- A fraction. -/
structure Likeness where
  numerator : Nat
  denominator : Nat
  deriving DecidableEq, Repr

namespace Likeness

/-- Marks the first character `c` that is not marked yet and whose place lies in the window from
`first` on, before `last`. -/
def claim (c : Char) (first last : Nat) : (place : Nat) → List (Char × Bool) →
    Option (List (Char × Bool))
  | _, [] => none
  | place, (d, taken) :: rest =>
    if first ≤ place ∧ place < last ∧ d = c ∧ ¬taken then some ((d, true) :: rest)
    else (claim c first last (place + 1) rest).map ((d, taken) :: ·)

/-- The characters of a word that find a partner in the other, and the other word with the partners
marked. Partners may lie up to `reach` places apart. -/
def pair (reach : Nat) : (place : Nat) → List Char → List (Char × Bool) →
    List Char × List (Char × Bool)
  | _, [], marked => ([], marked)
  | place, c :: cs, marked =>
    match claim c (place - reach) (place + reach + 1) 0 marked with
    | some marked =>
      let (shared, marked) := pair reach (place + 1) cs marked
      (c :: shared, marked)
    | none => pair reach (place + 1) cs marked

/-- How alike two words are. -/
def between (a b : String) : Likeness :=
  let as := a.toList
  let bs := b.toList
  let (shared, marked) := pair (max as.length bs.length / 2 - 1) 0 as (bs.map (·, false))
  let partners := (marked.filter (·.2)).map (·.1)
  let outOfOrder := ((shared.zip partners).filter fun p => p.1 ≠ p.2).length / 2
  let m := shared.length
  if m = 0 then if as.isEmpty ∧ bs.isEmpty then ⟨1, 1⟩ else ⟨0, 1⟩
  else
    ⟨m * m * bs.length + m * m * as.length + (m - outOfOrder) * as.length * bs.length,
      3 * m * as.length * bs.length⟩

/-- Whether a fraction is at least as large as another. -/
def atLeast (p q : Likeness) : Bool := q.numerator * p.denominator ≤ p.numerator * q.denominator

/-- Words that are less alike than this, or just so, have nothing to do with each other. -/
def threshold : Likeness := ⟨7, 10⟩

/-- The better of two candidates: the second, unless it is less alike. -/
def better (best : Option (String × Likeness)) (next : String × Likeness) :
    Option (String × Likeness) :=
  match best with
  | some old => if next.2.atLeast old.2 then some next else some old
  | none => some next

/-- The known word that is most like a word, if one is like it at all; of several the last. -/
def mostAlike? (word : String) (known : List String) : Option String :=
  let candidates := (known.map fun k => (k, between word k)).filter fun c => !threshold.atLeast c.2
  (candidates.foldl better none).map (·.1)

end Likeness

end SignIn
