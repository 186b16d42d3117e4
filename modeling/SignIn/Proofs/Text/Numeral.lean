import SignIn.Proofs.Text.Digits
import SignIn.Text.Numeral

/-!
# Whole numbers are read as they are written

A number can be written with any number of zeros in front. Whatever is written, the reader takes it
for the number that its digits stand for, unless that is larger than its type allows. It gives up at
the first digit at which this shows, but a number that is small enough when all its digits are read
was not larger before.

## Main definitions

* `Numeral.IsDecimal` — digits that stand for a number

## Main results

* `Numeral.natural_of_isDecimal`, `Numeral.integer_of_isDecimal` — what is written is read
* `Numeral.natural_le` — and nothing larger than allowed
-/

namespace SignIn.Numeral

/-- The text consists of digits and stands for the number. -/
structure IsDecimal (text : String) (n : Nat) : Prop where
  ne_nil : text.toList ≠ []
  digits : ∀ d ∈ text.toList, d.isDigit
  value : Nat.ofDigitChars 10 text.toList 0 = n

theorem toList_toString (n : Nat) : (toString n).toList = Nat.toDigits 10 n := Nat.toList_repr

/-- The text of a number stands for it. -/
theorem isDecimal_toString (n : Nat) : IsDecimal (toString n) n where
  ne_nil := toList_toString n ▸ Nat.toDigits_ne_nil
  digits := toList_toString n ▸ Digits.isDigit_toDigits n
  value := by rw [toList_toString, Nat.ofDigitChars_ten_toDigits]

variable {limit n : Nat} {beyond : Error} {text : String}

theorem IsDecimal.unique {m : Nat} (h : IsDecimal text n) (h' : IsDecimal text m) : n = m :=
  h.value.symm.trans h'.value

/-- A number that is small enough is read to its end. -/
theorem readDigits_of_isDigit {digits : List Char} (hdigits : ∀ d ∈ digits, d.isDigit)
    (h : Nat.ofDigitChars 10 digits n ≤ limit) :
    readDigits limit beyond n digits = .ok (Nat.ofDigitChars 10 digits n) := by
  induction digits generalizing n with
  | nil => rfl
  | cons d digits ih =>
    rw [Nat.ofDigitChars_cons] at h ⊢
    have hle : ¬limit < 10 * n + (d.toNat - '0'.toNat) :=
      Nat.not_lt.2 (Nat.le_trans (Digits.le_ofDigitChars digits _) h)
    rw [readDigits, if_pos (hdigits d List.mem_cons_self)]
    dsimp only
    rw [if_neg hle, ih (fun c hc => hdigits c (List.mem_cons_of_mem d hc)) h]

/-- The first digit is not taken for a sign. -/
theorem IsDecimal.exists_cons (h : IsDecimal text n) :
    ∃ d digits, text.toList = d :: digits ∧ d ≠ '+' ∧ d ≠ '-' := by
  obtain ⟨d, digits, htext⟩ := List.exists_cons_of_ne_nil h.ne_nil
  have hd : d.isDigit := h.digits d (htext ▸ List.mem_cons_self)
  refine ⟨d, digits, htext, ?_, ?_⟩ <;> rintro rfl <;> exact absurd hd (by decide)

theorem natural_of_isDecimal (h : IsDecimal text n) (hn : n ≤ limit) :
    natural limit text = .ok n := by
  obtain ⟨d, digits, htext, hplus, -⟩ := h.exists_cons
  have hread : readDigits limit .tooLarge 0 text.toList = .ok n := by
    rw [readDigits_of_isDigit h.digits (h.value ▸ hn), h.value]
  rw [htext] at hread
  rw [natural, htext]
  split
  · next hnil => cases hnil
  · next hcons => exact absurd (List.cons.inj hcons).1 hplus
  · exact hread

theorem integer_of_isDecimal (h : IsDecimal text n) (hn : n ≤ 1 <<< 63 - 1) :
    integer text = .ok (n : Int) := by
  obtain ⟨d, digits, htext, -, hminus⟩ := h.exists_cons
  rw [integer, htext]
  split
  · next hcons => exact absurd (List.cons.inj hcons).1 hminus
  · rw [natural_of_isDecimal h hn]
    rfl

/-! ### What is read is not too large -/

section Bounds

variable {limit n m : Nat} {beyond : Error}

/-- A number that goes beyond its limit is not read to its end. -/
theorem readDigits_le {cs : List Char} (h : readDigits limit beyond n cs = .ok m)
    (hn : n ≤ limit) : m ≤ limit := by
  induction cs generalizing n with
  | nil =>
    cases h
    exact hn
  | cons c cs ih =>
    rw [readDigits] at h
    split at h
    · dsimp only at h
      split at h
      · cases h
      · next hle => exact ih h (Nat.le_of_not_lt hle)
    · cases h

theorem natural_le {text : String} (h : natural limit text = .ok m) : m ≤ limit := by
  rw [natural] at h
  split at h
  · cases h
  · exact readDigits_le h (Nat.zero_le limit)
  · exact readDigits_le h (Nat.zero_le limit)

end Bounds

end SignIn.Numeral
