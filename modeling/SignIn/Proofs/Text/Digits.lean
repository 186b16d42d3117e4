/-!
# Written numbers

Numbers are written with the digits of the core library, the highest first and zero as a single
digit. So the digits of a number other than zero do not start with a zero, which many formats would
not read, or not as the same number.

## Main results

* `Digits.isDigit_toDigits` — what a decimal number consists of
* `Digits.head?_toDigits` — it has no needless zero
* `Digits.le_ofDigitChars` — more digits, no smaller number
-/

namespace SignIn.Digits

theorem toNat_of_isDigit {d : Char} (h : d.isDigit) : 48 ≤ d.toNat ∧ d.toNat ≤ 57 := by
  simp only [Char.isDigit, Bool.and_eq_true, decide_eq_true_eq, UInt32.le_iff_toNat_le] at h
  exact h

theorem toNat_lt_of_isDigit {d : Char} (h : d.isDigit) : d.toNat < 0x80 :=
  Nat.lt_of_le_of_lt (toNat_of_isDigit h).2 (by decide)

theorem isDigit_toDigits (n : Nat) : ∀ d ∈ Nat.toDigits 10 n, d.isDigit :=
  fun _ hd => Nat.isDigit_of_mem_toDigits (by decide) (by decide) hd

/-- The digits of a number other than zero do not start with a zero. -/
theorem head?_toDigits {n : Nat} (h : n ≠ 0) : (Nat.toDigits 10 n).head? ≠ some '0' := by
  induction n using Nat.base_induction 10 (by decide) with
  | single n hn =>
    rw [Nat.toDigits_of_lt_base hn]
    revert n
    decide
  | digit m k hk hm ih =>
    obtain ⟨d, digits, hdigits⟩ :=
      List.exists_cons_of_ne_nil (Nat.toDigits_ne_nil (b := 10) (n := m))
    rw [← Nat.toDigits_append_toDigits (by decide) hm hk, hdigits]
    rw [hdigits] at ih
    exact ih (by omega)

/-- Further digits do not make a number smaller. -/
theorem le_ofDigitChars (digits : List Char) (n : Nat) : n ≤ Nat.ofDigitChars 10 digits n := by
  rw [Nat.ofDigitChars_eq_ofDigitChars_zero]
  exact Nat.le_add_right_of_le (Nat.le_mul_of_pos_left n (Nat.pow_pos (by decide)))

end SignIn.Digits
