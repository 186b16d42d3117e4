/-!
# Whole numbers in settings

A whole number is written in decimal digits, with or without a sign in front. Reading goes from
left to right and stops at the first character that is no digit or that makes the number too large
for its type, so these two faults exclude each other.

## Main definitions

* `Numeral.Error` — why a text is no number of its type
* `Numeral.natural`, `Numeral.integer` — numbers without and with a minus sign
-/

namespace SignIn.Numeral

/-- Why a text is no number of its type. -/
inductive Error where
  | empty
  | digit
  | tooLarge
  | tooSmall
  deriving DecidableEq, Repr

/-- The wording of the reason. -/
def Error.message : Error → String
  | .empty => "cannot parse integer from empty string"
  | .digit => "invalid digit found in string"
  | .tooLarge => "number too large to fit in target type"
  | .tooSmall => "number too small to fit in target type"

/-- Reads digits behind the number `n`; a number above `limit` is the fault `beyond`. -/
def readDigits (limit : Nat) (beyond : Error) : Nat → List Char → Except Error Nat
  | n, [] => .ok n
  | n, c :: cs =>
    if c.isDigit then
      let n := 10 * n + (c.toNat - '0'.toNat)
      if limit < n then .error beyond else readDigits limit beyond n cs
    else .error .digit

/-- A number from 0 to `limit`. -/
def natural (limit : Nat) (text : String) : Except Error Nat :=
  match text.toList with
  | [] => .error .empty
  | '+' :: c :: cs => readDigits limit .tooLarge 0 (c :: cs)
  | cs => readDigits limit .tooLarge 0 cs

/-- A number of 64 bits with sign. -/
def integer (text : String) : Except Error Int :=
  match text.toList with
  | '-' :: c :: cs => do return -((← readDigits (1 <<< 63) .tooSmall 0 (c :: cs)) : Int)
  | _ => do return (← natural (1 <<< 63 - 1) text : Int)

end SignIn.Numeral
